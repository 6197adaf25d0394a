import PressRegister.Proofs.Text.Slug

/-!
# Slugs of texts put together

A separator between two texts ends the group of letters that is being written, and the next letter
begins another one. So the slug of both texts is made of their slugs, and a text may be replaced by
its slug before others are put behind it.

## Main definitions

* `Text.joinSlugs`: the slugs of two texts, joined by an underscore if something is left of both.
* `Text.IsSeparator`: a character that separates the letters around it.

## Main results

* `Text.slugChars_separated`: the slug of two texts with a separator between them.
* `Text.slug_slug_append`: a text before a blank may be replaced by its slug.
* `Text.isSeparator_of_isBlank`, `Text.slug_trim`: blanks separate, and at the ends they leave
  nothing.
-/

namespace PressRegister.Text

/-- Two slugs joined by an underscore. A slug of which nothing is left does not count. -/
def joinSlugs : List Char → List Char → List Char
  | [], ds => ds
  | cs, [] => cs
  | cs, ds => cs ++ '_' :: ds

theorem joinSlugs_nil (cs : List Char) : joinSlugs cs [] = cs := by
  cases cs <;> rfl

theorem joinSlugs_of_ne_nil {cs ds : List Char} (hcs : cs ≠ []) (hds : ds ≠ []) :
    joinSlugs cs ds = cs ++ '_' :: ds := by
  obtain ⟨c, cs, rfl⟩ := List.exists_cons_of_ne_nil hcs
  obtain ⟨d, ds, rfl⟩ := List.exists_cons_of_ne_nil hds
  rfl

theorem joinSlugs_ne_nil {cs : List Char} (h : cs ≠ []) (ds : List Char) :
    joinSlugs cs ds ≠ [] := by
  cases ds with
  | nil => rwa [joinSlugs_nil]
  | cons d ds => simp [joinSlugs_of_ne_nil h]

/-- A character that stands for itself in lower case and leaves nothing in a slug. -/
def IsSeparator (c : Char) : Prop :=
  lowerLetter c = [c] ∧ foldLetter c = none

instance : DecidablePred IsSeparator :=
  fun _ => inferInstanceAs (Decidable (_ ∧ _))

/-- A slug under construction behind `cs`, from which it is to be separated, beside the same slug
under construction on its own. -/
structure GoesOn (cs : List Char) (alone behind : SlugState) : Prop where
  written : behind.written = joinSlugs cs alone.written
  separatorDue : behind.separatorDue = (alone.separatorDue || alone.written.isEmpty)

theorem GoesOn.start (cs : List Char) : GoesOn cs ⟨[], false⟩ ⟨cs, true⟩ :=
  ⟨(joinSlugs_nil cs).symm, rfl⟩

theorem GoesOn.step {cs : List Char} {alone behind : SlugState} (h : GoesOn cs alone behind)
    (c : Char) : GoesOn cs (alone.step c) (behind.step c) := by
  unfold SlugState.step
  cases hfold : foldLetter c with
  | none => exact ⟨h.written, rfl⟩
  | some folded =>
    have hfolded : folded ≠ [] := fun hnil => foldLetter_ne_nil c (hnil ▸ hfold)
    have hnonempty : (alone.written ++ (if alone.separatorDue && !alone.written.isEmpty then ['_']
        else []) ++ folded).isEmpty = false := by simp [hfolded]
    refine ⟨?_, by rw [hnonempty]; rfl⟩
    simp only [h.written, h.separatorDue]
    -- the first letters are separated from `cs`, if there is something to separate them from
    by_cases halone : alone.written = []
    · rw [halone, joinSlugs_nil]
      by_cases hcs : cs = []
      · simp [hcs, joinSlugs]
      · simp [hcs, joinSlugs_of_ne_nil hcs hfolded]
    · by_cases hcs : cs = []
      · simp [hcs, joinSlugs, halone]
      · have hboth : ∀ ds,
            joinSlugs cs (alone.written ++ ds) = cs ++ '_' :: (alone.written ++ ds) :=
          fun ds => joinSlugs_of_ne_nil hcs (by simp [halone])
        rw [joinSlugs_of_ne_nil hcs halone, List.append_assoc alone.written, hboth]
        simp [halone]

/-- The slug of two texts with a separator between them is made of their slugs. -/
theorem slugChars_separated {c : Char} (hc : IsSeparator c) (xs ys : List Char) :
    slugChars (xs ++ c :: ys) = joinSlugs (slugChars xs) (slugChars ys) := by
  have hrun : ∀ (letters : List Char) {alone behind : SlugState},
      GoesOn (slugChars xs) alone behind →
        GoesOn (slugChars xs) (letters.foldl .step alone) (letters.foldl .step behind) := by
    intro letters
    induction letters with
    | nil => exact fun h => h
    | cons d rest ih => exact fun h => ih (h.step d)
  have hseparated : slugState (xs ++ c :: ys) =
      (ys.flatMap lowerLetter).foldl .step ⟨slugChars xs, true⟩ := by
    have hstep : (slugState xs).step c = ⟨slugChars xs, true⟩ := by
      simp only [SlugState.step, hc.2]
      rfl
    rw [slugState_append, List.flatMap_cons, hc.1, List.singleton_append, List.foldl_cons, hstep]
  calc slugChars (xs ++ c :: ys) = (slugState (xs ++ c :: ys)).written := rfl
    _ = joinSlugs (slugChars xs) (slugChars ys) := by
      rw [hseparated]
      exact (hrun _ (.start _)).written

theorem slug_separated {c : Char} (hc : IsSeparator c) (x y : String) :
    slug (x ++ String.singleton c ++ y) =
      String.ofList (joinSlugs (slugChars x.toList) (slugChars y.toList)) := by
  have hchars : (x ++ String.singleton c ++ y).toList = x.toList ++ c :: y.toList := by simp
  rw [slug, hchars, slugChars_separated hc]

theorem slug_blank (x y : String) : slug (x ++ " " ++ y) =
    String.ofList (joinSlugs (slugChars x.toList) (slugChars y.toList)) := by
  have hblank : IsSeparator ' ' := by decide
  exact slug_separated hblank x y

/-- A text before a blank may be replaced by its slug. -/
theorem slug_slug_append (x y : String) : slug (slug x ++ " " ++ y) = slug (x ++ " " ++ y) := by
  have hslug : slugChars (slug x).toList = slugChars x.toList := by
    rw [slug, String.toList_ofList, slugChars_slugChars]
  rw [slug_blank, slug_blank, hslug]

/-- Something is left of two texts if something is left of the first one. -/
theorem slug_append_ne_empty {x : String} (h : slug x ≠ "") (y : String) :
    slug (x ++ " " ++ y) ≠ "" := by
  have hx : slugChars x.toList ≠ [] := by simpa [slug] using h
  rw [slug_blank, ne_eq, String.ofList_eq_empty_iff]
  exact joinSlugs_ne_nil hx _

/-- Two slugs are joined as texts: those of which something is left, with an underscore. -/
theorem ofList_joinSlugs (cs ds : List Char) : String.ofList (joinSlugs cs ds) =
    "_".intercalate ([String.ofList cs, String.ofList ds].filter (· != "")) := by
  by_cases hcs : cs = []
  · subst hcs
    by_cases hds : ds = []
    · subst hds
      rfl
    · simp [joinSlugs, hds]
  · by_cases hds : ds = []
    · subst hds
      simp [joinSlugs_nil, hcs]
    · have hboth : [String.ofList cs, String.ofList ds].filter (· != "") =
          [String.ofList cs, String.ofList ds] := by simp [hcs, hds]
      rw [joinSlugs_of_ne_nil hcs hds, hboth, ← String.toList_inj]
      simp

/-! ### Blanks -/

/-- Blanks separate the letters around them. -/
theorem isSeparator_of_isBlank {c : Char} (h : isBlank c = true) : IsSeparator c := by
  have hall : ∀ n ∈ [9, 10, 11, 12, 13, 0x20, 0x85, 0xA0, 0x1680] ++ List.range' 0x2000 11 ++
      [0x2028, 0x2029, 0x202F, 0x205F, 0x3000], IsSeparator (Char.ofNat n) := by
    decide +kernel
  rw [← Char.ofNat_toNat c]
  refine hall _ ?_
  unfold isBlank at h
  simp only [Bool.or_eq_true, Bool.and_eq_true, decide_eq_true_eq, beq_iff_eq] at h
  simp only [List.mem_append, List.mem_cons, List.not_mem_nil, or_false, List.mem_range'_1]
  omega

theorem slugChars_cons_of_isSeparator {c : Char} (hc : IsSeparator c) (cs : List Char) :
    slugChars (c :: cs) = slugChars cs :=
  slugChars_separated hc [] cs

theorem slugChars_append_of_isSeparator {c : Char} (hc : IsSeparator c) (cs : List Char) :
    slugChars (cs ++ [c]) = slugChars cs :=
  (slugChars_separated hc cs []).trans (joinSlugs_nil _)

theorem slugChars_trimStart (cs : List Char) : slugChars (trimStart cs) = slugChars cs := by
  unfold trimStart
  induction cs with
  | nil => rfl
  | cons c cs ih =>
    cases hc : isBlank c with
    | true =>
      rw [List.dropWhile_cons_of_pos hc, ih,
        slugChars_cons_of_isSeparator (isSeparator_of_isBlank hc)]
    | false => rw [List.dropWhile_cons_of_neg (by simp [hc])]

theorem slugChars_trimEnd (cs : List Char) : slugChars (trimEnd cs) = slugChars cs := by
  -- the induction is from the last letter on
  have hreversed : ∀ rs : List Char,
      slugChars (rs.dropWhile isBlank).reverse = slugChars rs.reverse := by
    intro rs
    induction rs with
    | nil => rfl
    | cons c rs ih =>
      cases hc : isBlank c with
      | true =>
        rw [List.dropWhile_cons_of_pos hc, ih, List.reverse_cons,
          slugChars_append_of_isSeparator (isSeparator_of_isBlank hc)]
      | false => rw [List.dropWhile_cons_of_neg (by simp [hc])]
  have h := hreversed cs.reverse
  rwa [List.reverse_reverse] at h

/-- Blanks at the ends of a text leave nothing in its slug. -/
theorem slug_trim (s : String) : slug (trim s) = slug s := by
  rw [slug, trim, String.toList_ofList, trimChars, slugChars_trimEnd, slugChars_trimStart, slug]

end PressRegister.Text
