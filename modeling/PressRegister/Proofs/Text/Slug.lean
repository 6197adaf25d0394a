import PressRegister.Node.Blank

/-!
# Slugs of slugs

A slug is left alone by all that makes a slug of a text: it is in lower case, it has
no blanks, and its groups of letters are joined already. So a blank node that is named
after a label has the slug of the label for its name, whichever of the two a new node is
called after.

## Main definitions

* `isSlugLetter`: the letters that slugs are made of.
* `IsGrouped`: groups of slug letters that single underscores join.
* `NoBlank`: a text holds no blanks.
* `BlankNode.IsLabelled`: the name of a blank node is the slug of its label.
* `BlankNode.IsSlugged`: the name of a blank node is a slug.

## Main results

* `slug_slug`: the slug of a slug.
* `isGrouped_slugChars`: a slug of which something is left is made of such groups.
* `noBlank_slug`, `NoBlank.trim_eq`: a slug is not trimmed.
* `BlankNode.isLabelled_ofLabel`, `BlankNode.slug_ofLabel`: nodes for labels are named after them.
* `BlankNode.IsSlugged.ofLabel_text`: a node is read back from its text without a draw.
-/

namespace PressRegister

namespace Text

open LetterCase

/-- The letters that slugs are made of. -/
def isSlugLetter (c : Char) : Bool :=
  c.isLower || c.isDigit

/-! ### Letters -/

/-- What holds of the characters below 128 holds of a character that is one of them. -/
theorem forall_ascii {P : Char → Prop} (h : ∀ n : Fin 128, P (Char.ofNat n)) {c : Char}
    (hc : c.toNat < 128) : P c := by
  rw [← Char.ofNat_toNat c]
  exact h ⟨c.toNat, hc⟩

theorem toNat_lt_of_isSlugLetter {c : Char} (h : isSlugLetter c = true) : c.toNat < 128 := by
  have h : (decide ('a'.val ≤ c.val) && decide (c.val ≤ 'z'.val) ||
      decide ('0'.val ≤ c.val) && decide (c.val ≤ '9'.val)) = true := h
  simp only [Bool.or_eq_true, Bool.and_eq_true, decide_eq_true_eq, UInt32.le_iff_toNat_le] at h
  change c.val.toNat < 128
  rcases h with ⟨-, h⟩ | ⟨-, h⟩
  · exact Nat.lt_of_le_of_lt h (by decide)
  · exact Nat.lt_of_le_of_lt h (by decide)

theorem lowerLetter_eq_self {c : Char} (h : isSlugLetter c = true) : lowerLetter c = [c] := by
  refine forall_ascii (P := fun c => isSlugLetter c = true → lowerLetter c = [c]) ?_
    (toNat_lt_of_isSlugLetter h) h
  decide

theorem foldLetter_eq_self {c : Char} (h : isSlugLetter c = true) : foldLetter c = some [c] := by
  refine forall_ascii (P := fun c => isSlugLetter c = true → foldLetter c = some [c]) ?_
    (toNat_lt_of_isSlugLetter h) h
  decide

theorem isBlank_eq_false {c : Char} (h : isSlugLetter c = true) : isBlank c = false := by
  refine forall_ascii (P := fun c => isSlugLetter c = true → isBlank c = false) ?_
    (toNat_lt_of_isSlugLetter h) h
  decide

theorem toNat_lt_of_isAlphanum {c : Char} (h : c.isAlphanum = true) : c.toNat < 128 := by
  have h : ((decide ('A'.val ≤ c.val ∧ c.val ≤ 'Z'.val) ||
      decide ('a'.val ≤ c.val) && decide (c.val ≤ 'z'.val)) ||
      decide ('0'.val ≤ c.val) && decide (c.val ≤ '9'.val)) = true := h
  simp only [Bool.or_eq_true, Bool.and_eq_true, decide_eq_true_eq, UInt32.le_iff_toNat_le] at h
  change c.val.toNat < 128
  rcases h with (⟨-, h⟩ | ⟨-, h⟩) | ⟨-, h⟩
  all_goals exact Nat.lt_of_le_of_lt h (by decide)

theorem lt_of_isAlphanum_ofNat {n : Nat} (h : (Char.ofNat n).isAlphanum = true) : n < 128 := by
  by_cases hvalid : n.isValidChar
  · have hchar : Char.ofNat n = Char.ofNatAux n hvalid := dif_pos hvalid
    have hnat : (Char.ofNatAux n hvalid).toNat = n := UInt32.toNat_ofNatLT
    rw [hchar] at h
    have hlt := toNat_lt_of_isAlphanum h
    omega
  · have hchar : Char.ofNat n = '\x00' := dif_neg hvalid
    rw [hchar] at h
    exact absurd h (by decide)

/-- A letter outside of ASCII whose lower-case form is within it has a slug letter for it. -/
theorem isSlugLetter_shiftByRun {c : Char} (hc : 128 ≤ c.toNat)
    (h : (shiftByRun lowerRuns c).isAlphanum = true) :
    isSlugLetter (shiftByRun lowerRuns c) = true := by
  -- all runs but one stay outside of ASCII
  have hruns : lowerRuns.all (fun r => decide (128 ≤ (r.1 : Int) + r.2.2.2) ||
      r.1 == r.2.1 && isSlugLetter (Char.ofNat (Int.ofNat r.1 + r.2.2.2).toNat)) = true := by
    decide +kernel
  unfold shiftByRun at h ⊢
  split at h
  · rename_i r hr
    have hwithin := List.find?_some hr
    have hrun := List.all_eq_true.1 hruns r (List.mem_of_find?_eq_some hr)
    simp only [Bool.or_eq_true, Bool.and_eq_true, decide_eq_true_eq, beq_iff_eq] at hwithin hrun
    rcases hrun with hshift | ⟨hsingle, hletter⟩
    · have hlt := lt_of_isAlphanum_ofNat h
      simp only [Int.ofNat_eq_natCast] at hlt
      omega
    · have heq : c.toNat = r.1 := by omega
      rw [heq]
      exact hletter
  · have hlt := toNat_lt_of_isAlphanum h
    omega

/-- What a letter in lower case leaves in a slug are slug letters. -/
theorem isSlugLetter_of_mem_foldLetter {a c d : Char} {folded : List Char}
    (hc : c ∈ lowerLetter a) (h : foldLetter c = some folded) (hd : d ∈ folded) :
    isSlugLetter d = true := by
  unfold foldLetter at h
  split at h
  · rename_i halnum
    cases h
    obtain rfl := List.mem_singleton.1 hd
    unfold lowerLetter at hc
    split at hc
    · rename_i hascii
      obtain rfl := List.mem_singleton.1 hc
      refine forall_ascii (P := fun a => a.toLower.isAlphanum = true →
        isSlugLetter a.toLower = true) ?_ hascii halnum
      decide
    split at hc
    · rcases List.mem_cons.1 hc with rfl | hc
      · decide
      · obtain rfl := List.mem_singleton.1 hc
        exact absurd halnum (by decide)
    · rename_i hascii _
      obtain rfl := List.mem_singleton.1 hc
      exact isSlugLetter_shiftByRun (by omega) halnum
  · -- the folded letters are written out in the definition
    repeat' split at h
    all_goals cases h
    all_goals
      simp only [List.mem_cons, List.not_mem_nil, or_false] at hd
      rcases hd with rfl | rfl
    all_goals decide

theorem foldLetter_ne_nil (c : Char) : foldLetter c ≠ some [] := by
  unfold foldLetter
  repeat' split
  all_goals simp

/-! ### Slugs -/

/-- The slug under construction after a text. -/
def slugState (cs : List Char) : SlugState :=
  (cs.flatMap lowerLetter).foldl SlugState.step ⟨[], false⟩

theorem slugState_append (xs ys : List Char) :
    slugState (xs ++ ys) = (ys.flatMap lowerLetter).foldl SlugState.step (slugState xs) := by
  simp [slugState, List.flatMap_append, List.foldl_append]

/-- What letters in lower case preserve, a slug under construction has. -/
theorem slugState_induction {P : SlugState → Prop} (hstart : P ⟨[], false⟩)
    (hstep : ∀ st a c, c ∈ lowerLetter a → P st → P (st.step c)) (cs : List Char) :
    P (slugState cs) := by
  unfold slugState
  have hletters : ∀ c ∈ cs.flatMap lowerLetter, ∃ a, c ∈ lowerLetter a := by
    intro c hc
    obtain ⟨a, -, ha⟩ := List.mem_flatMap.1 hc
    exact ⟨a, ha⟩
  generalize (⟨[], false⟩ : SlugState) = st at hstart ⊢
  generalize cs.flatMap lowerLetter = letters at hletters
  induction letters generalizing st with
  | nil => exact hstart
  | cons c rest ih =>
    obtain ⟨a, ha⟩ := hletters c List.mem_cons_self
    exact ih _ (hstep st a c ha hstart) fun d hd => hletters d (List.mem_cons_of_mem _ hd)

/-- Slug letters are written as they are. -/
theorem foldl_step_of_isSlugLetter {cs : List Char} (h : ∀ c ∈ cs, isSlugLetter c = true)
    (written : List Char) : (cs.flatMap lowerLetter).foldl SlugState.step ⟨written, false⟩ =
      ⟨written ++ cs, false⟩ := by
  induction cs generalizing written with
  | nil => simp
  | cons c rest ih =>
    have hc : isSlugLetter c = true := h c List.mem_cons_self
    have hstep : SlugState.step ⟨written, false⟩ c = ⟨written ++ [c], false⟩ := by
      simp [SlugState.step, foldLetter_eq_self hc]
    rw [List.flatMap_cons, lowerLetter_eq_self hc, List.singleton_append, List.foldl_cons, hstep,
      ih fun d hd => h d (List.mem_cons_of_mem _ hd)]
    simp

/-- A slug letter behind a separator is written with an underscore before it. -/
theorem step_of_separatorDue {written : List Char} {c : Char} (hwritten : written ≠ [])
    (hc : isSlugLetter c = true) :
    SlugState.step ⟨written, true⟩ c = ⟨written ++ ['_', c], false⟩ := by
  have hempty : written.isEmpty = false := by simpa using hwritten
  simp [SlugState.step, foldLetter_eq_self hc, hempty]

/-- What is written of a slug makes itself when a slug is made of it, letter by letter. -/
theorem slugState_step {a c : Char} (hc : c ∈ lowerLetter a) {st : SlugState}
    (hst : slugState st.written = ⟨st.written, false⟩) :
    slugState (st.step c).written = ⟨(st.step c).written, false⟩ := by
  unfold SlugState.step
  cases hfold : foldLetter c with
  | none => exact hst
  | some folded =>
    have hletters : ∀ d ∈ folded, isSlugLetter d = true :=
      fun d hd => isSlugLetter_of_mem_foldLetter hc hfold hd
    simp only [List.append_assoc]
    rw [slugState_append, hst]
    by_cases hgap : (st.separatorDue && !st.written.isEmpty) = true
    · have hwritten : st.written ≠ [] := by
        simp only [Bool.and_eq_true, Bool.not_eq_true', List.isEmpty_eq_false_iff] at hgap
        exact hgap.2
      obtain _ | ⟨d, rest⟩ := folded
      · exact absurd hfold (foldLetter_ne_nil c)
      · have hd := hletters d List.mem_cons_self
        have hunderscore : SlugState.step ⟨st.written, false⟩ '_' = ⟨st.written, true⟩ := rfl
        have hlower : lowerLetter '_' = ['_'] := by decide
        rw [if_pos hgap, List.singleton_append, List.flatMap_cons, List.flatMap_cons, hlower,
          lowerLetter_eq_self hd, List.singleton_append, List.singleton_append, List.foldl_cons,
          List.foldl_cons, hunderscore, step_of_separatorDue hwritten hd,
          foldl_step_of_isSlugLetter fun c hc => hletters c (List.mem_cons_of_mem _ hc)]
        simp
    · rw [if_neg hgap]
      exact foldl_step_of_isSlugLetter hletters _

theorem slugChars_slugChars (cs : List Char) : slugChars (slugChars cs) = slugChars cs := by
  have h : slugState (slugState cs).written = ⟨(slugState cs).written, false⟩ :=
    slugState_induction (P := fun st => slugState st.written = ⟨st.written, false⟩) rfl
      (fun _ _ _ hc hst => slugState_step hc hst) cs
  change (slugState (slugState cs).written).written = (slugState cs).written
  rw [h]

/-- The slug of a slug is the slug itself. -/
theorem slug_slug (s : String) : slug (slug s) = slug s := by
  simp [slug, slugChars_slugChars]

/-- Groups of slug letters that single underscores join. -/
inductive IsGrouped : List Char → Prop
  | group {cs : List Char} (hne : cs ≠ []) (h : ∀ c ∈ cs, isSlugLetter c = true) : IsGrouped cs
  | join {cs ds : List Char} (hcs : IsGrouped cs) (hds : IsGrouped ds) : IsGrouped (cs ++ '_' :: ds)

/-- Slug letters behind groups go on with the last one. -/
theorem IsGrouped.append {cs ds : List Char} (hcs : IsGrouped cs)
    (hds : ∀ d ∈ ds, isSlugLetter d = true) : IsGrouped (cs ++ ds) := by
  induction hcs with
  | group hne h =>
    refine .group (by simp [hne]) fun c hc => ?_
    exact (List.mem_append.1 hc).elim (h c) (hds c)
  | join hcs _ _ ih =>
    rw [List.append_assoc, List.cons_append]
    exact .join hcs ih

/-- A slug of which something is left is made of groups that single underscores join. -/
theorem isGrouped_slugChars {cs : List Char} (h : slugChars cs ≠ []) :
    IsGrouped (slugChars cs) := by
  have hgrouped : (slugState cs).written = [] ∨ IsGrouped (slugState cs).written := by
    refine slugState_induction (P := fun st => st.written = [] ∨ IsGrouped st.written) (.inl rfl)
      ?_ cs
    intro st a c hc hst
    unfold SlugState.step
    cases hfold : foldLetter c with
    | none => exact hst
    | some folded =>
      have hletters : ∀ d ∈ folded, isSlugLetter d = true :=
        fun d hd => isSlugLetter_of_mem_foldLetter hc hfold hd
      have hne : folded ≠ [] := fun hnil => foldLetter_ne_nil c (hnil ▸ hfold)
      refine .inr ?_
      rcases hst with hnil | hst
      · simpa [hnil] using IsGrouped.group hne hletters
      · by_cases hgap : (st.separatorDue && !st.written.isEmpty) = true
        · simpa [hgap] using IsGrouped.join hst (.group hne hletters)
        · simpa [hgap] using hst.append hletters
  exact hgrouped.resolve_left h

theorem slug_eq_empty_or_isGrouped (s : String) : slug s = "" ∨ IsGrouped (slug s).toList := by
  by_cases h : slugChars s.toList = []
  · exact .inl (by rw [slug, h, String.ofList_nil])
  · exact .inr (by simpa [slug] using isGrouped_slugChars h)

/-- The mark of a blank node leaves nothing in a slug. -/
theorem slugChars_marked (rest : List Char) : slugChars ('_' :: ':' :: rest) = slugChars rest := by
  -- before anything is written it makes no difference that a separator is due
  have hstart : ∀ letters : List Char, (letters.foldl SlugState.step ⟨[], true⟩).written =
      (letters.foldl SlugState.step ⟨[], false⟩).written := by
    intro letters
    cases letters with
    | nil => rfl
    | cons c rest =>
      have hstep : SlugState.step ⟨[], true⟩ c = SlugState.step ⟨[], false⟩ c := by
        unfold SlugState.step
        cases foldLetter c <;> rfl
      rw [List.foldl_cons, List.foldl_cons, hstep]
  have hlower : lowerLetter '_' = ['_'] ∧ lowerLetter ':' = [':'] := by decide
  have hmark : SlugState.step (SlugState.step ⟨[], false⟩ '_') ':' = ⟨[], true⟩ := by decide
  simp only [slugChars, List.flatMap_cons, hlower, List.singleton_append, List.foldl_cons, hmark,
    hstart]

theorem slug_marked (s : String) : slug ("_:" ++ s) = slug s := by
  have hchars : ("_:" ++ s).toList = '_' :: ':' :: s.toList := by simp
  rw [slug, hchars, slugChars_marked, slug]

/-- Slug letters in two groups that an underscore joins are a slug. -/
theorem slugChars_joined {cs ds : List Char} (hcs : cs ≠ []) (hds : ds ≠ [])
    (hletters : ∀ c ∈ cs ++ ds, isSlugLetter c = true) :
    slugChars (cs ++ '_' :: ds) = cs ++ '_' :: ds := by
  obtain ⟨d, rest, rfl⟩ := List.exists_cons_of_ne_nil hds
  have hfirst : slugState cs = ⟨cs, false⟩ :=
    foldl_step_of_isSlugLetter (fun c hc => hletters c (by simp [hc])) []
  have hd : isSlugLetter d = true := hletters d (by simp)
  have hunderscore : SlugState.step ⟨cs, false⟩ '_' = ⟨cs, true⟩ := rfl
  have hlower : lowerLetter '_' = ['_'] := by decide
  change (slugState (cs ++ '_' :: d :: rest)).written = _
  rw [slugState_append, hfirst, List.flatMap_cons, List.flatMap_cons, hlower,
    lowerLetter_eq_self hd, List.singleton_append, List.singleton_append, List.foldl_cons,
    List.foldl_cons, hunderscore, step_of_separatorDue hcs hd,
    foldl_step_of_isSlugLetter fun c hc => hletters c (by simp [hc])]
  simp

theorem isSlugLetter_of_isLowerHexDigit {c : Char} (h : isLowerHexDigit c = true) :
    isSlugLetter c = true := by
  have hascii : c.toNat < 128 := by
    simp only [isLowerHexDigit, Bool.or_eq_true, Bool.and_eq_true, decide_eq_true_eq,
      Char.le_def, UInt32.le_iff_toNat_le] at h
    change c.val.toNat < 128
    rcases h with ⟨-, h⟩ | ⟨-, h⟩
    all_goals exact Nat.lt_of_le_of_lt h (by decide)
  refine forall_ascii (P := fun c => isLowerHexDigit c = true → isSlugLetter c = true) ?_ hascii h
  decide

/-! ### Blanks -/

/-- A text holds no blanks. -/
def NoBlank (s : String) : Prop :=
  ∀ c ∈ s.toList, isBlank c = false

theorem NoBlank.append {s t : String} (hs : NoBlank s) (ht : NoBlank t) : NoBlank (s ++ t) := by
  intro c hc
  rw [String.toList_append] at hc
  rcases List.mem_append.1 hc with hc | hc
  · exact hs c hc
  · exact ht c hc

/-- A text without blanks is not trimmed. -/
theorem NoBlank.trim_eq {s : String} (hs : NoBlank s) : trim s = s := by
  unfold trim
  rw [trimChars_eq_self, String.ofList_toList]
  · exact fun c hc => hs c (List.mem_of_head? hc)
  · exact fun c hc => hs c (List.mem_of_getLast? hc)

/-- A slug is made of slug letters and of underscores. -/
theorem isSlugLetter_of_mem_slug {s : String} {c : Char} (h : c ∈ (slug s).toList) :
    isSlugLetter c = true ∨ c = '_' := by
  have hwritten : ∀ c ∈ (slugState s.toList).written, isSlugLetter c = true ∨ c = '_' := by
    refine slugState_induction
      (P := fun st => ∀ c ∈ st.written, isSlugLetter c = true ∨ c = '_') (by simp) ?_ _
    intro st a d hd hst c hc
    unfold SlugState.step at hc
    cases hfold : foldLetter d with
    | none =>
      rw [hfold] at hc
      exact hst c hc
    | some folded =>
      rw [hfold, List.mem_append, List.mem_append] at hc
      rcases hc with (hc | hc) | hc
      · exact hst c hc
      · split at hc
        · exact .inr (List.mem_singleton.1 hc)
        · cases hc
      · exact .inl (isSlugLetter_of_mem_foldLetter hd hfold hc)
  exact hwritten c (by simpa [slug, slugChars, slugState] using h)

theorem noBlank_slug (s : String) : NoBlank (slug s) := by
  intro c hc
  rcases isSlugLetter_of_mem_slug hc with hc | rfl
  · exact isBlank_eq_false hc
  · decide

theorem noBlank_randomSuffix (n : BitVec 128) : NoBlank (String.ofList (randomSuffix n)) := by
  intro c hc
  have hdigit : isLowerHexDigit c = true := by
    refine List.all_eq_true.1 (hexPadded_all 32 n.toNat) c ?_
    exact List.mem_of_mem_take (by simpa [randomSuffix, randomName] using hc)
  exact isBlank_eq_false (isSlugLetter_of_isLowerHexDigit hdigit)

end Text

namespace BlankNode

open Text

/-- Blank nodes are compared by their names. -/
theorem beq_iff_name_eq {a b : BlankNode} : (a == b) = true ↔ a.name = b.name :=
  beq_iff_eq (α := String)

/-- The name of a blank node is the slug of its label, if the label has one. -/
def IsLabelled (b : BlankNode) : Prop :=
  slug (trim (b.label.getD b.name)) = b.name ∨ slug (trim (b.label.getD b.name)) = ""

theorem exists_of_markedName? {cs : List Char} {name : String} (h : markedName? cs = some name) :
    ∃ s, name = slug s := by
  unfold markedName? at h
  split at h
  · rename_i rest
    simp only [Option.ite_none_left_eq_some, Option.some.injEq] at h
    exact ⟨String.ofList rest, by simp [slug, ← h.2]⟩
  · cases h

/-- The blank node for a label is named after it. -/
theorem isLabelled_ofLabel (text : String) (supply : Supply) :
    (ofLabel text supply).1.IsLabelled := by
  unfold ofLabel
  simp only
  split
  · rename_i name hname
    obtain ⟨s, rfl⟩ := exists_of_markedName? hname
    exact .inl (by simp [(noBlank_slug s).trim_eq, slug_slug])
  · have hlabel : slug (trim (String.ofList (trimChars text.toList))) =
        String.ofList (slugChars (trimChars text.toList)) := by
      simp [slug, trim, trimChars_trimChars]
    split
    · rename_i hempty
      refine .inr ?_
      rw [Option.getD_some, hlabel, List.isEmpty_iff.1 hempty]
    · exact .inl hlabel

/-- The slug of a label is told by its blank node. -/
theorem slug_ofLabel (text : String) (supply : Supply) :
    slug (trim ((ofLabel text supply).1.label.getD (ofLabel text supply).1.name)) =
      slug (trim text) := by
  have hslug : slug (trim text) = String.ofList (slugChars (trimChars text.toList)) := by
    simp [slug, trim]
  have hlabel : slug (trim (String.ofList (trimChars text.toList))) = slug (trim text) := by
    simp [slug, trim, trimChars_trimChars]
  unfold ofLabel
  simp only
  split
  · rename_i name hname
    obtain ⟨s, rfl⟩ := exists_of_markedName? hname
    unfold markedName? at hname
    split at hname
    · rename_i rest hmarked
      simp only [Option.ite_none_left_eq_some, Option.some.injEq] at hname
      rw [Option.getD_none, (noBlank_slug s).trim_eq, slug_slug, hslug, hmarked, slugChars_marked]
      exact hname.2.symm
    · cases hname
  · split <;> exact hlabel

/-- A blank node that is named after its label has the slug of the label for a name, if there is
one. -/
theorem IsLabelled.name_eq {b : BlankNode} (h : b.IsLabelled) {name : String}
    (hname : slug (trim (b.label.getD b.name)) = name) (hne : name ≠ "") : b.name = name := by
  rcases h with h | h
  · exact h.symm.trans hname
  · exact absurd (hname.symm.trans h) hne

/-- The name of a node that is read from a label is a slug. -/
def IsSlugged (b : BlankNode) : Prop :=
  slug b.name = b.name ∧ b.name ≠ ""

theorem IsSlugged.isGrouped {b : BlankNode} (h : b.IsSlugged) : IsGrouped b.name.toList := by
  have hname : slugChars b.name.toList = b.name.toList := by
    simpa [slug] using congrArg String.toList h.1
  rw [← hname]
  exact isGrouped_slugChars (by rw [hname]; simpa using h.2)

theorem slug_randomText (n : BitVec 128) : slug (randomText n) = randomText n := by
  have hletters : ∀ c ∈ randomName n, isSlugLetter c = true := fun c hc =>
    isSlugLetter_of_isLowerHexDigit (List.all_eq_true.1 (hexPadded_all 32 n.toNat) c hc)
  have hne : randomName n ≠ [] := by
    have hlength : (randomName n).length = 32 := hexPadded_length 32 n.toNat
    exact List.ne_nil_of_length_pos (by omega)
  have hnew : "new".toList.all isSlugLetter = true := by decide
  have hprefix : "new_".toList = "new".toList ++ ['_'] := by decide
  change slug (String.ofList ("new_".toList ++ randomName n)) =
    String.ofList ("new_".toList ++ randomName n)
  simp only [slug, String.toList_ofList, hprefix]
  generalize randomName n = name at hletters hne
  rw [List.append_assoc, List.singleton_append, slugChars_joined (by decide) hne]
  exact fun c hc => (List.mem_append.1 hc).elim (List.all_eq_true.1 hnew c) (hletters c)

theorem randomText_ne_empty (n : BitVec 128) : randomText n ≠ "" := by
  change String.ofList ("new_".toList ++ randomName n) ≠ ""
  simp

/-- Nodes that are read from labels have slugs for their names. -/
theorem isSlugged_ofLabel (text : String) (supply : Supply) :
    (ofLabel text supply).1.IsSlugged := by
  unfold ofLabel
  simp only
  split
  · rename_i name hname
    unfold markedName? at hname
    split at hname
    · rename_i rest _
      simp only [Option.ite_none_left_eq_some, Option.some.injEq] at hname
      obtain ⟨hne, rfl⟩ := hname
      exact ⟨by simp [slug, slugChars_slugChars], by simpa using hne⟩
    · cases hname
  · split
    · exact ⟨slug_randomText _, randomText_ne_empty _⟩
    · rename_i hne
      exact ⟨by simp [slug, slugChars_slugChars], by simpa using hne⟩

theorem isSlugged_fresh (supply : Supply) : (fresh supply).1.IsSlugged :=
  ⟨slug_randomText _, randomText_ne_empty _⟩

/-- A slugged node is read from its text, and nothing is drawn for it. -/
theorem IsSlugged.ofLabel_text {b : BlankNode} (h : b.IsSlugged) (supply : Supply) :
    ofLabel b.text supply = (⟨b.name, none⟩, supply) := by
  have hblank : NoBlank b.text := by
    have hname : NoBlank b.name := by
      rw [← h.1]
      exact noBlank_slug b.name
    intro c hc
    simp only [text, chars, String.toList_ofList, List.mem_cons] at hc
    rcases hc with rfl | rfl | hc
    · decide
    · decide
    · exact hname c hc
  have hchars : trimChars b.text.toList = '_' :: ':' :: b.name.toList := by
    have htrim := congrArg String.toList hblank.trim_eq
    simpa [trim, text, chars] using htrim
  have hslug : slugChars b.name.toList = b.name.toList := by
    have hname := congrArg String.toList h.1
    simpa [slug] using hname
  have hmarked : markedName? ('_' :: ':' :: b.name.toList) = some b.name := by
    simp [markedName?, hslug, h.2]
  simp only [ofLabel, hchars, hmarked]

end BlankNode

end PressRegister
