import PressRegister.Proofs.Inventory.Registry
import PressRegister.Proofs.Naming
import PressRegister.Proofs.Text.SlugComposition

/-!
# The names of sources

A source is called by its name, by its name and channel, or by its name, country and channel,
whichever is free first. It makes no difference that the slug of the name takes the place of the
name in the longer ones, nor that a name which repeats the one before it is not looked up again. A
source whose names are all taken is called by the last one with a suffix of six digits.

## Main definitions

* `Naming.sourceNames`: the names of a source in order.
* `Store.FirstFree`: the first of several names that no node has.
* `Store.Chooses`: the first free name, or the last one with a suffix.

## Main results

* `Naming.firstFree_finds`: what a row of look-ups finds.
* `Naming.exists_sourceUniqueName`: every source with a name that leaves a slug gets a unique name.
* `Naming.sourceUniqueName_chooses`: which names are refused, and which one is chosen.
-/

namespace PressRegister

open Consult Text

namespace Store

variable {s : Store} {names : List String} {v : String}

/-- The first of several names that no node has. -/
def FirstFree (s : Store) (names : List String) (v : String) : Prop :=
  ∃ taken rest, names = taken ++ v :: rest ∧ (∀ c ∈ taken, ¬ s.IsFree c) ∧ s.IsFree v

/-- The name that is chosen among several: the first free one, or the last one with a suffix if
none is free. -/
inductive Chooses (s : Store) (names : List String) : String → Prop
  | free {v : String} (h : s.FirstFree names v) : Chooses s names v
  | suffixed {last : String} {digits : List Char} (hlast : names.getLast? = some last)
      (htaken : ∀ c ∈ names, ¬ s.IsFree c) (hlength : digits.length = 6)
      (hdigits : ∀ d ∈ digits, isLowerHexDigit d = true) :
      Chooses s names (last ++ "_" ++ String.ofList digits)

/-- A name that is free is chosen before those behind it, and one that is taken is passed over. -/
theorem firstFree_cons {c : String} :
    s.FirstFree (c :: names) v ↔ s.IsFree c ∧ v = c ∨ ¬ s.IsFree c ∧ s.FirstFree names v := by
  constructor
  · rintro ⟨taken, rest, heq, htaken, hfree⟩
    cases taken with
    | nil =>
      obtain ⟨rfl, -⟩ := List.cons.inj heq
      exact .inl ⟨hfree, rfl⟩
    | cons d taken =>
      obtain ⟨rfl, rfl⟩ := List.cons.inj heq
      exact .inr ⟨htaken c List.mem_cons_self, taken, rest, rfl,
        fun c' hc' => htaken c' (List.mem_cons_of_mem _ hc'), hfree⟩
  · rintro (⟨hfree, rfl⟩ | ⟨hc, taken, rest, rfl, htaken, hfree⟩)
    · exact ⟨[], names, rfl, by simp, hfree⟩
    · exact ⟨c :: taken, rest, rfl, List.forall_mem_cons.2 ⟨hc, htaken⟩, hfree⟩

theorem FirstFree.mem (h : s.FirstFree names v) : v ∈ names := by
  obtain ⟨taken, rest, rfl, -, -⟩ := h
  simp

end Store

namespace Naming

variable {s : Store} {schema : Schema} {fixed : Option Json} {before after : Desk}

/-! ### Rows of look-ups -/

/-- A unique name can be looked up if the schema has unique names. -/
theorem exists_isTaken (hschema : (schema.predicate? "unique_name").isSome = true)
    (name : String) (before : Desk) :
    ∃ taken after, (isTaken (s.directory schema fixed) name).Yields before taken after := by
  have hregistered : ¬ ((s.directory schema fixed).schema.predicate? "unique_name").isNone := by
    simpa [Store.directory, Option.isSome_iff_ne_none] using hschema
  have hrows : ∃ rows, Lookup.rows Lookup.uidRow?
      (s.answer fixed (Lookup.valueQuestion "unique_name" name)) = .ok rows := by
    rw [Store.answer_valueQuestion]
    cases s.holder? "unique_name" name with
    | none => exact ⟨[], rfl⟩
    | some w => exact ⟨[w], rfl⟩
  obtain ⟨rows, hrows⟩ := hrows
  simp only [isTaken, Lookup.findUid, if_neg hregistered, Lookup.askRows, yields_bind, yields_ask,
    yields_settle, yields_pure]
  exact ⟨_, _, _, _, ⟨rows, _, ⟨_, _, ⟨rfl, rfl⟩, hrows, rfl⟩, rfl, rfl⟩, rfl, rfl⟩

theorem exists_firstFree (hschema : (schema.predicate? "unique_name").isSome = true)
    (names : List String) (before : Desk) :
    ∃ r after, (firstFree (s.directory schema fixed) names).Yields before r after := by
  induction names generalizing before with
  | nil => exact ⟨none, before, yields_pure.2 ⟨rfl, rfl⟩⟩
  | cons name rest ih =>
    obtain ⟨taken, mid, htaken⟩ : ∃ taken mid, (isTaken (s.directory schema fixed) name).Yields
        before taken mid := exists_isTaken hschema name before
    cases taken with
    | true =>
      obtain ⟨r, after, hrest⟩ := ih mid
      exact ⟨r, after, yields_bind.2 ⟨true, mid, htaken, hrest⟩⟩
    | false => exact ⟨some name, mid, yields_bind.2 ⟨false, mid, htaken, yields_pure.2 ⟨rfl, rfl⟩⟩⟩

/-- A row of look-ups finds the first free name, or that all names are taken. -/
theorem firstFree_finds (hsound : s.Sound) {names : List String} {r : Option String}
    (h : (firstFree (s.directory schema fixed) names).Yields before r after) :
    (∀ v ∈ r, s.FirstFree names v) ∧ (r = none → ∀ c ∈ names, ¬ s.IsFree c) := by
  induction names generalizing before with
  | nil =>
    obtain ⟨rfl, -⟩ := yields_pure.1 h
    simp
  | cons name rest ih =>
    obtain ⟨taken, mid, htaken, h⟩ := yields_bind.1 h
    obtain ⟨hfree, -⟩ := Store.isTaken_yields hsound htaken
    cases taken with
    | true =>
      have hname : ¬ s.IsFree name := fun hname => nomatch hfree.2 hname
      obtain ⟨hsome, hnone⟩ := ih h
      exact ⟨fun v hv => Store.firstFree_cons.2 (.inr ⟨hname, hsome v hv⟩),
        fun hr => List.forall_mem_cons.2 ⟨hname, hnone hr⟩⟩
    | false =>
      obtain ⟨rfl, -⟩ := yields_pure.1 h
      refine ⟨fun v hv => ?_, fun hr => nomatch hr⟩
      exact Store.firstFree_cons.2 (.inl ⟨hfree.1 rfl, (Option.some.inj hv).symm⟩)

/-! ### Names that repeat the one before -/

/-- A name that repeats the one before it is not the first free one. -/
theorem firstFree_of_withoutStutter {names : List String} {v : String}
    (h : s.FirstFree (withoutStutter names) v) : s.FirstFree names v := by
  fun_induction withoutStutter names with
  | case1 => exact h
  | case2 => exact h
  | case3 a rest ih =>
    have hrest := ih h
    rcases Store.firstFree_cons.1 hrest with ⟨ha, rfl⟩ | ⟨ha, -⟩
    · exact Store.firstFree_cons.2 (.inl ⟨ha, rfl⟩)
    · exact Store.firstFree_cons.2 (.inr ⟨ha, hrest⟩)
  | case4 a b rest hab ih =>
    rcases Store.firstFree_cons.1 h with hfree | ⟨ha, hrest⟩
    · exact Store.firstFree_cons.2 (.inl hfree)
    · exact Store.firstFree_cons.2 (.inr ⟨ha, ih hrest⟩)

theorem getLast?_withoutStutter (names : List String) :
    (withoutStutter names).getLast? = names.getLast? := by
  fun_induction withoutStutter names with
  | case1 => rfl
  | case2 => rfl
  | case3 a rest ih => rw [ih, List.getLast?_cons_cons]
  | case4 a b rest hab ih =>
    rw [List.getLast?_cons, ih, List.getLast?_cons_cons, List.getLast?_cons, Option.getD_some]

theorem mem_withoutStutter {names : List String} {v : String} (h : v ∈ names) :
    v ∈ withoutStutter names := by
  fun_induction withoutStutter names with
  | case1 => exact h
  | case2 => exact h
  | case3 a rest ih =>
    refine ih ?_
    rcases List.mem_cons.1 h with rfl | h
    · exact List.mem_cons_self
    · exact h
  | case4 a b rest hab ih =>
    rcases List.mem_cons.1 h with rfl | h
    · exact List.mem_cons_self
    · exact List.mem_cons_of_mem _ (ih h)

/-! ### Names of sources -/

/-- The names of a source: its own name, the one with its channel if it has one, and the one with
country and channel if it has both. -/
def sourceNames (name : String) (channel country : Option String) : List String :=
  slug name :: channel.toList.flatMap fun channel =>
    slug (name ++ " " ++ channel) ::
      country.toList.map fun country => slug (name ++ " " ++ country ++ " " ++ channel)

/-- The candidates for the unique name of a source are its names. -/
theorem sourceCandidates_slug (name : String) (channel country : Option String) :
    sourceCandidates (slug name) channel country = sourceNames name channel country := by
  cases channel with
  | none => rfl
  | some channel =>
    cases country with
    | none => simp [sourceCandidates, sourceNames, slug_slug_append]
    | some country =>
      have hthree : ∀ x : String, x ++ " " ++ country ++ " " ++ channel =
          x ++ " " ++ (country ++ " " ++ channel) := fun x => by simp [String.append_assoc]
      simp [sourceCandidates, sourceNames, slug_slug_append, hthree]

/-- Something is left of every name of a source. -/
theorem isGrouped_sourceNames {name : String} (hname : slug name ≠ "")
    {channel country : Option String} {v : String} (hv : v ∈ sourceNames name channel country) :
    IsGrouped v.toList := by
  have hgrouped : ∀ text, slug text ≠ "" → IsGrouped (slug text).toList := fun text htext =>
    (slug_eq_empty_or_isGrouped text).resolve_left htext
  simp only [sourceNames, List.mem_cons, List.mem_flatMap, List.mem_map, Option.mem_toList] at hv
  rcases hv with rfl | ⟨channel, -, rfl | ⟨country, -, rfl⟩⟩
  · exact hgrouped _ hname
  · exact hgrouped _ (slug_append_ne_empty hname _)
  · refine hgrouped _ (slug_append_ne_empty ?_ _)
    exact slug_append_ne_empty hname _

theorem isLowerHexDigit_randomSuffix (n : BitVec 128) :
    (randomSuffix n).length = 6 ∧ ∀ d ∈ randomSuffix n, isLowerHexDigit d = true := by
  refine ⟨?_, fun d hd => ?_⟩
  · simp [randomSuffix, randomName, hexPadded_length]
  · exact List.all_eq_true.1 (hexPadded_all 32 n.toNat) d (List.mem_of_mem_take hd)

/-- Whatever is chosen among names that are made of groups is made of groups. -/
theorem isGrouped_of_chooses {names : List String} {v : String}
    (hnames : ∀ c ∈ names, IsGrouped c.toList) (h : s.Chooses names v) : IsGrouped v.toList := by
  cases h with
  | free h => exact hnames v h.mem
  | @suffixed last digits hlast _ hlength hdigits =>
    have hsuffix : IsGrouped digits :=
      .group (List.ne_nil_of_length_pos (by omega)) fun d hd =>
        isSlugLetter_of_isLowerHexDigit (hdigits d hd)
    have hlist : (last ++ "_" ++ String.ofList digits).toList = last.toList ++ '_' :: digits := by
      simp
    rw [hlist]
    exact .join (hnames last (List.mem_of_getLast? hlast)) hsuffix

/-- A source whose name leaves a slug is called by one of its names. -/
theorem exists_sourceUniqueName (hsound : s.Sound)
    (hschema : (schema.predicate? "unique_name").isSome = true) {name : String}
    (hname : slug name ≠ "") (channel country : Option String) (before : Desk) :
    ∃ v after, (sourceUniqueName (s.directory schema fixed) name channel country).Yields before v
      after ∧ s.Chooses (sourceNames name channel country) v := by
  have hbase : baseName name = .ok (slug name) := by
    simp [baseName, String.isEmpty_iff, hname]
  have hcandidates := sourceCandidates_slug name channel country
  obtain ⟨r, mid, hfirst⟩ : ∃ r mid, (firstFree (s.directory schema fixed)
      (withoutStutter (sourceNames name channel country))).Yields before r mid :=
    exists_firstFree hschema _ before
  obtain ⟨hsome, hnone⟩ := firstFree_finds hsound hfirst
  simp only [sourceUniqueName, yields_bind, yields_settle, hbase]
  rw [← hcandidates] at hfirst
  cases r with
  | some v =>
    exact ⟨v, mid, ⟨slug name, before, ⟨rfl, rfl⟩, some v, mid, hfirst, yields_pure.2 ⟨rfl, rfl⟩⟩,
      .free (firstFree_of_withoutStutter (hsome v rfl))⟩
  | none =>
    obtain ⟨last, hlast⟩ : ∃ last, (sourceNames name channel country).getLast? = some last :=
      ⟨_, List.getLast?_eq_some_getLast (List.cons_ne_nil _ _)⟩
    have hsuffix := isLowerHexDigit_randomSuffix mid.supply.next.1
    refine ⟨_, _, ⟨slug name, before, ⟨rfl, rfl⟩, none, mid, hfirst, yields_draw.2 ⟨rfl, rfl⟩⟩, ?_⟩
    rw [hcandidates, getLast?_withoutStutter, hlast]
    exact .suffixed hlast (fun c hc => hnone rfl c (mem_withoutStutter hc)) hsuffix.1 hsuffix.2

/-- The unique name of a source is refused exactly if its name leaves nothing in a slug. Otherwise
it is the first of the names of the source that no node has, or the last one with a suffix, and it
is made of groups that single underscores join. -/
theorem sourceUniqueName_chooses (hsound : s.Sound)
    (hschema : (schema.predicate? "unique_name").isSome = true) (name : String)
    (channel country : Option String) (before : Desk) :
    ((∃ predicate value reason after,
        (sourceUniqueName (s.directory schema fixed) name channel country).outcome before =
          (.error (.invalidValue predicate value reason), after)) ↔ slug name = "") ∧
      (slug name ≠ "" → ∃ v after,
        (sourceUniqueName (s.directory schema fixed) name channel country).Yields before v after ∧
          s.Chooses (sourceNames name channel country) v ∧ IsGrouped v.toList) := by
  have hchosen : slug name ≠ "" → ∃ v after,
      (sourceUniqueName (s.directory schema fixed) name channel country).Yields before v after ∧
        s.Chooses (sourceNames name channel country) v := fun hname =>
    exists_sourceUniqueName hsound hschema hname channel country before
  refine ⟨⟨?_, fun hempty => ?_⟩, fun hname => ?_⟩
  · rintro ⟨predicate, value, reason, after, herror⟩
    by_contra hname
    obtain ⟨v, after', hyields, -⟩ := hchosen hname
    rw [Yields, herror] at hyields
    cases hyields
  · have hbase : baseName name =
        .error (.invalidValue "name" name "cannot derive a unique name") := by
      simp [baseName, hempty]
    have hrefused :
        (sourceUniqueName (s.directory schema fixed) name channel country).outcome before =
          (.error (.invalidValue "name" name "cannot derive a unique name"), before) := by
      rw [sourceUniqueName, outcome_bind, hbase]
      rfl
    exact ⟨_, _, _, _, hrefused⟩
  · obtain ⟨v, after, hyields, hchooses⟩ := hchosen hname
    exact ⟨v, after, hyields, hchooses,
      isGrouped_of_chooses (fun c hc => isGrouped_sourceNames hname hc) hchooses⟩

/-- A store with two sources of the name of a third one. -/
def kroneStore : Store :=
  ((Store.empty.addEntry "Source" "krone" none).2.addEntry "Source" "krone_instagram" none).2

/-- A third source of that name is called after its country as well, or by all three with a
suffix. -/
theorem sourceUniqueName_chooses_krone :
    kroneStore.Sound ∧ (Inventory.schema.predicate? "unique_name").isSome = true ∧
      slug "Krone" ≠ "" ∧ ∃ v after, (sourceUniqueName (kroneStore.directory Inventory.schema none)
        "Krone" (some "Instagram") (some "Austria")).Yields Desk.clean v after ∧
          kroneStore.Chooses ["krone", "krone_instagram", "krone_austria_instagram"] v ∧
          IsGrouped v.toList := by
  have hsound : kroneStore.Sound := (Store.sound_empty.addNode _ _).addNode _ _
  have hschema : (Inventory.schema.predicate? "unique_name").isSome = true := by
    rw [Inventory.predicate?_schema]
    decide +kernel
  have hname : slug "Krone" ≠ "" := by decide
  have hnames : sourceNames "Krone" (some "Instagram") (some "Austria") =
      ["krone", "krone_instagram", "krone_austria_instagram"] := by
    decide +kernel
  refine ⟨hsound, hschema, hname, ?_⟩
  rw [← hnames]
  exact (sourceUniqueName_chooses hsound hschema "Krone" _ _ Desk.clean).2 hname

end Naming

end PressRegister
