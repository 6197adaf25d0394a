import PressRegister.Proofs.Store.Lookup
import PressRegister.Proofs.Text.Slug

/-!
# Names that are granted

A unique name that is generated is one that no node has, or one that is taken with a
suffix that was drawn for it.

## Main definitions

* `Store.Drawn`: a name that is taken, with a suffix that was drawn.
* `Store.Grants`: a name is free, or its suffix was drawn.

## Main results

* `Naming.uniqueName_grants`, `Naming.sourceUniqueName_grants`: generated names are granted.
-/

namespace PressRegister

open Consult Text

namespace Store

/-- A name that is taken, with a suffix that was drawn between two states of a supply. -/
def Drawn (s : Store) (before after : Supply) (name : String) : Prop :=
  ∃ base i, ¬ s.IsFree base ∧ before.used ≤ i ∧ i < after.used ∧
    name = base ++ "_" ++ String.ofList (randomSuffix (before.number i))

/-- A name is free, or it is a taken one with a suffix that was drawn. -/
def Grants (s : Store) (before after : Supply) (name : String) : Prop :=
  s.IsFree name ∨ s.Drawn before after name

variable {s : Store} {before after before' after' : Supply} {name : String}

theorem Drawn.mono (h : s.Drawn before after name) (hbefore : before'.Reaches before)
    (hafter : after.Reaches after') : s.Drawn before' after' name := by
  obtain ⟨base, i, hbase, hlow, hhigh, rfl⟩ := h
  exact ⟨base, i, hbase, Nat.le_trans hbefore.2 hlow, Nat.lt_of_lt_of_le hhigh hafter.2,
    by rw [hbefore.1]⟩

theorem Grants.mono (h : s.Grants before after name) (hbefore : before'.Reaches before)
    (hafter : after.Reaches after') : s.Grants before' after' name :=
  h.imp_right fun hdrawn => hdrawn.mono hbefore hafter

end Store

namespace Naming

variable {s : Store} {schema : Schema} {fixed : Option Json} {before after : Desk}
  {name v : String}

/-! ### Draws -/

theorem disambiguate_reaches (base : String) (supply : Supply) :
    supply.Reaches (disambiguate base supply).2 :=
  supply.reaches_next

theorem isTaken_draws (d : Directory) (candidate : String) : (isTaken d candidate).Draws :=
  .bind (Lookup.findUid_draws d _ _) fun _ => .pure _

theorem uniqueName_draws (d : Directory) (name : String) : (uniqueName d name).Draws := by
  refine .bind (.settle _) fun base => .bind (isTaken_draws d base) fun taken => ?_
  split
  · exact .draw (disambiguate_reaches base)
  · exact .pure _

theorem firstFree_draws (d : Directory) (candidates : List String) :
    (firstFree d candidates).Draws := by
  induction candidates with
  | nil => exact .pure _
  | cons candidate rest ih =>
    refine .bind (isTaken_draws d candidate) fun taken => ?_
    split
    · exact ih
    · exact .pure _

theorem sourceUniqueName_draws (d : Directory) (name : String) (channel country : Option String) :
    (sourceUniqueName d name channel country).Draws := by
  refine .bind (.settle _) fun base => .bind (firstFree_draws d _) fun free => ?_
  split
  · exact .pure _
  · exact .draw (disambiguate_reaches _)

/-! ### Names -/

/-- A taken name is granted with a suffix. -/
theorem drawn_disambiguate {base : String} (hbase : ¬ s.IsFree base) (supply : Supply) :
    s.Drawn supply (disambiguate base supply).2 (disambiguate base supply).1 :=
  ⟨base, supply.used, hbase, Nat.le_refl _, Nat.lt_succ_self _, rfl⟩

theorem noBlank_disambiguate {base : String} (hbase : NoBlank base) (supply : Supply) :
    NoBlank (disambiguate base supply).1 := by
  have hunderscore : NoBlank "_" := by
    intro c hc
    obtain rfl : c = '_' := List.mem_singleton.1 hc
    decide
  exact (hbase.append hunderscore).append (noBlank_randomSuffix _)

/-- A name that is looked up and given a suffix if it is taken. -/
theorem grants_of_isTaken (hsound : s.Sound) {base : String} (hbase : NoBlank base) {taken : Bool}
    {mid : Desk} (htaken : (isTaken (s.directory schema fixed) base).Yields before taken mid)
    (h : (if taken then draw (disambiguate base) else pure base).Yields mid v after) :
    NoBlank v ∧ s.Grants before.supply after.supply v := by
  obtain ⟨hfree, hsupply⟩ := Store.isTaken_yields hsound htaken
  cases taken with
  | true =>
    obtain ⟨rfl, rfl⟩ := yields_draw.1 h
    refine ⟨noBlank_disambiguate hbase _, .inr ?_⟩
    rw [← hsupply]
    exact drawn_disambiguate (fun h => by cases hfree.2 h) _
  | false =>
    obtain ⟨rfl, rfl⟩ := yields_pure.1 h
    exact ⟨hbase, .inl (hfree.1 rfl)⟩

theorem baseName_ok {base : String} (h : baseName name = .ok base) : base = slug name := by
  unfold baseName at h
  simp only at h
  split at h
  · cases h
  · cases h
    rfl

/-- The unique name for a name is granted. -/
theorem uniqueName_grants (hsound : s.Sound)
    (h : (uniqueName (s.directory schema fixed) name).Yields before v after) :
    NoBlank v ∧ s.Grants before.supply after.supply v := by
  simp only [uniqueName, yields_bind, yields_settle] at h
  obtain ⟨base, _, ⟨hbase, rfl⟩, taken, mid, htaken, h⟩ := h
  obtain rfl := baseName_ok hbase
  exact grants_of_isTaken hsound (noBlank_slug name) htaken h

theorem firstFree_yields (hsound : s.Sound) {candidates : List String} {r : Option String}
    (h : (firstFree (s.directory schema fixed) candidates).Yields before r after) :
    (∀ v, r = some v → v ∈ candidates ∧ s.IsFree v) ∧
      (r = none → ∀ v ∈ candidates, ¬ s.IsFree v) ∧ after.supply = before.supply := by
  induction candidates generalizing before with
  | nil =>
    obtain ⟨rfl, rfl⟩ := yields_pure.1 h
    simp
  | cons candidate rest ih =>
    obtain ⟨taken, mid, htaken, h⟩ := yields_bind.1 h
    obtain ⟨hfree, hsupply⟩ := Store.isTaken_yields hsound htaken
    cases taken with
    | true =>
      obtain ⟨hsome, hnone, hrest⟩ := ih h
      refine ⟨fun v hv => ⟨List.mem_cons_of_mem _ (hsome v hv).1, (hsome v hv).2⟩,
        fun hr v hv => ?_, hrest.trans hsupply⟩
      rcases List.mem_cons.1 hv with rfl | hv
      · exact fun hv => by cases hfree.2 hv
      · exact hnone hr v hv
    | false =>
      obtain ⟨rfl, rfl⟩ := yields_pure.1 h
      refine ⟨fun v hv => ?_, fun hr => ?_, hsupply⟩
      · cases hv
        exact ⟨List.mem_cons_self, hfree.1 rfl⟩
      · cases hr

/-! ### Candidates of sources -/

theorem mem_of_mem_withoutStutter {names : List String} {v : String}
    (h : v ∈ withoutStutter names) : v ∈ names := by
  induction names with
  | nil => exact h
  | cons a rest ih =>
    cases rest with
    | nil => exact h
    | cons b rest =>
      unfold withoutStutter at h
      split at h
      · exact List.mem_cons_of_mem _ (ih h)
      · rcases List.mem_cons.1 h with rfl | h
        · exact List.mem_cons_self
        · exact List.mem_cons_of_mem _ (ih h)

theorem withoutStutter_ne_nil (a : String) (names : List String) :
    withoutStutter (a :: names) ≠ [] := by
  induction names generalizing a with
  | nil => simp [withoutStutter]
  | cons b rest ih =>
    unfold withoutStutter
    split
    · exact ih b
    · simp

theorem eq_of_mem_sourceCandidates {base : String} {channel country : Option String}
    (h : v ∈ sourceCandidates base channel country) : v = base ∨ ∃ text, v = slug text := by
  cases channel with
  | none => exact .inl (List.mem_singleton.1 h)
  | some channel =>
    cases country with
    | none =>
      rcases List.mem_cons.1 h with h | h
      · exact .inl h
      · exact .inr ⟨_, List.mem_singleton.1 h⟩
    | some country =>
      rcases List.mem_cons.1 h with h | h
      · exact .inl h
      rcases List.mem_cons.1 h with h | h
      · exact .inr ⟨_, h⟩
      · exact .inr ⟨_, List.mem_singleton.1 h⟩

theorem noBlank_of_mem_sourceCandidates {base : String} (hbase : NoBlank base)
    {channel country : Option String} (h : v ∈ sourceCandidates base channel country) :
    NoBlank v := by
  rcases eq_of_mem_sourceCandidates h with rfl | ⟨text, rfl⟩
  · exact hbase
  · exact noBlank_slug text

/-- The unique name of a source is granted. -/
theorem sourceUniqueName_grants (hsound : s.Sound) {channel country : Option String}
    (h : (sourceUniqueName (s.directory schema fixed) name channel country).Yields before v after) :
    NoBlank v ∧ s.Grants before.supply after.supply v := by
  simp only [sourceUniqueName, yields_bind, yields_settle] at h
  obtain ⟨base, _, ⟨hbase, rfl⟩, free, mid, hfirst, h⟩ := h
  obtain rfl := baseName_ok hbase
  obtain ⟨hsome, hnone, hsupply⟩ := firstFree_yields hsound hfirst
  have hcandidates : ∀ c ∈ withoutStutter (sourceCandidates (slug name) channel country),
      NoBlank c := fun c hc =>
    noBlank_of_mem_sourceCandidates (noBlank_slug name) (mem_of_mem_withoutStutter hc)
  cases free with
  | some free =>
    obtain ⟨rfl, rfl⟩ := yields_pure.1 h
    exact ⟨hcandidates _ (hsome _ rfl).1, .inl (hsome _ rfl).2⟩
  | none =>
    obtain ⟨rfl, rfl⟩ := yields_draw.1 h
    have hne : withoutStutter (sourceCandidates (slug name) channel country) ≠ [] := by
      unfold sourceCandidates
      split
      all_goals exact withoutStutter_ne_nil _ _
    have hlast := List.getLast_mem hne
    rw [List.getLast?_eq_some_getLast hne, Option.getD_some]
    refine ⟨noBlank_disambiguate (hcandidates _ hlast) _, .inr ?_⟩
    rw [← hsupply]
    exact drawn_disambiguate (hnone rfl _ hlast) _

end Naming

end PressRegister
