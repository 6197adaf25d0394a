import Mathlib.Data.List.Forall2
import PressRegister.Proofs.Submission.Entries

/-!
# What the labels of a submission denote

Within one submission a label denotes one node, wherever it is mentioned: the node that
it was resolved to when it was met first. Every value of a relationship is a node that
the relationship accepts, either for its types or because the node was made for the
relationship itself.

## Main definitions

* `Predicate.Allows`: nodes of given types may be the targets of a field.
* `Accepts`: what a label denotes may be a value of a field.
* `Denotes`: what a value of a field becomes when its label is resolved.
* `Resolves`: what becomes of the fields of an entry, given what the labels denote.

## Main results

* `resolveFields_resolves`: labels are resolved by one table.
-/

namespace PressRegister

open Consult

/-! ### Targets -/

/-- Nodes of given types may be the targets of a field: they have a type, and one that the
field is constrained to, if it is constrained. -/
def Predicate.Allows (p : Predicate) (types : List String) : Prop :=
  types ≠ [] ∧ (Mutation.owners p = [] ∨ ∃ c ∈ Mutation.owners p, c ∈ types)

theorem Predicate.checkTargetTypes_ok {p : Predicate} (hp : p.isRelationship = true)
    {target : String} {types : List String} :
    p.checkTargetTypes target types = .ok () ↔ p.Allows types := by
  obtain ⟨rel, hrel⟩ := Option.isSome_iff_exists.1 hp
  have howners : Mutation.owners p = rel.constraint := by rw [Mutation.owners, hrel]; rfl
  unfold checkTargetTypes Allows
  rw [hrel, howners]
  by_cases hempty : types = []
  · simp [hempty]
  · by_cases hallowed : (rel.constraint.isEmpty || types.any rel.constraint.contains) = true
    · simp only [List.isEmpty_iff, hempty, hallowed, if_false, if_true, true_iff]
      refine ⟨hempty, ?_⟩
      simpa [and_comm] using hallowed
    · simp only [List.isEmpty_iff, hempty, hallowed, if_false, Bool.false_eq_true]
      constructor
      · intro h
        cases h
      · rintro ⟨-, h⟩
        exact absurd (by simpa [and_comm] using h) hallowed

/-- What a label denotes may be a value of a field: a stored node for its types, and a new one
for its types too, unless it was made for the field. -/
def Accepts (s : Store) (schema : Schema) (r : Resolver) (c : Context) (p : Predicate) :
    Related → Prop
  | .existing u => p.Allows (s.toldTypes u.text)
  | .new t => (∃ node stub name, r p node = .ok (.new stub) ∧ t = completeSatellite c stub name) ∨
      p.Allows ((schema.lineage? t.typeName).getD [])

section Single

variable {s : Store} {schema : Schema} {fixed : Option Json} {r : Resolver} {c : Context}
  {p : Predicate} {before after : Desk}

theorem checkStored_allows (hp : p.isRelationship = true) {u : Uid} {x : Unit}
    (h : (checkStored (s.directory schema fixed) p u).Yields before x after) :
    p.Allows (s.toldTypes u.text) := by
  simp only [checkStored, yields_bind, yields_settle] at h
  obtain ⟨types, mid, htypes, hcheck, -⟩ := h
  rw [← Store.types_yields htypes]
  exact (Predicate.checkTargetTypes_ok hp).1 hcheck

/-- What a label is resolved to is accepted by the field that it was met under. -/
theorem resolveLabel_accepts (hp : p.isRelationship = true) {node : BlankNode} {related : Related}
    (h : (resolveLabel (s.directory schema fixed) r p node c).Yields before related after) :
    Accepts s schema r c p related := by
  unfold resolveLabel at h
  split at h
  · exact (not_yields_fail h).elim
  · simp only [yields_bind, yields_pure] at h
    obtain ⟨_, _, hcheck, rfl, -⟩ := h
    exact checkStored_allows hp hcheck
  · rename_i stub hstub
    unfold placeSatellite at h
    simp only at h
    split at h
    · exact (not_yields_fail h).elim
    obtain ⟨holder, mid, -, h⟩ := yields_bind.1 h
    split at h
    · obtain ⟨rfl, -⟩ := yields_pure.1 h
      exact .inl ⟨node, stub, _, hstub, rfl⟩
    · obtain ⟨types, mid', htypes, h⟩ := yields_bind.1 h
      split at h
      · rename_i hcheck
        obtain ⟨rfl, -⟩ := yields_pure.1 h
        rw [Accepts, ← Store.types_yields htypes]
        exact (Predicate.checkTargetTypes_ok hp).1 hcheck
      · simp only [yields_bind, yields_pure] at h
        obtain ⟨name, mid'', -, rfl, -⟩ := h
        exact .inl ⟨node, stub, name, hstub, rfl⟩

theorem checkReused_accepts (hp : p.isRelationship = true) {node : BlankNode} {related : Related}
    {x : Unit} (h : (checkReused (s.directory schema fixed) p node related).Yields before x after) :
    Accepts s schema r c p related := by
  cases related with
  | existing u => exact checkStored_allows hp h
  | new t => exact .inr ((Predicate.checkTargetTypes_ok hp).1 (yields_settle.1 h).1)

end Single

/-! ### Single fields -/

/-- The labels that are resolved in one table are resolved in the same way in another. -/
def Table.Within {α : Type} (a b : Table α) : Prop :=
  ∀ key x, a.get? key = some x → b.get? key = some x

namespace Table.Within

variable {α : Type} {a b c : Table α}

theorem refl (a : Table α) : a.Within a := fun _ _ h => h

theorem trans (hab : a.Within b) (hbc : b.Within c) : a.Within c :=
  fun key x h => hbc key x (hab key x h)

theorem insert {key : String} (h : a.get? key = none) (x : α) : a.Within (a.insert key x) := by
  intro other y hy
  have hne : other ≠ key := by
    rintro rfl
    rw [h] at hy
    cases hy
  rw [get?_insert, if_neg hne, hy]

end Table.Within

/-- What becomes of a value when labels are resolved, given what they denote. -/
inductive Denotes (accepts : Related → Prop) (labels : Table Related) : Object → Object → Prop
  | stored {u : Uid} {facets : Facets} (haccepts : accepts (.existing u)) :
    Denotes accepts labels ⟨.existing u, facets⟩ ⟨.existing u, facets⟩
  | label {node : BlankNode} {related : Related} {facets : Facets}
    (hlabel : labels.get? node.name = some related) (haccepts : accepts related) :
    Denotes accepts labels ⟨.new node, facets⟩ ⟨related.operand, facets⟩
  | other {o : Object} (ho : o.value.isNode = false) : Denotes accepts labels o o

theorem Denotes.mono {accepts : Related → Prop} {labels labels' : Table Related} {o o' : Object}
    (h : Denotes accepts labels o o') (hlabels : labels.Within labels') :
    Denotes accepts labels' o o' := by
  cases h with
  | stored haccepts => exact .stored haccepts
  | label hlabel haccepts => exact .label (hlabels _ _ hlabel) haccepts
  | other ho => exact .other ho

/-- A value mentions a label. -/
def Object.Mentions (o : Object) (node : BlankNode) : Prop :=
  o.value = .new node

section Fields

variable {s : Store} {schema : Schema} {fixed : Option Json} {r : Resolver} {c : Context}
  {p : Predicate} {st st' : Resolution} {before after : Desk}

/-- A label has been resolved, under a field that mentions it. -/
def ResolvedUnder (d : Directory) (r : Resolver) (c : Context) (p : Predicate)
    (objects : List Object) (name : String) (related : Related) : Prop :=
  ∃ o ∈ objects, ∃ node, o.Mentions node ∧ node.name = name ∧
    ∃ before after, (resolveLabel d r p node c).Yields before related after

/-- A resolution knows what an earlier one knew. -/
structure Resolution.Within (st st' : Resolution) : Prop where
  labels : st.resolved.Within st'.resolved
  siblings : ∀ name ∈ st.siblings, name ∈ st'.siblings

namespace Resolution.Within

variable {st'' : Resolution}

theorem refl (st : Resolution) : st.Within st := ⟨.refl _, fun _ h => h⟩

theorem trans (h : st.Within st') (h' : st'.Within st'') : st.Within st'' :=
  ⟨h.labels.trans h'.labels, fun name hname => h'.siblings name (h.siblings name hname)⟩

end Resolution.Within

/-- A label has been met: it was resolved under a field that mentions it, and if that made a new
node for a mutual field, the label is known as the one of a sibling. -/
structure MetUnder (d : Directory) (r : Resolver) (c : Context) (p : Predicate)
    (objects : List Object) (st : Resolution) (name : String) (related : Related) : Prop where
  resolved : ResolvedUnder d r c p objects name related
  sibling : p.direction? = some .mutual → related.isNew = true → name ∈ st.siblings

theorem MetUnder.mono {d : Directory} {objects objects' : List Object} {name : String}
    {related : Related} (h : MetUnder d r c p objects st name related)
    (hobjects : ∀ o ∈ objects, o ∈ objects') (hst : st.Within st') :
    MetUnder d r c p objects' st' name related where
  resolved := by
    obtain ⟨o, ho, hresolved⟩ := h.resolved
    exact ⟨o, hobjects o ho, hresolved⟩
  sibling hmutual hnew := hst.siblings name (h.sibling hmutual hnew)

/-- One value is resolved: its label denotes what it denoted before, or is resolved now. -/
theorem resolveObject_denotes (hp : p.isRelationship = true) {o o' : Object}
    (h : (resolveObject (s.directory schema fixed) r c p st o).Yields before (o', st') after) :
    st.Within st' ∧ Denotes (Accepts s schema r c p) st'.resolved o o' ∧
      ∀ name related, st'.resolved.get? name = some related → st.resolved.get? name = some related ∨
        MetUnder (s.directory schema fixed) r c p [o] st' name related := by
  obtain ⟨value, facets⟩ := o
  cases value with
  | existing u =>
    simp only [resolveObject, yields_bind, yields_pure, Prod.mk.injEq] at h
    obtain ⟨_, _, hcheck, ⟨rfl, rfl⟩, -⟩ := h
    exact ⟨.refl _, .stored (checkStored_allows hp hcheck), fun _ _ h => .inl h⟩
  | new node =>
    simp only [resolveObject] at h
    split at h
    · rename_i related hrelated
      simp only [yields_bind, yields_pure, Prod.mk.injEq] at h
      obtain ⟨_, _, hcheck, ⟨rfl, rfl⟩, -⟩ := h
      exact ⟨.refl _, .label hrelated (checkReused_accepts hp hcheck), fun _ _ h => .inl h⟩
    · rename_i hnone
      simp only [yields_bind, yields_pure, Prod.mk.injEq] at h
      obtain ⟨related, mid, hlabel, ⟨rfl, rfl⟩, -⟩ := h
      refine ⟨⟨.insert hnone related, fun name hname => ?_⟩, .label (Table.get?_insert_self _ _ _)
        (resolveLabel_accepts hp hlabel), fun name other hother => ?_⟩
      · split
        · exact List.mem_cons_of_mem _ hname
        · exact hname
      · rw [Table.get?_insert] at hother
        split at hother
        · rename_i hname
          cases hother
          refine .inr ⟨⟨_, List.mem_singleton_self _, node, rfl, hname.symm, _, _, hlabel⟩,
            fun hmutual hnew => ?_⟩
          simp [hmutual, hnew, hname]
        · exact .inl hother
  | _ =>
    obtain ⟨heq, -⟩ := yields_pure.1 h
    obtain ⟨rfl, rfl⟩ := Prod.mk.inj heq
    exact ⟨.refl _, .other rfl, fun _ _ h => .inl h⟩

/-- The values of one field are resolved one after another. -/
theorem resolveObjects_denotes (hp : p.isRelationship = true) {objects objects' : List Object}
    (h : (resolveObjects (s.directory schema fixed) r c p st objects).Yields before
      (objects', st') after) :
    st.Within st' ∧
      List.Forall₂ (Denotes (Accepts s schema r c p) st'.resolved) objects objects' ∧
      ∀ name related, st'.resolved.get? name = some related → st.resolved.get? name = some related ∨
        MetUnder (s.directory schema fixed) r c p objects st' name related := by
  induction objects generalizing st objects' before with
  | nil =>
    obtain ⟨heq, -⟩ := yields_pure.1 h
    obtain ⟨rfl, rfl⟩ := Prod.mk.inj heq
    exact ⟨.refl _, .nil, fun _ _ h => .inl h⟩
  | cons o rest ih =>
    simp only [resolveObjects, yields_bind, yields_pure, Prod.exists, Prod.mk.injEq] at h
    obtain ⟨o', st₁, mid, ho, rest', st₂, _, hrest, ⟨rfl, rfl⟩, rfl⟩ := h
    obtain ⟨hfirst, hdenotes, hnew⟩ := resolveObject_denotes hp ho
    obtain ⟨hthen, hall, hothers⟩ := ih hrest
    refine ⟨hfirst.trans hthen, .cons (hdenotes.mono hthen.labels) hall,
      fun name related hget => ?_⟩
    rcases hothers name related hget with hget | hmet
    · rcases hnew name related hget with hget | hmet
      · exact .inl hget
      · refine .inr (hmet.mono (fun q hq => ?_) hthen)
        rw [List.mem_singleton.1 hq]
        exact List.mem_cons_self
    · exact .inr (hmet.mono (fun _ => List.mem_cons_of_mem _) (.refl _))

/-- What becomes of the fields of an entry, given what the labels denote. -/
structure Resolves (accepts : Predicate → Related → Prop) (t : TypeDef) (labels : Table Related)
    (fields fields' : Fields) : Prop where
  /-- The values of a relationship are what its values denote, each once. -/
  values : ∀ {name p objects}, t.predicate? name = some p → p.isRelationship = true →
    fields.get? name = some objects → ∃ objects',
      List.Forall₂ (Denotes (accepts p) labels) objects objects' ∧
        fields'.get? name = some (distinctObjects objects')
  unset : ∀ {name}, fields.get? name = none → fields'.get? name = none

variable {t : TypeDef} {entries : List (String × List Object)} {fields fields' : Fields}

/-- All relationships of an entry are resolved by one table of labels. -/
theorem resolveFields_denotes (hentries : KeysIncrease entries)
    (h : (resolveFields (s.directory schema fixed) r c t st entries fields).Yields before
      (fields', st') after) :
    st.Within st' ∧
      (∀ e ∈ entries, ∀ p, t.predicate? e.1 = some p → p.isRelationship = true → ∃ objects',
        List.Forall₂ (Denotes (Accepts s schema r c p) st'.resolved) e.2 objects' ∧
          fields'.get? e.1 = some (distinctObjects objects')) ∧
      (∀ name, (∀ e ∈ entries, e.1 ≠ name) → fields'.get? name = fields.get? name) ∧
      ∀ name related, st'.resolved.get? name = some related → st.resolved.get? name = some related ∨
        ∃ e ∈ entries, ∃ p, t.predicate? e.1 = some p ∧ p.isRelationship = true ∧
          MetUnder (s.directory schema fixed) r c p e.2 st' name related := by
  induction entries generalizing st fields before with
  | nil =>
    obtain ⟨heq, -⟩ := yields_pure.1 h
    obtain ⟨rfl, rfl⟩ := Prod.mk.inj heq
    exact ⟨.refl _, by simp, fun _ _ => rfl, fun _ _ h => .inl h⟩
  | cons e rest ih =>
    obtain ⟨name, objects⟩ := e
    obtain ⟨hfirst, hrest⟩ := List.pairwise_cons.1 hentries
    unfold resolveFields at h
    split at h
    · rename_i hnone
      obtain ⟨hwithin, hvalues, hkept, hlabels⟩ := ih hrest h
      refine ⟨hwithin, fun e he p hp hrel => ?_, fun key hkey => ?_, fun key related hget => ?_⟩
      · rcases List.mem_cons.1 he with rfl | he
        · rw [hp, Option.filter_some, if_pos hrel] at hnone
          cases hnone
        · exact hvalues e he p hp hrel
      · exact hkept key fun e he => hkey e (List.mem_cons_of_mem _ he)
      · rcases hlabels key related hget with hget | ⟨e, he, hmet⟩
        · exact .inl hget
        · exact .inr ⟨e, List.mem_cons_of_mem _ he, hmet⟩
    · rename_i p hp
      obtain ⟨hpredicate, hrelationship⟩ := Option.filter_eq_some_iff.1 hp
      obtain ⟨⟨objects', mid⟩, _, hobjects, h⟩ := yields_bind.1 h
      obtain ⟨hbegin, hdenotes, hnew⟩ := resolveObjects_denotes hrelationship hobjects
      obtain ⟨hwithin, hvalues, hkept, hlabels⟩ := ih hrest h
      refine ⟨hbegin.trans hwithin, fun e he q hq hrel => ?_, fun key hkey => ?_,
        fun key related hget => ?_⟩
      · rcases List.mem_cons.1 he with rfl | he
        · obtain rfl : p = q := Option.some.inj (hpredicate.symm.trans hq)
          refine ⟨objects', hdenotes.imp fun _ _ hvalue => hvalue.mono hwithin.labels, ?_⟩
          -- no later entry has the name, so the values stay
          rw [hkept name fun e he heq => absurd (heq ▸ hfirst e he) (String.lt_irrefl _),
            Table.get?_insert_self]
        · exact hvalues e he q hq hrel
      · have hne : key ≠ name := fun heq => hkey _ List.mem_cons_self heq.symm
        rw [hkept key fun e he => hkey e (List.mem_cons_of_mem _ he), Table.get?_insert, if_neg hne]
      · rcases hlabels key related hget with hget | ⟨e, he, hmet⟩
        · rcases hnew key related hget with hget | hmet
          · exact .inl hget
          · exact .inr ⟨_, List.mem_cons_self, p, hpredicate, hrelationship,
              hmet.mono (fun _ h => h) hwithin⟩
        · exact .inr ⟨e, List.mem_cons_of_mem _ he, hmet⟩

/-- What becomes of the fields of an entry, with the table of labels that the resolution ends
with: every label in it was met in a field. -/
theorem resolveFields_resolves
    (h : (resolveFields (s.directory schema fixed) r c t ⟨.empty, []⟩ fields.entries fields).Yields
      before (fields', st') after) :
    Resolves (Accepts s schema r c) t st'.resolved fields fields' ∧
      ∀ name related, st'.resolved.get? name = some related → ∃ key p objects,
        t.predicate? key = some p ∧ p.isRelationship = true ∧ fields.get? key = some objects ∧
          MetUnder (s.directory schema fixed) r c p objects st' name related := by
  obtain ⟨-, hvalues, hkept, hlabels⟩ := resolveFields_denotes fields.sorted h
  refine ⟨⟨fun {name p objects} hp hrel hget => ?_, fun {name} hget => ?_⟩,
    fun name related hget => ?_⟩
  · exact hvalues (name, objects) (Table.get?_eq_some_iff.1 hget) p hp hrel
  · rw [hkept name fun e he heq => ?_, hget]
    have hsome : fields.get? e.1 = some e.2 := Table.get?_eq_some_iff.2 he
    rw [heq, hget] at hsome
    cases hsome
  · rcases hlabels name related hget with hget | ⟨e, he, p, hp, hrel, hmet⟩
    · cases hget
    · exact ⟨e.1, p, e.2, hp, hrel, Table.get?_eq_some_iff.2 he, hmet⟩

end Fields

end PressRegister
