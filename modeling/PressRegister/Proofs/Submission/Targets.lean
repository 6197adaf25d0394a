import PressRegister.Proofs.Inventory.Registry
import PressRegister.Proofs.Schema.Names
import PressRegister.Proofs.Submission.Composition

/-!
# The targets of relationships

A value of a relationship is a stored node, of a type that the relationship is
constrained to, or a new node that is given such a type. A new node may have been made
under another relationship; its types are then compared as those of a stored node are.
The constraint is a list of names, and a name of a type may be written in other letters
than the type itself.

## Main definitions

* `Schema.Means`: a type is the one that a name stands for.
* `Submission.Fits`: a value of a relationship is one that the relationship allows.

## Main results

* `relationships_fit`: all values of relationships fit, and no two are equal.
* `outlet_misfits`: stored types, constraints and the system's own fields, taken to the letter.
-/

namespace PressRegister

open Consult Predicate

/-! ### Types of new nodes -/

/-- A type is the one that a name stands for: it has the name, or in want of such a type it has
a name of the same letters. -/
def Schema.Means (schema : Schema) (tag name : String) : Prop :=
  tag = name ∨ schema.types.get? name = none ∧ Schema.sameLetters tag name = true

section Tags

variable {types : List EntityType} {schema : Schema} {t : Satellite} {related : List Related}

/-- A new node is given the type that it was made as. -/
theorem exists_tag (hbuild : Schema.build types = .ok schema) (t : Satellite) :
    ∃ tag ∈ t.tags schema, schema.Means tag t.typeName := by
  unfold Satellite.tags Schema.lineage?
  cases htype : schema.type? t.typeName with
  | none => exact ⟨t.typeName, List.mem_singleton_self _, .inl rfl⟩
  | some type =>
    have hschema := Schema.wellFormed_of_build hbuild
    have hmem := Schema.mem_lineage_of_build hbuild (hschema.get?_of_type? htype)
    refine ⟨type.name, hmem, ?_⟩
    rcases Schema.type?_cases htype with hget | hletters
    · exact .inl (hschema.typeNames hget)
    · exact .inr hletters

/-- The types of a new node are stated. -/
theorem mem_typeStatements (hbuild : Schema.build types = .ok schema) (ht : .new t ∈ related)
    {tag : String} (htag : tag ∈ t.tags schema) :
    Statement.plain (.new t.node) Search.typeKey (.ofText tag) ∈
      Mutation.satelliteStatements schema related := by
  refine List.mem_flatMap.2 ⟨.new t, ht, Entity.mem_statements.2 ⟨Search.typeKey,
    (t.tags schema).map fun name => .plain (.ofText name), Table.get?_insert_self _ _ _,
    .plain (.ofText tag), List.mem_map_of_mem htag, ?_⟩⟩
  have hdirection : schema.direction? Search.typeKey = none := by
    rw [Schema.direction?, Schema.predicate?_typeKey hbuild]
    rfl
  rw [hdirection]
  exact List.mem_singleton_self _

end Tags

/-- The resolver of stubs makes nodes of the first type that a relationship is constrained to. -/
theorem typeName_stubResolver {p : Predicate} {node : BlankNode} {t : Satellite}
    (h : stubResolver p node = .ok (.new t)) : t.typeName ∈ Mutation.owners p := by
  unfold stubResolver at h
  split at h
  · cases h
  · rename_i rel hrel
    split at h
    · cases h
    · rename_i typeName rest hconstraint
      cases h
      rw [Mutation.owners, hrel, Option.map_some, Option.getD_some, hconstraint]
      exact List.mem_cons_self

/-- A new node that a constrained relationship accepts is given one of its types. -/
theorem exists_tag_of_accepts {types : List EntityType} {schema : Schema} {s : Store} {c : Context}
    {p : Predicate} {t : Satellite} (hbuild : Schema.build types = .ok schema)
    (h : Accepts s schema stubResolver c p (.new t)) (hp : Mutation.owners p ≠ []) :
    ∃ name ∈ Mutation.owners p, ∃ tag ∈ t.tags schema, schema.Means tag name := by
  rcases h with ⟨node, stub, name, hstub, rfl⟩ | ⟨hne, hnone | ⟨name, hname, htag⟩⟩
  · obtain ⟨tag, htag, hmeans⟩ := exists_tag hbuild (completeSatellite c stub name)
    exact ⟨stub.typeName, typeName_stubResolver hstub, tag, htag, hmeans⟩
  · exact absurd hnone hp
  · refine ⟨name, hname, name, ?_, .inl rfl⟩
    unfold Satellite.tags
    cases hlineage : schema.lineage? t.typeName with
    | none => rw [hlineage] at hne; exact absurd rfl hne
    | some lineage => rw [hlineage] at htag; exact htag

/-! ### Values of relationships -/

/-- No two of the values that are left are equal. -/
theorem pairwise_distinctObjects (objects : List Object) :
    (distinctObjects objects).Pairwise fun a b => (a.value == b.value) = false := by
  have hfold : ∀ (rest kept : List Object),
      kept.Pairwise (fun a b => (a.value == b.value) = false) →
      (rest.foldl (fun kept o => if kept.any (·.value == o.value) then kept else kept ++ [o])
        kept).Pairwise fun a b => (a.value == b.value) = false := by
    intro rest
    induction rest with
    | nil => exact fun kept h => h
    | cons o rest ih =>
      intro kept h
      rw [List.foldl_cons]
      refine ih _ ?_
      split
      · exact h
      · rename_i hnone
        refine List.pairwise_append.2 ⟨h, List.pairwise_singleton _ _, fun a ha b hb => ?_⟩
        rw [List.mem_singleton.1 hb]
        simpa using fun heq => hnone (List.any_eq_true.2 ⟨a, ha, heq⟩)
  exact hfold objects [] .nil

/-- A value of a relationship is one that the relationship allows. -/
inductive Submission.Fits (schema : Schema) (s : Store) (sub : Submission) (p : Predicate) :
    Operand → Prop
  /-- A stored node has types, and one that the relationship is constrained to. -/
  | stored {u : Uid} (hallows : p.Allows (s.toldTypes u.text)) : Fits schema s sub p (.existing u)
  /-- A new node is given a type that the relationship is constrained to. -/
  | new {t : Satellite} (hrelated : .new t ∈ sub.related)
    (htag : Mutation.owners p ≠ [] → ∃ name ∈ Mutation.owners p, ∃ tag, schema.Means tag name ∧
      Statement.plain (.new t.node) Search.typeKey (.ofText tag) ∈ sub.mutation.set) :
    Fits schema s sub p (.new t.node)

namespace Composition

variable {types : List EntityType} {s : Store} {schema : Schema} {fixed : Option Json}
  {typeName : String} {form : Form} {c : Context} {sub : Submission}
  (comp : Composition (s.directory schema fixed) stubResolver typeName form c sub)

/-- The values of a relationship that the system does not set fit. -/
theorem fits (hbuild : Schema.build types = .ok schema) {name : String} {p : Predicate}
    (hp : comp.type.predicate? name = some p) (hrel : p.isRelationship = true) {o : Object}
    (ho : o ∈ comp.entry.values name) : sub.Fits schema s p o.value := by
  rcases comp.value_cases hp hrel ho with ⟨u, hvalue, hallows⟩ | ⟨key, t, hlabel, hvalue, haccepts⟩
  · rw [hvalue]
    exact .stored hallows
  · obtain ⟨t', ht', hextends⟩ := comp.exists_satellite hlabel
    rw [hvalue, ← hextends.node]
    refine .new ht' fun hne => ?_
    obtain ⟨name, hname, tag, htag, hmeans⟩ := exists_tag_of_accepts hbuild haccepts hne
    refine ⟨name, hname, tag, hmeans, ?_⟩
    rw [comp.set]
    refine List.mem_append_right _ (mem_typeStatements hbuild ht' ?_)
    rwa [Satellite.tags, hextends.typeName]

/-- The values of a relationship are told apart. -/
theorem pairwise_values {name : String} {p : Predicate}
    (hp : comp.type.predicate? name = some p) (hrel : p.isRelationship = true) :
    (comp.entry.values name).Pairwise fun a b => (a.value == b.value) = false := by
  unfold Entity.values
  cases hget : comp.fields.get? name with
  | none =>
    rw [comp.labels_resolve.unset hget]
    exact .nil
  | some objects =>
    obtain ⟨objects', -, hvalues⟩ := comp.labels_resolve.values hp hrel hget
    rw [hvalues, Option.getD_some]
    exact pairwise_distinctObjects objects'

end Composition

/-- The fields that the system sets of entries, by itself or beside what a form says. -/
def setBySystem : List String :=
  "entry_edit_history" :: overwrittenFields

/-- All values of a relationship that is not set by the system fit it, and no two of them are
equal. -/
theorem relationships_fit {types : List EntityType} {schema : Schema}
    (hbuild : Schema.build types = .ok schema) {s : Store} {fixed : Option Json}
    {typeName : String} {form : Form} {c : Context} {before after : Desk} {sub : Submission}
    (hsub : (newEntry (s.directory schema fixed) stubResolver typeName form c).Yields before sub
        after ∨
      (editEntry (s.directory schema fixed) stubResolver typeName form c).Yields before sub after)
    {t : TypeDef} (ht : schema.type? typeName = some t) {name : String} {p : Predicate}
    (hp : t.predicate? name = some p) (hrel : p.isRelationship = true) (hname : name ∉ setBySystem) :
    (∀ o ∈ sub.entry.values name, sub.Fits schema s p o.value) ∧
      (sub.entry.values name).Pairwise fun a b => (a.value == b.value) = false := by
  obtain ⟨comp⟩ := exists_composition (d := s.directory schema fixed) hbuild hsub
  obtain rfl : t = comp.type := Option.some.inj (ht.symm.trans comp.isType)
  rw [comp.kept (List.not_mem_of_not_mem_cons hname) (List.ne_of_not_mem_cons hname)]
  exact ⟨fun o ho => comp.fits hbuild hp hrel ho, comp.pairwise_values hp hrel⟩

/-! ### An outlet whose values fit, though not to the letter -/

/-- Outlets and the organizations that make them. The constraint of `made_by` is not written as
the type is, `partners` has no constraint, and users may fill in who added the entry. -/
def outletTypes : List EntityType :=
  [Inventory.entry,
   { name := "Organization", parent := some "Entry" },
   { name := "Outlet"
     parent := some "Entry"
     predicates := [
       singleRelationship "channel" ["Organization"],
       (listRelationship "made_by" ["organization"]).allowNew,
       (listRelationship "partners" []).allowNew,
       singleRelationship "entry_added" ["Outlet"]] }]

/-- A store with an account, a node whose types are values of a field, and an outlet. -/
def outletStore : Store :=
  (((Store.empty.addNode ["User"] []).2.addNode []
    [("dgraph.type", "Organization"), ("dgraph.type", "Entry")]).2.addNode ["Outlet", "Entry"] []).2

/-- The form of a new outlet. -/
def outletForm : Form :=
  ((((Table.empty.insert "name" (.string "Daily")).insert "channel" (.string "0x101")).insert
    "made_by" (.array [.string "Foo"])).insert "partners" (.array [.string "Foo"])).insert
      "entry_added" (.string "0x102")

/-- The user who submits the outlet. -/
def outletContext : Context := ⟨Uid.ofNat 0x100, .contributor, "", ⟨0, 0⟩, false⟩

/-- A value of a relationship is a stored node of a type that the relationship is constrained to,
or a new node that is given such a type: the constraint and the stored types are taken as they are
written. -/
def Submission.fitsLiterally (s : Store) (sub : Submission) (p : Predicate) : Operand → Bool
  | .existing u => !(s.typesAt u.text).isEmpty &&
      ((Mutation.owners p).isEmpty || (Mutation.owners p).any (s.typesAt u.text).contains)
  | .new b => sub.related.any fun
    | .new t => t.node = b && (Mutation.owners p).any fun name =>
        Statement.plain (.new b) Search.typeKey (.ofText name) ∈ sub.mutation.set
    | .existing _ => false
  | _ => false

/-- The relationships of the outlet that have a value which does not fit to the letter. -/
def Submission.misfits (schema : Schema) (sub : Submission) : List String :=
  ((schema.type? "Outlet").map fun t => ["channel", "made_by", "partners", "entry_added"].filter
    fun name => (t.predicate? name).any fun p => p.isRelationship &&
      !(sub.entry.values name).all fun o => sub.fitsLiterally outletStore p o.value).getD []

theorem exists_of_mem_misfits {schema : Schema} {sub : Submission} {name : String}
    (h : name ∈ sub.misfits schema) : ∃ t p, schema.type? "Outlet" = some t ∧
      t.predicate? name = some p ∧ p.isRelationship = true ∧
        ¬ ∀ o ∈ sub.entry.values name, sub.fitsLiterally outletStore p o.value = true := by
  unfold Submission.misfits at h
  cases ht : schema.type? "Outlet" with
  | none => simp [ht] at h
  | some t =>
    rw [ht, Option.map_some, Option.getD_some] at h
    obtain ⟨p, hp, hmisfit⟩ := (Option.any_eq_true _ _).1 (List.mem_filter.1 h).2
    simp only [Bool.and_eq_true, Bool.not_eq_true', List.all_eq_false] at hmisfit
    obtain ⟨hrel, o, ho, hliteral⟩ := hmisfit
    exact ⟨t, p, rfl, hp, hrel, fun hall => hliteral (hall o ho)⟩

theorem exists_outlet : ∃ schema sub after, Schema.build outletTypes = .ok schema ∧
    (newEntry (outletStore.directory schema none) stubResolver "Outlet" outletForm
      outletContext).Yields Desk.clean sub after ∧
    sub.misfits schema = ["channel", "made_by", "partners", "entry_added"] := by
  have h : ((Schema.build outletTypes).toOption.any fun schema =>
      ((newEntry (outletStore.directory schema none) stubResolver "Outlet" outletForm
        outletContext).outcome Desk.clean).1.toOption.any fun sub =>
          sub.misfits schema == ["channel", "made_by", "partners", "entry_added"]) = true := by
    rewrite [Store.directory_eq]
    decide +kernel
  obtain ⟨schema, hbuild, h⟩ := (Option.any_eq_true _ _).1 h
  obtain ⟨sub, after, hsub, hmisfits⟩ := exists_yields h
  exact ⟨schema, sub, after, toOption_eq_some.1 hbuild, hsub, beq_iff_eq.1 hmisfits⟩

/-- The values of the outlet fit. -/
theorem relationships_fit_outlet : ∃ schema sub after t p,
    Schema.build outletTypes = .ok schema ∧
    (newEntry (outletStore.directory schema none) stubResolver "Outlet" outletForm
      outletContext).Yields Desk.clean sub after ∧
    schema.type? "Outlet" = some t ∧ t.predicate? "made_by" = some p ∧ p.isRelationship = true ∧
    "made_by" ∉ setBySystem ∧
    (∀ o ∈ sub.entry.values "made_by", sub.Fits schema outletStore p o.value) ∧
      (sub.entry.values "made_by").Pairwise fun a b => (a.value == b.value) = false := by
  obtain ⟨schema, sub, after, hbuild, hsub, hmisfits⟩ := exists_outlet
  have hmember : "made_by" ∈ sub.misfits schema := by
    rw [hmisfits]
    decide
  obtain ⟨t, p, ht, hp, hrel, -⟩ := exists_of_mem_misfits hmember
  have hname : "made_by" ∉ setBySystem := by decide
  exact ⟨schema, sub, after, t, p, hbuild, hsub, ht, hp, hrel, hname,
    relationships_fit hbuild (.inl hsub) ht hp hrel hname⟩

/-- To the letter they do not fit: the channel has no types but those that a field of its tells,
the new organization is not given the name that `made_by` is constrained to, nor one of the names
that constrain `partners`, as there are none, and the outlet that the form says to have added
the entry is replaced by the account of the user. -/
theorem outlet_misfits : ∃ schema sub after, Schema.build outletTypes = .ok schema ∧
    (newEntry (outletStore.directory schema none) stubResolver "Outlet" outletForm
      outletContext).Yields Desk.clean sub after ∧
    ∀ name ∈ ["channel", "made_by", "partners", "entry_added"], (outletForm.get? name).isSome ∧
      ∃ t p, schema.type? "Outlet" = some t ∧ t.predicate? name = some p ∧
        p.isRelationship = true ∧
        ¬ ∀ o ∈ sub.entry.values name, sub.fitsLiterally outletStore p o.value = true := by
  obtain ⟨schema, sub, after, hbuild, hsub, hmisfits⟩ := exists_outlet
  refine ⟨schema, sub, after, hbuild, hsub, fun name hname => ⟨?_, ?_⟩⟩
  · revert name
    decide
  · exact exists_of_mem_misfits (by rw [hmisfits]; exact hname)

end PressRegister
