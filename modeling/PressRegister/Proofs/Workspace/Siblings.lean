import Mathlib.Logic.Relation
import PressRegister.Proofs.Mutation.Mutual
import PressRegister.Proofs.Submission.RequiredFields
import PressRegister.Proofs.Submission.Targets
import PressRegister.Proofs.Submission.UniqueNames
import PressRegister.Proofs.Workspace.Review

/-!
# Siblings among several clients

Clients have submissions sanitized and write the mutations that they were given, in any
order. So a mutation may be written when the store is not any more what it was when the
mutation was made. The edges between siblings stay symmetric throughout: each mutation
sets its edges in pairs, between sources, and no commit makes a source anything else.

What a node is told to be is taken from the store. The edges do not stay symmetric if a
value under the name of the types is told in place of the types, or if a resolver makes
siblings that are no sources.

## Main definitions

* `Schema.HoldsMutual`: entries of one type have a mutual field, between nodes of the type.
* `Resolver.KeepsTo`: a resolver makes nodes of that type for the field.
* `System.Step`: a client has a submission sanitized, or writes a mutation.
* `System.Paired`: the invariant of the steps.

## Main results

* `Workspace.Request.sanitize_pairs`: the edges that a submission sets come in pairs.
* `System.Step.paired`, `System.Reaches.paired`: one step and any number of them keep the invariant.
* `siblings_stay_symmetric`: the edges between siblings stay symmetric.
* `siblings_left_behind`: stores and resolvers with which they do not.
-/

namespace PressRegister

open Consult Store

/-! ### Single submissions -/

/-- Entries of one type have a mutual field, between nodes of the type. Neither the system nor a
new node beside an entry sets it. -/
structure Schema.HoldsMutual (schema : Schema) (name tag : String) : Prop
    extends schema.IsMutual name tag where
  types : ∀ {typeName t p}, schema.type? typeName = some t → t.predicate? name = some p →
    t.name = tag ∧ p.isRelationship = true ∧ Mutation.owners p = [tag]
  /-- Nodes that are made of the type are told to be of it. -/
  told : tag ∈ (schema.lineage? tag).getD [tag]
  unset : name ∉ setBySystem ∧ name ∉ Satellite.plainFields
  trimmed : Text.trim tag = tag

/-- A resolver makes nodes of a type for the fields that are constrained to it alone, and leaves it
to entries to set a field. -/
def Resolver.KeepsTo (r : Resolver) (schema : Schema) (name tag : String) : Prop :=
  ∀ p node t, r p node = .ok (.new t) →
    (Mutation.owners p = [tag] → tag ∈ t.tags schema) ∧ t.fields.get? name = none

section Submissions

variable {types : List EntityType} {s : Store} {schema : Schema} {fixed : Option Json}
  {r : Resolver} {typeName : String} {form : Form} {c : Context} {sub : Submission}
  {name tag : String}

/-- A value that is stated of an entity under its types is stated as it is. -/
theorem Entity.mem_statements_types (hbuild : Schema.build types = .ok schema) {e : Entity}
    {o : Object} (ho : o ∈ e.values Search.typeKey) :
    ⟨e.subject, Search.typeKey, o⟩ ∈ e.statements schema := by
  unfold values at ho
  cases hget : e.fields.get? Search.typeKey with
  | none =>
    rw [hget] at ho
    cases ho
  | some objects =>
    rw [hget] at ho
    refine mem_statements.2 ⟨_, objects, hget, o, ho, ?_⟩
    rw [Schema.direction?, Schema.predicate?_typeKey hbuild]
    exact List.mem_singleton_self _

namespace Composition

variable (comp : Composition (s.directory schema fixed) r typeName form c sub)
include comp

/-- New nodes beside the entry state nothing under the mutual field. -/
theorem predicate_ne_of_mem_satellites (h : schema.HoldsMutual name tag)
    (hr : r.KeepsTo schema name tag) {q : Statement}
    (hq : q ∈ Mutation.satelliteStatements schema sub.related) : q.predicate ≠ name := by
  rintro rfl
  obtain ⟨related, hrelated, hq⟩ := List.mem_flatMap.1 hq
  cases related with
  | existing u => cases hq
  | new x =>
    obtain ⟨p, node, stub, unique, hstub, hextends⟩ := comp.exists_completed hrelated
    obtain ⟨key, objects, hget, o, -, hq⟩ := Entity.mem_statements.1 hq
    obtain rfl : key = q.predicate := by
      by_contra hne
      exact h.alone key hne (Entity.predicate_of_mem_valueStatements hq).symm
    have hinherited : q.predicate ∉ Inventory.siblingInherited := fun hmem =>
      h.unset.2 (List.mem_append_right _ hmem)
    have hentity : (x.entity schema).fields.get? q.predicate = x.fields.get? q.predicate :=
      (Table.get?_insert _ _ _ _).trans (if_neg h.notTypes)
    have hcompleted : q.predicate ∉ Satellite.completedFields := fun hmem =>
      h.unset.2 (Satellite.mem_plainFields_of_completed hmem)
    rw [hentity, hextends.fields _ hinherited, get?_completeSatellite hcompleted,
      (hr p node stub hstub).2] at hget
    cases hget

/-- The values of the mutual field are nodes of its type. -/
theorem exists_typed (hbuild : Schema.build types = .ok schema) (h : schema.HoldsMutual name tag)
    (hr : r.KeepsTo schema name tag) (hapart : s.KeepsTypesApart) {o : Object}
    (ho : o ∈ sub.entry.values name) :
    comp.type.name = tag ∧ ∃ y : Subject, o.value = y.operand ∧ o.value.subject? = some y ∧
      sub.mutation.Types s tag y := by
  rw [comp.kept (List.not_mem_of_not_mem_cons h.unset.1) (List.ne_of_not_mem_cons h.unset.1)] at ho
  obtain ⟨p, hp⟩ : ∃ p, comp.type.predicate? name = some p := by
    cases hget : comp.fields.get? name with
    | none =>
      rw [Entity.values, comp.labels_resolve.unset hget] at ho
      cases ho
    | some objects =>
      obtain ⟨p, hp, -⟩ := comp.reads name objects hget
      exact ⟨p, hp⟩
  obtain ⟨htype, hrel, howners⟩ := h.types comp.isType hp
  refine ⟨htype, ?_⟩
  rcases comp.value_cases hp hrel ho with ⟨u, hvalue, -, hallows⟩ | ⟨label, t, hlabel, hvalue, haccepts⟩
  · refine ⟨.existing u, hvalue, by rw [hvalue]; rfl, ?_⟩
    rw [howners, hapart.toldTypes_eq] at hallows
    have hmem : tag ∈ s.typesAt u.text := by simpa using hallows
    exact hmem
  · refine ⟨.new t.node, hvalue, by rw [hvalue]; rfl, ?_⟩
    obtain ⟨x, hx, hextends⟩ := comp.exists_satellite hlabel
    have htags : tag ∈ x.tags schema := by
      rw [Satellite.tags, hextends.typeName]
      rcases haccepts with ⟨node, stub, unique, hstub, rfl⟩ | ⟨hne, hallows⟩
      · exact (hr p node stub hstub).1 howners
      · rw [howners] at hallows
        cases hlineage : schema.lineage? t.typeName with
        | none =>
          rw [hlineage] at hne
          exact absurd rfl hne
        | some lineage => simpa [hlineage] using hallows
    have hstated : sub.mutation.set =
        sub.entry.statements schema ++ Mutation.satelliteStatements schema sub.related := comp.set
    have hmem := List.mem_append_right (sub.entry.statements schema)
      (mem_typeStatements hbuild hx htags)
    rw [← hstated, hextends.node, Operand.ofText, h.trimmed] at hmem
    exact hmem

/-- The edges that a submission sets under the mutual field come in pairs, if the entry is of the
type. -/
theorem pairs (hbuild : Schema.build types = .ok schema) (h : schema.HoldsMutual name tag)
    (hr : r.KeepsTo schema name tag) (hapart : s.KeepsTypesApart) (hwritten : sub.Written schema)
    (hentry : comp.type.name = tag → sub.mutation.Types s tag sub.entry.subject) :
    sub.mutation.Pairs schema s name tag := by
  have hcases : ∀ q ∈ sub.mutation.set, q.predicate = name → ∃ o ∈ sub.entry.values name,
      q ∈ Entity.valueStatements sub.entry.subject name (some .mutual) o := by
    rintro q hq rfl
    rw [hwritten.set] at hq
    rcases List.mem_append.1 hq with hq | hq
    · obtain ⟨key, objects, hget, o, ho, hq⟩ := Entity.mem_statements.1 hq
      obtain rfl : key = q.predicate := by
        by_contra hne
        exact h.alone key hne (Entity.predicate_of_mem_valueStatements hq).symm
      rw [h.direction] at hq
      exact ⟨o, by rw [Entity.values, hget]; exact ho, hq⟩
    · exact absurd rfl (comp.predicate_ne_of_mem_satellites h hr hq)
  have hset : ∀ o ∈ sub.entry.values name,
      ∀ q ∈ Entity.valueStatements sub.entry.subject name (some .mutual) o, q ∈ sub.mutation.set := by
    intro o ho q hq
    rw [hwritten.set]
    unfold Entity.values at ho
    cases hget : sub.entry.fields.get? name with
    | none =>
      rw [hget] at ho
      cases ho
    | some objects =>
      rw [hget] at ho
      exact List.mem_append_left _
        (Entity.mem_statements.2 ⟨name, objects, hget, o, ho, by rw [h.direction]; exact hq⟩)
  obtain ⟨u, m, -, hm, hprelude, hdelete⟩ := hwritten.deletes
  refine ⟨⟨u, sub.cleared, m, hm, hprelude, hdelete⟩, fun q hq hname => ?_, fun q hq hname => ?_⟩
  all_goals
    obtain ⟨o, ho, hstated⟩ := hcases q hq hname
    obtain ⟨htype, y, hvalue, hsubject, htyped⟩ := comp.exists_typed hbuild h hr hapart ho
    have hall := hset o ho
    simp only [Entity.valueStatements, hsubject, List.mem_cons, List.not_mem_nil, or_false,
      forall_eq_or_imp, forall_eq] at hall hstated
  · rcases hstated with rfl | rfl
    · exact ⟨_, hall.2, rfl, hvalue, rfl⟩
    · exact ⟨_, hall.1, rfl, rfl, hvalue⟩
  · rcases hstated with rfl | rfl
    · exact hentry htype
    · exact htyped

end Composition

end Submissions

/-- The edges that a submission sets under a mutual field come in pairs. -/
theorem Workspace.Request.sanitize_pairs {types : List EntityType} {schema : Schema}
    (hbuild : Schema.build types = .ok schema) {name tag : String}
    (h : schema.HoldsMutual name tag) {r : Resolver} (hr : r.KeepsTo schema name tag) {s : Store}
    (hapart : s.KeepsTypesApart) {fixed : Option Json} {c : Context} {request : Request}
    {before after : Desk} {sub : Submission}
    (hsub : (request.sanitize (s.directory schema fixed) r c).Yields before sub after) :
    sub.mutation.Pairs schema s name tag := by
  have hschema := Schema.wellFormed_of_build hbuild
  cases request with
  | new typeName form =>
    obtain ⟨run⟩ := newEntry_yields.1 hsub
    obtain ⟨comp⟩ := exists_composition (d := s.directory schema fixed) hbuild (.inl hsub)
    have hwritten := newEntry_written (d := s.directory schema fixed) hschema hsub
    refine comp.pairs hbuild h hr hapart hwritten fun htype => ?_
    obtain ⟨⟨node, hnode⟩, -, -⟩ := newEntry_entry (d := s.directory schema fixed) hschema hsub
    have hsame : comp.type = run.type :=
      Option.some.inj (comp.isType.symm.trans (entryType_ok run.isType))
    have hlineage : tag ∈ comp.type.lineage := by
      rw [← htype]
      exact Schema.mem_lineage_of_build hbuild (hschema.get?_of_type? comp.isType)
    have hstated : ⟨sub.entry.subject, Search.typeKey, .plain (.ofText tag)⟩ ∈ sub.mutation.set := by
      rw [hwritten.set]
      refine List.mem_append_left _ (Entity.mem_statements_types hbuild ?_)
      rw [run.values_types, ← hsame]
      exact List.mem_map_of_mem hlineage
    rw [hnode, Operand.ofText, h.trimmed] at hstated
    rw [hnode]
    exact hstated
  | edit typeName form =>
    obtain ⟨run⟩ := editEntry_yields.1 hsub
    obtain ⟨comp⟩ := exists_composition (d := s.directory schema fixed) hbuild (.inr hsub)
    refine comp.pairs hbuild h hr hapart (editEntry_written hsub) fun htype => ?_
    obtain ⟨⟨u, hu, hsubject⟩, -, -⟩ := editEntry_entry hsub
    obtain rfl : run.uid = u := Except.ok.inj (run.hasUid.symm.trans hu)
    have hsame : comp.type = run.type :=
      Option.some.inj (comp.isType.symm.trans (entryType_ok run.isType))
    obtain ⟨hmem, -, -⟩ := checkEdit_ok.1 run.mayEdit
    rw [Store.entryInfo_types (existingEntry_yields.1 run.isEntry), hapart.toldTypes_eq, ← hsame,
      htype] at hmem
    rw [hsubject]
    exact hmem

/-! ### Several clients -/

variable {ι : Type}

/-- A store, and the mutations that clients were given and may write. -/
structure System (ι : Type) where
  store : Store
  held : List (ι × Mutation)

namespace System

/-- A client has a submission sanitized in the store as it is, or writes a mutation that it was
given, in a store that may be another one by then. -/
inductive Step (schema : Schema) (allowed : Resolver → Prop) : System ι → System ι → Prop
  | sanitize {σ : System ι} {i : ι} {r : Resolver} {fixed : Option Json} {c : Context}
      {request : Workspace.Request} {before after : Desk} {sub : Submission} (hallowed : allowed r)
      (hsub : (request.sanitize (σ.store.directory schema fixed) r c).Yields before sub after) :
      Step schema allowed σ { σ with held := (i, sub.mutation) :: σ.held }
  | write {σ : System ι} {i : ι} {m : Mutation} (hheld : (i, m) ∈ σ.held) :
      Step schema allowed σ { σ with store := (commit schema σ.store m).1 }

/-- Systems that are reached step by step. -/
abbrev Reaches (schema : Schema) (allowed : Resolver → Prop) : System ι → System ι → Prop :=
  Relation.ReflTransGen (Step schema allowed)

/-- The edges under a name are symmetric, and those that clients may still write come in pairs. -/
structure Paired (schema : Schema) (name tag : String) (σ : System ι) : Prop where
  apart : σ.store.KeepsTypesApart
  symmetric : σ.store.IsSymmetric name
  links : σ.store.LinksOnly name tag
  held : ∀ i m, (i, m) ∈ σ.held → m.Pairs schema σ.store name tag

variable {types : List EntityType} {schema : Schema} {name tag : String} {σ σ' : System ι}

/-- Each step keeps the edges symmetric and the held ones in pairs. -/
theorem Step.paired (hbuild : Schema.build types = .ok schema) (h : schema.HoldsMutual name tag)
    (hstep : Step schema (Resolver.KeepsTo · schema name tag) σ σ')
    (hσ : σ.Paired schema name tag) : σ'.Paired schema name tag := by
  cases hstep with
  | sanitize hallowed hsub =>
    refine ⟨hσ.apart, hσ.symmetric, hσ.links, fun i m hheld => ?_⟩
    rcases List.mem_cons.1 hheld with heq | hheld
    · rw [(Prod.mk.inj heq).2]
      exact Workspace.Request.sanitize_pairs hbuild h hallowed hσ.apart hsub
    · exact hσ.held i m hheld
  | write hheld =>
    have hpairs := hσ.held _ _ hheld
    exact {
      apart := hσ.apart.commit _
      symmetric := hpairs.commit_isSymmetric h.toIsMutual hσ.symmetric hσ.links
      links := hpairs.commit_linksOnly h.toIsMutual hσ.links
      -- the other mutations were made in stores in which nodes had fewer types
      held := fun i m hm => (hσ.held i m hm).mono fun _ => mem_typesAt_commit }

/-- The edges are symmetric after any steps. -/
theorem Reaches.paired (hbuild : Schema.build types = .ok schema) (h : schema.HoldsMutual name tag)
    (hrun : Reaches schema (Resolver.KeepsTo · schema name tag) σ σ')
    (hσ : σ.Paired schema name tag) : σ'.Paired schema name tag := by
  induction hrun with
  | refl => exact hσ
  | tail _ hstep ih => exact hstep.paired hbuild h ih

end System

/-! ### Siblings -/

/-- A field is mutual if all its declarations are. -/
theorem Schema.holdsMutual_of_all {types : List EntityType} {schema : Schema}
    (hbuild : Schema.build types = .ok schema) {name tag : String}
    (hfield : (schema.predicate? name).any (fun p => p.direction? == some .mutual && p.isList &&
      Mutation.owners p == [tag]) = true)
    (htypes : (((schema.lineage? tag).getD [tag]).contains tag &&
      schema.types.values.all fun t => (t.predicate? name).all fun p =>
        t.name == tag && p.isRelationship && Mutation.owners p == [tag]) = true)
    (hunset : name ∉ setBySystem ∧ name ∉ Satellite.plainFields) (hkey : name ≠ Search.typeKey)
    (htrim : Text.trim tag = tag) : schema.HoldsMutual name tag := by
  obtain ⟨p, hp, hfield⟩ := (Option.any_eq_true _ _).1 hfield
  simp only [Bool.and_eq_true, beq_iff_eq] at hfield
  obtain ⟨⟨hdirection, hlist⟩, howners⟩ := hfield
  obtain ⟨htold, htypes⟩ := Bool.and_eq_true_iff.1 htypes
  have hforward : p.direction? ≠ some .forward := by
    rw [hdirection]
    decide
  refine {
    direction := by rw [direction?, hp]; exact hdirection
    owners := fun q hq => ?_
    isList := by rw [Store.isList, hp]; exact hlist
    alone := fun key => edge_ne_of_build hbuild hp hforward
    notTypes := hkey
    types := fun {typeName t q} ht hq => ?_
    told := List.contains_iff_mem.1 htold
    unset := hunset
    trimmed := htrim }
  · obtain rfl : p = q := Option.some.inj (hp.symm.trans hq)
    exact howners
  · have hget := (wellFormed_of_build hbuild).get?_of_type? ht
    have hall := List.all_eq_true.1 htypes t (Table.mem_values_iff.2 ⟨_, hget⟩)
    rw [hq] at hall
    simpa [and_assoc] using hall

theorem holdsMutual_siblings : Inventory.schema.HoldsMutual "sibling_sources" "Source" := by
  refine Schema.holdsMutual_of_all Inventory.build_entityTypes ?_ ?_ ?_ ?_ ?_
  · rw [Inventory.predicate?_schema]
    decide +kernel
  · rewrite [Inventory.schema_eq]
    decide +kernel
  all_goals decide +kernel

/-- New nodes that have nothing but a name are of the one type that a field is constrained to. -/
theorem Schema.HoldsMutual.keepsTo_stubResolver {schema : Schema} {name tag : String}
    (h : schema.HoldsMutual name tag) : stubResolver.KeepsTo schema name tag := by
  have hname : name ≠ "name" := fun heq => h.unset.2 (heq ▸ List.mem_cons_self)
  intro p node t ht
  unfold stubResolver at ht
  split at ht
  · cases ht
  · rename_i rel hrel
    split at ht
    · cases ht
    · rename_i first rest hconstraint
      cases ht
      refine ⟨fun howners => ?_, (Table.get?_insert _ _ _ _).trans (if_neg hname)⟩
      have hfirst : first :: rest = [tag] := by
        rw [← hconstraint, ← howners, Mutation.owners, hrel]
        rfl
      obtain ⟨rfl, -⟩ := List.cons.inj hfirst
      exact h.told

/-- Siblings are symmetric in every store that is reached, whatever clients have sanitized and
write, in whatever order. -/
theorem siblings_stay_symmetric {s : Store} (hapart : s.KeepsTypesApart)
    (hsymmetric : s.IsSymmetric "sibling_sources") (hlinks : s.LinksOnly "sibling_sources" "Source")
    {σ : System ι}
    (hrun : System.Reaches Inventory.schema
      (Resolver.KeepsTo · Inventory.schema "sibling_sources" "Source") ⟨s, []⟩ σ) :
    σ.store.IsSymmetric "sibling_sources" ∧ σ.store.LinksOnly "sibling_sources" "Source" := by
  have hpaired := System.Reaches.paired Inventory.build_entityTypes holdsMutual_siblings hrun
    ⟨hapart, hsymmetric, hlinks, fun _ _ hheld => nomatch hheld⟩
  exact ⟨hpaired.symmetric, hpaired.links⟩

/-! ### Edits that are written late -/

/-- What a client does: it has an edit of a source sanitized, or writes a mutation that was given
out, counted from the last one. -/
inductive Action where
  | edit (form : Form)
  | write (n : Nat)

namespace System

variable {r : Resolver} {σ σ' : System ι}

/-- A client does something, if it can. -/
def act (r : Resolver) (σ : System ι) : ι × Action → Option (System ι)
  | (i, .edit form) =>
    ((editEntry (σ.store.directory Inventory.schema none) r "Source" form
      administrator).outcome Desk.clean).1.toOption.map fun sub =>
        { σ with held := (i, sub.mutation) :: σ.held }
  | (_, .write n) =>
    σ.held[n]?.map fun held => { σ with store := (commit Inventory.schema σ.store held.2).1 }

theorem step_of_act {allowed : Resolver → Prop} (hallowed : allowed r) {x : ι × Action}
    (h : σ.act r x = some σ') : Step Inventory.schema allowed σ σ' := by
  obtain ⟨i, action⟩ := x
  cases action with
  | edit form =>
    obtain ⟨sub, hsub, rfl⟩ := Option.map_eq_some_iff.1 h
    obtain ⟨after, hafter⟩ : ∃ after, (Workspace.Request.sanitize _ r administrator
        (.edit "Source" form)).Yields Desk.clean sub after :=
      ⟨_, Prod.ext (toOption_eq_some.1 hsub) rfl⟩
    exact .sanitize hallowed hafter
  | write n =>
    obtain ⟨⟨j, m⟩, hheld, rfl⟩ := Option.map_eq_some_iff.1 h
    exact .write (List.mem_of_getElem? hheld)

/-- The store that clients leave who do one thing after another. -/
def run (r : Resolver) (s : Store) (actions : List (ι × Action)) : Option Store :=
  (actions.foldlM (act r) ⟨s, []⟩).map (·.store)

/-- What clients do one after another leads to a system that is reached. -/
theorem exists_reached (allowed : Resolver → Prop) (hallowed : allowed r) {s : Store}
    {actions : List (ι × Action)} {test : Store → Bool}
    (h : (run r s actions).any test = true) :
    ∃ σ : System ι, Reaches Inventory.schema allowed ⟨s, []⟩ σ ∧ test σ.store = true := by
  obtain ⟨after, hafter, htest⟩ := (Option.any_eq_true _ _).1 h
  obtain ⟨last, hlast, rfl⟩ := Option.map_eq_some_iff.1 hafter
  refine ⟨last, ?_, htest⟩
  clear h hafter htest
  generalize (⟨s, []⟩ : System ι) = σ at hlast ⊢
  induction actions generalizing σ with
  | nil =>
    obtain rfl := Option.some.inj hlast
    exact .refl
  | cons x rest ih =>
    rw [List.foldlM_cons] at hlast
    obtain ⟨mid, hmid, hrest⟩ := Option.bind_eq_some_iff.1 hlast
    exact .head (step_of_act hallowed hmid) (ih mid hrest)

end System

namespace Store

/-- Edges of which there are none are symmetric. -/
theorem isSymmetric_of_none {s : Store} {name tag : String}
    (h : s.nodes.values.all (fun n => (n.values name).isEmpty) = true) :
    s.IsSymmetric name ∧ s.LinksOnly name tag := by
  have hnone (a b : String) : b ∉ s.valuesAt a name := by
    intro hb
    obtain ⟨n, hn⟩ := exists_node_of_mem_valuesAt hb
    rw [valuesAt, nodeAt_of_node? hn,
      List.isEmpty_iff.1 (List.all_eq_true.1 h n (Table.mem_values_iff.2 ⟨a, hn⟩))] at hb
    cases hb
  exact ⟨fun a b hb => absurd hb (hnone a b), fun a b hb => absurd hb (hnone a b)⟩

/-- An edge leads one way only. -/
def leadsOneWay (s : Store) (name a b : String) : Bool :=
  (s.valuesAt a name).contains b && !(s.valuesAt b name).contains a

theorem not_isSymmetric {s : Store} {name a b : String} (h : s.leadsOneWay name a b = true) :
    ¬ s.IsSymmetric name := by
  intro hsymmetric
  simp only [leadsOneWay, Bool.and_eq_true, Bool.not_eq_true', List.contains_eq_mem,
    decide_eq_true_eq, decide_eq_false_iff_not] at h
  exact h.2 (hsymmetric a b h.1)

end Store

/-- A store with two sources. -/
def twoSources : Store :=
  ((Store.empty.addEntry "Source" "a" none).2.addEntry "Source" "b" none).2

/-- The form that gives a source its siblings. -/
def siblingsForm (uid : String) (siblings : List String) : Form :=
  (Table.empty.insert "uid" (.string uid)).insert "sibling_sources"
    (.array (siblings.map .string))

theorem keepsTypesApart_twoSources : twoSources.KeepsTypesApart :=
  have hempty : Store.empty.KeepsTypesApart := fun _ _ hn => nomatch hn
  (hempty.addNode (by decide)).addNode (by decide)

theorem isSymmetric_twoSources : twoSources.IsSymmetric "sibling_sources" ∧
    twoSources.LinksOnly "sibling_sources" "Source" :=
  isSymmetric_of_none (by decide +kernel)

/-- A store with a node that is told to be a source and is stored as none, and with a source. -/
def mistyped : Store :=
  ((Store.empty.addNode [] [(Search.typeKey, "Source"), (Search.typeKey, "Entry")]).2.addEntry
    "Source" "b" none).2

/-- Makes a node of one type with the same values for every label. -/
def Resolver.making (typeName : String) (fields : Table (List Object)) : Resolver := fun _ node =>
  .ok (.new ⟨node, typeName, fields⟩)

/-- Two clients have edits of two sources sanitized in the same store: one makes them siblings, the
other one gives the second source another sibling instead. -/
def overtaking : List (Bool × Action) :=
  [(false, .edit (siblingsForm "0x100" ["0x101"])), (true, .edit (siblingsForm "0x101" ["Bar"])),
    (false, .write 1), (true, .write 0)]

/-- A client gives a source a sibling. -/
def giving (uid sibling : String) : List (Unit × Action) :=
  [((), .edit (siblingsForm uid [sibling])), ((), .write 0)]

/-- A client gives a source a sibling and drops it again. -/
def dropping (uid sibling : String) : List (Unit × Action) :=
  giving uid sibling ++ [((), .edit (siblingsForm uid [])), ((), .write 0)]

/-- What the edges between siblings are after these runs. -/
theorem edges_after_runs :
    ((System.run stubResolver twoSources overtaking).any
        (fun s => s.valuesAt "0x101" "sibling_sources" == ["0x102"]) &&
      ((System.run stubResolver mistyped (dropping "0x101" "0x100")).any
          (·.leadsOneWay "sibling_sources" "0x100" "0x101") &&
        ((System.run (.making "Organization" .empty) twoSources (dropping "0x100" "c")).any
            (·.leadsOneWay "sibling_sources" "0x102" "0x100") &&
          (System.run (.making "Source" (Table.empty.insert "sibling_sources" [.plain (.ofText "c")]))
            twoSources (giving "0x100" "c")).any
              (·.leadsOneWay "sibling_sources" "0x102" "c")))) = true := by
  unfold System.run System.act
  rewrite [Inventory.schema_eq, Store.directory_eq]
  decide +kernel

/-- The edges are symmetric after an edit that overtook another one. -/
theorem siblings_stay_symmetric_late : twoSources.KeepsTypesApart ∧
    twoSources.IsSymmetric "sibling_sources" ∧
    twoSources.LinksOnly "sibling_sources" "Source" ∧ ∃ σ : System Bool,
      System.Reaches Inventory.schema
        (Resolver.KeepsTo · Inventory.schema "sibling_sources" "Source") ⟨twoSources, []⟩ σ ∧
      σ.store.valuesAt "0x101" "sibling_sources" = ["0x102"] ∧
      σ.store.IsSymmetric "sibling_sources" ∧ σ.store.LinksOnly "sibling_sources" "Source" := by
  obtain ⟨hsymmetric, hlinks⟩ := isSymmetric_twoSources
  obtain ⟨σ, hrun, hvalues⟩ := System.exists_reached
    (Resolver.KeepsTo · Inventory.schema "sibling_sources" "Source")
    holdsMutual_siblings.keepsTo_stubResolver (Bool.and_eq_true_iff.1 edges_after_runs).1
  exact ⟨keepsTypesApart_twoSources, hsymmetric, hlinks, σ, hrun, beq_iff_eq.1 hvalues,
    siblings_stay_symmetric keepsTypesApart_twoSources hsymmetric hlinks hrun⟩

/-- If an edge leads one way only after what clients do, edges do not stay symmetric. -/
theorem System.exists_lopsided {r : Resolver} {s : Store} {actions : List (ι × Action)}
    {name a b : String} (h : (run r s actions).any (·.leadsOneWay name a b) = true) :
    ∃ σ : System ι, Reaches Inventory.schema (· = r) ⟨s, []⟩ σ ∧ ¬ σ.store.IsSymmetric name := by
  obtain ⟨σ, hrun, hvalues⟩ := exists_reached (· = r) rfl h
  exact ⟨σ, hrun, not_isSymmetric hvalues⟩

/-- A sibling that is told to be a source and is stored as none keeps its edge as it is dropped.
So does one that a resolver makes as an organization. An edge that a resolver makes to something
that is no node leads one way from the beginning. -/
theorem siblings_left_behind :
    (mistyped.Fresh ∧ mistyped.IsSymmetric "sibling_sources" ∧
      mistyped.LinksOnly "sibling_sources" "Source" ∧ ∃ σ : System Unit,
        System.Reaches Inventory.schema (· = stubResolver) ⟨mistyped, []⟩ σ ∧
          ¬ σ.store.IsSymmetric "sibling_sources") ∧
    (twoSources.Fresh ∧ twoSources.IsSymmetric "sibling_sources" ∧
      twoSources.LinksOnly "sibling_sources" "Source" ∧
      (∃ σ : System Unit,
        System.Reaches Inventory.schema (· = .making "Organization" .empty) ⟨twoSources, []⟩ σ ∧
          ¬ σ.store.IsSymmetric "sibling_sources") ∧
      ∃ σ : System Unit,
        System.Reaches Inventory.schema (· = .making "Source"
          (Table.empty.insert "sibling_sources" [.plain (.ofText "c")])) ⟨twoSources, []⟩ σ ∧
          ¬ σ.store.IsSymmetric "sibling_sources") := by
  obtain ⟨-, hruns⟩ := Bool.and_eq_true_iff.1 edges_after_runs
  obtain ⟨hmistyped, hruns⟩ := Bool.and_eq_true_iff.1 hruns
  obtain ⟨horganization, hliteral⟩ := Bool.and_eq_true_iff.1 hruns
  obtain ⟨hsymmetric, hlinks⟩ : mistyped.IsSymmetric "sibling_sources" ∧
      mistyped.LinksOnly "sibling_sources" "Source" := isSymmetric_of_none (by decide +kernel)
  have hfresh : mistyped.Fresh := (fresh_empty.addNode _ _).addNode _ _
  have hfresh' : twoSources.Fresh := (fresh_empty.addNode _ _).addNode _ _
  exact ⟨⟨hfresh, hsymmetric, hlinks, System.exists_lopsided hmistyped⟩, hfresh',
    isSymmetric_twoSources.1, isSymmetric_twoSources.2, System.exists_lopsided horganization,
    System.exists_lopsided hliteral⟩

end PressRegister
