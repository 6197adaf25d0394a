import Mathlib.Data.List.TakeWhile
import PressRegister.Proofs.Schema.Names
import PressRegister.Proofs.Submission.Denotation

/-!
# How submissions are composed

A new entry and a change are composed in the same way. Fields are read from the form,
which the type of the entry knows; their labels are resolved; and then the system sets
fields of its own, over those of the form. What it sets are literals and the account of
the user, so a submission has no new nodes but its entry and those of its labels.

## Main definitions

* `Entity.AddsNoNew`: an entity has no new nodes for values that another one had not.
* `overwrittenFields`: the fields whose values the system replaces.
* `Composition`: the fields and labels that a submission was composed of.

## Main results

* `exists_composition`: every submission was composed.
* `Composition.exists_satellite`, `Composition.exists_label`: the new nodes of a submission are
  those that its labels denote.
* `Composition.value_cases`: the values of a relationship of the entry.
-/

namespace PressRegister

open Consult

/-! ### Values that are no new nodes -/

namespace Entity

/-- The values of a field. -/
def values (e : Entity) (name : String) : List Object :=
  (e.fields.get? name).getD []

/-- An entity has no new nodes for values that another one had not. -/
def AddsNoNew (e e' : Entity) : Prop :=
  ∀ name, ∀ o ∈ e'.values name, o ∈ e.values name ∨ ∀ b, o.value ≠ .new b

theorem values_set (e : Entity) (name key : String) (objects : List Object) :
    (e.set name objects).values key = if key = name then objects else e.values key := by
  unfold values set
  rw [Table.get?_insert]
  split <;> rfl

namespace AddsNoNew

variable {e e' e'' : Entity}

theorem refl (e : Entity) : e.AddsNoNew e := fun _ _ h => .inl h

theorem trans (h : e.AddsNoNew e') (h' : e'.AddsNoNew e'') : e.AddsNoNew e'' := by
  intro name o ho
  rcases h' name o ho with ho | ho
  · exact h name o ho
  · exact .inr ho

/-- Fields may be set to values that are no new nodes. -/
theorem set (h : e.AddsNoNew e') {key : String} {objects : List Object}
    (hobjects : ∀ o ∈ objects, ∀ b, o.value ≠ .new b) : e.AddsNoNew (e'.set key objects) := by
  intro name o ho
  rw [values_set] at ho
  split at ho
  · exact .inr (hobjects o ho)
  · exact h name o ho

theorem single (h : e.AddsNoNew e') {k : String} {o : Object} (ho : ∀ b, o.value ≠ .new b) :
    e.AddsNoNew (e'.set k [o]) :=
  h.set fun q hq => by rwa [List.mem_singleton.1 hq]

theorem push (h : e.AddsNoNew e') {k : String} {o : Object} (ho : ∀ b, o.value ≠ .new b) :
    e.AddsNoNew (e'.push k o) := by
  refine h.trans fun name q hq => ?_
  rw [Entity.push, values_set] at hq
  split at hq
  · rename_i heq
    rcases List.mem_append.1 hq with hq | hq
    · exact .inl (heq ▸ hq)
    · rw [List.mem_singleton.1 hq]
      exact .inr ho
  · exact .inl hq

end AddsNoNew

theorem values_withoutEmptyFields (e : Entity) (name : String) :
    (withoutEmptyFields e).values name = e.values name := by
  unfold values withoutEmptyFields
  rw [Table.get?_filter]
  cases e.fields.get? name with
  | none => rfl
  | some objects => cases objects <;> rfl

end Entity

section System

variable {e e' : Entity} {t : TypeDef} {c : Context}

theorem ofText_ne_new (text : String) (b : BlankNode) :
    (Object.plain (.ofText text)).value ≠ .new b := by
  intro h
  cases h

theorem withUniqueName_addsNoNew {d : Directory} {before after : Desk}
    (h : (withUniqueName d t e).Yields before e' after) : e.AddsNoNew e' := by
  have hpaper : e.AddsNoNew (namePaper e) := by
    unfold namePaper
    split
    · exact .refl e
    · simp only
      split
      · exact .refl e
      · exact (Entity.AddsNoNew.refl e).single (ofText_ne_new _)
  unfold withUniqueName at h
  split at h
  · obtain ⟨taken, mid, -, h⟩ := yields_bind.1 h
    split at h
    · exact (not_yields_fail h).elim
    · obtain ⟨rfl, -⟩ := yields_pure.1 h
      exact .refl _
  · simp only [yields_bind, yields_pure] at h
    obtain ⟨⟨v, e₁⟩, mid, hgenerate, rfl, -⟩ := h
    rcases generateUniqueName_spec hgenerate with rfl | rfl
    · exact (Entity.AddsNoNew.refl _).single (ofText_ne_new v)
    · exact hpaper.single (ofText_ne_new v)

theorem withSystemFields_addsNoNew (t : TypeDef) (status : ReviewStatus) (c : Context)
    (e : Entity) : e.AddsNoNew (withSystemFields t status c e) := by
  have huser : ∀ b, c.userEdge.value ≠ .new b := fun b h => by cases h
  have hdate : ∀ b, c.date.value ≠ .new b := fun b h => by cases h
  have hbase := (((Entity.AddsNoNew.refl e).single (k := ReviewStatus.predicateName)
    (ofText_ne_new status.name)).single (k := "entry_added") huser).single
      (k := "creation_date") hdate
  have htypes : ∀ o ∈ t.lineage.map fun name => Object.plain (.ofText name),
      ∀ b, o.value ≠ .new b := by
    intro o ho
    obtain ⟨name, -, rfl⟩ := List.mem_map.1 ho
    exact ofText_ne_new name
  unfold withSystemFields
  simp only
  split
  · exact (hbase.single huser).set htypes
  · exact hbase.set htypes

theorem withEditHistory_addsNoNew (c : Context) (current status : ReviewStatus) (e : Entity) :
    e.AddsNoNew (withEditHistory c current status e).1 := by
  have huser : ∀ b, c.userEdge.value ≠ .new b := fun b h => by cases h
  have hbase := (Entity.AddsNoNew.refl e).push (k := "entry_edit_history") huser
  unfold withEditHistory
  simp only
  split
  · exact hbase
  split
  · exact (hbase.single (ofText_ne_new _)).single huser
  · exact hbase.single (ofText_ne_new _)

end System

/-- The fields whose values the system replaces by its own. -/
def overwrittenFields : List String :=
  ["unique_name", "name"] ++ systemFields

/-- The system adds the user to the edit history. -/
theorem values_withEditHistory (c : Context) (current status : ReviewStatus) (e : Entity) :
    (withEditHistory c current status e).1.values "entry_edit_history" =
      e.values "entry_edit_history" ++ [c.userEdge] := by
  have hpush : (e.push "entry_edit_history" c.userEdge).values "entry_edit_history" =
      e.values "entry_edit_history" ++ [c.userEdge] := by
    rw [Entity.push, Entity.values_set, if_pos rfl]
    rfl
  have hother : "entry_edit_history" ≠ ReviewStatus.predicateName ∧
      "entry_edit_history" ≠ "reviewed_by" := by decide
  unfold withEditHistory
  simp only
  split
  · exact hpush
  split
  all_goals simpa only [Entity.values_set, hother, if_false] using hpush

/-! ### Compositions -/

/-- No key of a form that names a field of a type names a facet. -/
theorem splitKey?_eq_none {types : List EntityType} {schema : Schema}
    (hbuild : Schema.build types = .ok schema) {typeName : String} {t : TypeDef}
    (ht : schema.type? typeName = some t) {key : String} {p : Predicate}
    (hp : t.predicate? key = some p) : Facet.splitKey? key = none := by
  have hschema := Schema.wellFormed_of_build hbuild
  obtain ⟨first, hfirst, -⟩ :=
    hschema.shapes (hschema.get?_of_type? ht) p (List.mem_of_find?_eq_some hp)
  have hname : p.name = key := by simpa using List.find?_some hp
  rw [hname] at hfirst
  have hidentifier := Schema.isIdentifier_of_isUndotted (Schema.isUndotted_of_isPredicateName
    (Schema.isPredicateName_of_build hbuild hfirst))
  have hbar : key.toList.dropWhile (· != '|') = [] := by
    refine List.dropWhile_eq_nil_iff.2 fun c hc => ?_
    have hchar := (Text.isIdentifier_spec hidentifier).2 c hc
    rw [bne_iff_ne]
    rintro rfl
    exact absurd hchar (by decide)
  rw [Facet.splitKey?, hbar]

/-- The keys of a form that are no fields of the entry: a change is told by its form which node
it is about. -/
def Submission.skipped (sub : Submission) : List String :=
  match sub.entry.subject with
  | .existing _ => ["uid"]
  | _ => []

/-- The fields and labels that a submission was composed of. -/
structure Composition (d : Directory) (r : Resolver) (typeName : String) (form : Form)
    (c : Context) (sub : Submission) where
  type : TypeDef
  /-- What was read from the form, and defaults. -/
  fields : Fields
  /-- The entry with its labels resolved. -/
  entry : Entity
  /-- What the labels denote. -/
  resolution : Resolution
  before : Desk
  after : Desk
  isType : d.schema.type? typeName = some type
  given : FieldsHold (form.SetsTo sub.skipped) type fields
  /-- What the form, or a default, says of a field is read. -/
  formed : ∀ {p raw}, type.predicate? p.name = some p → form.Sets sub.skipped p raw →
    ∃ supply supply' objects, p.validate raw supply = .ok (objects.map (·.value), supply') ∧
      fields.get? p.name = some objects
  resolves : (resolveFields d r c type ⟨.empty, []⟩ fields.entries fields).Yields before
    (entry.fields, resolution) after
  subject : sub.entry.subject = entry.subject
  related : sub.related = inheritSiblings entry resolution
  addsNoNew : entry.AddsNoNew sub.entry
  /-- Fields that the system does not set are the ones of the form. -/
  kept : ∀ {name}, name ∉ overwrittenFields → name ≠ "entry_edit_history" →
    sub.entry.values name = entry.values name
  history : ∃ added, sub.entry.values "entry_edit_history" =
    entry.values "entry_edit_history" ++ added ∧ ∀ o ∈ added, o = c.userEdge
  set : sub.mutation.set =
    sub.entry.statements d.schema ++ Mutation.satelliteStatements d.schema sub.related

section Submissions

variable {types : List EntityType} {d : Directory} {r : Resolver} {typeName : String} {form : Form} {c : Context}
  {before after : Desk} {sub : Submission}

theorem NewRun.related_eq (run : NewRun d r typeName form c before after sub) :
    sub.related = run.related :=
  congrArg Submission.related run.result

theorem EditRun.related_eq (run : EditRun d r typeName form c before after sub) :
    sub.related = run.related :=
  congrArg Submission.related run.result

/-- The types of a new entry are the lineage of its type. -/
theorem NewRun.values_types (run : NewRun d r typeName form c before after sub) :
    sub.entry.values Search.typeKey = run.type.lineage.map fun name => .plain (.ofText name) := by
  rw [run.entry_eq, Entity.values_withoutEmptyFields]
  unfold withSystemFields
  simp only
  split <;> exact (Entity.values_set _ _ _ _).trans (if_pos rfl)

/-- A new entry was composed. -/
theorem NewRun.composition (hbuild : Schema.build types = .ok d.schema)
    (run : NewRun d r typeName form c before after sub) :
    Nonempty (Composition d r typeName form c sub) := by
  have hschema := Schema.wellFormed_of_build hbuild
  have hkeys := fun key (p : Predicate) (hp : run.type.predicate? key = some p) =>
    splitKey?_eq_none hbuild (entryType_ok run.isType) hp
  obtain ⟨⟨node, hnode⟩, -, hset⟩ := newEntry_entry hschema (newEntry_yields.2 ⟨run⟩)
  obtain ⟨fields, st, hresolve, hresolved, hrelated⟩ := resolveRelated_yields.1 run.resolves
  have hnamed : run.resolved.AddsNoNew run.named := withUniqueName_addsNoNew run.names
  have hskipped : sub.skipped = [] := by rw [Submission.skipped, hnode]
  have hvalues (name : String) : sub.entry.values name =
      (withSystemFields run.type run.status c run.named).values name := by
    rw [run.entry_eq, Entity.values_withoutEmptyFields]
  have hkept : ∀ {name}, name ∉ overwrittenFields →
      sub.entry.values name = run.resolved.values name := by
    intro name hname
    simp only [overwrittenFields, List.cons_append, List.nil_append, List.mem_cons, not_or] at hname
    rw [hvalues, Entity.values, get?_withSystemFields hname.2.2,
      get?_withUniqueName hname.1 hname.2.1 run.names]
    rfl
  refine ⟨⟨run.type, run.filled.fields, run.resolved, st, run.afterDefaults, run.afterRelated,
    entryType_ok run.isType, ?_, fun {p raw} hp hsets => ?_, ?_, ?_, ?_, ?_, fun h _ => hkept h,
    ?_, hset⟩⟩
  · rw [hskipped]
    exact run.filled_given hschema hkeys
  · rw [hskipped] at hsets
    exact run.filled_formed hschema hkeys hp hsets
  · rw [hresolved]
    exact hresolve
  · rw [run.entry_eq, subject_withSystemFields]
    exact (withUniqueName_spec run.names).1
  · rw [← hresolved] at hrelated
    exact run.related_eq.trans hrelated
  · intro name o ho
    rw [hvalues] at ho
    exact hnamed.trans (withSystemFields_addsNoNew _ _ _ _) name o ho
  · exact ⟨[], by rw [hkept (by decide), List.append_nil], fun o ho => by cases ho⟩

/-- A change was composed, of the fields of its type. -/
theorem EditRun.composition (hbuild : Schema.build types = .ok d.schema)
    (run : EditRun d r typeName form c before after sub) :
    ∃ comp : Composition d r typeName form c sub,
      comp.type = run.type ∧ comp.entry = run.resolved := by
  obtain ⟨⟨u, -, hsubject⟩, -, hset⟩ := editEntry_entry (editEntry_yields.2 ⟨run⟩)
  obtain ⟨fields, st, hresolve, hresolved, hrelated⟩ := resolveRelated_yields.1 run.resolves
  have hskipped : sub.skipped = ["uid"] := by rw [Submission.skipped, hsubject]
  have hvalues (name : String) : sub.entry.values name =
      (withEditHistory c (run.info.status.getD .pending) run.status run.resolved).1.values name := by
    rw [run.entry_eq, changed, Entity.values_withoutEmptyFields]
  refine ⟨⟨run.type, run.fields, run.resolved, st, run.afterCheck, after, entryType_ok run.isType,
    ?_, fun {p raw} hp hsets => ?_, ?_, ?_, ?_, ?_, fun {name} hname hhistory => ?_, ?_, hset⟩,
    rfl, rfl⟩
  · rw [hskipped]
    exact run.given
  · rw [hskipped] at hsets
    exact run.formed (splitKey?_eq_none hbuild (entryType_ok run.isType) hp) hp hsets
  · rw [hresolved]
    exact hresolve
  · rw [run.entry_eq]
    exact subject_changed _ _ _ _ _
  · rw [← hresolved] at hrelated
    exact run.related_eq.trans hrelated
  · intro name o ho
    rw [hvalues] at ho
    exact withEditHistory_addsNoNew _ _ _ _ name o ho
  · have hname : name ∉ historyFields := by
      intro hmem
      simp only [historyFields, List.mem_cons, List.not_mem_nil, or_false] at hmem
      rcases hmem with rfl | rfl | rfl
      · exact hhistory rfl
      · exact hname (by decide)
      · exact hname (by decide)
    rw [hvalues, Entity.values, get?_withEditHistory hname]
    rfl
  · refine ⟨[c.userEdge], ?_, fun o ho => List.mem_singleton.1 ho⟩
    rw [hvalues, values_withEditHistory]

/-- Every submission was composed. -/
theorem exists_composition (hbuild : Schema.build types = .ok d.schema)
    (h : (newEntry d r typeName form c).Yields before sub after ∨
      (editEntry d r typeName form c).Yields before sub after) :
    Nonempty (Composition d r typeName form c sub) := by
  rcases h with hnew | hedit
  · obtain ⟨run⟩ := newEntry_yields.1 hnew
    exact run.composition hbuild
  · obtain ⟨run⟩ := editEntry_yields.1 hedit
    obtain ⟨comp, -⟩ := run.composition hbuild
    exact ⟨comp⟩

end Submissions

/-! ### Labels -/

/-- What is in the second of two related lists belongs to something in the first. -/
theorem exists_of_mem_forall₂ {α β : Type} {R : α → β → Prop} {as : List α} {bs : List β}
    (h : List.Forall₂ R as bs) {b : β} (hb : b ∈ bs) : ∃ a ∈ as, R a b := by
  induction h with
  | nil => cases hb
  | cons hab hrest ih =>
    rcases List.mem_cons.1 hb with rfl | hb
    · exact ⟨_, List.mem_cons_self, hab⟩
    · obtain ⟨a, ha, hrel⟩ := ih hb
      exact ⟨a, List.mem_cons_of_mem _ ha, hrel⟩

/-- A satellite with the fields of another one, up to what siblings take over from an entry. -/
structure Satellite.Extends (e : Entity) (t t' : Satellite) : Prop where
  node : t'.node = t.node
  typeName : t'.typeName = t.typeName
  fields : ∀ name, name ∉ Inventory.siblingInherited → t'.fields.get? name = t.fields.get? name
  values : ∀ name, t'.fields.get? name = t.fields.get? name ∨ t'.fields.get? name = e.get? name

theorem Satellite.Extends.refl (e : Entity) (t : Satellite) : t.Extends e t :=
  ⟨rfl, rfl, fun _ _ => rfl, fun _ => .inl rfl⟩

theorem extends_inheritSibling (e : Entity) (t : Satellite) : t.Extends e (inheritSibling e t) :=
  ⟨rfl, rfl, fun _ hname => get?_inheritSibling hname e t, fun _ => get?_inheritSibling_cases e t⟩

/-- The types that a new node is given. -/
def Satellite.tags (schema : Schema) (t : Satellite) : List String :=
  (schema.lineage? t.typeName).getD [t.typeName]

/-- A new node states its types and its fields. -/
theorem Satellite.values_entity (schema : Schema) (t : Satellite) (name : String) :
    (t.entity schema).values name = if name = Search.typeKey then
      (t.tags schema).map fun tag => .plain (.ofText tag) else (t.fields.get? name).getD [] := by
  have hget : (t.entity schema).fields.get? name = if name = Search.typeKey then
      some ((t.tags schema).map fun tag => .plain (.ofText tag)) else t.fields.get? name :=
    Table.get?_insert _ _ _ _
  rw [Entity.values, hget]
  split <;> rfl

namespace Composition

variable {s : Store} {schema : Schema} {fixed : Option Json} {r : Resolver} {typeName : String}
  {form : Form} {c : Context} {sub : Submission}
  (comp : Composition (s.directory schema fixed) r typeName form c sub)

theorem reads : FieldsRead comp.type comp.fields :=
  comp.given.fieldsRead fun _ _ => Form.SetsTo.reads

/-- What the labels of a submission denote. -/
def labels : Table Related :=
  comp.resolution.resolved

theorem labels_resolve : Resolves (Accepts s schema r c) comp.type comp.labels comp.fields
    comp.entry.fields :=
  (resolveFields_resolves comp.resolves).1

/-- Every label that denotes something was met in a field. -/
theorem exists_metUnder {name : String} {related : Related}
    (h : comp.labels.get? name = some related) :
    ∃ key p objects, comp.type.predicate? key = some p ∧ p.isRelationship = true ∧
      comp.fields.get? key = some objects ∧
        MetUnder (s.directory schema fixed) r c p objects comp.resolution name related :=
  (resolveFields_resolves comp.resolves).2 name related h

/-- Every label that denotes something was resolved under a field. -/
theorem exists_met {name : String} {related : Related} (h : comp.labels.get? name = some related) :
    ∃ key p objects, comp.type.predicate? key = some p ∧ p.isRelationship = true ∧
      comp.fields.get? key = some objects ∧
        ResolvedUnder (s.directory schema fixed) r c p objects name related := by
  obtain ⟨key, p, objects, hp, hrel, hget, hmet⟩ := comp.exists_metUnder h
  exact ⟨key, p, objects, hp, hrel, hget, hmet.resolved⟩

/-- The related nodes by their labels, siblings with what they take over. -/
def nodes : Table Related :=
  comp.resolution.resolved.map fun name related =>
    match related with
    | .new t => if comp.resolution.siblings.contains name then
        .new (inheritSibling comp.entry t) else related
    | .existing _ => related

theorem related_eq : sub.related = comp.nodes.values :=
  comp.related

/-- A label that denotes a new node leads to it among the related ones, and to it alone. -/
theorem get?_nodes {name : String} {t : Satellite} (h : comp.labels.get? name = some (.new t)) :
    ∃ t', comp.nodes.get? name = some (.new t') ∧ Satellite.Extends comp.entry t t' := by
  rw [nodes, Table.get?_map, show comp.resolution.resolved.get? name = some (.new t) from h]
  simp only [Option.map_some, Option.some.injEq]
  split
  · exact ⟨_, rfl, extends_inheritSibling _ _⟩
  · exact ⟨_, rfl, .refl _ t⟩

theorem exists_of_get?_nodes {name : String} {t' : Satellite}
    (h : comp.nodes.get? name = some (.new t')) :
    ∃ t, comp.labels.get? name = some (.new t) ∧ Satellite.Extends comp.entry t t' := by
  have hlabel := h
  rw [nodes, Table.get?_map, Option.map_eq_some_iff] at hlabel
  obtain ⟨related, hrelated, heq⟩ := hlabel
  cases related with
  | existing u => cases heq
  | new t =>
    obtain ⟨t'', hget, hextends⟩ := comp.get?_nodes hrelated
    obtain rfl := Related.new.inj (Option.some.inj (h.symm.trans hget))
    exact ⟨t, hrelated, hextends⟩

/-- A new node that a label denotes is among the related ones, possibly with what siblings take
over. -/
theorem exists_satellite {name : String} {t : Satellite}
    (h : comp.labels.get? name = some (.new t)) :
    ∃ t', .new t' ∈ sub.related ∧ Satellite.Extends comp.entry t t' := by
  obtain ⟨t', hget, hextends⟩ := comp.get?_nodes h
  exact ⟨t', comp.related_eq ▸ Table.mem_values_iff.2 ⟨name, hget⟩, hextends⟩

/-- A new node among the related ones is denoted by a label. -/
theorem exists_label {t' : Satellite} (h : .new t' ∈ sub.related) :
    ∃ name t, comp.labels.get? name = some (.new t) ∧ Satellite.Extends comp.entry t t' := by
  rw [comp.related_eq] at h
  obtain ⟨name, hget⟩ := Table.mem_values_iff.1 h
  obtain ⟨t, hlabel, hextends⟩ := comp.exists_of_get?_nodes hget
  exact ⟨name, t, hlabel, hextends⟩

/-- A new node beside the entry is what the resolver made of a label, completed. -/
theorem exists_completed {x : Satellite} (hx : .new x ∈ sub.related) :
    ∃ p node stub unique, r p node = .ok (.new stub) ∧
      Satellite.Extends comp.entry (completeSatellite c stub unique) x := by
  obtain ⟨label, t, hlabel, hextends⟩ := comp.exists_label hx
  obtain ⟨-, p, -, -, -, -, -, -, node, -, -, before, after, hresolve⟩ := comp.exists_met hlabel
  obtain ⟨stub, unique, hstub, rfl⟩ := resolveLabel_completed hresolve
  exact ⟨p, node, stub, unique, hstub, hextends⟩

/-- Values of a relationship that were read are nodes. -/
theorem isNode_of_mem {name : String} {p : Predicate} {objects : List Object} {o : Object}
    (hp : comp.type.predicate? name = some p) (hrel : p.isRelationship = true)
    (hget : comp.fields.get? name = some objects) (ho : o ∈ objects) : o.value.isNode = true := by
  obtain ⟨q, hq, hreads⟩ := comp.reads name objects hget
  obtain rfl : p = q := Option.some.inj (hp.symm.trans hq)
  have hadmits := hreads.admits (List.mem_map_of_mem ho)
  obtain ⟨rel, hkind⟩ := Option.isSome_iff_exists.1 hrel
  unfold Predicate.relationship? at hkind
  split at hkind
  · rename_i rel' heq
    rw [heq] at hadmits
    exact hadmits
  · cases hkind

/-- A value of a relationship is a stored node that the relationship allows, or what a label
denotes that it accepts. -/
theorem value_cases {name : String} {p : Predicate} {o : Object}
    (hp : comp.type.predicate? name = some p) (hrel : p.isRelationship = true)
    (ho : o ∈ comp.entry.values name) :
    (∃ u, o.value = .existing u ∧ p.Allows (s.toldTypes u.text)) ∨
      ∃ key t, comp.labels.get? key = some (.new t) ∧ o.value = .new t.node ∧
        Accepts s schema r c p (.new t) := by
  unfold Entity.values at ho
  cases hget : comp.fields.get? name with
  | none =>
    rw [comp.labels_resolve.unset hget] at ho
    cases ho
  | some objects =>
    obtain ⟨objects', hdenotes, hvalues⟩ := comp.labels_resolve.values hp hrel hget
    rw [hvalues, Option.getD_some] at ho
    obtain ⟨o', ho', hdenoted⟩ := exists_of_mem_forall₂ hdenotes (mem_distinctObjects ho)
    cases hdenoted with
    | stored haccepts => exact .inl ⟨_, rfl, haccepts⟩
    | @label node related facets hlabel haccepts =>
      cases related with
      | existing u => exact .inl ⟨u, rfl, haccepts⟩
      | new t => exact .inr ⟨_, t, hlabel, rfl, haccepts⟩
    | other hnode =>
      rw [comp.isNode_of_mem hp hrel hget ho'] at hnode
      cases hnode

/-- The values of a field that the system does not replace, and the user that it adds to the edit
history. -/
theorem exists_added {name : String} (hname : name ∉ overwrittenFields) :
    ∃ added, sub.entry.values name = comp.entry.values name ++ added ∧
      ∀ o ∈ added, o = c.userEdge := by
  by_cases hhistory : name = "entry_edit_history"
  · rw [hhistory]
    exact comp.history
  · exact ⟨[], by rw [comp.kept hname hhistory, List.append_nil], fun o ho => by cases ho⟩

end Composition

end PressRegister
