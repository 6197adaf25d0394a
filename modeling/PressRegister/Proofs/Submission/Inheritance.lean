import PressRegister.Proofs.Submission.Changes
import PressRegister.Proofs.Workspace.Review

/-!
# What new siblings take over

A source can be given siblings, and a label among them becomes a new source. The new source takes
over fields of the one that it is added to, as these stand in the submission. A new entry is
told all of its fields by its submission, so its siblings have the same values. A change is told
only some: what the entry has stored and the form does not name, its new siblings do not get.

## Main definitions

* `Submission.said`: what the parts of a submission say of a field of a node.
* `Submission.HasSibling`: a node that is made for a label among the siblings of an entry.
* `Submission.SetsApart`: no other new node, and no other field, can be confused with a sibling.

## Main results

* `Composition.exists_inheritSibling`: new siblings take over fields of the entry.
* `Composition.valuesAt_sibling`, `Composition.valuesAt_source`: the values of a field at a new
  sibling and at its entry afterwards.
* `Inventory.siblings_inherit_iff`: when a new sibling has the values of its entry.
* `Inventory.sibling_without_languages`: a new sibling of a source that does not have its languages.
-/

namespace PressRegister

open Consult Store

/-! ### Values that are said more than once -/

/-- Values that are set again stay as they are. -/
theorem setValues_again (isList : Bool) (old vs : List String) :
    setValues isList (setValues isList old vs) vs = setValues isList old vs := by
  cases isList with
  | true =>
    rw [setValues_true (setValues true old vs), List.filter_eq_nil_iff.2 fun v hv => ?_,
      List.append_nil]
    simpa using mem_setValues_true.2 (.inr (Predicate.mem_withoutRepeats.1 hv))
  | false =>
    rw [setValues_false (setValues false old vs), setValues_false]
    cases vs.getLast? <;> rfl

/-- If all that is set are some values, once or more often, they are set. -/
theorem setValues_flatten {isList : Bool} {old vs : List String} {parts : List (List String)}
    (hmem : vs ∈ parts) (h : ∀ part ∈ parts, part = vs ∨ part = []) :
    setValues isList old parts.flatten = setValues isList old vs := by
  have hmore : ∀ rest : List (List String), (∀ part ∈ rest, part = vs ∨ part = []) →
      setValues isList (setValues isList old vs) rest.flatten = setValues isList old vs := by
    intro rest
    induction rest with
    | nil => exact fun _ => rfl
    | cons part rest ih =>
      intro hrest
      obtain ⟨hpart, hothers⟩ := List.forall_mem_cons.1 hrest
      rw [List.flatten_cons, setValues_append]
      rcases hpart with rfl | rfl
      · rw [setValues_again, ih hothers]
      · exact ih hothers
  induction parts with
  | nil => cases hmem
  | cons part rest ih =>
    obtain ⟨hpart, hrest⟩ := List.forall_mem_cons.1 h
    rw [List.flatten_cons, setValues_append]
    rcases hpart with rfl | rfl
    · exact hmore rest hrest
    · rcases List.mem_cons.1 hmem with rfl | hmem
      · exact hmore rest hrest
      · exact ih hmem hrest

/-- What a new node states of a field is what it has of it, unless these are its types. -/
theorem Satellite.storedValues_entity {schema : Schema} {uids : NewUids} {name : String}
    (x : Satellite) (hname : name ≠ Search.typeKey) : (x.entity schema).storedValues uids name =
      Entity.storedValues uids ⟨.new x.node, x.fields⟩ name := by
  have hget : (x.entity schema).fields.get? name = x.fields.get? name :=
    (Table.get?_insert _ _ _ _).trans (if_neg hname)
  rw [Entity.storedValues, hget]
  rfl

namespace Submission

variable {schema : Schema} {s : Store} {sub : Submission} {uids : NewUids} {w name : String}

/-- What the parts of a submission say of a field of a node: the entry, and the new nodes. -/
def said (schema : Schema) (uids : NewUids) (sub : Submission) (w name : String) :
    List (List String) :=
  (if sub.entry.subject.stored? uids = some w then sub.entry.storedValues uids name else []) ::
    sub.related.map fun
      | .new x => if uids.get? x.node.name = some w then
          (x.entity schema).storedValues uids name else []
      | .existing _ => []

/-- A part that says something is the entry, or a new node. -/
theorem mem_said (hname : name ≠ Search.typeKey) {part : List String}
    (h : part ∈ sub.said schema uids w name) : part = [] ∨
      sub.entry.subject.stored? uids = some w ∧ part = sub.entry.storedValues uids name ∨
      ∃ x, .new x ∈ sub.related ∧ uids.get? x.node.name = some w ∧
        part = Entity.storedValues uids ⟨.new x.node, x.fields⟩ name := by
  rcases List.mem_cons.1 h with rfl | h
  · split
    · exact .inr (.inl ⟨‹_›, rfl⟩)
    · exact .inl rfl
  · obtain ⟨related, hrelated, rfl⟩ := List.mem_map.1 h
    cases related with
    | existing u => exact .inl rfl
    | new x =>
      simp only
      split
      · exact .inr (.inr ⟨x, hrelated, ‹_›, x.storedValues_entity hname⟩)
      · exact .inl rfl

theorem mem_said_of_entry (hw : sub.entry.subject.stored? uids = some w) :
    sub.entry.storedValues uids name ∈ sub.said schema uids w name := by
  rw [said, if_pos hw]
  exact List.mem_cons_self

theorem mem_said_of_new (hname : name ≠ Search.typeKey) {x : Satellite}
    (hx : .new x ∈ sub.related) (hw : uids.get? x.node.name = some w) :
    Entity.storedValues uids ⟨.new x.node, x.fields⟩ name ∈ sub.said schema uids w name := by
  refine List.mem_cons_of_mem _ (List.mem_map.2 ⟨.new x, hx, ?_⟩)
  simp only [hw, if_true, x.storedValues_entity hname]

theorem Written.told_eq_flatten (h : sub.Written schema) (hown : schema.IsOwn name) :
    told uids w name sub.mutation.set = (sub.said schema uids w name).flatten := by
  rw [h.set, told_append, Entity.told_own hown, said, List.flatten_cons, ← List.flatMap_def,
    Mutation.satelliteStatements, told, List.filterMap_flatMap]
  refine congrArg _ (List.flatMap_congr fun related _ => ?_)
  cases related with
  | existing u => rfl
  | new x => exact Entity.told_own hown

/-- The values of a field afterwards, if all parts of a submission that say something of it say
the same. -/
theorem Written.valuesAt_of_said (h : sub.Written schema) (hown : schema.IsOwn name)
    (hname : name ≠ Search.typeKey) {vs : List String}
    (hmem : vs ∈ sub.said schema (commit schema s sub.mutation).2 w name)
    (hall : ∀ part ∈ sub.said schema (commit schema s sub.mutation).2 w name,
      part = vs ∨ part = []) :
    (commit schema s sub.mutation).1.valuesAt w name = setValues (isList schema name)
      ((s.valuesAt w name).filter fun v =>
        !struck (s.bind sub.mutation.prelude) sub.mutation.delete w name v) vs := by
  rw [commit_valuesAt _ _ _ _ hname, h.told_eq_flatten hown, setValues_flatten hmem hall]

end Submission

/-! ### New siblings -/

namespace Submission

/-- A field of the entry leads to a new node with a name. -/
def Leads (sub : Submission) (field name : String) : Prop :=
  ∃ o ∈ sub.entry.values field, ∃ b, o.value = .new b ∧ b.name = name

/-- A new node beside the entry is one of its siblings. -/
structure HasSibling (sub : Submission) (x : Satellite) : Prop where
  related : .new x ∈ sub.related
  leads : sub.Leads "sibling_sources" x.node.name

instance (sub : Submission) (field name : String) : Decidable (sub.Leads field name) :=
  decidable_of_iff
    (∃ o ∈ sub.entry.values field, o.value.subject?.any (Subject.isNamed name) = true) <|
      exists_congr fun o => and_congr_right fun _ => by
        cases o.value <;> simp [Operand.subject?, Subject.isNamed]

/-- The new nodes beside the entry that are its siblings. -/
def newSiblings (sub : Submission) : List Satellite :=
  sub.related.filterMap fun
    | .new x => if sub.Leads "sibling_sources" x.node.name then some x else none
    | .existing _ => none

theorem hasSibling_of_mem_newSiblings {sub : Submission} {x : Satellite}
    (h : x ∈ sub.newSiblings) : sub.HasSibling x := by
  obtain ⟨related, hrelated, heq⟩ := List.mem_filterMap.1 h
  cases related with
  | existing u => cases heq
  | new y =>
    obtain ⟨hleads, hsame⟩ := Option.ite_none_right_eq_some.1 heq
    obtain rfl := Option.some.inj hsame
    exact ⟨hrelated, hleads⟩

/-- The new nodes of a submission have different names, and no field leads to a new sibling but
the one of siblings, so the label of the sibling was resolved for this field. -/
structure SetsApart (sub : Submission) (x : Satellite) : Prop where
  nodup : sub.newNames.Nodup
  alone : ∀ field, sub.Leads field x.node.name → field = "sibling_sources"

end Submission

/-! ### The fields that siblings take over -/

instance (p : Predicate) (types : List String) : Decidable (p.Allows types) :=
  inferInstanceAs (Decidable (_ ∧ _))

namespace Inventory

/-- The fields that siblings take over are stored at the node that has them. -/
theorem isOwn_of_inherited {name : String} (h : name ∈ siblingInherited) : schema.IsOwn name := by
  have hforward : ∀ name ∈ siblingInherited, schema.IsForward name := by
    simp only [Schema.IsForward, Schema.direction?, predicate?_schema]
    decide +kernel
  refine isOwn_of_isForward (hforward name h) ?_
  revert name
  decide

/-- Users alone set the fields that siblings take over. -/
theorem not_mem_setBySystem : ∀ name ∈ siblingInherited, name ∉ setBySystem ∧
    name ∉ Satellite.completedFields ∧ name ∉ historyFields ∧ name ≠ Search.typeKey ∧
      name ≠ "uid" := by
  decide

/-- What the type of an entry with siblings declares. -/
structure DeclaresSiblings (t : TypeDef) (p : Predicate) : Prop where
  isMutual : p.direction? = some .mutual
  /-- New values of the fields that siblings take over replace the old ones. -/
  inherited : ∀ name ∈ siblingInherited, ∃ q, t.predicate? name = some q ∧ q.default = none ∧
    (q.overwrite = true ∨ isList schema name = false)
  /-- The system sets no relationships that users may set. -/
  apart : ∀ q ∈ t.predicates, q.isRelationship = true → q.readOnly = false → q.name ∉ setBySystem
  /-- No stub that another field makes can be a sibling. -/
  stubs : ∀ q ∈ t.predicates, ∀ rel, q.relationship? = some rel → rel.allowNew = true →
    q.direction? = some .mutual ∨ ∀ tag ∈ Mutation.owners q, tag ∉ Mutation.owners p ∧
      ¬ p.Allows ((schema.lineage? tag).getD [])

theorem declaresSiblings {typeName : String} {t : TypeDef} {p : Predicate}
    (ht : schema.type? typeName = some t) (hp : t.predicate? "sibling_sources" = some p) :
    DeclaresSiblings t p := by
  have hall : (schema.types.values.all fun t => (t.predicate? "sibling_sources").all fun p =>
      p.direction? == some .mutual && (siblingInherited.all fun name =>
        (t.predicate? name).any fun q => q.default.isNone &&
          (q.overwrite || !isList schema name)) &&
      (t.predicates.all fun q => !q.isRelationship || q.readOnly || !setBySystem.contains q.name) &&
      t.predicates.all fun q => q.relationship?.all fun rel => !rel.allowNew ||
        q.direction? == some .mutual || (Mutation.owners q).all fun tag =>
          !(Mutation.owners p).contains tag &&
            !decide (p.Allows ((schema.lineage? tag).getD []))) = true := by
    simp only [isList, predicate?_schema, Schema.lineage?, Schema.type?, types_schema]
    decide +kernel
  have ht' := List.all_eq_true.1 hall t (Table.mem_values_iff.2 ⟨_, wellFormed.get?_of_type? ht⟩)
  rw [hp, Option.all_some] at ht'
  simp only [Bool.and_eq_true, List.all_eq_true] at ht'
  obtain ⟨⟨⟨hmutual, hinherited⟩, hapart⟩, hstubs⟩ := ht'
  refine ⟨beq_iff_eq.1 hmutual, fun name hname => ?_, fun q hq hrel hopen => ?_,
    fun q hq rel hrel hnew => ?_⟩
  · obtain ⟨q, hq, hdeclared⟩ := (Option.any_eq_true _ _).1 (hinherited name hname)
    exact ⟨q, hq, by simpa using hdeclared⟩
  · simpa [hrel, hopen] using hapart q hq
  · have hstub := hstubs q hq
    rw [hrel, Option.all_some, hnew] at hstub
    simpa [or_iff_not_imp_left] using hstub

end Inventory

/-! ### What new siblings are made of -/

namespace Composition

section Fields

variable {s : Store} {schema : Schema} {fixed : Option Json} {r : Resolver} {typeName : String}
  {form : Form} {c : Context} {sub : Submission} {name : String}
  (comp : Composition (s.directory schema fixed) r typeName form c sub)
include comp

/-- The resolution of labels keeps the fields that are set. -/
theorem get?_entry_eq_none : comp.entry.fields.get? name = none ↔ comp.fields.get? name = none := by
  refine ⟨fun hnone => ?_, comp.labels_resolve.unset⟩
  cases hget : comp.fields.get? name with
  | none => rfl
  | some objects =>
    obtain ⟨p, hp, -⟩ := comp.reads name objects hget
    cases hrel : p.isRelationship with
    | true =>
      obtain ⟨objects', -, hvalues⟩ := comp.labels_resolve.values hp hrel hget
      rw [hvalues] at hnone
      cases hnone
    | false =>
      have hresolved := resolveFields_fields (fun e he => Table.get?_eq_some_iff.2 he)
        (.refl comp.type comp.fields) comp.resolves
      have hplain := hresolved.plain name fun q hq => by
        rw [← Option.some.inj (hp.symm.trans hq), hrel]
      rw [hplain, hget] at hnone
      cases hnone

/-- A field without a default has values for the entry exactly if the form names it. -/
theorem get?_entry_eq_none_iff {p : Predicate} (hp : comp.type.predicate? p.name = some p)
    (hdefault : p.default = none) (hstatus : p.name ≠ ReviewStatus.predicateName)
    (huid : p.name ≠ "uid") :
    comp.entry.fields.get? p.name = none ↔ form.contains p.name = false := by
  rw [comp.get?_entry_eq_none, Table.contains]
  cases hraw : form.get? p.name with
  | none =>
    refine iff_of_true ?_ rfl
    cases hget : comp.fields.get? p.name with
    | none => rfl
    | some objects =>
      obtain ⟨q, hq, -, raw, hsets, -⟩ := comp.given _ _ hget
      obtain rfl : p = q := Option.some.inj (hp.symm.trans hq)
      cases hsets with
      | said hmem =>
        have hsaid := Table.get?_eq_some_iff.2 (List.mem_filter.1 hmem).1
        rw [hraw] at hsaid
        cases hsaid
      | default _ _ hgiven _ _ =>
        rw [hdefault] at hgiven
        cases hgiven
  | some raw =>
    refine iff_of_false (fun hnone => ?_) (by simp)
    have hskipped : p.name ∉ sub.skipped := by
      unfold Submission.skipped
      split
      · exact fun hmem => huid (List.mem_singleton.1 hmem)
      · exact List.not_mem_nil
    have hsets : form.Sets sub.skipped p raw := .said <| List.mem_filter.2
      ⟨Table.get?_eq_some_iff.1 hraw, by simp [hstatus, hskipped]⟩
    obtain ⟨-, -, objects, -, hget⟩ := comp.formed hp hsets
    rw [hnone] at hget
    cases hget

end Fields

section Siblings

variable {s : Store} {fixed : Option Json} {r : Resolver} {typeName : String} {form : Form}
  {c : Context} {sub : Submission} {x y : Satellite} {name : String}
  (comp : Composition (s.directory Inventory.schema fixed) r typeName form c sub)
  (hr : r = stubResolver ∨ sub.SetsApart x)

include comp in
/-- New nodes are told apart by their names. -/
theorem eq_of_name (hr : r = stubResolver ∨ sub.SetsApart x) (hx : .new x ∈ sub.related)
    (hy : .new y ∈ sub.related) (hname : y.node.name = x.node.name) : y = x := by
  rcases hr with rfl | hapart
  · obtain ⟨key, hkey⟩ := Table.mem_values_iff.1 (comp.related_eq ▸ hx)
    obtain ⟨key', hkey'⟩ := Table.mem_values_iff.1 (comp.related_eq ▸ hy)
    obtain rfl : key' = key := (comp.name_of_get?_nodes hkey').symm.trans
      (hname.trans (comp.name_of_get?_nodes hkey))
    exact Related.new.inj (Option.some.inj (hkey'.symm.trans hkey))
  · exact Submission.eq_of_nodup_newNames hapart.nodup hy hx hname

include comp in
/-- A field that leads to a new node is read from the form. -/
theorem leads_iff {field : String} (hfield : field ∉ overwrittenFields) {label : String} :
    sub.Leads field label ↔
      ∃ o ∈ comp.entry.values field, ∃ b, o.value = .new b ∧ b.name = label := by
  obtain ⟨added, hadded, huser⟩ := comp.exists_added hfield
  unfold Submission.Leads
  rw [hadded]
  refine ⟨fun ⟨o, ho, b, hb⟩ => ⟨o, (List.mem_append.1 ho).resolve_right fun h => ?_, b, hb⟩,
    fun ⟨o, ho, hb⟩ => ⟨o, List.mem_append_left _ ho, hb⟩⟩
  rw [huser o h] at hb
  cases hb.1

/-- The type of an entry with new siblings declares them. -/
theorem exists_declared (hx : sub.HasSibling x) :
    ∃ p, comp.type.predicate? "sibling_sources" = some p ∧
      Inventory.DeclaresSiblings comp.type p := by
  obtain ⟨o, ho, -⟩ := (comp.leads_iff (by decide)).1 hx.leads
  cases hget : comp.fields.get? "sibling_sources" with
  | none =>
    rw [Entity.values, comp.labels_resolve.unset hget] at ho
    cases ho
  | some objects =>
    obtain ⟨p, hp, -⟩ := comp.reads _ _ hget
    exact ⟨p, hp, Inventory.declaresSiblings comp.isType hp⟩

include hr in
/-- A label that a new sibling was made for was met in the field of siblings. -/
theorem isMutual_of_met {p : Predicate}
    (hp : comp.type.predicate? "sibling_sources" = some p) {label : String} {t : Satellite}
    (hlabel : comp.labels.get? label = some (.new t)) (hname : t.node.name = x.node.name)
    (haccepts : Accepts s Inventory.schema r c p (.new t)) {key : String} {q : Predicate}
    {objects : List Object} (hq : comp.type.predicate? key = some q)
    (hrel : q.isRelationship = true) (hget : comp.fields.get? key = some objects)
    (hmet : ResolvedUnder (s.directory Inventory.schema fixed) r c q objects label (.new t)) :
    q.direction? = some .mutual := by
  have hdeclared := Inventory.declaresSiblings comp.isType hp
  obtain ⟨hmem, rfl⟩ := Mutation.mem_of_predicate? hq
  rcases hr with rfl | hapart
  · -- what another field makes a stub of is of no type that is allowed among siblings
    obtain ⟨o, ho, node, hnode, -, before, after, hresolve⟩ := hmet
    obtain ⟨stub, unique, hstub, rfl⟩ := resolveLabel_completed hresolve
    obtain ⟨q', hq', hreads⟩ := comp.reads _ _ hget
    obtain rfl : q = q' := Option.some.inj (hq.symm.trans hq')
    have hnew : .new node ∈ objects.map (·.value) := hnode ▸ List.mem_map_of_mem ho
    obtain ⟨rel, -, -, hrelationship, hallowed, -⟩ := hreads.exists_label hnew
    refine (hdeclared.stubs q hmem rel hrelationship hallowed).resolve_right fun hnone => ?_
    obtain ⟨howner, hlineage⟩ := hnone _ (typeName_stubResolver hstub)
    rcases haccepts with ⟨node', stub', unique', hstub', heq⟩ | hallows
    · have htype := congrArg Satellite.typeName heq
      change stub.typeName = stub'.typeName at htype
      exact howner (htype ▸ typeName_stubResolver hstub')
    · exact hlineage hallows
  · obtain ⟨q', hq', hopen, -⟩ := comp.given _ _ hget
    obtain rfl : q = q' := Option.some.inj (hq.symm.trans hq')
    have hset := hdeclared.apart q hmem hrel hopen
    have hleads : sub.Leads q.name x.node.name :=
      (comp.leads_iff (List.not_mem_of_not_mem_cons hset)).2
        (hname ▸ comp.exists_value_of_met hq hrel hget hlabel hmet)
    rw [hapart.alone _ hleads, hp] at hq
    rw [← Option.some.inj hq]
    exact hdeclared.isMutual

include hr in
/-- A new sibling takes over fields of the entry. -/
theorem exists_inheritSibling (hx : sub.HasSibling x) : ∃ t, x = inheritSibling comp.entry t := by
  obtain ⟨p, hp, hdeclared⟩ := comp.exists_declared hx
  obtain ⟨o, ho, b, hb, hname⟩ := (comp.leads_iff (by decide)).1 hx.leads
  have hrel : p.isRelationship = true :=
    (Option.isSome_map ..).symm.trans (congrArg Option.isSome hdeclared.isMutual)
  rcases comp.value_cases hp hrel ho with ⟨u, hu, -⟩ | ⟨label, t, hlabel, hvalue, haccepts⟩
  · rw [hb] at hu
    cases hu
  obtain rfl := Operand.new.inj (hb.symm.trans hvalue)
  obtain ⟨x', hx', hextends⟩ := comp.get?_nodes hlabel
  have hrelated : .new x' ∈ sub.related := comp.related_eq ▸ Table.mem_values_iff.2 ⟨label, hx'⟩
  obtain rfl : x' = x := comp.eq_of_name hr hx.related hrelated (by rw [hextends.node, hname])
  obtain ⟨key, q, objects, hq, hqrel, hget, hmet⟩ := comp.exists_metUnder hlabel
  have hsibling : label ∈ comp.resolution.siblings := hmet.sibling
    (comp.isMutual_of_met hr hp hlabel hname haccepts hq hqrel hget hmet.resolved) rfl
  rw [nodes, Table.get?_map, show comp.resolution.resolved.get? label = some (.new t) from hlabel,
    Option.map_some, Option.some.injEq] at hx'
  simp only [List.contains_iff_mem.2 hsibling, if_true] at hx'
  exact ⟨t, (Related.new.inj hx').symm⟩

/-- What a new sibling has of a field that is taken over is what the entry has of it, if that has
the field. -/
theorem storedValues_sibling (hname : name ∈ Inventory.siblingInherited)
    (hr : r = stubResolver ∨ sub.SetsApart x) (hx : sub.HasSibling x)
    (hgiven : comp.entry.fields.get? name ≠ none) (uids : NewUids) :
    Entity.storedValues uids ⟨.new x.node, x.fields⟩ name = comp.entry.storedValues uids name := by
  obtain ⟨values, hvalues⟩ := Option.ne_none_iff_exists'.1 hgiven
  obtain ⟨t, rfl⟩ := comp.exists_inheritSibling hr hx
  unfold Entity.storedValues
  rw [get?_inheritSibling_of_some hname hvalues, hvalues]

/-- A stub has of a field that is taken over what the entry has of it, or nothing. -/
theorem get?_stub (comp : Composition (s.directory Inventory.schema fixed) stubResolver typeName
      form c sub) (hname : name ∈ Inventory.siblingInherited) (hy : .new y ∈ sub.related) :
    y.fields.get? name = none ∨ y.fields.get? name = comp.entry.fields.get? name := by
  obtain ⟨label, t, hlabel, hextends⟩ := comp.exists_label hy
  obtain ⟨-, stubType, unique, ht⟩ := comp.exists_stub hlabel
  obtain ⟨-, hcompleted, -⟩ := Inventory.not_mem_setBySystem name hname
  refine (hextends.values name).imp_left fun hsame => ?_
  rw [hsame, ht, get?_completeSatellite hcompleted, stubOf, Table.get?_insert, if_neg]
  · rfl
  · rintro rfl
    exact absurd hname (by decide)

end Siblings

end Composition

/-! ### The values afterwards -/

/-- What a new node has of a field, as it is stored. -/
def Satellite.stored (schema : Schema) (uids : NewUids) (x : Satellite) (name : String) :
    List String :=
  setValues (isList schema name) [] (Entity.storedValues uids ⟨.new x.node, x.fields⟩ name)

namespace Composition

variable {s : Store} {fixed : Option Json} {r : Resolver} {typeName : String} {form : Form}
  {c : Context} {sub : Submission} {x : Satellite} {name v w : String}
  (comp : Composition (s.directory Inventory.schema fixed) r typeName form c sub)
  (hname : name ∈ Inventory.siblingInherited) (hr : r = stubResolver ∨ sub.SetsApart x)
  (hx : sub.HasSibling x) (hwritten : sub.Written Inventory.schema) (hfresh : s.Fresh)

include comp hname in
/-- The system leaves the fields of the entry alone that siblings take over. -/
theorem values_entry : sub.entry.values name = comp.entry.values name := by
  obtain ⟨hset, -⟩ := Inventory.not_mem_setBySystem name hname
  exact comp.kept (List.not_mem_of_not_mem_cons hset) (List.ne_of_not_mem_cons hset)

include comp hname in
theorem storedValues_entry (uids : NewUids) :
    sub.entry.storedValues uids name = comp.entry.storedValues uids name := by
  have hvalues := comp.values_entry hname
  exact congrArg (List.filterMap fun o => o.value.stored? uids) hvalues

include comp hname hr hx hwritten hfresh in
/-- The values at a new sibling are its own ones. -/
theorem valuesAt_sibling
    (hv : (commit Inventory.schema s sub.mutation).2.get? x.node.name = some v) :
    (commit Inventory.schema s sub.mutation).1.valuesAt v name =
      x.stored Inventory.schema (commit Inventory.schema s sub.mutation).2 name := by
  obtain ⟨-, -, -, htypes, -⟩ := Inventory.not_mem_setBySystem name hname
  rw [hwritten.valuesAt_of_said (Inventory.isOwn_of_inherited hname) htypes
    (Submission.mem_said_of_new htypes hx.related hv) fun part hpart => ?_,
    valuesAt_of_made hfresh hv]
  · rfl
  · rcases Submission.mem_said htypes hpart with rfl | ⟨-, rfl⟩ | ⟨y, hy, hyv, rfl⟩
    · exact .inr rfl
    · -- the sibling may share the node of a new entry, and says the same then
      rw [comp.storedValues_entry hname]
      by_cases hgiven : comp.entry.fields.get? name = none
      · exact .inr (by rw [Entity.storedValues, hgiven]; rfl)
      · exact .inl (comp.storedValues_sibling hname hr hx hgiven _).symm
    · have hsame := (commit_allots Inventory.schema s sub.mutation).distinct hyv hv
      rw [comp.eq_of_name hr hx.related hy hsame]
      exact .inl rfl

include comp hname hr hwritten hfresh in
/-- The values of the entry are those that it has in the submission, and those that were stored
before if they are not cleared. -/
theorem valuesAt_entry (hold : ∀ u, sub.entry.subject = .existing u → s.node? u.text ≠ none)
    (hw : sub.entry.subject.stored? (commit Inventory.schema s sub.mutation).2 = some w) :
    (commit Inventory.schema s sub.mutation).1.valuesAt w name =
      setValues (isList Inventory.schema name)
        (if name ∈ sub.cleared then [] else s.valuesAt w name)
        (comp.entry.storedValues (commit Inventory.schema s sub.mutation).2 name) := by
  obtain ⟨-, -, -, htypes, -⟩ := Inventory.not_mem_setBySystem name hname
  have hown := Inventory.isOwn_of_inherited hname
  rw [hwritten.valuesAt_of_said hown htypes (Submission.mem_said_of_entry hw) fun part hpart => ?_,
    comp.storedValues_entry hname]
  · congr 1
    split
    · rename_i hcleared
      obtain ⟨u, -, hexisting, -⟩ := hwritten.deletes
      have hsubject := hexisting (List.ne_nil_of_mem hcleared)
      rw [hsubject] at hw
      refine List.filter_eq_nil_iff.2 fun value hvalue => ?_
      rw [(hwritten.struck_iff hown hvalue).2 ⟨hcleared, u, hsubject, Option.some.inj hw⟩]
      decide
    · rename_i hcleared
      refine List.filter_eq_self.2 fun value hvalue => ?_
      rw [Bool.not_eq_true', Bool.eq_false_iff, Ne, hwritten.struck_iff hown hvalue]
      exact fun h => hcleared h.1
  · rcases Submission.mem_said htypes hpart with rfl | ⟨-, rfl⟩ | ⟨y, hy, hyw, rfl⟩
    · exact .inr rfl
    · exact .inl rfl
    · cases hsubject : sub.entry.subject with
      | existing u =>
        rw [hsubject] at hw
        rw [← Option.some.inj hw] at hyw
        exact absurd hyw (commit_get?_ne _ s sub.mutation hfresh (hold u hsubject) _)
      | new node =>
        rw [hsubject] at hw
        have hsame := (commit_allots Inventory.schema s sub.mutation).distinct hyw hw
        rcases hr with rfl | hapart
        · rw [comp.storedValues_entry hname]
          unfold Entity.storedValues
          rcases comp.get?_stub hname hy with hnone | hentry
          · exact .inr (by rw [hnone]; rfl)
          · exact .inl (by rw [hentry])
        · exact absurd hsame.symm
            (Submission.name_ne_of_nodup_newNames hapart.nodup hsubject hy)
      | var z =>
        rw [hsubject] at hw
        cases hw

include comp hname hwritten in
/-- What a change has of a field and does not clear is one value, which replaces the old one. -/
theorem setValues_of_kept {p : Predicate} (hdeclared : Inventory.DeclaresSiblings comp.type p)
    (hgiven : comp.entry.fields.get? name ≠ none)
    (hkept : name ∉ clearedFields comp.type comp.entry) (old : List String) :
    setValues (isList Inventory.schema name) old
        (comp.entry.storedValues (commit Inventory.schema s sub.mutation).2 name) =
      setValues (isList Inventory.schema name) []
        (comp.entry.storedValues (commit Inventory.schema s sub.mutation).2 name) := by
  obtain ⟨values, hget⟩ := Option.ne_none_iff_exists'.1 hgiven
  rw [mem_clearedFields] at hkept
  obtain ⟨q, hq, -, hreplaced⟩ := hdeclared.inherited name hname
  have hsingle : isList Inventory.schema name = false :=
    hreplaced.resolve_left fun h => hkept ⟨values, hget, .inr ⟨q, hq, h⟩⟩
  have hvalues : sub.entry.operands name ≠ [] := by
    change (sub.entry.values name).map _ ≠ []
    rw [comp.values_entry hname, Entity.values, hget, Ne, List.map_eq_nil_iff]
    exact fun hempty => hkept ⟨values, hget, .inl hempty⟩
  obtain ⟨-, -, hstored⟩ :=
    hwritten.storedValues_ne_nil (s := s) (Inventory.isOwn_of_inherited hname) hvalues
  rw [comp.storedValues_entry hname] at hstored
  obtain ⟨last, hlast⟩ := Option.isSome_iff_exists.1 (List.getLast?_isSome.2 hstored)
  rw [hsingle, setValues_false, setValues_false, hlast]
  rfl

include comp hname hr hwritten hfresh in
/-- The values of the entry are those that it has in the submission, if it has the field there.
Otherwise they stay. -/
theorem valuesAt_source {p : Predicate} (hdeclared : Inventory.DeclaresSiblings comp.type p)
    (hold : ∀ u, sub.entry.subject = .existing u → s.node? u.text ≠ none ∧
      (name ∈ sub.cleared ↔ name ∈ clearedFields comp.type comp.entry))
    (hw : sub.entry.subject.stored? (commit Inventory.schema s sub.mutation).2 = some w) :
    (commit Inventory.schema s sub.mutation).1.valuesAt w name =
      if comp.entry.fields.get? name = none then s.valuesAt w name
      else setValues (isList Inventory.schema name) []
        (comp.entry.storedValues (commit Inventory.schema s sub.mutation).2 name) := by
  rw [comp.valuesAt_entry hname hr hwritten hfresh (fun u hu => (hold u hu).1) hw]
  by_cases hgiven : comp.entry.fields.get? name = none
  · have hkept : name ∉ sub.cleared := fun hcleared => by
      obtain ⟨u, -, hexisting, -⟩ := hwritten.deletes
      have hsubject := hexisting (List.ne_nil_of_mem hcleared)
      exact not_mem_clearedFields hgiven ((hold u hsubject).2.1 hcleared)
    have hnone : comp.entry.storedValues (commit Inventory.schema s sub.mutation).2 name = [] := by
      rw [Entity.storedValues, hgiven]
      rfl
    rw [if_neg hkept, if_pos hgiven, hnone, setValues_nil]
  · rw [if_neg hgiven]
    split
    · rfl
    rename_i hkept
    cases hsubject : sub.entry.subject with
    | existing u =>
      rw [(hold u hsubject).2] at hkept
      exact comp.setValues_of_kept hname hwritten hdeclared hgiven hkept _
    | new node =>
      rw [hsubject] at hw
      rw [valuesAt_of_made hfresh hw]
    | var z =>
      rw [hsubject] at hw
      cases hw

end Composition

/-- Every submission was composed. A change is one of a stored node, and of the fields that the
system does not set it clears those of its form that are empty, or overwritten. -/
theorem exists_composition_cleared {types : List EntityType} {s : Store} {schema : Schema}
    (hbuild : Schema.build types = .ok schema) {fixed : Option Json} {r : Resolver}
    {typeName : String} {form : Form} {c : Context} {before after : Desk} {sub : Submission}
    (hsub : (newEntry (s.directory schema fixed) r typeName form c).Yields before sub after ∨
      (editEntry (s.directory schema fixed) r typeName form c).Yields before sub after)
    {name : String} (hname : name ∉ historyFields) :
    ∃ comp : Composition (s.directory schema fixed) r typeName form c sub,
      ∀ u, sub.entry.subject = .existing u → s.node? u.text ≠ none ∧
        (name ∈ sub.cleared ↔ name ∈ clearedFields comp.type comp.entry) := by
  rcases hsub with hnew | hedit
  · obtain ⟨comp⟩ := exists_composition (d := s.directory schema fixed) hbuild (.inl hnew)
    obtain ⟨⟨node, hnode⟩, -, -⟩ := newEntry_entry (d := s.directory schema fixed)
      (Schema.wellFormed_of_build hbuild) hnew
    refine ⟨comp, fun u hu => ?_⟩
    rw [hnode] at hu
    cases hu
  · obtain ⟨run⟩ := editEntry_yields.1 hedit
    obtain ⟨comp, htype, hentry⟩ := run.composition hbuild
    refine ⟨comp, fun u hu => ?_⟩
    obtain rfl : run.uid = u := Subject.existing.inj (run.subject_eq.symm.trans hu)
    rw [htype, hentry]
    exact ⟨run.exists_node, run.mem_cleared_iff hname⟩

namespace Inventory

/-- A new sibling has the values of its entry in a field that is taken over if the form names the
field, and else exactly if those that the entry has had are its own. Those are none for a stub. -/
theorem siblings_inherit_iff {s : Store} (hfresh : s.Fresh) {fixed : Option Json} {r : Resolver}
    {typeName : String} {form : Form} {c : Context} {before after : Desk} {sub : Submission}
    (hsub : (newEntry (s.directory schema fixed) r typeName form c).Yields before sub after ∨
      (editEntry (s.directory schema fixed) r typeName form c).Yields before sub after)
    {x : Satellite} (hx : sub.HasSibling x) (hr : r = stubResolver ∨ sub.SetsApart x)
    {name : String} (hname : name ∈ siblingInherited) :
    ∃ v w, (commit schema s sub.mutation).2.get? x.node.name = some v ∧
      sub.entry.subject.stored? (commit schema s sub.mutation).2 = some w ∧
      ((commit schema s sub.mutation).1.valuesAt v name =
          (commit schema s sub.mutation).1.valuesAt w name ↔
        form.contains name = true ∨
          s.valuesAt w name = x.stored schema (commit schema s sub.mutation).2 name) ∧
      (r = stubResolver → form.contains name = false →
        x.stored schema (commit schema s sub.mutation).2 name = []) ∧
      ∀ node, sub.entry.subject = .new node → s.valuesAt w name = [] := by
  obtain ⟨-, -, hhistory, -, huid⟩ := not_mem_setBySystem name hname
  obtain ⟨comp, hold⟩ := exists_composition_cleared build_entityTypes hsub hhistory
  obtain ⟨p, -, hdeclared⟩ := comp.exists_declared hx
  obtain ⟨q, hq, hdefault, -⟩ := hdeclared.inherited name hname
  obtain ⟨-, rfl⟩ := Mutation.mem_of_predicate? hq
  have hgiven := comp.get?_entry_eq_none_iff hq hdefault
    (fun heq => absurd (heq ▸ hname) (by decide)) huid
  have hwritten : sub.Written schema := hsub.elim (newEntry_written wellFormed) editEntry_written
  have hreviewed : sub.Reviewed schema s c := hsub.elim (newEntry_reviewed wellFormed)
    (editEntry_reviewed wellFormed Workspace.keepsStatus_inventory)
  have hstatus := isOwn_system ReviewStatus.predicateName (by decide)
  obtain ⟨v, hv, -⟩ := hreviewed.exists_stored (s := s) hstatus
    (Submission.mem_newNames.2 (.inr ⟨x, hx.related, rfl⟩))
  obtain ⟨w, hw⟩ := hreviewed.exists_subject (s := s) hstatus
  refine ⟨v, w, hv, hw, ?_, ?_, fun node hnode => ?_⟩
  · rw [comp.valuesAt_sibling hname hr hx hwritten hfresh hv,
      comp.valuesAt_source hname hr hwritten hfresh hdeclared hold hw]
    split
    · rename_i hnone
      rw [hgiven.1 hnone, eq_comm]
      simp
    · rename_i hsome
      refine iff_of_true ?_ (.inl ?_)
      · rw [Satellite.stored, comp.storedValues_sibling hname hr hx hsome]
      · exact eq_true_of_ne_false fun hnot => hsome (hgiven.2 hnot)
  · rintro rfl hnot
    have hnone := hgiven.2 hnot
    have hstub := comp.get?_stub hname hx.related
    rw [hnone, or_self] at hstub
    rw [Satellite.stored, Entity.storedValues, hstub]
    rfl
  · rw [hnode] at hw
    exact valuesAt_of_made hfresh hw q.name

/-- A store with a channel and a source, which has a language. -/
def germanSource : Store :=
  ((Store.empty.addNode ["Channel", "Entry"] []).2.addNode ["Source", "Entry"]
    [("languages", "de")]).2

/-- The form of a change that gives the source a new sibling, and nothing else. -/
def stubForm : Form :=
  (Table.empty.insert "uid" (.string "0x101")).insert "sibling_sources" (.array [.string "Stub"])

theorem fresh_germanSource : germanSource.Fresh :=
  (fresh_empty.addNode _ _).addNode _ _

theorem exists_stub : ∃ sub after x,
    (editEntry (germanSource.directory schema none) stubResolver "Source" stubForm
      reviewer).Yields Desk.clean sub after ∧ sub.HasSibling x ∧
    (commit schema germanSource sub.mutation).2.get? x.node.name = some "0x102" ∧
    sub.entry.subject.stored? (commit schema germanSource sub.mutation).2 = some "0x101" ∧
    (commit schema germanSource sub.mutation).1.valuesAt "0x101" "languages" = ["de"] ∧
    (commit schema germanSource sub.mutation).1.valuesAt "0x102" "languages" = [] := by
  have h : (((editEntry (germanSource.directory schema none) stubResolver "Source" stubForm
      reviewer).outcome Desk.clean).1.toOption.any fun sub =>
        let after := commit schema germanSource sub.mutation
        (sub.newSiblings.any fun x => after.2.get? x.node.name == some "0x102") &&
          (sub.entry.subject.stored? after.2 == some "0x101" &&
            (after.1.valuesAt "0x101" "languages" == ["de"] &&
              after.1.valuesAt "0x102" "languages" == []))) = true := by
    rewrite [schema_eq, Store.directory_eq]
    decide +kernel
  obtain ⟨sub, after, hsub, h⟩ := exists_yields h
  simp only [Bool.and_eq_true, beq_iff_eq, List.any_eq_true] at h
  obtain ⟨⟨x, hx, hv⟩, hw, hvalues⟩ := h
  exact ⟨sub, after, x, hsub, Submission.hasSibling_of_mem_newSiblings hx, hv, hw, hvalues⟩

/-- The new sibling of the source has its languages if and only if the source had none. -/
theorem siblings_inherit_iff_stub : germanSource.Fresh ∧ "languages" ∈ siblingInherited ∧
    stubForm.contains "languages" = false ∧
    ∃ sub after x, (editEntry (germanSource.directory schema none) stubResolver "Source" stubForm
      reviewer).Yields Desk.clean sub after ∧ sub.HasSibling x ∧
    x.stored schema (commit schema germanSource sub.mutation).2 "languages" = [] ∧
    ∃ v w, (commit schema germanSource sub.mutation).2.get? x.node.name = some v ∧
      sub.entry.subject.stored? (commit schema germanSource sub.mutation).2 = some w ∧
      ((commit schema germanSource sub.mutation).1.valuesAt v "languages" =
          (commit schema germanSource sub.mutation).1.valuesAt w "languages" ↔
        stubForm.contains "languages" = true ∨ germanSource.valuesAt w "languages" =
          x.stored schema (commit schema germanSource sub.mutation).2 "languages") := by
  have hname : "languages" ∈ siblingInherited := by decide
  have hnot : stubForm.contains "languages" = false := by decide
  obtain ⟨sub, after, x, hsub, hx, -⟩ := exists_stub
  obtain ⟨v, w, hv, hw, hiff, hstub, -⟩ :=
    siblings_inherit_iff fresh_germanSource (.inr hsub) hx (.inl rfl) hname
  exact ⟨fresh_germanSource, hname, hnot, sub, after, x, hsub, hx, hstub rfl hnot, v, w, hv, hw,
    hiff⟩

/-- The new sibling of the source does not have its language. -/
theorem sibling_without_languages :
    ¬ ∀ s : Store, s.Fresh → ∀ fixed typeName form c before after sub,
      ((newEntry (s.directory schema fixed) stubResolver typeName form c).Yields before sub after ∨
        (editEntry (s.directory schema fixed) stubResolver typeName form c).Yields before sub
          after) →
      ∀ x, sub.HasSibling x → ∀ name ∈ siblingInherited, ∀ v w,
        (commit schema s sub.mutation).2.get? x.node.name = some v →
        sub.entry.subject.stored? (commit schema s sub.mutation).2 = some w →
          (commit schema s sub.mutation).1.valuesAt v name =
            (commit schema s sub.mutation).1.valuesAt w name := by
  intro hall
  obtain ⟨sub, after, x, hsub, hx, hv, hw, hsource, hsibling⟩ := exists_stub
  have hsame := hall germanSource fresh_germanSource none _ _ _ _ _ sub (.inr hsub) x hx
    "languages" (by decide) _ _ hv hw
  rw [hsource, hsibling] at hsame
  cases hsame

end Inventory

end PressRegister
