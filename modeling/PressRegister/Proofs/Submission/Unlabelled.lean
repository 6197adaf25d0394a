import PressRegister.Proofs.Submission.Changes

/-!
# Changes without labels

A form whose relationships are given identifiers and no labels asks for no new nodes. What is read
from it and resolved draws on no supply, so it is the same whenever the form is read: of the store
nothing enters a change by such a form but the status that the entry has.

## Main definitions

* `Form.IsUnlabelled`: the relationships of a form are given identifiers of stored nodes.
* `Fields.IsSettled`: no value of the fields is a new node.
* `distinctFields`: what becomes of such fields when their labels are resolved.

## Main results

* `Form.read_settled`, `Form.read_unique`: an unlabelled form gives the same settled fields each
  time.
* `resolveRelated_of_isSettled`: settled fields make no new nodes.
* `EditRun.resolved_eq`, `EditRun.status_eq`: two changes by one unlabelled form.
-/

namespace PressRegister

open Consult

/-! ### Raw input -/

namespace Predicate

/-- Raw input for a relationship is made of identifiers. -/
def IsUnlabelled (p : Predicate) (raw : Json) : Prop :=
  ∀ rel ∈ p.relationship?, ∀ token ∈ tokens (rel.cardinality == .list) raw, Uid.parse? token ≠ none

instance (p : Predicate) (raw : Json) : Decidable (p.IsUnlabelled raw) :=
  inferInstanceAs (Decidable (∀ rel ∈ p.relationship?, _))

theorem relationship?_of_kind {p : Predicate} {rel : Relationship}
    (h : p.kind = .relationship rel) : p.relationship? = some rel := by
  unfold relationship?
  rw [h]

/-- Identifiers stand for stored nodes, whatever the supply. -/
theorem nodesOf_of_uids {items : List String} (h : ∀ token ∈ items, Uid.parse? token ≠ none)
    (supply : Supply) :
    nodesOf items supply = ((items.filterMap Uid.parse?).map .existing, supply) := by
  induction items with
  | nil => rfl
  | cons token rest ih =>
    obtain ⟨htoken, hrest⟩ := List.forall_mem_cons.1 h
    obtain ⟨u, hu⟩ := Option.ne_none_iff_exists'.1 htoken
    simp only [nodesOf, hu, ih hrest, List.filterMap_cons, List.map_cons]

/-- Input without labels is read without a draw, and stands for no new nodes. -/
theorem validate_of_isUnlabelled {p : Predicate} {raw : Json} {supply supply' : Supply}
    {values : List Operand} (hraw : p.IsUnlabelled raw)
    (h : p.validate raw supply = .ok (values, supply')) :
    (∀ v ∈ values, ∀ b, v ≠ .new b) ∧
      ∀ other, p.validate raw other = .ok (values, other) := by
  rcases validate_cases h with ⟨rel, items, hkind, hitems, hnodes⟩ | ⟨hrel, hliteral, -⟩
  · have huids : ∀ token ∈ items, Uid.parse? token ≠ none := by
      intro token htoken
      rw [(relationshipTokens_eq_ok.1 hitems).1, mem_withoutRepeats] at htoken
      exact hraw rel (relationship?_of_kind hkind) token htoken
    rw [nodesOf_of_uids huids] at hnodes
    obtain ⟨rfl, -⟩ := Prod.mk.inj hnodes
    refine ⟨fun v hv b hb => ?_, fun other => ?_⟩
    · obtain ⟨u, -, rfl⟩ := List.mem_map.1 hv
      cases hb
    · simp only [validate, hkind, hitems, Except.map, nodesOf_of_uids huids]
  · refine ⟨fun v hv b hb => ?_, fun other => ?_⟩
    · have hadmits := validateLiteral_admits hliteral hv
      rw [hb] at hadmits
      unfold relationship? at hrel
      cases hkind : p.kind <;> simp_all [Kind.admits]
    · unfold validate
      split
      · rename_i rel hkind
        rw [relationship?_of_kind hkind] at hrel
        cases hrel
      · rw [hliteral]
        rfl

end Predicate

/-! ### Forms -/

/-- No value of the fields is a new node. -/
def Fields.IsSettled (fields : Fields) : Prop :=
  ∀ name objects, fields.get? name = some objects → ∀ o ∈ objects, ∀ b, o.value ≠ .new b

theorem Fields.IsSettled.insert {fields : Fields} (h : fields.IsSettled) {name : String}
    {objects : List Object} (hobjects : ∀ o ∈ objects, ∀ b, o.value ≠ .new b) :
    Fields.IsSettled (fields.insert name objects) := by
  intro key values hget
  rw [Table.get?_insert] at hget
  split at hget
  · cases hget
    exact hobjects
  · exact h key values hget

namespace Form

/-- The relationships of a form, as a type declares them, are given identifiers. -/
def IsUnlabelled (form : Form) (t : TypeDef) : Prop :=
  ∀ e ∈ form.entries, ∀ p ∈ t.predicate? e.1, p.IsUnlabelled e.2

instance (form : Form) (t : TypeDef) : Decidable (form.IsUnlabelled t) :=
  inferInstanceAs (Decidable (∀ e ∈ form.entries, ∀ p ∈ t.predicate? e.1, _))

section

variable {t : TypeDef} {form : Form} {skip : List String} {writable writable' : Predicate → Bool}
  {fields fields' result result' : Fields} {before before' after after' : Desk}
  (hform : form.IsUnlabelled t)
include hform

/-- An unlabelled form gives no new nodes. -/
theorem read_settled (h : (form.read t skip writable).Yields before fields after) :
    fields.IsSettled := by
  have hheld : FieldsHold (fun _ values => ∀ v ∈ values, ∀ b, v ≠ .new b) t fields := by
    refine read_hold (fun key raw p values hmem hp _ ⟨supply, supply', hvalidate⟩ => ?_) h
    exact (Predicate.validate_of_isUnlabelled (hform _ (List.mem_filter.1 hmem).1 p hp)
      hvalidate).1
  intro name objects hget o ho
  obtain ⟨p, -, hvalues⟩ := hheld name objects hget
  exact hvalues _ (List.mem_map_of_mem ho)

theorem readField_unique {key : String} {raw : Json} (hmem : (key, raw) ∈ form.entries)
    {values values' : List Object}
    (h : (readField t writable key raw).Yields before values after)
    (h' : (readField t writable' key raw).Yields before' values' after') : values = values' := by
  obtain ⟨p, supply, supply₁, operands, hp, -, hvalidate, rfl⟩ := readField_yields h
  obtain ⟨p', supply', supply₁', operands', hp', -, hvalidate', rfl⟩ := readField_yields h'
  obtain rfl : p = p' := Option.some.inj (hp.symm.trans hp')
  obtain ⟨-, hany⟩ := Predicate.validate_of_isUnlabelled (hform _ hmem p hp) hvalidate
  rw [(Prod.mk.inj (Except.ok.inj ((hany supply').symm.trans hvalidate'))).1]

theorem readFields_unique {keys : List (String × Json)} (hkeys : ∀ e ∈ keys, e ∈ form.entries)
    (h : (readFields t writable keys fields).Yields before result after)
    (h' : (readFields t writable' keys fields).Yields before' result' after') :
    result = result' := by
  induction keys generalizing fields before before' with
  | nil =>
    obtain ⟨rfl, -⟩ := yields_pure.1 h
    obtain ⟨rfl, -⟩ := yields_pure.1 h'
    rfl
  | cons e rest ih =>
    obtain ⟨hmem, hrest⟩ := List.forall_mem_cons.1 hkeys
    obtain ⟨values, mid, hvalues, h⟩ := yields_bind.1 h
    obtain ⟨values', mid', hvalues', h'⟩ := yields_bind.1 h'
    rw [readField_unique hform hmem hvalues hvalues'] at h
    exact ih hrest h h'

end

variable {t : TypeDef} {form : Form} {skip : List String} {writable writable' : Predicate → Bool}
  {fields fields' result result' : Fields} {before before' after after' : Desk}

/-- Whether a user may set a field decides whether facets are set, not what they are set to. -/
theorem applyFacet_unique {key parent facet : String} {raw : Json}
    (h : applyFacet t writable fields key parent facet raw = .ok result)
    (h' : applyFacet t writable' fields key parent facet raw = .ok result') : result = result' := by
  unfold applyFacet at h h'
  cases hp : t.predicate? parent with
  | none => simp [hp] at h
  | some p =>
    cases hfacet : p.facet? facet with
    | none => simp [hp, hfacet] at h
    | some declared =>
      simp only [hp, hfacet] at h h'
      split at h
      · cases h
      split at h'
      · cases h'
      exact Except.ok.inj (h.symm.trans h')

theorem applyFacets_unique {keys : List (String × Json)}
    (h : applyFacets t writable keys fields = .ok result)
    (h' : applyFacets t writable' keys fields = .ok result') : result = result' := by
  induction keys generalizing fields with
  | nil => exact Except.ok.inj (h.symm.trans h')
  | cons e rest ih =>
    obtain ⟨key, raw⟩ := e
    cases hkey : Facet.splitKey? key with
    | none =>
      simp only [applyFacets, hkey] at h h'
      exact ih h h'
    | some names =>
      simp only [applyFacets, hkey, bind_eq_ok] at h h'
      obtain ⟨mid, hmid, h⟩ := h
      obtain ⟨mid', hmid', h'⟩ := h'
      rw [applyFacet_unique hmid hmid'] at h
      exact ih h h'

/-- An unlabelled form gives the same fields each time it is read. -/
theorem read_unique (hform : form.IsUnlabelled t)
    (h : (form.read t skip writable).Yields before result after)
    (h' : (form.read t skip writable').Yields before' result' after') : result = result' := by
  simp only [read, yields_bind, yields_settle] at h h'
  obtain ⟨fields, mid, hread, hfacets, -⟩ := h
  obtain ⟨fields', mid', hread', hfacets', -⟩ := h'
  have hkeys : ∀ e ∈ (settingKeys form skip).filter fun e => (Facet.splitKey? e.1).isNone,
      e ∈ form.entries := fun e he => (List.mem_filter.1 (List.mem_filter.1 he).1).1
  rw [readFields_unique hform hkeys hread hread'] at hfacets
  exact applyFacets_unique hfacets hfacets'

/-- An unlabelled form asks for the same status each time. -/
theorem requestedStatus_unique (hform : form.IsUnlabelled t) {status status' : Option ReviewStatus}
    (h : (form.requestedStatus t).Yields before status after)
    (h' : (form.requestedStatus t).Yields before' status' after') : status = status' := by
  unfold requestedStatus at h h'
  cases hraw : form.get? ReviewStatus.predicateName with
  | none =>
    simp only [hraw, yields_pure] at h h'
    rw [h.1, h'.1]
  | some raw =>
    cases hp : t.predicate? ReviewStatus.predicateName with
    | none =>
      simp only [hraw, hp] at h
      exact (not_yields_fail h).elim
    | some p =>
      simp only [hraw, hp, yields_bind, yields_tryDraw] at h h'
      obtain ⟨values, mid, ⟨supply, hvalidate, -⟩, h⟩ := h
      obtain ⟨values', mid', ⟨supply', hvalidate', -⟩, h'⟩ := h'
      obtain ⟨-, hany⟩ := Predicate.validate_of_isUnlabelled
        (hform _ (Table.get?_eq_some_iff.1 hraw) p hp) hvalidate
      obtain ⟨rfl, -⟩ := Prod.mk.inj (Except.ok.inj ((hany _).symm.trans hvalidate'))
      cases hname : values.head?.bind Operand.text? with
      | none =>
        simp only [hname, yields_pure] at h h'
        rw [h.1, h'.1]
      | some name =>
        simp only [hname, yields_bind, yields_settle, yields_pure] at h h'
        obtain ⟨read, _, ⟨hread, -⟩, rfl, -⟩ := h
        obtain ⟨read', _, ⟨hread', -⟩, rfl, -⟩ := h'
        rw [Except.ok.inj (hread.symm.trans hread')]

end Form

/-! ### Resolution -/

/-- What becomes of fields without new nodes: the values of relationships are kept once each. -/
def distinctFields (t : TypeDef) : List (String × List Object) → Fields → Fields
  | [], fields => fields
  | (name, objects) :: rest, fields =>
    match (t.predicate? name).filter (·.isRelationship) with
    | none => distinctFields t rest fields
    | some _ => distinctFields t rest (fields.insert name (distinctObjects objects))

theorem isSettled_distinctFields {t : TypeDef} {entries : List (String × List Object)}
    {fields : Fields} (hentries : ∀ e ∈ entries, ∀ o ∈ e.2, ∀ b, o.value ≠ .new b)
    (hfields : fields.IsSettled) : (distinctFields t entries fields).IsSettled := by
  induction entries generalizing fields with
  | nil => exact hfields
  | cons e rest ih =>
    obtain ⟨hobjects, hrest⟩ := List.forall_mem_cons.1 hentries
    unfold distinctFields
    split
    · exact ih hrest hfields
    · exact ih hrest (hfields.insert fun o ho => hobjects o (mem_distinctObjects ho))

section Resolve

variable {d : Directory} {r : Resolver} {c : Context} {t : TypeDef} {p : Predicate}
  {st st' : Resolution} {before after : Desk}

theorem resolveObjects_of_isSettled {objects objects' : List Object}
    (hobjects : ∀ o ∈ objects, ∀ b, o.value ≠ .new b)
    (h : (resolveObjects d r c p st objects).Yields before (objects', st') after) :
    objects' = objects ∧ st' = st := by
  induction objects generalizing st objects' before with
  | nil => exact Prod.mk.inj (yields_pure.1 h).1
  | cons o rest ih =>
    obtain ⟨hfirst, hrest⟩ := List.forall_mem_cons.1 hobjects
    simp only [resolveObjects, yields_bind, yields_pure, Prod.exists, Prod.mk.injEq] at h
    obtain ⟨o', st₁, mid, ho, rest', st₂, _, hresolve, ⟨rfl, rfl⟩, rfl⟩ := h
    rcases resolveObject_cases ho with ⟨rfl, rfl⟩ | ⟨node, -, hnode, -⟩
    · obtain ⟨rfl, rfl⟩ := ih hrest hresolve
      exact ⟨rfl, rfl⟩
    · exact absurd hnode (hfirst node)

theorem resolveFields_of_isSettled {entries : List (String × List Object)}
    {fields fields' : Fields} (hentries : ∀ e ∈ entries, ∀ o ∈ e.2, ∀ b, o.value ≠ .new b)
    (h : (resolveFields d r c t st entries fields).Yields before (fields', st') after) :
    fields' = distinctFields t entries fields ∧ st' = st := by
  induction entries generalizing fields before with
  | nil => exact Prod.mk.inj (yields_pure.1 h).1
  | cons e rest ih =>
    obtain ⟨hobjects, hrest⟩ := List.forall_mem_cons.1 hentries
    unfold resolveFields at h
    unfold distinctFields
    cases hp : (t.predicate? e.1).filter (·.isRelationship) with
    | none =>
      simp only [hp] at h ⊢
      exact ih hrest h
    | some p =>
      simp only [hp] at h ⊢
      obtain ⟨⟨objects', st₁⟩, mid, hresolve, hthen⟩ := yields_bind.1 h
      obtain ⟨rfl, rfl⟩ := resolveObjects_of_isSettled hobjects hresolve
      exact ih hrest hthen

/-- An entry without new nodes keeps its values, and gets no nodes beside it. -/
theorem resolveRelated_of_isSettled {entry resolved : Entity} {related : List Related}
    (hentry : entry.fields.IsSettled)
    (h : (resolveRelated d r c t entry).Yields before (resolved, related) after) :
    resolved = { entry with fields := distinctFields t entry.fields.entries entry.fields } ∧
      resolved.fields.IsSettled ∧ related = [] := by
  have hentries : ∀ e ∈ entry.fields.entries, ∀ o ∈ e.2, ∀ b, o.value ≠ .new b :=
    fun e he => hentry e.1 e.2 (Table.get?_eq_some_iff.2 he)
  obtain ⟨fields, st, hfields, rfl, rfl⟩ := resolveRelated_yields.1 h
  obtain ⟨rfl, rfl⟩ := resolveFields_of_isSettled hentries hfields
  exact ⟨rfl, isSettled_distinctFields hentries hentry, rfl⟩

end Resolve

/-! ### Changes -/

namespace EditRun

variable {d d' : Directory} {r r' : Resolver} {typeName : String} {form : Form} {c : Context}
  {before before' after after' : Desk} {sub sub' : Submission}
  (run : EditRun d r typeName form c before after sub)
  (run' : EditRun d' r' typeName form c before' after' sub')

/-- An unlabelled form makes no nodes beside the entry, and gives it no new ones. -/
theorem settled (hform : form.IsUnlabelled run.type) :
    run.resolved.fields.IsSettled ∧ sub.related = [] := by
  obtain ⟨-, hsettled, hrelated⟩ :=
    resolveRelated_of_isSettled (Form.read_settled hform run.reads) run.resolves
  exact ⟨hsettled, run.related_eq.trans hrelated⟩

include run run'

theorem uid_eq : run'.uid = run.uid :=
  Except.ok.inj (run'.hasUid.symm.trans run.hasUid)

theorem type_eq (hd : d'.schema = d.schema) : run'.type = run.type := by
  have htype := run'.isType
  unfold entryType at htype
  rw [hd] at htype
  exact Except.ok.inj (htype.symm.trans run.isType)

/-- By one unlabelled form an entry is given the same values each time. -/
theorem resolved_eq (hd : d'.schema = d.schema) (hform : form.IsUnlabelled run.type) :
    run'.resolved = run.resolved := by
  have htype := type_eq run run' hd
  have hreads := run'.reads
  rw [htype] at hreads
  have hfields : run'.fields = run.fields := Form.read_unique hform hreads run.reads
  have hresolves := run'.resolves
  rw [htype, uid_eq run run', hfields] at hresolves
  have hsettled := Form.read_settled hform run.reads
  obtain ⟨hresolved', -⟩ := resolveRelated_of_isSettled hsettled hresolves
  obtain ⟨hresolved, -⟩ := resolveRelated_of_isSettled hsettled run.resolves
  rw [hresolved', hresolved]

/-- If an entry has the status that a change by an unlabelled form has led to, the same form
leaves it there. -/
theorem status_eq (hd : d'.schema = d.schema) (hform : form.IsUnlabelled run.type)
    (hcurrent : run'.info.status.getD .pending = run.status) : run'.status = run.status := by
  have hstatus := run.hasStatus
  have hstatus' := run'.hasStatus
  rw [type_eq run run' hd, hcurrent] at hstatus'
  unfold editStatus at hstatus hstatus'
  cases haccept : c.accept with
  | true =>
    simp only [haccept, if_true, yields_bind, yields_pure, yields_settle,
      ReviewStatus.transition_eq_ok] at hstatus hstatus'
    obtain ⟨target, mid, ⟨rfl, -⟩, ⟨hreached, -⟩, -⟩ := hstatus
    obtain ⟨target', mid', ⟨rfl, -⟩, ⟨hreached', -⟩, -⟩ := hstatus'
    rw [hreached, hreached']
  | false =>
    simp only [haccept, Bool.false_eq_true, if_false, yields_bind, yields_map, yields_settle,
      ReviewStatus.transition_eq_ok] at hstatus hstatus'
    obtain ⟨target, mid, ⟨requested, hrequested, rfl⟩, ⟨hreached, -⟩, -⟩ := hstatus
    obtain ⟨target', mid', ⟨requested', hrequested', rfl⟩, ⟨hreached', -⟩, -⟩ := hstatus'
    rw [hreached', hreached, Form.requestedStatus_unique hform hrequested' hrequested]
    cases requested <;> rfl

end EditRun

end PressRegister
