import PressRegister.Proofs.Submission.Composition
import PressRegister.Proofs.Submission.Review

/-!
# The blank nodes of submissions

A mutation names new nodes before they have identifiers. Each name is the one of the entry
or of one new node beside it, which is created in full: with one unique name, as a draft,
by the user who submits, and with the types of its lineage. What a label stands for does
not depend on where in the form it is said.

A schema can declare fields that stand in the way of this. A relationship that is stored
at its values under the name of one of these fields adds to what is said of new nodes, and
a label that a user may put into a field which the system replaces creates a node that
nothing refers to.

## Main definitions

* `saidOf`: what statements say of a new node.
* `Submission.Grounded`: the blank nodes of a submission are accounted for.

## Main results

* `Entity.saidOf_statements`: what an entity says of itself.
* `Composition.saidOf_set`: what a mutation says of a new node beside the entry.
* `blank_nodes_grounded`: the blank nodes of every submission are accounted for.
* `feed_ungrounded`: a schema of which this is not true without restrictions.
-/

namespace PressRegister

open Consult Predicate

/-! ### Tokens -/

namespace Predicate

/-- What a token of a relationship is read as: a stored node, or a new one that is named after the
label, which has the slug of the token. -/
def ReadsToken (token : String) (v : Operand) : Prop :=
  match Uid.parse? token with
  | some u => v = .existing u
  | none => ∃ b, v = .new b ∧ b.IsLabelled ∧
    Text.slug (Text.trim (b.label.getD b.name)) = Text.slug token

theorem StandsFor.readsToken {token : String} {v : Operand} (h : StandsFor token v)
    (htoken : IsToken token) : ReadsToken token v := by
  unfold ReadsToken
  cases h with
  | stored hu => rw [hu]
  | label supply hnone =>
    rw [hnone]
    refine ⟨_, rfl, BlankNode.isLabelled_ofLabel token supply, ?_⟩
    rw [BlankNode.slug_ofLabel, htoken.1]

/-- A relationship is read token by token. -/
theorem validate_readsToken {p : Predicate} {rel : Relationship} {raw : Json}
    {supply supply' : Supply} {values : List Operand} (hrel : p.relationship? = some rel)
    (h : p.validate raw supply = .ok (values, supply')) :
    ∃ items, p.relationshipTokens rel raw = .ok items ∧ List.Forall₂ ReadsToken items values := by
  obtain ⟨rel', items, hkind, hitems, heq⟩ | ⟨hnone, -⟩ := validate_cases h
  · obtain rfl : rel' = rel := by simpa [relationship?, hkind] using hrel
    refine ⟨items, hitems, ?_⟩
    have hstands := nodesOf_standsFor items supply
    rw [heq] at hstands
    refine List.forall₂_iff_zip.2 ⟨hstands.length_eq, fun {token v} hmem => ?_⟩
    exact (List.forall₂_zip hstands hmem).readsToken
      (isToken_of_mem_relationshipTokens hitems (List.of_mem_zip hmem).1)
  · rw [hrel] at hnone
    cases hnone

end Predicate

/-! ### What is said of new nodes -/

/-- A subject is the new node with a name. -/
def Subject.isNamed (name : String) : Subject → Bool
  | .new b => b.name = name
  | _ => false

/-- What statements say of a new node under a predicate. -/
def saidOf (b : BlankNode) (predicate : String) (qs : List Statement) : List Object :=
  qs.filterMap fun q =>
    if q.predicate = predicate ∧ q.subject.isNamed b.name = true then some q.object else none

/-- A blank node is the subject or the object of a statement. -/
def Statement.Names (q : Statement) (b : BlankNode) : Prop :=
  q.subject = .new b ∨ q.object.value = .new b

theorem saidOf_append (b : BlankNode) (predicate : String) (qs rs : List Statement) :
    saidOf b predicate (qs ++ rs) = saidOf b predicate qs ++ saidOf b predicate rs :=
  List.filterMap_append

namespace Entity

variable {schema : Schema} {e : Entity} {name : String}

/-- Under a name that one field has to itself an entity states the values of the field. -/
theorem filter_statements (h : schema.IsOwn name) :
    (e.statements schema).filter (fun q => q.predicate = name) =
      (e.values name).map fun o => ⟨e.subject, name, o⟩ := by
  have hentries : (e.statements schema).filter (fun q => q.predicate = name) =
      e.fields.entries.flatMap fun f => f.2.flatMap fun o =>
        (valueStatements e.subject f.1 (schema.direction? f.1) o).filter
          fun q => q.predicate = name := by
    unfold statements
    simp only [List.filter_flatMap]
    rfl
  rw [hentries, Table.flatMap_entries_eq _ name]
  · unfold values
    cases e.fields.get? name with
    | none => rfl
    | some objects =>
      rw [Option.map_some, Option.getD_some, Option.getD_some, List.map_eq_flatMap]
      refine List.flatMap_congr fun o _ => ?_
      rcases h.1 with hdirection | hdirection <;> rw [hdirection] <;> simp [valueStatements]
  · rintro ⟨key, objects⟩ - hne
    simp only [List.flatMap_eq_nil_iff, List.filter_eq_nil_iff, decide_eq_true_eq]
    rintro o - q hq hpredicate
    exact h.2 key hne ((predicate_of_mem_valueStatements hq).symm.trans hpredicate)

/-- What an entity says of itself and of no other node. -/
theorem saidOf_statements (h : schema.IsOwn name) (b : BlankNode) :
    saidOf b name (e.statements schema) =
      if e.subject.isNamed b.name = true then e.values name else [] := by
  have hfilter : saidOf b name (e.statements schema) =
      ((e.statements schema).filter fun q => q.predicate = name).filterMap fun q =>
        if q.subject.isNamed b.name = true then some q.object else none := by
    unfold saidOf
    rw [List.filterMap_filter]
    refine List.filterMap_congr fun q _ => ?_
    by_cases hq : q.predicate = name <;> simp [hq]
  rw [hfilter, filter_statements h, List.filterMap_map]
  by_cases hnamed : e.subject.isNamed b.name = true
  · simp [hnamed]
  · simp [hnamed]

/-- The blank nodes in the statements of an entity are the entity itself and values of its. -/
theorem names_of_mem_statements {q : Statement} (hq : q ∈ e.statements schema) {b : BlankNode}
    (hb : q.Names b) : e.subject = .new b ∨ ∃ name, ∃ o ∈ e.values name, o.value = .new b := by
  obtain ⟨name, objects, hget, o, ho, hq⟩ := mem_statements.1 hq
  have ho : o ∈ e.values name := by
    rw [values, hget]
    exact ho
  have hthis (hq : q = ⟨e.subject, name, o⟩) : e.subject = .new b ∨
      ∃ name, ∃ o ∈ e.values name, o.value = .new b := by
    subst hq
    exact hb.imp_right fun hvalue => ⟨name, o, ho, hvalue⟩
  have hback (edge : String) {other : Subject} (hother : o.value.subject? = some other)
      (hq : q = ⟨other, edge, ⟨e.subject.operand, o.facets⟩⟩) : e.subject = .new b ∨
        ∃ name, ∃ o ∈ e.values name, o.value = .new b := by
    subst hq
    rcases hb with hsubject | hobject
    · refine .inr ⟨name, o, ho, ?_⟩
      rw [show other = .new b from hsubject] at hother
      cases hvalue : o.value <;> simp_all [Operand.subject?]
    · refine .inl ?_
      cases hsubject : e.subject <;> simp_all [Subject.operand]
  unfold valueStatements at hq
  cases hdirection : schema.direction? name with
  | none => exact hthis (by simpa [hdirection] using hq)
  | some direction =>
    rcases direction with _ | edge | _
    · exact hthis (by simpa [hdirection] using hq)
    · cases hother : o.value.subject? with
      | none => simp [hdirection, hother] at hq
      | some other => exact hback edge hother (by simpa [hdirection, hother] using hq)
    · cases hother : o.value.subject? with
      | none => exact hthis (by simpa [hdirection, hother] using hq)
      | some other =>
        simp only [hdirection, hother, List.mem_cons, List.not_mem_nil, or_false] at hq
        rcases hq with hq | hq
        · exact hthis hq
        · exact hback name hother hq

end Entity

/-- What is said of a node by the new nodes beside an entry it says of itself. -/
theorem saidOf_satelliteStatements {schema : Schema} {name : String} (h : schema.IsOwn name)
    (b : BlankNode) (related : List Related) :
    saidOf b name (Mutation.satelliteStatements schema related) = related.flatMap fun
      | .new t => if t.node.name = b.name then (t.entity schema).values name else []
      | .existing _ => [] := by
  unfold Mutation.satelliteStatements
  rw [saidOf, List.filterMap_flatMap]
  refine List.flatMap_congr fun x _ => ?_
  cases x with
  | existing u => rfl
  | new t =>
    have hsaid := Entity.saidOf_statements (e := t.entity schema) h b
    simpa [saidOf, Subject.isNamed, Satellite.entity] using hsaid

/-! ### Labels and the nodes that they denote -/

/-- What is in the first of two related lists belongs to something in the second. -/
theorem exists_of_mem_left_forall₂ {α β : Type} {R : α → β → Prop} {as : List α} {bs : List β}
    (h : List.Forall₂ R as bs) {a : α} (ha : a ∈ as) : ∃ b ∈ bs, R a b :=
  exists_of_mem_forall₂ h.flip ha

/-- Of the values that are dropped, equal ones are left. -/
theorem exists_mem_distinctObjects {objects : List Object} {o : Object} (ho : o ∈ objects)
    (hrefl : (o.value == o.value) = true) :
    ∃ kept ∈ distinctObjects objects, (kept.value == o.value) = true := by
  have hkept : ∀ (rest kept : List Object), (∃ k ∈ kept, (k.value == o.value) = true) →
      ∃ k ∈ rest.foldl (fun kept o => if kept.any (·.value == o.value) then kept else kept ++ [o])
        kept, (k.value == o.value) = true := by
    intro rest
    induction rest with
    | nil => exact fun kept h => h
    | cons q rest ih =>
      rintro kept ⟨k, hk, heq⟩
      rw [List.foldl_cons]
      refine ih _ ⟨k, ?_, heq⟩
      split
      · exact hk
      · exact List.mem_append_left _ hk
  have hfold : ∀ (rest kept : List Object), o ∈ rest →
      ∃ k ∈ rest.foldl (fun kept o => if kept.any (·.value == o.value) then kept else kept ++ [o])
        kept, (k.value == o.value) = true := by
    intro rest
    induction rest with
    | nil => exact fun kept h => by cases h
    | cons q rest ih =>
      intro kept ho
      rw [List.foldl_cons]
      rcases List.mem_cons.1 ho with rfl | ho
      · refine hkept rest _ ?_
        split
        · rename_i hany
          exact List.any_eq_true.1 hany
        · exact ⟨o, List.mem_append_right _ (List.mem_singleton_self o), hrefl⟩
      · exact ih _ ho
  exact hfold objects [] ho

/-- Only relationships have new nodes for values. -/
theorem isRelationship_of_admits_new {p : Predicate} {b : BlankNode}
    (h : p.kind.admits (.new b) = true) : p.isRelationship = true := by
  unfold Predicate.isRelationship Predicate.relationship?
  cases hkind : p.kind with
  | relationship rel => rfl
  | _ =>
    rw [hkind] at h
    cases h

section Completed

variable (c : Context) (t : Satellite) (name : String)

theorem added_completeSatellite :
    (completeSatellite c t name).fields.get? "entry_added" = some [c.userEdge] := by
  have hother : "entry_added" ≠ "creation_date" := by decide
  simp only [completeSatellite, Table.get?_insert, hother, if_false, if_true]

/-- What a satellite is completed with are no new nodes. -/
theorem completeSatellite_addsNoNew : Entity.AddsNoNew ⟨.new t.node, t.fields⟩
    ⟨.new t.node, (completeSatellite c t name).fields⟩ := by
  have huser : ∀ b, c.userEdge.value ≠ .new b := fun b h => by cases h
  have hdate : ∀ b, c.date.value ≠ .new b := fun b h => by cases h
  have hnamed : Entity.AddsNoNew ⟨.new t.node, t.fields⟩ ⟨.new t.node,
      if t.fields.contains "unique_name" then t.fields
      else t.fields.insert "unique_name" [.plain (.ofText name)]⟩ := by
    split
    · exact .refl _
    · exact (Entity.AddsNoNew.refl _).single (ofText_ne_new name)
  exact ((hnamed.single (ofText_ne_new ReviewStatus.ofSatellites.name)).single huser).single hdate

end Completed

/-- The fields of a stub have no new nodes for values. -/
theorem stubOf_ne_new (node : BlankNode) (typeName : String) {name : String} {o : Object}
    (ho : o ∈ Entity.values ⟨.new node, (stubOf node typeName).fields⟩ name) (b : BlankNode) :
    o.value ≠ .new b := by
  unfold Entity.values stubOf at ho
  simp only [Table.get?_insert] at ho
  split at ho
  · rw [List.mem_singleton.1 ho]
    exact ofText_ne_new _ b
  · cases ho

/-- The new nodes beside an entry that have a name. -/
def Submission.satellites (sub : Submission) (name : String) : List Satellite :=
  sub.related.filterMap fun
    | .new t => if t.node.name = name then some t else none
    | .existing _ => none

namespace Composition

/-- A new node that was made for a label is a value of the field that the label was met in. -/
theorem exists_value_of_met {s : Store} {schema : Schema} {fixed : Option Json} {r : Resolver}
    {typeName : String} {form : Form} {c : Context} {sub : Submission}
    (comp : Composition (s.directory schema fixed) r typeName form c sub) {key name : String}
    {p : Predicate} {objects : List Object} {t : Satellite}
    (hp : comp.type.predicate? key = some p) (hrel : p.isRelationship = true)
    (hget : comp.fields.get? key = some objects) (hlabel : comp.labels.get? name = some (.new t))
    (hmet : ResolvedUnder (s.directory schema fixed) r c p objects name (.new t)) :
    ∃ o ∈ comp.entry.values key, ∃ b, o.value = .new b ∧ b.name = t.node.name := by
  obtain ⟨o, ho, node, hnode, rfl, -⟩ := hmet
  obtain ⟨objects', hdenotes, hvalues⟩ := comp.labels_resolve.values hp hrel hget
  obtain ⟨o', ho', hdenoted⟩ := exists_of_mem_left_forall₂ hdenotes ho
  have hvalue : o'.value = .new t.node := by
    cases hdenoted with
    | stored _ => cases hnode
    | label hlabel' _ =>
      obtain rfl := Operand.new.inj hnode
      rw [hlabel] at hlabel'
      rw [← Option.some.inj hlabel']
      rfl
    | other hother =>
      rw [show o.value = .new node from hnode] at hother
      cases hother
  have hsame : (o'.value == o'.value) = true := by
    rw [hvalue]
    exact beq_self_eq_true t.node.name
  obtain ⟨kept, hkept, heq⟩ := exists_mem_distinctObjects ho' hsame
  have hmem : kept ∈ comp.entry.values key := by
    rw [Entity.values, hvalues]
    exact hkept
  rw [hvalue] at heq
  rcases comp.value_cases hp hrel hmem with ⟨u, hu, -⟩ | ⟨-, x, -, hx, -⟩
  · rw [hu] at heq
    cases heq
  · rw [hx] at heq
    exact ⟨kept, hmem, x.node, hx, beq_iff_eq.1 heq⟩

variable {s : Store} {schema : Schema} {fixed : Option Json} {typeName : String} {form : Form}
  {c : Context} {sub : Submission}
  (comp : Composition (s.directory schema fixed) stubResolver typeName form c sub)

/-- A new node that a label denotes is a stub that was completed, and has the name of the label. -/
theorem exists_stub {name : String} {t : Satellite} (h : comp.labels.get? name = some (.new t)) :
    t.node.name = name ∧ ∃ typeName unique, t = completeSatellite c (stubOf t.node typeName) unique := by
  obtain ⟨-, p, -, -, -, -, o, -, node, -, rfl, before, after, hlabel⟩ := comp.exists_met h
  obtain ⟨typeName, unique, rfl⟩ := resolveLabel_stub hlabel
  exact ⟨rfl, typeName, unique, rfl⟩

/-- A new node among the values of the entry is denoted by a label. -/
theorem exists_label_of_value {name : String} {o : Object} (ho : o ∈ comp.entry.values name)
    {b : BlankNode} (hb : o.value = .new b) :
    ∃ key t, comp.labels.get? key = some (.new t) ∧ t.node = b := by
  cases hget : comp.fields.get? name with
  | none =>
    rw [Entity.values, comp.labels_resolve.unset hget] at ho
    cases ho
  | some objects =>
    obtain ⟨p, hp, hreads⟩ := comp.reads name objects hget
    by_cases hrel : p.isRelationship = true
    · rcases comp.value_cases hp hrel ho with ⟨u, hvalue, -⟩ | ⟨key, t, hlabel, hvalue, -⟩
      · rw [hb] at hvalue
        cases hvalue
      · rw [hb] at hvalue
        exact ⟨key, t, hlabel, (Operand.new.inj hvalue).symm⟩
    · -- the values of other fields are as they were read
      have hfields : LabelsResolved comp.type comp.fields comp.entry.fields :=
        resolveFields_fields (fun e he => Table.get?_eq_some_iff.2 he) (.refl _ _) comp.resolves
      have hsame := hfields.plain name fun q hq => by
        rw [← Option.some.inj (hp.symm.trans hq)]
        simpa using hrel
      rw [Entity.values, hsame, hget, Option.getD_some] at ho
      exact absurd (isRelationship_of_admits_new (hb ▸ hreads.admits (List.mem_map_of_mem ho))) hrel

include comp in
/-- A new node has its name to itself. -/
theorem satellites_eq {x : Satellite} (hx : .new x ∈ sub.related) :
    sub.satellites x.node.name = [x] := by
  have hnames {key : String} {t : Satellite} (hget : comp.nodes.get? key = some (.new t)) :
      t.node.name = key := by
    obtain ⟨t', hlabel, hextends⟩ := comp.exists_of_get?_nodes hget
    rw [hextends.node, (comp.exists_stub hlabel).1]
  have hentries : sub.satellites x.node.name = comp.nodes.entries.flatMap fun e => match e.2 with
      | .new t => if t.node.name = x.node.name then [t] else []
      | .existing _ => [] := by
    rw [Submission.satellites, comp.related_eq, Table.values, List.filterMap_map,
      List.filterMap_eq_flatMap_toList]
    refine List.flatMap_congr fun e _ => ?_
    obtain ⟨key, related⟩ := e
    cases related with
    | existing u => rfl
    | new t => by_cases hname : t.node.name = x.node.name <;> simp [hname]
  rw [comp.related_eq] at hx
  obtain ⟨key, hkey⟩ := Table.mem_values_iff.1 hx
  obtain rfl := hnames hkey
  rw [hentries, Table.flatMap_entries_eq _ x.node.name, hkey]
  · simp
  · rintro ⟨key, related⟩ hmem hne
    cases related with
    | existing u => rfl
    | new t => simp [hnames (Table.get?_eq_some_iff.2 hmem), hne]

include comp in
/-- A new node beside the entry is named by a label, whose slug is no other node's. -/
theorem exists_of_new {x : Satellite} (hx : .new x ∈ sub.related) :
    ∃ t, comp.labels.get? x.node.name = some (.new t) ∧ Satellite.Extends comp.entry t x ∧
      ∃ typeName unique, t = completeSatellite c (stubOf x.node typeName) unique := by
  obtain ⟨name, t, hlabel, hextends⟩ := comp.exists_label hx
  obtain ⟨rfl, typeName, unique, ht⟩ := comp.exists_stub hlabel
  rw [← hextends.node] at hlabel ht
  exact ⟨t, hlabel, hextends, typeName, unique, ht⟩

include comp in
/-- A new node among the values of a new node is one beside the entry as well. -/
theorem satellites_of_value {x : Satellite} (hx : .new x ∈ sub.related) {name : String} {o : Object}
    (ho : o ∈ (x.entity schema).values name) {b : BlankNode} (hb : o.value = .new b) :
    ∃ y, sub.satellites b.name = [y] := by
  obtain ⟨t, -, hextends, typeName, unique, ht⟩ := comp.exists_of_new hx
  have hentry : o ∈ comp.entry.values name := by
    rw [Satellite.values_entity] at ho
    split at ho
    · obtain ⟨tag, -, rfl⟩ := List.mem_map.1 ho
      exact absurd hb (ofText_ne_new tag b)
    · rcases hextends.values name with hget | hget
      · rw [hget, ht] at ho
        rcases completeSatellite_addsNoNew c (stubOf x.node typeName) unique name o ho with ho | ho
        · exact absurd hb (stubOf_ne_new x.node typeName ho b)
        · exact absurd hb (ho b)
      · rwa [hget] at ho
  obtain ⟨key, t', hlabel, rfl⟩ := comp.exists_label_of_value hentry hb
  obtain ⟨y, hy, hextends⟩ := comp.exists_satellite hlabel
  exact ⟨y, by rw [← hextends.node]; exact comp.satellites_eq hy⟩

include comp in
/-- The blank nodes of a mutation are the entry and the new nodes beside it. -/
theorem known {q : Statement} (hq : q ∈ sub.mutation.set) {b : BlankNode} (hb : q.Names b) :
    sub.entry.subject = .new b ∨ ∃ x, sub.satellites b.name = [x] := by
  rw [comp.set] at hq
  rcases List.mem_append.1 hq with hq | hq
  · rcases Entity.names_of_mem_statements hq hb with hsubject | ⟨name, o, ho, hvalue⟩
    · exact .inl hsubject
    · rcases comp.addsNoNew name o ho with ho | ho
      · obtain ⟨key, t, hlabel, rfl⟩ := comp.exists_label_of_value ho hvalue
        obtain ⟨x, hx, hextends⟩ := comp.exists_satellite hlabel
        exact .inr ⟨x, by rw [← hextends.node]; exact comp.satellites_eq hx⟩
      · exact absurd hvalue (ho b)
  · obtain ⟨related, hx, hq⟩ := List.mem_flatMap.1 hq
    cases related with
    | existing u => cases hq
    | new x =>
      rcases Entity.names_of_mem_statements hq hb with hsubject | ⟨name, o, ho, hvalue⟩
      · obtain rfl : x.node = b := Subject.new.inj hsubject
        exact .inr ⟨x, comp.satellites_eq hx⟩
      · exact .inr (comp.satellites_of_value hx ho hvalue)

include comp in
/-- What a mutation says of a new node beside the entry are the values of that node. -/
theorem saidOf_set {name : String} (hown : schema.IsOwn name) {x : Satellite}
    (hx : .new x ∈ sub.related) (hapart : sub.entry.subject.isNamed x.node.name = false) :
    saidOf x.node name sub.mutation.set = (x.entity schema).values name := by
  have hsatellites : saidOf x.node name (Mutation.satelliteStatements schema sub.related) =
      (sub.satellites x.node.name).flatMap fun t => (t.entity schema).values name := by
    rw [saidOf_satelliteStatements hown, Submission.satellites, List.filterMap_eq_flatMap_toList,
      List.flatMap_assoc]
    refine List.flatMap_congr fun related _ => ?_
    cases related with
    | existing u => rfl
    | new t => by_cases hname : t.node.name = x.node.name <;> simp [hname]
  have hset : sub.mutation.set = sub.entry.statements schema ++
      Mutation.satelliteStatements schema sub.related := comp.set
  rw [hset, saidOf_append, Entity.saidOf_statements hown, hapart, hsatellites,
    comp.satellites_eq hx]
  simp

end Composition

/-! ### Whole submissions -/

/-- A form, or a default, mentions a label in a field that the system replaces. -/
def Form.MentionsReplaced (form : Form) (t : TypeDef) (name : String) : Prop :=
  ∃ p values b, t.predicate? p.name = some p ∧ p.name ∈ overwrittenFields ∧
    p.isRelationship = true ∧ form.Gives p values ∧ .new b ∈ values ∧ b.name = name

/-- What a token of a relationship becomes, given what the slugs of labels denote. -/
def TokenDenotes (den : String → Operand) (token : String) (o : Object) : Prop :=
  match Uid.parse? token with
  | some u => o.value = .existing u
  | none => Text.slug token ≠ "" → o.value = den (Text.slug token)

/-- What labels denote, by their slugs. -/
def Table.denotation (labels : Table Related) (slug : String) : Operand :=
  ((labels.get? slug).map Related.operand).getD .wildcard

theorem tokenDenotes_of_readsToken {accepts : Related → Prop} {labels : Table Related}
    {token : String} {o o' : Object} (hread : ReadsToken token o.value)
    (h : Denotes accepts labels o o') : TokenDenotes labels.denotation token o' := by
  unfold ReadsToken at hread
  unfold TokenDenotes
  split at hread
  · cases h with
    | stored _ => exact hread
    | label _ _ => cases hread
    | other _ => exact hread
  · intro hslug
    obtain ⟨b, hb, hlabelled, hname⟩ := hread
    cases h with
    | stored _ => cases hb
    | label hlabel _ =>
      obtain rfl := Operand.new.inj hb
      rw [hlabelled.name_eq hname hslug] at hlabel
      simp [Table.denotation, hlabel]
    | other hother =>
      rw [hb] at hother
      cases hother

/-- Lists that are related one after the other are related. -/
theorem forall₂_trans {α β γ : Type} {R : α → β → Prop} {S : β → γ → Prop} {T : α → γ → Prop}
    (hRS : ∀ a b c, R a b → S b c → T a c) {as : List α} {bs : List β} {cs : List γ}
    (h : List.Forall₂ R as bs) (h' : List.Forall₂ S bs cs) : List.Forall₂ T as cs := by
  induction h generalizing cs with
  | nil =>
    cases h'
    exact .nil
  | cons hab _ ih =>
    cases h' with
    | cons hbc hrest => exact .cons (hRS _ _ _ hab hbc) (ih hrest)

/-- The blank nodes of a submission are accounted for. -/
structure Submission.Grounded (schema : Schema) (t : TypeDef) (form : Form) (c : Context)
    (sub : Submission) : Prop where
  /-- A blank node of the mutation is the entry or exactly one new node beside it. -/
  known : ∀ q ∈ sub.mutation.set, ∀ b, q.Names b →
    sub.entry.subject = .new b ∨ ∃ x, sub.satellites b.name = [x]
  /-- A new node beside the entry is a value of a relationship of the entry, unless its label was
  put into a field that the system replaces. -/
  used : ∀ x, .new x ∈ sub.related → (∃ name p, t.predicate? name = some p ∧
    p.isRelationship = true ∧ ∃ o ∈ sub.entry.values name, o.value = .new x.node) ∨
      form.MentionsReplaced t x.node.name
  named : schema.IsOwn "unique_name" → ∀ x, .new x ∈ sub.related →
    ∃ v, saidOf x.node "unique_name" sub.mutation.set = [.plain (.literal (.text v))]
  drafts : schema.IsOwn ReviewStatus.predicateName → ∀ x, .new x ∈ sub.related →
    saidOf x.node ReviewStatus.predicateName sub.mutation.set = draftField
  submitted : schema.IsOwn "entry_added" → ∀ x, .new x ∈ sub.related →
    saidOf x.node "entry_added" sub.mutation.set = [c.userEdge]
  typed : ∀ x, .new x ∈ sub.related → saidOf x.node Search.typeKey sub.mutation.set =
    (x.tags schema).map fun name => .plain (.ofText name)
  /-- What a label denotes depends on its slug alone, wherever in the form it is said. -/
  labels : ∃ den, ∀ key raw p rel, (key, raw) ∈ form.settingKeys sub.skipped →
    t.predicate? key = some p → p.relationship? = some rel → key ∉ overwrittenFields →
      ∃ items objects added, p.relationshipTokens rel raw = .ok items ∧
        List.Forall₂ (TokenDenotes den) items objects ∧
          sub.entry.values key = distinctObjects objects ++ added ∧ ∀ o ∈ added, o = c.userEdge

namespace Composition

variable {types : List EntityType} {s : Store} {schema : Schema} {fixed : Option Json}
  {typeName : String} {form : Form} {c : Context} {sub : Submission}
  (comp : Composition (s.directory schema fixed) stubResolver typeName form c sub)

/-- A new node beside the entry is a value of the field that its label was met in, unless the
system replaces the field. -/
theorem used {x : Satellite} (hx : .new x ∈ sub.related) :
    (∃ name p, comp.type.predicate? name = some p ∧ p.isRelationship = true ∧
      ∃ o ∈ sub.entry.values name, o.value = .new x.node) ∨
        form.MentionsReplaced comp.type x.node.name := by
  obtain ⟨t, hlabel, hextends, -⟩ := comp.exists_of_new hx
  obtain ⟨key, p, objects, hp, hrel, hget, hmet⟩ := comp.exists_met hlabel
  by_cases hkey : key ∈ overwrittenFields
  · obtain ⟨o, ho, node, hnode, hname, -⟩ := hmet
    obtain ⟨q, hq, hsets⟩ := comp.given key objects hget
    obtain rfl : p = q := Option.some.inj (hp.symm.trans hq)
    obtain rfl : p.name = key := by simpa using List.find?_some hp
    exact .inr ⟨p, _, node, hp, hkey, hrel, hsets.gives, hnode ▸ List.mem_map_of_mem ho, hname⟩
  · obtain ⟨kept, hkept, b, hb, hsame⟩ := comp.exists_value_of_met hp hrel hget hlabel hmet
    obtain ⟨added, hadded, -⟩ := comp.exists_added hkey
    refine .inl ⟨key, p, hp, hrel, kept, by rw [hadded]; exact List.mem_append_left _ hkept, ?_⟩
    -- the node that is left has the same name, so its label is the same
    obtain ⟨other, t', hlabel', rfl⟩ := comp.exists_label_of_value hkept hb
    rw [← (comp.exists_stub hlabel').1, hsame, (comp.exists_stub hlabel).1, hlabel] at hlabel'
    rw [hb, ← Related.new.inj (Option.some.inj hlabel'), hextends.node]

/-- The values of a relationship are what its tokens denote. -/
theorem denotes {raw : Json} {p : Predicate} {rel : Relationship}
    (hp : comp.type.predicate? p.name = some p) (hrel : p.relationship? = some rel)
    (hkey : p.name ∉ overwrittenFields) (hsets : form.Sets sub.skipped p raw) :
    ∃ items objects added, p.relationshipTokens rel raw = .ok items ∧
      List.Forall₂ (TokenDenotes comp.labels.denotation) items objects ∧
        sub.entry.values p.name = distinctObjects objects ++ added ∧
          ∀ o ∈ added, o = c.userEdge := by
  obtain ⟨supply, supply', objects, hvalidate, hget⟩ := comp.formed hp hsets
  obtain ⟨items, hitems, hreads⟩ := validate_readsToken hrel hvalidate
  have hisRel : p.isRelationship = true := by rw [isRelationship, hrel]; rfl
  obtain ⟨objects', hdenotes, hvalues⟩ := comp.labels_resolve.values hp hisRel hget
  obtain ⟨added, hadded, huser⟩ := comp.exists_added hkey
  refine ⟨items, objects', added, hitems, ?_, ?_, huser⟩
  · have hstep : ∀ token o o', ReadsToken token o.value →
        Denotes (Accepts s schema stubResolver c p) comp.labels o o' →
          TokenDenotes comp.labels.denotation token o' :=
      fun _ _ _ hread hdenoted => tokenDenotes_of_readsToken hread hdenoted
    exact forall₂_trans hstep (List.forall₂_map_right_iff.1 hreads) hdenotes
  · rw [hadded, Entity.values, hvalues]
    rfl

end Composition

/-- The blank nodes of every submission are accounted for, if the entry has a name of its own. -/
theorem blank_nodes_grounded {types : List EntityType} {schema : Schema}
    (hbuild : Schema.build types = .ok schema) {s : Store} {fixed : Option Json}
    {typeName : String} {form : Form} {c : Context} {before after : Desk} {sub : Submission}
    (hsub : (newEntry (s.directory schema fixed) stubResolver typeName form c).Yields before sub
        after ∨
      (editEntry (s.directory schema fixed) stubResolver typeName form c).Yields before sub after)
    {t : TypeDef} (ht : schema.type? typeName = some t)
    (hapart : ∀ x, .new x ∈ sub.related → sub.entry.subject.isNamed x.node.name = false) :
    sub.Grounded schema t form c := by
  obtain ⟨comp⟩ := exists_composition (d := s.directory schema fixed) hbuild hsub
  obtain rfl : t = comp.type := Option.some.inj (ht.symm.trans comp.isType)
  -- what a new node is completed with, no sibling takes over
  have hvalues {name : String} (hown : schema.IsOwn name) (htype : name ≠ Search.typeKey)
      (hinherited : name ∉ Inventory.siblingInherited) {x : Satellite} (hx : .new x ∈ sub.related) :
      ∃ typeName unique, saidOf x.node name sub.mutation.set =
        ((completeSatellite c (stubOf x.node typeName) unique).fields.get? name).getD [] := by
    obtain ⟨t, -, hextends, typeName, unique, ht⟩ := comp.exists_of_new hx
    refine ⟨typeName, unique, ?_⟩
    rw [← ht, comp.saidOf_set hown hx (hapart x hx), Satellite.values_entity, if_neg htype,
      hextends.fields name hinherited]
  refine ⟨fun q hq b hb => comp.known hq hb, fun x hx => comp.used hx, fun hown x hx => ?_,
    fun hown x hx => ?_, fun hown x hx => ?_, fun x hx => ?_, comp.labels.denotation,
    fun key raw p rel hmem hp hrel hkey => ?_⟩
  · obtain ⟨typeName, unique, hsaid⟩ := hvalues hown (by decide) (by decide) hx
    rw [hsaid, uniqueName_completeSatellite (uniqueName_stubOf x.node typeName), Option.getD_some]
    exact ⟨Text.trim unique, rfl⟩
  · obtain ⟨typeName, unique, hsaid⟩ := hvalues hown (by decide) (by decide) hx
    rw [hsaid, status_completeSatellite, Option.getD_some]
  · obtain ⟨typeName, unique, hsaid⟩ := hvalues hown (by decide) (by decide) hx
    rw [hsaid, added_completeSatellite, Option.getD_some]
  · rw [comp.saidOf_set (Schema.isOwn_typeKey hbuild) hx (hapart x hx), Satellite.values_entity,
      if_pos rfl]
  · obtain rfl : p.name = key := by simpa using List.find?_some hp
    exact comp.denotes hp hrel hkey (.said hmem)

/-! ### A feed with a node too few and a node too many -/

/-- Feeds lead to other feeds that they added, and users may fill in who added them. -/
def feedTypes : List EntityType :=
  [Inventory.entry,
   { name := "Feed"
     parent := some "Entry"
     predicates := [
       (reverseListRelationship "added" "entry_added" ["Feed"]).allowNew,
       (singleRelationship "entry_added" ["Feed"]).allowNew] }]

/-- A store with an account. -/
def feedStore : Store :=
  (Store.empty.addNode ["User"] []).2

/-- The form of a new feed that added one feed and was added by another. -/
def feedForm : Form :=
  ((Table.empty.insert "name" (.string "Daily")).insert "added" (.array [.string "Foo"])).insert
    "entry_added" (.string "Bar")

/-- The user who submits the feed. -/
def feedContext : Context := ⟨Uid.ofNat 0x100, .contributor, "", ⟨0, 0⟩, false⟩

namespace Submission

/-- Whether no new node beside an entry has the name of the entry. -/
def isApart (sub : Submission) : Bool :=
  sub.related.all fun
    | .new x => !sub.entry.subject.isNamed x.node.name
    | .existing _ => true

/-- The new nodes beside an entry that are not said once to be added. -/
def doubled (sub : Submission) : List Satellite :=
  sub.related.filterMap fun
    | .new x => if (saidOf x.node "entry_added" sub.mutation.set).length = 1 then none else some x
    | .existing _ => none

/-- The new nodes beside an entry that are no values of it. -/
def dangling (sub : Submission) : List Satellite :=
  sub.related.filterMap fun
    | .new x => if sub.entry.fields.values.any (·.any (·.value = .new x.node)) then none else some x
    | .existing _ => none

variable {sub : Submission} {x : Satellite}

theorem isNamed_of_isApart (h : sub.isApart = true) (hx : .new x ∈ sub.related) :
    sub.entry.subject.isNamed x.node.name = false := by
  have hthis := List.all_eq_true.1 h _ hx
  rwa [Bool.not_eq_true'] at hthis

theorem of_mem_doubled (h : x ∈ sub.doubled) : .new x ∈ sub.related ∧
    (saidOf x.node "entry_added" sub.mutation.set).length ≠ 1 := by
  obtain ⟨related, hrelated, heq⟩ := List.mem_filterMap.1 h
  cases related with
  | existing u => cases heq
  | new y =>
    obtain ⟨hlength, heq⟩ := Option.ite_none_left_eq_some.1 heq
    obtain rfl := Option.some.inj heq
    exact ⟨hrelated, hlength⟩

theorem of_mem_dangling (h : x ∈ sub.dangling) : .new x ∈ sub.related ∧
    ∀ name, ∀ o ∈ sub.entry.values name, o.value ≠ .new x.node := by
  obtain ⟨related, hrelated, heq⟩ := List.mem_filterMap.1 h
  cases related with
  | existing u => cases heq
  | new y =>
    obtain ⟨hnone, heq⟩ := Option.ite_none_left_eq_some.1 heq
    obtain rfl := Option.some.inj heq
    refine ⟨hrelated, fun name o ho hvalue => hnone ?_⟩
    unfold Entity.values at ho
    cases hget : sub.entry.fields.get? name with
    | none =>
      rw [hget] at ho
      cases ho
    | some objects =>
      rw [hget] at ho
      refine List.any_eq_true.2 ⟨objects, Table.mem_values_iff.2 ⟨name, hget⟩,
        List.any_eq_true.2 ⟨o, ho, decide_eq_true hvalue⟩⟩

end Submission

theorem exists_feed : ∃ schema sub after t, Schema.build feedTypes = .ok schema ∧
    (newEntry (feedStore.directory schema none) stubResolver "Feed" feedForm feedContext).Yields
      Desk.clean sub after ∧ schema.type? "Feed" = some t ∧ sub.isApart = true ∧
    sub.doubled.map (·.node.name) = ["foo"] ∧ sub.dangling.map (·.node.name) = ["bar"] := by
  have h : ((Schema.build feedTypes).toOption.any fun schema =>
      ((newEntry (feedStore.directory schema none) stubResolver "Feed" feedForm
        feedContext).outcome Desk.clean).1.toOption.any fun sub =>
          (schema.type? "Feed").isSome && sub.isApart && sub.doubled.map (·.node.name) == ["foo"] &&
            sub.dangling.map (·.node.name) == ["bar"]) = true := by
    rewrite [Store.directory_eq]
    decide +kernel
  obtain ⟨schema, hbuild, h⟩ := (Option.any_eq_true _ _).1 h
  obtain ⟨sub, after, hsub, h⟩ := exists_yields h
  simp only [Bool.and_eq_true, beq_iff_eq, Option.isSome_iff_exists] at h
  obtain ⟨⟨⟨⟨t, ht⟩, hapart⟩, hdoubled⟩, hdangling⟩ := h
  exact ⟨schema, sub, after, t, toOption_eq_some.1 hbuild, hsub, ht, hapart, hdoubled, hdangling⟩

/-- The blank nodes of the feed are accounted for. -/
theorem blank_nodes_grounded_feed : ∃ schema sub after t, Schema.build feedTypes = .ok schema ∧
    (newEntry (feedStore.directory schema none) stubResolver "Feed" feedForm feedContext).Yields
      Desk.clean sub after ∧ schema.type? "Feed" = some t ∧
    (∀ x, .new x ∈ sub.related → sub.entry.subject.isNamed x.node.name = false) ∧
    sub.Grounded schema t feedForm feedContext := by
  obtain ⟨schema, sub, after, t, hbuild, hsub, ht, hapart, -⟩ := exists_feed
  have hapart := fun x => Submission.isNamed_of_isApart hapart (x := x)
  exact ⟨schema, sub, after, t, hbuild, hsub, ht, hapart,
    blank_nodes_grounded hbuild (.inl hsub) ht hapart⟩

/-- The schema of the feed stands in the way of more: one of the new nodes is said twice to be
added, by the feed too, and the other one is no value of the feed. -/
theorem feed_ungrounded : ∃ schema sub after foo bar, Schema.build feedTypes = .ok schema ∧
    (newEntry (feedStore.directory schema none) stubResolver "Feed" feedForm feedContext).Yields
      Desk.clean sub after ∧
    (∀ x, .new x ∈ sub.related → sub.entry.subject.isNamed x.node.name = false) ∧
    (.new foo ∈ sub.related ∧ (saidOf foo.node "entry_added" sub.mutation.set).length ≠ 1) ∧
    .new bar ∈ sub.related ∧ ∀ name, ∀ o ∈ sub.entry.values name, o.value ≠ .new bar.node := by
  obtain ⟨schema, sub, after, t, hbuild, hsub, -, hapart, hdoubled, hdangling⟩ := exists_feed
  obtain ⟨foo, hfoo, -⟩ : ∃ x ∈ sub.doubled, x.node.name = "foo" :=
    List.mem_map.1 (hdoubled ▸ List.mem_singleton_self _)
  obtain ⟨bar, hbar, -⟩ : ∃ x ∈ sub.dangling, x.node.name = "bar" :=
    List.mem_map.1 (hdangling ▸ List.mem_singleton_self _)
  exact ⟨schema, sub, after, foo, bar, hbuild, hsub,
    fun x => Submission.isNamed_of_isApart hapart, Submission.of_mem_doubled hfoo,
    Submission.of_mem_dangling hbar⟩

end PressRegister
