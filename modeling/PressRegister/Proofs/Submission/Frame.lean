import PressRegister.Proofs.Store.Nodes
import PressRegister.Proofs.Submission.Composition
import PressRegister.Proofs.Submission.RequiredFields

/-!
# What a submission leaves alone

The values of most fields are stored at the node that has them. The values of a field
that *points back* are stored at its values, or at both ends: such a field alone lets an
entry reach nodes other than itself, and at those nodes only the entry is written and
deleted. New nodes beside the entry reach no other node, if they have *local* fields.

## Main definitions

* `Schema.PointsBack`: a field points back.
* `Satellite.IsLocal`, `Resolver.IsLocal`: new nodes without fields that point back.

## Main results

* `Entity.mem_told_statements`: what the statements of an entity tell.
* `Submission.Written.mem_told_other`, `Submission.Written.struck_cases`: what is told of
  other nodes, and what is taken from them.
-/

namespace PressRegister

open Consult Store

/-- The values of a field point back at the node that has them. -/
def Schema.PointsBack (schema : Schema) (name : String) : Prop :=
  ¬ schema.IsForward name

/-- A node has the same identifier as a subject and as an object. -/
theorem Operand.stored?_of_subject? {x : Operand} {y : Subject} (h : x.subject? = some y)
    (uids : NewUids) : x.stored? uids = y.stored? uids ∧ x = y.operand := by
  cases x <;> cases h <;> exact ⟨rfl, rfl⟩

/-! ### Entities -/

namespace Entity

variable {schema : Schema} {uids : NewUids} {e : Entity} {w q v : String}

/-- A value is stated at the node that has it, or at the value, where the field points back. -/
theorem mem_valueStatements {subject : Subject} {name : String} {o : Object} {d : Statement}
    (hd : d ∈ valueStatements subject name (schema.direction? name) o) :
    d = ⟨subject, name, o⟩ ∨ schema.PointsBack name ∧ ∃ other, o.value.subject? = some other ∧
      d = ⟨other, schema.edge name, ⟨subject.operand, o.facets⟩⟩ := by
  unfold Schema.PointsBack Schema.IsForward Schema.edge
  unfold valueStatements at hd
  cases hdir : schema.direction? name with
  | none => simp_all
  | some direction =>
    cases direction <;> cases hs : o.value.subject? <;> simp_all

/-- Statements of an entity are about the entity, or about values of a field that points back. -/
theorem subject_of_mem_statements {d : Statement} (hd : d ∈ e.statements schema) :
    d.subject = e.subject ∨ ∃ name, schema.PointsBack name ∧
      ∃ o ∈ e.values name, o.value.subject? = some d.subject := by
  obtain ⟨name, values, hvalues, o, ho, hd⟩ := mem_statements.1 hd
  rcases mem_valueStatements hd with rfl | ⟨hback, other, hother, rfl⟩
  · exact .inl rfl
  · exact .inr ⟨name, hback, o, by rwa [Entity.values, hvalues], hother⟩

/-- What the statements of an entity tell: its values at the entity itself, and the entity at
the values of fields that point back. -/
theorem mem_told_statements (hv : v ∈ told uids w q (e.statements schema)) :
    e.subject.stored? uids = some w ∧ v ∈ e.storedValues uids q ∨
      e.subject.stored? uids = some v ∧ ∃ name, schema.PointsBack name ∧
        schema.edge name = q ∧ w ∈ e.storedValues uids name := by
  obtain ⟨d, hd, rfl, hw, hv⟩ := mem_told.1 hv
  obtain ⟨name, values, hvalues, o, ho, hd⟩ := mem_statements.1 hd
  have hmem : o ∈ (e.fields.get? name).getD [] := by rwa [hvalues]
  rcases mem_valueStatements hd with rfl | ⟨hback, other, hother, rfl⟩
  · exact .inl ⟨hw, mem_storedValues.2 ⟨o, hmem, hv⟩⟩
  · refine .inr ⟨(Subject.stored?_operand _ _).symm.trans hv, name, hback, rfl, ?_⟩
    exact mem_storedValues.2 ⟨o, hmem, (Operand.stored?_of_subject? hother uids).1.trans hw⟩

end Entity

/-! ### New nodes -/

/-- All fields of a new node are stored at the node itself. -/
def Satellite.IsLocal (schema : Schema) (t : Satellite) : Prop :=
  ∀ key, t.fields.contains key = true → schema.IsForward key

/-- A resolver gives no new node a field that points back. -/
def Resolver.IsLocal (schema : Schema) (r : Resolver) : Prop :=
  ∀ p node t, r p node = .ok (.new t) → t.IsLocal schema

/-- Plain fields are local. -/
theorem Satellite.IsPlain.isLocal {schema : Schema} (hschema : Mutation.KeepsPlain schema)
    {t : Satellite} (h : t.IsPlain) : t.IsLocal schema := fun key hkey =>
  hschema key (List.mem_cons_of_mem _ (isPlain_iff.1 h key hkey))

/-- New nodes that have nothing but a name are local. -/
theorem isLocal_stubResolver {schema : Schema} (hschema : Mutation.KeepsPlain schema) :
    stubResolver.IsLocal schema := by
  intro p node t h
  obtain ⟨typeName, ht⟩ := stubResolver_ok h
  obtain rfl := Related.new.inj ht
  exact (isPlain_stubOf node typeName).isLocal hschema

/-- A new node beside an entry is local, if what the resolver made is. -/
theorem Satellite.Extends.isLocal {schema : Schema} (hschema : Mutation.KeepsPlain schema)
    {e : Entity} {c : Context} {stub x : Satellite} {unique : String}
    (h : Satellite.Extends e (completeSatellite c stub unique) x) (hstub : stub.IsLocal schema) :
    x.IsLocal schema := by
  intro key hkey
  by_cases hplain : key ∈ plainFields
  · exact hschema key (List.mem_cons_of_mem _ hplain)
  · have hinherited : key ∉ Inventory.siblingInherited := fun hmem =>
      hplain (List.mem_append_right _ hmem)
    refine hstub key ?_
    have hcompleted : key ∉ completedFields := fun h => hplain (mem_plainFields_of_completed h)
    rwa [Table.contains, h.fields key hinherited, get?_completeSatellite hcompleted] at hkey

/-- A new node with local fields has no values that point back. -/
theorem Satellite.IsLocal.isForward {schema : Schema} {t : Satellite} (h : t.IsLocal schema)
    (htypes : schema.IsForward Search.typeKey) {name : String} {o : Object}
    (ho : o ∈ (t.entity schema).values name) : schema.IsForward name := by
  by_cases hname : name = Search.typeKey
  · exact hname ▸ htypes
  · refine h name ?_
    rw [values_entity, if_neg hname] at ho
    cases hfield : t.fields.get? name with
    | none => simp [hfield] at ho
    | some values => rw [Table.contains, hfield, Option.isSome_some]

/-- The types and the local fields of new nodes are told of those nodes alone. -/
theorem mem_told_local {schema : Schema} {related : List Related}
    (hlocal : ∀ x, .new x ∈ related → x.IsLocal schema) (htypes : schema.IsForward Search.typeKey)
    {uids : NewUids} {w q v : String}
    (hv : v ∈ told uids w q (Mutation.satelliteStatements schema related)) :
    ∃ x, .new x ∈ related ∧ uids.get? x.node.name = some w ∧
      v ∈ (x.entity schema).storedValues uids q := by
  obtain ⟨d, hd, hpredicate, hsubject, hvalue⟩ := mem_told.1 hv
  obtain ⟨_ | x, hx, hd⟩ := List.mem_flatMap.1 hd
  · cases hd
  · have htold : v ∈ told uids w q ((x.entity schema).statements schema) :=
      mem_told.2 ⟨d, hd, hpredicate, hsubject, hvalue⟩
    rcases Entity.mem_told_statements htold with ⟨hw, hv⟩ | ⟨-, name, hback, -, hmem⟩
    · exact ⟨x, hx, hw, hv⟩
    · obtain ⟨o, ho, -⟩ := Entity.mem_storedValues.1 hmem
      exact (hback ((hlocal x hx).isForward htypes ho)).elim

/-! ### Submissions -/

/-- Clearing a field takes its values at the node itself and, where it points back, the node
itself at other nodes of its types. -/
theorem Mutation.Clears.cases {schema : Schema} {s : Store} {u : Uid} {name w q v : String}
    {p : Predicate} (hp : schema.predicate? name = some p) (h : Clears s u name p w q v) :
    q = name ∧ w = u.text ∨
      v = u.text ∧ schema.PointsBack name ∧ schema.edge name = q ∧ s.Carries (owners p) w := by
  have hdir : schema.direction? name = p.direction? := by
    rw [Schema.direction?, hp]
    rfl
  unfold Schema.PointsBack Schema.IsForward Schema.edge
  unfold Clears at h
  rw [hdir]
  split at h
  · rename_i edge hreverse
    obtain ⟨rfl, rfl, hcarries⟩ := h
    exact .inr ⟨rfl, by simp [hreverse], by rw [hreverse], hcarries⟩
  · rename_i hmutual
    obtain ⟨rfl, hw | ⟨rfl, hcarries⟩⟩ := h
    · exact .inl ⟨rfl, hw⟩
    · exact .inr ⟨rfl, by simp [hmutual], by rw [hmutual], hcarries⟩
  · exact .inl h

/-- If all that is set of a list is one value, the list gains it or stays as it is. -/
theorem setValues_true_of_forall (old : List String) {vs : List String} {x : String}
    (h : ∀ v ∈ vs, v = x) :
    setValues true old vs = old ∨ vs ≠ [] ∧ setValues true old vs = old ++ [x] := by
  induction vs generalizing old with
  | nil => exact .inl rfl
  | cons v vs ih =>
    obtain rfl := h v List.mem_cons_self
    have hrest := fun x hx => h x (List.mem_cons_of_mem _ hx)
    rw [setValues_cons]
    by_cases hold : v ∈ old
    · rw [setValue_of_mem hold]
      exact (ih old hrest).imp_right fun h => ⟨List.cons_ne_nil _ _, h.2⟩
    · have hset : setValue true old v = old ++ [v] := by simp [setValue, hold]
      have hagain : setValues true (old ++ [v]) vs = old ++ [v] := by
        rw [setValues_true, List.filter_eq_nil_iff.2, List.append_nil]
        intro y hy
        simp [hrest y (Predicate.mem_withoutRepeats.1 hy)]
      exact .inr ⟨List.cons_ne_nil _ _, by rw [hset, hagain]⟩

namespace Submission

variable {schema : Schema} {s : Store} {sub : Submission} {w q v : String}

/-- A value that is taken is one of a cleared field at the entry, or the entry itself at a node
of the types that a cleared field of the entry leads to. -/
theorem Written.struck_cases (h : sub.Written schema) (hv : v ∈ s.valuesAt w q)
    (hstruck : struck (s.bind sub.mutation.prelude) sub.mutation.delete w q v = true) :
    ∃ u name p, sub.entry.subject = .existing u ∧ name ∈ sub.cleared ∧
      schema.predicate? name = some p ∧ (q = name ∧ w = u.text ∨ v = u.text ∧
        schema.PointsBack name ∧ schema.edge name = q ∧ s.Carries (Mutation.owners p) w) := by
  obtain ⟨u, m, hsubject, hm, hprelude, hdelete⟩ := h.deletes
  rw [hprelude, hdelete, Mutation.struck_clearings hm hv] at hstruck
  obtain ⟨name, hname, p, hp, hclears⟩ := hstruck
  exact ⟨u, name, p, hsubject (List.ne_nil_of_mem hname), hname, hp, hclears.cases hp⟩

variable (h : sub.Written schema) (hlocal : ∀ x, .new x ∈ sub.related → x.IsLocal schema)
  (htypes : schema.IsForward Search.typeKey)
include h hlocal htypes

/-- What a submission tells of a node: what the entry tells, and what a new node tells of
itself. -/
theorem Written.mem_told {uids : NewUids} (hv : v ∈ told uids w q sub.mutation.set) :
    v ∈ told uids w q (sub.entry.statements schema) ∨ ∃ x, .new x ∈ sub.related ∧
      uids.get? x.node.name = some w ∧ v ∈ (x.entity schema).storedValues uids q := by
  rw [h.set, told_append, List.mem_append] at hv
  exact hv.imp_right (mem_told_local hlocal htypes)

/-- Of nodes that are not new and not the entry, only the entry is told, under the edges of
fields of its that point back. -/
theorem Written.mem_told_other {uids : NewUids} (hw : ∀ name, uids.get? name ≠ some w)
    (hentry : sub.entry.subject.stored? uids ≠ some w)
    (hv : v ∈ told uids w q sub.mutation.set) :
    sub.entry.subject.stored? uids = some v ∧ ∃ name, schema.PointsBack name ∧
      schema.edge name = q ∧ w ∈ sub.entry.storedValues uids name := by
  rcases h.mem_told hlocal htypes hv with hv | ⟨x, -, hx, -⟩
  · exact (Entity.mem_told_statements hv).resolve_left fun hw => hentry hw.1
  · exact (hw _ hx).elim

end Submission

end PressRegister
