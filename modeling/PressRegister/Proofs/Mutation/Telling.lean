import PressRegister.Proofs.Predicate.Validation
import PressRegister.Proofs.Schema.Registry
import PressRegister.Proofs.Store.Commit
import PressRegister.Submission.Satellites

/-!
# What the statements of entities tell

The values of a field are stored under its edge: at the node itself, at the nodes
that are its values, or at both. Fields with different edges tell nothing of each
other, and the statements of new nodes tell nothing of nodes that are there.

## Main definitions

* `Entity.storedValues`: the texts that the values of a field are stored as.
* `Satellite.IsPlain`: a new node whose fields are stored at the node itself.

## Main results

* `Entity.told_statements`: an edge of a node is told by one field alone.
* `Entity.told_own`: what a field of its own tells.
* `Mutation.mem_satelliteStatements`: what is told of new nodes.
* `Mutation.mem_told_satellites`: what new nodes tell under a field of its own.
-/

namespace PressRegister

namespace Operand

/-- A node is stored as an object as it is stored as a subject. -/
theorem exists_subject?_of_isNode {x : Operand} (h : x.isNode = true) (uids : NewUids) :
    ∃ other, x.subject? = some other ∧ other.isNode = true ∧
      x.stored? uids = other.stored? uids := by
  cases x with
  | existing u => exact ⟨.existing u, rfl, rfl, rfl⟩
  | new b => exact ⟨.new b, rfl, rfl, rfl⟩
  | _ => cases h

/-- Values of any kind can be stored. -/
theorem isStorable_of_admits {k : Predicate.Kind} {x : Operand} (h : k.admits x = true) :
    x.isStorable = true := by
  cases x with
  | var v => cases k <;> cases h
  | wildcard => cases k <;> cases h
  | _ => rfl

end Operand

namespace Subject

theorem stored?_operand (x : Subject) (uids : NewUids) :
    x.operand.stored? uids = x.stored? uids := by
  cases x <;> rfl

theorem isStorable_operand (x : Subject) : x.operand.isStorable = x.isNode := by
  cases x <;> rfl

end Subject

namespace Entity

open Store

variable {schema : Schema} {uids : NewUids} {w q : String}

/-- A value is stated under the edge of its field. -/
theorem predicate_of_mem_valueStatements {subject : Subject} {name : String} {o : Object}
    {d : Statement} (hd : d ∈ valueStatements subject name (schema.direction? name) o) :
    d.predicate = schema.edge name := by
  unfold Schema.edge
  unfold valueStatements at hd
  cases hdir : schema.direction? name with
  | none => simp_all
  | some direction =>
    cases direction <;> cases hs : o.value.subject? <;> simp_all
    rcases hd with rfl | rfl <;> rfl

/-- A value is told under the edge of its field alone. -/
theorem told_valueStatements_of_ne (subject : Subject) {name : String} (o : Object)
    (h : schema.edge name ≠ q) :
    told uids w q (valueStatements subject name (schema.direction? name) o) = [] := by
  unfold told
  rw [List.filterMap_eq_nil_iff]
  intro d hd
  simp [Statement.tells?, predicate_of_mem_valueStatements hd, h]

/-- An edge of a node is told by the values of one field alone, if no other field of the
entity is stored under it. -/
theorem told_statements {e : Entity} (name : String)
    (h : ∀ key, e.fields.contains key = true → key ≠ name → schema.edge key ≠ q) :
    told uids w q (e.statements schema) =
      ((e.fields.get? name).getD []).flatMap fun o =>
        told uids w q (valueStatements e.subject name (schema.direction? name) o) := by
  have hentries : told uids w q (e.statements schema) = e.fields.entries.flatMap fun f =>
      f.2.flatMap fun o =>
        told uids w q (valueStatements e.subject f.1 (schema.direction? f.1) o) := by
    unfold told statements
    simp only [List.filterMap_flatMap]
    rfl
  rw [hentries, Table.flatMap_entries_eq _ name]
  · cases e.fields.get? name <;> rfl
  · rintro ⟨key, values⟩ hmem hne
    have hkey : e.fields.contains key = true := by
      rw [Table.contains, Table.get?_eq_some_iff.2 hmem]
      rfl
    simp only [List.flatMap_eq_nil_iff]
    exact fun o _ => told_valueStatements_of_ne _ o (h key hkey hne)

theorem told_statements_of_no_edge {e : Entity}
    (h : ∀ key, e.fields.contains key = true → schema.edge key ≠ q) :
    told uids w q (e.statements schema) = [] := by
  rw [told_statements q fun key hkey _ => h key hkey, List.flatMap_eq_nil_iff]
  intro o ho
  cases hq : e.fields.get? q with
  | none => simp [hq] at ho
  | some values =>
    exact told_valueStatements_of_ne _ o (h q (by simp [Table.contains, hq]))

/-- What a value tells that is stored at the node itself. -/
theorem told_valueStatements_forward (subject : Subject) {name : String} (o : Object)
    (h : schema.IsForward name) :
    told uids w name (valueStatements subject name (schema.direction? name) o) =
      if subject.stored? uids = some w then (o.value.stored? uids).toList else [] := by
  have hstatements : valueStatements subject name (schema.direction? name) o =
      [⟨subject, name, o⟩] := by
    rcases h with h | h <;> rw [h] <;> rfl
  rw [hstatements]
  unfold told Statement.tells?
  by_cases hw : subject.stored? uids = some w
  · cases ho : o.value.stored? uids <;> simp [hw, ho]
  · simp [hw]

/-- What a node tells that is a value of a field stored at its values. -/
theorem told_valueStatements_reverse (subject : Subject) {name edge : String} {o : Object}
    (ho : o.value.isNode = true) (h : schema.direction? name = some (.reverse edge)) :
    told uids w edge (valueStatements subject name (schema.direction? name) o) =
      if o.value.stored? uids = some w then (subject.stored? uids).toList else [] := by
  obtain ⟨other, hother, -, hstored⟩ := Operand.exists_subject?_of_isNode ho uids
  rw [h, hstored]
  unfold told valueStatements
  simp only [hother, List.filterMap_cons, List.filterMap_nil, Statement.tells?,
    Subject.stored?_operand, true_and]
  by_cases hw : other.stored? uids = some w
  · cases subject.stored? uids <;> simp [hw]
  · simp [hw]

/-- What a node tells that is a value of a field stored at both ends. -/
theorem told_valueStatements_mutual (subject : Subject) {name : String} {o : Object}
    (ho : o.value.isNode = true) (h : schema.direction? name = some .mutual) :
    told uids w name (valueStatements subject name (schema.direction? name) o) =
      (if subject.stored? uids = some w then (o.value.stored? uids).toList else []) ++
        (if o.value.stored? uids = some w then (subject.stored? uids).toList else []) := by
  obtain ⟨other, hother, -, hstored⟩ := Operand.exists_subject?_of_isNode ho uids
  rw [h, hstored]
  unfold told valueStatements
  simp only [hother, List.filterMap_cons, List.filterMap_nil, Statement.tells?,
    Subject.stored?_operand, true_and, hstored]
  by_cases hs : subject.stored? uids = some w <;> by_cases hw : other.stored? uids = some w <;>
    simp only [hs, hw, if_true, if_false]
  all_goals cases hs' : subject.stored? uids <;> cases hw' : other.stored? uids <;> simp_all

/-- The texts that the values of a field are stored as. -/
def storedValues (uids : NewUids) (e : Entity) (name : String) : List String :=
  ((e.fields.get? name).getD []).filterMap fun o => o.value.stored? uids

/-- No other field of an entity is stored under the edge of a field. -/
def HasEdgeAlone (schema : Schema) (e : Entity) (name : String) : Prop :=
  ∀ key, e.fields.contains key = true → key ≠ name → schema.edge key ≠ schema.edge name

theorem mem_storedValues {e : Entity} {name v : String} :
    v ∈ e.storedValues uids name ↔
      ∃ o ∈ (e.fields.get? name).getD [], o.value.stored? uids = some v :=
  List.mem_filterMap

/-- All values of a field are nodes. -/
def HasNodes (e : Entity) (name : String) : Prop :=
  ∀ o ∈ (e.fields.get? name).getD [], o.value.isNode = true

variable {e : Entity} {name v : String}

/-- A field that is stored at the node itself tells its values there. -/
theorem told_forward (halone : e.HasEdgeAlone schema name) (h : schema.IsForward name) :
    told uids w name (e.statements schema) =
      if e.subject.stored? uids = some w then e.storedValues uids name else [] := by
  rw [HasEdgeAlone, Schema.edge_of_isForward h] at halone
  rw [told_statements name halone]
  simp only [told_valueStatements_forward _ _ h, storedValues]
  by_cases hw : e.subject.stored? uids = some w
  · simp [hw, List.filterMap_eq_flatMap_toList]
  · simp [hw]

/-- A field that has its edge to itself tells its values at the node itself. -/
theorem told_own (h : schema.IsOwn name) : told uids w name (e.statements schema) =
    if e.subject.stored? uids = some w then e.storedValues uids name else [] := by
  refine told_forward (fun key _ hne => ?_) h.1
  rw [Schema.edge_of_isForward h.1]
  exact h.2 key hne

/-- A field that is stored at its values tells the node itself there. -/
theorem mem_told_reverse {edge : String} (halone : e.HasEdgeAlone schema name)
    (hnodes : e.HasNodes name) (h : schema.direction? name = some (.reverse edge)) :
    v ∈ told uids w edge (e.statements schema) ↔
      e.subject.stored? uids = some v ∧ w ∈ e.storedValues uids name := by
  have hedge : schema.edge name = edge := by
    unfold Schema.edge
    rw [h]
  rw [HasEdgeAlone, hedge] at halone
  rw [told_statements name halone, List.mem_flatMap, mem_storedValues]
  constructor
  · rintro ⟨o, ho, hv⟩
    rw [told_valueStatements_reverse _ (hnodes o ho) h] at hv
    by_cases hw : o.value.stored? uids = some w
    · simp only [hw, if_true, Option.mem_toList] at hv
      exact ⟨hv, o, ho, hw⟩
    · simp [hw] at hv
  · rintro ⟨hv, o, ho, hw⟩
    refine ⟨o, ho, ?_⟩
    rw [told_valueStatements_reverse _ (hnodes o ho) h, if_pos hw, hv]
    exact List.mem_singleton_self v

theorem told_mutual (halone : e.HasEdgeAlone schema name) (hnodes : e.HasNodes name)
    (h : schema.direction? name = some .mutual) :
    told uids w name (e.statements schema) = ((e.fields.get? name).getD []).flatMap fun o =>
      (if e.subject.stored? uids = some w then (o.value.stored? uids).toList else []) ++
        (if o.value.stored? uids = some w then (e.subject.stored? uids).toList else []) := by
  have hedge : schema.edge name = name := by
    unfold Schema.edge
    rw [h]
  rw [HasEdgeAlone, hedge] at halone
  rw [told_statements name halone]
  exact List.flatMap_congr fun o ho => told_valueStatements_mutual _ (hnodes o ho) h

/-- A field that is stored at both ends tells the node itself at its values. -/
theorem mem_told_mutual (halone : e.HasEdgeAlone schema name) (hnodes : e.HasNodes name)
    (h : schema.direction? name = some .mutual) (hw : e.subject.stored? uids ≠ some w) :
    v ∈ told uids w name (e.statements schema) ↔
      e.subject.stored? uids = some v ∧ w ∈ e.storedValues uids name := by
  rw [told_mutual halone hnodes h, List.mem_flatMap, mem_storedValues]
  simp only [hw, if_false, List.nil_append, List.mem_ite_nil_right, Option.mem_toList]
  constructor
  · rintro ⟨o, ho, hw', hv⟩
    exact ⟨hv, o, ho, hw'⟩
  · rintro ⟨hv, o, ho, hw'⟩
    exact ⟨o, ho, hw', hv⟩

/-- A field that is stored at both ends makes of the values of the node itself what a field
stored there makes of them: the node itself may be one of the values, and is told twice then. -/
theorem setValues_told_mutual (halone : e.HasEdgeAlone schema name) (hnodes : e.HasNodes name)
    (h : schema.direction? name = some .mutual) (hw : e.subject.stored? uids = some w)
    (old : List String) :
    setValues true old (told uids w name (e.statements schema)) =
      setValues true old (e.storedValues uids name) := by
  rw [told_mutual halone hnodes h, storedValues, List.filterMap_eq_flatMap_toList]
  generalize (e.fields.get? name).getD [] = values
  induction values generalizing old with
  | nil => rfl
  | cons o rest ih =>
    simp only [List.flatMap_cons, setValues_append, hw, if_true, Option.toList_some]
    have hagain : ∀ old, setValues true (setValues true old (o.value.stored? uids).toList)
        (if o.value.stored? uids = some w then [w] else []) =
          setValues true old (o.value.stored? uids).toList := by
      intro old
      split
      · rename_i ho
        simp only [ho, Option.toList_some, setValues_cons, setValues_nil]
        exact setValue_of_mem (mem_setValue_self _ _)
      · rfl
    rw [hagain]
    simpa only [hw, if_true, Option.toList_some] using ih _

theorem mem_statements {d : Statement} :
    d ∈ e.statements schema ↔ ∃ name values, e.fields.get? name = some values ∧
      ∃ o ∈ values, d ∈ valueStatements e.subject name (schema.direction? name) o := by
  unfold statements
  simp only [List.mem_flatMap, Prod.exists, ← Table.get?_eq_some_iff]
  rfl

/-- The statements of an entity whose fields are all stored at the node itself. -/
theorem mem_statements_of_forward {d : Statement}
    (h : ∀ key, e.fields.contains key = true → schema.IsForward key)
    (hd : d ∈ e.statements schema) :
    d.subject = e.subject ∧ e.fields.contains d.predicate = true := by
  obtain ⟨key, values, hvalues, o, -, hd⟩ := mem_statements.1 hd
  have hkey : e.fields.contains key = true := by
    rw [Table.contains, hvalues]
    rfl
  have hsingle : d = ⟨e.subject, key, o⟩ := by
    rcases h key hkey with hdir | hdir <;> rw [hdir] at hd <;> exact List.mem_singleton.1 hd
  rw [hsingle]
  exact ⟨rfl, hkey⟩

end Entity

/-- Once its statements are set, a value is stored: where it is no object, it is a subject. -/
theorem Entity.exists_stored {schema : Schema} {s : Store} {m : Mutation} {subject : Subject}
    (name : String) (direction : Option Direction) {o : Object} (hsubject : subject.isNode = true)
    (ho : o.value.isStorable = true)
    (hnode : ∀ edge, direction = some (.reverse edge) → o.value.isNode = true)
    (hset : ∀ d ∈ valueStatements subject name direction o, d ∈ m.set) :
    ∃ v, o.value.stored? (Store.commit schema s m).2 = some v := by
  have hobject (hd : ⟨subject, name, o⟩ ∈ m.set) :
      ∃ v, o.value.stored? (Store.commit schema s m).2 = some v := by
    obtain ⟨-, v, -, hv⟩ := Store.commit_stored schema s m hd (by
      simp [Statement.isStorable, hsubject, ho])
    exact ⟨v, hv⟩
  rcases direction with _ | _ | edge | _
  · exact hobject (hset _ (List.mem_singleton_self _))
  · exact hobject (hset _ (List.mem_singleton_self _))
  · obtain ⟨other, hother, hisNode, hstored⟩ :=
      Operand.exists_subject?_of_isNode (hnode edge rfl) (Store.commit schema s m).2
    simp only [valueStatements, hother, List.mem_singleton, forall_eq] at hset
    obtain ⟨w, -, hw, -⟩ := Store.commit_stored schema s m hset (by
      simp [Statement.isStorable, hisNode, Subject.isStorable_operand, hsubject])
    exact ⟨w, hstored.trans hw⟩
  · exact hobject (hset _ List.mem_cons_self)

/-- Once its statements are set, an entity and the values that are stored at it are stored. -/
theorem Entity.exists_stored_own {schema : Schema} {s : Store} {m : Mutation} {e : Entity}
    {name : String} {o : Object} (hsubject : e.subject.isNode = true)
    (hforward : schema.IsForward name) (hmem : o ∈ (e.fields.get? name).getD [])
    (ho : o.value.isStorable = true) (hset : ∀ d ∈ e.statements schema, d ∈ m.set) :
    ∃ w v, e.subject.stored? (Store.commit schema s m).2 = some w ∧
      o.value.stored? (Store.commit schema s m).2 = some v := by
  have hstatement : ⟨e.subject, name, o⟩ ∈ m.set := by
    refine hset _ (mem_statements.2 ?_)
    cases hget : e.fields.get? name with
    | none => simp [hget] at hmem
    | some values =>
      rw [hget] at hmem
      refine ⟨name, values, hget, o, hmem, ?_⟩
      rcases hforward with hdir | hdir <;> rw [hdir] <;> exact List.mem_singleton_self _
  exact Store.commit_stored schema s m hstatement (by simp [Statement.isStorable, hsubject, ho])

/-! ### New nodes -/

namespace Satellite

/-- The fields that new nodes can be given. -/
def plainFields : List String :=
  ["name", "unique_name", ReviewStatus.predicateName, "entry_added", "creation_date"] ++
    Inventory.siblingInherited

/-- A new node has no other fields than those that new nodes can be given. -/
def IsPlain (t : Satellite) : Prop :=
  ∀ key ∈ t.fields.keys, key ∈ plainFields

instance (t : Satellite) : Decidable t.IsPlain :=
  inferInstanceAs (Decidable (∀ key ∈ _, _))

end Satellite

/-- A related node is stored already, or it is a new one with plain fields. -/
def Related.IsPlain : Related → Prop
  | .existing _ => True
  | .new t => t.IsPlain

namespace Mutation

/-- Plain fields and types are stored at the new nodes themselves. -/
def KeepsPlain (schema : Schema) : Prop :=
  ∀ key ∈ Search.typeKey :: Satellite.plainFields, schema.IsForward key

instance (schema : Schema) (name : String) : Decidable (schema.IsForward name) :=
  inferInstanceAs (Decidable (_ ∨ _))

instance (schema : Schema) : Decidable (KeepsPlain schema) :=
  inferInstanceAs (Decidable (∀ key ∈ _, _))

/-- The statements on new nodes tell plain fields and types, of new nodes alone. -/
theorem mem_satelliteStatements {schema : Schema} {related : List Related} {d : Statement}
    (hschema : KeepsPlain schema) (hrelated : ∀ r ∈ related, r.IsPlain)
    (hd : d ∈ satelliteStatements schema related) :
    (∃ b, d.subject = .new b) ∧ d.predicate ∈ Search.typeKey :: Satellite.plainFields := by
  unfold satelliteStatements at hd
  obtain ⟨r, hr, hd⟩ := List.mem_flatMap.1 hd
  cases r with
  | existing u => cases hd
  | new t =>
    have hkeys : ∀ key, (t.entity schema).fields.contains key = true →
        key ∈ Search.typeKey :: Satellite.plainFields := by
      intro key hkey
      simp only [Satellite.entity, Table.contains, Table.get?_insert] at hkey
      split at hkey
      · rename_i heq
        exact heq ▸ List.mem_cons_self
      · exact List.mem_cons_of_mem _ (hrelated _ hr key (Table.mem_keys_iff_contains.2 hkey))
    obtain ⟨hsubject, hpredicate⟩ :=
      Entity.mem_statements_of_forward (fun key hkey => hschema key (hkeys key hkey)) hd
    exact ⟨⟨t.node, hsubject⟩, hkeys _ hpredicate⟩

/-- Of nodes that are not new, and under other edges, nothing is told by new nodes. -/
theorem told_satelliteStatements {schema : Schema} {related : List Related} {uids : NewUids}
    {w q : String} (hschema : KeepsPlain schema) (hrelated : ∀ r ∈ related, r.IsPlain)
    (h : (∀ name, uids.get? name ≠ some w) ∨ q ∉ Search.typeKey :: Satellite.plainFields) :
    Store.told uids w q (satelliteStatements schema related) = [] := by
  rw [List.eq_nil_iff_forall_not_mem]
  intro v hv
  obtain ⟨d, hd, hpredicate, hsubject, -⟩ := Store.mem_told.1 hv
  obtain ⟨⟨b, hb⟩, hplain⟩ := mem_satelliteStatements hschema hrelated hd
  rcases h with h | h
  · rw [hb] at hsubject
    exact h b.name hsubject
  · exact h (hpredicate ▸ hplain)

/-- Under an edge that one field has to itself new nodes tell their values of the field. -/
theorem mem_told_satelliteStatements {schema : Schema} {related : List Related} {uids : NewUids}
    {name w v : String} (h : schema.IsOwn name) :
    v ∈ Store.told uids w name (satelliteStatements schema related) ↔
      ∃ t, .new t ∈ related ∧ uids.get? t.node.name = some w ∧
        v ∈ (t.entity schema).storedValues uids name := by
  have htold : ∀ t : Satellite, v ∈ Store.told uids w name ((t.entity schema).statements schema) ↔
      uids.get? t.node.name = some w ∧ v ∈ (t.entity schema).storedValues uids name := by
    intro t
    rw [Entity.told_own h, List.mem_ite_nil_right]
    rfl
  unfold satelliteStatements Store.told
  rw [List.filterMap_flatMap, List.mem_flatMap]
  constructor
  · rintro ⟨_ | t, hr, hv⟩
    · cases hv
    · exact ⟨t, hr, (htold t).1 hv⟩
  · rintro ⟨t, hr, hv⟩
    exact ⟨.new t, hr, (htold t).2 hv⟩

/-- Fields other than the types are told as they are. -/
theorem mem_told_satellites {schema : Schema} {related : List Related} {uids : NewUids}
    {name w v : String} (h : schema.IsOwn name) (hname : name ≠ Search.typeKey) :
    v ∈ Store.told uids w name (satelliteStatements schema related) ↔
      ∃ t, .new t ∈ related ∧ uids.get? t.node.name = some w ∧
        v ∈ Entity.storedValues uids ⟨.new t.node, t.fields⟩ name := by
  have hvalues (t : Satellite) : (t.entity schema).storedValues uids name =
      Entity.storedValues uids ⟨.new t.node, t.fields⟩ name := by
    have hget : (t.entity schema).fields.get? name = t.fields.get? name :=
      (Table.get?_insert _ _ _ _).trans (if_neg hname)
    rw [Entity.storedValues, hget]
    rfl
  rw [mem_told_satelliteStatements h]
  simp only [hvalues]

end Mutation

end PressRegister
