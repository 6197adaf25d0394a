import PressRegister.Proofs.Mutation.Clearing
import PressRegister.Proofs.Submission.Satellites
import PressRegister.Proofs.Submission.Steps

/-!
# The entries of submissions

The entry of a submission is the one that its form fills in, with its labels resolved,
its unique name and what the system sets. All of its values can be stored, and the
mutation of the submission states all of them.

## Main definitions

* `Entity.operands`: the operands of a field.
* `systemFields`, `historyFields`: the fields that the system sets.

## Main results

* `newEntry_entry`, `editEntry_entry`: the entries of submissions and their mutations.
-/

namespace PressRegister

open Consult

/-! ### Operands of fields -/

namespace Entity

/-- The operands of a field. -/
def operands (e : Entity) (name : String) : List Operand :=
  ((e.fields.get? name).getD []).map (·.value)

theorem text?_eq (e : Entity) (name : String) :
    e.text? name = (e.operands name).head?.bind Operand.text? := by
  unfold text? first? get? operands
  cases e.fields.get? name with
  | none => rfl
  | some objects => cases objects <;> rfl

theorem storedValues_eq (uids : NewUids) (e : Entity) (name : String) :
    e.storedValues uids name = (e.operands name).filterMap (·.stored? uids) := by
  rw [storedValues, operands, List.filterMap_map]
  rfl

end Entity

/-! ### Names -/

section Names

variable {d : Directory} {t : TypeDef} {e e' : Entity} {before after : Desk} {v : String}

theorem isStorable_set (h : e.IsStorable) {name : String} {objects : List Object}
    (hobjects : ∀ o ∈ objects, o.value.isStorable = true) : (e.set name objects).IsStorable := by
  intro key values hget o ho
  simp only [Entity.set, Table.get?_insert] at hget
  split at hget
  · cases hget
    exact hobjects o ho
  · exact h key values hget o ho

theorem namePaper_spec (e : Entity) : (namePaper e).subject = e.subject ∧
    (e.IsStorable → (namePaper e).IsStorable) := by
  unfold namePaper
  split
  · exact ⟨rfl, fun h => h⟩
  · simp only
    split
    · exact ⟨rfl, fun h => h⟩
    · exact ⟨rfl, fun h => isStorable_set h (by simp [Object.plain, Operand.ofText,
        Operand.isStorable])⟩

theorem generateUniqueName_spec
    (h : (generateUniqueName d t e).Yields before (v, e') after) :
    e' = e ∨ e' = namePaper e := by
  unfold generateUniqueName at h
  simp only at h
  split at h
  · split at h
    · obtain ⟨taken, mid, -, h⟩ := yields_bind.1 h
      split at h
      · simp only [yields_bind, yields_pure] at h
        obtain ⟨_, _, -, heq, -⟩ := h
        exact .inr (Prod.mk.inj heq).2
      · exact .inr (Prod.mk.inj (yields_pure.1 h).1).2
    · simp only [yields_bind, yields_pure] at h
      obtain ⟨_, _, -, heq, -⟩ := h
      exact .inr (Prod.mk.inj heq).2
  · simp only [yields_bind, yields_pure] at h
    obtain ⟨_, _, -, heq, -⟩ := h
    exact .inl (Prod.mk.inj heq).2

/-- A new entry is given literals for names, and stays the node that it is. -/
theorem withUniqueName_spec
    (h : (withUniqueName d t e).Yields before e' after) :
    e'.subject = e.subject ∧ (e.IsStorable → e'.IsStorable) := by
  unfold withUniqueName at h
  split at h
  · obtain ⟨taken, mid, -, h⟩ := yields_bind.1 h
    split at h
    · exact (not_yields_fail h).elim
    · obtain ⟨rfl, -⟩ := yields_pure.1 h
      exact ⟨rfl, fun h => h⟩
  · simp only [yields_bind, yields_pure] at h
    obtain ⟨⟨v, e₁⟩, mid, hgenerate, rfl, -⟩ := h
    have hliteral : ∀ o ∈ [Object.plain (.ofText v)], o.value.isStorable = true := by
      simp [Object.plain, Operand.ofText, Operand.isStorable]
    rcases generateUniqueName_spec hgenerate with rfl | rfl
    · exact ⟨rfl, fun h => isStorable_set h hliteral⟩
    · exact ⟨(namePaper_spec e).1, fun h => isStorable_set ((namePaper_spec e).2 h) hliteral⟩

/-- A new entry is given its names, and nothing else of it changes. -/
theorem get?_withUniqueName {name : String} (hunique : name ≠ "unique_name")
    (hname : name ≠ "name") (h : (withUniqueName d t e).Yields before e' after) :
    e'.fields.get? name = e.fields.get? name := by
  unfold withUniqueName at h
  split at h
  · obtain ⟨taken, mid, -, h⟩ := yields_bind.1 h
    split at h
    · exact (not_yields_fail h).elim
    · obtain ⟨rfl, -⟩ := yields_pure.1 h
      rfl
  · simp only [yields_bind, yields_pure] at h
    obtain ⟨⟨v, e₁⟩, mid, hgenerate, rfl, -⟩ := h
    rw [Entity.set, Table.get?_insert, if_neg hunique]
    rcases generateUniqueName_spec hgenerate with rfl | rfl
    · rfl
    · unfold namePaper
      split
      · rfl
      · simp only
        split
        · rfl
        · rw [Entity.set, Table.get?_insert, if_neg hname]

end Names

/-! ### Fields that the system sets -/

theorem operands_withoutEmptyFields (e : Entity) (name : String) :
    (withoutEmptyFields e).operands name = e.operands name := by
  unfold Entity.operands withoutEmptyFields
  rw [Table.get?_filter]
  cases e.fields.get? name with
  | none => rfl
  | some objects => cases objects <;> rfl

/-- The fields that the system sets of a new entry. -/
def systemFields : List String :=
  [ReviewStatus.predicateName, "entry_added", "creation_date", "reviewed_by", "dgraph.type"]

theorem get?_withSystemFields {name : String} (h : name ∉ systemFields) (t : TypeDef)
    (status : ReviewStatus) (c : Context) (e : Entity) :
    (withSystemFields t status c e).fields.get? name = e.fields.get? name := by
  simp only [systemFields, List.mem_cons, List.not_mem_nil, or_false, not_or] at h
  obtain ⟨hstatus, hadded, hdate, hreviewed, htype⟩ := h
  unfold withSystemFields
  simp only
  split
  all_goals
    simp only [Entity.set, Table.get?_insert, hstatus, hadded, hdate, hreviewed, htype, if_false]

theorem subject_withSystemFields (t : TypeDef) (status : ReviewStatus) (c : Context) (e : Entity) :
    (withoutEmptyFields (withSystemFields t status c e)).subject = e.subject := by
  unfold withoutEmptyFields withSystemFields
  simp only
  split <;> rfl

/-- The fields that the system sets of a changed entry. -/
def historyFields : List String :=
  ["entry_edit_history", ReviewStatus.predicateName, "reviewed_by"]

theorem get?_withEditHistory {name : String} (h : name ∉ historyFields) (c : Context)
    (current status : ReviewStatus) (e : Entity) :
    (withEditHistory c current status e).1.fields.get? name = e.fields.get? name := by
  simp only [historyFields, List.mem_cons, List.not_mem_nil, or_false, not_or] at h
  obtain ⟨hhistory, hstatus, hreviewed⟩ := h
  unfold withEditHistory
  simp only
  split
  · simp only [Entity.push, Entity.set, Table.get?_insert, hhistory, if_false]
  split
  all_goals
    simp only [Entity.push, Entity.set, Table.get?_insert, hhistory, hstatus, hreviewed, if_false]

/-- For what the system sets of a changed entry, nothing is cleared but the last reviewer. -/
theorem eq_of_mem_withEditHistory {c : Context} {current status : ReviewStatus} {e : Entity}
    {name : String} (h : name ∈ (withEditHistory c current status e).2) : name = "reviewed_by" := by
  unfold withEditHistory at h
  simp only at h
  split at h
  · cases h
  split at h
  · exact List.mem_singleton.1 h
  · cases h

theorem isStorable_withoutEmptyFields {e : Entity} (h : e.IsStorable) :
    (withoutEmptyFields e).IsStorable := by
  intro name objects hget o ho
  simp only [withoutEmptyFields, Table.get?_filter, Option.filter_eq_some_iff] at hget
  exact h name objects hget.1 o ho

theorem isStorable_withSystemFields {e : Entity} (h : e.IsStorable) (t : TypeDef)
    (status : ReviewStatus) (c : Context) : (withSystemFields t status c e).IsStorable := by
  have huser : ∀ o ∈ [c.userEdge], o.value.isStorable = true := by
    simp [Context.userEdge, Operand.isStorable]
  have hdate : ∀ o ∈ [c.date], o.value.isStorable = true := by
    simp [Context.date, Object.plain, Operand.isStorable]
  have hbase : (((e.set ReviewStatus.predicateName [.plain (.ofText status.name)]).set
      "entry_added" [c.userEdge]).set "creation_date" [c.date]).IsStorable :=
    isStorable_set (isStorable_set (isStorable_set h (by
      simp [Object.plain, Operand.ofText, Operand.isStorable])) huser) hdate
  have htypes : ∀ o ∈ t.lineage.map fun name => Object.plain (.ofText name),
      o.value.isStorable = true := by
    simp [Object.plain, Operand.ofText, Operand.isStorable]
  unfold withSystemFields
  simp only
  split
  · exact isStorable_set (isStorable_set hbase huser) htypes
  · exact isStorable_set hbase htypes

theorem isStorable_withEditHistory {e : Entity} (h : e.IsStorable) (c : Context)
    (current status : ReviewStatus) : (withEditHistory c current status e).1.IsStorable := by
  have huser : c.userEdge.value.isStorable = true := rfl
  have hbase : (e.push "entry_edit_history" c.userEdge).IsStorable := by
    refine isStorable_set h fun o ho => ?_
    rcases List.mem_append.1 ho with ho | ho
    · cases hget : e.fields.get? "entry_edit_history" with
      | none => simp [hget] at ho
      | some objects =>
        rw [hget] at ho
        exact h _ objects hget o ho
    · rw [List.mem_singleton.1 ho]
      exact huser
  have hstatus : ∀ o ∈ [Object.plain (.ofText status.name)], o.value.isStorable = true := by
    simp [Object.plain, Operand.ofText, Operand.isStorable]
  unfold withEditHistory
  simp only
  split
  · exact hbase
  split
  · exact isStorable_set (isStorable_set hbase hstatus) (by simpa using huser)
  · exact isStorable_set hbase hstatus

theorem subject_changed (c : Context) (t : TypeDef) (current status : ReviewStatus) (e : Entity) :
    (changed c t current status e).1.subject = e.subject := by
  unfold changed withoutEmptyFields withEditHistory
  simp only
  split
  · rfl
  split <;> rfl

/-! ### Entries -/

section Submissions

variable {d : Directory} {r : Resolver} {typeName : String} {form : Form} {c : Context}
  {before after : Desk} {sub : Submission}

/-- A key of a form is a field that is read. -/
theorem NewRun.contains_of_said (run : NewRun d r typeName form c before after sub) {key : String}
    {raw : Json} (h : (key, raw) ∈ form.settingKeys []) (hkey : Facet.splitKey? key = none) :
    run.fields.contains key = true := by
  obtain ⟨-, -, -, objects, -, -, hget⟩ := Form.read_values run.reads h hkey
  rw [Table.contains, hget]
  rfl

theorem NewRun.predicate?_eq (hschema : d.schema.WellFormed)
    (run : NewRun d r typeName form c before after sub) {p : Predicate}
    (hp : p ∈ run.type.predicates) : run.type.predicate? p.name = some p :=
  hschema.predicate?_eq (hschema.get?_of_type? (entryType_ok run.isType)) hp

/-- The fields of a new entry are those that its form sets, and defaults. -/
theorem NewRun.filled_given (hschema : d.schema.WellFormed)
    (run : NewRun d r typeName form c before after sub)
    (hkeys : ∀ key p, run.type.predicate? key = some p → Facet.splitKey? key = none) :
    FieldsHold (form.SetsTo []) run.type run.filled.fields := by
  have hread : FieldsHold (form.SetsTo []) run.type run.fields := by
    refine Form.read_setsTo (fun p hp => ?_) run.reads
    simp only [Predicate.writableOnNew, Bool.and_eq_true, Bool.not_eq_true'] at hp
    exact hp.1
  have hhold : ∀ p raw values, run.type.predicate? p.name = some p → p.default = some raw →
      p.readOnly = false → p.name ≠ ReviewStatus.predicateName →
      run.fields.contains p.name = false →
      (∃ supply supply', p.validate raw supply = .ok (values, supply')) →
        form.SetsTo [] p values := by
    intro p raw values hp hraw hopen hstatus hunset hvalidate
    refine ⟨hopen, raw, .default rfl ?_ hraw hopen hstatus, hvalidate⟩
    cases hsaid : form.get? p.name with
    | none => rfl
    | some raw' =>
      have hmem : (p.name, raw') ∈ form.settingKeys [] :=
        List.mem_filter.2 ⟨Table.get?_eq_some_iff.1 hsaid, by simpa using hstatus⟩
      rw [run.contains_of_said hmem (hkeys _ p hp)] at hunset
      cases hunset
  exact (applyDefaults_hold (fun _ hp => run.predicate?_eq hschema hp) hhold hread run.fills).1

/-- The fields of a change are those that its form sets. -/
theorem EditRun.given (run : EditRun d r typeName form c before after sub) :
    FieldsHold (form.SetsTo ["uid"]) run.type run.fields := by
  refine Form.read_setsTo (fun p hp => ?_) run.reads
  simp only [Predicate.writableOnEdit, Bool.and_eq_true, Bool.not_eq_true'] at hp
  exact hp.1.1

/-- What the form of a new entry, or a default, says of a field is read. -/
theorem NewRun.filled_formed (hschema : d.schema.WellFormed)
    (run : NewRun d r typeName form c before after sub)
    (hkeys : ∀ key p, run.type.predicate? key = some p → Facet.splitKey? key = none)
    {p : Predicate} {raw : Json} (hp : run.type.predicate? p.name = some p)
    (h : form.Sets [] p raw) : ∃ supply supply' objects,
      p.validate raw supply = .ok (objects.map (·.value), supply') ∧
        run.filled.fields.get? p.name = some objects := by
  cases h with
  | said hmem =>
    obtain ⟨q, supply, supply', objects, hq, hvalidate, hget⟩ :=
      Form.read_values run.reads hmem (hkeys _ p hp)
    obtain rfl : p = q := Option.some.inj (hp.symm.trans hq)
    refine ⟨supply, supply', objects, hvalidate, ?_⟩
    rw [applyDefaults_kept (.inl (by rw [Table.contains, hget]; rfl)) run.fills, hget]
  | default _ hunsaid hraw hopen hstatus =>
    have hunset : run.fields.get? p.name = none := by
      refine Form.read_eq_none (fun raw hmem => ?_) run.reads
      have hsaid := Table.get?_eq_some_iff.2 (List.mem_filter.1 hmem).1
      rw [hunsaid] at hsaid
      cases hsaid
    obtain ⟨supply, supply', values, hvalidate, hget⟩ :=
      applyDefaults_sets (fun _ hp => run.predicate?_eq hschema hp) (List.mem_of_find?_eq_some hp)
        hraw hopen hstatus (by rw [Table.contains, hunset]; rfl) run.fills
    exact ⟨supply, supply', _, by rw [Form.map_value_plain]; exact hvalidate, hget⟩

/-- What the form of a change says of a field is read. -/
theorem EditRun.formed (run : EditRun d r typeName form c before after sub) {p : Predicate}
    {raw : Json} (hkey : Facet.splitKey? p.name = none) (hp : run.type.predicate? p.name = some p)
    (h : form.Sets ["uid"] p raw) : ∃ supply supply' objects,
      p.validate raw supply = .ok (objects.map (·.value), supply') ∧
        run.fields.get? p.name = some objects := by
  cases h with
  | said hmem =>
    obtain ⟨q, supply, supply', objects, hq, hvalidate, hget⟩ := Form.read_values run.reads hmem hkey
    obtain rfl : p = q := Option.some.inj (hp.symm.trans hq)
    exact ⟨supply, supply', objects, hvalidate, hget⟩
  | default hnew _ _ _ _ => cases hnew

theorem NewRun.filled_spec (hschema : d.schema.WellFormed)
    (run : NewRun d r typeName form c before after sub) :
    FieldsRead run.type run.filled.fields ∧
      run.filled.subject = .new (BlankNode.fresh run.afterRead.supply).1 :=
  applyDefaults_hold (P := Predicate.Reads) (fun _ hp => run.predicate?_eq hschema hp)
    (fun _ raw _ _ _ _ _ _ ⟨supply, supply', hvalidate⟩ => ⟨raw, supply, supply', hvalidate⟩)
    (Form.read_fieldsRead run.reads) run.fills

/-- The entry of a new submission is a new node, and all of its values can be stored. -/
theorem newEntry_entry (hschema : d.schema.WellFormed)
    (h : (newEntry d r typeName form c).Yields before sub after) :
    (∃ node, sub.entry.subject = .new node) ∧ sub.entry.IsStorable ∧
      sub.mutation.set = sub.entry.statements d.schema ++
        Mutation.satelliteStatements d.schema sub.related := by
  obtain ⟨run⟩ := newEntry_yields.1 h
  obtain ⟨hfilled, hsubject⟩ := run.filled_spec hschema
  obtain ⟨hresolved, hlabels⟩ := resolveRelated_fields run.resolves
  obtain ⟨hnamed, hstorable⟩ := withUniqueName_spec run.names
  obtain ⟨m, -, -, -, hset⟩ := Mutation.compile_ok run.compiles
  refine ⟨⟨(BlankNode.fresh run.afterRead.supply).1, ?_⟩, ?_, ?_⟩
  · calc sub.entry.subject = run.named.subject := by
          rw [run.entry_eq]
          exact subject_withSystemFields _ _ _ _
      _ = run.resolved.subject := hnamed
      _ = run.filled.subject := hresolved
      _ = _ := hsubject
  · rw [run.entry_eq]
    refine isStorable_withoutEmptyFields (isStorable_withSystemFields (hstorable ?_) _ _ _)
    exact hlabels.storable run.filled.subject run.resolved.subject (hfilled.isStorable _)
  · rw [run.result]
    exact hset

/-- The entry of a change is the one that the form names. -/
theorem editEntry_entry (h : (editEntry d r typeName form c).Yields before sub after) :
    (∃ u, form.uid = .ok u ∧ sub.entry.subject = .existing u) ∧ sub.entry.IsStorable ∧
      sub.mutation.set = sub.entry.statements d.schema ++
        Mutation.satelliteStatements d.schema sub.related := by
  obtain ⟨run⟩ := editEntry_yields.1 h
  obtain ⟨hresolved, hlabels⟩ := resolveRelated_fields run.resolves
  obtain ⟨m, -, -, -, hset⟩ := Mutation.compile_ok run.compiles
  refine ⟨⟨run.uid, run.hasUid, ?_⟩, ?_, ?_⟩
  · rw [run.entry_eq]
    exact (subject_changed _ _ _ _ _).trans hresolved
  · rw [run.entry_eq]
    refine isStorable_withoutEmptyFields (isStorable_withEditHistory ?_ _ _ _)
    exact hlabels.storable (.existing run.uid) run.resolved.subject
      ((Form.read_fieldsRead run.reads).isStorable _)
  · rw [run.result]
    exact hset

end Submissions

end PressRegister
