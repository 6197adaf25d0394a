import PressRegister.Proofs.Inventory.Registry
import PressRegister.Proofs.Submission.Entries

/-!
# Required fields of stored entries

A new entry has a value for every required field. A change is not checked for that: a
field that its form leaves empty is cleared. So a required field that is stored at its
entry alone keeps a value throughout a run of submissions exactly if no change in the
run clears it without giving it a new one.

## Main definitions

* `Submission.Empties`: a submission takes all values of a field from an entry.
* `Submitted`: a submission is made in one store, and its commit leads to another.
* `Run`: submissions that are made and committed one after another.

## Main results

* `EditRun.empties_iff`: a change empties the fields that its form leaves empty.
* `Run.kept_iff`: when a field keeps a value throughout a run.
* `Inventory.required_kept_iff`: the same for the required fields of a new entry.
-/

namespace PressRegister

open Consult Store

namespace Submission

/-- The predicates that a submission clears. -/
def cleared (sub : Submission) : List String :=
  sub.overwrites.flatMap (·.2)

/-- A submission takes all values of a field from an entry: it clears the field and gives it
no new values. -/
def Empties (sub : Submission) (w name : String) : Prop :=
  ∃ u, sub.entry.subject = .existing u ∧ u.text = w ∧ name ∈ sub.cleared ∧
    sub.entry.operands name = []

/-- What the mutation of a submission does. -/
structure Written (schema : Schema) (sub : Submission) : Prop where
  node : sub.entry.subject.isNode = true
  storable : sub.entry.IsStorable
  set : sub.mutation.set =
    sub.entry.statements schema ++ Mutation.satelliteStatements schema sub.related
  /-- Nothing is cleared but predicates of an entry that is stored. -/
  deletes : ∃ u m, (sub.cleared ≠ [] → sub.entry.subject = .existing u) ∧
    Mutation.clearings schema (sub.cleared.map fun name => (u, name)) = .ok m ∧
    sub.mutation.prelude = m.prelude ∧ sub.mutation.delete = m.delete

end Submission

section Written

variable {d : Directory} {r : Resolver} {typeName : String} {form : Form} {c : Context}
  {before after : Desk} {sub : Submission}

theorem newEntry_written (hschema : d.schema.WellFormed)
    (h : (newEntry d r typeName form c).Yields before sub after) : sub.Written d.schema := by
  obtain ⟨⟨node, hnode⟩, hstorable, hset⟩ := newEntry_entry hschema h
  obtain ⟨run⟩ := newEntry_yields.1 h
  obtain ⟨m, hm, hprelude, hdelete, -⟩ := Mutation.compile_ok run.compiles
  have hcleared : sub.cleared = [] := by
    rw [run.result]
    rfl
  refine ⟨by rw [hnode]; rfl, hstorable, hset, Uid.ofNat 0, m, fun h => absurd hcleared h, ?_⟩
  rw [hcleared, run.result]
  exact ⟨hm, hprelude, hdelete⟩

theorem flatMap_overwritesOf (u : Uid) (names : List String) :
    ((overwritesOf u names).flatMap fun o => o.2.map fun name => (o.1, name)) =
      names.map fun name => (u, name) := by
  cases names <;> simp [overwritesOf]

theorem EditRun.cleared_eq (run : EditRun d r typeName form c before after sub) : sub.cleared =
    (changed c run.type (run.info.status.getD .pending) run.status run.resolved).2 := by
  have hoverwrites : sub.overwrites = overwritesOf run.uid
      (changed c run.type (run.info.status.getD .pending) run.status run.resolved).2 :=
    congrArg Submission.overwrites run.result
  rw [Submission.cleared, hoverwrites, overwritesOf]
  split
  · rename_i hempty
    exact (List.isEmpty_iff.1 hempty).symm
  · simp

theorem editEntry_written (h : (editEntry d r typeName form c).Yields before sub after) :
    sub.Written d.schema := by
  obtain ⟨⟨u, hu, hsubject⟩, hstorable, hset⟩ := editEntry_entry h
  obtain ⟨run⟩ := editEntry_yields.1 h
  obtain rfl : run.uid = u := Except.ok.inj (run.hasUid.symm.trans hu)
  obtain ⟨m, hm, hprelude, hdelete, -⟩ := Mutation.compile_ok run.compiles
  rw [flatMap_overwritesOf, ← run.cleared_eq] at hm
  have hmutation : sub.mutation = run.mutation := congrArg Submission.mutation run.result
  rw [← hmutation] at hprelude hdelete
  exact ⟨by rw [hsubject]; rfl, hstorable, hset, run.uid, m, fun _ => hsubject, hm, hprelude,
    hdelete⟩

/-- A change clears the fields that it leaves without a value and those that are overwritten. -/
theorem mem_clearedFields {t : TypeDef} {e : Entity} {name : String} :
    name ∈ clearedFields t e ↔ ∃ values, e.fields.get? name = some values ∧
      (values = [] ∨ ∃ p, t.predicate? name = some p ∧ p.overwrite = true) := by
  have hcleared (values : List Object) : (values.isEmpty ||
      ((t.predicate? name).map (·.overwrite)).getD false) = true ↔
        values = [] ∨ ∃ p, t.predicate? name = some p ∧ p.overwrite = true := by
    cases t.predicate? name <;> simp
  unfold clearedFields
  rw [List.mem_map]
  constructor
  · rintro ⟨⟨key, values⟩, hentry, rfl⟩
    obtain ⟨hmem, hclears⟩ := List.mem_filter.1 hentry
    exact ⟨values, Table.get?_eq_some_iff.2 hmem, (hcleared values).1 hclears⟩
  · rintro ⟨values, hget, hclears⟩
    exact ⟨(name, values),
      List.mem_filter.2 ⟨Table.get?_eq_some_iff.1 hget, (hcleared values).2 hclears⟩, rfl⟩

/-- What a change clears apart from what the system sets. -/
theorem EditRun.mem_cleared_iff (run : EditRun d r typeName form c before after sub) {name : String}
    (hname : name ∉ historyFields) :
    name ∈ sub.cleared ↔ name ∈ clearedFields run.type run.resolved := by
  rw [run.cleared_eq]
  simp only [changed, List.mem_append]
  refine or_iff_left fun hmem => hname ?_
  rw [eq_of_mem_withEditHistory hmem]
  decide

/-- What a change says of its entry apart from what the system sets. -/
theorem EditRun.operands_eq (run : EditRun d r typeName form c before after sub) {name : String}
    (hname : name ∉ historyFields) : sub.entry.operands name = run.resolved.operands name := by
  rw [run.entry_eq]
  simp only [changed]
  rw [operands_withoutEmptyFields, Entity.operands, get?_withEditHistory hname, Entity.operands]

/-- A change empties those fields of its entry that its form leaves empty, apart from what the
system sets. -/
theorem EditRun.empties_iff (run : EditRun d r typeName form c before after sub) {w name : String}
    (hname : name ∉ historyFields) :
    sub.Empties w name ↔ run.uid.text = w ∧ run.fields.get? name = some [] := by
  obtain ⟨⟨u, hu, hsubject⟩, -, -⟩ := editEntry_entry (editEntry_yields.2 ⟨run⟩)
  obtain rfl : run.uid = u := Except.ok.inj (run.hasUid.symm.trans hu)
  obtain ⟨-, hlabels⟩ := resolveRelated_fields run.resolves
  unfold Submission.Empties
  rw [run.operands_eq hname, run.mem_cleared_iff hname, ← hlabels.cleared name, mem_clearedFields]
  constructor
  · rintro ⟨u, hu', hw, ⟨objects, hget, -⟩, hempty⟩
    obtain rfl : run.uid = u := Subject.existing.inj (hsubject.symm.trans hu')
    rw [Entity.operands, hget, Option.getD_some, List.map_eq_nil_iff] at hempty
    exact ⟨hw, by rw [hget, hempty]⟩
  · rintro ⟨hw, hget⟩
    exact ⟨run.uid, hsubject, hw, ⟨[], hget, .inl rfl⟩, by rw [Entity.operands, hget]; rfl⟩

end Written

/-! ### Single submissions -/

/-- A field that has its edge to itself is only cleared at its own node. -/
theorem Mutation.clears_own {schema : Schema} {s : Store} {u : Uid} {name other w v : String}
    {p : Predicate} (hown : schema.IsOwn name) (hp : schema.predicate? other = some p) :
    Clears s u other p w name v ↔ other = name ∧ w = u.text := by
  have hdir : schema.direction? other = p.direction? := by
    rw [Schema.direction?, hp]
    rfl
  -- a field that is stored elsewhere, or at both ends, is not stored under this edge
  have hother : other = name → p.direction? = none ∨ p.direction? = some .forward := by
    rintro rfl
    rw [← hdir]
    exact hown.1
  unfold Clears
  split
  · rename_i edge hreverse
    have hedge : schema.edge other = edge := by
      unfold Schema.edge
      rw [hdir, hreverse]
    constructor
    · rintro ⟨rfl, -⟩
      by_cases heq : other = name
      · rcases hother heq with h | h <;> rw [hreverse] at h <;> cases h
      · exact absurd hedge (hown.2 other heq)
    · rintro ⟨heq, -⟩
      rcases hother heq with h | h <;> rw [hreverse] at h <;> cases h
  · rename_i hmutual
    constructor
    · rintro ⟨heq, -⟩
      rcases hother heq.symm with h | h <;> rw [hmutual] at h <;> cases h
    · rintro ⟨heq, -⟩
      rcases hother heq with h | h <;> rw [hmutual] at h <;> cases h
  · exact and_congr eq_comm Iff.rfl

namespace Submission

variable {schema : Schema} {s : Store} {sub : Submission} {w name v : String}

/-- What is struck of a field that has its edge to itself. -/
theorem Written.struck_iff (h : sub.Written schema) (hown : schema.IsOwn name)
    (hv : v ∈ s.valuesAt w name) :
    struck (s.bind sub.mutation.prelude) sub.mutation.delete w name v = true ↔
      name ∈ sub.cleared ∧ ∃ u, sub.entry.subject = .existing u ∧ u.text = w := by
  obtain ⟨u, m, hsubject, hm, hprelude, hdelete⟩ := h.deletes
  rw [hprelude, hdelete, Mutation.struck_clearings hm hv]
  constructor
  · rintro ⟨other, hother, p, hp, hclears⟩
    obtain ⟨rfl, rfl⟩ := (Mutation.clears_own hown hp).1 hclears
    exact ⟨hother, u, hsubject (List.ne_nil_of_mem hother), rfl⟩
  · rintro ⟨hname, u', hu', rfl⟩
    obtain rfl : u = u' :=
      Subject.existing.inj ((hsubject (List.ne_nil_of_mem hname)).symm.trans hu')
    obtain ⟨p, hp⟩ := (Mutation.clearings_ok hm).1 name hname
    exact ⟨name, hname, p, hp, (Mutation.clears_own hown hp).2 ⟨rfl, rfl⟩⟩

/-- If the entry has values, its node and some of them are stored. -/
theorem Written.storedValues_ne_nil (h : sub.Written schema) (hown : schema.IsOwn name)
    (hvalues : sub.entry.operands name ≠ []) :
    ∃ w, sub.entry.subject.stored? (commit schema s sub.mutation).2 = some w ∧
      sub.entry.storedValues (commit schema s sub.mutation).2 name ≠ [] := by
  obtain ⟨v, hv⟩ := List.exists_mem_of_ne_nil _ hvalues
  obtain ⟨o, ho, rfl⟩ := List.mem_map.1 hv
  have hstorable : o.value.isStorable = true := by
    cases hget : sub.entry.fields.get? name with
    | none => simp [hget] at ho
    | some objects =>
      rw [hget] at ho
      exact h.storable name objects hget o ho
  obtain ⟨w, x, hw, hx⟩ := Entity.exists_stored_own (s := s) (m := sub.mutation) h.node hown.1 ho
    hstorable fun d hd => by rw [h.set]; exact List.mem_append_left _ hd
  exact ⟨w, hw, List.ne_nil_of_mem (Entity.mem_storedValues.2 ⟨o, ho, hx⟩)⟩

/-- Values of the entry are told of its node. -/
theorem Written.told_ne_nil (h : sub.Written schema) (hown : schema.IsOwn name)
    (hvalues : sub.entry.operands name ≠ []) :
    ∃ w, sub.entry.subject.stored? (commit schema s sub.mutation).2 = some w ∧
      told (commit schema s sub.mutation).2 w name sub.mutation.set ≠ [] := by
  obtain ⟨w, hw, hstored⟩ := h.storedValues_ne_nil (s := s) hown hvalues
  refine ⟨w, hw, ?_⟩
  rw [h.set, told_append, Entity.told_own hown, if_pos hw]
  exact List.append_ne_nil_of_left_ne_nil hstored _

/-- A submission that does not empty a field leaves it a value. -/
theorem Written.kept (h : sub.Written schema) (hown : schema.IsOwn name)
    (hname : name ≠ Search.typeKey) (hvalues : s.valuesAt w name ≠ [])
    (hempties : ¬ sub.Empties w name) : (commit schema s sub.mutation).1.valuesAt w name ≠ [] := by
  rw [commit_valuesAt _ _ _ _ hname, Ne, setValues_eq_nil]
  rintro ⟨hold, htold⟩
  obtain ⟨v, hv⟩ := List.exists_mem_of_ne_nil _ hvalues
  have hstruck : struck (s.bind sub.mutation.prelude) sub.mutation.delete w name v = true := by
    have hfilter := List.filter_eq_nil_iff.1 hold v hv
    simpa using hfilter
  obtain ⟨hcleared, u, hsubject, hw⟩ := (h.struck_iff hown hv).1 hstruck
  refine hempties ⟨u, hsubject, hw, hcleared, ?_⟩
  by_contra hne
  obtain ⟨w', hw', hne'⟩ := h.told_ne_nil (s := s) hown hne
  rw [hsubject] at hw'
  obtain rfl : u.text = w' := Option.some.inj hw'
  exact hne' (hw ▸ htold)

/-- A submission that empties a field of a stored node leaves it no value. -/
theorem Written.emptied (h : sub.Written schema) (hown : schema.IsOwn name)
    (hname : name ≠ Search.typeKey) {n : Nat} (hw : w = (Uid.ofNat n).text) (hn : n ≤ s.lastUid)
    (hempties : sub.Empties w name) : (commit schema s sub.mutation).1.valuesAt w name = [] := by
  obtain ⟨u, hsubject, hu, hcleared, hvalues⟩ := hempties
  rw [commit_valuesAt _ _ _ _ hname, setValues_eq_nil]
  constructor
  · refine List.filter_eq_nil_iff.2 fun v hv => ?_
    rw [(h.struck_iff hown hv).2 ⟨hcleared, u, hsubject, hu⟩]
    decide
  · rw [List.eq_nil_iff_forall_not_mem]
    intro v hv
    rw [h.set, told_append, Entity.told_own hown] at hv
    rcases List.mem_append.1 hv with hv | hv
    · rw [Entity.storedValues_eq, hvalues] at hv
      simp at hv
    · obtain ⟨t, -, ht, -⟩ := (Mutation.mem_told_satellites hown hname).1 hv
      -- new nodes get numbers above all that were given before
      obtain ⟨m, hm, -, heq⟩ := (commit_allots schema s sub.mutation).numbered ht
      have hsame := Uid.ofNat_injective (hw.symm.trans heq)
      omega

end Submission

/-! ### Runs -/

/-- A submission is made in a store, by anyone and with any resolver. -/
inductive Submitted (schema : Schema) (s : Store) (sub : Submission) : Prop
  | new {fixed : Option Json} {r : Resolver} {typeName : String} {form : Form} {c : Context}
      {before after : Desk}
      (h : (newEntry (s.directory schema fixed) r typeName form c).Yields before sub after)
  | edit {fixed : Option Json} {r : Resolver} {typeName : String} {form : Form} {c : Context}
      {before after : Desk}
      (h : (editEntry (s.directory schema fixed) r typeName form c).Yields before sub after)

/-- Submissions that are made one after another, each with the store that its commit leaves. -/
inductive Run (schema : Schema) : Store → List (Submission × Store) → Prop
  | nil (s : Store) : Run schema s []
  | cons {s : Store} {sub : Submission} {rest : List (Submission × Store)}
      (hsub : Submitted schema s sub)
      (hrest : Run schema (commit schema s sub.mutation).1 rest) :
      Run schema s ((sub, (commit schema s sub.mutation).1) :: rest)

theorem Submitted.written {schema : Schema} {s : Store} {sub : Submission}
    (hschema : schema.WellFormed) (h : Submitted schema s sub) : sub.Written schema := by
  cases h with
  | new h => exact newEntry_written hschema h
  | edit h => exact editEntry_written h

/-- A field of a stored node that has its edge to itself keeps a value throughout a run exactly
if no submission of the run empties it. -/
theorem Run.kept_iff {schema : Schema} (hschema : schema.WellFormed) {w name : String}
    (hown : schema.IsOwn name) (hname : name ≠ Search.typeKey) {n : Nat}
    (hw : w = (Uid.ofNat n).text) {s : Store} {steps : List (Submission × Store)}
    (h : Run schema s steps) (hn : n ≤ s.lastUid) (hvalues : s.valuesAt w name ≠ []) :
    (∀ step ∈ steps, step.2.valuesAt w name ≠ []) ↔ ∀ step ∈ steps, ¬ step.1.Empties w name := by
  induction h with
  | nil s => simp
  | @cons s sub rest hsub hrest ih =>
    have hwritten := hsub.written hschema
    have hn' : n ≤ (commit schema s sub.mutation).1.lastUid :=
      Nat.le_trans hn (commit_allots schema s sub.mutation).low_le
    simp only [List.forall_mem_cons]
    constructor
    · rintro ⟨hfirst, hall⟩
      exact ⟨fun hempties => hfirst (hwritten.emptied hown hname hw hn hempties),
        (ih hn' hfirst).1 hall⟩
    · rintro ⟨hfirst, hall⟩
      have hkept := hwritten.kept hown hname hvalues hfirst
      exact ⟨hkept, (ih hn' hkept).2 hall⟩

/-- A new entry has a value for every required field. -/
theorem newEntry_required {d : Directory} {r : Resolver} {typeName : String} {form : Form}
    {c : Context} {before after : Desk} {sub : Submission} (hschema : d.schema.WellFormed)
    (h : (newEntry d r typeName form c).Yields before sub after) {t : TypeDef}
    (ht : d.schema.types.get? sub.typeName = some t) {p : Predicate} (hp : p ∈ t.predicates)
    (hrequired : p.required = true) (hreadOnly : p.readOnly = false) :
    sub.entry.operands p.name ≠ [] := by
  obtain ⟨run⟩ := newEntry_yields.1 h
  have htype : sub.typeName = run.type.name := congrArg Submission.typeName run.result
  rw [htype, hschema.get?_of_type? (entryType_ok run.isType)] at ht
  obtain rfl := Option.some.inj ht
  have hvalues := checkRequired_ok run.complete hp hrequired hreadOnly
  rw [← run.entry_eq] at hvalues
  simpa [Entity.operands] using hvalues

namespace Inventory

/-- Required fields of the inventory have their edges to themselves. -/
theorem isOwn_of_required {t : TypeDef} {key : String} (ht : schema.types.get? key = some t)
    {p : Predicate} (hp : p ∈ t.predicates) (hrequired : p.required = true) :
    schema.IsOwn p.name ∧ p.name ≠ Search.typeKey := by
  -- no required field is kept at other nodes: those that are go by two edges
  have h : ((schema.predicates.values.all fun q => [none, some .forward, some .mutual,
      some (.reverse "publishes"), some (.reverse "sources_included")].contains q.direction?) &&
      schema.types.values.all fun t => t.predicates.all fun p => !p.required ||
        (schema.direction? p.name == none || schema.direction? p.name == some .forward) &&
          not (["publishes", "sources_included", Search.typeKey].contains p.name)) = true := by
    rewrite [schema_eq]
    decide +kernel
  obtain ⟨hreverse, hforward⟩ := Bool.and_eq_true_iff.1 h
  have hp' := List.all_eq_true.1 (List.all_eq_true.1 hforward t
    (Table.mem_values_iff.2 ⟨key, ht⟩)) p hp
  simp only [hrequired, Bool.not_true, Bool.false_or, Bool.and_eq_true, Bool.or_eq_true,
    beq_iff_eq, Bool.not_eq_true', List.contains_eq_mem, decide_eq_false_iff_not, List.mem_cons,
    List.not_mem_nil, or_false, not_or] at hp'
  obtain ⟨hdir, hpublishes, hsources, htype⟩ := hp'
  refine ⟨Schema.isOwn_of_forall hdir fun q hq hback => ?_, htype⟩
  have hq' := List.all_eq_true.1 hreverse q hq
  rw [hback] at hq'
  simp only [List.contains_eq_mem, List.mem_cons, List.not_mem_nil, or_false, decide_eq_true_eq,
    reduceCtorEq, Option.some.injEq, Direction.reverse.injEq, false_or] at hq'
  rcases hq' with hq' | hq'
  · exact hpublishes hq'
  · exact hsources hq'

/-- In every store of a run after a new entry, the entry has a value for a required field,
exactly if no submission of the run empties the field. -/
theorem required_kept_iff {s : Store} {fixed : Option Json} {r : Resolver} {typeName : String}
    {form : Form} {c : Context} {before after : Desk} {created : Submission}
    (hnew : (newEntry (s.directory schema fixed) r typeName form c).Yields before created after)
    {steps : List (Submission × Store)}
    (hrun : Run schema (commit schema s created.mutation).1 steps)
    {w : String} (hw : created.entry.subject.stored? (commit schema s created.mutation).2 = some w)
    {t : TypeDef} (ht : schema.types.get? created.typeName = some t) {p : Predicate}
    (hp : p ∈ t.predicates) (hrequired : p.required = true) (hreadOnly : p.readOnly = false) :
    (∀ s' ∈ (commit schema s created.mutation).1 :: steps.map Prod.snd,
        s'.valuesAt w p.name ≠ []) ↔
      ∀ step ∈ steps, ¬ step.1.Empties w p.name := by
  obtain ⟨hown, hname⟩ := isOwn_of_required ht hp hrequired
  have hwritten : created.Written schema := newEntry_written wellFormed hnew
  have hvalues : (commit schema s created.mutation).1.valuesAt w p.name ≠ [] := by
    obtain ⟨w', hw', htold⟩ := hwritten.told_ne_nil (s := s) hown
      (newEntry_required wellFormed hnew ht hp hrequired hreadOnly)
    obtain rfl : w = w' := Option.some.inj (hw.symm.trans hw')
    rw [commit_valuesAt _ _ _ _ hname, Ne, setValues_eq_nil]
    exact fun h => htold h.2
  obtain ⟨n, -, hn, hnumber⟩ : ∃ n, s.lastUid < n ∧
      n ≤ (commit schema s created.mutation).1.lastUid ∧ w = (Uid.ofNat n).text := by
    obtain ⟨⟨node, hnode⟩, -⟩ := newEntry_entry wellFormed hnew
    rw [hnode] at hw
    exact (commit_allots schema s created.mutation).numbered hw
  have hkept := hrun.kept_iff wellFormed hown hname hnumber hn hvalues
  simp only [List.forall_mem_cons, List.forall_mem_map]
  exact ⟨fun h => hkept.1 h.2, fun h => ⟨hvalues, hkept.2 h⟩⟩

/-! ### A format that loses its name -/

/-- A reviewer who submits. -/
def reviewer : Context := ⟨Uid.ofNat 1, .reviewer, "", ⟨0, 0⟩, false⟩

/-- The form of a new file format. -/
def formatForm : Form :=
  Table.empty.insert "name" (.string "CSV")

/-- The form of a change that leaves the name of the file format empty. -/
def namelessForm : Form :=
  (Table.empty.insert "uid" (.string "0x100")).insert "name" (.string "")

/-- The file format is submitted and then changed, and has no name in the end. -/
theorem exists_format : ∃ created change after t p,
    (newEntry (Store.empty.directory schema none) stubResolver "FileFormat" formatForm
      reviewer).Yields Desk.clean created after ∧
    Run schema (commit schema Store.empty created.mutation).1
      [(change, (commit schema (commit schema Store.empty created.mutation).1
        change.mutation).1)] ∧
    created.entry.subject.stored? (commit schema Store.empty created.mutation).2 =
      some "0x100" ∧
    schema.types.get? created.typeName = some t ∧ p ∈ t.predicates ∧ p.required = true ∧
    p.readOnly = false ∧
    (commit schema (commit schema Store.empty created.mutation).1 change.mutation).1.valuesAt
      "0x100" p.name = [] := by
  have h : (((newEntry (Store.empty.directory schema none) stubResolver "FileFormat" formatForm
      reviewer).outcome Desk.clean).1.toOption.any fun created =>
        let s := (commit schema Store.empty created.mutation).1
        ((editEntry (s.directory schema none) stubResolver "FileFormat" namelessForm
          reviewer).outcome Desk.clean).1.toOption.any fun change =>
        (created.entry.subject.stored? (commit schema Store.empty created.mutation).2 ==
          some "0x100") &&
        (schema.types.get? created.typeName).any fun t => t.predicates.any fun p =>
          p.required && !p.readOnly &&
            ((commit schema s change.mutation).1.valuesAt "0x100" p.name).isEmpty) = true := by
    rewrite [schema_eq, Store.directory_eq]
    decide +kernel
  obtain ⟨created, after, hnew, h⟩ := exists_yields h
  obtain ⟨change, _, hedit, h⟩ := exists_yields h
  simp only [Bool.and_eq_true, beq_iff_eq, Option.any_eq_true, List.any_eq_true,
    Bool.not_eq_true', List.isEmpty_iff] at h
  obtain ⟨hsubject, t, ht, p, hp, ⟨hrequired, hreadOnly⟩, hvalues⟩ := h
  exact ⟨created, change, after, t, p, hnew, .cons (.edit hedit) (.nil _), hsubject, ht, hp,
    hrequired, hreadOnly, hvalues⟩

/-- The file format keeps its name exactly under the condition on the change. -/
theorem required_kept_iff_format : ∃ created change after t p,
    (newEntry (Store.empty.directory schema none) stubResolver "FileFormat" formatForm
      reviewer).Yields Desk.clean created after ∧
    Run schema (commit schema Store.empty created.mutation).1
      [(change, (commit schema (commit schema Store.empty created.mutation).1
        change.mutation).1)] ∧
    created.entry.subject.stored? (commit schema Store.empty created.mutation).2 =
      some "0x100" ∧
    schema.types.get? created.typeName = some t ∧ p ∈ t.predicates ∧ p.required = true ∧
    p.readOnly = false ∧
    ((∀ s' ∈ [(commit schema Store.empty created.mutation).1,
        (commit schema (commit schema Store.empty created.mutation).1 change.mutation).1],
          s'.valuesAt "0x100" p.name ≠ []) ↔
      ∀ step ∈ [(change, (commit schema (commit schema Store.empty created.mutation).1
        change.mutation).1)], ¬ step.1.Empties "0x100" p.name) := by
  obtain ⟨created, change, after, t, p, hnew, hrun, hsubject, ht, hp, hrequired, hreadOnly, -⟩ :=
    exists_format
  exact ⟨created, change, after, t, p, hnew, hrun, hsubject, ht, hp, hrequired, hreadOnly,
    required_kept_iff hnew hrun hsubject ht hp hrequired hreadOnly⟩

/-- The file format loses its name, which is required, in a run that starts from a store
without entries. -/
theorem format_loses_name :
    ¬ ∀ fixed r typeName form c before created after,
      (newEntry (Store.empty.directory schema fixed) r typeName form c).Yields before created
        after →
      ∀ steps, Run schema (commit schema Store.empty created.mutation).1 steps →
      ∀ w, created.entry.subject.stored? (commit schema Store.empty created.mutation).2 = some w →
      ∀ t, schema.types.get? created.typeName = some t →
      ∀ p ∈ t.predicates, p.required = true → p.readOnly = false →
      ∀ s' ∈ (commit schema Store.empty created.mutation).1 :: steps.map Prod.snd,
        s'.valuesAt w p.name ≠ [] := by
  intro hall
  obtain ⟨created, change, after, t, p, hnew, hrun, hsubject, ht, hp, hrequired, hreadOnly,
    hvalues⟩ := exists_format
  refine hall _ _ _ _ _ _ _ _ hnew _ hrun _ hsubject t ht p hp hrequired hreadOnly
    (commit schema (commit schema Store.empty created.mutation).1 change.mutation).1 ?_ hvalues
  exact List.mem_cons_of_mem _ List.mem_cons_self

end Inventory

end PressRegister
