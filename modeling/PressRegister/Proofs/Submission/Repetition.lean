import PressRegister.Proofs.Submission.Cleanup
import PressRegister.Proofs.Submission.Inheritance
import PressRegister.Proofs.Submission.Unlabelled
import PressRegister.Proofs.Workspace.Reviewer

/-!
# Changes that are repeated

A change by an unlabelled form that is made once more changes nothing. The second change finds the
entry in the status that the first one has led to, so it neither moves it on nor names a reviewer.
In all other fields it clears and tells what the first one has cleared and told. Of the values that
a change tells of a node under one edge, it clears all or none: so those that are cleared are told
again, in the same order, and the others are there.

## Main definitions

* `Store.Agrees`: two stores have the same nodes, types and values.

## Main results

* `setValues_filter_again`: values that are set again beside those that are kept.
* `EditRun.takes_of_told`: of the values that a change tells of a node, it takes all or none.
* `EditRun.agrees_again`: a change that is repeated changes nothing.
* `Inventory.edit_again`: in particular for the types of the register.
-/

namespace PressRegister

open Consult Store

/-- Two stores have the same nodes, of the same types and with the same values in order. -/
structure Store.Agrees (s s' : Store) : Prop where
  nodes : ∀ w, s.node? w ≠ none ↔ s'.node? w ≠ none
  types : ∀ w, s.typesAt w = s'.typesAt w
  values : ∀ w q, q ≠ Search.typeKey → s.valuesAt w q = s'.valuesAt w q

/-- If all of the values that are set are kept, or none, then to set them again beside those that
are kept changes nothing. -/
theorem setValues_filter_again {isList : Bool} {old vs : List String} {keep : String → Bool}
    (h : (∀ v ∈ vs, keep v = true) ∨ ∀ v ∈ vs, keep v = false) :
    setValues isList ((setValues isList (old.filter keep) vs).filter keep) vs =
      setValues isList (old.filter keep) vs := by
  rcases h with hall | hnone
  · have hkept : ∀ v ∈ setValues isList (old.filter keep) vs, keep v = true := by
      intro v hv
      rcases mem_setValues_of_mem hv with hv | hv
      · exact (List.mem_filter.1 hv).2
      · exact hall v hv
    rw [List.filter_eq_self.2 hkept, setValues_again]
  · cases isList with
    | true =>
      have hnew : ((Predicate.withoutRepeats vs).filter (!(old.filter keep).contains ·)).filter
          keep = [] := by
        refine List.filter_eq_nil_iff.2 fun v hv => ?_
        rw [hnone v (Predicate.mem_withoutRepeats.1 (List.mem_filter.1 hv).1)]
        exact Bool.false_ne_true
      have hkept : (setValues true (old.filter keep) vs).filter keep = old.filter keep := by
        rw [setValues_true, List.filter_append, hnew, List.append_nil, List.filter_filter]
        simp only [Bool.and_self]
      rw [hkept]
    | false =>
      rw [setValues_false, setValues_false]
      cases vs.getLast? with
      | some v => rfl
      | none =>
        simp only [Option.map_none, Option.getD_none, List.filter_filter, Bool.and_self]

/-! ### Statements about stored nodes -/

/-- Neither end of a statement is a new node. -/
def Statement.IsSettled (d : Statement) : Prop :=
  (∀ b, d.subject ≠ .new b) ∧ ∀ b, d.object.value ≠ .new b

theorem Statement.IsSettled.tells?_eq {d : Statement} (h : d.IsSettled) (uids uids' : NewUids)
    (w q : String) : d.tells? uids' w q = d.tells? uids w q := by
  have hsubject : d.subject.stored? uids' = d.subject.stored? uids := by
    cases hx : d.subject with
    | new b => exact absurd hx (h.1 b)
    | _ => rfl
  have hobject : d.object.value.stored? uids' = d.object.value.stored? uids := by
    cases hx : d.object.value with
    | new b => exact absurd hx (h.2 b)
    | _ => rfl
  rw [tells?, tells?, hsubject, hobject]

namespace Entity

variable {schema : Schema} {e e' : Entity} {u : Uid} {uids uids' : NewUids} {w q v : String}

/-- The statements of a stored node with settled fields are about stored nodes. -/
theorem isSettled_of_mem_statements (hsubject : e.subject = .existing u)
    (hfields : e.fields.IsSettled) {d : Statement} (hd : d ∈ e.statements schema) :
    d.IsSettled := by
  obtain ⟨name, values, hvalues, o, ho, hd⟩ := mem_statements.1 hd
  have hvalue := hfields name values hvalues o ho
  rw [hsubject] at hd
  rcases mem_valueStatements hd with rfl | ⟨-, other, hother, rfl⟩
  · exact ⟨nofun, hvalue⟩
  · refine ⟨fun b hb => ?_, nofun⟩
    obtain rfl : other = .new b := hb
    exact hvalue b (Operand.stored?_of_subject? hother .empty).2

/-- Fields under other edges tell nothing of an edge. -/
theorem told_statements_filter (schema : Schema) (e : Entity) (uids : NewUids) (w q : String) :
    told uids w q (e.statements schema) = told uids w q
      (Entity.statements schema ⟨e.subject, e.fields.filter fun name _ => schema.edge name == q⟩) := by
  unfold told statements
  simp only [List.filterMap_flatMap]
  change _ = (e.fields.entries.filter _).flatMap _
  generalize e.fields.entries = entries
  induction entries with
  | nil => rfl
  | cons f rest ih =>
    rw [List.flatMap_cons, ih, List.filter_cons]
    split
    · rfl
    · rename_i hedge
      have hnone : (f.2.flatMap fun o => List.filterMap (·.tells? uids w q)
          (valueStatements e.subject f.1 (schema.direction? f.1) o)) = [] :=
        List.flatMap_eq_nil_iff.2 fun o _ =>
          told_valueStatements_of_ne e.subject o (by simpa using hedge)
      exact (congrArg (· ++ _) hnone).trans (List.nil_append _)

/-- What is told of an edge is said by the fields under it. Without new nodes it does not depend on
the identifiers that these are given. -/
theorem told_congr (hsubject : e.subject = .existing u) (hsame : e'.subject = e.subject)
    (hsettled : e.fields.IsSettled)
    (hfields : ∀ name, schema.edge name = q → e'.fields.get? name = e.fields.get? name) :
    told uids' w q (e'.statements schema) = told uids w q (e.statements schema) := by
  have hempty (o : Option (List Object)) : o.filter (fun _ => false) = none := by
    cases o <;> rfl
  have hfilter : (e'.fields.filter fun name _ => schema.edge name == q) =
      e.fields.filter fun name _ => schema.edge name == q := by
    refine Table.ext fun name => ?_
    simp only [Table.get?_filter]
    by_cases hedge : schema.edge name = q
    · rw [hfields name hedge]
    · have hother : (schema.edge name == q) = false := by simpa using hedge
      simp only [hother, hempty]
  calc told uids' w q (e'.statements schema)
      = told uids' w q (e.statements schema) := by
        rw [told_statements_filter, hfilter, hsame, ← told_statements_filter]
    _ = told uids w q (e.statements schema) := by
        refine List.filterMap_congr fun d hd => ?_
        exact (isSettled_of_mem_statements hsubject hsettled hd).tells?_eq uids uids' w q

/-- What the statements of an entity tell is said by a field with the edge: the entity is at one
of the two ends, and it is what a field tells that is stored at its values. -/
theorem exists_of_mem_told (hv : v ∈ told uids w q (e.statements schema)) :
    ∃ name, schema.edge name = q ∧ e.operands name ≠ [] ∧
      (e.subject.stored? uids = some w ∨ e.subject.stored? uids = some v) ∧
      ∀ edge, schema.direction? name = some (.reverse edge) → e.subject.stored? uids = some v := by
  obtain ⟨d, hd, rfl, hw, hv⟩ := mem_told.1 hv
  obtain ⟨name, values, hvalues, o, ho, hd⟩ := mem_statements.1 hd
  have hoperands : e.operands name ≠ [] := by
    rw [operands, hvalues]
    exact List.ne_nil_of_mem (List.mem_map_of_mem ho)
  refine ⟨name, (predicate_of_mem_valueStatements hd).symm, hoperands, ?_, fun edge hdir => ?_⟩
  · rcases mem_valueStatements hd with rfl | ⟨-, other, -, rfl⟩
    · exact .inl hw
    · exact .inr ((Subject.stored?_operand _ _).symm.trans hv)
  · rw [hdir, valueStatements] at hd
    cases hother : o.value.subject? with
    | none => simp [hother] at hd
    | some other =>
      simp only [hother, List.mem_singleton] at hd
      rw [hd] at hv
      exact (Subject.stored?_operand _ _).symm.trans hv

end Entity

/-- Clearing depends on a store through the types of its nodes. -/
theorem Mutation.clears_congr {s s' : Store} (htypes : ∀ w, s'.typesAt w = s.typesAt w) {u : Uid}
    {name w q v : String} {p : Predicate} :
    Clears s' u name p w q v ↔ Clears s u name p w q v := by
  unfold Clears Carries
  simp only [htypes]

/-! ### Single changes -/

/-- Apart from the status and the reviewer, a change records the user in the edit history. -/
theorem get?_withEditHistory_push {name : String} (hstatus : name ≠ ReviewStatus.predicateName)
    (hreviewer : name ≠ "reviewed_by") (c : Context) (current status : ReviewStatus) (e : Entity) :
    (withEditHistory c current status e).1.fields.get? name =
      (e.push "entry_edit_history" c.userEdge).fields.get? name := by
  unfold withEditHistory
  simp only
  split
  · rfl
  split
  all_goals simp only [Entity.set, Table.get?_insert, hstatus, hreviewer, if_false]

namespace EditRun

variable {types : List EntityType} {s : Store} {schema : Schema} {fixed : Option Json}
  {r : Resolver} {typeName : String} {form : Form} {c : Context} {before after : Desk}
  {sub : Submission} {w q v v' : String}
  (run : EditRun (s.directory schema fixed) r typeName form c before after sub)

include run

theorem isSettled_entry (hform : form.IsUnlabelled run.type) : sub.entry.fields.IsSettled := by
  intro name objects hget o ho b hb
  have hvalue : o ∈ (withEditHistory c run.current run.status run.resolved).1.values name := by
    rw [← Entity.values_withoutEmptyFields]
    rw [run.entry_eq] at hget
    exact (congrArg (o ∈ ·.getD []) hget).mpr ho
  rcases withEditHistory_addsNoNew c run.current run.status run.resolved name o hvalue with
    hmem | hnot
  · rw [Entity.values] at hmem
    cases hresolved : run.resolved.fields.get? name with
    | none => simp [hresolved] at hmem
    | some values =>
      rw [hresolved] at hmem
      exact (run.settled hform).1 name values hresolved o hmem b hb
  · exact hnot b hb

/-- Without nodes beside the entry, its own statements are all that is told. -/
theorem told_eq (hform : form.IsUnlabelled run.type) (uids : NewUids) (w q : String) :
    told uids w q sub.mutation.set = told uids w q (sub.entry.statements schema) := by
  rw [run.written.set, (run.settled hform).2, Mutation.satelliteStatements, List.flatMap_nil,
    List.append_nil]

section Told

variable (hbuild : Schema.build types = .ok schema) (hstatus : schema.KeepsStatus)
  (hschema : schema.Separates) (hown : ∀ name ∈ historyFields, schema.IsOwn name)
include hbuild hstatus hschema hown

/-- A field that is cleared and stored at its values shares its edge with no field that is set. -/
theorem eq_of_edge {name other edge : String} (hname : name ∈ sub.cleared)
    (hreverse : schema.direction? name = some (.reverse edge))
    (hother : sub.entry.operands other ≠ []) (hedge : schema.edge other = edge) :
    other = name := by
  have hwell := Schema.wellFormed_of_build hbuild
  have hback : schema.PointsBack name := by
    simp [Schema.PointsBack, Schema.IsForward, hreverse]
  have hsame : schema.edge name = edge := by rw [Schema.edge, hreverse]
  obtain ⟨p, -, hp, -⟩ := run.maySet_of_pointsBack hschema hback (run.mayChange_of_cleared hname)
  by_contra hne
  by_cases hsystem : other ∈ historyFields
  · -- such a field has its edge to itself
    have hforward := Schema.edge_of_isForward (hown other hsystem).1
    exact (hown other hsystem).2 name (Ne.symm hne) (hsame.trans (hedge.symm.trans hforward))
  · obtain ⟨p', -, hp', -⟩ := (run.mayChange_of_operands hwell hstatus hother).maySet hsystem
    obtain ⟨hmem, rfl⟩ := Mutation.mem_of_predicate? hp
    obtain ⟨hmem', rfl⟩ := Mutation.mem_of_predicate? hp'
    have hcoherent := hschema.coherent run.type
      (Table.mem_values_iff.2 ⟨_, hwell.get?_of_type? (entryType_ok run.isType)⟩)
    refine hne ((hcoherent p hmem).2.2.1 p' hmem' ?_)
    rw [← (hcoherent p hmem).edge_eq, ← (hcoherent p' hmem').edge_eq, hedge, hsame]

/-- If a change takes a value from a node, then also those that it tells under the same edge. -/
theorem takes_of_told {uids : NewUids} (hv' : v' ∈ told uids w q (sub.entry.statements schema))
    (h : run.Takes w q v) : run.Takes w q v' := by
  have hentry : sub.entry.subject.stored? uids = some run.uid.text := by
    rw [run.subject_eq]
    rfl
  obtain ⟨name, hname, p, hp, hclears⟩ := h
  have hdir : schema.direction? name = p.direction? := by rw [Schema.direction?, hp]; rfl
  refine ⟨name, hname, p, hp, ?_⟩
  obtain ⟨other, hedge, hother, hend, hreverse⟩ := Entity.exists_of_mem_told hv'
  unfold Mutation.Clears at hclears ⊢
  rcases hdirection : p.direction? with _ | _ | edge | _
  · simpa only [hdirection] using hclears
  · simpa only [hdirection] using hclears
  · simp only [hdirection] at hclears ⊢
    obtain ⟨rfl, -, hcarries⟩ := hclears
    rw [hdirection] at hdir
    obtain rfl := run.eq_of_edge hbuild hstatus hschema hown hname hdir hother hedge
    exact ⟨rfl, (Option.some.inj (hentry.symm.trans (hreverse _ hdir))).symm, hcarries⟩
  · simp only [hdirection] at hclears ⊢
    obtain ⟨rfl, hw | ⟨-, hcarries⟩⟩ := hclears
    · exact ⟨rfl, .inl hw⟩
    · refine ⟨rfl, hend.imp (fun hw => ?_) fun hv' => ⟨?_, hcarries⟩⟩
      · exact (Option.some.inj (hentry.symm.trans hw)).symm
      · exact (Option.some.inj (hentry.symm.trans hv')).symm

end Told

section Commit

variable (hbuild : Schema.build types = .ok schema)

/-- A field with one value that a change by an unlabelled form does not clear has the value that
the change tells of the entry last. -/
theorem valuesAt_of_kept (hform : form.IsUnlabelled run.type) {name : String}
    (hown : schema.IsOwn name) (hname : name ≠ Search.typeKey)
    (hlist : isList schema name = false) (hkept : name ∉ sub.cleared) (w : String) :
    (commit schema s sub.mutation).1.valuesAt w name =
      ((if run.uid.text = w then sub.entry.storedValues (commit schema s sub.mutation).2 name
        else []).getLast?.map ([·])).getD (s.valuesAt w name) := by
  rw [run.written.valuesAt_of_kept hown hname hlist hkept, run.told_eq hform, Entity.told_own hown,
    run.subject_eq]
  simp only [Subject.stored?, Option.some.injEq]

/-- A field with one value that a change neither clears nor tells stays as it is. -/
theorem valuesAt_of_untold (hform : form.IsUnlabelled run.type) {name : String}
    (hown : schema.IsOwn name) (hname : name ≠ Search.typeKey)
    (hlist : isList schema name = false) (hkept : name ∉ sub.cleared)
    (hnone : sub.entry.operands name = []) (w : String) :
    (commit schema s sub.mutation).1.valuesAt w name = s.valuesAt w name := by
  rw [run.valuesAt_of_kept hform hown hname hlist hkept, Entity.storedValues_eq, hnone,
    List.filterMap_nil, ite_self]
  rfl

include hbuild

/-- A change leaves the types of nodes. -/
theorem typesAt_eq (hform : form.IsUnlabelled run.type) (w : String) :
    (commit schema s sub.mutation).1.typesAt w = s.typesAt w := by
  rw [commit_typesAt, run.told_eq hform, Entity.told_own (Schema.isOwn_typeKey hbuild),
    Entity.storedValues_eq, editEntry_types hbuild (editEntry_yields.2 ⟨run⟩), List.filterMap_nil,
    ite_self]
  rfl

/-- A change leads the entry to its status. -/
theorem statusAt_eq (hform : form.IsUnlabelled run.type) (hstatus : schema.KeepsStatus) :
    (commit schema s sub.mutation).1.statusAt run.uid.text = .ok run.status := by
  have hwell := Schema.wellFormed_of_build hbuild
  have hvalues := run.valuesAt_of_kept hform (hstatus.isOwn hbuild) (by decide)
    hstatus.isList_eq_false (run.status_not_cleared hwell hstatus) run.uid.text
  rw [if_pos rfl, Entity.storedValues_eq, run.entry_eq,
    operands_changed _ _ _ _ (run.status_resolved hwell hstatus)] at hvalues
  split at hvalues
  · rename_i hsame
    have hcurrent := (entryInfo_review (existingEntry_yields.1 run.isEntry)).1
    rw [hsame, ← hcurrent, statusAt, hvalues]
    rfl
  · rw [List.filterMap_cons, run.status.stored?_name] at hvalues
    exact statusAt_of_valuesAt hvalues

end Commit

end EditRun

/-! ### The same change again -/

namespace EditRun

variable {types : List EntityType} {s : Store} {schema : Schema} {fixed fixed' : Option Json}
  {r r' : Resolver} {typeName : String} {form : Form} {c : Context}
  {before before' after after' : Desk} {sub sub' : Submission} {w q : String}
  (run : EditRun (s.directory schema fixed) r typeName form c before after sub)
  (run' : EditRun ((commit schema s sub.mutation).1.directory schema fixed') r' typeName form c
    before' after' sub')
  (hform : form.IsUnlabelled run.type)
include run run' hform

theorem isUnlabelled_again : form.IsUnlabelled run'.type := by
  rwa [type_eq run run' rfl]

/-- Apart from the status and the reviewer, the same values are told again. -/
theorem get?_again {name : String} (hstatus : name ≠ ReviewStatus.predicateName)
    (hreviewer : name ≠ "reviewed_by") :
    sub'.entry.fields.get? name = sub.entry.fields.get? name := by
  rw [run'.entry_eq, run.entry_eq, resolved_eq run run' rfl hform]
  simp only [changed, withoutEmptyFields, Table.get?_filter,
    get?_withEditHistory_push hstatus hreviewer]

/-- Apart from the reviewer, the same fields are cleared again. -/
theorem mem_cleared_again {name : String} (hreviewer : name ≠ "reviewed_by") :
    name ∈ sub'.cleared ↔ name ∈ sub.cleared := by
  have hsystem {current status : ReviewStatus} {e : Entity} :
      name ∉ (withEditHistory c current status e).2 := fun h =>
    hreviewer (eq_of_mem_withEditHistory h)
  rw [run'.cleared_eq, run.cleared_eq]
  simp only [changed, List.mem_append, hsystem, or_false, type_eq run run' rfl,
    resolved_eq run run' rfl hform]

variable (hbuild : Schema.build types = .ok schema) (hstatus : schema.KeepsStatus)
include hbuild

/-- Under edges other than that of the reviewer, the same values are taken again. -/
theorem takes_again (hown : schema.IsOwn "reviewed_by") (hq : q ≠ "reviewed_by") (v : String) :
    run'.Takes w q v ↔ run.Takes w q v := by
  have hclears (name : String) (p : Predicate) :
      Mutation.Clears (commit schema s sub.mutation).1 run'.uid name p w q v ↔
        Mutation.Clears s run.uid name p w q v := by
    rw [uid_eq run run']
    exact Mutation.clears_congr fun w => run.typesAt_eq hbuild hform w
  refine exists_congr fun name => ?_
  by_cases hname : name = "reviewed_by"
  · -- clearing the reviewer takes nothing but the reviewer
    refine iff_of_false ?_ ?_ <;> rintro ⟨-, p, hp, h⟩
    all_goals
      obtain ⟨rfl, -⟩ | ⟨-, hback, -⟩ := h.cases hp
      · exact hq hname
      · exact hback (hname ▸ hown.1)
  · simp only [mem_cleared_again run run' hform hname, hclears]

include hstatus

/-- The second change finds the entry in the status that the first one has led to, and leaves it
there. -/
theorem status_again :
    run'.status = run.status ∧ run'.status = run'.info.status.getD .pending := by
  have hcurrent : run'.info.status.getD .pending = run.status := by
    have hfound := (entryInfo_review (existingEntry_yields.1 run'.isEntry)).1
    rw [uid_eq run run', run.statusAt_eq hbuild hform hstatus] at hfound
    exact (Except.ok.inj hfound).symm
  have hsame := status_eq run run' rfl hform hcurrent
  exact ⟨hsame, hsame.trans hcurrent.symm⟩

/-- The second change leaves the status. -/
theorem valuesAt_status_again (w : String) :
    (commit schema (commit schema s sub.mutation).1 sub'.mutation).1.valuesAt w
        ReviewStatus.predicateName =
      (commit schema s sub.mutation).1.valuesAt w ReviewStatus.predicateName := by
  have hwell := Schema.wellFormed_of_build hbuild
  refine run'.valuesAt_of_untold (isUnlabelled_again run run' hform) (hstatus.isOwn hbuild)
    (by decide) hstatus.isList_eq_false (run'.status_not_cleared hwell hstatus) ?_ w
  rw [run'.entry_eq, operands_changed _ _ _ _ (run'.status_resolved hwell hstatus),
    if_pos (status_again run run' hform hbuild hstatus).2]

/-- The second change leaves the reviewer. -/
theorem valuesAt_reviewer_again (hreviewer : schema.KeepsReviewer) (w : String) :
    (commit schema (commit schema s sub.mutation).1 sub'.mutation).1.valuesAt w "reviewed_by" =
      (commit schema s sub.mutation).1.valuesAt w "reviewed_by" := by
  obtain ⟨hsame, hcurrent⟩ := status_again run run' hform hbuild hstatus
  have hstays : (commit schema s sub.mutation).1.statusAt run'.uid.text = .ok sub'.status := by
    rw [uid_eq run run', run.statusAt_eq hbuild hform hstatus, ← hsame,
      show sub'.status = run'.status from congrArg Submission.status run'.result]
  have hrecorded := editEntry_recorded hbuild hstatus hreviewer (editEntry_yields.2 ⟨run'⟩)
  rcases hrecorded.edit run'.uid run'.subject_eq with ⟨-, hnone, hkept⟩ | ⟨hmoved, -⟩
  · exact run'.valuesAt_of_untold (isUnlabelled_again run run' hform) hreviewer.own (by decide)
      hreviewer.single hkept hnone w
  · exact absurd hstays hmoved

/-- The second change leaves all other fields. -/
theorem valuesAt_again (hschema : schema.Separates)
    (hown : ∀ name ∈ historyFields, schema.IsOwn name) (hkey : q ≠ Search.typeKey)
    (hq : q ≠ ReviewStatus.predicateName) (hreviewer : q ≠ "reviewed_by") (w : String) :
    (commit schema (commit schema s sub.mutation).1 sub'.mutation).1.valuesAt w q =
      (commit schema s sub.mutation).1.valuesAt w q := by
  classical
  have hedge {name : String} (hsystem : name ∈ historyFields) (h : schema.edge name = q) :
      name = q := (Schema.edge_of_isForward (hown name hsystem).1).symm.trans h
  have htold : told (commit schema (commit schema s sub.mutation).1 sub'.mutation).2 w q
      sub'.mutation.set = told (commit schema s sub.mutation).2 w q sub.mutation.set := by
    rw [run'.told_eq (isUnlabelled_again run run' hform), run.told_eq hform]
    refine Entity.told_congr run.subject_eq ?_ (run.isSettled_entry hform) fun name hname => ?_
    · rw [run'.subject_eq, run.subject_eq, uid_eq run run']
    · refine get?_again run run' hform (fun heq => hq ?_) fun heq => hreviewer ?_
      · rw [← hedge (by rw [heq]; decide) hname, heq]
      · rw [← hedge (by rw [heq]; decide) hname, heq]
  have hkept : (s.valuesAt w q).filter (fun v =>
      !struck (s.bind sub.mutation.prelude) sub.mutation.delete w q v) =
        (s.valuesAt w q).filter fun v => !decide (run.Takes w q v) := by
    refine List.filter_congr fun v hv => ?_
    simp only [← run.struck_iff hv, Bool.decide_eq_true]
  have hkept' : ((commit schema s sub.mutation).1.valuesAt w q).filter (fun v =>
      !struck ((commit schema s sub.mutation).1.bind sub'.mutation.prelude) sub'.mutation.delete
        w q v) =
        ((commit schema s sub.mutation).1.valuesAt w q).filter fun v =>
          !decide (run.Takes w q v) := by
    refine List.filter_congr fun v hv => ?_
    simp only [← takes_again run run' hform hbuild (hown _ (by decide)) hreviewer v,
      ← run'.struck_iff hv, Bool.decide_eq_true]
  rw [commit_valuesAt _ _ _ _ hkey, hkept', htold, commit_valuesAt _ _ _ _ hkey, hkept]
  refine setValues_filter_again ?_
  rw [run.told_eq hform]
  by_cases htaken : ∃ v ∈ told (commit schema s sub.mutation).2 w q (sub.entry.statements schema),
      run.Takes w q v
  · obtain ⟨v, -, htakes⟩ := htaken
    refine .inr fun v' hv' => ?_
    simpa using run.takes_of_told hbuild hstatus hschema hown hv' htakes
  · refine .inl fun v hv => ?_
    simpa using fun htakes => htaken ⟨v, hv, htakes⟩

/-- A change by an unlabelled form that is made again changes nothing. -/
theorem agrees_again (hreviewer : schema.KeepsReviewer) (hschema : schema.Separates)
    (hown : ∀ name ∈ historyFields, schema.IsOwn name) :
    (commit schema (commit schema s sub.mutation).1 sub'.mutation).1.Agrees
      (commit schema s sub.mutation).1 where
  nodes w := by
    have hrelated := (run'.settled (isUnlabelled_again run run' hform)).2
    have habout : sub'.IsAbout (commit schema s sub.mutation).1 := by
      obtain ⟨comp, -⟩ := run'.composition hbuild
      refine comp.isAbout (Schema.wellFormed_of_build hbuild) hschema run'.written ?_ ?_
      · intro x hx
        rw [hrelated] at hx
        cases hx
      · intro u hu
        obtain rfl : run'.uid = u := Subject.existing.inj (run'.subject_eq.symm.trans hu)
        exact run'.exists_node
    rw [node?_commit]
    refine or_iff_left_of_imp ?_
    rintro ⟨d, hd, -, hw⟩
    rcases habout d hd with ⟨u, hu, hnode⟩ | ⟨name, hname, -⟩
    · rw [hu] at hw
      rwa [← Option.some.inj hw]
    · rcases Submission.mem_newNames.1 hname with hentry | ⟨x, hx, -⟩
      · rw [run'.subject_eq] at hentry
        cases hentry
      · rw [hrelated] at hx
        cases hx
  types w := run'.typesAt_eq hbuild (isUnlabelled_again run run' hform) w
  values w q hkey := by
    by_cases hq : q = ReviewStatus.predicateName
    · rw [hq]
      exact valuesAt_status_again run run' hform hbuild hstatus w
    by_cases hq' : q = "reviewed_by"
    · rw [hq']
      exact valuesAt_reviewer_again run run' hform hbuild hstatus hreviewer w
    · exact valuesAt_again run run' hform hbuild hstatus hschema hown hkey hq hq' w

end EditRun

namespace Inventory

/-- What the system sets of a changed entry is stored at the entry. -/
theorem isOwn_history : ∀ name ∈ historyFields, schema.IsOwn name := by
  have hforward : ∀ name ∈ historyFields, schema.IsForward name := by
    simp only [Schema.IsForward, Schema.direction?, predicate?_schema]
    decide +kernel
  refine fun name hmem => isOwn_of_isForward (hforward name hmem) ?_
  revert name hmem
  decide

/-- To make a change again whose form has identifiers for all relationships changes nothing: the
store has the same nodes, of the same types, and with the same values in order. -/
theorem edit_again {s : Store} {fixed fixed' : Option Json} {r r' : Resolver} {typeName : String}
    {form : Form} {c : Context} {before before' after after' : Desk} {sub sub' : Submission}
    (hform : ∀ t ∈ schema.type? typeName, form.IsUnlabelled t)
    (hedit : (editEntry (s.directory schema fixed) r typeName form c).Yields before sub after)
    (hagain : (editEntry ((commit schema s sub.mutation).1.directory schema fixed') r' typeName form
      c).Yields before' sub' after') :
    (commit schema (commit schema s sub.mutation).1 sub'.mutation).1.Agrees
      (commit schema s sub.mutation).1 := by
  obtain ⟨run⟩ := editEntry_yields.1 hedit
  obtain ⟨run'⟩ := editEntry_yields.1 hagain
  exact EditRun.agrees_again run run' (hform _ (entryType_ok run.isType)) build_entityTypes
    Workspace.keepsStatus_inventory Workspace.keepsReviewer_inventory separates_inventory
    isOwn_history

/-- The form of a change that moves a source to another language and gives it a sibling. -/
def translatingForm : Form :=
  Table.ofList [("uid", .string "0x101"), ("languages", .array [.string "en"]),
    ("sibling_sources", .array [.string "0x102"]), (ReviewStatus.predicateName, .string "accepted")]

/-- A store with a channel and two sources, of which the first has a language. -/
def twoSources : Store :=
  (germanSource.addNode ["Source", "Entry"] []).2

theorem exists_translated : (∀ t ∈ schema.type? "Source", translatingForm.IsUnlabelled t) ∧
    ∃ sub after sub' after',
      (editEntry (twoSources.directory schema none) stubResolver "Source" translatingForm
        reviewer).Yields Desk.clean sub after ∧
      (commit schema twoSources sub.mutation).1.valuesAt "0x102" "sibling_sources" = ["0x101"] ∧
      (editEntry ((commit schema twoSources sub.mutation).1.directory schema none) stubResolver
        "Source" translatingForm reviewer).Yields Desk.clean sub' after' := by
  have hform : ((schema.type? "Source").all fun t => decide (translatingForm.IsUnlabelled t)) =
      true := by
    rewrite [schema_eq]
    decide +kernel
  have h : (((editEntry (twoSources.directory schema none) stubResolver "Source" translatingForm
      reviewer).outcome Desk.clean).1.toOption.any fun sub =>
        (commit schema twoSources sub.mutation).1.valuesAt "0x102" "sibling_sources" == ["0x101"] &&
          ((editEntry ((commit schema twoSources sub.mutation).1.directory schema none) stubResolver
            "Source" translatingForm reviewer).outcome Desk.clean).1.toOption.any fun _ => true) =
      true := by
    rewrite [schema_eq, Store.directory_eq]
    decide +kernel
  obtain ⟨sub, after, hsub, h⟩ := exists_yields h
  obtain ⟨hvalues, h⟩ := Bool.and_eq_true_iff.1 h
  obtain ⟨sub', after', hsub', -⟩ := exists_yields h
  refine ⟨fun t ht => ?_, sub, after, sub', after', hsub, beq_iff_eq.1 hvalues, hsub'⟩
  rw [show schema.type? "Source" = some t from ht] at hform
  exact of_decide_eq_true hform

/-- The source gets a language, a sibling and a status, and then nothing more. -/
theorem edit_again_translated : ∃ sub after sub' after',
    (∀ t ∈ schema.type? "Source", translatingForm.IsUnlabelled t) ∧
    (editEntry (twoSources.directory schema none) stubResolver "Source" translatingForm
      reviewer).Yields Desk.clean sub after ∧
    (commit schema twoSources sub.mutation).1.valuesAt "0x102" "sibling_sources" = ["0x101"] ∧
    (editEntry ((commit schema twoSources sub.mutation).1.directory schema none) stubResolver
      "Source" translatingForm reviewer).Yields Desk.clean sub' after' ∧
    (commit schema (commit schema twoSources sub.mutation).1 sub'.mutation).1.Agrees
      (commit schema twoSources sub.mutation).1 := by
  obtain ⟨hform, sub, after, sub', after', hsub, hvalues, hsub'⟩ := exists_translated
  exact ⟨sub, after, sub', after', hform, hsub, hvalues, hsub', edit_again hform hsub hsub'⟩

end Inventory

end PressRegister
