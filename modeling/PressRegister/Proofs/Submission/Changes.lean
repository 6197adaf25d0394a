import PressRegister.Proofs.Submission.Growth
import PressRegister.Proofs.Submission.Reviewer

/-!
# What a change changes

A change of an entry is asked for by a user, in a form. It changes those fields of the entry that
the form names and that the user may set as long as the entry has its present status, and what the
system records of the change. Other nodes that are there lose and gain nothing but edges to the
entry, under fields that the form names and that point back.

All this holds if the entry is none of the nodes that its own reverse fields lead to: otherwise
the edge of such a field would be one of the entry itself.

## Main definitions

* `Form.MaySet`: a form names a field that a user may set.
* `Submission.MayChange`: the fields of its entry that a change may change.
* `TypeDef.LeadsElsewhere`: the reverse fields of a type lead to other nodes than one.
* `Submission.ChangesOnly`: a change changes nothing that it may not.

## Main results

* `EditRun.mayChange_of_operands`, `EditRun.mayChange_of_cleared`: what a change says of its entry.
* `EditRun.mayChange_of_ne`, `EditRun.valuesAt_other`: what it does to its entry and other nodes.
* `EditRun.changesOnly`: every change does what it may.
-/

namespace PressRegister

open Consult Store

/-- A form names a field of a type that a role may set while an entry has a status. -/
def Form.MaySet (form : Form) (t : TypeDef) (current : ReviewStatus) (role : Role)
    (name : String) : Prop :=
  ∃ p raw, t.predicate? name = some p ∧ form.get? name = some raw ∧
    p.writableOnEdit current role = true

/-- The fields of its entry that a change may change: those of its form that the user may set, and
what the system records of the change. -/
inductive Submission.MayChange (form : Form) (t : TypeDef) (c : Context) (current : ReviewStatus)
    (sub : Submission) : String → Prop
  | field {name : String} (h : form.MaySet t current c.role name) :
      MayChange form t c current sub name
  | history : MayChange form t c current sub "entry_edit_history"
  | status (hmoved : sub.status ≠ current)
      (hpermitted : ReviewStatus.transition current sub.status c.role = .ok sub.status) :
      MayChange form t c current sub ReviewStatus.predicateName
  | reviewer (hmoved : sub.status ≠ current) (hdecided : sub.status.isTerminal = true) :
      MayChange form t c current sub "reviewed_by"

/-- The reverse fields of a type lead to other nodes than one. -/
def TypeDef.LeadsElsewhere (t : TypeDef) (s : Store) (w : String) : Prop :=
  ∀ p edge, p ∈ t.predicates → p.direction? = some (.reverse edge) →
    ¬ s.Carries (Mutation.owners p) w

/-- A change of the entry `u`, which has a type and a status, changes nothing that it may not. -/
structure Submission.ChangesOnly (schema : Schema) (s : Store) (form : Form) (t : TypeDef)
    (c : Context) (current : ReviewStatus) (sub : Submission) (u : Uid) : Prop where
  status : s.statusAt u.text = .ok current
  /-- The user may move the entry to the status that it has afterwards. -/
  permitted : ReviewStatus.transition current sub.status c.role = .ok sub.status
  moved : (commit schema s sub.mutation).1.statusAt u.text = .ok sub.status
  types : ∀ w, s.node? w ≠ none → (commit schema s sub.mutation).1.typesAt w = s.typesAt w
  entry : ∀ q, q ≠ Search.typeKey →
    (commit schema s sub.mutation).1.valuesAt u.text q ≠ s.valuesAt u.text q →
      sub.MayChange form t c current q
  /-- Other nodes keep all values but the entry. -/
  kept : ∀ w q, s.node? w ≠ none → w ≠ u.text → q ≠ Search.typeKey →
    ((commit schema s sub.mutation).1.valuesAt w q).filter (· != u.text) =
      (s.valuesAt w q).filter (· != u.text)
  /-- They gain or lose the entry under a field of the form that points back. -/
  linked : ∀ w q, s.node? w ≠ none → w ≠ u.text → q ≠ Search.typeKey →
    (commit schema s sub.mutation).1.valuesAt w q ≠ s.valuesAt w q →
      ∃ p, form.MaySet t current c.role p.name ∧ t.predicate? p.name = some p ∧
        p.pointsBack = true ∧ p.edge = q

namespace Submission.MayChange

variable {form : Form} {t : TypeDef} {c : Context} {current : ReviewStatus} {sub : Submission}
  {name : String}

/-- A field that the system does not set is one of the form. -/
theorem maySet (h : sub.MayChange form t c current name) (hname : name ∉ historyFields) :
    form.MaySet t current c.role name := by
  cases h with
  | field h => exact h
  | history => exact absurd (by decide) hname
  | status => exact absurd (by decide) hname
  | reviewer => exact absurd (by decide) hname

end Submission.MayChange

/-! ### What a change says -/

namespace EditRun

variable {types : List EntityType} {s : Store} {schema : Schema} {fixed : Option Json}
  {r : Resolver} {typeName : String} {form : Form} {c : Context} {before after : Desk}
  {sub : Submission} {name : String}
  (run : EditRun (s.directory schema fixed) r typeName form c before after sub)
include run

/-- The status that an entry has before it is changed. -/
def current : ReviewStatus :=
  run.info.status.getD .pending

/-- A change leads to the status of its submission, and the user may take that step. -/
theorem transition_status :
    ReviewStatus.transition run.current sub.status c.role = .ok sub.status := by
  rw [show sub.status = run.status from congrArg Submission.status run.result]
  exact ReviewStatus.transition_eq_ok.2 ⟨rfl, editStatus_requiredRole run.hasStatus⟩

/-- The values of an entry are of fields that its form names and that the user may set. -/
theorem maySet_of_resolved (h : run.resolved.fields.get? name ≠ none) :
    form.MaySet run.type run.current c.role name := by
  have hheld : FieldsHold (fun p _ => p.writableOnEdit run.current c.role = true ∧
      ∃ raw, form.get? p.name = some raw) run.type run.fields := by
    refine Form.read_hold (fun key raw p values hmem hp hwritable _ => ⟨hwritable, raw, ?_⟩) run.reads
    rw [(Mutation.mem_of_predicate? hp).2]
    exact Table.get?_eq_some_iff.2 (List.mem_filter.1 hmem).1
  cases hget : run.fields.get? name with
  | none => exact absurd (resolveRelated_unset run.resolves hget) h
  | some objects =>
    obtain ⟨p, hp, hwritable, raw, hraw⟩ := hheld name objects hget
    rw [(Mutation.mem_of_predicate? hp).2] at hraw
    exact ⟨p, raw, hp, hraw, hwritable⟩

/-- Where the system names a reviewer, the status changed to a decision. -/
theorem mayChange_of_decided (h : run.status ≠ run.current ∧ run.status.isTerminal = true) :
    sub.MayChange form run.type c run.current "reviewed_by" := by
  rw [← show sub.status = run.status from congrArg Submission.status run.result] at h
  exact .reviewer h.1 h.2

/-- A field that a change clears may change. -/
theorem mayChange_of_cleared (h : name ∈ sub.cleared) :
    sub.MayChange form run.type c run.current name := by
  rw [run.cleared_eq] at h
  rcases List.mem_append.1 h with h | h
  · exact .field (run.maySet_of_resolved fun hnone => not_mem_clearedFields hnone h)
  · unfold withEditHistory at h
    simp only at h
    split at h
    · cases h
    rename_i hmoved
    split at h
    · rename_i hdecided
      rw [List.mem_singleton.1 h]
      exact run.mayChange_of_decided ⟨hmoved, hdecided⟩
    · cases h

/-- A field that a change gives values may change. -/
theorem mayChange_of_operands (hschema : schema.WellFormed) (hstatus : schema.KeepsStatus)
    (h : sub.entry.operands name ≠ []) : sub.MayChange form run.type c run.current name := by
  have hentry : sub.entry.operands name =
      (withEditHistory c run.current run.status run.resolved).1.operands name := by
    rw [run.entry_eq]
    exact operands_withoutEmptyFields _ _
  by_cases hname : name ∈ historyFields
  · simp only [historyFields, List.mem_cons, List.not_mem_nil, or_false] at hname
    rcases hname with rfl | rfl | rfl
    · exact .history
    · refine .status (fun hsame => h ?_) run.transition_status
      rw [run.entry_eq, operands_changed _ _ _ _ (run.status_resolved hschema hstatus)]
      exact if_pos ((congrArg Submission.status run.result).symm.trans hsame)
    · by_cases hresolved : run.resolved.fields.get? "reviewed_by" = none
      · refine run.mayChange_of_decided ?_
        by_contra hnot
        refine h (hentry.trans ?_)
        unfold withEditHistory
        simp only
        split
        · simp [Entity.operands, Entity.push, Entity.set, Table.get?_insert, hresolved]
        rename_i hmoved
        rw [if_neg fun hdecided => hnot ⟨hmoved, hdecided⟩]
        simp [Entity.operands, Entity.push, Entity.set, Table.get?_insert, hresolved,
          ReviewStatus.predicateName]
      · exact .field (run.maySet_of_resolved hresolved)
  · refine .field (run.maySet_of_resolved fun hnone => h (hentry.trans ?_))
    rw [Entity.operands, get?_withEditHistory hname, hnone]
    rfl

/-- The entry that is changed is there. -/
theorem exists_node : s.node? run.uid.text ≠ none := by
  intro hnone
  have htypes := (checkEdit_ok.1 run.mayEdit).1
  rw [entryInfo_types (existingEntry_yields.1 run.isEntry), toldTypes, hnone] at htypes
  cases htypes

/-- A field that points back and that a change gives values or clears is one of its form. -/
theorem maySet_of_pointsBack (hschema : schema.Separates) (hback : schema.PointsBack name)
    (h : sub.MayChange form run.type c run.current name) :
    form.MaySet run.type run.current c.role name := by
  refine h.maySet fun hmem => hback (hschema.system name ?_)
  simp only [historyFields, List.mem_cons, List.not_mem_nil, or_false] at hmem
  rcases hmem with rfl | rfl | rfl <;> decide

end EditRun

/-! ### What a change does -/

/-- If the values of a node differ after a commit, some were told of it or taken from it. -/
theorem Store.told_or_struck {schema : Schema} {s : Store} {m : Mutation} {w q : String}
    (hq : q ≠ Search.typeKey)
    (h : (commit schema s m).1.valuesAt w q ≠ s.valuesAt w q) :
    (∃ v, v ∈ told (commit schema s m).2 w q m.set) ∨
      ∃ v ∈ s.valuesAt w q, struck (s.bind m.prelude) m.delete w q v = true := by
  by_contra hnot
  simp only [not_or, not_exists, not_and, Bool.not_eq_true] at hnot
  refine h ?_
  have hkept : (s.valuesAt w q).filter (fun v => !struck (s.bind m.prelude) m.delete w q v) =
      s.valuesAt w q := List.filter_eq_self.2 fun v hv => by simp [hnot.2 v hv]
  rw [commit_valuesAt _ _ _ _ hq, hkept, List.eq_nil_iff_forall_not_mem.2 hnot.1, setValues_nil]

section Commit

variable {types : List EntityType} {s : Store} {schema : Schema} {fixed : Option Json}
  {r : Resolver} {typeName : String} {form : Form} {c : Context} {before after : Desk}
  {sub : Submission} {w q : String}
  (run : EditRun (s.directory schema fixed) r typeName form c before after sub)
  (hbuild : Schema.build types = .ok schema) (hstatus : schema.KeepsStatus)
  (hschema : schema.Separates) (hfresh : s.Fresh) (hr : r.IsLocal schema)

namespace EditRun

include run

theorem written : sub.Written schema :=
  editEntry_written (editEntry_yields.2 ⟨run⟩)

theorem subject_eq : sub.entry.subject = .existing run.uid := by
  obtain ⟨⟨u, hu, hsubject⟩, -, -⟩ := editEntry_entry (editEntry_yields.2 ⟨run⟩)
  rw [hsubject, Except.ok.inj (run.hasUid.symm.trans hu)]

include hbuild hschema hr in
theorem isLocal_related {x : Satellite} (hx : .new x ∈ sub.related) : x.IsLocal schema := by
  obtain ⟨comp, -⟩ := run.composition hbuild
  exact comp.isLocal hschema.plain hr hx

include hbuild hstatus hschema hfresh hr in
/-- What a change tells of its entry is under a field that it may change. -/
theorem mayChange_of_told (hself : run.type.LeadsElsewhere s run.uid.text)
    (hapart : s.KeepsTypesApart) {v : String}
    (hv : v ∈ told (commit schema s sub.mutation).2 run.uid.text q sub.mutation.set) :
    sub.MayChange form run.type c run.current q := by
  have hwell := Schema.wellFormed_of_build hbuild
  have hold := commit_get?_ne schema s sub.mutation hfresh run.exists_node
  have hgiven {name : String} {w : String}
      (h : w ∈ sub.entry.storedValues (commit schema s sub.mutation).2 name) :
      sub.MayChange form run.type c run.current name := by
    refine run.mayChange_of_operands hwell hstatus fun hnil => ?_
    rw [Entity.storedValues_eq, hnil] at h
    cases h
  rcases run.written.mem_told (fun x hx => run.isLocal_related hbuild hschema hr hx)
    hschema.isForward_typeKey hv with hv | ⟨x, -, hx, -⟩
  · rcases Entity.mem_told_statements hv with ⟨-, hv⟩ | ⟨-, name, hback, rfl, hmem⟩
    · exact hgiven hv
    · -- the entry is a value of a field of its own that points back
      obtain ⟨o, ho, hstored⟩ := Entity.mem_storedValues.1 hmem
      obtain ⟨comp, htype, -⟩ := run.composition hbuild
      obtain ⟨p, hp, hpoints, hedge, -, hvalue⟩ := comp.back_value hwell hschema hback ho
      rw [htype] at hp
      obtain ⟨hmem', rfl⟩ := Mutation.mem_of_predicate? hp
      rcases hvalue with ⟨u, hu, hallows⟩ | ⟨x, -, hx⟩
      · rw [hu] at hstored
        rw [Option.some.inj hstored, hapart.toldTypes_eq] at hallows
        rcases Predicate.direction?_of_pointsBack hpoints with ⟨edge, hdir⟩ | hdir
        · exact absurd hallows.2 (hself p edge hmem' hdir)
        · rw [← hedge, Predicate.edge, hdir]
          exact hgiven hmem
      · rw [hx] at hstored
        exact absurd hstored (hold _)
  · exact absurd hx (hold _)

include hbuild hstatus hschema hfresh hr in
/-- The values of its entry that a change changes are those that it may change. -/
theorem mayChange_of_ne (hself : run.type.LeadsElsewhere s run.uid.text)
    (hapart : s.KeepsTypesApart) (hq : q ≠ Search.typeKey)
    (hne : (commit schema s sub.mutation).1.valuesAt run.uid.text q ≠
      s.valuesAt run.uid.text q) : sub.MayChange form run.type c run.current q := by
  rcases told_or_struck hq hne with ⟨v, hv⟩ | ⟨v, hv, hstruck⟩
  · exact run.mayChange_of_told hbuild hstatus hschema hfresh hr hself hapart hv
  · obtain ⟨u, name, p, hu, hname, hp, hcases⟩ := run.written.struck_cases hv hstruck
    have hmay := run.mayChange_of_cleared hname
    rcases hcases with ⟨rfl, -⟩ | ⟨-, hback, rfl, hcarries⟩
    · exact hmay
    · obtain ⟨p', -, hp', -⟩ := run.maySet_of_pointsBack hschema hback hmay
      obtain ⟨hpoints, hedge, -, howners⟩ := hschema.of_pointsBack
        (Schema.wellFormed_of_build hbuild) (entryType_ok run.isType) hp' hback
      obtain ⟨hmem, rfl⟩ := Mutation.mem_of_predicate? hp'
      rw [hp] at howners
      rw [Option.some.inj howners] at hcarries
      rcases Predicate.direction?_of_pointsBack hpoints with ⟨edge, hdir⟩ | hdir
      · exact absurd hcarries (hself p' edge hmem hdir)
      · rw [← hedge, Predicate.edge, hdir]
        exact hmay

include hbuild hstatus hschema hfresh hr in
/-- What a change tells of another node is the entry, and so is what it takes from it. Its form
names a field that points back and has its edge there. -/
theorem maySet_of_other (hw : s.node? w ≠ none) (hother : w ≠ run.uid.text) {v : String}
    (h : v ∈ told (commit schema s sub.mutation).2 w q sub.mutation.set ∨
      v ∈ s.valuesAt w q ∧
        struck (s.bind sub.mutation.prelude) sub.mutation.delete w q v = true) :
    v = run.uid.text ∧ ∃ p, form.MaySet run.type run.current c.role p.name ∧
      run.type.predicate? p.name = some p ∧ p.pointsBack = true ∧ p.edge = q ∧
      isList schema q = true := by
  have hwell := Schema.wellFormed_of_build hbuild
  have hfield {name : String} (hback : schema.PointsBack name) (hedge : schema.edge name = q)
      (hmay : sub.MayChange form run.type c run.current name) :
      ∃ p, form.MaySet run.type run.current c.role p.name ∧
        run.type.predicate? p.name = some p ∧ p.pointsBack = true ∧ p.edge = q ∧
        isList schema q = true := by
    have hset := run.maySet_of_pointsBack hschema hback hmay
    obtain ⟨p, -, hp, -⟩ := id hset
    obtain ⟨hpoints, hedge', hlist, -⟩ :=
      hschema.of_pointsBack hwell (entryType_ok run.isType) hp hback
    obtain ⟨-, rfl⟩ := Mutation.mem_of_predicate? hp
    rw [hedge', hedge] at hlist
    exact ⟨p, hset, hp, hpoints, hedge'.trans hedge, hlist⟩
  rcases h with hv | ⟨hv, hstruck⟩
  · have hentry : sub.entry.subject.stored? (commit schema s sub.mutation).2 ≠ some w := by
      rw [run.subject_eq]
      exact fun heq => hother (Option.some.inj heq).symm
    obtain ⟨hsubject, name, hback, hedge, hmem⟩ := run.written.mem_told_other
      (fun x hx => run.isLocal_related hbuild hschema hr hx) hschema.isForward_typeKey
      (commit_get?_ne schema s sub.mutation hfresh hw) hentry hv
    rw [run.subject_eq] at hsubject
    refine ⟨(Option.some.inj hsubject).symm, hfield hback hedge ?_⟩
    refine run.mayChange_of_operands hwell hstatus fun hnil => ?_
    rw [Entity.storedValues_eq, hnil] at hmem
    cases hmem
  · obtain ⟨u, name, p, hu, hname, -, hcases⟩ := run.written.struck_cases hv hstruck
    obtain rfl : u = run.uid := Subject.existing.inj (hu.symm.trans run.subject_eq)
    rcases hcases with ⟨-, hentry⟩ | ⟨rfl, hback, hedge, -⟩
    · exact absurd hentry hother
    · exact ⟨rfl, hfield hback hedge (run.mayChange_of_cleared hname)⟩

include hbuild hstatus hschema hfresh hr in
/-- Another node keeps all values but the entry. -/
theorem valuesAt_other (hw : s.node? w ≠ none) (hother : w ≠ run.uid.text)
    (hq : q ≠ Search.typeKey) :
    ((commit schema s sub.mutation).1.valuesAt w q).filter (· != run.uid.text) =
      (s.valuesAt w q).filter (· != run.uid.text) := by
  have hmay := fun v h => (run.maySet_of_other (q := q) hbuild hstatus hschema hfresh hr hw hother
    (v := v) h)
  have hkept : ((s.valuesAt w q).filter fun v =>
      !struck (s.bind sub.mutation.prelude) sub.mutation.delete w q v).filter
        (· != run.uid.text) = (s.valuesAt w q).filter (· != run.uid.text) := by
    rw [List.filter_filter]
    refine List.filter_congr fun v hv => ?_
    by_cases hstruck : struck (s.bind sub.mutation.prelude) sub.mutation.delete w q v = true
    · simp [(hmay v (.inr ⟨hv, hstruck⟩)).1]
    · simp [hstruck]
  rw [commit_valuesAt _ _ _ _ hq]
  by_cases hnone : told (commit schema s sub.mutation).2 w q sub.mutation.set = []
  · rw [hnone, setValues_nil, hkept]
  · obtain ⟨v, hv⟩ := List.exists_mem_of_ne_nil _ hnone
    obtain ⟨-, -, -, -, -, -, hlist⟩ := hmay v (.inl hv)
    rw [hlist]
    generalize (s.valuesAt w q).filter (fun v =>
      !struck (s.bind sub.mutation.prelude) sub.mutation.delete w q v) = rest at hkept ⊢
    rcases setValues_true_of_forall rest fun v hv => (hmay v (.inl hv)).1 with
      hsame | ⟨-, hadded⟩
    · rw [hsame, hkept]
    · rw [hadded, List.filter_append, hkept]
      simp

include hbuild hstatus in
/-- The status of an entry is that of its submission after a change. -/
theorem statusAt_entry (hfresh : s.Fresh) :
    (commit schema s sub.mutation).1.statusAt run.uid.text = .ok sub.status := by
  have hwell := Schema.wellFormed_of_build hbuild
  have hreviewed : sub.Reviewed schema s c :=
    editEntry_reviewed hwell hstatus (editEntry_yields.2 ⟨run⟩)
  have hold := commit_get?_ne schema s sub.mutation hfresh run.exists_node
  have hown := hstatus.isOwn hbuild
  have hsingle := hstatus.isList_eq_false
  by_cases hsame : sub.status = run.current
  · by_cases hkept : (commit schema s sub.mutation).1.statusAt run.uid.text =
        s.statusAt run.uid.text
    · rw [hkept, hsame, (entryInfo_review (existingEntry_yields.1 run.isEntry)).1]
      rfl
    · obtain ⟨u, -, hu, -, -, hafter, -⟩ := hreviewed.of_statusAt_ne hown hsingle hold hkept
      exact hafter
  · refine Submission.statusAt_moved hreviewed hown hsingle run.subject_eq hold ?_
    rw [run.entry_eq, operands_changed _ _ _ _ (run.status_resolved hwell hstatus),
      ← show sub.status = run.status from congrArg Submission.status run.result]
    exact if_neg hsame

include hbuild hstatus hschema hfresh hr in
/-- A change changes nothing that it may not. -/
theorem changesOnly (hself : run.type.LeadsElsewhere s run.uid.text) (hapart : s.KeepsTypesApart) :
    sub.ChangesOnly schema s form run.type c run.current run.uid where
  status := (entryInfo_review (existingEntry_yields.1 run.isEntry)).1
  permitted := run.transition_status
  moved := run.statusAt_entry hbuild hstatus hfresh
  types w hw := run.written.typesAt_kept (Schema.isOwn_typeKey hbuild)
    (fun _ _ => editEntry_types hbuild (editEntry_yields.2 ⟨run⟩))
    (commit_get?_ne schema s sub.mutation hfresh hw)
  entry _ hq hne := run.mayChange_of_ne hbuild hstatus hschema hfresh hr hself hapart hq hne
  kept _ _ hw hother hq := run.valuesAt_other hbuild hstatus hschema hfresh hr hw hother hq
  linked w q hw hother hq hne := by
    have hmay : ∃ v, v ∈ told (commit schema s sub.mutation).2 w q sub.mutation.set ∨
        v ∈ s.valuesAt w q ∧
          struck (s.bind sub.mutation.prelude) sub.mutation.delete w q v = true := by
      rcases told_or_struck hq hne with ⟨v, hv⟩ | ⟨v, hv⟩
      · exact ⟨v, .inl hv⟩
      · exact ⟨v, .inr hv⟩
    obtain ⟨v, hv⟩ := hmay
    obtain ⟨-, p, hset, hp, hpoints, hedge, -⟩ :=
      run.maySet_of_other hbuild hstatus hschema hfresh hr hw hother hv
    exact ⟨p, hset, hp, hpoints, hedge⟩

end EditRun

end Commit

end PressRegister
