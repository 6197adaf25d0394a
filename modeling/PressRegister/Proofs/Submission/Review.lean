import PressRegister.Proofs.Schema.Names
import PressRegister.Proofs.Store.Review
import PressRegister.Proofs.Submission.RequiredFields

/-!
# What submissions say of the review

A submission sets a review status in three places: at a new entry, at the entry that a
change moves on, and at the new nodes beside an entry. No form reaches the field in
another way. So the commit of a submission changes no other status, and the roles that
the workflow asks for are those of the users who change one.

## Main definitions

* `Schema.KeepsStatus`: a schema keeps one review status of a node.
* `Submission.Reviewed`: what a submission says of the review, and who may say it.

## Main results

* `newEntry_reviewed`, `editEntry_reviewed`: all submissions are so.
* `Submission.Reviewed.status_entry`, `Submission.Reviewed.status_satellite`: the status of
  new nodes.
* `Submission.Reviewed.of_statusAt_ne`: who changes the status of other nodes.
* `Submission.Written.unused`: identifiers that are not in use stay so.
-/

namespace PressRegister

open Consult Store

/-! ### Steps of the workflow -/

namespace ReviewStatus

/-- The name of a status is stored as it is. -/
theorem stored?_name (uids : NewUids) (status : ReviewStatus) :
    (Operand.ofText status.name).stored? uids = some status.name := by
  cases status <;> rfl

theorem transition_eq_ok {source target status : ReviewStatus} {role : Role} :
    transition source target role = .ok status ↔
      status = target ∧ requiredRole source target ≤ role := by
  unfold transition
  by_cases h : requiredRole source target ≤ role
  · simp [h, eq_comm]
  · simp [h]

theorem initial_eq_ok {role : Role} {accept : Bool} {status : ReviewStatus}
    (h : initial role accept = .ok status) :
    status = .pending ∨ status = .accepted ∧ .reviewer ≤ role := by
  unfold initial at h
  split at h
  · cases h
  split at h
  · cases h
    exact .inl rfl
  split at h
  · rename_i hrole
    cases h
    exact .inr ⟨rfl, hrole⟩
  · cases h

/-- A role may give a status to a new entry: only reviewers decide, and only admins draft. -/
def MayGive (role : Role) (status : ReviewStatus) : Prop :=
  (status = .accepted ∨ status = .rejected → .reviewer ≤ role) ∧ (status = .draft → .admin ≤ role)

/-- Who may move an entry from the status that it is submitted with may give it the new one. -/
theorem mayGive_of_transition {role : Role} {source target : ReviewStatus} (hne : target ≠ source)
    (hsource : source = .pending ∨ source = .accepted) (h : requiredRole source target ≤ role) :
    MayGive role target := by
  have hadmin (hrole : .admin ≤ role) : .reviewer ≤ role :=
    Nat.le_trans (show Role.reviewer.rank ≤ Role.admin.rank by decide) hrole
  rcases hsource with rfl | rfl
  all_goals cases target
  all_goals simp_all [requiredRole, MayGive]

end ReviewStatus

variable {d : Directory} {r : Resolver} {typeName : String} {form : Form} {c : Context}
  {before after : Desk} {sub : Submission} {t : TypeDef} {status current : ReviewStatus}

theorem newStatus_mayGive (h : (newStatus t form c).Yields before status after) :
    ReviewStatus.MayGive c.role status := by
  simp only [newStatus, yields_bind, yields_settle] at h
  obtain ⟨initial, _, ⟨hinitial, rfl⟩, requested, mid, -, h⟩ := h
  have hsource := ReviewStatus.initial_eq_ok hinitial
  have hgiven : ReviewStatus.MayGive c.role initial := by
    rcases hsource with rfl | ⟨rfl, hrole⟩
    · simp [ReviewStatus.MayGive]
    · simpa [ReviewStatus.MayGive] using hrole
  cases requested with
  | none => exact (yields_pure.1 h).1 ▸ hgiven
  | some requested =>
    dsimp only at h
    split at h
    · exact (yields_pure.1 h).1 ▸ hgiven
    · rename_i hne
      obtain ⟨rfl, hrole⟩ := ReviewStatus.transition_eq_ok.1 (yields_settle.1 h).1
      exact ReviewStatus.mayGive_of_transition hne (hsource.imp_right And.left) hrole

theorem editStatus_requiredRole (h : (editStatus t form c current).Yields before status after) :
    ReviewStatus.requiredRole current status ≤ c.role := by
  unfold editStatus at h
  simp only at h
  split at h
  all_goals
    simp only [yields_bind, yields_settle] at h
    obtain ⟨target, mid, -, h, -⟩ := h
    obtain ⟨rfl, hrole⟩ := ReviewStatus.transition_eq_ok.1 h
    exact hrole

/-! ### New nodes beside an entry -/

section Satellites

variable {s : Store} {schema : Schema} {fixed : Option Json} {p : Predicate} {node : BlankNode}
  {x : Satellite} {entry resolved : Entity} {related : List Related}

/-- What is stored of the status of a new node beside an entry. -/
def draftField : List Object :=
  [.plain (.ofText ReviewStatus.draft.name)]

theorem status_completeSatellite (c : Context) (x : Satellite) (name : String) :
    (completeSatellite c x name).fields.get? ReviewStatus.predicateName = some draftField := by
  have hother : ReviewStatus.predicateName ≠ "entry_added" ∧
      ReviewStatus.predicateName ≠ "creation_date" := by decide
  simp only [completeSatellite, Table.get?_insert, hother, if_false, if_true]
  rfl

/-- Whatever resolver is asked, a label that becomes a new node becomes a draft. -/
theorem resolveLabel_draft
    (h : (resolveLabel (s.directory schema fixed) r p node c).Yields before (.new x) after) :
    x.fields.get? ReviewStatus.predicateName = some draftField := by
  unfold resolveLabel at h
  split at h
  · exact (not_yields_fail h).elim
  · obtain ⟨_, _, -, h⟩ := yields_bind.1 h
    cases (yields_pure.1 h).1
  · obtain ⟨-, name, rfl, -⟩ := placeSatellite_new h
    exact status_completeSatellite c _ name

theorem resolveRelated_draft
    (h : (resolveRelated (s.directory schema fixed) r c t entry).Yields before
      (resolved, related) after) (hx : .new x ∈ related) :
    x.fields.get? ReviewStatus.predicateName = some draftField := by
  obtain ⟨fields, st, hresolve, -, rfl⟩ := resolveRelated_yields.1 h
  have hresolved : ∀ key related, st.resolved.get? key = some related → ∀ x, related = .new x →
      x.fields.get? ReviewStatus.predicateName = some draftField := by
    refine resolveFields_resolved (L := fun _ => True) ?_ (fun _ _ _ _ _ _ => trivial)
      (fun _ _ h => by cases h) (.refl _) (.refl _) hresolve
    rintro p node mid _ mid' - - - hlabel x rfl
    exact resolveLabel_draft hlabel
  obtain ⟨key, x', hget, rfl⟩ := exists_of_mem_inheritSiblings hx
  have hdraft := hresolved key _ hget x' rfl
  split
  · rw [get?_inheritSibling (by decide)]
    exact hdraft
  · exact hdraft

end Satellites

/-! ### Whole submissions -/

/-- A schema keeps one review status of a node, at the node itself. -/
def Schema.KeepsStatus (schema : Schema) : Prop :=
  ∃ p, schema.predicate? ReviewStatus.predicateName = some p ∧ p.storageClass = .scalar

theorem Predicate.scalar_spec {p : Predicate} (h : p.storageClass = .scalar) :
    p.isList = false ∧ p.direction? = none := by
  unfold storageClass at h
  unfold isList direction? relationship?
  split at h
  · cases h
  · cases h
  · split at h <;> cases h
  · split <;> simp_all

/-- What a submission says of the review, and who may say it. -/
structure Submission.Reviewed (schema : Schema) (s : Store) (c : Context) (sub : Submission) :
    Prop extends sub.Written schema where
  /-- New nodes beside the entry are drafts. -/
  satellites : ∀ x, .new x ∈ sub.related →
    x.fields.get? ReviewStatus.predicateName = some draftField
  /-- No status is cleared. -/
  keeps : ReviewStatus.predicateName ∉ sub.cleared
  /-- A new entry has a status that the user may give. -/
  new : ∀ node, sub.entry.subject = .new node →
    sub.entry.operands ReviewStatus.predicateName = [.ofText sub.status.name] ∧
      ReviewStatus.MayGive c.role sub.status
  /-- A changed entry has a new status only if the user may move it there and may change it. -/
  edit : ∀ u, sub.entry.subject = .existing u →
    sub.entry.operands ReviewStatus.predicateName = [] ∨
      sub.entry.operands ReviewStatus.predicateName = [.ofText sub.status.name] ∧
        ∃ current, s.statusAt u.text = .ok current ∧
          ReviewStatus.requiredRole current sub.status ≤ c.role ∧
          (.reviewer ≤ c.role ∨ s.submitterAt? u.text = some c.user)

theorem operands_withSystemFields (t : TypeDef) (status : ReviewStatus) (c : Context)
    (e : Entity) : (withoutEmptyFields (withSystemFields t status c e)).operands
      ReviewStatus.predicateName = [.ofText status.name] := by
  have hother : ReviewStatus.predicateName ≠ "entry_added" ∧
      ReviewStatus.predicateName ≠ "creation_date" ∧
      ReviewStatus.predicateName ≠ "reviewed_by" ∧
      ReviewStatus.predicateName ≠ "dgraph.type" := by decide
  rw [operands_withoutEmptyFields]
  unfold withSystemFields Entity.operands
  simp only
  split
  all_goals
    simp only [Entity.set, Table.get?_insert, hother, if_false, if_true]
    rfl

/-- A change sets the status of its entry only if it moves the entry on. -/
theorem operands_changed {e : Entity} (c : Context) (t : TypeDef) (current status : ReviewStatus)
    (h : e.fields.get? ReviewStatus.predicateName = none) :
    (changed c t current status e).1.operands ReviewStatus.predicateName =
      if status = current then [] else [.ofText status.name] := by
  have hother : ReviewStatus.predicateName ≠ "entry_edit_history" ∧
      ReviewStatus.predicateName ≠ "reviewed_by" := by decide
  unfold changed
  rw [operands_withoutEmptyFields]
  unfold withEditHistory Entity.operands
  simp only
  split
  · simp only [Entity.push, Entity.set, Table.get?_insert, hother, if_false, h]
    rfl
  split
  all_goals
    simp only [Entity.push, Entity.set, Table.get?_insert, hother, if_false, if_true]
    rfl

variable {s : Store} {schema : Schema} {fixed : Option Json}

theorem newEntry_reviewed (hschema : schema.WellFormed)
    (h : (newEntry (s.directory schema fixed) r typeName form c).Yields before sub after) :
    sub.Reviewed schema s c := by
  obtain ⟨⟨node, hnode⟩, -, -⟩ := newEntry_entry (d := s.directory schema fixed) hschema h
  obtain ⟨run⟩ := newEntry_yields.1 h
  have hrelated : sub.related = run.related := congrArg Submission.related run.result
  have hstatus : sub.status = run.status := congrArg Submission.status run.result
  have hcleared : sub.cleared = [] := by
    rw [run.result]
    rfl
  refine ⟨newEntry_written (d := s.directory schema fixed) hschema h,
    fun x hx => resolveRelated_draft run.resolves (hrelated ▸ hx), by simp [hcleared],
    fun node _ => ⟨?_, ?_⟩, fun u hu => ?_⟩
  · rw [run.entry_eq, hstatus]
    exact operands_withSystemFields _ _ _ _
  · rw [hstatus]
    exact newStatus_mayGive run.hasStatus
  · rw [hnode] at hu
    cases hu

/-- Neither the form of a change nor the resolution of its labels reaches the status. -/
theorem EditRun.status_resolved {d : Directory} (hschema : d.schema.WellFormed)
    (hstatus : d.schema.KeepsStatus) (run : EditRun d r typeName form c before after sub) :
    run.resolved.fields.get? ReviewStatus.predicateName = none := by
  obtain ⟨-, hlabels⟩ := resolveRelated_fields run.resolves
  obtain ⟨first, hfirst, hscalar⟩ := hstatus
  have htype := hschema.get?_of_type? (entryType_ok run.isType)
  rw [hlabels.plain _ fun p hp =>
    hschema.isRelationship_eq_false htype hp hfirst (Predicate.scalar_spec hscalar).2]
  exact Form.read_status run.reads

/-- No change clears the status. -/
theorem EditRun.status_not_cleared {d : Directory} (hschema : d.schema.WellFormed)
    (hstatus : d.schema.KeepsStatus) (run : EditRun d r typeName form c before after sub) :
    ReviewStatus.predicateName ∉ sub.cleared := by
  rw [run.cleared_eq]
  simp only [changed, List.mem_append, not_or]
  refine ⟨fun hmem => ?_, fun hmem => absurd (eq_of_mem_withEditHistory hmem) (by decide)⟩
  obtain ⟨⟨key, values⟩, hentry, hkey⟩ := List.mem_map.1 hmem
  have hget := Table.get?_eq_some_iff.2 (List.mem_filter.1 hentry).1
  rw [show key = ReviewStatus.predicateName from hkey, run.status_resolved hschema hstatus] at hget
  cases hget

theorem editEntry_reviewed (hschema : schema.WellFormed) (hstatus : schema.KeepsStatus)
    (h : (editEntry (s.directory schema fixed) r typeName form c).Yields before sub after) :
    sub.Reviewed schema s c := by
  obtain ⟨⟨u, hu, hsubject⟩, -, -⟩ := editEntry_entry h
  obtain ⟨run⟩ := editEntry_yields.1 h
  obtain rfl : run.uid = u := Except.ok.inj (run.hasUid.symm.trans hu)
  have hrelated : sub.related = run.related := congrArg Submission.related run.result
  have hsub : sub.status = run.status := congrArg Submission.status run.result
  refine ⟨editEntry_written h, fun x hx => resolveRelated_draft run.resolves (hrelated ▸ hx),
    run.status_not_cleared hschema hstatus, fun node hnode => ?_, fun u hu => ?_⟩
  · rw [hsubject] at hnode
    cases hnode
  · obtain rfl : run.uid = u := Subject.existing.inj (hsubject.symm.trans hu)
    obtain ⟨hcurrent, hsubmitter⟩ := entryInfo_review (existingEntry_yields.1 run.isEntry)
    obtain ⟨-, -, haccess⟩ := checkEdit_ok.1 run.mayEdit
    rw [run.entry_eq, operands_changed _ _ _ _ (run.status_resolved hschema hstatus)]
    split
    · exact .inl rfl
    · refine .inr ⟨by rw [hsub], _, hcurrent, hsub ▸ editStatus_requiredRole run.hasStatus, ?_⟩
      rw [← hsubmitter]
      exact haccess.imp_right And.left

/-- A change gives its entry no types. -/
theorem editEntry_types {types : List EntityType} (hbuild : Schema.build types = .ok schema)
    (h : (editEntry (s.directory schema fixed) r typeName form c).Yields before sub after) :
    sub.entry.operands Search.typeKey = [] := by
  obtain ⟨run⟩ := editEntry_yields.1 h
  obtain ⟨-, hlabels⟩ := resolveRelated_fields run.resolves
  have hschema := Schema.wellFormed_of_build hbuild
  have htype := hschema.get?_of_type? (entryType_ok run.isType)
  have hunknown (p : Predicate) : run.type.predicate? Search.typeKey ≠ some p := by
    intro hp
    have hname : p.name = Search.typeKey := by simpa using List.find?_some hp
    obtain ⟨first, hfirst, -⟩ := hschema.shapes htype p (List.mem_of_find?_eq_some hp)
    rw [hname, show schema.predicates.get? Search.typeKey = none from
      Schema.predicate?_typeKey hbuild] at hfirst
    cases hfirst
  have hread : run.fields.get? Search.typeKey = none := by
    cases hget : run.fields.get? Search.typeKey with
    | none => rfl
    | some objects =>
      obtain ⟨p, hp, -⟩ := Form.read_fieldsRead run.reads _ _ hget
      exact absurd hp (hunknown p)
  rw [run.entry_eq]
  unfold changed
  rw [operands_withoutEmptyFields, Entity.operands, get?_withEditHistory (by decide),
    hlabels.plain _ fun p hp => absurd hp (hunknown p), hread]
  rfl

/-! ### Commits -/

theorem Schema.KeepsStatus.isOwn {types : List EntityType} (h : schema.KeepsStatus)
    (hbuild : Schema.build types = .ok schema) : schema.IsOwn ReviewStatus.predicateName := by
  obtain ⟨p, hp, hscalar⟩ := h
  exact Schema.isOwn_of_build hbuild hp (Predicate.scalar_spec hscalar).2

theorem Schema.KeepsStatus.isList_eq_false (h : schema.KeepsStatus) :
    isList schema ReviewStatus.predicateName = false := by
  obtain ⟨p, hp, hscalar⟩ := h
  rw [isList, hp]
  exact (Predicate.scalar_spec hscalar).1

theorem Schema.isOwn_typeKey {types : List EntityType} (hbuild : Schema.build types = .ok schema) :
    schema.IsOwn Search.typeKey := by
  have hnone := Schema.predicate?_typeKey hbuild
  refine isOwn_of_forall (.inl (by rw [direction?, hnone]; rfl)) fun p hp hreverse => ?_
  obtain ⟨key, hkey⟩ := Table.mem_values_iff.1 hp
  obtain ⟨q, hq, -⟩ := reverse_forward hbuild hkey hreverse
  rw [hnone] at hq
  cases hq

namespace Submission

variable {name w : String}

/-- A field of one value that a submission does not clear has the value that is told last. -/
theorem Written.valuesAt_of_kept (h : sub.Written schema) (hown : schema.IsOwn name)
    (hname : name ≠ Search.typeKey) (hlist : isList schema name = false)
    (hkept : name ∉ sub.cleared) (w : String) :
    (commit schema s sub.mutation).1.valuesAt w name =
      ((told (commit schema s sub.mutation).2 w name sub.mutation.set).getLast?.map ([·])).getD
        (s.valuesAt w name) := by
  have hold : ((s.valuesAt w name).filter fun v =>
      !struck (s.bind sub.mutation.prelude) sub.mutation.delete w name v) = s.valuesAt w name := by
    refine List.filter_eq_self.2 fun v hv => ?_
    rw [Bool.not_eq_true', Bool.eq_false_iff]
    exact fun hstruck => hkept ((h.struck_iff hown hv).1 hstruck).1
  rw [commit_valuesAt _ _ _ _ hname, hold, hlist, setValues_false]

/-- What is told of a field of a node that is none of the new ones beside the entry. -/
theorem Written.told_apart (h : sub.Written schema) (hown : schema.IsOwn name) {uids : NewUids}
    (hw : ∀ x, .new x ∈ sub.related → uids.get? x.node.name ≠ some w) :
    told uids w name sub.mutation.set =
      if sub.entry.subject.stored? uids = some w then sub.entry.storedValues uids name else [] := by
  have hnone : told uids w name (Mutation.satelliteStatements schema sub.related) = [] := by
    rw [List.eq_nil_iff_forall_not_mem]
    intro v hv
    obtain ⟨x, hx, hmade, -⟩ := (Mutation.mem_told_satelliteStatements hown).1 hv
    exact hw x hx hmade
  rw [h.set, told_append, Entity.told_own hown, hnone, List.append_nil]

/-- A field of a node that is neither the entry nor a new node beside it stays as it is. -/
theorem Written.valuesAt_elsewhere (h : sub.Written schema) (hown : schema.IsOwn name)
    (hname : name ≠ Search.typeKey)
    (hentry : sub.entry.subject.stored? (commit schema s sub.mutation).2 ≠ some w)
    (hw : ∀ x, .new x ∈ sub.related →
      (commit schema s sub.mutation).2.get? x.node.name ≠ some w) :
    (commit schema s sub.mutation).1.valuesAt w name = s.valuesAt w name := by
  rw [commit_valuesAt _ _ _ _ hname, h.told_apart hown hw, if_neg hentry]
  refine List.filter_eq_self.2 fun v hv => ?_
  rw [Bool.not_eq_true', Bool.eq_false_iff]
  intro hstruck
  obtain ⟨-, u, hu, rfl⟩ := (h.struck_iff hown hv).1 hstruck
  exact hentry (by rw [hu]; rfl)

/-- A commit gives types to new nodes only. -/
theorem Written.typesAt_kept (h : sub.Written schema) (hown : schema.IsOwn Search.typeKey)
    (htypes : ∀ u, sub.entry.subject = .existing u → sub.entry.operands Search.typeKey = [])
    (hw : ∀ name, (commit schema s sub.mutation).2.get? name ≠ some w) :
    (commit schema s sub.mutation).1.typesAt w = s.typesAt w := by
  have hnone : (if sub.entry.subject.stored? (commit schema s sub.mutation).2 = some w then
      sub.entry.storedValues (commit schema s sub.mutation).2 Search.typeKey else []) = [] := by
    cases hentry : sub.entry.subject with
    | existing u => rw [Entity.storedValues_eq, htypes u hentry, List.filterMap_nil, ite_self]
    | new node => exact if_neg (hw node.name)
    | var x => exact if_neg nofun
  rw [commit_typesAt, h.told_apart hown fun x _ => hw x.node.name, hnone]
  rfl

/-- The numbers above the last one are given to no new node. -/
theorem not_made_above {n : Nat} (hn : (commit schema s sub.mutation).1.lastUid < n)
    (name : String) : (commit schema s sub.mutation).2.get? name ≠ some (Uid.ofNat n).text := by
  intro hget
  obtain ⟨m, -, hm, heq⟩ := (commit_allots schema s sub.mutation).numbered hget
  have := Uid.ofNat_injective heq
  omega

/-- Where no number above the last one has types, none has after a commit. -/
theorem Written.unused (h : sub.Written schema) (hown : schema.IsOwn Search.typeKey)
    (htypes : ∀ u, sub.entry.subject = .existing u → sub.entry.operands Search.typeKey = [])
    (hs : s.Unused) : (commit schema s sub.mutation).1.Unused := fun n hn =>
  (h.typesAt_kept hown htypes (not_made_above hn)).trans
    (hs n (Nat.lt_of_le_of_lt (commit_allots schema s sub.mutation).low_le hn))

namespace Reviewed

variable (h : sub.Reviewed schema s c) (hown : schema.IsOwn ReviewStatus.predicateName)
  (hlist : isList schema ReviewStatus.predicateName = false)
include h hown

/-- New nodes beside an entry tell of themselves that they are drafts, and nothing else. -/
theorem mem_told_satellites {uids : NewUids} {v : String} :
    v ∈ told uids w ReviewStatus.predicateName
        (Mutation.satelliteStatements schema sub.related) ↔
      (∃ x, .new x ∈ sub.related ∧ uids.get? x.node.name = some w) ∧
        v = ReviewStatus.draft.name := by
  have hvalues {x : Satellite} (hx : .new x ∈ sub.related) :
      Entity.storedValues uids ⟨.new x.node, x.fields⟩ ReviewStatus.predicateName =
        [ReviewStatus.draft.name] := by
    rw [Entity.storedValues, h.satellites x hx]
    rfl
  rw [Mutation.mem_told_satellites hown (by decide)]
  constructor
  · rintro ⟨x, hx, hw, hv⟩
    rw [hvalues hx] at hv
    exact ⟨⟨x, hx, hw⟩, List.mem_singleton.1 hv⟩
  · rintro ⟨⟨x, hx, hw⟩, rfl⟩
    exact ⟨x, hx, hw, by rw [hvalues hx]; exact List.mem_singleton_self _⟩

include hlist

/-- New nodes beside an entry become drafts. -/
theorem status_satellite {x : Satellite} (hx : .new x ∈ sub.related) :
    ∃ w, (commit schema s sub.mutation).2.get? x.node.name = some w ∧
      (commit schema s sub.mutation).1.statusAt w = .ok .draft := by
  have hfield : (x.entity schema).fields.get? ReviewStatus.predicateName = some draftField :=
    ((Table.get?_insert _ _ _ _).trans (if_neg (by decide))).trans (h.satellites x hx)
  have hvalue : .plain (.ofText ReviewStatus.draft.name) ∈
      ((x.entity schema).fields.get? ReviewStatus.predicateName).getD [] := by
    rw [hfield]
    exact List.mem_singleton_self _
  obtain ⟨w, -, hw, -⟩ := Entity.exists_stored_own (s := s) (m := sub.mutation) rfl hown.1 hvalue
    rfl fun d hd => by
      rw [h.set]
      exact List.mem_append_right _ (List.mem_flatMap.2 ⟨.new x, hx, hd⟩)
  have hw : (commit schema s sub.mutation).2.get? x.node.name = some w := hw
  refine ⟨w, hw, statusAt_of_valuesAt ?_⟩
  rw [h.valuesAt_of_kept hown (by decide) hlist h.keeps, h.set, told_append]
  -- the statements of the new nodes come last, and all of them tell the same
  have hne := List.ne_nil_of_mem ((h.mem_told_satellites hown).2 ⟨⟨x, hx, hw⟩, rfl⟩)
  rw [List.getLast?_append_of_ne_nil _ hne, List.getLast?_eq_some_getLast hne,
    ((h.mem_told_satellites hown).1 (List.getLast_mem hne)).2]
  rfl

/-- A new entry gets the status of its submission, unless it is a new node beside itself. -/
theorem status_entry {node : BlankNode} (hnode : sub.entry.subject = .new node) :
    ∃ w, (commit schema s sub.mutation).2.get? node.name = some w ∧
      ((∀ x, .new x ∈ sub.related → x.node.name ≠ node.name) →
        (commit schema s sub.mutation).1.statusAt w = .ok sub.status) := by
  obtain ⟨hoperands, -⟩ := h.new node hnode
  obtain ⟨w, hw, -⟩ := h.told_ne_nil (s := s) hown (by simp [hoperands])
  have hmade : (commit schema s sub.mutation).2.get? node.name = some w := by
    rw [hnode] at hw
    exact hw
  refine ⟨w, hmade, fun hapart => statusAt_of_valuesAt ?_⟩
  have hother (x : Satellite) (hx : .new x ∈ sub.related) :
      (commit schema s sub.mutation).2.get? x.node.name ≠ some w := fun hx' =>
    hapart x hx ((commit_allots schema s sub.mutation).distinct hx' hmade)
  rw [h.valuesAt_of_kept hown (by decide) hlist h.keeps, h.told_apart hown hother, if_pos hw,
    Entity.storedValues_eq, hoperands, List.filterMap_cons, sub.status.stored?_name]
  rfl

/-- Of the nodes that are not new, only the entry gets another status, and only from a user who
may move it there and may change it. -/
theorem of_statusAt_ne (hw : ∀ name, (commit schema s sub.mutation).2.get? name ≠ some w)
    (hne : (commit schema s sub.mutation).1.statusAt w ≠ s.statusAt w) :
    ∃ u current, sub.entry.subject = .existing u ∧ u.text = w ∧ s.statusAt w = .ok current ∧
      (commit schema s sub.mutation).1.statusAt w = .ok sub.status ∧
      ReviewStatus.requiredRole current sub.status ≤ c.role ∧
      (.reviewer ≤ c.role ∨ s.submitterAt? w = some c.user) := by
  have hvalues := h.valuesAt_of_kept hown (by decide) hlist h.keeps (s := s) w
  rw [h.told_apart hown fun x _ => hw _] at hvalues
  have hsame : (commit schema s sub.mutation).1.valuesAt w ReviewStatus.predicateName ≠
      s.valuesAt w ReviewStatus.predicateName := fun heq => hne (by rw [statusAt, heq, statusAt])
  split at hvalues
  · rename_i hsubject
    cases hentry : sub.entry.subject with
    | existing u =>
      rw [hentry] at hsubject
      obtain rfl : u.text = w := Option.some.inj hsubject
      rcases h.edit u hentry with hnone | ⟨hoperands, current, hcurrent, hrole, haccess⟩
      · rw [Entity.storedValues_eq, hnone] at hvalues
        exact absurd hvalues hsame
      · rw [Entity.storedValues_eq, hoperands, List.filterMap_cons, sub.status.stored?_name]
          at hvalues
        exact ⟨u, current, rfl, rfl, hcurrent, statusAt_of_valuesAt hvalues, hrole, haccess⟩
    | new node =>
      rw [hentry] at hsubject
      exact absurd hsubject (hw _)
    | var x =>
      rw [hentry] at hsubject
      cases hsubject
  · exact absurd hvalues hsame

end Reviewed

end Submission

end PressRegister
