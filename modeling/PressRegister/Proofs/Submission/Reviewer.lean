import PressRegister.Proofs.Submission.Composition
import PressRegister.Proofs.Submission.Review

/-!
# What submissions say of the reviewer

Users do not set the reviewer of an entry. The submission of a new entry names the user as
its reviewer if the entry is accepted, the submission of a change if it decides. So a commit
records a reviewer at the entry of a submission, and nowhere else but at new nodes.

## Main definitions

* `Schema.KeepsReviewer`: a schema keeps one reviewer of a node, whom users do not set.
* `Submission.Recorded`: what a submission says of the reviewer.
* `Store.Unreviewed`: the numbers above the last one have neither types nor a review.

## Main results

* `newEntry_recorded`, `editEntry_recorded`: all submissions are so.
* `Submission.reviewer_made`, `Submission.reviewer_changed`, `Submission.reviewer_kept`: the
  reviewer of a node after a commit.
* `Submission.unreviewed`: the numbers above the last one stay without a review.
-/

namespace PressRegister

open Consult Store

/-- A schema keeps one reviewer of a node, at the node itself, and lets no user set it. -/
structure Schema.KeepsReviewer (schema : Schema) : Prop where
  own : schema.IsOwn "reviewed_by"
  single : isList schema "reviewed_by" = false
  closed : ∀ {typeName t p}, schema.type? typeName = some t →
    t.predicate? "reviewed_by" = some p → p.readOnly = true

/-- What a submission says of the reviewer. -/
structure Submission.Recorded (s : Store) (c : Context) (sub : Submission) : Prop where
  /-- A change is one of an entry. -/
  entry : ∀ u, sub.entry.subject = .existing u → s.toldTypes u.text ≠ []
  /-- A new entry has a reviewer if it is accepted. -/
  new : ∀ node, sub.entry.subject = .new node → sub.entry.operands "reviewed_by" =
    if sub.status = .accepted then [.existing c.user] else []
  /-- A change that decides names the reviewer, and one that leaves the status leaves the reviewer
  too. -/
  edit : ∀ u, sub.entry.subject = .existing u →
    (s.statusAt u.text = .ok sub.status ∧ sub.entry.operands "reviewed_by" = [] ∧
      "reviewed_by" ∉ sub.cleared) ∨
    (s.statusAt u.text ≠ .ok sub.status ∧
      sub.entry.operands ReviewStatus.predicateName = [.ofText sub.status.name] ∧
      (sub.status.isTerminal = true → sub.entry.operands "reviewed_by" = [.existing c.user]))

section Runs

variable {types : List EntityType} {s : Store} {schema : Schema} {fixed : Option Json}
  {r : Resolver} {typeName : String} {form : Form} {c : Context} {before after : Desk}
  {sub : Submission}

/-- Fields hold no reviewer, if users set them. -/
theorem Schema.KeepsReviewer.get?_eq_none (h : schema.KeepsReviewer) {t : TypeDef}
    (ht : schema.type? typeName = some t) {skip : List String} {fields : Fields}
    (hfields : FieldsHold (form.SetsTo skip) t fields) : fields.get? "reviewed_by" = none := by
  cases hget : fields.get? "reviewed_by" with
  | none => rfl
  | some objects =>
    obtain ⟨p, hp, hopen, -⟩ := hfields _ _ hget
    rw [h.closed ht hp] at hopen
    cases hopen

/-- The resolution of labels gives no field values that was not set. -/
theorem resolveRelated_unset {t : TypeDef} {entry resolved : Entity} {related : List Related}
    (h : (resolveRelated (s.directory schema fixed) r c t entry).Yields before
      (resolved, related) after) {name : String} (hname : entry.fields.get? name = none) :
    resolved.fields.get? name = none := by
  obtain ⟨fields, st, hfields, rfl, -⟩ := resolveRelated_yields.1 h
  exact (resolveFields_resolves hfields).1.unset hname

theorem newEntry_recorded (hbuild : Schema.build types = .ok schema)
    (hreviewer : schema.KeepsReviewer)
    (h : (newEntry (s.directory schema fixed) r typeName form c).Yields before sub after) :
    sub.Recorded s c := by
  have hschema := Schema.wellFormed_of_build hbuild
  obtain ⟨⟨node, hnode⟩, -, -⟩ := newEntry_entry (d := s.directory schema fixed) hschema h
  obtain ⟨run⟩ := newEntry_yields.1 h
  have hexisting (u : Uid) : sub.entry.subject ≠ .existing u := by rw [hnode]; exact nofun
  have htype := entryType_ok run.isType
  have hfilled : run.filled.fields.get? "reviewed_by" = none :=
    hreviewer.get?_eq_none htype
      (run.filled_given hschema fun key p hp => splitKey?_eq_none hbuild htype hp)
  have hnamed : run.named.fields.get? "reviewed_by" = none :=
    (get?_withUniqueName (by decide) (by decide) run.names).trans
      (resolveRelated_unset run.resolves hfilled)
  refine ⟨fun u hu => absurd hu (hexisting u), fun _ _ => ?_, fun u hu => absurd hu (hexisting u)⟩
  have hother : "reviewed_by" ≠ ReviewStatus.predicateName ∧ "reviewed_by" ≠ "entry_added" ∧
      "reviewed_by" ≠ "creation_date" ∧ "reviewed_by" ≠ "dgraph.type" := by decide
  rw [run.entry_eq, show sub.status = run.status from congrArg Submission.status run.result,
    operands_withoutEmptyFields]
  unfold withSystemFields Entity.operands
  simp only
  split
  · simp only [Entity.set, Table.get?_insert, hother, if_false, if_true]
    rfl
  · simp only [Entity.set, Table.get?_insert, hother, if_false, hnamed]
    rfl

/-- A field without values is not among those that a change clears. -/
theorem not_mem_clearedFields {t : TypeDef} {e : Entity} {name : String}
    (h : e.fields.get? name = none) : name ∉ clearedFields t e := by
  intro hmem
  obtain ⟨values, hget, -⟩ := mem_clearedFields.1 hmem
  rw [h] at hget
  cases hget

theorem editEntry_recorded (hbuild : Schema.build types = .ok schema)
    (hstatus : schema.KeepsStatus) (hreviewer : schema.KeepsReviewer)
    (h : (editEntry (s.directory schema fixed) r typeName form c).Yields before sub after) :
    sub.Recorded s c := by
  have hschema := Schema.wellFormed_of_build hbuild
  obtain ⟨⟨u, hu, hsubject⟩, -, -⟩ := editEntry_entry h
  obtain ⟨run⟩ := editEntry_yields.1 h
  obtain rfl : run.uid = u := Except.ok.inj (run.hasUid.symm.trans hu)
  have hinfo := existingEntry_yields.1 run.isEntry
  obtain ⟨hcurrent, -⟩ := entryInfo_review hinfo
  have hresolved : run.resolved.fields.get? "reviewed_by" = none :=
    resolveRelated_unset run.resolves (hreviewer.get?_eq_none (entryType_ok run.isType) run.given)
  refine ⟨fun u hu => ?_, fun node hnode => ?_, fun u hu => ?_⟩
  · obtain rfl : run.uid = u := Subject.existing.inj (hsubject.symm.trans hu)
    rw [← entryInfo_types hinfo]
    exact List.ne_nil_of_mem (checkEdit_ok.1 run.mayEdit).1
  · rw [hsubject] at hnode
    cases hnode
  obtain rfl : run.uid = u := Subject.existing.inj (hsubject.symm.trans hu)
  have hother : "reviewed_by" ≠ "entry_edit_history" ∧
      "reviewed_by" ≠ ReviewStatus.predicateName := by decide
  rw [hcurrent, run.cleared_eq, run.entry_eq,
    show sub.status = run.status from congrArg Submission.status run.result,
    operands_changed _ _ _ _ (run.status_resolved hschema hstatus)]
  by_cases hsame : run.status = run.info.status.getD .pending
  · refine .inl ⟨by rw [hsame], ?_, ?_⟩
    · simp only [changed, withEditHistory, hsame, if_true]
      rw [operands_withoutEmptyFields, Entity.operands, Entity.push, Entity.set,
        Table.get?_insert, if_neg hother.1, hresolved]
      rfl
    · simp only [changed, withEditHistory, hsame, if_true, List.append_nil]
      exact not_mem_clearedFields hresolved
  · refine .inr ⟨fun heq => hsame (Except.ok.inj heq).symm, if_neg hsame, fun hterminal => ?_⟩
    simp only [changed, withEditHistory, hsame, hterminal, if_true, if_false]
    rw [operands_withoutEmptyFields, Entity.operands, Entity.set, Table.get?_insert, if_pos rfl]
    rfl

end Runs

/-! ### Commits -/

/-- The numbers above the last one are of nodes that have neither types nor a review. -/
structure Store.Unreviewed (s : Store) : Prop where
  apart : s.KeepsTypesApart
  unused : s.Unused
  blank : ∀ n, s.lastUid < n → ∀ name ∈ [ReviewStatus.predicateName, "reviewed_by"],
    s.valuesAt (Uid.ofNat n).text name = []

theorem Store.Fresh.unreviewed {s : Store} (h : s.Fresh) (hapart : s.KeepsTypesApart) :
    s.Unreviewed :=
  ⟨hapart, h.unused, fun n hn name _ => by rw [valuesAt, nodeAt_of_none (h n hn)]; rfl⟩

namespace Submission

variable {schema : Schema} {s : Store} {c : Context} {sub : Submission} {w name : String}
  {status : ReviewStatus} (h : sub.Reviewed schema s c) (hrecorded : sub.Recorded s c)
  (hstatus : schema.IsOwn ReviewStatus.predicateName)
  (hsingle : isList schema ReviewStatus.predicateName = false)
  (hreviewer : schema.KeepsReviewer) (hs : s.Unreviewed)

include hrecorded hs in
/-- No number above the last one is of an entry that a submission changes. -/
theorem existing_text_ne {u : Uid} (hu : sub.entry.subject = .existing u) {n : Nat}
    (hn : s.lastUid < n) : u.text ≠ (Uid.ofNat n).text := by
  intro htext
  refine hrecorded.entry u hu ?_
  rw [hs.apart.toldTypes_eq, htext]
  exact hs.unused n hn

include h hrecorded hstatus hsingle hreviewer hs in
/-- Of the new nodes of a submission only the entry is decided, and its reviewer is the user if
the entry is accepted. -/
theorem reviewer_made (hmade : (commit schema s sub.mutation).2.get? name = some w)
    (hat : (commit schema s sub.mutation).1.statusAt w = .ok status)
    (hterminal : status.isTerminal = true) :
    (commit schema s sub.mutation).1.valuesAt w "reviewed_by" =
      if status = .accepted then [c.user.text] else [] := by
  obtain ⟨n, hn, -, rfl⟩ := (commit_allots schema s sub.mutation).numbered hmade
  have hold (name : String) (hname : name ∈ [ReviewStatus.predicateName, "reviewed_by"]) :=
    hs.blank n hn name hname
  have hsatellite (x : Satellite) (hx : .new x ∈ sub.related) :
      (commit schema s sub.mutation).2.get? x.node.name ≠ some (Uid.ofNat n).text := by
    intro hx'
    obtain ⟨w, hw, hdraft⟩ := h.status_satellite hstatus hsingle hx
    obtain rfl := Option.some.inj (hw.symm.trans hx')
    rw [hat] at hdraft
    cases hdraft
    cases hterminal
  by_cases hentry : sub.entry.subject.stored? (commit schema s sub.mutation).2 =
      some (Uid.ofNat n).text
  · cases hsubject : sub.entry.subject with
    | existing u =>
      rw [hsubject] at hentry
      exact absurd (Option.some.inj hentry) (existing_text_ne hrecorded hs hsubject hn)
    | var x =>
      rw [hsubject] at hentry
      cases hentry
    | new node =>
      have hnew : (commit schema s sub.mutation).2.get? node.name = some (Uid.ofNat n).text := by
        rw [hsubject] at hentry
        exact hentry
      -- the entry is apart from the new nodes beside it, so it has the status of the submission
      obtain ⟨w, hw, hstored⟩ := h.status_entry (s := s) hstatus hsingle hsubject
      obtain rfl := Option.some.inj (hw.symm.trans hnew)
      rw [hstored fun x hx hname => hsatellite x hx (hname ▸ hnew)] at hat
      obtain rfl := Except.ok.inj hat
      rw [commit_valuesAt _ _ _ _ (by decide), h.told_apart hreviewer.own hsatellite, if_pos hentry,
        hold _ (by simp), hreviewer.single, setValues_false, Entity.storedValues_eq,
        hrecorded.new node hsubject]
      split <;> rfl
  · rw [statusAt, h.valuesAt_elsewhere hstatus (by decide) hentry hsatellite, hold _ (by simp)] at hat
    cases hat
    cases hterminal

include h hstatus hsingle in
/-- The status of an entry that is moved on is that of the submission. -/
theorem statusAt_moved {u : Uid} (hu : sub.entry.subject = .existing u)
    (hw : ∀ name, (commit schema s sub.mutation).2.get? name ≠ some u.text)
    (hoperands : sub.entry.operands ReviewStatus.predicateName = [.ofText sub.status.name]) :
    (commit schema s sub.mutation).1.statusAt u.text = .ok sub.status := by
  have hentry : sub.entry.subject.stored? (commit schema s sub.mutation).2 = some u.text := by
    rw [hu]
    rfl
  refine statusAt_of_valuesAt ?_
  rw [h.valuesAt_of_kept hstatus (by decide) hsingle h.keeps,
    h.told_apart hstatus fun x _ => hw x.node.name, if_pos hentry, Entity.storedValues_eq,
    hoperands, List.filterMap_cons, sub.status.stored?_name]
  rfl

include h hrecorded hstatus hsingle hreviewer in
/-- The reviewer of a node that is decided is the user. -/
theorem reviewer_changed (hw : ∀ name, (commit schema s sub.mutation).2.get? name ≠ some w)
    (hne : (commit schema s sub.mutation).1.statusAt w ≠ s.statusAt w)
    (hat : (commit schema s sub.mutation).1.statusAt w = .ok status)
    (hterminal : status.isTerminal = true) :
    (commit schema s sub.mutation).1.valuesAt w "reviewed_by" = [c.user.text] := by
  obtain ⟨u, current, hu, rfl, -, hafter, -⟩ := h.of_statusAt_ne hstatus hsingle hw hne
  obtain rfl := Except.ok.inj (hat.symm.trans hafter)
  rcases hrecorded.edit u hu with ⟨hsame, -⟩ | ⟨-, -, hdecides⟩
  · exact absurd (hafter.trans hsame.symm) hne
  · have hentry : sub.entry.subject.stored? (commit schema s sub.mutation).2 = some u.text := by
      rw [hu]
      rfl
    rw [commit_valuesAt _ _ _ _ (by decide), h.told_apart hreviewer.own fun x _ => hw x.node.name,
      if_pos hentry, hreviewer.single, setValues_false, Entity.storedValues_eq, hdecides hterminal]
    rfl

include h hrecorded hstatus hsingle hreviewer in
/-- A node that keeps its status keeps its reviewer. -/
theorem reviewer_kept (hw : ∀ name, (commit schema s sub.mutation).2.get? name ≠ some w)
    (hsame : (commit schema s sub.mutation).1.statusAt w = s.statusAt w) :
    (commit schema s sub.mutation).1.valuesAt w "reviewed_by" = s.valuesAt w "reviewed_by" := by
  by_cases hentry : sub.entry.subject.stored? (commit schema s sub.mutation).2 = some w
  · cases hsubject : sub.entry.subject with
    | new node =>
      rw [hsubject] at hentry
      exact absurd hentry (hw node.name)
    | var x =>
      rw [hsubject] at hentry
      cases hentry
    | existing u =>
      obtain rfl : u.text = w := by
        rw [hsubject] at hentry
        exact Option.some.inj hentry
      rcases hrecorded.edit u hsubject with ⟨-, hnone, hcleared⟩ | ⟨hmoved, hoperands, -⟩
      · rw [h.valuesAt_of_kept hreviewer.own (by decide) hreviewer.single hcleared,
          h.told_apart hreviewer.own fun x _ => hw x.node.name, if_pos hentry,
          Entity.storedValues_eq, hnone]
        rfl
      · exact absurd (hsame.symm.trans
          (statusAt_moved h hstatus hsingle hsubject hw hoperands)) hmoved
  · exact h.valuesAt_elsewhere hreviewer.own (by decide) hentry fun x _ => hw x.node.name

include h hrecorded hstatus hreviewer hs in
/-- The numbers above the last one stay without types and without a review. -/
theorem unreviewed (htypes : schema.IsOwn Search.typeKey)
    (hgiven : ∀ u, sub.entry.subject = .existing u → sub.entry.operands Search.typeKey = []) :
    (commit schema s sub.mutation).1.Unreviewed := by
  refine ⟨hs.apart.commit _, h.unused htypes hgiven hs.unused, fun n hn name hname => ?_⟩
  have hmade := not_made_above (s := s) hn
  have hlow := Nat.lt_of_le_of_lt (commit_allots schema s sub.mutation).low_le hn
  have hentry : sub.entry.subject.stored? (commit schema s sub.mutation).2 ≠
      some (Uid.ofNat n).text := by
    cases hsubject : sub.entry.subject with
    | existing u =>
      exact fun heq => existing_text_ne hrecorded hs hsubject hlow (Option.some.inj heq)
    | new node => exact hmade node.name
    | var x => exact nofun
  have hown : schema.IsOwn name ∧ name ≠ Search.typeKey := by
    simp only [List.mem_cons, List.not_mem_nil, or_false] at hname
    rcases hname with rfl | rfl
    · exact ⟨hstatus, by decide⟩
    · exact ⟨hreviewer.own, by decide⟩
  rw [h.valuesAt_elsewhere hown.1 hown.2 hentry fun x _ => hmade x.node.name]
  exact hs.blank n hlow name hname

end Submission

end PressRegister
