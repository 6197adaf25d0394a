import PressRegister.Proofs.Store.Nodes
import PressRegister.Proofs.Submission.Reviewer
import PressRegister.Proofs.Workspace.Review

/-!
# The reviewers of decided entries

In a session that starts without entries, each entry that is decided in the end was moved to its
status by one request, and by none after that. The entry records the user who made the request as
its reviewer, unless the request is of a new entry that is rejected at once: that one has no
reviewer.

## Main definitions

* `Store.HasEntry`, `Store.WithoutEntries`: a node is an entry; there are none.
* `Workspace.leaves`: the store that requests leave.
* `Workspace.Step.Moves`, `Workspace.DecidedBy`: which request moved a node to its status.

## Main results

* `Workspace.Step.recorded`: what a single request does to the reviewers.
* `Workspace.decided_or_kept`: what requests do one after another.
* `Workspace.reviewer_recorded_iff`: when an entry has the reviewer who decided.
-/

namespace PressRegister

/-- A node has a type that is registered. -/
def Store.HasEntry (schema : Schema) (s : Store) (w : String) : Prop :=
  ∃ tag ∈ s.typesAt w, schema.type? tag ≠ none

/-- A store without entries, whose numbers above the last one are unused. -/
structure Store.WithoutEntries (schema : Schema) (s : Store) : Prop where
  fresh : s.Fresh
  apart : s.KeepsTypesApart
  none : ∀ w, ¬ s.HasEntry schema w

namespace Workspace

open Consult Store

/-! ### Single requests -/

theorem Request.sanitize_recorded {types : List EntityType} {schema : Schema} {s : Store}
    {fixed : Option Json} {r : Resolver} {c : Context} {request : Request} {before after : Desk}
    {sub : Submission} (hbuild : Schema.build types = .ok schema)
    (hstatus : schema.KeepsStatus) (hreviewer : schema.KeepsReviewer)
    (h : (request.sanitize (s.directory schema fixed) r c).Yields before sub after) :
    sub.Recorded s c := by
  cases request with
  | new typeName form => exact newEntry_recorded hbuild hreviewer h
  | edit typeName form => exact editEntry_recorded hbuild hstatus hreviewer h

namespace Step

/-- A request leaves a node and its status as they are. -/
def Passes (x : Step) (w : String) : Prop :=
  ¬ x.Makes w ∧ x.after.statusAt w = x.before.statusAt w

/-- A request moves a node to a status: it makes the node so, or changes it. -/
def Moves (x : Step) (w : String) (status : ReviewStatus) : Prop :=
  x.after.statusAt w = .ok status ∧ (x.Makes w ∨ x.before.statusAt w ≠ .ok status)

/-- What a request does to the reviewers. -/
structure Recorded (x : Step) : Prop where
  /-- A new entry has the user for a reviewer if it is accepted at once, and none if it is
  rejected. -/
  made : ∀ {w status}, x.Makes w → x.after.statusAt w = .ok status → status.isTerminal = true →
    x.after.valuesAt w "reviewed_by" =
      if status = .accepted then [x.context.user.text] else []
  /-- An entry that is decided gets the user for a reviewer. -/
  changed : ∀ {w status}, ¬ x.Makes w → x.after.statusAt w ≠ x.before.statusAt w →
    x.after.statusAt w = .ok status → status.isTerminal = true →
      x.after.valuesAt w "reviewed_by" = [x.context.user.text]
  kept : ∀ {w}, x.Passes w → x.after.valuesAt w "reviewed_by" = x.before.valuesAt w "reviewed_by"
  types : ∀ {w}, ¬ x.Makes w → x.after.typesAt w = x.before.typesAt w
  unreviewed : x.after.Unreviewed

variable {types : List EntityType} {x : Step}

theorem recorded (hbuild : Schema.build types = .ok x.workspace.schema)
    (hstatus : x.workspace.schema.KeepsStatus) (hreviewer : x.workspace.schema.KeepsReviewer)
    (hbefore : x.before.Unreviewed) : x.Recorded := by
  rcases x.result_cases with ⟨e, hresult, hsame⟩ | ⟨sub, desk, hresult, hsub, hafter⟩
  · have hmakes {w : String} : ¬ x.Makes w := by
      rintro ⟨sub, uids, name, hmade, -⟩
      rw [hresult] at hmade
      cases hmade
    exact ⟨fun hw => absurd hw hmakes, fun _ hne => absurd (by rw [hsame]) hne,
      fun _ => by rw [hsame], fun _ => by rw [hsame], hsame ▸ hbefore⟩
  · have hreviewed := Request.sanitize_reviewed hbuild hstatus hsub
    have hrecorded := Request.sanitize_recorded hbuild hstatus hreviewer hsub
    have hown := hstatus.isOwn hbuild
    have hsingle := hstatus.isList_eq_false
    have htypes := Schema.isOwn_typeKey hbuild
    have hgiven := fun u hu => (Request.sanitize_existing hbuild hsub (u := u) hu).2
    -- the nodes that are made are those that the commit makes
    have hmakes {w : String} (hw : ¬ x.Makes w) (name : String) :
        (commit x.workspace.schema x.before sub.mutation).2.get? name ≠ some w :=
      fun hname => hw ⟨_, _, name, hresult, hname⟩
    refine ⟨?_, fun hw hne hat => ?_, fun hpasses => ?_, fun hw => ?_, ?_⟩
    · rintro w status ⟨sub', uids, name, hresult', hname⟩ hat hterminal
      obtain ⟨rfl, rfl⟩ := Prod.mk.inj (Except.ok.inj (hresult'.symm.trans hresult))
      rw [hafter] at hat ⊢
      exact Submission.reviewer_made hreviewed hrecorded hown hsingle hreviewer hbefore hname hat
        hterminal
    · rw [hafter] at hne hat ⊢
      exact Submission.reviewer_changed hreviewed hrecorded hown hsingle hreviewer (hmakes hw) hne
        hat
    · obtain ⟨hw, hsame⟩ := hpasses
      rw [hafter] at hsame ⊢
      exact Submission.reviewer_kept hreviewed hrecorded hown hsingle hreviewer (hmakes hw) hsame
    · rw [hafter]
      exact hreviewed.typesAt_kept htypes hgiven (hmakes hw)
    · rw [hafter]
      exact Submission.unreviewed hreviewed hrecorded hown hreviewer hbefore htypes hgiven

/-- The reviewer of a node that a request moves to a decision. -/
theorem Recorded.of_moves (h : x.Recorded) {w : String} {status : ReviewStatus}
    (hmoves : x.Moves w status) (hterminal : status.isTerminal = true) :
    (x.after.valuesAt w "reviewed_by" = [x.context.user.text] ↔
        ¬ (x.Makes w ∧ status = .rejected)) ∧
      (x.Makes w ∧ status = .rejected → x.after.valuesAt w "reviewed_by" = []) := by
  obtain ⟨hat, hmoved⟩ := hmoves
  by_cases hmakes : x.Makes w
  · rw [h.made hmakes hat hterminal]
    cases status with
    | draft => cases hterminal
    | pending => cases hterminal
    | accepted => simp
    | rejected => simp [hmakes]
  · have hne : x.after.statusAt w ≠ x.before.statusAt w := by
      rw [hat]
      exact (hmoved.resolve_left hmakes).symm
    rw [h.changed hmakes hne hat hterminal]
    simp [hmakes]

end Step

/-! ### Sessions -/

/-- The store that requests leave that are made one after another. -/
def leaves (s : Store) : List Step → Store
  | [] => s
  | x :: rest => leaves x.after rest

/-- A request moved a node to a status, and none that was made later touched it. -/
def DecidedBy (steps : List Step) (w : String) (status : ReviewStatus) (x : Step) : Prop :=
  ∃ earlier later, steps = earlier ++ x :: later ∧ x.Moves w status ∧ ∀ y ∈ later, y.Passes w

/-- If no request of a session touches a node, it keeps its types, its status and its reviewer.
Else one request was the last that did, and the node has the reviewer that it left. -/
theorem decided_or_kept {types : List EntityType} {schema : Schema}
    (hbuild : Schema.build types = .ok schema) (hstatus : schema.KeepsStatus)
    (hreviewer : schema.KeepsReviewer) {s : Store} {steps : List Step}
    (h : Session schema s steps) (hs : s.Unreviewed) {w : String} {status : ReviewStatus}
    (hat : (leaves s steps).statusAt w = .ok status) :
    ((∀ x ∈ steps, x.Passes w) ∧ (leaves s steps).typesAt w = s.typesAt w ∧
      s.statusAt w = .ok status ∧
      (leaves s steps).valuesAt w "reviewed_by" = s.valuesAt w "reviewed_by") ∨
    ∃ x, x.Recorded ∧ DecidedBy steps w status x ∧
      (leaves s steps).valuesAt w "reviewed_by" = x.after.valuesAt w "reviewed_by" := by
  induction h with
  | nil s => exact .inl ⟨by simp, rfl, hat, rfl⟩
  | @cons x rest hschema hrest ih =>
    subst hschema
    have hrecorded := Step.recorded hbuild hstatus hreviewer hs
    rcases ih hrecorded.unreviewed hat with
      ⟨hpasses, htypes, hafter, hkept⟩ | ⟨y, hy, ⟨earlier, later, rfl, hmoves, hlater⟩, hkept⟩
    · by_cases hpass : x.Passes w
      · exact .inl ⟨List.forall_mem_cons.2 ⟨hpass, hpasses⟩,
          htypes.trans (hrecorded.types hpass.1), hpass.2 ▸ hafter,
          hkept.trans (hrecorded.kept hpass)⟩
      · refine .inr ⟨x, hrecorded, ⟨[], rest, rfl, ⟨hafter, ?_⟩, hpasses⟩, hkept⟩
        by_contra hnot
        simp only [not_or, not_not] at hnot
        exact hpass ⟨hnot.1, hafter.trans hnot.2.symm⟩
    · exact .inr ⟨y, hy, ⟨x :: earlier, later, rfl, hmoves, hlater⟩, hkept⟩

/-- Each entry that is decided after a session was moved to its status by a request, and has the
user who made it for a reviewer, unless that made the entry and rejected it. -/
theorem reviewer_recorded_iff {types : List EntityType} {schema : Schema}
    (hbuild : Schema.build types = .ok schema) (hstatus : schema.KeepsStatus)
    (hreviewer : schema.KeepsReviewer) {s : Store} (hs : s.WithoutEntries schema)
    {steps : List Step} (h : Session schema s steps) {w : String} {status : ReviewStatus}
    (hentry : (leaves s steps).HasEntry schema w)
    (hat : (leaves s steps).statusAt w = .ok status) (hterminal : status.isTerminal = true) :
    ∃ x, DecidedBy steps w status x ∧
      ((leaves s steps).valuesAt w "reviewed_by" = [x.context.user.text] ↔
        ¬ (x.Makes w ∧ status = .rejected)) ∧
      (x.Makes w ∧ status = .rejected → (leaves s steps).valuesAt w "reviewed_by" = []) := by
  rcases decided_or_kept hbuild hstatus hreviewer h (hs.fresh.unreviewed hs.apart) hat with
    ⟨-, htypes, -, -⟩ | ⟨x, hrecorded, hdecided, hkept⟩
  · rw [HasEntry, htypes] at hentry
    exact absurd hentry (hs.none w)
  · obtain ⟨earlier, later, hsteps, hmoves, hlater⟩ := hdecided
    rw [hkept]
    exact ⟨x, ⟨earlier, later, hsteps, hmoves, hlater⟩, hrecorded.of_moves hmoves hterminal⟩

/-! ### A file format that is rejected at once -/

theorem keepsReviewer_inventory : Inventory.schema.KeepsReviewer where
  own := by
    refine Inventory.isOwn_of_isForward ?_ (by decide)
    simp only [Schema.IsForward, Schema.direction?, Inventory.predicate?_schema]
    decide +kernel
  single := by
    rw [isList, Inventory.predicate?_schema]
    decide +kernel
  closed := by
    intro typeName t p ht hp
    have hclosed : (Inventory.schema.types.values.all fun t =>
        (t.predicate? "reviewed_by").all (·.readOnly)) = true := by
      rewrite [Inventory.schema_eq]
      decide +kernel
    have hall := List.all_eq_true.1 hclosed t
      (Table.mem_values_iff.2 ⟨_, Inventory.wellFormed.get?_of_type? ht⟩)
    rwa [hp] at hall

/-- A reviewer submits a file format and rejects it at once. -/
def rejecting : Step where
  workspace := start stubResolver .counting
  request := .new "FileFormat" ((Table.empty.insert "name" (.string "CSV")).insert
    ReviewStatus.predicateName (.string "rejected"))
  context := ⟨Uid.ofNat 0x100, .reviewer, "", ⟨0, 0⟩, false⟩

/-- An administrator accepts the file format after all. -/
def reopening : Step :=
  rejecting.next (.edit "FileFormat" (Table.empty.insert "uid" (.string "0x101")))
    ⟨Uid.ofNat 0x1, .admin, "", ⟨0, 0⟩, true⟩

/-- The file format has no reviewer as long as it is rejected. -/
theorem review_of_format :
    ((Inventory.schema.type? "FileFormat").isSome &&
      rejecting.after.typesAt "0x101" == ["FileFormat", "Entry"] &&
      (rejecting.after.statusAt "0x101").toOption == some .rejected &&
      rejecting.after.valuesAt "0x101" "reviewed_by" == [] &&
      reopening.after.typesAt "0x101" == ["FileFormat", "Entry"] &&
      (reopening.after.statusAt "0x101").toOption == some .accepted &&
      reopening.after.valuesAt "0x101" "reviewed_by" == ["0x1"]) = true := by
  rewrite [reopening, rejecting, start, Step.next, Step.after_eq, Step.left_eq,
    Inventory.schema_eq]
  decide +kernel

/-- Where there are accounts only, there are no entries. -/
theorem withoutEntries_start (resolver : Resolver) (supply : Supply) :
    (start resolver supply).store.WithoutEntries Inventory.schema := by
  have huser : Inventory.schema.type? Inventory.userType = none := by
    have h : (Inventory.schema.type? Inventory.userType).isNone = true := by
      rewrite [Inventory.schema_eq]
      decide +kernel
    exact Option.isNone_iff_eq_none.1 h
  have hstore : (start resolver supply).store = (Store.empty.addNode [Inventory.userType] []).2 := by
    simp only [start, addNode]
  rw [hstore]
  refine ⟨fresh_empty.addNode _ _, KeepsTypesApart.addNode (fun w n h => by cases h) (by simp),
    fun w => ?_⟩
  rintro ⟨tag, htag, hregistered⟩
  rw [typesAt_addNode] at htag
  split at htag
  · exact hregistered (List.mem_singleton.1 htag ▸ huser)
  · cases htag

theorem schema_rejecting : rejecting.workspace.schema = Inventory.schema := by
  simp only [rejecting, start, addNode]

theorem session_reopening :
    Session Inventory.schema rejecting.before [rejecting, reopening] :=
  .pair schema_rejecting _ _

/-- The reviewer of the file format is the one who accepted it. -/
theorem reviewer_recorded_iff_format :
    Schema.build Inventory.entityTypes = .ok Inventory.schema ∧
    Inventory.schema.KeepsStatus ∧ Inventory.schema.KeepsReviewer ∧
    rejecting.before.WithoutEntries Inventory.schema ∧
    Session Inventory.schema rejecting.before [rejecting, reopening] ∧
    reopening.after.HasEntry Inventory.schema "0x101" ∧
    reopening.after.statusAt "0x101" = .ok .accepted ∧
    reopening.after.valuesAt "0x101" "reviewed_by" = ["0x1"] ∧
    ∃ x, DecidedBy [rejecting, reopening] "0x101" .accepted x ∧
      (reopening.after.valuesAt "0x101" "reviewed_by" = [x.context.user.text] ↔
        ¬ (x.Makes "0x101" ∧ ReviewStatus.accepted = .rejected)) ∧
      (x.Makes "0x101" ∧ ReviewStatus.accepted = .rejected →
        reopening.after.valuesAt "0x101" "reviewed_by" = []) := by
  have hreview := review_of_format
  simp only [Bool.and_eq_true, beq_iff_eq] at hreview
  obtain ⟨⟨⟨⟨⟨⟨hregistered, -⟩, -⟩, -⟩, htypes⟩, hstatus⟩, hreviewer⟩ := hreview
  have hentry : reopening.after.HasEntry Inventory.schema "0x101" := by
    refine ⟨"FileFormat", by rw [htypes]; simp, ?_⟩
    exact Option.isSome_iff_ne_none.1 hregistered
  have hstart : rejecting.before.WithoutEntries Inventory.schema := withoutEntries_start _ _
  have haccepted := toOption_eq_some.1 hstatus
  exact ⟨Inventory.build_entityTypes, keepsStatus_inventory, keepsReviewer_inventory, hstart,
    session_reopening, hentry, haccepted, hreviewer,
    reviewer_recorded_iff Inventory.build_entityTypes keepsStatus_inventory keepsReviewer_inventory
      hstart session_reopening hentry haccepted rfl⟩

/-- A new entry that is rejected at once has no reviewer. -/
theorem reviewer_missing :
    ¬ ∀ s, s.WithoutEntries Inventory.schema → ∀ steps, Session Inventory.schema s steps →
      ∀ w status, (leaves s steps).HasEntry Inventory.schema w →
      (leaves s steps).statusAt w = .ok status → status.isTerminal = true →
      ∃ x, DecidedBy steps w status x ∧
        (leaves s steps).valuesAt w "reviewed_by" = [x.context.user.text] := by
  intro hall
  have hreview := review_of_format
  simp only [Bool.and_eq_true, beq_iff_eq] at hreview
  obtain ⟨⟨⟨⟨⟨⟨hregistered, htypes⟩, hstatus⟩, hreviewer⟩, -⟩, -⟩, -⟩ := hreview
  have hentry : rejecting.after.HasEntry Inventory.schema "0x101" := by
    refine ⟨"FileFormat", by rw [htypes]; simp, ?_⟩
    exact Option.isSome_iff_ne_none.1 hregistered
  obtain ⟨x, -, hrecorded⟩ := hall _ (withoutEntries_start _ _) [rejecting]
    (.cons schema_rejecting (.nil _)) "0x101" .rejected hentry (toOption_eq_some.1 hstatus) rfl
  have hsome : rejecting.after.valuesAt "0x101" "reviewed_by" = [x.context.user.text] := hrecorded
  rw [hreviewer] at hsome
  cases hsome

end Workspace

end PressRegister
