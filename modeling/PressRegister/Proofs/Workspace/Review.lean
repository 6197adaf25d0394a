import PressRegister.Proofs.Inventory.Registry
import PressRegister.Proofs.Submission.Review
import PressRegister.Workspace

/-!
# The review over sessions

In a session submissions are made one after another, and each is written before the
next one is made. Who makes them, with which resolver, with which random names, and
whether the store refuses what is written, is left open. What one submission may do to
the review is read off from what it tells the store. No submission uses identifiers that
are yet to be given to new nodes, so the new nodes of a session are none that were there.

## Main definitions

* `Workspace.Request`: a submission that a user asks for.
* `Workspace.handleOf`: how a request is handled, for the evaluation of closed facts.
* `Workspace.Step`, `Workspace.Session`: requests, and requests one after another.
* `Workspace.Step.Permitted`: what a request may do to the review.

## Main results

* `Workspace.Step.permitted`, `Workspace.Step.unused`: a single request.
* `Workspace.session_permitted`: all requests of a session.
-/

namespace PressRegister.Workspace

open Consult Store

/-! ### Requests -/

/-- A submission that a user asks for. -/
inductive Request where
  | new (typeName : String) (form : Form)
  | edit (typeName : String) (form : Form)

namespace Request

/-- The submission that is made of a request. -/
def sanitize (d : Directory) (r : Resolver) (c : Context) : Request → Consult Submission
  | .new typeName form => newEntry d r typeName form c
  | .edit typeName form => editEntry d r typeName form c

/-- A request asks for a change of a node. -/
def Edits (request : Request) (w : String) : Prop :=
  ∃ typeName form u, request = .edit typeName form ∧ form.uid = .ok u ∧ u.text = w

variable {types : List EntityType} {schema : Schema} {s : Store} {fixed : Option Json}
  {r : Resolver} {c : Context} {request : Request} {before after : Desk} {sub : Submission}

theorem sanitize_reviewed (hbuild : Schema.build types = .ok schema)
    (hstatus : schema.KeepsStatus)
    (h : (request.sanitize (s.directory schema fixed) r c).Yields before sub after) :
    sub.Reviewed schema s c := by
  have hschema := Schema.wellFormed_of_build hbuild
  cases request with
  | new typeName form => exact newEntry_reviewed hschema h
  | edit typeName form => exact editEntry_reviewed hschema hstatus h

/-- Where a stored node is changed, a change of it was asked for, and it gets no types. -/
theorem sanitize_existing (hbuild : Schema.build types = .ok schema)
    (h : (request.sanitize (s.directory schema fixed) r c).Yields before sub after) {u : Uid}
    (hu : sub.entry.subject = .existing u) :
    request.Edits u.text ∧ sub.entry.operands Search.typeKey = [] := by
  cases request with
  | new typeName form =>
    obtain ⟨⟨node, hnode⟩, -, -⟩ :=
      newEntry_entry (d := s.directory schema fixed) (Schema.wellFormed_of_build hbuild) h
    rw [hnode] at hu
    cases hu
  | edit typeName form =>
    obtain ⟨⟨_, hform, hsubject⟩, -, -⟩ := editEntry_entry h
    rw [hsubject] at hu
    cases hu
    exact ⟨⟨typeName, form, _, rfl, hform, rfl⟩, editEntry_types hbuild h⟩

end Request

/-! ### Single requests -/

/-- Makes the submission that is asked for and writes it. -/
def handle (w : Workspace) (request : Request) (c : Context) :
    Except Error (Submission × NewUids) × Workspace :=
  match w.consult fun d => request.sanitize d w.resolver c with
  | (.error e, w) => (.error e, w)
  | (.ok sub, w) =>
    match w.apply sub.mutation with
    | (.error e, w) => (.error e, w)
    | (.ok uids, w) => (.ok (sub, uids), w)

/-- A new entry that is submitted is a request whose result is told by an identifier. -/
theorem submit_eq_handle (w : Workspace) (typeName : String) (form : Form) (c : Context) :
    w.submit typeName form c = match w.handle (.new typeName form) c with
      | (.error e, w) => (.error e, w)
      | (.ok (sub, uids), w) => (writtenUid uids sub.entry.subject, w) := by
  unfold submit handle Request.sanitize
  rcases w.consult fun d => newEntry d w.resolver typeName form c with ⟨e | sub, w'⟩
  · rfl
  · simp only
    rcases w'.apply sub.mutation with ⟨e | uids, w''⟩ <;> rfl

/-- A mutation is refused and changes nothing, or it is carried out. -/
theorem apply_cases (w : Workspace) (m : Mutation) :
    (∃ e, w.apply m = (.error e, w)) ∨
      ∃ uids w', w.apply m = (.ok uids, w') ∧ w'.schema = w.schema ∧
        commit w.schema w.store m = (w'.store, uids) := by
  unfold apply
  by_cases hempty : m.isEmpty = true
  · rw [if_pos hempty]
    obtain ⟨hdelete, hset⟩ := Bool.and_eq_true_iff.1 hempty
    refine .inr ⟨_, _, rfl, rfl, ?_⟩
    rw [commit, List.isEmpty_iff.1 hdelete, List.isEmpty_iff.1 hset]
    rfl
  · rw [if_neg hempty]
    cases w.refusal with
    | some message => exact .inl ⟨_, rfl⟩
    | none => exact .inr ⟨_, _, rfl, rfl, rfl⟩

/-- A request leaves the schema as it is. It fails and changes no store, or its submission is
made and carried out. -/
theorem handle_cases (w : Workspace) (request : Request) (c : Context) :
    (w.handle request c).2.schema = w.schema ∧
      ((∃ e, (w.handle request c).1 = .error e ∧ (w.handle request c).2.store = w.store) ∨
        ∃ sub uids desk, (w.handle request c).1 = .ok (sub, uids) ∧
          (request.sanitize (w.store.directory w.schema w.fixedAnswer) w.resolver c).Yields
            ⟨[], w.supply⟩ sub desk ∧
          commit w.schema w.store sub.mutation = ((w.handle request c).2.store, uids)) := by
  have hdirectory : w.directory = w.store.directory w.schema w.fixedAnswer := rfl
  unfold handle consult
  rw [hdirectory]
  cases hrun : (request.sanitize (w.store.directory w.schema w.fixedAnswer) w.resolver c).run
      ⟨[], w.supply⟩ with
  | mk result desk =>
    cases result with
    | error e => exact ⟨rfl, .inl ⟨e, rfl, rfl⟩⟩
    | ok sub =>
      simp only
      rcases apply_cases { w with
          supply := desk.supply
          asked := w.asked ++ desk.asked.map (·.text) } sub.mutation with
        ⟨e, happly⟩ | ⟨uids, w', happly, hschema, hcommit⟩
      · rw [happly]
        exact ⟨rfl, .inl ⟨e, rfl, rfl⟩⟩
      · rw [happly]
        exact ⟨hschema, .inr ⟨sub, uids, desk, rfl, hrun, hcommit⟩⟩

/-- How a request is handled by a store that reads questions off their bytes. -/
def handleOf (w : Workspace) (request : Request) (c : Context) :
    Except Error (Submission × NewUids) × Workspace :=
  let (result, desk) := (request.sanitize
    ⟨w.schema, fun q => .ok (w.store.answerOf w.fixedAnswer q)⟩ w.resolver c).run ⟨[], w.supply⟩
  let w := { w with supply := desk.supply, asked := w.asked ++ desk.asked.map (·.text) }
  match result with
  | .error e => (.error e, w)
  | .ok sub =>
    match w.apply sub.mutation with
    | (.error e, w) => (.error e, w)
    | (.ok uids, w) => (.ok (sub, uids), w)

theorem handle_eq : handle = handleOf := by
  funext w request c
  unfold handle handleOf consult directory
  rw [Store.answer_eq]
  rcases (request.sanitize ⟨w.schema, fun q => .ok (w.store.answerOf w.fixedAnswer q)⟩
    w.resolver c).run ⟨[], w.supply⟩ with ⟨e | sub, desk⟩ <;> rfl

/-! ### Sessions -/

/-- A request that a user makes in a workspace. -/
structure Step where
  workspace : Workspace
  request : Request
  context : Context

namespace Step

/-- How a request ends. -/
def result (x : Step) : Except Error (Submission × NewUids) :=
  (x.workspace.handle x.request x.context).1

/-- The store that a request is made in. -/
def before (x : Step) : Store :=
  x.workspace.store

/-- The workspace that a request leaves. -/
def left (x : Step) : Workspace :=
  (x.workspace.handle x.request x.context).2

/-- The store that a request leaves. -/
def after (x : Step) : Store :=
  x.left.store

/-- A request that is made in the workspace that another one left. -/
def next (x : Step) (request : Request) (c : Context) : Step :=
  ⟨x.left, request, c⟩

/-! Closed facts about sessions are decided faster for `Workspace.handleOf`. -/

theorem result_eq : result = fun x => (x.workspace.handleOf x.request x.context).1 := by
  rw [← handle_eq]
  rfl

theorem left_eq : left = fun x => (x.workspace.handleOf x.request x.context).2 := by
  rw [← handle_eq]
  rfl

theorem after_eq : after = fun x => (x.workspace.handleOf x.request x.context).2.store := by
  rw [← handle_eq]
  rfl

theorem schema_left (x : Step) : x.left.schema = x.workspace.schema :=
  (handle_cases x.workspace x.request x.context).1

/-- A request gives an identifier to a new node. -/
def Makes (x : Step) (w : String) : Prop :=
  ∃ sub uids name, x.result = .ok (sub, uids) ∧ uids.get? name = some w

/-- What a request may do to the review. -/
structure Permitted (x : Step) : Prop where
  /-- A request that fails changes nothing. -/
  failed : ∀ e, x.result = .error e → x.after = x.before
  /-- A new entry has a status that the user may give; a new node beside it that had its random
  name would be the same node. -/
  entry : ∀ sub uids, x.result = .ok (sub, uids) → ∀ node, sub.entry.subject = .new node →
    ∃ w, uids.get? node.name = some w ∧
      ((∀ t, .new t ∈ sub.related → t.node.name ≠ node.name) →
        ∃ status, x.after.statusAt w = .ok status ∧
          (status = .accepted ∨ status = .rejected → .reviewer ≤ x.context.role) ∧
          (status = .draft → .admin ≤ x.context.role))
  /-- New nodes beside an entry are drafts. -/
  satellites : ∀ sub uids, x.result = .ok (sub, uids) → ∀ t, .new t ∈ sub.related →
    ∃ w, uids.get? t.node.name = some w ∧ x.after.statusAt w = .ok .draft
  /-- Of the nodes that are not new, only the entry gets another status, and only from a user who
  may move it there and may change it. -/
  changed : ∀ w, ¬ x.Makes w → x.after.statusAt w ≠ x.before.statusAt w →
    x.request.Edits w ∧ ∃ source target, x.before.statusAt w = .ok source ∧
      x.after.statusAt w = .ok target ∧ ReviewStatus.requiredRole source target ≤ x.context.role ∧
      (.reviewer ≤ x.context.role ∨ x.before.submitterAt? w = some x.context.user)

/-- A request fails and changes nothing, or its submission is made and carried out. -/
theorem result_cases (x : Step) : (∃ e, x.result = .error e ∧ x.after = x.before) ∨
    ∃ sub desk, x.result = .ok (sub, (commit x.workspace.schema x.before sub.mutation).2) ∧
      (x.request.sanitize (x.before.directory x.workspace.schema x.workspace.fixedAnswer)
        x.workspace.resolver x.context).Yields ⟨[], x.workspace.supply⟩ sub desk ∧
      x.after = (commit x.workspace.schema x.before sub.mutation).1 := by
  rcases (handle_cases x.workspace x.request x.context).2 with
    ⟨e, hresult, hstore⟩ | ⟨sub, uids, desk, hresult, hsub, hcommit⟩
  · exact .inl ⟨e, hresult, hstore⟩
  · obtain rfl : (commit x.workspace.schema x.before sub.mutation).2 = uids :=
      congrArg Prod.snd hcommit
    exact .inr ⟨sub, desk, hresult, hsub, (congrArg Prod.fst hcommit).symm⟩

variable {types : List EntityType} {x : Step}

/-- A single request does to the review what it may do. -/
theorem permitted (hbuild : Schema.build types = .ok x.workspace.schema)
    (hstatus : x.workspace.schema.KeepsStatus) : x.Permitted := by
  rcases x.result_cases with ⟨e, hresult, hsame⟩ | ⟨sub, desk, hresult, hsub, hafter⟩
  · have hfails {sub : Submission} {uids : NewUids} : x.result ≠ .ok (sub, uids) := by
      rw [hresult]
      exact nofun
    refine ⟨fun _ _ => hsame, fun sub uids h => absurd h hfails, fun sub uids h => absurd h hfails,
      fun w _ hne => ?_⟩
    rw [hsame] at hne
    exact absurd rfl hne
  · have hreviewed := Request.sanitize_reviewed hbuild hstatus hsub
    have hown := hstatus.isOwn hbuild
    have hlist := hstatus.isList_eq_false
    -- there is one result
    have honce {sub' : Submission} {uids : NewUids} (h : x.result = .ok (sub', uids)) :
        sub' = sub ∧ uids = (commit x.workspace.schema x.before sub.mutation).2 :=
      Prod.mk.inj (Except.ok.inj (h.symm.trans hresult))
    refine ⟨fun e h => ?_, ?_, ?_, fun w hw hne => ?_⟩
    · rw [hresult] at h
      cases h
    · rintro _ _ h node hnode
      obtain ⟨rfl, rfl⟩ := honce h
      obtain ⟨w, hmade, hstored⟩ := hreviewed.status_entry hown hlist hnode
      exact ⟨w, hmade, fun hapart => ⟨_, hafter ▸ hstored hapart, (hreviewed.new node hnode).2⟩⟩
    · rintro _ _ h t ht
      obtain ⟨rfl, rfl⟩ := honce h
      rw [hafter]
      exact hreviewed.status_satellite hown hlist ht
    · rw [hafter] at hne ⊢
      obtain ⟨u, source, hu, rfl, hsource, htarget, hrole, haccess⟩ :=
        hreviewed.of_statusAt_ne hown hlist (fun name h => hw ⟨_, _, name, hresult, h⟩) hne
      exact ⟨(Request.sanitize_existing hbuild hsub hu).1, source, _, hsource, htarget, hrole,
        haccess⟩

/-- Identifiers for new nodes that are not in use stay so, and new nodes are none that were
there. -/
theorem unused (hbuild : Schema.build types = .ok x.workspace.schema)
    (hstatus : x.workspace.schema.KeepsStatus) (h : x.before.Unused) :
    x.after.Unused ∧ ∀ w, x.before.HasNode w → ¬ x.Makes w := by
  rcases x.result_cases with ⟨e, hresult, hsame⟩ | ⟨sub, desk, hresult, hsub, hafter⟩
  · refine ⟨hsame ▸ h, ?_⟩
    rintro w - ⟨sub, uids, name, hmade, -⟩
    rw [hresult] at hmade
    cases hmade
  · constructor
    · rw [hafter]
      exact (Request.sanitize_reviewed hbuild hstatus hsub).unused (Schema.isOwn_typeKey hbuild)
        (fun u hu => (Request.sanitize_existing hbuild hsub hu).2) h
    · rintro w hw ⟨sub', uids, name, hmade, hname⟩
      rw [hresult] at hmade
      cases hmade
      exact h.not_made hw _ name hname

end Step

/-- Requests that are made one after another, each in the store that the one before left. -/
inductive Session (schema : Schema) : Store → List Step → Prop
  | nil (s : Store) : Session schema s []
  | cons {x : Step} {rest : List Step} (hschema : x.workspace.schema = schema)
      (hrest : Session schema x.after rest) : Session schema x.before (x :: rest)

theorem Session.pair {schema : Schema} {x : Step} (hschema : x.workspace.schema = schema)
    (request : Request) (c : Context) :
    Session schema x.before [x, x.next request c] := by
  have hnext : (x.next request c).workspace.schema = schema := x.schema_left.trans hschema
  exact .cons hschema (.cons (x := x.next request c) hnext (.nil _))

/-- Every request of a session does to the review what it may do. New nodes are none that were
there, if the identifiers for new nodes are not in use to begin with. -/
theorem session_permitted {types : List EntityType} {schema : Schema}
    (hbuild : Schema.build types = .ok schema) (hstatus : schema.KeepsStatus) {s : Store}
    {steps : List Step} (h : Session schema s steps) :
    (∀ x ∈ steps, x.Permitted) ∧
      (s.Unused → ∀ x ∈ steps, ∀ w, x.before.HasNode w → ¬ x.Makes w) := by
  induction h with
  | nil s => simp
  | @cons x rest hschema hrest ih =>
    subst hschema
    refine ⟨List.forall_mem_cons.2 ⟨Step.permitted hbuild hstatus, ih.1⟩, fun hunused => ?_⟩
    obtain ⟨hunused', hnew⟩ := Step.unused hbuild hstatus hunused
    exact List.forall_mem_cons.2 ⟨hnew, ih.2 hunused'⟩

/-! ### A source that is accepted -/

theorem keepsStatus_inventory : Inventory.schema.KeepsStatus := by
  have h : ((Inventory.schema.predicate? ReviewStatus.predicateName).any fun p =>
      p.storageClass == .scalar) = true := by
    rw [Inventory.predicate?_schema]
    decide +kernel
  obtain ⟨p, hp, hscalar⟩ := (Option.any_eq_true _ _).1 h
  exact ⟨p, hp, by simpa using hscalar⟩

/-- A workspace with one channel. -/
def withChannel : Workspace :=
  let w := start stubResolver .counting
  { w with store := (w.store.addNode ["Channel", "Entry"] []).2 }

/-- A contributor submits a source with a sibling. -/
def submitting : Step where
  workspace := withChannel
  request := .new "Source" (((Table.empty.insert "name" (.string "Foo")).insert "channel"
    (.string "0x101")).insert "sibling_sources" (.array [.string "Bar"]))
  context := ⟨Uid.ofNat 0x100, .contributor, "", ⟨0, 0⟩, false⟩

/-- A reviewer accepts the source. -/
def accepting : Step :=
  submitting.next (.edit "Source" (Table.empty.insert "uid" (.string "0x102")))
    ⟨Uid.ofNat 0x1, .reviewer, "", ⟨0, 0⟩, true⟩

/-- The source is pending until it is accepted. -/
theorem status_of_source :
    ((accepting.before.statusAt "0x102").toOption == some .pending &&
      (accepting.after.statusAt "0x102").toOption == some .accepted) = true := by
  rewrite [accepting, submitting, withChannel, start, Step.before, Step.next, Step.after_eq,
    Step.left_eq, Inventory.schema_eq]
  decide +kernel

/-- The source is submitted and accepted as permitted. -/
theorem session_permitted_source :
    Schema.build Inventory.entityTypes = .ok Inventory.schema ∧ Inventory.schema.KeepsStatus ∧
    submitting.before.Unused ∧
    Session Inventory.schema submitting.before [submitting, accepting] ∧
    accepting.before.statusAt "0x102" = .ok .pending ∧
    accepting.after.statusAt "0x102" = .ok .accepted ∧
    (∀ x ∈ [submitting, accepting], x.Permitted) ∧
    ∀ x ∈ [submitting, accepting], ∀ w, x.before.HasNode w → ¬ x.Makes w := by
  have hunused : submitting.before.Unused := by
    have hstart :=
      ((fresh_empty.addNode [Inventory.userType] []).addNode ["Channel", "Entry"] []).unused
    simp only [Step.before, submitting, withChannel, start]
    exact hstart
  have hschema : submitting.workspace.schema = Inventory.schema := by
    simp only [submitting, withChannel, start, addNode]
  have hsession : Session Inventory.schema submitting.before [submitting, accepting] :=
    .pair hschema _ _
  obtain ⟨hpending, haccepted⟩ := Bool.and_eq_true_iff.1 status_of_source
  obtain ⟨hpermitted, hnew⟩ :=
    session_permitted Inventory.build_entityTypes keepsStatus_inventory hsession
  exact ⟨Inventory.build_entityTypes, keepsStatus_inventory, hunused, hsession,
    toOption_eq_some.1 (beq_iff_eq.1 hpending), toOption_eq_some.1 (beq_iff_eq.1 haccepted),
    hpermitted, hnew hunused⟩

end PressRegister.Workspace
