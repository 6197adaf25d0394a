import PressRegister.Proofs.Inventory.Upsert
import PressRegister.Proofs.Submission.BlankNodes
import PressRegister.Proofs.Submission.Frame
import PressRegister.Proofs.Submission.Targets

/-!
# What a new entry adds to a store

A new entry becomes one node, and each new node beside it one more. The node of the entry
has the types, the names, the status, the submitter and the date of the submission and
what its type requires. All that happens to the nodes that were there is that those which
the entry has for values of fields that point back gain an edge to it.
-/

namespace PressRegister

open Consult Store

/-! ### The new nodes of a submission -/

/-- The names of the new nodes of a submission: the entry, if it is new, and the new nodes
beside it. -/
def Submission.newNames (sub : Submission) : List String :=
  (match sub.entry.subject with
    | .new b => [b.name]
    | _ => []) ++ sub.related.filterMap fun
    | .new x => some x.node.name
    | .existing _ => none

/-- All statements of a submission are about nodes that are there and its new nodes. -/
def Submission.IsAbout (s : Store) (sub : Submission) : Prop :=
  ∀ q ∈ sub.mutation.set, (∃ u, q.subject = .existing u ∧ s.node? u.text ≠ none) ∨
    ∃ name ∈ sub.newNames, q.subject.isNamed name = true

/-- A schema separates the fields that point back from those that the system sets, and the
fields of a type from each other. -/
structure Schema.Separates (schema : Schema) : Prop where
  coherent : ∀ t ∈ schema.types.values, Mutation.Coherent schema t
  plain : Mutation.KeepsPlain schema
  system : ∀ name ∈ setBySystem, schema.IsForward name

theorem separates_inventory : Inventory.schema.Separates where
  coherent := Inventory.coherent_keepsPlain.1
  plain := Inventory.coherent_keepsPlain.2
  system := by
    simp only [Schema.IsForward, Schema.direction?, Inventory.predicate?_schema]
    decide +kernel

theorem Schema.Separates.isForward_typeKey {schema : Schema} (h : schema.Separates) :
    schema.IsForward Search.typeKey :=
  h.plain _ List.mem_cons_self

theorem Submission.mem_newNames {sub : Submission} {name : String} :
    name ∈ sub.newNames ↔ sub.entry.subject.isNamed name = true ∨
      ∃ x, .new x ∈ sub.related ∧ x.node.name = name := by
  have hentry : name ∈ (match sub.entry.subject with | .new b => [b.name] | _ => []) ↔
      sub.entry.subject.isNamed name = true := by
    cases sub.entry.subject <;> simp [Subject.isNamed, eq_comm]
  rw [newNames, List.mem_append, hentry, List.mem_filterMap]
  refine or_congr_right ⟨?_, ?_⟩
  · rintro ⟨_ | x, hx, hname⟩
    · cases hname
    · exact ⟨x, hx, Option.some.inj hname⟩
  · rintro ⟨x, hx, hname⟩
    exact ⟨.new x, hx, congrArg some hname⟩

namespace Submission

variable {sub : Submission}

/-- New nodes beside an entry have different names. -/
theorem eq_of_nodup_newNames (h : sub.newNames.Nodup) {x y : Satellite} (hx : .new x ∈ sub.related)
    (hy : .new y ∈ sub.related) (hsame : x.node.name = y.node.name) : x = y := by
  have hrelated := (List.nodup_append.1 h).2.1
  generalize sub.related = related at hx hy hrelated
  induction related with
  | nil => cases hx
  | cons first rest ih =>
    cases first with
    | existing u =>
      exact ih (by simpa using hx) (by simpa using hy) (by simpa using hrelated)
    | new z =>
      obtain ⟨hz, hrest⟩ := List.nodup_cons.1 hrelated
      have habsent {t : Satellite} (ht : .new t ∈ rest) : t.node.name ≠ z.node.name := fun heq =>
        hz (List.mem_filterMap.2 ⟨.new t, ht, congrArg some heq⟩)
      rcases List.mem_cons.1 hx with hx | hx <;> rcases List.mem_cons.1 hy with hy | hy
      · exact (Related.new.inj hx).trans (Related.new.inj hy).symm
      · rw [Related.new.inj hx] at hsame
        exact absurd hsame.symm (habsent hy)
      · rw [Related.new.inj hy] at hsame
        exact absurd hsame (habsent hx)
      · exact ih hx hy hrest

/-- A new entry has another name than the new nodes beside it. -/
theorem name_ne_of_nodup_newNames (h : sub.newNames.Nodup) {node : BlankNode}
    (hnode : sub.entry.subject = .new node) {x : Satellite} (hx : .new x ∈ sub.related) :
    node.name ≠ x.node.name := by
  refine (List.nodup_append.1 h).2.2 _ ?_ _ (List.mem_filterMap.2 ⟨.new x, hx, rfl⟩)
  rw [hnode]
  exact List.mem_singleton_self _

end Submission

theorem Subject.stored?_of_isNamed {x : Subject} {name : String} (h : x.isNamed name = true)
    (uids : NewUids) : x.stored? uids = uids.get? name := by
  cases x with
  | new b => rw [Subject.stored?, of_decide_eq_true h]
  | _ => cases h

/-- A field of a type points back if the schema says so of its name. It is a list then, and leads
to nodes of the same types. -/
theorem Schema.Separates.of_pointsBack {schema : Schema} (h : schema.Separates)
    (hbuild : schema.WellFormed) {typeName name : String} {t : TypeDef} {p : Predicate}
    (ht : schema.type? typeName = some t) (hp : t.predicate? name = some p)
    (hback : schema.PointsBack name) : p.pointsBack = true ∧ p.edge = schema.edge name ∧
      isList schema p.edge = true ∧
      (schema.predicate? name).map Mutation.owners = some (Mutation.owners p) := by
  obtain ⟨hmem, rfl⟩ := Mutation.mem_of_predicate? hp
  have hseparate := h.coherent t (Table.mem_values_iff.2 ⟨_, hbuild.get?_of_type? ht⟩) p hmem
  have hpoints : p.pointsBack = true := by
    by_contra hnot
    refine hback ?_
    rw [Schema.IsForward, hseparate.direction?_eq]
    exact Predicate.direction?_of_not_pointsBack (by simpa using hnot)
  obtain ⟨howners, hlist, -⟩ := hseparate.2.2.2 hpoints
  exact ⟨hpoints, hseparate.edge_eq.symm, hlist, howners⟩

/-- Nodes that a field may lead to are there. -/
theorem Predicate.Allows.node? {p : Predicate} {s : Store} {w : String}
    (h : p.Allows (s.toldTypes w)) : s.node? w ≠ none := by
  intro hnone
  rw [toldTypes, hnone] at h
  exact h.1 rfl

namespace Composition

variable {s : Store} {schema : Schema} {fixed : Option Json} {r : Resolver} {typeName : String}
  {form : Form} {c : Context} {sub : Submission}
  (comp : Composition (s.directory schema fixed) r typeName form c sub)

include comp in
/-- A value of a field that points back was given by the form: it is a stored node that the field
may lead to, or a new node beside the entry. -/
theorem back_value (hbuild : schema.WellFormed) (hschema : schema.Separates) {name : String}
    (hback : schema.PointsBack name) {o : Object} (ho : o ∈ sub.entry.values name) :
    ∃ p, comp.type.predicate? name = some p ∧ p.pointsBack = true ∧ p.edge = schema.edge name ∧
      isList schema p.edge = true ∧
      ((∃ u, o.value = .existing u ∧ p.Allows (s.toldTypes u.text)) ∨
        ∃ x, .new x ∈ sub.related ∧ o.value = .new x.node) := by
  have hsystem : name ∉ setBySystem := fun hmem => hback (hschema.system name hmem)
  rw [comp.kept (List.not_mem_of_not_mem_cons hsystem) (List.ne_of_not_mem_cons hsystem)] at ho
  obtain ⟨p, hp⟩ : ∃ p, comp.type.predicate? name = some p := by
    cases hget : comp.fields.get? name with
    | none =>
      rw [Entity.values, comp.labels_resolve.unset hget] at ho
      cases ho
    | some objects =>
      obtain ⟨p, hp, -⟩ := comp.reads name objects hget
      exact ⟨p, hp⟩
  obtain ⟨hpoints, hedge, hlist, -⟩ := hschema.of_pointsBack hbuild comp.isType hp hback
  obtain ⟨-, rfl⟩ := Mutation.mem_of_predicate? hp
  have hrel : p.isRelationship = true := by
    rcases Predicate.direction?_of_pointsBack hpoints with ⟨edge, hdir⟩ | hdir <;>
      exact (Option.isSome_map ..).symm.trans (congrArg Option.isSome hdir)
  refine ⟨p, hp, hpoints, hedge, hlist, ?_⟩
  refine (comp.value_cases hp hrel ho).imp_right ?_
  rintro ⟨key, t, hlabel, hvalue, -⟩
  obtain ⟨x, hx, hextends⟩ := comp.exists_satellite hlabel
  exact ⟨x, hx, by rw [hvalue, hextends.node]⟩

include comp in
/-- New nodes beside an entry are local, if those that the resolver makes are. -/
theorem isLocal (hplain : Mutation.KeepsPlain schema) (hr : r.IsLocal schema) {x : Satellite}
    (hx : .new x ∈ sub.related) : x.IsLocal schema := by
  obtain ⟨p, node, stub, unique, hstub, hextends⟩ := comp.exists_completed hx
  exact hextends.isLocal hplain (hr p node stub hstub)

include comp in
/-- All statements of a submission are about nodes that are there and its new nodes. -/
theorem isAbout (hbuild : schema.WellFormed) (hschema : schema.Separates)
    (hwritten : sub.Written schema) (hlocal : ∀ x, .new x ∈ sub.related → x.IsLocal schema)
    (hentry : ∀ u, sub.entry.subject = .existing u → s.node? u.text ≠ none) : sub.IsAbout s := by
  intro q hq
  rw [hwritten.set] at hq
  rcases List.mem_append.1 hq with hq | hq
  · rcases Entity.subject_of_mem_statements hq with hsubject | ⟨name, hback, o, ho, hvalue⟩
    · rw [hsubject]
      have hnode := hwritten.node
      cases hx : sub.entry.subject with
      | existing u => exact .inl ⟨u, rfl, hentry u hx⟩
      | new b =>
        refine .inr ⟨b.name, Submission.mem_newNames.2 (.inl ?_), ?_⟩ <;> simp [hx, Subject.isNamed]
      | var v => rw [hx] at hnode; cases hnode
    · obtain ⟨p, -, -, -, -, ⟨u, hu, hallows⟩ | ⟨x, hx, hnode⟩⟩ :=
        comp.back_value hbuild hschema hback ho
      · rw [hu] at hvalue
        exact .inl ⟨u, (Option.some.inj hvalue).symm, hallows.node?⟩
      · rw [hnode] at hvalue
        refine .inr ⟨x.node.name, Submission.mem_newNames.2 (.inr ⟨x, hx, rfl⟩), ?_⟩
        rw [← Option.some.inj hvalue]
        simp [Subject.isNamed]
  · obtain ⟨_ | x, hx, hq⟩ := List.mem_flatMap.1 hq
    · cases hq
    · rcases Entity.subject_of_mem_statements hq with hsubject | ⟨name, hback, o, ho, -⟩
      · refine .inr ⟨x.node.name, Submission.mem_newNames.2 (.inr ⟨x, hx, rfl⟩), ?_⟩
        rw [hsubject]
        simp [Satellite.entity, Subject.isNamed]
      · exact (hback ((hlocal x hx).isForward hschema.isForward_typeKey ho)).elim

end Composition

/-! ### The nodes after a submission -/

namespace Submission

variable {schema : Schema} {s : Store} {sub : Submission} {w name : String}

/-- Every new node of a submission that is stored is given an identifier of its own. -/
theorem exists_newUids {m : Mutation} (hnames : sub.newNames.Nodup)
    (hstored : ∀ name ∈ sub.newNames, ∃ w, (commit schema s m).2.get? name = some w) :
    ∃ ws : List String, sub.newNames.map (commit schema s m).2.get? = ws.map some ∧ ws.Nodup := by
  generalize sub.newNames = names at hnames hstored
  induction names with
  | nil => exact ⟨[], rfl, List.nodup_nil⟩
  | cons name rest ih =>
    obtain ⟨hname, hrest⟩ := List.nodup_cons.1 hnames
    obtain ⟨ws, hws, hnodup⟩ := ih hrest fun other hother =>
      hstored other (List.mem_cons_of_mem _ hother)
    obtain ⟨w, hw⟩ := hstored name List.mem_cons_self
    refine ⟨w :: ws, by rw [List.map_cons, List.map_cons, hw, hws], List.nodup_cons.2 ⟨?_, hnodup⟩⟩
    intro hmem
    have hsome : some w ∈ rest.map (commit schema s m).2.get? :=
      hws ▸ List.mem_map_of_mem hmem
    obtain ⟨other, hother, hsame⟩ := List.mem_map.1 hsome
    exact hname ((commit_allots schema s m).distinct hw hsame ▸ hother)

/-- The nodes after a submission are those that were there, and its new nodes. -/
theorem IsAbout.node?_commit (h : sub.IsAbout s)
    (hstored : ∀ name ∈ sub.newNames, ∀ w,
      (commit schema s sub.mutation).2.get? name = some w →
        (commit schema s sub.mutation).1.node? w ≠ none) :
    (commit schema s sub.mutation).1.node? w ≠ none ↔ s.node? w ≠ none ∨
      ∃ name ∈ sub.newNames, (commit schema s sub.mutation).2.get? name = some w := by
  constructor
  · intro hnode
    rcases Store.node?_commit.1 hnode with hold | ⟨q, hq, -, hw⟩
    · exact .inl hold
    · rcases h q hq with ⟨u, hu, hnode⟩ | ⟨name, hname, hnamed⟩
      · rw [hu] at hw
        exact .inl (Option.some.inj hw ▸ hnode)
      · exact .inr ⟨name, hname, (Subject.stored?_of_isNamed hnamed _).symm.trans hw⟩
  · rintro (hold | ⟨name, hname, hw⟩)
    · exact node?_commit_of_node? hold
    · exact hstored name hname w hw

/-- The numbers above the last one stay unused after a submission. -/
theorem IsAbout.fresh (h : sub.IsAbout s) (hfresh : s.Fresh) :
    (commit schema s sub.mutation).1.Fresh := by
  refine hfresh.commit fun q hq u hu => ?_
  rcases h q hq with ⟨u', hu', hnode⟩ | ⟨name, -, hnamed⟩
  · rw [hu] at hu'
    cases hu'
    exact hnode
  · rw [hu] at hnamed
    cases hnamed

/-- The nodes after a submission are those that were there and the new ones, each once. -/
theorem IsAbout.perm_keys (h : sub.IsAbout s) (hfresh : s.Fresh) {ws : List String}
    (hws : sub.newNames.map (commit schema s sub.mutation).2.get? = ws.map some) (hnodup : ws.Nodup)
    (hstored : ∀ name ∈ sub.newNames, ∀ w,
      (commit schema s sub.mutation).2.get? name = some w →
        (commit schema s sub.mutation).1.node? w ≠ none) :
    (commit schema s sub.mutation).1.nodes.keys.Perm (ws ++ s.nodes.keys) := by
  have hmem : ∀ w, (∃ name ∈ sub.newNames,
      (commit schema s sub.mutation).2.get? name = some w) ↔ w ∈ ws := by
    intro w
    rw [← List.mem_map, hws]
    simp
  refine (List.perm_ext_iff_of_nodup (Table.nodup_keys _) ?_).2 fun w => ?_
  · refine List.nodup_append.2 ⟨hnodup, Table.nodup_keys _, ?_⟩
    rintro w hw _ hold rfl
    obtain ⟨name, -, hname⟩ := (hmem w).2 hw
    exact commit_get?_ne schema s sub.mutation hfresh (Table.mem_keys_iff_ne_none.1 hold) name hname
  · rw [List.mem_append, Table.mem_keys_iff_ne_none, Table.mem_keys_iff_ne_none, ← hmem w,
      or_comm]
    exact h.node?_commit hstored

/-- All new nodes of a submission are stored, as they have a status. -/
theorem Reviewed.exists_stored {c : Context} (h : sub.Reviewed schema s c)
    (hown : schema.IsOwn ReviewStatus.predicateName) (hname : name ∈ sub.newNames) :
    ∃ w, (commit schema s sub.mutation).2.get? name = some w ∧
      (commit schema s sub.mutation).1.node? w ≠ none := by
  rcases mem_newNames.1 hname with hentry | ⟨x, hx, rfl⟩
  · obtain ⟨b, hb⟩ : ∃ b, sub.entry.subject = .new b := by
      cases hsubject : sub.entry.subject <;> simp_all [Subject.isNamed]
    obtain ⟨w, hw, htold⟩ := h.told_ne_nil (s := s) hown (by
      rw [(h.new b hb).1]
      exact List.cons_ne_nil _ _)
    obtain ⟨v, hv⟩ := List.exists_mem_of_ne_nil _ htold
    exact ⟨w, (Subject.stored?_of_isNamed hentry _).symm.trans hw, node?_of_mem_told hv⟩
  · have hmem : Statement.plain (.new x.node) ReviewStatus.predicateName
        (.ofText ReviewStatus.draft.name) ∈ sub.mutation.set := by
      rw [h.set]
      refine List.mem_append_right _ (List.mem_flatMap.2 ⟨.new x, hx, ?_⟩)
      refine Entity.mem_statements.2 ⟨ReviewStatus.predicateName, draftField, ?_,
        .plain (.ofText ReviewStatus.draft.name), List.mem_singleton_self _, ?_⟩
      · exact (Table.get?_insert _ _ _ _).trans ((if_neg (by decide)).trans (h.satellites x hx))
      · rcases hown.1 with hdir | hdir <;> rw [hdir] <;> exact List.mem_singleton_self _
    obtain ⟨w, v, hw, -⟩ := commit_stored schema s sub.mutation hmem rfl
    exact ⟨w, hw, node?_commit.2 (.inr ⟨_, hmem, rfl, hw⟩)⟩

/-- The entry of a submission is stored. -/
theorem Reviewed.exists_subject {c : Context} (h : sub.Reviewed schema s c)
    (hown : schema.IsOwn ReviewStatus.predicateName) :
    ∃ w, sub.entry.subject.stored? (commit schema s sub.mutation).2 = some w := by
  have hnode := h.node
  cases hsubject : sub.entry.subject with
  | existing u => exact ⟨u.text, rfl⟩
  | new b =>
    have hname : b.name ∈ sub.newNames :=
      mem_newNames.2 (.inl (by rw [hsubject]; exact decide_eq_true rfl))
    exact (h.exists_stored hown hname).imp fun _ hw => hw.1
  | var x =>
    rw [hsubject] at hnode
    cases hnode

end Submission

/-! ### The node of a new entry -/

/-- A number above the last one is of an empty node. -/
theorem Store.nodeAt_of_made {schema : Schema} {s : Store} {m : Mutation} (h : s.Fresh)
    {name w : String} (hw : (commit schema s m).2.get? name = some w) : s.nodeAt w = .empty := by
  obtain ⟨n, hn, -, rfl⟩ := (commit_allots schema s m).numbered hw
  exact nodeAt_of_none (h n hn)

theorem Store.valuesAt_of_made {schema : Schema} {s : Store} {m : Mutation} (h : s.Fresh)
    {name w : String} (hw : (commit schema s m).2.get? name = some w) (q : String) :
    s.valuesAt w q = [] := by
  rw [valuesAt, nodeAt_of_made h hw]
  rfl

namespace Submission

variable {schema : Schema} {s : Store} {sub : Submission} {w name : String}

section Entry

variable (h : sub.Written schema)
  (hapart : ∀ x, .new x ∈ sub.related → sub.entry.subject.isNamed x.node.name = false)
  {node : BlankNode} (hnode : sub.entry.subject = .new node)
  (hw : (commit schema s sub.mutation).2.get? node.name = some w)
include h hapart hnode hw

/-- A new entry alone tells its node the values of a field that has its edge to itself. -/
theorem Written.told_entry (hown : schema.IsOwn name) :
    told (commit schema s sub.mutation).2 w name sub.mutation.set =
      sub.entry.storedValues (commit schema s sub.mutation).2 name := by
  have hsatellites : told (commit schema s sub.mutation).2 w name
      (Mutation.satelliteStatements schema sub.related) = [] := by
    rw [List.eq_nil_iff_forall_not_mem]
    intro v hv
    obtain ⟨x, hx, hxw, -⟩ := (Mutation.mem_told_satelliteStatements hown).1 hv
    have hsame := (commit_allots schema s sub.mutation).distinct hxw hw
    have hx' := hapart x hx
    simp [hnode, Subject.isNamed, hsame] at hx'
  rw [h.set, told_append, hsatellites, List.append_nil, Entity.told_own hown, hnode]
  exact if_pos hw

theorem Written.valuesAt_entry (hfresh : s.Fresh) (hown : schema.IsOwn name)
    (hname : name ≠ Search.typeKey) :
    (commit schema s sub.mutation).1.valuesAt w name = setValues (isList schema name) []
      (sub.entry.storedValues (commit schema s sub.mutation).2 name) := by
  rw [commit_valuesAt _ _ _ _ hname, h.told_entry hapart hnode hw hown,
    valuesAt_of_made hfresh hw]
  rfl

theorem Written.typesAt_entry (hfresh : s.Fresh) (hown : schema.IsOwn Search.typeKey) :
    (commit schema s sub.mutation).1.typesAt w = Predicate.withoutRepeats
      (sub.entry.storedValues (commit schema s sub.mutation).2 Search.typeKey) := by
  rw [commit_typesAt, h.told_entry hapart hnode hw hown, typesAt, nodeAt_of_made hfresh hw]
  exact setValues_true_nil _

/-- A single value of a new entry is stored as it is. -/
theorem Written.valuesAt_entry_single (hfresh : s.Fresh) (hown : schema.IsOwn name)
    (hname : name ≠ Search.typeKey) {x : Operand} {v : String}
    (hx : sub.entry.operands name = [x])
    (hv : x.stored? (commit schema s sub.mutation).2 = some v) :
    (commit schema s sub.mutation).1.valuesAt w name = [v] := by
  rw [h.valuesAt_entry hapart hnode hw hfresh hown hname, Entity.storedValues_eq, hx,
    List.filterMap_cons_some hv]
  simp [setValue]

end Entry

end Submission

section Run

variable {d : Directory} {r : Resolver} {typeName : String} {form : Form} {c : Context}
  {before after : Desk} {sub : Submission}

/-- The submitter and the date of a new entry are those of the submission. -/
theorem NewRun.operands_system (run : NewRun d r typeName form c before after sub) :
    sub.entry.operands "entry_added" = [.existing c.user] ∧
      sub.entry.operands "creation_date" = [.literal (.instant c.now)] := by
  rw [run.entry_eq, operands_withoutEmptyFields, operands_withoutEmptyFields]
  unfold withSystemFields Entity.operands
  simp only
  split <;> simp [Entity.set, Table.get?_insert, Context.userEdge, Context.date, Object.plain]

/-- A new entry is named: it has a literal for a unique name. -/
theorem withUniqueName_text {t : TypeDef} {e e' : Entity}
    (h : (withUniqueName d t e).Yields before e' after) : ∃ v, e'.text? "unique_name" = some v := by
  unfold withUniqueName at h
  split at h
  · rename_i requested hrequested
    obtain ⟨taken, mid, -, h⟩ := yields_bind.1 h
    split at h
    · exact (not_yields_fail h).elim
    · obtain ⟨rfl, -⟩ := yields_pure.1 h
      exact ⟨requested, hrequested⟩
  · simp only [yields_bind, yields_pure] at h
    obtain ⟨⟨v, e₁⟩, mid, -, rfl, -⟩ := h
    refine ⟨Text.trim v, ?_⟩
    rw [Entity.text?_eq, Entity.operands, Entity.set, Table.get?_insert_self]
    rfl

/-- The unique name of a new entry is stored, whatever identifiers new nodes get. -/
theorem NewRun.uniqueName_stored (run : NewRun d r typeName form c before after sub)
    (uids : NewUids) : sub.entry.storedValues uids "unique_name" ≠ [] := by
  obtain ⟨v, hv⟩ := withUniqueName_text run.names
  have hoperands : sub.entry.operands "unique_name" = run.named.operands "unique_name" := by
    rw [run.entry_eq, operands_withoutEmptyFields, Entity.operands,
      get?_withSystemFields (by decide), Entity.operands]
  rw [Entity.text?_eq] at hv
  obtain ⟨x, hx, htext⟩ := Option.bind_eq_some_iff.1 hv
  have hmem : x ∈ sub.entry.operands "unique_name" := hoperands ▸ List.mem_of_mem_head? hx
  obtain ⟨stored, hstored⟩ : ∃ y, x.stored? uids = some y := by
    cases x <;> first | exact ⟨_, rfl⟩ | cases htext
  rw [Entity.storedValues_eq]
  exact List.ne_nil_of_mem (List.mem_filterMap.2 ⟨x, hmem, hstored⟩)

end Run

section Directory

variable {types : List EntityType} {s : Store} {schema : Schema} {fixed : Option Json}
  {r : Resolver} {typeName : String} {form : Form} {c : Context} {before after : Desk}
  {sub : Submission}

/-- The type of a new entry is the one that was asked for, and the entry was composed. -/
theorem newEntry_run (hbuild : Schema.build types = .ok schema)
    (h : (newEntry (s.directory schema fixed) r typeName form c).Yields before sub after) :
    ∃ run : NewRun (s.directory schema fixed) r typeName form c before after sub,
      schema.type? typeName = some run.type ∧ run.type.name = sub.typeName ∧
        Nonempty (Composition (s.directory schema fixed) r typeName form c sub) := by
  obtain ⟨run⟩ := newEntry_yields.1 h
  exact ⟨run, entryType_ok run.isType, (congrArg Submission.typeName run.result).symm,
    run.composition hbuild⟩

/-- The node of a new entry has a value for every required field. -/
theorem newEntry_complete (hschema : schema.WellFormed)
    (h : (newEntry (s.directory schema fixed) r typeName form c).Yields before sub after)
    {t : TypeDef} (ht : schema.types.get? sub.typeName = some t) {w : String}
    (hw : sub.entry.subject.stored? (commit schema s sub.mutation).2 = some w) {p : Predicate}
    (hp : p ∈ t.predicates) (hrequired : p.required = true) (hreadOnly : p.readOnly = false)
    (hown : schema.IsOwn p.name) (hname : p.name ≠ Search.typeKey) :
    (commit schema s sub.mutation).1.valuesAt w p.name ≠ [] := by
  have hwritten : sub.Written schema := newEntry_written hschema h
  obtain ⟨w', hw', htold⟩ := hwritten.told_ne_nil (s := s) hown
    (newEntry_required hschema h ht hp hrequired hreadOnly)
  obtain rfl : w = w' := Option.some.inj (hw.symm.trans hw')
  rw [commit_valuesAt _ _ _ _ hname]
  exact fun hnil => htold (setValues_eq_nil.1 hnil).2

end Directory

/-! ### The other nodes -/

namespace Composition

variable {s : Store} {schema : Schema} {fixed : Option Json} {typeName : String} {form : Form}
  {c : Context} {sub : Submission}

/-- A stub among the related nodes is named by its label. -/
theorem name_of_get?_nodes (comp : Composition (s.directory schema fixed) stubResolver typeName
      form c sub) {key : String} {t : Satellite} (hget : comp.nodes.get? key = some (.new t)) :
    t.node.name = key := by
  obtain ⟨t', hlabel, hextends⟩ := comp.exists_of_get?_nodes hget
  rw [hextends.node, (comp.exists_stub hlabel).1]

/-- Different new nodes have different names, if the entry has a name of its own. -/
theorem nodup_newNames (comp : Composition (s.directory schema fixed) stubResolver typeName form c
      sub)
    (hapart : ∀ x, .new x ∈ sub.related → sub.entry.subject.isNamed x.node.name = false) :
    sub.newNames.Nodup := by
  refine List.nodup_append.2 ⟨?_, ?_, ?_⟩
  · cases sub.entry.subject <;> simp
  · -- the new nodes beside the entry are named by the labels, which stand in order
    rw [comp.related_eq, Table.values, List.filterMap_map]
    refine (List.pairwise_filterMap.2 (comp.nodes.sorted.imp_of_mem ?_)).imp
      (S := (· ≠ ·)) fun {a b : String} (hlt : a < b) => ?_
    · rintro ⟨key, x⟩ ⟨key', x'⟩ hx hx' hlt name hname name' hregistered
      cases x with
      | existing u => cases hname
      | new t =>
        cases x' with
        | existing u => cases hregistered
        | new t' =>
          cases hname
          cases hregistered
          rwa [comp.name_of_get?_nodes (Table.get?_eq_some_iff.2 hx),
            comp.name_of_get?_nodes (Table.get?_eq_some_iff.2 hx')]
    · rintro rfl
      exact Std.lt_irrefl hlt
  · rintro name hentry _ hsatellite rfl
    obtain ⟨_ | x, hx, hname⟩ := List.mem_filterMap.1 hsatellite
    · cases hname
    · cases hname
      have hx' := hapart x hx
      cases hsubject : sub.entry.subject <;> simp_all [Subject.isNamed]

variable {r : Resolver} (comp : Composition (s.directory schema fixed) r typeName form c sub)
  (hwritten : sub.Written schema) (hlocal : ∀ x, .new x ∈ sub.related → x.IsLocal schema)
  (hbuild : schema.WellFormed) (hschema : schema.Separates) (hfresh : s.Fresh)
  {node : BlankNode} (hnode : sub.entry.subject = .new node) {w v : String}
  (hw : (commit schema s sub.mutation).2.get? node.name = some w) (hv : s.node? v ≠ none)
include hwritten hlocal hschema hfresh hnode hv

/-- Nodes that are there get no types from a new entry. -/
theorem typesAt_old (htypes : schema.IsOwn Search.typeKey) :
    (commit schema s sub.mutation).1.typesAt v = s.typesAt v := by
  have hmade := commit_get?_ne schema s sub.mutation hfresh hv
  have hother : sub.entry.subject.stored? (commit schema s sub.mutation).2 ≠ some v := by
    rw [hnode]
    exact hmade _
  have htold : told (commit schema s sub.mutation).2 v Search.typeKey sub.mutation.set = [] := by
    rw [List.eq_nil_iff_forall_not_mem]
    intro x hx
    obtain ⟨-, name, hback, hedge, -⟩ :=
      hwritten.mem_told_other hlocal hschema.isForward_typeKey hmade hother hx
    by_cases hname : name = Search.typeKey
    · exact hback (hname ▸ htypes.1)
    · exact htypes.2 name hname hedge
  rw [commit_typesAt, htold, setValues_nil]

include comp hbuild hw

/-- Nodes that are there keep their values, and gain an edge to a new entry where they are values
of a field of the entry that points back. -/
theorem valuesAt_old {q : String} (hq : q ≠ Search.typeKey) :
    (commit schema s sub.mutation).1.valuesAt v q = s.valuesAt v q ∨
      (commit schema s sub.mutation).1.valuesAt v q = s.valuesAt v q ++ [w] ∧
        ∃ p u, comp.type.predicate? p.name = some p ∧ p.pointsBack = true ∧ p.edge = q ∧
          u.text = v ∧ ∃ o ∈ sub.entry.values p.name, o.value = .existing u := by
  have hmade := commit_get?_ne schema s sub.mutation hfresh hv
  have hother : sub.entry.subject.stored? (commit schema s sub.mutation).2 ≠ some v := by
    rw [hnode]
    exact hmade _
  -- a new entry takes nothing away
  have hkept : (s.valuesAt v q).filter (fun x =>
      !struck (s.bind sub.mutation.prelude) sub.mutation.delete v q x) = s.valuesAt v q := by
    refine List.filter_eq_self.2 fun x hx => ?_
    by_contra hstruck
    obtain ⟨u, -, -, hsubject, -⟩ := hwritten.struck_cases hx (by simpa using hstruck)
    rw [hnode] at hsubject
    cases hsubject
  rw [commit_valuesAt _ _ _ _ hq, hkept]
  have htold : ∀ x ∈ told (commit schema s sub.mutation).2 v q sub.mutation.set, x = w ∧
      ∃ name, schema.PointsBack name ∧ schema.edge name = q ∧
        v ∈ sub.entry.storedValues (commit schema s sub.mutation).2 name := by
    intro x hx
    obtain ⟨hentry, hback⟩ :=
      hwritten.mem_told_other hlocal hschema.isForward_typeKey hmade hother hx
    rw [hnode] at hentry
    exact ⟨Option.some.inj (hentry.symm.trans hw), hback⟩
  by_cases hnone : told (commit schema s sub.mutation).2 v q sub.mutation.set = []
  · exact .inl (by rw [hnone, setValues_nil])
  · obtain ⟨x, hx⟩ := List.exists_mem_of_ne_nil _ hnone
    obtain ⟨-, name, hback, rfl, hmem⟩ := htold x hx
    obtain ⟨o, ho, hstored⟩ := Entity.mem_storedValues.1 hmem
    obtain ⟨p, hp, hpoints, hedge, hlist, hvalue⟩ := comp.back_value hbuild hschema hback ho
    rw [hedge] at hlist
    rw [hlist]
    refine (setValues_true_of_forall _ fun x hx => (htold x hx).1).imp_right fun h => ⟨h.2, ?_⟩
    rcases hvalue with ⟨u, hu, -⟩ | ⟨t, -, ht⟩
    · rw [hu] at hstored
      obtain rfl := (Mutation.mem_of_predicate? hp).2
      exact ⟨p, u, hp, hpoints, hedge, Option.some.inj hstored, o, ho, hu⟩
    · rw [ht] at hstored
      exact (hmade _ hstored).elim

end Composition

/-! ### New entries of the inventory -/

/-- What a new entry of a type makes of a store. The entry becomes the node `w`, and the new nodes
beside it become `others`. -/
structure Submission.Adds (schema : Schema) (s : Store) (t : TypeDef) (c : Context)
    (sub : Submission) (w : String) (others : List String) : Prop where
  /-- Each new node is given an identifier. -/
  made : sub.newNames.map (commit schema s sub.mutation).2.get? = (w :: others).map some
  /-- These are all the nodes that the store gains, and it loses none. -/
  nodes : (commit schema s sub.mutation).1.nodes.keys.Perm (w :: others ++ s.nodes.keys)
  types : (commit schema s sub.mutation).1.typesAt w = t.lineage
  named : ∃ name, (commit schema s sub.mutation).1.valuesAt w "unique_name" = [name]
  status : (commit schema s sub.mutation).1.valuesAt w ReviewStatus.predicateName =
    [sub.status.name]
  submitter : (commit schema s sub.mutation).1.valuesAt w "entry_added" = [c.user.text]
  date : (commit schema s sub.mutation).1.valuesAt w "creation_date" = [c.now.canonical]
  complete : ∀ p ∈ t.predicates, p.required = true → p.readOnly = false →
    (commit schema s sub.mutation).1.valuesAt w p.name ≠ []
  /-- The nodes that were there keep their types. -/
  keptTypes : ∀ v, s.node? v ≠ none → (commit schema s sub.mutation).1.typesAt v = s.typesAt v
  /-- They keep their values, and those that the entry has for values of a field that points back
  gain an edge to it. -/
  kept : ∀ v q, s.node? v ≠ none → q ≠ Search.typeKey →
    (commit schema s sub.mutation).1.valuesAt v q = s.valuesAt v q ∨
      (commit schema s sub.mutation).1.valuesAt v q = s.valuesAt v q ++ [w] ∧
        ∃ p u, t.predicate? p.name = some p ∧ p.pointsBack = true ∧ p.edge = q ∧
          u.text = v ∧ ∃ o ∈ sub.entry.values p.name, o.value = .existing u

namespace Inventory

/-- The fields that the system sets of every new entry have their edges to themselves. -/
theorem isOwn_system : ∀ name ∈ ["unique_name", ReviewStatus.predicateName, "entry_added",
    "creation_date", Search.typeKey], schema.IsOwn name := by
  have hforward : ∀ name ∈ ["unique_name", ReviewStatus.predicateName, "entry_added",
      "creation_date", Search.typeKey], schema.IsForward name := by
    simp only [Schema.IsForward, Schema.direction?, predicate?_schema]
    decide +kernel
  refine fun name hmem => isOwn_of_isForward (hforward name hmem) ?_
  revert name hmem
  decide

theorem isList_uniqueName : isList schema "unique_name" = false := by
  rw [isList, predicate?_schema]
  decide +kernel

/-- The names in a lineage are told apart, and are stored as they are. -/
theorem lineage_spec {t : TypeDef} (ht : t ∈ schema.types.values) :
    t.lineage.Nodup ∧ ∀ name ∈ t.lineage, Text.trim name = name := by
  have h : (schema.types.values.all fun t => decide t.lineage.Nodup &&
      t.lineage.all fun name => Text.trim name == name) = true := by
    rewrite [schema_eq]
    decide +kernel
  have ht' := List.all_eq_true.1 h t ht
  simpa using ht'

/-- A new entry of the inventory is complete, and adds to what was there. -/
theorem newEntry_adds {s : Store} (hfresh : s.Fresh) {fixed : Option Json} {typeName : String}
    {form : Form} {c : Context} {before after : Desk} {sub : Submission}
    (h : (newEntry (s.directory schema fixed) stubResolver typeName form c).Yields before sub after)
    {t : TypeDef} (ht : schema.type? typeName = some t)
    (hapart : ∀ x, .new x ∈ sub.related → sub.entry.subject.isNamed x.node.name = false) :
    ∃ w others, sub.Adds schema s t c w others := by
  obtain ⟨run, hrun, hregistered, ⟨comp⟩⟩ := newEntry_run build_entityTypes h
  have htype : comp.type = t := Option.some.inj (comp.isType.symm.trans ht)
  obtain rfl : run.type = t := Option.some.inj (hrun.symm.trans ht)
  have hget : schema.types.get? run.type.name = some run.type := wellFormed.get?_of_type? ht
  have hmem : run.type ∈ schema.types.values := Table.mem_values_iff.2 ⟨_, hget⟩
  have hwritten : sub.Written schema := newEntry_written wellFormed h
  have hreviewed : sub.Reviewed schema s c := newEntry_reviewed wellFormed h
  have hstatus := isOwn_system ReviewStatus.predicateName (by decide)
  have hlocal : ∀ x, .new x ∈ sub.related → x.IsLocal schema := fun x hx =>
    comp.isLocal coherent_keepsPlain.2 (isLocal_stubResolver coherent_keepsPlain.2) hx
  obtain ⟨⟨node, hnode⟩, -, -⟩ := newEntry_entry wellFormed h
  have habout : sub.IsAbout s := comp.isAbout wellFormed separates_inventory hwritten hlocal
    fun u hu => by rw [hnode] at hu; cases hu
  have hstored : ∀ name ∈ sub.newNames,
      ∃ w, (commit schema s sub.mutation).2.get? name = some w := fun name hname =>
    (hreviewed.exists_stored hstatus hname).imp fun _ hw => hw.1
  obtain ⟨ws, hws, hnodup⟩ := sub.exists_newUids (comp.nodup_newNames hapart) hstored
  obtain ⟨w, others, rfl⟩ : ∃ w others, ws = w :: others := by
    cases ws with
    | nil =>
      rw [Submission.newNames, hnode] at hws
      cases hws
    | cons w others => exact ⟨w, others, rfl⟩
  have hw : (commit schema s sub.mutation).2.get? node.name = some w := by
    rw [Submission.newNames, hnode] at hws
    exact (List.cons.inj hws).1
  refine ⟨w, others, { made := hws, nodes := ?nodes, types := ?types, named := ?named
                       status := ?status, submitter := ?submitter, date := ?date
                       complete := ?complete, keptTypes := ?keptTypes, kept := ?kept }⟩
  case nodes =>
    refine habout.perm_keys hfresh hws hnodup fun name hname w' hw' => ?_
    obtain ⟨w₀, hw₀, hstored⟩ := hreviewed.exists_stored (s := s) hstatus hname
    rwa [← Option.some.inj (hw₀.symm.trans hw')]
  case types =>
    rw [hwritten.typesAt_entry hapart hnode hw hfresh (isOwn_system _ (by decide)),
      Entity.storedValues, ← Entity.values, run.values_types, List.filterMap_map]
    obtain ⟨hlineage, htrim⟩ := lineage_spec hmem
    have hstored : run.type.lineage.filterMap ((fun o : Object => o.value.stored?
        (commit schema s sub.mutation).2) ∘ fun name => .plain (.ofText name)) = run.type.lineage :=
      (List.filterMap_congr fun name hname => congrArg some (htrim name hname)).trans
        (List.filterMap_some)
    rw [hstored, Predicate.withoutRepeats_eq_self hlineage]
  case named =>
    rw [hwritten.valuesAt_entry hapart hnode hw hfresh (isOwn_system _ (by decide)) (by decide),
      isList_uniqueName, setValues_false]
    obtain ⟨v, hv⟩ := List.getLast?_isSome.2 (run.uniqueName_stored _) |> Option.isSome_iff_exists.1
    exact ⟨v, by rw [hv]; rfl⟩
  case status =>
    exact hwritten.valuesAt_entry_single hapart hnode hw hfresh hstatus (by decide)
      (hreviewed.new node hnode).1 (ReviewStatus.stored?_name _ _)
  case submitter =>
    exact hwritten.valuesAt_entry_single hapart hnode hw hfresh (isOwn_system _ (by decide))
      (by decide) run.operands_system.1 rfl
  case date =>
    exact hwritten.valuesAt_entry_single hapart hnode hw hfresh (isOwn_system _ (by decide))
      (by decide) run.operands_system.2 rfl
  case complete =>
    intro p hp hrequired hreadOnly
    obtain ⟨hown, hname⟩ := isOwn_of_required hget hp hrequired
    rw [hregistered] at hget
    exact newEntry_complete wellFormed h hget (by rw [hnode]; exact hw) hp hrequired hreadOnly hown
      hname
  case keptTypes =>
    exact fun v hv => Composition.typesAt_old hwritten hlocal separates_inventory hfresh hnode hv
      (isOwn_system _ (by decide))
  case kept =>
    intro v q hv hq
    rw [← htype]
    exact comp.valuesAt_old hwritten hlocal wellFormed separates_inventory hfresh hnode hw hv hq

/-- A store with a channel, a source and an organization. -/
def pressStore : Store :=
  (((Store.empty.addNode ["Channel", "Entry"] []).2.addNode ["Source", "Entry"] []).2.addNode
    ["Organization", "Entry"] []).2

/-- The form of a new source that the organization publishes. The source is a sibling of the one
that is there and of one that is yet to be created. -/
def siblingForm : Form :=
  (((Table.empty.insert "name" (.string "Foo")).insert "channel" (.string "0x100")).insert
    "sibling_sources" (.array [.string "0x101", .string "Bar"])).insert
      "publishes_org" (.array [.string "0x102"])

theorem exists_newSource : ∃ sub after,
    (newEntry (pressStore.directory schema none) stubResolver "Source" siblingForm
      reviewer).Yields Desk.clean sub after ∧ sub.isApart = true ∧
    (commit schema pressStore sub.mutation).1.valuesAt "0x101" "sibling_sources" = ["0x103"] ∧
    (commit schema pressStore sub.mutation).1.valuesAt "0x102" "publishes" = ["0x103"] := by
  have h : (((newEntry (pressStore.directory schema none) stubResolver "Source" siblingForm
      reviewer).outcome Desk.clean).1.toOption.any fun sub =>
        let after := (commit schema pressStore sub.mutation).1
        sub.isApart && (after.valuesAt "0x101" "sibling_sources" == ["0x103"] &&
          after.valuesAt "0x102" "publishes" == ["0x103"])) = true := by
    rewrite [schema_eq, Store.directory_eq]
    decide +kernel
  obtain ⟨sub, after, hsub, htest⟩ := exists_yields h
  simp only [Bool.and_eq_true, beq_iff_eq] at htest
  exact ⟨sub, after, hsub, htest⟩

/-- The new source and its new sibling are added, and the nodes that were there gain edges. -/
theorem newEntry_adds_source : pressStore.Fresh ∧ ∃ sub after t,
    (newEntry (pressStore.directory schema none) stubResolver "Source" siblingForm
      reviewer).Yields Desk.clean sub after ∧ schema.type? "Source" = some t ∧
    (∀ x, .new x ∈ sub.related → sub.entry.subject.isNamed x.node.name = false) ∧
    (commit schema pressStore sub.mutation).1.valuesAt "0x101" "sibling_sources" = ["0x103"] ∧
    (commit schema pressStore sub.mutation).1.valuesAt "0x102" "publishes" = ["0x103"] ∧
    ∃ w others, sub.Adds schema pressStore t reviewer w others := by
  have hfresh : pressStore.Fresh := ((fresh_empty.addNode _ _).addNode _ _).addNode _ _
  obtain ⟨sub, after, hsub, happart, hsibling, hpublishes⟩ := exists_newSource
  obtain ⟨run, ht, -⟩ := newEntry_run build_entityTypes hsub
  exact ⟨hfresh, sub, after, run.type, hsub, ht, fun x => Submission.isNamed_of_isApart happart, hsibling,
    hpublishes, newEntry_adds hfresh hsub ht fun x => Submission.isNamed_of_isApart happart⟩

end Inventory

end PressRegister
