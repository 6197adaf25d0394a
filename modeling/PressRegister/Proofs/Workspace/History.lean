import PressRegister.Proofs.Submission.Changes
import PressRegister.Proofs.Workspace.Reviewer
import PressRegister.Proofs.Workspace.Siblings

/-!
# The stores that submissions lead to

A store that is reached by submissions alone holds nodes of one kind each: the registered types
of a node belong together, since they are those of one entry or of one new node beside an entry.
So no entry of the inventory is one of the nodes that its own reverse fields lead to, and a
change of it changes nothing that it may not.

This depends on the new nodes of a submission. If two of them have one name, they become one
node of two kinds, and if one of them has a field that points back, it reaches nodes that have
nothing to do with the entry.

## Main definitions

* `Schema.Akin`, `Store.KeepsKinds`: types of one node; every node is of one kind.
* `Workspace.History`: the stores that submissions lead to, one after another.
* `Workspace.MakesApart`: what new nodes have to be like.

## Main results

* `Submission.Kinds.keepsKinds`: a submission keeps every node of one kind.
* `Workspace.History.reached`: what holds of every store that is reached.
* `Workspace.Session.exists_history`: sessions lead to stores that are reached.
* `Inventory.edit_changes_only`: a change in a store that is reached does what it may.
* `Inventory.edits_reach_further`: changes that do more.
-/

namespace PressRegister

open Consult Store

/-! ### Kinds of nodes -/

/-- Two types may be types of one node: they are the same, or in the lineage of one type. -/
def Schema.Akin (schema : Schema) (a b : String) : Prop :=
  a = b ∨ ∃ t ∈ schema.types.values, a ∈ t.lineage ∧ b ∈ t.lineage

instance (schema : Schema) (a b : String) : Decidable (schema.Akin a b) :=
  inferInstanceAs (Decidable (_ ∨ _))

/-- The registered ones of several types may be types of one node. -/
def Schema.AreAkin (schema : Schema) (tags : List String) : Prop :=
  ∀ a ∈ tags, ∀ b ∈ tags, schema.type? a ≠ none → schema.type? b ≠ none → schema.Akin a b

/-- Every node is of one kind. -/
def Store.KeepsKinds (schema : Schema) (s : Store) : Prop :=
  ∀ w, schema.AreAkin (s.typesAt w)

/-- Whether a field is stored at the nodes that it leads to. -/
def Predicate.isReverse (p : Predicate) : Bool :=
  match p.direction? with
  | some (.reverse _) => true
  | _ => false

/-- The reverse fields of every type lead to nodes of another kind, and types are stored as they
are. -/
structure Schema.SeparatesKinds (schema : Schema) : Prop where
  reverse : ∀ t ∈ schema.types.values, ∀ p ∈ t.predicates, ∀ edge,
    p.direction? = some (.reverse edge) → Mutation.owners p ≠ [] ∧
      ∀ tag ∈ Mutation.owners p, schema.type? tag ≠ none ∧ ¬ schema.Akin t.name tag
  registered : ∀ t ∈ schema.types.values, schema.type? t.name ≠ none
  trimmed : ∀ t ∈ schema.types.values, ∀ tag ∈ t.lineage, Text.trim tag = tag

section General

variable {schema : Schema}

/-- A node of one kind is none of those that its own reverse fields lead to. -/
theorem Schema.SeparatesKinds.leadsElsewhere (h : schema.SeparatesKinds) {t : TypeDef}
    (ht : t ∈ schema.types.values) {s : Store} {w : String} (hkind : schema.AreAkin (s.typesAt w))
    (hw : t.name ∈ s.typesAt w) : t.LeadsElsewhere s w := by
  intro p edge hp hdir hcarries
  obtain ⟨hne, howners⟩ := h.reverse t ht p hp edge hdir
  obtain ⟨tag, htag, hmem⟩ := hcarries.resolve_left hne
  obtain ⟨hregistered, hapart⟩ := howners tag htag
  exact hapart (hkind _ hw _ hmem (h.registered t ht) hregistered)

/-- A single type is of one kind. -/
theorem Schema.areAkin_of_forall_eq {tags : List String} (tag : String)
    (h : ∀ a ∈ tags, a = tag) : schema.AreAkin tags := fun a ha b hb _ _ =>
  .inl ((h a ha).trans (h b hb).symm)

/-- A lineage is of one kind. -/
theorem Schema.areAkin_of_subset {tags : List String} {t : TypeDef}
    (ht : t ∈ schema.types.values) (h : ∀ a ∈ tags, a ∈ t.lineage) : schema.AreAkin tags :=
  fun a ha b hb _ _ => .inr ⟨t, ht, h a ha, h b hb⟩

/-! ### Submissions -/

/-- What holds of the new nodes of every submission: it is about nodes that were there and its new
nodes, and each of these is of one kind. -/
structure Submission.Kinds (schema : Schema) (s : Store) (sub : Submission) : Prop
    extends sub.Written schema where
  about : sub.IsAbout s
  entry : ∀ uids, schema.AreAkin (sub.entry.storedValues uids Search.typeKey)
  existing : ∀ u, sub.entry.subject = .existing u → sub.entry.operands Search.typeKey = []
  satellites : ∀ x, .new x ∈ sub.related → ∀ uids,
    schema.AreAkin ((x.entity schema).storedValues uids Search.typeKey)

/-- What is stored of types is what is stated, but for blanks. -/
theorem Entity.mem_storedValues_types {e : Entity} {uids : NewUids} {tags : List String}
    {a : String} (h : e.values Search.typeKey = tags.map fun tag => .plain (.ofText tag))
    (ha : a ∈ e.storedValues uids Search.typeKey) : ∃ tag ∈ tags, a = Text.trim tag := by
  obtain ⟨o, ho, hstored⟩ := Entity.mem_storedValues.1 ha
  rw [← Entity.values, h] at ho
  obtain ⟨tag, htag, rfl⟩ := List.mem_map.1 ho
  exact ⟨tag, htag, (Option.some.inj hstored).symm⟩

/-- The types of a new node are of one kind. -/
theorem Satellite.areAkin_types (h : schema.SeparatesKinds) (hwell : schema.WellFormed)
    (x : Satellite) (uids : NewUids) :
    schema.AreAkin ((x.entity schema).storedValues uids Search.typeKey) := by
  have hvalues := x.values_entity schema Search.typeKey
  rw [if_pos rfl] at hvalues
  cases hlineage : schema.lineage? x.typeName with
  | none =>
    rw [Satellite.tags, hlineage] at hvalues
    refine Schema.areAkin_of_forall_eq (Text.trim x.typeName) fun a ha => ?_
    obtain ⟨tag, htag, rfl⟩ := Entity.mem_storedValues_types hvalues ha
    rw [List.mem_singleton.1 htag]
  | some lineage =>
    rw [Satellite.tags, hlineage] at hvalues
    obtain ⟨t, ht, rfl⟩ := Option.map_eq_some_iff.1 hlineage
    have hmem : t ∈ schema.types.values := Table.mem_values_iff.2 ⟨_, hwell.get?_of_type? ht⟩
    refine Schema.areAkin_of_subset hmem fun a ha => ?_
    obtain ⟨tag, htag, rfl⟩ := Entity.mem_storedValues_types hvalues ha
    rw [h.trimmed t hmem tag htag]
    exact htag

namespace Workspace.Request

variable {types : List EntityType} {s : Store} {fixed : Option Json} {r : Resolver} {c : Context}
  {request : Request} {before after : Desk} {sub : Submission}

theorem sanitize_composition (hbuild : Schema.build types = .ok schema)
    (h : (request.sanitize (s.directory schema fixed) r c).Yields before sub after) :
    ∃ typeName form, Nonempty (Composition (s.directory schema fixed) r typeName form c sub) := by
  cases request with
  | new typeName form => exact ⟨typeName, form, exists_composition hbuild (.inl h)⟩
  | edit typeName form => exact ⟨typeName, form, exists_composition hbuild (.inr h)⟩

/-- The new nodes of a submission are of one kind each, if the resolver makes local ones. -/
theorem sanitize_kinds (hbuild : Schema.build types = .ok schema) (hstatus : schema.KeepsStatus)
    (hschema : schema.Separates) (hkinds : schema.SeparatesKinds) (hr : r.IsLocal schema)
    (h : (request.sanitize (s.directory schema fixed) r c).Yields before sub after) :
    sub.Kinds schema s := by
  have hwell := Schema.wellFormed_of_build hbuild
  obtain ⟨typeName, form, ⟨comp⟩⟩ := sanitize_composition hbuild h
  have hwritten := (sanitize_reviewed hbuild hstatus h).toWritten
  have hexisting : ∀ u, sub.entry.subject = .existing u →
      s.node? u.text ≠ none ∧ sub.entry.operands Search.typeKey = [] := by
    intro u hu
    refine ⟨?_, (sanitize_existing hbuild h hu).2⟩
    cases request with
    | new typeName form =>
      obtain ⟨⟨node, hnode⟩, -⟩ := newEntry_entry (d := s.directory schema fixed) hwell h
      rw [hnode] at hu
      cases hu
    | edit typeName form =>
      obtain ⟨run⟩ := editEntry_yields.1 h
      obtain rfl := Subject.existing.inj (run.subject_eq.symm.trans hu)
      exact run.exists_node
  refine ⟨hwritten, comp.isAbout hwell hschema hwritten
    (fun x hx => comp.isLocal hschema.plain hr hx) fun u hu => (hexisting u hu).1, fun uids => ?_,
    fun u hu => (hexisting u hu).2, fun x _ => x.areAkin_types hkinds hwell⟩
  cases request with
  | new typeName form =>
    obtain ⟨run⟩ := newEntry_yields.1 h
    have hmem : run.type ∈ schema.types.values :=
      Table.mem_values_iff.2 ⟨_, hwell.get?_of_type? (entryType_ok run.isType)⟩
    refine Schema.areAkin_of_subset hmem fun a ha => ?_
    obtain ⟨tag, htag, rfl⟩ := Entity.mem_storedValues_types run.values_types ha
    rw [hkinds.trimmed _ hmem tag htag]
    exact htag
  | edit typeName form =>
    rw [Entity.storedValues_eq, editEntry_types hbuild h]
    exact fun a ha => nomatch ha

end Workspace.Request

/-! ### Commits -/

namespace Submission

variable {s s' : Store} {sub : Submission} {w : String}

/-- What a submission is about, it is about as long as no node is lost. -/
theorem IsAbout.mono (h : sub.IsAbout s) (hnodes : ∀ w, s.node? w ≠ none → s'.node? w ≠ none) :
    sub.IsAbout s' := fun q hq =>
  (h q hq).imp_left fun ⟨u, hu, hnode⟩ => ⟨u, hu, hnodes _ hnode⟩

theorem Kinds.mono (h : sub.Kinds schema s) (hnodes : ∀ w, s.node? w ≠ none → s'.node? w ≠ none) :
    sub.Kinds schema s' :=
  { h with about := h.about.mono hnodes }

/-- Where new nodes have different names, a submission keeps every node of one kind. -/
theorem Kinds.keepsKinds (h : sub.Kinds schema s) (hown : schema.IsOwn Search.typeKey)
    (hnames : sub.newNames.Nodup) (hfresh : s.Fresh) (hs : s.KeepsKinds schema) :
    (commit schema s sub.mutation).1.KeepsKinds schema := by
  intro w
  by_cases hmade : ∃ name, (commit schema s sub.mutation).2.get? name = some w
  · obtain ⟨name, hname⟩ := hmade
    -- a new node has the types of the entry, or those of one new node beside it
    have hsource : ∀ a ∈ (commit schema s sub.mutation).1.typesAt w,
        (∃ node, sub.entry.subject = .new node ∧ node.name = name ∧
          a ∈ sub.entry.storedValues (commit schema s sub.mutation).2 Search.typeKey) ∨
        ∃ x, .new x ∈ sub.related ∧ x.node.name = name ∧
          a ∈ (x.entity schema).storedValues (commit schema s sub.mutation).2 Search.typeKey := by
      intro a ha
      have hsame {other : String}
          (hother : (commit schema s sub.mutation).2.get? other = some w) : other = name :=
        (commit_allots schema s sub.mutation).distinct hother hname
      rw [commit_typesAt, typesAt, nodeAt_of_made hfresh hname] at ha
      rcases mem_setValues_of_mem ha with ha | ha
      · cases ha
      · rw [h.set, told_append, List.mem_append, Entity.told_own hown, List.mem_ite_nil_right,
          Mutation.mem_told_satelliteStatements hown] at ha
        rcases ha with ⟨hw, ha⟩ | ⟨x, hx, hw, ha⟩
        · have hnode := h.node
          cases hsubject : sub.entry.subject with
          | new node =>
            rw [hsubject] at hw
            exact .inl ⟨node, rfl, hsame hw, ha⟩
          | existing u =>
            rw [Entity.storedValues_eq, h.existing u hsubject] at ha
            cases ha
          | var v =>
            rw [hsubject] at hnode
            cases hnode
        · exact .inr ⟨x, hx, hsame hw, ha⟩
    intro a ha b hb
    rcases hsource a ha with ⟨node, hnode, hentry, ha⟩ | ⟨x, hx, hxname, ha⟩ <;>
      rcases hsource b hb with ⟨node', hnode', hentry', hb⟩ | ⟨y, hy, hyname, hb⟩
    · exact h.entry _ a ha b hb
    · exact absurd (hentry.trans hyname.symm) (name_ne_of_nodup_newNames hnames hnode hy)
    · exact absurd (hentry'.trans hxname.symm) (name_ne_of_nodup_newNames hnames hnode' hx)
    · obtain rfl := eq_of_nodup_newNames hnames hx hy (hxname.trans hyname.symm)
      exact h.satellites x hx _ a ha b hb
  · rw [h.typesAt_kept hown h.existing fun name hname => hmade ⟨name, hname⟩]
    exact hs w

end Submission

/-- A store without entries holds no node of two kinds. -/
theorem Store.WithoutEntries.keepsKinds {s : Store} (h : s.WithoutEntries schema) :
    s.KeepsKinds schema := fun w a ha _ _ hregistered _ =>
  absurd ⟨a, ha, hregistered⟩ (h.none w)

namespace Workspace

/-- The stores that submissions lead to from one without entries, the last one first. Each
submission is made in one of the stores so far and written in the last one. Only some submissions
are allowed, of some resolvers. -/
inductive History (schema : Schema) (allowed : Resolver → Submission → Prop) : List Store → Prop
  | start {s : Store} (h : s.WithoutEntries schema) : History schema allowed [s]
  | commit {s s' : Store} {earlier : List Store} {fixed : Option Json} {r : Resolver} {c : Context}
      {request : Request} {before after : Desk} {sub : Submission}
      (h : History schema allowed (s :: earlier)) (hs : s' ∈ s :: earlier)
      (hsub : (request.sanitize (s'.directory schema fixed) r c).Yields before sub after)
      (hallowed : allowed r sub) :
      History schema allowed ((Store.commit schema s sub.mutation).1 :: s :: earlier)

theorem History.mono {allowed allowed' : Resolver → Submission → Prop} {stores : List Store}
    (himp : ∀ r sub, allowed r sub → allowed' r sub) (h : History schema allowed stores) :
    History schema allowed' stores := by
  induction h with
  | start hstart => exact .start hstart
  | commit _ hs hsub hallowed ih => exact .commit ih hs hsub (himp _ _ hallowed)

/-- A request that is made in the workspace that another one left, with another resolver. -/
def Step.nextWith (x : Step) (resolver : Resolver) (request : Request) (c : Context) : Step :=
  ⟨{ x.left with resolver }, request, c⟩

theorem Step.schema_nextWith {x : Step} (hschema : x.workspace.schema = schema)
    (resolver : Resolver) (request : Request) (c : Context) :
    (x.nextWith resolver request c).workspace.schema = schema :=
  x.schema_left.trans hschema

theorem Session.pairWith {x : Step} (hschema : x.workspace.schema = schema) (resolver : Resolver)
    (request : Request) (c : Context) :
    Session schema x.before [x, x.nextWith resolver request c] :=
  .cons hschema (.cons (Step.schema_nextWith hschema resolver request c) (.nil _))

theorem leaves_pair (s : Store) (x y : Step) : leaves s [x, y] = y.after := rfl

/-- A request for a change that changes the store was made and written. -/
theorem Step.exists_edit {x : Step} (hschema : x.workspace.schema = schema) {r : Resolver}
    {typeName : String} {form : Form} {c : Context}
    (hchanged : (x.nextWith r (.edit typeName form) c).after ≠ x.after) :
    ∃ fixed before after sub,
      (editEntry (x.after.directory schema fixed) r typeName form c).Yields before sub after ∧
      (x.nextWith r (.edit typeName form) c).after =
        (Store.commit schema x.after sub.mutation).1 := by
  have hschema' := x.schema_left.trans hschema
  subst hschema'
  rcases (x.nextWith r (.edit typeName form) c).result_cases with
    ⟨e, -, hsame⟩ | ⟨sub, desk, -, hsub, hafter⟩
  · exact absurd hsame hchanged
  · exact ⟨_, _, desk, sub, hsub, hafter⟩

/-- The new nodes of a submission that is made have different names. -/
def Step.namesApart (x : Step) : Bool :=
  x.result.toOption.all fun made => decide made.1.newNames.Nodup

/-- A session whose submissions are allowed leads from a store that is reached to another one. -/
theorem Session.exists_history {allowed : Resolver → Submission → Prop} {s : Store}
    {steps : List Step} (h : Session schema s steps) {earlier : List Store}
    (hs : History schema allowed (s :: earlier))
    (hallowed : ∀ x ∈ steps, ∀ sub uids, x.result = .ok (sub, uids) →
      allowed x.workspace.resolver sub) :
    ∃ earlier', History schema allowed (leaves s steps :: earlier') := by
  induction h generalizing earlier with
  | nil s => exact ⟨earlier, hs⟩
  | @cons x rest hschema _ ih =>
    subst hschema
    have hrest := fun y hy => hallowed y (List.mem_cons_of_mem _ hy)
    rcases x.result_cases with ⟨e, -, hsame⟩ | ⟨sub, desk, hresult, hsub, hafter⟩
    · exact ih (hsame ▸ hs) hrest
    · have hnext : History x.workspace.schema allowed (x.after :: x.before :: earlier) := by
        rw [hafter]
        exact hs.commit List.mem_cons_self hsub (hallowed x List.mem_cons_self _ _ hresult)
      exact ih hnext hrest

/-- New nodes have no fields that point back, and no two of a submission have one name. -/
def MakesApart (schema : Schema) (r : Resolver) (sub : Submission) : Prop :=
  r.IsLocal schema ∧ sub.newNames.Nodup

/-- What holds of a store that submissions lead to, and of those before it. -/
structure Reached (schema : Schema) (s : Store) (earlier : List Store) : Prop where
  fresh : s.Fresh
  apart : s.KeepsTypesApart
  kinds : s.KeepsKinds schema
  nodes : ∀ s' ∈ s :: earlier, ∀ w, s'.node? w ≠ none → s.node? w ≠ none

variable {types : List EntityType} {s : Store} {earlier : List Store}

/-- What holds of the stores that submissions lead to whose new nodes are kept apart. -/
theorem History.reached (hbuild : Schema.build types = .ok schema) (hstatus : schema.KeepsStatus)
    (hschema : schema.Separates) (hkinds : schema.SeparatesKinds)
    (h : History schema (MakesApart schema) (s :: earlier)) : Reached schema s earlier := by
  generalize hstores : s :: earlier = stores at h
  induction h generalizing s earlier with
  | start hstart =>
    obtain ⟨rfl, rfl⟩ := List.cons.inj hstores
    refine ⟨hstart.fresh, hstart.apart, hstart.keepsKinds, fun s' hs' w hw => ?_⟩
    rwa [List.mem_singleton.1 hs'] at hw
  | @commit s₁ s' earlier₁ fixed r c request before after sub h hs hsub hallowed ih =>
    obtain ⟨rfl, rfl⟩ := List.cons.inj hstores
    have hbefore := ih rfl
    have hmade : sub.Kinds schema s₁ :=
      (Request.sanitize_kinds hbuild hstatus hschema hkinds hallowed.1 hsub).mono
        (hbefore.nodes s' hs)
    refine ⟨hmade.about.fresh hbefore.fresh, hbefore.apart.commit sub.mutation,
      hmade.keepsKinds (Schema.isOwn_typeKey hbuild) hallowed.2 hbefore.fresh hbefore.kinds,
      fun s'' hs'' w hw => ?_⟩
    rcases List.mem_cons.1 hs'' with rfl | hs''
    · exact hw
    · exact node?_commit_of_node? (hbefore.nodes s'' hs'' w hw)

/-- A change in a store that is reached changes nothing that it may not. -/
theorem Reached.changesOnly (hbuild : Schema.build types = .ok schema)
    (hstatus : schema.KeepsStatus) (hschema : schema.Separates) (hkinds : schema.SeparatesKinds)
    (h : Reached schema s earlier) {fixed : Option Json} {r : Resolver} (hr : r.IsLocal schema)
    {typeName : String} {form : Form} {c : Context} {before after : Desk} {sub : Submission}
    (hsub : (editEntry (s.directory schema fixed) r typeName form c).Yields before sub after) :
    ∃ t u current, schema.type? typeName = some t ∧ form.uid = .ok u ∧
      sub.ChangesOnly schema s form t c current u := by
  obtain ⟨run⟩ := editEntry_yields.1 hsub
  have ht := entryType_ok run.isType
  have hmem : run.type ∈ schema.types.values :=
    Table.mem_values_iff.2 ⟨_, (Schema.wellFormed_of_build hbuild).get?_of_type? ht⟩
  have htype : run.type.name ∈ s.typesAt run.uid.text := by
    rw [← h.apart.toldTypes_eq, ← entryInfo_types (existingEntry_yields.1 run.isEntry)]
    exact (checkEdit_ok.1 run.mayEdit).1
  exact ⟨run.type, run.uid, run.current, ht, run.hasUid, run.changesOnly hbuild hstatus hschema
    h.fresh hr (hkinds.leadsElsewhere hmem (h.kinds _) htype) h.apart⟩

end Workspace

end General

namespace Inventory

theorem separatesKinds : schema.SeparatesKinds := by
  have h : (schema.types.values.all fun t => (schema.type? t.name).isSome &&
      t.predicates.all fun p => !p.isReverse ||
        !(Mutation.owners p).isEmpty && (Mutation.owners p).all fun tag =>
          (schema.type? tag).isSome && !decide (schema.Akin t.name tag)) = true := by
    rewrite [schema_eq]
    decide +kernel
  simp only [List.all_eq_true, Bool.and_eq_true] at h
  refine ⟨fun t ht p hp edge hdir => ?_, fun t ht => ?_, fun t ht => (lineage_spec ht).2⟩
  · have hp' := (h t ht).2 p hp
    simpa [Predicate.isReverse, hdir, Option.isSome_iff_ne_none] using hp'
  · exact Option.isSome_iff_ne_none.1 (h t ht).1

/-- A change in a store that submissions lead to changes nothing that it may not. -/
theorem edit_changes_only {s : Store} {earlier : List Store}
    (h : Workspace.History schema (Workspace.MakesApart schema) (s :: earlier))
    {fixed : Option Json} {r : Resolver} (hr : r.IsLocal schema) {typeName : String} {form : Form}
    {c : Context} {before after : Desk} {sub : Submission}
    (hsub : (editEntry (s.directory schema fixed) r typeName form c).Yields before sub after) :
    ∃ t u current, schema.type? typeName = some t ∧ form.uid = .ok u ∧
      sub.ChangesOnly schema s form t c current u :=
  (h.reached build_entityTypes Workspace.keepsStatus_inventory separates_inventory
    separatesKinds).changesOnly build_entityTypes Workspace.keepsStatus_inventory
      separates_inventory separatesKinds hr hsub

/-! ### A source that an organization publishes -/

/-- An administrator submits a channel. -/
def addingChannel (supply : Supply) : Workspace.Step where
  workspace := .start stubResolver supply
  request := .new "Channel" (Table.empty.insert "name" (.string "Print"))
  context := administrator

/-- A source of the channel follows, which an organization publishes. -/
def addingSource (supply : Supply) (organization : String) : Workspace.Step :=
  (addingChannel supply).nextWith stubResolver (.new "Source" (((Table.empty.insert "name"
    (.string "Foo")).insert "channel" (.string "0x101")).insert "publishes_org"
      (.array [.string organization]))) administrator

/-- The form that changes one field of the source. -/
def sourceForm (key : String) (values : List String) : Form :=
  (Table.empty.insert "uid" (.string "0x102")).insert key (.array (values.map .string))

theorem uid_sourceForm {key : String} {values : List String} {u : Uid} (hkey : key ≠ "uid")
    (h : (sourceForm key values).uid = .ok u) : u.text = "0x102" := by
  have hget : (sourceForm key values).get? "uid" = some (.string "0x102") := by
    rw [sourceForm, Table.get?_insert, if_neg hkey.symm, Table.get?_insert, if_pos rfl]
  have huid : (Json.string "0x102").string?.bind Uid.parse? = some (Uid.ofNat 0x102) := by decide
  simp only [Form.uid, hget, huid] at h
  cases h
  decide

/-- The source is changed. -/
def changingSource (supply : Supply) (organization : String) (resolver : Resolver)
    (form : Form) : Workspace.Step :=
  (addingSource supply organization).nextWith resolver (.edit "Source" form) administrator

/-- The source loses its organization. -/
def clearing : Workspace.Step :=
  changingSource .counting "ACME" stubResolver (sourceForm "publishes_org" [])

/-- Makes sources that the organization publishes. -/
def publishing : Resolver :=
  .making "Source" (Table.empty.insert "publishes_org" [.plain (.existing (Uid.ofNat 0x103))])

/-- The source gets a sibling that the organization publishes, too. -/
def extending : Workspace.Step :=
  changingSource .counting "ACME" publishing (sourceForm "sibling_sources" ["Bar"])

/-- A supply of nothing but zeros. -/
def zeros : Supply where
  number _ := 0
  used := 0

/-- The label that a new entry has whose number is zero. -/
def blankLabel : String :=
  "new 00000000000000000000000000000000"

/-- The organization has the label of the source, so both are one node, which loses itself. -/
def colliding : Workspace.Step :=
  changingSource zeros blankLabel stubResolver (sourceForm "publishes_org" [])

/-- What is published before and after the changes. -/
theorem publishes_after_edits :
    (((addingChannel .counting).namesApart && (addingSource .counting "ACME").namesApart) &&
      ((addingSource .counting "ACME").after.valuesAt "0x103" "publishes" == ["0x102"] &&
        clearing.after.valuesAt "0x103" "publishes" == []) &&
      extending.after.valuesAt "0x103" "publishes" == ["0x102", "0x104"] &&
      ((addingSource zeros blankLabel).after.valuesAt "0x102" "publishes" == ["0x102"] &&
        colliding.after.valuesAt "0x102" "publishes" == [])) = true := by
  simp only [clearing, extending, colliding, changingSource, addingSource, addingChannel,
    Workspace.start, Workspace.Step.nextWith, Workspace.Step.namesApart, schema_eq]
  rewrite [Workspace.Step.result_eq, Workspace.Step.after_eq, Workspace.Step.left_eq]
  decide +kernel

theorem schema_addingChannel (supply : Supply) :
    (addingChannel supply).workspace.schema = schema := by
  simp only [addingChannel, Workspace.start, addNode]

/-- The source is added to a store that allowed submissions lead to. -/
theorem history_addingSource {supply : Supply} {organization : String}
    {allowed : Resolver → Submission → Prop}
    (hallowed : ∀ x ∈ [addingChannel supply, addingSource supply organization], ∀ sub uids,
      x.result = .ok (sub, uids) → allowed stubResolver sub) :
    ∃ earlier, Workspace.History schema allowed
      ((addingSource supply organization).after :: earlier) := by
  have hsession : Workspace.Session schema (addingChannel supply).before
      [addingChannel supply, addingSource supply organization] :=
    .pairWith (schema_addingChannel supply) _ _ _
  rw [← Workspace.leaves_pair (addingChannel supply).before (addingChannel supply)]
  refine hsession.exists_history (.start (Workspace.withoutEntries_start _ _)) fun x hx => ?_
  have hresolver : x.workspace.resolver = stubResolver := by
    simp only [List.mem_cons, List.not_mem_nil, or_false] at hx
    rcases hx with rfl | rfl <;> rfl
  rw [hresolver]
  exact hallowed x hx

/-- A change of the source that changes the store was made and written. -/
theorem exists_changingSource {supply : Supply} {organization : String} {r : Resolver}
    {form : Form} (hchanged : (changingSource supply organization r form).after ≠
      (addingSource supply organization).after) : ∃ fixed before after sub,
      (editEntry ((addingSource supply organization).after.directory schema fixed) r "Source" form
        administrator).Yields before sub after ∧
      (changingSource supply organization r form).after =
        (commit schema (addingSource supply organization).after sub.mutation).1 :=
  Workspace.Step.exists_edit (Workspace.Step.schema_nextWith (schema_addingChannel supply) _ _ _)
    hchanged

theorem allowed_counting : ∀ x ∈ [addingChannel .counting, addingSource .counting "ACME"],
    ∀ sub uids, x.result = .ok (sub, uids) →
      Workspace.MakesApart schema stubResolver sub := by
  have hpublishes := publishes_after_edits
  simp only [Bool.and_eq_true] at hpublishes
  obtain ⟨⟨⟨⟨hchannel, hsource⟩, -⟩, -⟩, -⟩ := hpublishes
  intro x hx sub uids hresult
  have hnames : x.namesApart = true := by
    simp only [List.mem_cons, List.not_mem_nil, or_false] at hx
    rcases hx with rfl | rfl
    · exact hchannel
    · exact hsource
  rw [Workspace.Step.namesApart, hresult] at hnames
  exact ⟨isLocal_stubResolver coherent_keepsPlain.2, of_decide_eq_true hnames⟩

/-- The organization loses the source that loses the organization. -/
theorem edit_changes_only_cleared : ∃ earlier s, s = (addingSource .counting "ACME").after ∧
    Workspace.History schema (Workspace.MakesApart schema) (s :: earlier) ∧
    stubResolver.IsLocal schema ∧ ∃ fixed before after sub,
    (editEntry (s.directory schema fixed) stubResolver "Source" (sourceForm "publishes_org" [])
      administrator).Yields before sub after ∧
    s.valuesAt "0x103" "publishes" = ["0x102"] ∧
    (commit schema s sub.mutation).1.valuesAt "0x103" "publishes" = [] ∧
    ∃ t u current, schema.type? "Source" = some t ∧
      (sourceForm "publishes_org" []).uid = .ok u ∧
      sub.ChangesOnly schema s (sourceForm "publishes_org" []) t administrator current u := by
  have hpublishes := publishes_after_edits
  simp only [Bool.and_eq_true, beq_iff_eq] at hpublishes
  obtain ⟨⟨⟨-, hbefore, hafter⟩, -⟩, -⟩ := hpublishes
  obtain ⟨earlier, hhistory⟩ := history_addingSource allowed_counting
  have hlocal : stubResolver.IsLocal schema := isLocal_stubResolver coherent_keepsPlain.2
  have hchanged : clearing.after ≠ (addingSource .counting "ACME").after := fun hsame => by
    rw [hsame, hbefore] at hafter
    cases hafter
  obtain ⟨fixed, before, after, sub, hsub, hcommit⟩ := exists_changingSource hchanged
  rw [clearing, hcommit] at hafter
  exact ⟨earlier, _, rfl, hhistory, hlocal, fixed, before, after, sub, hsub, hbefore, hafter,
    edit_changes_only hhistory hlocal hsub⟩

/-- Where submissions are allowed and resolvers are of some kind, changes of entries do only what
they may. -/
def EditsKeepTo (allowed : Resolver → Submission → Prop) (resolvers : Resolver → Prop) : Prop :=
  ∀ s earlier, Workspace.History schema allowed (s :: earlier) → ∀ fixed r, resolvers r →
    ∀ typeName form c before after sub,
      (editEntry (s.directory schema fixed) r typeName form c).Yields before sub after →
      ∃ t u current, schema.type? typeName = some t ∧ form.uid = .ok u ∧
        sub.ChangesOnly schema s form t c current u

/-- Where more is allowed, less is kept to. -/
theorem EditsKeepTo.mono {allowed allowed' : Resolver → Submission → Prop}
    {resolvers resolvers' : Resolver → Prop} (hallowed : ∀ r sub, allowed r sub → allowed' r sub)
    (hresolvers : ∀ r, resolvers r → resolvers' r) (h : EditsKeepTo allowed' resolvers') :
    EditsKeepTo allowed resolvers := fun s earlier hhistory fixed r hr =>
  h s earlier (hhistory.mono hallowed) fixed r (hresolvers r hr)

/-- What a change of the source does, if changes do only what they may. -/
theorem EditsKeepTo.changesOnly {allowed : Resolver → Submission → Prop}
    {resolvers : Resolver → Prop} (h : EditsKeepTo allowed resolvers) {supply : Supply}
    {organization : String} {r : Resolver} (hr : resolvers r) {key : String} {values : List String}
    (hallowed : ∀ x ∈ [addingChannel supply, addingSource supply organization], ∀ sub uids,
      x.result = .ok (sub, uids) → allowed stubResolver sub)
    (hchanged : (changingSource supply organization r (sourceForm key values)).after ≠
      (addingSource supply organization).after) (hkey : key ≠ "uid") : ∃ (t : TypeDef) (u : Uid)
      (current : ReviewStatus) (sub : Submission), u.text = "0x102" ∧
      sub.ChangesOnly schema (addingSource supply organization).after (sourceForm key values) t
        administrator current u ∧
      (changingSource supply organization r (sourceForm key values)).after =
        (commit schema (addingSource supply organization).after sub.mutation).1 := by
  obtain ⟨earlier, hhistory⟩ := history_addingSource hallowed
  obtain ⟨fixed, before, after, sub, hsub, hcommit⟩ := exists_changingSource hchanged
  obtain ⟨t, u, current, -, hform, hchanges⟩ := h _ _ hhistory _ _ hr _ _ _ _ _ _ hsub
  exact ⟨t, u, current, sub, uid_sourceForm hkey hform, hchanges, hcommit⟩

/-- A new node with a field that points back reaches nodes that the form does not name. A new node
that has the name of the entry is the entry, which then reaches itself. -/
theorem edits_reach_further : ¬ EditsKeepTo (fun _ _ => True) (fun _ => True) ∧
    ¬ EditsKeepTo (Workspace.MakesApart schema) (fun _ => True) ∧
    ¬ EditsKeepTo (fun r _ => r.IsLocal schema) (·.IsLocal schema) := by
  have hpublishes := publishes_after_edits
  simp only [Bool.and_eq_true, beq_iff_eq] at hpublishes
  obtain ⟨⟨⟨-, hbefore, -⟩, hextended⟩, hfull, hempty⟩ := hpublishes
  have hextending : ¬ EditsKeepTo (Workspace.MakesApart schema) (fun _ => True) := by
    intro h
    have hchanged : extending.after ≠ (addingSource .counting "ACME").after := fun hsame => by
      rw [hsame, hbefore] at hextended
      cases hextended
    obtain ⟨t, u, current, sub, hu, hchanges, hcommit⟩ :=
      h.changesOnly (r := publishing) trivial allowed_counting hchanged (by decide)
    obtain ⟨node, hnode⟩ := exists_node_of_mem_valuesAt
      (hbefore ▸ List.mem_singleton_self "0x102" : "0x102" ∈ _)
    have hkept := hchanges.kept "0x103" "publishes" (by rw [hnode]; simp)
      (by rw [hu]; decide) (by decide)
    rw [extending, hcommit] at hextended
    rw [hbefore, hextended, hu] at hkept
    simp at hkept
  refine ⟨fun h => hextending (h.mono (fun _ _ _ => trivial) fun _ _ => trivial), hextending,
    fun h => ?_⟩
  have hlocal : stubResolver.IsLocal schema := isLocal_stubResolver coherent_keepsPlain.2
  have hchanged : colliding.after ≠ (addingSource zeros blankLabel).after := fun hsame => by
    rw [hsame, hfull] at hempty
    cases hempty
  obtain ⟨t, u, current, sub, hu, hchanges, hcommit⟩ :=
    h.changesOnly hlocal (fun _ _ _ _ _ => hlocal) hchanged (by decide)
  rw [colliding, hcommit] at hempty
  have hmay := hchanges.entry "publishes" (by decide) (by
    rw [hu, hempty, hfull]
    simp)
  obtain ⟨p, raw, -, hraw, -⟩ := hmay.maySet (by decide)
  have hmissing : (sourceForm "publishes_org" []).get? "publishes" = none := by decide
  rw [hmissing] at hraw
  cases hraw

end Inventory

end PressRegister
