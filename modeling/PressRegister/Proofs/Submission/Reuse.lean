import PressRegister.Proofs.Submission.BlankNodes
import PressRegister.Proofs.Submission.Targets
import PressRegister.Proofs.Submission.UniqueNames

/-!
# Labels across submissions

A label leads to the stored node that has its slug for a unique name. A node that a
submission made for a label has that name only if the slug was free before: else it is
given a suffix, and the next submission does not find it. So a label denotes one node
from one submission to the next exactly if the node was given the slug itself and all
fields that mention the label allow the node.

## Main definitions

* `LabelPlaced`: what becomes of a label, by the node that has its slug.
* `Form.Mentions`: a field is set to a value with the label of a slug.
* `Submission.ResolvedBy`: what the labels of a submission denote.

## Main results

* `Composition.labels_existing_iff`: when a label denotes a stored node.
* `Submission.holder?_eq_some_iff`: when a new node has the slug of its label.
* `label_reused_iff`: when the next submission reuses the node of a label.
* `acme_made_twice`: a label for which a second node is made.
-/

namespace PressRegister

open Consult Predicate Store

/-! ### Single labels -/

/-- What becomes of a label, by the node that has its slug for a unique name. -/
inductive LabelPlaced (s : Store) (c : Context) (p : Predicate) (node : BlankNode) : Related → Prop
  | reused {u : Uid} (hholder : (s.holder? "unique_name" node.name).bind Uid.parse? = some u)
    (hallows : p.Allows (s.toldTypes u.text)) : LabelPlaced s c p node (.existing u)
  | free {typeName : String}
    (hholder : (s.holder? "unique_name" node.name).bind Uid.parse? = none) :
    LabelPlaced s c p node (.new (completeSatellite c (stubOf node typeName) node.name))
  | taken {typeName name : String} {u : Uid}
    (hholder : (s.holder? "unique_name" node.name).bind Uid.parse? = some u)
    (hallows : ¬ p.Allows (s.toldTypes u.text)) :
    LabelPlaced s c p node (.new (completeSatellite c (stubOf node typeName) name))

section Labels

variable {s : Store} {schema : Schema} {fixed : Option Json} {p : Predicate} {node : BlankNode}
  {c : Context} {before after : Desk} {related : Related}

/-- A label that is resolved has a slug, and leads to the stored node that has this name, if the
field allows it. -/
theorem resolveLabel_placed (hp : p.isRelationship = true) (hnode : node.IsLabelled)
    (h : (resolveLabel (s.directory schema fixed) stubResolver p node c).Yields before related
      after) :
    node.name ≠ "" ∧ Text.slug (Text.trim (node.label.getD node.name)) = node.name ∧
      LabelPlaced s c p node related := by
  unfold resolveLabel at h
  split at h
  · exact (not_yields_fail h).elim
  · rename_i hstub
    obtain ⟨typeName, heq⟩ := stubResolver_ok hstub
    cases heq
  rename_i stub hstub
  obtain ⟨typeName, heq⟩ := stubResolver_ok hstub
  obtain rfl := Related.new.inj heq
  unfold placeSatellite at h
  simp only [name?_stubOf, Option.getD_some] at h
  split at h
  · exact (not_yields_fail h).elim
  rename_i hslug
  have hne : Text.slug (Text.trim (node.label.getD node.name)) ≠ "" := fun heq => hslug (by simp [heq])
  have hname := hnode.name_eq rfl hne
  rw [← hname] at h hne
  refine ⟨hne, hname.symm, ?_⟩
  obtain ⟨holder, mid, hholder, h⟩ := yields_bind.1 h
  obtain ⟨hholder, -⟩ := Store.findUid_yields hholder
  split at h
  · obtain ⟨rfl, -⟩ := yields_pure.1 h
    exact .free hholder.symm
  · rename_i u _
    obtain ⟨types, mid', htypes, h⟩ := yields_bind.1 h
    have hcheck : p.checkTarget u types = .ok () ↔ p.Allows (s.toldTypes u.text) := by
      rw [← Store.types_yields htypes]
      exact checkTargetTypes_ok hp
    split at h
    · rename_i hok
      obtain ⟨rfl, -⟩ := yields_pure.1 h
      exact .reused hholder.symm (hcheck.1 hok)
    · rename_i hrefused
      simp only [yields_bind, yields_pure] at h
      obtain ⟨name, -, -, rfl, -⟩ := h
      exact .taken hholder.symm fun hallows => by rw [hcheck.2 hallows] at hrefused; cases hrefused

end Labels

/-! ### Mentions -/

/-- A field is set to a value with the label of a slug. -/
def Form.Mentions (form : Form) (skip : List String) (p : Predicate) (slug : String) : Prop :=
  ∃ raw rel items token, form.Sets skip p raw ∧ p.relationship? = some rel ∧
    p.relationshipTokens rel raw = .ok items ∧ token ∈ items ∧ Uid.parse? token = none ∧
      Text.slug token = slug

namespace Composition

variable {s : Store} {schema : Schema} {fixed : Option Json} {typeName : String} {form : Form}
  {c : Context} {sub : Submission}
  (comp : Composition (s.directory schema fixed) stubResolver typeName form c sub)

/-- A field with a label denotes what the label does, and accepts it. -/
theorem exists_denoted {p : Predicate} (hp : comp.type.predicate? p.name = some p) {slug : String}
    (hslug : slug ≠ "") (h : form.Mentions sub.skipped p slug) :
    p.isRelationship = true ∧ ∃ related, comp.labels.get? slug = some related ∧
      Accepts s schema stubResolver c p related := by
  obtain ⟨raw, rel, items, token, hsets, hrel, hitems, htoken, hnone, htext⟩ := h
  obtain ⟨supply, supply', objects, hvalidate, hget⟩ := comp.formed hp hsets
  obtain ⟨items', hitems', hreads⟩ := validate_readsToken hrel hvalidate
  obtain rfl : items = items' := Except.ok.inj (hitems.symm.trans hitems')
  obtain ⟨o, ho, hread⟩ := exists_of_mem_left_forall₂ (List.forall₂_map_right_iff.1 hreads) htoken
  have hisRel : p.isRelationship = true := by rw [isRelationship, hrel]; rfl
  obtain ⟨objects', hdenotes, -⟩ := comp.labels_resolve.values hp hisRel hget
  obtain ⟨o', -, hdenoted⟩ := exists_of_mem_left_forall₂ hdenotes ho
  unfold ReadsToken at hread
  rw [hnone] at hread
  obtain ⟨b, hb, hlabelled, hname⟩ := hread
  refine ⟨hisRel, ?_⟩
  cases hdenoted with
  | stored _ => cases hb
  | @label _ related _ hlabel haccepts =>
    obtain rfl := Operand.new.inj hb
    rw [hlabelled.name_eq (hname.trans htext) hslug] at hlabel
    exact ⟨related, hlabel, haccepts⟩
  | other hother =>
    rw [hb] at hother
    cases hother

/-- What a label denotes it was placed as under a field that mentions it. -/
theorem exists_placed {slug : String} {related : Related}
    (h : comp.labels.get? slug = some related) : ∃ p node,
      comp.type.predicate? p.name = some p ∧ form.Mentions sub.skipped p slug ∧ node.name = slug ∧
        slug ≠ "" ∧ LabelPlaced s c p node related := by
  obtain ⟨key, p, objects, hp, hrel, hget, o, ho, node, hnode, rfl, before, after, hlabel⟩ :=
    comp.exists_met h
  obtain ⟨hne, htext, hplaced⟩ :=
    resolveLabel_placed hrel (comp.reads.isLabelled hget ho hnode) hlabel
  obtain ⟨q, hq, -, raw, hsets, supply, supply', hvalidate⟩ := comp.given key objects hget
  obtain rfl : p = q := Option.some.inj (hp.symm.trans hq)
  obtain rfl : p.name = key := by simpa using List.find?_some hp
  obtain ⟨rel, hrel⟩ := Option.isSome_iff_exists.1 hrel
  obtain ⟨items, hitems, hreads⟩ := validate_readsToken hrel hvalidate
  obtain ⟨token, htoken, hread⟩ := exists_of_mem_forall₂ hreads (List.mem_map_of_mem ho)
  refine ⟨p, node, hp, ⟨raw, rel, items, token, hsets, hrel, hitems, htoken, ?_⟩, rfl, hne, hplaced⟩
  unfold ReadsToken at hread
  rw [show o.value = .new node from hnode] at hread
  split at hread
  · cases hread
  · obtain ⟨b, hb, -, hname⟩ := hread
    obtain rfl := Operand.new.inj hb
    exact ⟨‹_›, hname.symm.trans htext⟩

/-- A label that is mentioned denotes a stored node exactly if this has its slug for a unique name
and all fields that mention the label allow it. -/
theorem labels_existing_iff {slug : String} (hslug : slug ≠ "") {p : Predicate}
    (hp : comp.type.predicate? p.name = some p) (hmention : form.Mentions sub.skipped p slug)
    {u : Uid} : comp.labels.get? slug = some (.existing u) ↔
      (s.holder? "unique_name" slug).bind Uid.parse? = some u ∧
        ∀ q, comp.type.predicate? q.name = some q → form.Mentions sub.skipped q slug →
          q.Allows (s.toldTypes u.text) := by
  constructor
  · intro h
    obtain ⟨_, node, -, -, rfl, -, hplaced⟩ := comp.exists_placed h
    refine ⟨?_, fun q hq hmentions => ?_⟩
    · cases hplaced with
      | reused hholder _ => exact hholder
    · obtain ⟨-, related, hrelated, haccepts⟩ := comp.exists_denoted hq hslug hmentions
      rw [h] at hrelated
      obtain rfl := Option.some.inj hrelated
      exact haccepts
  · rintro ⟨hholder, hall⟩
    obtain ⟨-, related, hrelated, -⟩ := comp.exists_denoted hp hslug hmention
    obtain ⟨q, node, hq, hmentions, rfl, -, hplaced⟩ := comp.exists_placed hrelated
    rw [hrelated]
    cases hplaced with
    | reused hother _ => rw [Option.some.inj (hother.symm.trans hholder)]
    | free hnone =>
      rw [hnone] at hholder
      cases hholder
    | taken hother hnot =>
      rw [Option.some.inj (hother.symm.trans hholder)] at hnot
      exact absurd (hall q hq hmentions) hnot

end Composition

/-! ### Whole submissions -/

/-- What the labels of a submission denote, by their slugs. -/
structure Submission.ResolvedBy (sub : Submission) (t : TypeDef) (form : Form) (c : Context)
    (labels : Table Related) : Prop where
  /-- The related nodes that are stored are those that labels denote. -/
  existing : ∀ u, .existing u ∈ sub.related ↔ ∃ slug, labels.get? slug = some (.existing u)
  /-- The new nodes beside the entry are those that labels denote, under their slugs. -/
  new : ∀ slug, (∃ x, .new x ∈ sub.related ∧ x.node.name = slug) ↔
    ∃ x, labels.get? slug = some (.new x)
  /-- The values of relationships are what their labels denote. -/
  values : ∀ p rel raw, t.predicate? p.name = some p → p.relationship? = some rel →
    p.name ∉ overwrittenFields → form.Sets sub.skipped p raw → ∃ items objects added,
      p.relationshipTokens rel raw = .ok items ∧
        List.Forall₂ (TokenDenotes labels.denotation) items objects ∧
          sub.entry.values p.name = distinctObjects objects ++ added ∧ ∀ o ∈ added, o = c.userEdge

namespace Composition

variable {s : Store} {schema : Schema} {fixed : Option Json} {typeName : String} {form : Form}
  {c : Context} {sub : Submission}
  (comp : Composition (s.directory schema fixed) stubResolver typeName form c sub)

/-- A stored node that a label denotes is related under it. -/
theorem get?_nodes_existing {slug : String} {u : Uid} :
    comp.nodes.get? slug = some (.existing u) ↔ comp.labels.get? slug = some (.existing u) := by
  rw [nodes, Table.get?_map, labels]
  cases comp.resolution.resolved.get? slug with
  | none => rfl
  | some related =>
    cases related with
    | existing u' => rfl
    | new t =>
      simp only [Option.map_some, Option.some.injEq]
      split <;> simp

theorem resolvedBy : sub.ResolvedBy comp.type form c comp.labels where
  existing u := by
    rw [comp.related_eq, Table.mem_values_iff]
    exact exists_congr fun slug => comp.get?_nodes_existing
  new slug := by
    constructor
    · rintro ⟨x, hx, rfl⟩
      obtain ⟨t, hlabel, -⟩ := comp.exists_of_new hx
      exact ⟨t, hlabel⟩
    · rintro ⟨t, hlabel⟩
      obtain ⟨x, hx, hextends⟩ := comp.exists_satellite hlabel
      exact ⟨x, hx, by rw [hextends.node, (comp.exists_stub hlabel).1]⟩
  values p rel raw hp hrel hkey hsets := comp.denotes hp hrel hkey hsets

/-- No new node is made for a label that denotes a stored one. -/
theorem satellites_eq_nil {slug : String} {u : Uid}
    (h : comp.labels.get? slug = some (.existing u)) : sub.satellites slug = [] := by
  refine List.filterMap_eq_nil_iff.2 fun related hrelated => ?_
  cases related with
  | existing u' => rfl
  | new x =>
    refine if_neg fun hname => ?_
    obtain ⟨t, hlabel, -⟩ := comp.exists_of_new hrelated
    rw [hname, h] at hlabel
    cases hlabel

include comp in
/-- A label whose slug is free gives a new node that name. -/
theorem uniqueName_of_isFree {x : Satellite} (hx : .new x ∈ sub.related)
    (hfree : s.IsFree x.node.name) : x.uniqueName? = some x.node.name := by
  obtain ⟨t, hlabel, hextends, -⟩ := comp.exists_of_new hx
  obtain ⟨p, node, -, ⟨-, -, -, token, -, -, -, -, -, htoken⟩, hname, -, hplaced⟩ :=
    comp.exists_placed hlabel
  have hget : x.fields.get? "unique_name" = t.fields.get? "unique_name" :=
    hextends.fields _ (by decide)
  have hnone : s.holder? "unique_name" node.name = none := by
    rw [hname]
    exact Store.holder?_eq_none.2 hfree
  cases hplaced with
  | free _ =>
    have htrim : Text.trim node.name = node.name := by
      rw [hname, ← htoken]
      exact (Text.noBlank_slug token).trim_eq
    rw [uniqueName_completeSatellite (uniqueName_stubOf node _), Operand.ofText, htrim] at hget
    rw [Satellite.uniqueName?, Entity.text?_eq, Entity.operands]
    simp only [hget, hname]
    rfl
  | taken hholder _ =>
    rw [hnone] at hholder
    cases hholder

end Composition

namespace Submission

variable {types : List EntityType} {s : Store} {schema : Schema} {fixed : Option Json}
  {typeName : String} {form : Form} {c : Context} {before after : Desk} {sub : Submission}
  {t : Satellite} {w : String}

/-- A new node is stored, with its types. -/
theorem exists_stored (hbuild : Schema.build types = .ok schema)
    (hset : sub.mutation.set =
      sub.entry.statements schema ++ Mutation.satelliteStatements schema sub.related)
    (ht : .new t ∈ sub.related) :
    ∃ u : Uid, (commit schema s sub.mutation).2.get? t.node.name = some u.text ∧
      ∀ tag ∈ t.tags schema, Text.trim tag ∈ (commit schema s sub.mutation).1.typesAt u.text := by
  have hmem {tag : String} (htag : tag ∈ t.tags schema) :
      Statement.plain (.new t.node) Search.typeKey (.ofText tag) ∈ sub.mutation.set := by
    rw [hset]
    exact List.mem_append_right _ (mem_typeStatements hbuild ht htag)
  obtain ⟨tag, htag, -⟩ := exists_tag hbuild t
  obtain ⟨w, -, hw, -⟩ := commit_stored schema s sub.mutation (hmem htag) rfl
  obtain ⟨n, -, -, rfl⟩ := (commit_allots schema s sub.mutation).numbered hw
  refine ⟨Uid.ofNat n, hw, fun tag htag => ?_⟩
  rw [commit_typesAt]
  exact mem_setValues_true.2 (.inr (mem_told.2 ⟨_, hmem htag, rfl, hw, rfl⟩))

/-- A new node has the slug of its label for a unique name exactly if the slug was free, as far as
names are told apart. -/
theorem holder?_eq_some_iff (hminted : sub.Minted schema s before.supply after.supply)
    (comp : Composition (s.directory schema fixed) stubResolver typeName form c sub)
    (hown : schema.IsOwn "unique_name") (hfresh : s.Fresh) (hunique : s.UniqueNames)
    (hdrawn : sub.DrawnApart s before.supply after.supply) (hapart : sub.NamedApart)
    (ht : .new t ∈ sub.related) (hw : (commit schema s sub.mutation).2.get? t.node.name = some w)
    (hother : sub.entry.subject.stored? (commit schema s sub.mutation).2 ≠ some w) :
    (commit schema s sub.mutation).1.holder? "unique_name" t.node.name = some w ↔
      s.IsFree t.node.name := by
  -- what is told of the node is told of it as a new node
  have htold {v : String} (hv : v ∈ told (commit schema s sub.mutation).2 w "unique_name"
      sub.mutation.set) : ∃ x, .new x ∈ sub.related ∧ x.node.name = t.node.name ∧
        x.uniqueName? = some v := by
    rcases (hminted.mem_told hown).1 hv with ⟨hstored, -⟩ | ⟨x, hx, hstored, hname⟩
    · exact absurd hstored hother
    · exact ⟨x, hx, (commit_allots schema s sub.mutation).distinct hstored hw, hname⟩
  constructor
  · intro hholder
    have hmem := Store.holder?_eq_some hholder
    rw [commit_valuesAt _ _ _ _ (by decide)] at hmem
    rcases mem_setValues_of_mem hmem with hold | hnew
    · obtain ⟨n, hn⟩ := exists_node_of_mem_valuesAt (List.mem_filter.1 hold).1
      exact absurd hw (commit_get?_ne schema s sub.mutation hfresh (by simp [hn]) _)
    · obtain ⟨x, hx, hnode, hname⟩ := htold hnew
      obtain ⟨v, hv, -, hgranted⟩ := (hminted.satellites x hx).uniqueName?
      obtain rfl := Option.some.inj (hname.symm.trans hv)
      rcases hgranted with ⟨-, hfree⟩ | hsuffix
      · exact hfree
      · exact (hdrawn _ hsuffix).1
  · intro hfree
    have hname := comp.uniqueName_of_isFree ht hfree
    have hmem : t.node.name ∈ (commit schema s sub.mutation).1.valuesAt w "unique_name" := by
      refine mem_valuesAt_of_told ((hminted.mem_told hown).2 (.inr ⟨t, ht, hw, hname⟩))
        fun v hv => ?_
      obtain ⟨x, hx, hnode, hv⟩ := htold hv
      obtain rfl := hminted.distinct x t hx ht hnode
      exact Option.some.inj (hv.symm.trans hname)
    cases hholder : (commit schema s sub.mutation).1.holder? "unique_name" t.node.name with
    | none => exact absurd hmem (Store.holder?_eq_none.1 hholder w)
    | some w' =>
      have hnames := hminted.uniqueNames hown hunique hdrawn hapart
      rw [hnames w' w _ (Store.holder?_eq_some hholder) hmem]

end Submission

/-- The next submission reuses the node of a label exactly if the node has the slug of the label
for a unique name, and all fields that mention the label allow it. The node has that name if the
slug was free when the node was made, and it has the types that it was made with. -/
theorem label_reused_iff {types : List EntityType} {schema : Schema}
    (hbuild : Schema.build types = .ok schema) {s : Store} (hsound : s.Sound)
    {fixed₁ fixed₂ : Option Json} {typeName₁ typeName₂ : String} {form₁ form₂ : Form}
    {c₁ c₂ : Context} {before₁ after₁ before₂ after₂ : Desk} {sub₁ sub₂ : Submission}
    (hsub₁ : (newEntry (s.directory schema fixed₁) stubResolver typeName₁ form₁ c₁).Yields before₁
        sub₁ after₁ ∨
      (editEntry (s.directory schema fixed₁) stubResolver typeName₁ form₁ c₁).Yields before₁ sub₁
        after₁)
    {t : Satellite} (ht : .new t ∈ sub₁.related) {s₁ : Store} {uids : NewUids}
    (hcommit : commit schema s sub₁.mutation = (s₁, uids))
    (hsub₂ : (newEntry (s₁.directory schema fixed₂) stubResolver typeName₂ form₂ c₂).Yields before₂
        sub₂ after₂ ∨
      (editEntry (s₁.directory schema fixed₂) stubResolver typeName₂ form₂ c₂).Yields before₂ sub₂
        after₂)
    {type : TypeDef} (htype : schema.type? typeName₂ = some type) {p : Predicate}
    (hp : type.predicate? p.name = some p)
    (hmention : form₂.Mentions sub₂.skipped p t.node.name) :
    ∃ u : Uid, uids.get? t.node.name = some u.text ∧
      (∃ labels, sub₂.ResolvedBy type form₂ c₂ labels ∧
        (labels.get? t.node.name = some (.existing u) ∧ sub₂.satellites t.node.name = [] ↔
          s₁.holder? "unique_name" t.node.name = some u.text ∧
            ∀ q, type.predicate? q.name = some q →
              form₂.Mentions sub₂.skipped q t.node.name → q.Allows (s₁.toldTypes u.text))) ∧
      ((schema.predicate? "unique_name").map (·.kind) = some .uniqueName → s.Fresh →
        s.UniqueNames → sub₁.DrawnApart s before₁.supply after₁.supply → sub₁.NamedApart →
        sub₁.entry.subject.stored? uids ≠ some u.text →
          (s₁.holder? "unique_name" t.node.name = some u.text ↔ s.IsFree t.node.name)) ∧
      (s.KeepsTypesApart → ∀ tag ∈ t.tags schema, Text.trim tag ∈ s₁.toldTypes u.text) := by
  have hschema := Schema.wellFormed_of_build hbuild
  obtain ⟨comp₁⟩ := exists_composition (d := s.directory schema fixed₁) hbuild hsub₁
  obtain ⟨comp₂⟩ := exists_composition (d := s₁.directory schema fixed₂) hbuild hsub₂
  obtain rfl : type = comp₂.type := Option.some.inj (htype.symm.trans comp₂.isType)
  obtain ⟨hs₁, huids⟩ := Prod.ext_iff.1 hcommit
  obtain rfl : (commit schema s sub₁.mutation).1 = s₁ := hs₁
  obtain rfl : (commit schema s sub₁.mutation).2 = uids := huids
  obtain ⟨u, hu, htypes⟩ := Submission.exists_stored (s := s) hbuild comp₁.set ht
  have hslug : t.node.name ≠ "" := by
    obtain ⟨_, hlabel, -⟩ := comp₁.exists_of_new ht
    obtain ⟨_, _, -, -, -, hne, -⟩ := comp₁.exists_placed hlabel
    exact hne
  refine ⟨u, hu, ⟨comp₂.labels, comp₂.resolvedBy, ?_⟩, ?_, ?_⟩
  · have hholder : ((commit schema s sub₁.mutation).1.holder? "unique_name" t.node.name).bind
        Uid.parse? = some u ↔
          (commit schema s sub₁.mutation).1.holder? "unique_name" t.node.name = some u.text := by
      cases hholder : (commit schema s sub₁.mutation).1.holder? "unique_name" t.node.name with
      | none => simp
      | some w =>
        obtain ⟨u', rfl⟩ := commit_sound schema s sub₁.mutation hsound w _ _ (by decide)
          (Store.holder?_eq_some hholder)
        rw [Option.bind_some, Uid.parse?_text, Option.some.injEq, Option.some.injEq]
        exact ⟨fun h => h ▸ rfl, fun h => Option.some.inj (by rw [← Uid.parse?_text, h, Uid.parse?_text])⟩
    rw [← hholder, ← comp₂.labels_existing_iff hslug hp hmention]
    exact and_iff_left_of_imp comp₂.satellites_eq_nil
  · intro hname hfresh hunique hdrawn hapart hother
    have hminted := submission_minted hschema hname hsound hunique hsub₁
    exact Submission.holder?_eq_some_iff hminted comp₁ (isOwn_uniqueName hbuild hname) hfresh hunique
      hdrawn hapart ht hu hother
  · intro hkeeps tag htag
    rw [(hkeeps.commit sub₁.mutation).toldTypes_eq]
    exact htypes tag htag

/-! ### A publisher of the name of a channel -/

/-- A store with a channel of the name of a publisher. -/
def acmeChannel : Store :=
  (Store.empty.addEntry "Channel" "acme" none).2

/-- The form of a new source on the first channel, with a publisher. -/
def acmeForm (name : String) : Form :=
  ((Table.empty.insert "name" (.string name)).insert "channel" (.string "0x100")).insert
    "publishes_org" (.array [.string "ACME"])

namespace Submission

/-- The new node that a submission makes for a slug, if it is the only one. -/
def satellite? (sub : Submission) (slug : String) : Option Satellite :=
  match sub.satellites slug with
  | [x] => some x
  | _ => none

theorem of_satellite? {sub : Submission} {slug : String} {x : Satellite}
    (h : sub.satellite? slug = some x) : .new x ∈ sub.related ∧ x.node.name = slug := by
  have hx : x ∈ sub.satellites slug := by
    unfold satellite? at h
    split at h
    · rename_i y hy
      rw [hy, Option.some.inj h]
      exact List.mem_singleton_self x
    · cases h
  obtain ⟨related, hrelated, heq⟩ := List.mem_filterMap.1 hx
  cases related with
  | existing u => cases heq
  | new y =>
    obtain ⟨hname, heq⟩ := Option.ite_none_right_eq_some.1 heq
    obtain rfl := Option.some.inj heq
    exact ⟨hrelated, hname⟩

end Submission

theorem mentions_acme {p : Predicate} {name : String} (hname : p.name = "publishes_org")
    (hitems : (p.relationship?.bind fun rel =>
      (p.relationshipTokens rel (.array [.string "ACME"])).toOption) = some ["ACME"]) :
    (acmeForm name).Mentions [] p "acme" := by
  obtain ⟨rel, hrel, hitems⟩ := Option.bind_eq_some_iff.1 hitems
  refine ⟨_, rel, ["ACME"], "ACME", .said (List.mem_filter.2 ⟨Table.get?_eq_some_iff.1
    (hname ▸ Table.get?_insert_self _ _ _), by rw [hname]; decide⟩), hrel,
    toOption_eq_some.1 hitems, List.mem_singleton_self _, by decide +kernel, by decide +kernel⟩

/-- A source with the publisher is submitted, committed, and followed by another one. -/
theorem exists_acme : ∃ sub₁ after₁ t sub₂ after₂ x type p,
    (newEntry (acmeChannel.directory Inventory.schema none) stubResolver "Source"
      (acmeForm "Daily") administrator).Yields Desk.clean sub₁ after₁ ∧
    (.new t ∈ sub₁.related ∧ t.node.name = "acme") ∧
    (newEntry ((commit Inventory.schema acmeChannel sub₁.mutation).1.directory Inventory.schema none)
      stubResolver "Source" (acmeForm "Weekly") administrator).Yields Desk.clean sub₂ after₂ ∧
    (.new x ∈ sub₂.related ∧ x.node.name = "acme") ∧ (∀ u, .existing u ∉ sub₂.related) ∧
    Inventory.schema.type? "Source" = some type ∧ type.predicate? p.name = some p ∧
    (acmeForm "Daily").Mentions sub₁.skipped p "acme" ∧
    (acmeForm "Weekly").Mentions sub₂.skipped p "acme" := by
  have h : ((Inventory.schema.type? "Source").any fun type =>
      (type.predicate? "publishes_org").any fun p =>
        ((p.relationship?.bind fun rel =>
          (p.relationshipTokens rel (.array [.string "ACME"])).toOption) == some ["ACME"]) &&
        ((newEntry (acmeChannel.directory Inventory.schema none) stubResolver "Source"
          (acmeForm "Daily") administrator).outcome Desk.clean).1.toOption.any fun sub₁ =>
            (sub₁.satellite? "acme").isSome && sub₁.skipped == [] &&
            ((newEntry ((commit Inventory.schema acmeChannel sub₁.mutation).1.directory
              Inventory.schema none) stubResolver "Source" (acmeForm "Weekly")
              administrator).outcome Desk.clean).1.toOption.any fun sub₂ =>
                (sub₂.satellite? "acme").isSome && sub₂.related.all (·.isNew) &&
                  sub₂.skipped == []) = true := by
    rewrite [Inventory.schema_eq, Store.directory_eq]
    decide +kernel
  obtain ⟨type, htype, h⟩ := (Option.any_eq_true _ _).1 h
  obtain ⟨p, hp, h⟩ := (Option.any_eq_true _ _).1 h
  obtain ⟨hitems, h⟩ := Bool.and_eq_true_iff.1 h
  obtain ⟨sub₁, after₁, hsub₁, h⟩ := exists_yields h
  obtain ⟨ht, h⟩ := Bool.and_eq_true_iff.1 h
  obtain ⟨sub₂, after₂, hsub₂, h⟩ := exists_yields h
  simp only [Bool.and_eq_true, Option.isSome_iff_exists, beq_iff_eq] at ht hitems h
  obtain ⟨⟨t, ht⟩, hskipped₁⟩ := ht
  obtain ⟨⟨⟨x, hx⟩, hnew⟩, hskipped⟩ := h
  have hname : p.name = "publishes_org" := by simpa using List.find?_some hp
  refine ⟨sub₁, after₁, t, sub₂, after₂, x, type, p, hsub₁, Submission.of_satellite? ht, hsub₂,
    Submission.of_satellite? hx, fun u hu => ?_, htype, by rw [hname]; exact hp, ?_, ?_⟩
  · cases List.all_eq_true.1 hnew _ hu
  · rw [hskipped₁]
    exact mentions_acme hname hitems
  · rw [hskipped]
    exact mentions_acme hname hitems

/-- The publisher is placed under the condition on labels. -/
theorem label_reused_iff_acme : acmeChannel.Sound ∧ ∃ sub₁ after₁ t s₁ uids sub₂ after₂ type p,
    (newEntry (acmeChannel.directory Inventory.schema none) stubResolver "Source"
      (acmeForm "Daily") administrator).Yields Desk.clean sub₁ after₁ ∧
    .new t ∈ sub₁.related ∧ commit Inventory.schema acmeChannel sub₁.mutation = (s₁, uids) ∧
    (newEntry (s₁.directory Inventory.schema none) stubResolver "Source" (acmeForm "Weekly")
      administrator).Yields Desk.clean sub₂ after₂ ∧
    Inventory.schema.type? "Source" = some type ∧ type.predicate? p.name = some p ∧
    (acmeForm "Weekly").Mentions sub₂.skipped p t.node.name ∧
    ∃ u : Uid, uids.get? t.node.name = some u.text ∧
      ∃ labels, sub₂.ResolvedBy type (acmeForm "Weekly") administrator labels ∧
        (labels.get? t.node.name = some (.existing u) ∧ sub₂.satellites t.node.name = [] ↔
          s₁.holder? "unique_name" t.node.name = some u.text ∧
            ∀ q, type.predicate? q.name = some q →
              (acmeForm "Weekly").Mentions sub₂.skipped q t.node.name →
                q.Allows (s₁.toldTypes u.text)) := by
  have hsound : acmeChannel.Sound := sound_empty.addNode _ _
  obtain ⟨sub₁, after₁, t, sub₂, after₂, x, type, p, hsub₁, ⟨ht, hname⟩, hsub₂, -, -, htype, hp,
    -, hmention⟩ := exists_acme
  rw [← hname] at hmention
  obtain ⟨u, hu, hlabels, -⟩ := label_reused_iff Inventory.build_entityTypes hsound (.inl hsub₁) ht
    rfl (.inl hsub₂) htype hp hmention
  exact ⟨hsound, sub₁, after₁, t, _, _, sub₂, after₂, type, p, hsub₁, ht, rfl, hsub₂, htype, hp,
    hmention, u, hu, hlabels⟩

/-- For the label of the publisher a second node is made, as a channel has the slug. -/
theorem acme_made_twice :
    ¬ ∀ types schema, Schema.build types = .ok schema → ∀ s : Store, s.Sound →
      ∀ fixed₁ fixed₂ typeName₁ typeName₂ form₁ form₂ c₁ c₂ before₁ after₁ before₂ after₂ sub₁ sub₂,
      ((newEntry (s.directory schema fixed₁) stubResolver typeName₁ form₁ c₁).Yields before₁ sub₁
          after₁ ∨
        (editEntry (s.directory schema fixed₁) stubResolver typeName₁ form₁ c₁).Yields before₁ sub₁
          after₁) →
      ∀ t, .new t ∈ sub₁.related → ∀ type₁ p, schema.type? typeName₁ = some type₁ →
      type₁.predicate? p.name = some p → form₁.Mentions sub₁.skipped p t.node.name →
      ((newEntry ((commit schema s sub₁.mutation).1.directory schema fixed₂) stubResolver typeName₂
          form₂ c₂).Yields before₂ sub₂ after₂ ∨
        (editEntry ((commit schema s sub₁.mutation).1.directory schema fixed₂) stubResolver
          typeName₂ form₂ c₂).Yields before₂ sub₂ after₂) →
      ∀ type₂, schema.type? typeName₂ = some type₂ → type₂.predicate? p.name = some p →
      form₂.Mentions sub₂.skipped p t.node.name →
        ∃ u : Uid, (commit schema s sub₁.mutation).2.get? t.node.name = some u.text ∧
          .existing u ∈ sub₂.related ∧ ∀ x, .new x ∈ sub₂.related → x.node.name ≠ t.node.name := by
  intro hall
  obtain ⟨sub₁, after₁, t, sub₂, after₂, x, type, p, hsub₁, ⟨ht, hname⟩, hsub₂, -, hnone, htype, hp,
    hmention₁, hmention₂⟩ := exists_acme
  rw [← hname] at hmention₁ hmention₂
  obtain ⟨u, -, hu, -⟩ := hall _ _ Inventory.build_entityTypes acmeChannel (sound_empty.addNode _ _)
    none none _ _ _ _ _ _ _ _ _ _ sub₁ sub₂ (.inl hsub₁) t ht type p htype hp hmention₁ (.inl hsub₂) type
    htype hp hmention₂
  exact hnone u hu

end PressRegister
