import PressRegister.Proofs.Inventory.Registry
import PressRegister.Proofs.Submission.Minting

/-!
# Unique names stay unique

The names that a submission gives are looked up one by one, before any of them is
written. So none of them is in the store already, and no two new nodes are given one,
as each of them has the name of its label. The name of the entry is not compared with
those of the new nodes: names stay unique exactly if none of these has the name of the
entry.

## Main definitions

* `Submission.DrawnApart`: a drawn suffix gives a name that is not otherwise in use.
* `Submission.NamedApart`: no new node has the name of the entry.

## Main results

* `unique_names_iff`: when no two nodes have one name after a submission.
-/

namespace PressRegister

open Consult Store

namespace Submission

/-- A submission gives a node a unique name. -/
def Gives (sub : Submission) (x : Subject) (v : String) : Prop :=
  x = sub.entry.subject ∧ sub.entry.text? "unique_name" = some v ∨
    ∃ t, .new t ∈ sub.related ∧ x = .new t.node ∧ t.uniqueName? = some v

/-- A drawn suffix gives a name that is not otherwise in use, neither in the store nor in the
submission. -/
def DrawnApart (s : Store) (before after : Supply) (sub : Submission) : Prop :=
  ∀ v, s.Drawn before after v → s.IsFree v ∧ ∀ x y, sub.Gives x v → sub.Gives y v → x = y

/-- No new node has the unique name of the entry. -/
def NamedApart (sub : Submission) : Prop :=
  ∀ v, sub.entry.text? "unique_name" = some v →
    ∀ t, .new t ∈ sub.related → t.uniqueName? ≠ some v

variable {schema : Schema} {s : Store} {before after : Supply} {sub : Submission}
  {uids : NewUids} {w v : String}

/-- The names that a submission tells are those of its entry and of its new nodes. -/
theorem Minted.mem_told (h : sub.Minted schema s before after)
    (hown : schema.IsOwn "unique_name") :
    v ∈ told uids w "unique_name" sub.mutation.set ↔
      sub.entry.subject.stored? uids = some w ∧ sub.entry.text? "unique_name" = some v ∨
        ∃ t, .new t ∈ sub.related ∧ uids.get? t.node.name = some w ∧ t.uniqueName? = some v := by
  have hentry : sub.entry.storedValues uids "unique_name" =
      (sub.entry.text? "unique_name").toList := by
    rw [Entity.storedValues_eq, h.once]
    cases sub.entry.text? "unique_name" <;> rfl
  rw [h.set, told_append, List.mem_append, Entity.told_own hown,
    Mutation.mem_told_satellites hown (by decide), List.mem_ite_nil_right, hentry,
    Option.mem_toList]
  refine or_congr Iff.rfl (exists_congr fun t => and_congr_right fun ht => and_congr_right fun _ => ?_)
  obtain ⟨v', hname, hstored, -⟩ := (h.satellites t ht).uniqueName?
  rw [hstored, List.mem_singleton, hname, Option.some.injEq, eq_comm]

/-- A name that is told of a node is no other node's before. -/
theorem Minted.eq_of_mem_told (h : sub.Minted schema s before after)
    (hown : schema.IsOwn "unique_name") (hdrawn : sub.DrawnApart s before after)
    (hv : v ∈ told uids w "unique_name" sub.mutation.set) {a : String}
    (ha : v ∈ s.valuesAt a "unique_name") : a = w := by
  have hgrants : ¬ s.Grants before after v := by
    rintro (hfree | hsuffix)
    · exact hfree a ha
    · exact (hdrawn v hsuffix).1 a ha
  rcases (h.mem_told hown).1 hv with ⟨hw, htext⟩ | ⟨t, ht, -, hname⟩
  · rcases h.entry v htext with hgranted | ⟨u, hu, hholder⟩
    · exact absurd hgranted hgrants
    · rw [hu] at hw
      rw [hholder a ha]
      exact Option.some.inj hw
  · obtain ⟨v', hname', -, hgranted⟩ := (h.satellites t ht).uniqueName?
    obtain rfl : v = v' := Option.some.inj (hname.symm.trans hname')
    exact absurd (hgranted.imp_left And.right) hgrants

/-- No name is told of two nodes, if no new node has the name of the entry. -/
theorem Minted.told_unique (h : sub.Minted schema s before after)
    (hown : schema.IsOwn "unique_name") (hdrawn : sub.DrawnApart s before after)
    (hapart : sub.NamedApart) {a b : String}
    (ha : v ∈ told uids a "unique_name" sub.mutation.set)
    (hb : v ∈ told uids b "unique_name" sub.mutation.set) : a = b := by
  rcases (h.mem_told hown).1 ha with ⟨ha, htext⟩ | ⟨t, ht, ha, hname⟩
  all_goals rcases (h.mem_told hown).1 hb with ⟨hb, htext'⟩ | ⟨t', ht', hb, hname'⟩
  · exact Option.some.inj (ha.symm.trans hb)
  · exact absurd hname' (hapart v htext t' ht')
  · exact absurd hname (hapart v htext' t ht)
  · have hnode : t.node.name = t'.node.name := by
      obtain ⟨v₁, h₁, -, hv₁⟩ := (h.satellites t ht).uniqueName?
      obtain ⟨v₂, h₂, -, hv₂⟩ := (h.satellites t' ht').uniqueName?
      obtain rfl : v = v₁ := Option.some.inj (hname.symm.trans h₁)
      obtain rfl : v = v₂ := Option.some.inj (hname'.symm.trans h₂)
      have hsame (hsuffix : s.Drawn before after v) : t.node.name = t'.node.name := by
        have heq := (hdrawn v hsuffix).2 (.new t.node) (.new t'.node) (.inr ⟨t, ht, rfl, hname⟩)
          (.inr ⟨t', ht', rfl, hname'⟩)
        rw [Subject.new.inj heq]
      rcases hv₁ with ⟨hv₁, -⟩ | hsuffix
      · rcases hv₂ with ⟨hv₂, -⟩ | hsuffix
        · exact hv₁.symm.trans hv₂
        · exact hsame hsuffix
      · exact hsame hsuffix
    rw [hnode] at ha
    exact Option.some.inj (ha.symm.trans hb)

/-- Names stay unique if no new node has the name of the entry. -/
theorem Minted.uniqueNames (h : sub.Minted schema s before after)
    (hown : schema.IsOwn "unique_name") (hunique : s.UniqueNames)
    (hdrawn : sub.DrawnApart s before after) (hapart : sub.NamedApart) :
    (commit schema s sub.mutation).1.UniqueNames := by
  intro a b v ha hb
  rw [commit_valuesAt _ _ _ _ (by decide)] at ha hb
  rcases mem_setValues_of_mem ha with ha | ha
  all_goals rcases mem_setValues_of_mem hb with hb | hb
  · exact hunique a b v (List.mem_filter.1 ha).1 (List.mem_filter.1 hb).1
  · exact h.eq_of_mem_told hown hdrawn hb (List.mem_filter.1 ha).1
  · exact (h.eq_of_mem_told hown hdrawn ha (List.mem_filter.1 hb).1).symm
  · exact h.told_unique hown hdrawn hapart ha hb

/-- An entity that is given a unique name is stored, once its statements are set. -/
theorem stored_of_operands {m : Mutation} {e : Entity} (hown : schema.IsOwn "unique_name")
    (hnode : e.subject.isNode = true) (hv : .literal (.text v) ∈ e.operands "unique_name")
    (hset : ∀ d ∈ e.statements schema, d ∈ m.set) :
    ∃ w, e.subject.stored? (commit schema s m).2 = some w := by
  obtain ⟨o, ho, hvalue⟩ := List.mem_map.1 hv
  obtain ⟨w, -, hw, -⟩ :=
    Entity.exists_stored_own (s := s) hnode hown.1 ho (by rw [hvalue]; rfl) hset
  exact ⟨w, hw⟩

/-- A name that is all that is told of a node is its name afterwards. -/
theorem mem_valuesAt_of_told {m : Mutation}
    (hv : v ∈ told (commit schema s m).2 w "unique_name" m.set)
    (hall : ∀ x ∈ told (commit schema s m).2 w "unique_name" m.set, x = v) :
    v ∈ (commit schema s m).1.valuesAt w "unique_name" := by
  rw [commit_valuesAt _ _ _ _ (by decide)]
  exact mem_setValues_of_forall hv hall

/-- If names stay unique, no new node other than the entry has the name of the entry. -/
theorem Minted.namedApart (h : sub.Minted schema s before after)
    (hown : schema.IsOwn "unique_name")
    (hother : ∀ t, .new t ∈ sub.related → (commit schema s sub.mutation).2.get? t.node.name ≠
      sub.entry.subject.stored? (commit schema s sub.mutation).2)
    (hunique : (commit schema s sub.mutation).1.UniqueNames) : sub.NamedApart := by
  intro v hv t ht hname
  obtain ⟨w, hw⟩ := stored_of_operands (s := s) (m := sub.mutation) hown h.node
    (by rw [h.once, hv]; exact List.mem_singleton_self _)
    (fun d hd => by rw [h.set]; exact List.mem_append_left _ hd)
  obtain ⟨w', hw'⟩ : ∃ w', (commit schema s sub.mutation).2.get? t.node.name = some w' := by
    obtain ⟨v', hget, -⟩ := h.satellites t ht
    refine stored_of_operands (e := t.entity schema) (v := v') hown rfl ?_ fun d hd => ?_
    · have hget' : (t.entity schema).fields.get? "unique_name" = t.fields.get? "unique_name" :=
        Table.get?_insert _ _ _ _
      rw [Entity.operands, hget', hget]
      exact List.mem_singleton_self _
    · rw [h.set]
      exact List.mem_append_right _ (List.mem_flatMap.2 ⟨.new t, ht, hd⟩)
  have hentry : v ∈ (commit schema s sub.mutation).1.valuesAt w "unique_name" := by
    refine mem_valuesAt_of_told ((h.mem_told hown).2 (.inl ⟨hw, hv⟩)) fun x hx => ?_
    rcases (h.mem_told hown).1 hx with ⟨-, hx⟩ | ⟨t', ht', hstored, -⟩
    · exact Option.some.inj (hx.symm.trans hv)
    · exact absurd (hstored.trans hw.symm) (hother t' ht')
  have hsatellite : v ∈ (commit schema s sub.mutation).1.valuesAt w' "unique_name" := by
    refine mem_valuesAt_of_told ((h.mem_told hown).2 (.inr ⟨t, ht, hw', hname⟩)) fun x hx => ?_
    rcases (h.mem_told hown).1 hx with ⟨hstored, -⟩ | ⟨t', ht', hstored, hx⟩
    · exact absurd (hw'.trans hstored.symm) (hother t ht)
    · have hnode := (commit_allots schema s sub.mutation).distinct hstored hw'
      obtain rfl := h.distinct t' t ht' ht hnode
      exact Option.some.inj (hx.symm.trans hname)
  refine hother t ht ?_
  rw [hw', hw, hunique w w' v hentry hsatellite]

end Submission

/-- A unique name that is declared as such is stored at the node itself. -/
theorem isOwn_uniqueName {types : List EntityType} {schema : Schema}
    (hbuild : Schema.build types = .ok schema)
    (hname : (schema.predicate? "unique_name").map (·.kind) = some .uniqueName) :
    schema.IsOwn "unique_name" := by
  obtain ⟨p, hp, hkind⟩ := Option.map_eq_some_iff.1 hname
  refine Schema.isOwn_of_build hbuild hp ?_
  rw [Predicate.direction?, Predicate.relationship?, hkind]
  rfl

/-- Names stay unique if no new node has the name of the entry, and only then, as far as the
entry is none of the new nodes itself. -/
theorem unique_names_iff {types : List EntityType} {schema : Schema}
    (hbuild : Schema.build types = .ok schema)
    (hname : (schema.predicate? "unique_name").map (·.kind) = some .uniqueName)
    {s : Store} (hsound : s.Sound) (hunique : s.UniqueNames) {fixed : Option Json}
    {typeName : String} {form : Form} {c : Context} {before after : Desk} {sub : Submission}
    (hsub : (newEntry (s.directory schema fixed) stubResolver typeName form c).Yields before sub
        after ∨
      (editEntry (s.directory schema fixed) stubResolver typeName form c).Yields before sub after)
    (hdrawn : sub.DrawnApart s before.supply after.supply) :
    (sub.NamedApart → (commit schema s sub.mutation).1.UniqueNames) ∧
    ((∀ t, .new t ∈ sub.related → (commit schema s sub.mutation).2.get? t.node.name ≠
        sub.entry.subject.stored? (commit schema s sub.mutation).2) →
      (commit schema s sub.mutation).1.UniqueNames → sub.NamedApart) := by
  have hown := isOwn_uniqueName hbuild hname
  have hminted := submission_minted (Schema.wellFormed_of_build hbuild) hname hsound hunique hsub
  exact ⟨hminted.uniqueNames hown hunique hdrawn, hminted.namedApart hown⟩

/-! ### A source with a sibling of its name -/

/-- A store with one channel, which has no name. -/
def namelessChannel : Store :=
  (Store.empty.addNode ["Channel", "Entry"] []).2

/-- The form of a new source with a sibling of the same name. -/
def twinForm : Form :=
  ((Table.empty.insert "name" (.string "Foo")).insert "channel" (.string "0x100")).insert
    "sibling_sources" (.array [.string "Foo"])

/-- An administrator who submits. -/
def administrator : Context := ⟨Uid.ofNat 0x100, .admin, "", ⟨0, 0⟩, false⟩

theorem valuesAt_namelessChannel (w p : String) : namelessChannel.valuesAt w p = [] := by
  have hnode : namelessChannel.node? w = if w = (Uid.ofNat 0x100).text then
      some ⟨["Channel", "Entry"], .empty⟩ else none := Table.get?_insert _ _ _ _
  unfold valuesAt nodeAt
  rw [hnode]
  split <;> rfl

theorem uniqueNames_namelessChannel : namelessChannel.UniqueNames := by
  intro a b v ha
  rw [valuesAt_namelessChannel] at ha
  cases ha

/-- As no name is taken, no suffix is drawn. -/
theorem drawnApart_namelessChannel (before after : Supply) (sub : Submission) :
    sub.DrawnApart namelessChannel before after := by
  rintro v ⟨base, i, htaken, -⟩
  refine absurd (fun w hw => ?_) htaken
  rw [valuesAt_namelessChannel] at hw
  cases hw

theorem exists_twins : ∃ sub after,
    (newEntry (namelessChannel.directory Inventory.schema none) stubResolver "Source" twinForm
      administrator).Yields Desk.clean sub after ∧
    "foo" ∈ (commit Inventory.schema namelessChannel sub.mutation).1.valuesAt "0x101"
      "unique_name" ∧
    "foo" ∈ (commit Inventory.schema namelessChannel sub.mutation).1.valuesAt "0x102"
      "unique_name" := by
  have h : (((newEntry (namelessChannel.directory Inventory.schema none) stubResolver "Source"
      twinForm administrator).outcome Desk.clean).1.toOption.any fun sub =>
        let after := (commit Inventory.schema namelessChannel sub.mutation).1
        (after.valuesAt "0x101" "unique_name").contains "foo" &&
          (after.valuesAt "0x102" "unique_name").contains "foo") = true := by
    rewrite [Inventory.schema_eq, Store.directory_eq]
    decide +kernel
  obtain ⟨sub, after, hsub, hnames⟩ := exists_yields h
  simp only [Bool.and_eq_true, List.contains_iff_mem] at hnames
  exact ⟨sub, after, hsub, hnames⟩

theorem kind_uniqueName_inventory :
    (Inventory.schema.predicate? "unique_name").map (·.kind) = some .uniqueName := by
  rw [Inventory.predicate?_schema]
  decide +kernel

/-- The source and its sibling get names under the condition on them. -/
theorem unique_names_iff_twins : namelessChannel.Sound ∧ namelessChannel.UniqueNames ∧
    ∃ sub after, (newEntry (namelessChannel.directory Inventory.schema none) stubResolver "Source"
      twinForm administrator).Yields Desk.clean sub after ∧
    sub.DrawnApart namelessChannel Desk.clean.supply after.supply ∧
    (sub.NamedApart → (commit Inventory.schema namelessChannel sub.mutation).1.UniqueNames) ∧
    ((∀ t, .new t ∈ sub.related →
        (commit Inventory.schema namelessChannel sub.mutation).2.get? t.node.name ≠
          sub.entry.subject.stored? (commit Inventory.schema namelessChannel sub.mutation).2) →
      (commit Inventory.schema namelessChannel sub.mutation).1.UniqueNames → sub.NamedApart) := by
  have hsound : namelessChannel.Sound := sound_empty.addNode _ _
  obtain ⟨sub, after, hsub, -, -⟩ := exists_twins
  have hdrawn := drawnApart_namelessChannel Desk.clean.supply after.supply sub
  exact ⟨hsound, uniqueNames_namelessChannel, sub, after, hsub, hdrawn,
    unique_names_iff Inventory.build_entityTypes kind_uniqueName_inventory hsound
      uniqueNames_namelessChannel (.inl hsub) hdrawn⟩

/-- The source and its sibling are given one name. -/
theorem twins_share_name :
    ¬ ∀ types schema, Schema.build types = .ok schema →
      (schema.predicate? "unique_name").map (·.kind) = some .uniqueName →
      ∀ s : Store, s.Sound → s.UniqueNames → ∀ fixed typeName form c before after sub,
      ((newEntry (s.directory schema fixed) stubResolver typeName form c).Yields before sub after ∨
        (editEntry (s.directory schema fixed) stubResolver typeName form c).Yields before sub
          after) →
      sub.DrawnApart s before.supply after.supply →
        (commit schema s sub.mutation).1.UniqueNames := by
  intro hall
  obtain ⟨sub, after, hsub, hsource, hsibling⟩ := exists_twins
  have hunique := hall _ _ Inventory.build_entityTypes kind_uniqueName_inventory namelessChannel
    (sound_empty.addNode _ _) uniqueNames_namelessChannel none _ _ _ _ _ sub (.inl hsub)
    (drawnApart_namelessChannel _ _ sub)
  exact absurd (hunique _ _ _ hsource hsibling) (by decide)

end PressRegister
