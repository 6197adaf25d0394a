import PressRegister.Proofs.Naming
import PressRegister.Proofs.Submission.Fields
import PressRegister.Submission.Satellites

/-!
# How labels are resolved

Labels are resolved one after another, each at most once. So what the resolution of a
single label establishes holds of all nodes related to an entry. With the resolver of
stubs, a new node has plain fields and the slug of its label for its unique name, or
that name with a suffix where a stored node has it.

## Main definitions

* `LabelsResolved`: what the resolution of labels makes of fields.
* `Satellite.Granted`: the unique name of a new node is free, or its suffix was drawn.

## Main results

* `resolveRelated_fields`: the fields of an entry whose labels are resolved.
* `resolveRelated_new`: the new nodes among the related ones.
* `resolveRelated_isPlain`: the related nodes are as the mutation of an entry takes them.
* `resolveRelated_draws`: all that is done to the supply is to draw from it.
-/

namespace PressRegister

open Consult

/-! ### Draws -/

section Draws

variable (d : Directory) (r : Resolver) (c : Context)

theorem checkStored_draws (p : Predicate) (u : Uid) : (checkStored d p u).Draws :=
  .bind (Lookup.types_draws d u) fun _ => .settle _

theorem placeSatellite_draws (p : Predicate) (node : BlankNode) (t : Satellite) :
    (placeSatellite d p node c t).Draws := by
  unfold placeSatellite
  simp only
  split
  · exact .fail _
  refine .bind (Lookup.findUid_draws d _ _) fun holder => ?_
  split
  · exact .pure _
  refine .bind (Lookup.types_draws d _) fun types => ?_
  split
  · exact .pure _
  · exact .bind (.draw (Naming.disambiguate_reaches _)) fun _ => .pure _

theorem resolveLabel_draws (p : Predicate) (node : BlankNode) :
    (resolveLabel d r p node c).Draws := by
  unfold resolveLabel
  split
  · exact .fail _
  · exact .bind (checkStored_draws d p _) fun _ => .pure _
  · exact placeSatellite_draws d c p node _

theorem checkReused_draws (p : Predicate) (node : BlankNode) (related : Related) :
    (checkReused d p node related).Draws := by
  cases related with
  | existing u => exact checkStored_draws d p u
  | new t => exact .settle _

theorem resolveObject_draws (p : Predicate) (st : Resolution) (o : Object) :
    (resolveObject d r c p st o).Draws := by
  unfold resolveObject
  split
  · exact .bind (checkStored_draws d p _) fun _ => .pure _
  · split
    · exact .bind (checkReused_draws d p _ _) fun _ => .pure _
    · exact .bind (resolveLabel_draws d r c p _) fun _ => .pure _
  · exact .pure _

theorem resolveObjects_draws (p : Predicate) (st : Resolution) (objects : List Object) :
    (resolveObjects d r c p st objects).Draws := by
  induction objects generalizing st with
  | nil => exact .pure _
  | cons o rest ih =>
    exact .bind (resolveObject_draws d r c p st o) fun _ => .bind (ih _) fun _ => .pure _

theorem resolveFields_draws (t : TypeDef) (st : Resolution)
    (entries : List (String × List Object)) (fields : Fields) :
    (resolveFields d r c t st entries fields).Draws := by
  induction entries generalizing st fields with
  | nil => exact .pure _
  | cons e rest ih =>
    unfold resolveFields
    split
    · exact ih _ _
    · exact .bind (resolveObjects_draws d r c _ st _) fun _ => ih _ _

theorem resolveRelated_draws (t : TypeDef) (entry : Entity) :
    (resolveRelated d r c t entry).Draws :=
  .bind (resolveFields_draws d r c t _ _ _) fun _ => .pure _

end Draws

/-! ### Single values -/

section Steps

variable {d : Directory} {r : Resolver} {c : Context} {p : Predicate} {st st' : Resolution}
  {before after : Desk}

/-- What the resolution of a value does: a label is resolved unless it was before, and
nothing else changes. -/
theorem resolveObject_cases {o o' : Object}
    (h : (resolveObject d r c p st o).Yields before (o', st') after) :
    (o' = o ∧ st' = st) ∨ ∃ node related, o.value = .new node ∧ o'.value = related.operand ∧
      (st' = st ∨ (resolveLabel d r p node c).Yields before related after ∧
        st'.resolved = st.resolved.insert node.name related) := by
  unfold resolveObject at h
  split at h
  · simp only [yields_bind, yields_pure] at h
    obtain ⟨_, _, -, heq, -⟩ := h
    exact .inl (Prod.mk.inj heq)
  · rename_i node hnode
    split at h
    · rename_i related hrelated
      simp only [yields_bind, yields_pure] at h
      obtain ⟨_, _, -, heq, -⟩ := h
      obtain ⟨rfl, rfl⟩ := Prod.mk.inj heq
      exact .inr ⟨node, related, hnode, rfl, .inl rfl⟩
    · simp only [yields_bind, yields_pure] at h
      obtain ⟨related, mid, hlabel, heq, rfl⟩ := h
      obtain ⟨rfl, rfl⟩ := Prod.mk.inj heq
      exact .inr ⟨node, related, hnode, rfl, .inr ⟨hlabel, rfl⟩⟩
  · obtain ⟨heq, -⟩ := yields_pure.1 h
    exact .inl (Prod.mk.inj heq)

theorem isStorable_operand (related : Related) : related.operand.isStorable = true := by
  cases related <;> rfl

/-- Values are resolved one by one, and what they lead to can be stored if they can be. -/
theorem resolveObjects_values {objects objects' : List Object}
    (h : (resolveObjects d r c p st objects).Yields before (objects', st') after) :
    objects'.length = objects.length ∧ ((∀ o ∈ objects, o.value.isStorable = true) →
      ∀ o ∈ objects', o.value.isStorable = true) := by
  induction objects generalizing st objects' before with
  | nil =>
    obtain ⟨heq, -⟩ := yields_pure.1 h
    obtain ⟨rfl, -⟩ := Prod.mk.inj heq
    exact ⟨rfl, fun hstorable => hstorable⟩
  | cons o rest ih =>
    simp only [resolveObjects, yields_bind, yields_pure] at h
    obtain ⟨⟨o', mid⟩, _, ho, ⟨rest', st''⟩, _, hrest, heq, rfl⟩ := h
    obtain ⟨rfl, rfl⟩ := Prod.mk.inj heq
    obtain ⟨hlength, hrest'⟩ := ih hrest
    refine ⟨by simp [hlength], fun hstorable q hq => ?_⟩
    rcases List.mem_cons.1 hq with rfl | hq
    · rcases resolveObject_cases ho with ⟨rfl, -⟩ | ⟨node, related, -, hvalue, -⟩
      · exact hstorable _ List.mem_cons_self
      · rw [hvalue]
        exact isStorable_operand related
    · exact hrest' (fun o ho => hstorable o (List.mem_cons_of_mem _ ho)) q hq

theorem mem_distinctObjects {objects : List Object} {o : Object}
    (h : o ∈ distinctObjects objects) : o ∈ objects := by
  have hfold : ∀ (rest kept : List Object), o ∈ rest.foldl (fun kept o =>
      if kept.any (·.value == o.value) then kept else kept ++ [o]) kept → o ∈ kept ∨ o ∈ rest := by
    intro rest
    induction rest with
    | nil => exact fun kept h => .inl h
    | cons q rest ih =>
      intro kept h
      rw [List.foldl_cons] at h
      rcases ih _ h with h | h
      · split at h
        · exact .inl h
        · rcases List.mem_append.1 h with h | h
          · exact .inl h
          · rw [List.mem_singleton.1 h]
            exact .inr List.mem_cons_self
      · exact .inr (List.mem_cons_of_mem _ h)
  rcases hfold objects [] h with h | h
  · cases h
  · exact h

theorem distinctObjects_eq_nil {objects : List Object} :
    distinctObjects objects = [] ↔ objects = [] := by
  have hfold : ∀ (rest kept : List Object), kept ≠ [] → rest.foldl (fun kept o =>
      if kept.any (·.value == o.value) then kept else kept ++ [o]) kept ≠ [] := by
    intro rest
    induction rest with
    | nil => exact fun kept h => h
    | cons q rest ih =>
      intro kept h
      rw [List.foldl_cons]
      refine ih _ ?_
      split
      · exact h
      · simp
  cases objects with
  | nil => simp [distinctObjects]
  | cons o rest =>
    have hne : distinctObjects (o :: rest) ≠ [] := hfold rest [o] (by simp)
    simp [hne]

end Steps

/-! ### Whole entries -/

/-- What the resolution of labels makes of fields. -/
structure LabelsResolved (t : TypeDef) (before after : Fields) : Prop where
  /-- Fields that are no relationships are left alone. -/
  plain : ∀ name, (∀ p, t.predicate? name = some p → p.isRelationship = false) →
    after.get? name = before.get? name
  /-- No field is cleared, and none that was gets a value. -/
  cleared : ∀ name, after.get? name = some [] ↔ before.get? name = some []
  storable : ∀ x y : Subject, Entity.IsStorable ⟨x, before⟩ → Entity.IsStorable ⟨y, after⟩

theorem LabelsResolved.refl (t : TypeDef) (fields : Fields) : LabelsResolved t fields fields :=
  ⟨fun _ _ => rfl, fun _ => Iff.rfl, fun _ _ h => h⟩

section Whole

variable {d : Directory} {r : Resolver} {c : Context} {t : TypeDef} {st st' : Resolution}
  {entries : List (String × List Object)} {fields fields' initial : Fields} {before after : Desk}

theorem resolveFields_fields (hentries : ∀ e ∈ entries, initial.get? e.1 = some e.2)
    (hfields : LabelsResolved t initial fields)
    (h : (resolveFields d r c t st entries fields).Yields before (fields', st') after) :
    LabelsResolved t initial fields' := by
  induction entries generalizing st fields before with
  | nil =>
    obtain ⟨heq, -⟩ := yields_pure.1 h
    obtain ⟨rfl, -⟩ := Prod.mk.inj heq
    exact hfields
  | cons e rest ih =>
    obtain ⟨name, objects⟩ := e
    have hrest := fun q hq => hentries q (List.mem_cons_of_mem _ hq)
    have hname : initial.get? name = some objects := hentries _ List.mem_cons_self
    unfold resolveFields at h
    split at h
    · exact ih hrest hfields h
    · rename_i p hp
      obtain ⟨hpredicate, hrelationship⟩ := Option.filter_eq_some_iff.1 hp
      obtain ⟨⟨objects', mid⟩, _, hobjects, h⟩ := yields_bind.1 h
      obtain ⟨hlength, hstorable⟩ := resolveObjects_values hobjects
      refine ih hrest ⟨fun key hkey => ?_, fun key => ?_, fun x y hx => ?_⟩ h
      · have hne : key ≠ name := by
          rintro rfl
          rw [hkey p hpredicate] at hrelationship
          cases hrelationship
        rw [Table.get?_insert, if_neg hne]
        exact hfields.plain key hkey
      · rw [Table.get?_insert]
        by_cases hkey : key = name
        · rw [if_pos hkey, hkey, hname, Option.some.injEq, Option.some.injEq,
            distinctObjects_eq_nil, ← List.length_eq_zero_iff, hlength, List.length_eq_zero_iff]
        · rw [if_neg hkey]
          exact hfields.cleared key
      · intro key values hvalues o ho
        have hvalues : (fields.insert name (distinctObjects objects')).get? key = some values :=
          hvalues
        rw [Table.get?_insert] at hvalues
        split at hvalues
        · cases hvalues
          exact hstorable (hx name objects hname) o (mem_distinctObjects ho)
        · exact hfields.storable x y hx key values hvalues o ho

/-- What holds of every label that is resolved holds of all labels that were resolved. The
supplies `low` and `high` stand for the begin and the end of the whole resolution. -/
theorem resolveObjects_resolved {L : BlankNode → Prop} {P : String → Related → Prop}
    {p : Predicate} {low high : Supply} {objects objects' : List Object}
    (hlabel : ∀ p node before related after, L node → low.Reaches before.supply →
      after.supply.Reaches high → (resolveLabel d r p node c).Yields before related after →
        P node.name related)
    (hnodes : ∀ o ∈ objects, ∀ b, o.value = .new b → L b)
    (hst : ∀ key related, st.resolved.get? key = some related → P key related)
    (hlow : low.Reaches before.supply) (hhigh : after.supply.Reaches high)
    (h : (resolveObjects d r c p st objects).Yields before (objects', st') after) :
    ∀ key related, st'.resolved.get? key = some related → P key related := by
  induction objects generalizing st objects' before with
  | nil =>
    obtain ⟨heq, -⟩ := yields_pure.1 h
    obtain ⟨-, rfl⟩ := Prod.mk.inj heq
    exact hst
  | cons o rest ih =>
    simp only [resolveObjects, yields_bind, yields_pure] at h
    obtain ⟨⟨o', st₁⟩, mid, ho, ⟨rest', st₂⟩, _, hrest, heq, rfl⟩ := h
    obtain ⟨rfl, rfl⟩ := Prod.mk.inj heq
    refine ih (fun q hq => hnodes q (List.mem_cons_of_mem _ hq)) ?_
      (hlow.trans (resolveObject_draws d r c p st o _ _ _ ho)) hrest
    have hmid := (resolveObjects_draws d r c p st₁ rest _ _ _ hrest).trans hhigh
    rcases resolveObject_cases ho with ⟨-, rfl⟩ | ⟨node, related, hnode, -, rfl | ⟨hresolve, hinsert⟩⟩
    · exact hst
    · exact hst
    · intro key related' hget
      have hget : st₁.resolved.get? key = some related' := hget
      rw [hinsert, Table.get?_insert] at hget
      split at hget
      · rename_i hkey
        cases hget
        rw [hkey]
        exact hlabel p node _ _ _ (hnodes o List.mem_cons_self node hnode) hlow hmid hresolve
      · exact hst key related' hget

theorem resolveFields_resolved {L : BlankNode → Prop} {P : String → Related → Prop}
    {low high : Supply}
    (hlabel : ∀ p node before related after, L node → low.Reaches before.supply →
      after.supply.Reaches high → (resolveLabel d r p node c).Yields before related after →
        P node.name related)
    (hnodes : ∀ e ∈ entries, ∀ o ∈ e.2, ∀ b, o.value = .new b → L b)
    (hst : ∀ key related, st.resolved.get? key = some related → P key related)
    (hlow : low.Reaches before.supply) (hhigh : after.supply.Reaches high)
    (h : (resolveFields d r c t st entries fields).Yields before (fields', st') after) :
    ∀ key related, st'.resolved.get? key = some related → P key related := by
  induction entries generalizing st fields before with
  | nil =>
    obtain ⟨heq, -⟩ := yields_pure.1 h
    obtain ⟨-, rfl⟩ := Prod.mk.inj heq
    exact hst
  | cons e rest ih =>
    have hrest := fun q hq => hnodes q (List.mem_cons_of_mem _ hq)
    unfold resolveFields at h
    split at h
    · exact ih hrest hst hlow h
    · obtain ⟨⟨objects', st₁⟩, mid, hobjects, h⟩ := yields_bind.1 h
      have hmid := (resolveFields_draws d r c t st₁ rest _ _ _ _ h).trans hhigh
      refine ih hrest ?_ (hlow.trans (resolveObjects_draws d r c _ st _ _ _ _ hobjects)) h
      exact resolveObjects_resolved hlabel (hnodes e List.mem_cons_self) hst hlow hmid hobjects

variable {entry resolved : Entity} {related : List Related}

theorem resolveRelated_yields :
    (resolveRelated d r c t entry).Yields before (resolved, related) after ↔
      ∃ fields st, (resolveFields d r c t ⟨.empty, []⟩ entry.fields.entries entry.fields).Yields
          before (fields, st) after ∧
        resolved = { entry with fields } ∧ related = inheritSiblings { entry with fields } st := by
  simp only [resolveRelated, yields_bind, yields_pure, Prod.exists, Prod.mk.injEq]
  constructor
  · rintro ⟨fields, st, _, hfields, ⟨rfl, rfl⟩, rfl⟩
    exact ⟨fields, st, hfields, rfl, rfl⟩
  · rintro ⟨fields, st, hfields, rfl, rfl⟩
    exact ⟨fields, st, after, hfields, ⟨rfl, rfl⟩, rfl⟩

/-- The fields of an entry whose labels are resolved. -/
theorem resolveRelated_fields
    (h : (resolveRelated d r c t entry).Yields before (resolved, related) after) :
    resolved.subject = entry.subject ∧ LabelsResolved t entry.fields resolved.fields := by
  obtain ⟨fields, st, hfields, rfl, -⟩ := resolveRelated_yields.1 h
  refine ⟨rfl, resolveFields_fields ?_ (.refl t entry.fields) hfields⟩
  rintro ⟨name, objects⟩ hmem
  exact Table.get?_eq_some_iff.2 hmem

/-- A new node among the related ones was resolved from a label, up to the fields that a
sibling takes over from the entry. -/
theorem exists_of_mem_inheritSiblings {e : Entity} {s : Satellite}
    (h : .new s ∈ inheritSiblings e st) :
    ∃ key s', st.resolved.get? key = some (.new s') ∧
      s = if st.siblings.contains key then inheritSibling e s' else s' := by
  obtain ⟨key, hget⟩ := Table.mem_values_iff.1 h
  rw [Table.get?_map, Option.map_eq_some_iff] at hget
  obtain ⟨related, hrelated, heq⟩ := hget
  cases related with
  | existing u => cases heq
  | new s' =>
    refine ⟨key, s', hrelated, ?_⟩
    by_cases hsibling : st.siblings.contains key = true
    · simp only [hsibling, if_true] at heq ⊢
      exact (Related.new.inj heq).symm
    · simp only [hsibling] at heq ⊢
      exact (Related.new.inj heq).symm

end Whole

/-! ### New nodes without further knowledge -/

namespace Satellite

/-- The unique name of a new node is the name of its node, which is free, or a taken name
with a suffix that was drawn. -/
def Granted (s : Store) (before after : Supply) (t : Satellite) : Prop :=
  ∃ v, t.fields.get? "unique_name" = some [.plain (.literal (.text v))] ∧
    (v = t.node.name ∧ s.IsFree v ∨ s.Drawn before after v)

theorem isPlain_iff {t : Satellite} :
    t.IsPlain ↔ ∀ key, t.fields.contains key = true → key ∈ plainFields := by
  simp only [IsPlain, Table.mem_keys_iff_contains]

/-- Setting a plain field leaves a new node plain. -/
theorem IsPlain.insert {t : Satellite} (h : t.IsPlain) {key : String} (hkey : key ∈ plainFields)
    (values : List Object) : IsPlain { t with fields := t.fields.insert key values } := by
  refine isPlain_iff.2 fun other hother => ?_
  simp only [Table.contains, Table.get?_insert] at hother
  split at hother
  · rename_i heq
    exact heq ▸ hkey
  · exact isPlain_iff.1 h other hother

end Satellite

theorem isPlain_completeSatellite {t : Satellite} (h : t.IsPlain) (c : Context) (name : String) :
    (completeSatellite c t name).IsPlain := by
  have hnamed : ({ t with fields := if t.fields.contains "unique_name" then t.fields
      else t.fields.insert "unique_name" [.plain (.ofText name)] } : Satellite).IsPlain := by
    split
    · exact h
    · exact h.insert (by decide) _
  exact ((hnamed.insert (by decide) _).insert (by decide) _).insert (by decide) _

/-- The fields that a satellite is completed with. -/
def Satellite.completedFields : List String :=
  ["unique_name", ReviewStatus.predicateName, "entry_added", "creation_date"]

theorem Satellite.mem_plainFields_of_completed {name : String} (h : name ∈ completedFields) :
    name ∈ plainFields :=
  List.mem_append_left Inventory.siblingInherited (List.mem_cons_of_mem "name" h)

/-- A satellite keeps the fields that it is not completed with. -/
theorem get?_completeSatellite {name : String} (hname : name ∉ Satellite.completedFields)
    (c : Context) (t : Satellite) (unique : String) :
    (completeSatellite c t unique).fields.get? name = t.fields.get? name := by
  simp only [Satellite.completedFields, List.mem_cons, List.not_mem_nil, or_false, not_or] at hname
  obtain ⟨hunique, hstatus, hadded, hdate⟩ := hname
  simp only [completeSatellite, Table.get?_insert, hstatus, hadded, hdate, if_false]
  split
  · rfl
  · rw [Table.get?_insert, if_neg hunique]

/-- Where fields are taken over one after another, what holds of the fields and is kept when
any of the names is set holds in the end. -/
theorem foldl_takeOver {P : Fields → Prop} (entry : Entity) {names : List String}
    (hinsert : ∀ fields, ∀ name ∈ names, ∀ values, entry.get? name = some values → P fields →
      P (fields.insert name values)) {fields : Fields} (h : P fields) :
    P (names.foldl (fun fields name => match entry.get? name with
      | some values => fields.insert name values
      | none => fields) fields) := by
  induction names generalizing fields with
  | nil => exact h
  | cons name rest ih =>
    rw [List.foldl_cons]
    refine ih (fun fields n hn => hinsert fields n (List.mem_cons_of_mem _ hn)) ?_
    cases hget : entry.get? name with
    | none => exact h
    | some values => exact hinsert fields name List.mem_cons_self values hget h

/-- A field that no sibling takes over stays as it is. -/
theorem get?_inheritSibling {name : String} (hname : name ∉ Inventory.siblingInherited)
    (entry : Entity) (t : Satellite) :
    (inheritSibling entry t).fields.get? name = t.fields.get? name := by
  refine foldl_takeOver (P := fun fields => fields.get? name = t.fields.get? name) entry
    (fun fields key hmem values _ hfields => ?_) rfl
  have hne : name ≠ key := fun heq => hname (heq ▸ hmem)
  rw [Table.get?_insert, if_neg hne]
  exact hfields

/-- A field is the one of the sibling itself, or it is taken over. -/
theorem get?_inheritSibling_cases (entry : Entity) (t : Satellite) {name : String} :
    (inheritSibling entry t).fields.get? name = t.fields.get? name ∨
      (inheritSibling entry t).fields.get? name = entry.get? name := by
  refine foldl_takeOver (P := fun fields => fields.get? name = t.fields.get? name ∨
    fields.get? name = entry.get? name) entry (fun fields key _ values hvalues hfields => ?_)
    (.inl rfl)
  rw [Table.get?_insert]
  split
  · rename_i heq
    exact .inr (by rw [heq, hvalues])
  · exact hfields

/-- What the entry has of a field that siblings take over, the sibling has. -/
theorem get?_inheritSibling_of_some {name : String} (hname : name ∈ Inventory.siblingInherited)
    {entry : Entity} {values : List Object} (h : entry.get? name = some values) (t : Satellite) :
    (inheritSibling entry t).fields.get? name = some values := by
  obtain ⟨first, rest, hsplit⟩ := List.append_of_mem hname
  rw [inheritSibling, hsplit, List.foldl_append, List.foldl_cons, h]
  -- the fields that are taken over later are others, or this one again
  refine foldl_takeOver (P := fun fields => fields.get? name = some values) entry
    (fun fields key _ values' hvalues hfields => ?_) (Table.get?_insert_self _ _ _)
  rw [Table.get?_insert]
  split
  · rename_i heq
    rw [← hvalues, ← heq, h]
  · exact hfields

/-- What a new sibling takes over are plain fields other than its unique name. -/
theorem inheritSibling_spec (entry : Entity) (t : Satellite) :
    (t.IsPlain → (inheritSibling entry t).IsPlain) ∧ (inheritSibling entry t).node = t.node ∧
      (inheritSibling entry t).fields.get? "unique_name" = t.fields.get? "unique_name" := by
  have hplain : ∀ name ∈ Inventory.siblingInherited, name ∈ Satellite.plainFields := by decide
  refine ⟨fun h => ?_, rfl, get?_inheritSibling (by decide) entry t⟩
  exact foldl_takeOver (P := fun fields => ({ t with fields } : Satellite).IsPlain) entry
    (fun fields name hmem values _ hfields => hfields.insert (hplain name hmem) values) h

/-- A new node of the resolver of stubs, before it is completed. -/
def stubOf (node : BlankNode) (typeName : String) : Satellite :=
  ⟨node, typeName, Table.empty.insert "name" [.plain (.ofText (node.label.getD node.name))]⟩

theorem stubResolver_ok {p : Predicate} {node : BlankNode} {related : Related}
    (h : stubResolver p node = .ok related) : ∃ typeName, related = .new (stubOf node typeName) := by
  unfold stubResolver at h
  split at h
  · cases h
  split at h
  · cases h
  · rename_i typeName rest _
    cases h
    exact ⟨typeName, rfl⟩

theorem isPlain_stubOf (node : BlankNode) (typeName : String) : (stubOf node typeName).IsPlain := by
  have hempty : Satellite.IsPlain ⟨node, typeName, .empty⟩ := fun key hkey => by cases hkey
  exact hempty.insert (by decide) _

theorem uniqueName_stubOf (node : BlankNode) (typeName : String) :
    (stubOf node typeName).fields.get? "unique_name" = none := by
  rw [stubOf, Table.get?_insert]
  rfl

/-- A stub is called after the label of its node. -/
theorem name?_stubOf (node : BlankNode) (typeName : String) :
    (stubOf node typeName).name? = some (Text.trim (node.label.getD node.name)) := by
  have hget : (stubOf node typeName).fields.get? "name" =
      some [.plain (.ofText (node.label.getD node.name))] := Table.get?_insert_self _ _ _
  simp [Satellite.name?, hget, Object.plain, Operand.ofText, Operand.text?, Scalar.canonical]

theorem uniqueName_completeSatellite {t : Satellite} (h : t.fields.get? "unique_name" = none)
    (c : Context) (name : String) :
    (completeSatellite c t name).fields.get? "unique_name" = some [.plain (.ofText name)] := by
  have hcontains : t.fields.contains "unique_name" = false := by
    rw [Table.contains, h]
    rfl
  have hother : "unique_name" ≠ ReviewStatus.predicateName ∧ "unique_name" ≠ "entry_added" ∧
      "unique_name" ≠ "creation_date" := by decide
  simp only [completeSatellite, hcontains, Bool.false_eq_true, if_false, Table.get?_insert, hother,
    if_true]

section Stubs

variable {s : Store} {schema : Schema} {fixed : Option Json} {c : Context} {p : Predicate}
  {node : BlankNode} {before after : Desk} {t t' : Satellite}

/-- A label that leads to no stored node becomes a satellite, under the slug of its label or
with a suffix that is drawn. -/
theorem placeSatellite_new
    (h : (placeSatellite (s.directory schema fixed) p node c t).Yields before (.new t') after) :
    Text.slug (t.name?.getD node.name) ≠ "" ∧ ∃ name, t' = completeSatellite c t name ∧
      (s.Sound → Text.NoBlank name ∧ (name = Text.slug (t.name?.getD node.name) ∧ s.IsFree name ∨
        s.Drawn before.supply after.supply name)) := by
  unfold placeSatellite at h
  simp only at h
  split at h
  · exact (not_yields_fail h).elim
  rename_i hslug
  refine ⟨fun heq => hslug (by simp [heq]), ?_⟩
  have hblank := Text.noBlank_slug (t.name?.getD node.name)
  obtain ⟨holder, mid, hholder, h⟩ := yields_bind.1 h
  split at h
  · obtain ⟨heq, -⟩ := yields_pure.1 h
    exact ⟨_, Related.new.inj heq, fun hsound =>
      ⟨hblank, .inl ⟨rfl, (Store.findUid_eq_none_iff hsound hholder).1 rfl⟩⟩⟩
  · rename_i u
    obtain ⟨types, mid', htypes, h⟩ := yields_bind.1 h
    split at h
    · cases (yields_pure.1 h).1
    · simp only [yields_bind, yields_draw, yields_pure] at h
      obtain ⟨name, mid'', ⟨rfl, rfl⟩, heq, rfl⟩ := h
      refine ⟨_, Related.new.inj heq, fun hsound => ⟨Naming.noBlank_disambiguate hblank _, .inr ?_⟩⟩
      have htaken : ¬ s.IsFree (Text.slug (t.name?.getD node.name)) := fun hfree =>
        by cases (Store.findUid_eq_none_iff hsound hholder).2 hfree
      refine (Naming.drawn_disambiguate htaken mid'.supply).mono ?_ (.refl _)
      exact (Lookup.findUid_draws _ _ _ _ _ _ hholder).trans
        (Lookup.types_draws _ _ _ _ _ htypes)

/-- A label that becomes a new node becomes what the resolver made of it, completed. -/
theorem resolveLabel_completed {r : Resolver}
    (h : (resolveLabel (s.directory schema fixed) r p node c).Yields before (.new t) after) :
    ∃ stub name, r p node = .ok (.new stub) ∧ t = completeSatellite c stub name := by
  unfold resolveLabel at h
  split at h
  · exact (not_yields_fail h).elim
  · obtain ⟨_, _, -, h⟩ := yields_bind.1 h
    cases (yields_pure.1 h).1
  · rename_i stub hstub
    obtain ⟨-, name, rfl, -⟩ := placeSatellite_new h
    exact ⟨stub, name, hstub, rfl⟩

/-- A label that becomes a new node becomes a stub that is completed. -/
theorem resolveLabel_stub
    (h : (resolveLabel (s.directory schema fixed) stubResolver p node c).Yields before (.new t)
      after) : ∃ typeName name, t = completeSatellite c (stubOf node typeName) name := by
  obtain ⟨stub, name, hstub, rfl⟩ := resolveLabel_completed h
  obtain ⟨typeName, heq⟩ := stubResolver_ok hstub
  exact ⟨typeName, name, by rw [Related.new.inj heq]⟩

/-- What becomes of the label of a node that is named after it. -/
theorem resolveLabel_new (hnode : node.IsLabelled)
    (h : (resolveLabel (s.directory schema fixed) stubResolver p node c).Yields before (.new t)
      after) :
    t.node = node ∧ t.IsPlain ∧ (s.Sound → t.Granted s before.supply after.supply) := by
  unfold resolveLabel at h
  split at h
  · exact (not_yields_fail h).elim
  · obtain ⟨_, _, -, h⟩ := yields_bind.1 h
    cases (yields_pure.1 h).1
  · rename_i stub hstub
    obtain ⟨typeName, heq⟩ := stubResolver_ok hstub
    obtain rfl := Related.new.inj heq
    obtain ⟨hslug, name, rfl, hname⟩ := placeSatellite_new h
    rw [name?_stubOf, Option.getD_some] at hslug hname
    refine ⟨rfl, isPlain_completeSatellite (isPlain_stubOf node typeName) c name, fun hsound => ?_⟩
    obtain ⟨hblank, hgranted⟩ := hname hsound
    refine ⟨name, ?_, hgranted.imp_left ?_⟩
    · rw [uniqueName_completeSatellite (uniqueName_stubOf node typeName), Operand.ofText,
        hblank.trim_eq]
    · rintro ⟨rfl, hfree⟩
      exact ⟨hnode.resolve_right hslug, hfree⟩

/-- The new nodes among those related to an entry: they have plain fields, their unique names
are granted, and no two of them have one node. -/
theorem resolveRelated_new {type : TypeDef} {entry resolved : Entity} {related : List Related}
    (hfields : FieldsRead type entry.fields)
    (h : (resolveRelated (s.directory schema fixed) stubResolver c type entry).Yields before
      (resolved, related) after) :
    (∀ t, .new t ∈ related → t.IsPlain ∧
      (s.Sound → t.Granted s before.supply after.supply)) ∧
    ∀ a b, .new a ∈ related → .new b ∈ related → a.node.name = b.node.name → a = b := by
  obtain ⟨fields, st, hresolve, -, rfl⟩ := resolveRelated_yields.1 h
  have hresolved : ∀ key related, st.resolved.get? key = some related → ∀ t, related = .new t →
      t.node.name = key ∧ t.IsPlain ∧ (s.Sound → t.Granted s before.supply after.supply) := by
    refine resolveFields_resolved (L := BlankNode.IsLabelled) ?_ ?_ (fun _ _ h => by cases h)
      (.refl _) (.refl _) hresolve
    · rintro p node mid _ mid' hnode hlow hhigh hlabel t rfl
      obtain ⟨rfl, hplain, hgranted⟩ := resolveLabel_new hnode hlabel
      refine ⟨rfl, hplain, fun hsound => ?_⟩
      obtain ⟨v, hget, hv⟩ := hgranted hsound
      exact ⟨v, hget, hv.imp_right fun hdrawn => hdrawn.mono hlow hhigh⟩
    · rintro ⟨name, objects⟩ hmem o ho b hb
      exact hfields.isLabelled (Table.get?_eq_some_iff.2 hmem) ho hb
  constructor
  · intro t ht
    obtain ⟨key, t', hget, rfl⟩ := exists_of_mem_inheritSiblings ht
    obtain ⟨-, hplain, hgranted⟩ := hresolved key _ hget t' rfl
    obtain ⟨hinherit, hnode, hname⟩ := inheritSibling_spec { entry with fields } t'
    split
    · refine ⟨hinherit hplain, fun hsound => ?_⟩
      obtain ⟨v, hv⟩ := hgranted hsound
      exact ⟨v, by rw [hname, hnode]; exact hv⟩
    · exact ⟨hplain, hgranted⟩
  · intro a b ha hb hab
    obtain ⟨key, a', hget, rfl⟩ := exists_of_mem_inheritSiblings ha
    obtain ⟨key', b', hget', rfl⟩ := exists_of_mem_inheritSiblings hb
    have hnode : ∀ (flag : Bool) (x : Satellite),
        (if flag then inheritSibling { entry with fields } x else x).node = x.node := by
      intro flag x
      cases flag with
      | true => exact (inheritSibling_spec _ x).2.1
      | false => rfl
    rw [hnode, hnode, (hresolved key _ hget a' rfl).1, (hresolved key' _ hget' b' rfl).1] at hab
    subst hab
    obtain rfl : a' = b' := by
      rw [hget] at hget'
      exact Related.new.inj (Option.some.inj hget')
    rfl

/-- So all that a mutation says of the nodes related to an entry is stored at those nodes. -/
theorem resolveRelated_isPlain {type : TypeDef} {entry resolved : Entity} {related : List Related}
    (hfields : FieldsRead type entry.fields)
    (h : (resolveRelated (s.directory schema fixed) stubResolver c type entry).Yields before
      (resolved, related) after) : ∀ x ∈ related, x.IsPlain := by
  intro x hx
  cases x with
  | existing u => exact trivial
  | new t => exact ((resolveRelated_new hfields h).1 t hx).1

end Stubs

end PressRegister
