import PressRegister.Proofs.Submission.Entries

/-!
# The unique names that submissions give

A submission gives a unique name to its entry and to every new node. The name of a new
entry is looked up before it is given, and so is the one that a change asks for; the
names of new nodes are looked up too. All look-ups are made in the store as it is
before the submission is written.

## Main definitions

* `Store.UniqueNames`: no two nodes have one unique name.
* `Satellite.uniqueName?`: the unique name of a new node.
* `Submission.Minted`: what is established of the names that a submission gives.

## Main results

* `submission_minted`: the names that submissions give are minted.
-/

namespace PressRegister

open Consult

/-- No two nodes have one unique name. -/
def Store.UniqueNames (s : Store) : Prop :=
  ∀ a b v, v ∈ s.valuesAt a "unique_name" → v ∈ s.valuesAt b "unique_name" → a = b

/-! ### Draws of steps -/

section Draws

variable (d : Directory)

theorem newStatus_draws (t : TypeDef) (form : Form) (c : Context) :
    (newStatus t form c).Draws := by
  refine .bind (.settle _) fun initial => .bind (Form.requestedStatus_draws t form) fun r => ?_
  split
  · exact .pure _
  split
  · exact .pure _
  · exact .settle _

theorem editStatus_draws (t : TypeDef) (form : Form) (c : Context) (current : ReviewStatus) :
    (editStatus t form c current).Draws := by
  unfold editStatus
  simp only
  split
  · exact .bind (.pure _) fun _ => .settle _
  · exact .bind (.map _ (Form.requestedStatus_draws t form)) fun _ => .settle _

theorem uniqueNameOf_draws (e : Entity) (predicate : String) :
    (uniqueNameOf d e predicate).Draws := by
  unfold uniqueNameOf
  split
  · exact Lookup.uniqueName_draws d _
  · exact .pure _

theorem nameByType_draws (t : TypeDef) (e : Entity) : (nameByType d t e).Draws := by
  unfold nameByType
  split
  · exact .fail _
  split
  · exact .bind (uniqueNameOf_draws d e _) fun _ => .bind (uniqueNameOf_draws d e _) fun _ =>
      Naming.sourceUniqueName_draws d _ _ _
  · exact Naming.uniqueName_draws d _

theorem generateUniqueName_draws (t : TypeDef) (e : Entity) :
    (generateUniqueName d t e).Draws := by
  unfold generateUniqueName
  simp only
  split
  · split
    · refine .bind (Naming.isTaken_draws d _) fun taken => ?_
      split
      · exact .bind (.draw (Naming.disambiguate_reaches _)) fun _ => .pure _
      · exact .pure _
    · exact .bind (nameByType_draws d t _) fun _ => .pure _
  · exact .bind (nameByType_draws d t _) fun _ => .pure _

theorem withUniqueName_draws (t : TypeDef) (e : Entity) : (withUniqueName d t e).Draws := by
  unfold withUniqueName
  split
  · refine .bind (Naming.isTaken_draws d _) fun taken => ?_
    split
    · exact .fail _
    · exact .pure _
  · exact .bind (generateUniqueName_draws d t e) fun _ => .pure _

theorem checkUniqueName_draws (u : Uid) (e : Entity) : (checkUniqueName d u e).Draws := by
  unfold checkUniqueName
  split
  · exact .pure _
  · refine .bind (Lookup.findUid_draws d _ _) fun holder => ?_
    split
    · exact .fail _
    · exact .pure _

theorem existingEntry_draws (u : Uid) : (existingEntry d u).Draws := by
  refine .bind (Lookup.entryInfo_draws d u) fun info => ?_
  split
  · exact .pure _
  · exact .fail _

end Draws

/-! ### Names of entries -/

section Entries

variable {s : Store} {schema : Schema} {fixed : Option Json} {t : TypeDef} {e e' : Entity}
  {before after : Desk} {v : String}

theorem nameByType_grants (hsound : s.Sound)
    (h : (nameByType (s.directory schema fixed) t e).Yields before v after) :
    Text.NoBlank v ∧ s.Grants before.supply after.supply v := by
  unfold nameByType at h
  split at h
  · exact (not_yields_fail h).elim
  split at h
  · simp only [yields_bind] at h
    obtain ⟨channel, mid, hchannel, country, mid', hcountry, h⟩ := h
    obtain ⟨hblank, hgrants⟩ := Naming.sourceUniqueName_grants hsound h
    refine ⟨hblank, hgrants.mono ?_ (.refl _)⟩
    exact (uniqueNameOf_draws _ _ _ _ _ _ hchannel).trans
      (uniqueNameOf_draws _ _ _ _ _ _ hcountry)
  · exact Naming.uniqueName_grants hsound h

/-- A generated unique name is free, or its suffix was drawn. -/
theorem generateUniqueName_grants (hsound : s.Sound)
    (h : (generateUniqueName (s.directory schema fixed) t e).Yields before (v, e') after) :
    Text.NoBlank v ∧ s.Grants before.supply after.supply v := by
  have hbyType : ∀ e₁, (nameByType (s.directory schema fixed) t e₁ >>= fun name =>
      pure (name, e₁)).Yields before (v, e') after →
        Text.NoBlank v ∧ s.Grants before.supply after.supply v := by
    intro e₁ h
    simp only [yields_bind, yields_pure] at h
    obtain ⟨name, mid, hname, heq, rfl⟩ := h
    rw [(Prod.mk.inj heq).1]
    exact nameByType_grants hsound hname
  unfold generateUniqueName at h
  simp only at h
  split at h
  · split at h
    · rename_i key hkey
      have hblank : Text.NoBlank key := by
        unfold Naming.paperKey at hkey
        obtain ⟨text, -, rfl⟩ := List.mem_map.1 (List.mem_of_find?_eq_some hkey)
        exact Text.noBlank_slug text
      obtain ⟨taken, mid, htaken, h⟩ := yields_bind.1 h
      refine Naming.grants_of_isTaken hsound hblank htaken ?_
      cases taken with
      | true =>
        simp only [if_true, yields_bind, yields_draw, yields_pure] at h
        obtain ⟨name, mid', ⟨rfl, rfl⟩, heq, rfl⟩ := h
        exact yields_draw.2 ⟨(Prod.mk.inj heq).1, rfl⟩
      | false =>
        obtain ⟨heq, rfl⟩ := yields_pure.1 h
        exact yields_pure.2 ⟨(Prod.mk.inj heq).1, rfl⟩
    · exact hbyType _ h
  · exact hbyType _ h

/-- The unique name that a change asks for is no other node's. -/
theorem checkUniqueName_yields (hsound : s.Sound) (hunique : s.UniqueNames) {u : Uid} {r : Unit}
    (h : (checkUniqueName (s.directory schema fixed) u e).Yields before r after)
    (hv : e.text? "unique_name" = some v) {w : String} (hw : v ∈ s.valuesAt w "unique_name") :
    w = u.text := by
  unfold checkUniqueName at h
  rw [hv] at h
  obtain ⟨holder, mid, hholder, h⟩ := yields_bind.1 h
  split at h
  · exact (not_yields_fail h).elim
  · rename_i hother
    cases holder with
    | none => exact absurd hw ((Store.findUid_eq_none_iff hsound hholder).1 rfl w)
    | some u' =>
      obtain rfl : u' = u := by simpa using hother
      obtain ⟨hfind, -⟩ := Store.findUid_yields hholder
      obtain ⟨w', hw', hparse⟩ := Option.bind_eq_some_iff.1 hfind.symm
      have hmem := Store.holder?_eq_some hw'
      obtain ⟨u'', rfl⟩ := hsound w' "unique_name" v (by decide) hmem
      rw [Uid.parse?_text] at hparse
      rw [← Option.some.inj hparse]
      exact hunique w u''.text v hw hmem

end Entries

/-! ### Names of submissions -/

/-- The unique name of a new node. -/
def Satellite.uniqueName? (t : Satellite) : Option String :=
  Entity.text? ⟨.new t.node, t.fields⟩ "unique_name"

theorem Satellite.Granted.uniqueName? {s : Store} {before after : Supply} {t : Satellite}
    (h : t.Granted s before after) : ∃ v, t.uniqueName? = some v ∧
      (∀ uids, Entity.storedValues uids ⟨.new t.node, t.fields⟩ "unique_name" = [v]) ∧
      (v = t.node.name ∧ s.IsFree v ∨ s.Drawn before after v) := by
  obtain ⟨v, hget, hv⟩ := h
  have hoperands : Entity.operands ⟨.new t.node, t.fields⟩ "unique_name" =
      [.literal (.text v)] := by
    rw [Entity.operands, hget]
    rfl
  refine ⟨v, ?_, fun uids => ?_, hv⟩
  · rw [Satellite.uniqueName?, Entity.text?_eq, hoperands]
    rfl
  · rw [Entity.storedValues_eq, hoperands]
    rfl

/-- What a submission establishes of the unique names that it gives, from one state of the
supply to another. -/
structure Submission.Minted (schema : Schema) (s : Store) (before after : Supply)
    (sub : Submission) : Prop where
  node : sub.entry.subject.isNode = true
  set : sub.mutation.set =
    sub.entry.statements schema ++ Mutation.satelliteStatements schema sub.related
  /-- The entry is given at most one name. -/
  once : sub.entry.operands "unique_name" =
    (sub.entry.text? "unique_name").toList.map fun v => .literal (.text v)
  /-- The name of the entry is granted, or no other node has it. -/
  entry : ∀ v, sub.entry.text? "unique_name" = some v → s.Grants before after v ∨
    ∃ u, sub.entry.subject = .existing u ∧ ∀ w, v ∈ s.valuesAt w "unique_name" → w = u.text
  satellites : ∀ t, .new t ∈ sub.related → t.Granted s before after
  /-- No two new nodes are one. -/
  distinct : ∀ a b, .new a ∈ sub.related → .new b ∈ sub.related → a.node.name = b.node.name → a = b

/-- At most one name is given by a field that was read as a unique name. -/
theorem FieldsRead.once {t : TypeDef} {fields : Fields} (h : FieldsRead t fields)
    (hkind : ∀ p, t.predicate? "unique_name" = some p → p.kind = .uniqueName) (x : Subject) :
    Entity.operands ⟨x, fields⟩ "unique_name" =
      (Entity.text? ⟨x, fields⟩ "unique_name").toList.map fun v => .literal (.text v) := by
  rw [Entity.text?_eq]
  have hcases : Entity.operands ⟨x, fields⟩ "unique_name" = [] ∨
      ∃ v, Entity.operands ⟨x, fields⟩ "unique_name" = [.literal (.text v)] := by
    unfold Entity.operands
    cases hget : fields.get? "unique_name" with
    | none => exact .inl rfl
    | some objects =>
      obtain ⟨p, hp, hreads⟩ := h _ _ hget
      exact hreads.uniqueName (hkind p hp)
  rcases hcases with hcase | ⟨v, hcase⟩
  all_goals
    rw [hcase]
    rfl

section Submissions

variable {s : Store} {schema : Schema} {fixed : Option Json} {typeName : String} {form : Form}
  {c : Context} {before after : Desk} {sub : Submission}

/-- Under a schema that declares a unique name as such, so do all its types. -/
theorem kind_of_entryType (hschema : schema.WellFormed)
    (hname : (schema.predicate? "unique_name").map (·.kind) = some .uniqueName) {t : TypeDef}
    (ht : entryType (s.directory schema fixed) typeName = .ok t) {p : Predicate}
    (hp : t.predicate? "unique_name" = some p) : p.kind = .uniqueName := by
  obtain ⟨first, hfirst, hkind⟩ := Option.map_eq_some_iff.1 hname
  exact hschema.kind_of_uniqueName (hschema.get?_of_type? (entryType_ok ht)) hp hfirst hkind

/-- A unique name is no relationship, so the resolution of labels leaves it alone. -/
theorem LabelsResolved.uniqueName {t : TypeDef} {fields fields' : Fields}
    (h : LabelsResolved t fields fields')
    (hkind : ∀ p, t.predicate? "unique_name" = some p → p.kind = .uniqueName) :
    fields'.get? "unique_name" = fields.get? "unique_name" := by
  refine h.plain _ fun p hp => ?_
  rw [Predicate.isRelationship, Predicate.relationship?, hkind p hp]
  rfl

/-- The name of a new entry: the one it asks for, which is free, or a generated one. -/
theorem withUniqueName_once (hsound : s.Sound) {t : TypeDef} {e e' : Entity}
    (honce : e.operands "unique_name" =
      (e.text? "unique_name").toList.map fun v => .literal (.text v))
    (h : (withUniqueName (s.directory schema fixed) t e).Yields before e' after) :
    ∃ v, e'.operands "unique_name" = [.literal (.text v)] ∧
      s.Grants before.supply after.supply v := by
  unfold withUniqueName at h
  split at h
  · rename_i v hv
    obtain ⟨taken, mid, htaken, h⟩ := yields_bind.1 h
    obtain ⟨hfree, -⟩ := Store.isTaken_yields hsound htaken
    cases taken with
    | true => exact (not_yields_fail h).elim
    | false =>
      obtain ⟨rfl, rfl⟩ := yields_pure.1 h
      exact ⟨v, by rw [honce, hv]; rfl, .inl (hfree.1 rfl)⟩
  · simp only [yields_bind, yields_pure] at h
    obtain ⟨⟨v, e₁⟩, mid, hgenerate, rfl, rfl⟩ := h
    obtain ⟨hblank, hgrants⟩ := generateUniqueName_grants hsound hgenerate
    refine ⟨v, ?_, hgrants⟩
    rw [Entity.operands, Entity.set, Table.get?_insert_self, Operand.ofText, hblank.trim_eq]
    rfl

/-- The names that a new entry is submitted with are minted. -/
theorem newEntry_minted (hschema : schema.WellFormed)
    (hname : (schema.predicate? "unique_name").map (·.kind) = some .uniqueName)
    (hsound : s.Sound)
    (h : (newEntry (s.directory schema fixed) stubResolver typeName form c).Yields before sub
      after) : sub.Minted schema s before.supply after.supply := by
  obtain ⟨⟨node, hnode⟩, -, hset⟩ := newEntry_entry hschema h
  obtain ⟨run⟩ := newEntry_yields.1 h
  have hkind := fun p hp => kind_of_entryType (p := p) hschema hname run.isType hp
  obtain ⟨hfilled, -⟩ := run.filled_spec hschema
  obtain ⟨-, hlabels⟩ := resolveRelated_fields run.resolves
  obtain ⟨hnew, hdistinct⟩ := resolveRelated_new hfilled run.resolves
  have honce : run.resolved.operands "unique_name" =
      (run.resolved.text? "unique_name").toList.map fun v => .literal (.text v) := by
    have hsame : run.resolved.operands "unique_name" = run.filled.operands "unique_name" := by
      rw [Entity.operands, hlabels.uniqueName hkind, Entity.operands]
    rw [Entity.text?_eq, hsame, ← Entity.text?_eq]
    exact hfilled.once hkind run.filled.subject
  obtain ⟨v, hoperands, hgrants⟩ := withUniqueName_once hsound honce run.names
  -- the steps draw from one supply, one after another
  have hresolve : before.supply.Reaches run.afterDefaults.supply :=
    ((newStatus_draws _ _ _ _ _ _ run.hasStatus).trans
      (Form.read_draws _ _ _ _ _ _ _ run.reads)).trans
      ((Supply.reaches_next _).trans (applyDefaults_draws _ _ _ _ _ run.fills))
  have hnames := resolveRelated_draws _ _ _ _ _ _ _ _ run.resolves
  have hafter := withUniqueName_draws _ _ _ _ _ _ run.names
  have hentry : sub.entry.operands "unique_name" = [.literal (.text v)] := by
    rw [run.entry_eq, operands_withoutEmptyFields, Entity.operands,
      get?_withSystemFields (by decide)]
    exact hoperands
  have htext : sub.entry.text? "unique_name" = some v := by
    rw [Entity.text?_eq, hentry]
    rfl
  refine ⟨by rw [hnode]; rfl, hset, ?_, ?_, ?_, ?_⟩
  · rw [htext, hentry]
    rfl
  · intro v' hv'
    obtain rfl : v = v' := Option.some.inj (htext.symm.trans hv')
    exact .inl (hgrants.mono (hresolve.trans hnames) (.refl _))
  · intro t ht
    rw [run.result] at ht
    obtain ⟨w, hget, hw⟩ := (hnew t ht).2 hsound
    exact ⟨w, hget, hw.imp_right fun hdrawn => hdrawn.mono hresolve hafter⟩
  · rw [run.result]
    exact hdistinct

/-- The names that a change is submitted with are minted. -/
theorem editEntry_minted (hschema : schema.WellFormed)
    (hname : (schema.predicate? "unique_name").map (·.kind) = some .uniqueName)
    (hsound : s.Sound) (hunique : s.UniqueNames)
    (h : (editEntry (s.directory schema fixed) stubResolver typeName form c).Yields before sub
      after) : sub.Minted schema s before.supply after.supply := by
  obtain ⟨⟨u, hu, hsubject⟩, -, hset⟩ := editEntry_entry h
  obtain ⟨run⟩ := editEntry_yields.1 h
  obtain rfl : run.uid = u := Except.ok.inj (run.hasUid.symm.trans hu)
  have hkind := fun p hp => kind_of_entryType (p := p) hschema hname run.isType hp
  have hfields := Form.read_fieldsRead run.reads
  obtain ⟨-, hlabels⟩ := resolveRelated_fields run.resolves
  obtain ⟨hnew, hdistinct⟩ := resolveRelated_new hfields run.resolves
  have hresolve : before.supply.Reaches run.afterCheck.supply :=
    ((existingEntry_draws _ _ _ _ _ run.isEntry).trans
      (editStatus_draws _ _ _ _ _ _ _ run.hasStatus)).trans
      ((Form.read_draws _ _ _ _ _ _ _ run.reads).trans
        (checkUniqueName_draws _ _ _ _ _ _ run.isFree))
  have hentry : sub.entry.operands "unique_name" =
      Entity.operands ⟨.existing run.uid, run.fields⟩ "unique_name" := by
    rw [run.entry_eq]
    simp only [changed]
    rw [operands_withoutEmptyFields, Entity.operands, get?_withEditHistory (by decide),
      hlabels.uniqueName hkind, Entity.operands]
  have htext : sub.entry.text? "unique_name" =
      Entity.text? ⟨.existing run.uid, run.fields⟩ "unique_name" := by
    rw [Entity.text?_eq, hentry, ← Entity.text?_eq]
  refine ⟨by rw [hsubject]; rfl, hset, ?_, ?_, ?_, ?_⟩
  · rw [htext, hentry]
    exact hfields.once hkind _
  · intro v hv
    rw [htext] at hv
    exact .inr ⟨run.uid, hsubject, fun w hw =>
      checkUniqueName_yields hsound hunique run.isFree hv hw⟩
  · intro t ht
    rw [run.result] at ht
    obtain ⟨w, hget, hw⟩ := (hnew t ht).2 hsound
    exact ⟨w, hget, hw.imp_right fun hdrawn => hdrawn.mono hresolve (.refl _)⟩
  · rw [run.result]
    exact hdistinct

/-- The names that a submission gives are minted. -/
theorem submission_minted (hschema : schema.WellFormed)
    (hname : (schema.predicate? "unique_name").map (·.kind) = some .uniqueName)
    (hsound : s.Sound) (hunique : s.UniqueNames)
    (h : (newEntry (s.directory schema fixed) stubResolver typeName form c).Yields before sub after ∨
      (editEntry (s.directory schema fixed) stubResolver typeName form c).Yields before sub after) :
    sub.Minted schema s before.supply after.supply := by
  rcases h with hnew | hedit
  · exact newEntry_minted hschema hname hsound hnew
  · exact editEntry_minted hschema hname hsound hunique hedit

end Submissions

end PressRegister
