import PressRegister.Proofs.Inventory.Registry
import PressRegister.Proofs.Store.Lookup
import PressRegister.Proofs.Submission.Steps

/-!
# Permissions of types

A new entry is only added by a role that its type allows. A change is checked
against the type that the caller names, which may be any of the stored types of the
entry: the permissions of its other types hold exactly if none of them asks for more
than every one of them lets through.

## Main definitions

* `bareForm`: the form that names an entry and sets nothing.
* `lowestEditor`: the lowest role that may change an entry as one of a type.

## Main results

* `editEntry_bareForm`: whoever passes the checks can change an entry.
* `type_permissions_iff`: when the permissions of all stored types hold.
-/

namespace PressRegister

open Consult

/-- The form that names an entry and sets nothing. -/
def bareForm (u : Uid) : Form :=
  Table.empty.insert "uid" (.string u.text)

/-- The lowest role that may change an entry as one of a type. -/
def lowestEditor (t : TypeDef) (info : EntryInfo) : Role :=
  let floor := if info.submitter.isSome then Role.contributor else .reviewer
  if t.permissionEdit ≤ floor then floor else t.permissionEdit

theorem lowestEditor_le {t : TypeDef} {info : EntryInfo} {role : Role} :
    lowestEditor t info ≤ role ↔ t.permissionEdit ≤ role ∧
      (if info.submitter.isSome then Role.contributor else .reviewer) ≤ role := by
  unfold lowestEditor
  have htrans : ∀ {a b c : Role}, a ≤ b → b ≤ c → a ≤ c := fun hab hbc => Nat.le_trans hab hbc
  have htotal : ∀ {a b : Role}, ¬ a ≤ b → b ≤ a := fun h => Nat.le_of_not_le h
  generalize (if info.submitter.isSome then Role.contributor else .reviewer) = floor
  by_cases h : t.permissionEdit ≤ floor
  · simp only [h, if_true]
    exact ⟨fun hfloor => ⟨htrans h hfloor, hfloor⟩, fun hboth => hboth.2⟩
  · simp only [h, if_false]
    exact ⟨fun hedit => ⟨hedit, htrans (htotal h) hedit⟩, fun hboth => hboth.1⟩

variable {d : Directory} {r : Resolver} {c : Context} {before mid : Desk} {u : Uid}
  {info : EntryInfo} {t : TypeDef}

theorem uid_bareForm (u : Uid) : (bareForm u).uid = .ok u := by
  have hget : (bareForm u).get? "uid" = some (.string u.text) := Table.get?_insert_self _ _ _
  simp [Form.uid, hget, Json.string?, Uid.parse?_text]

theorem requestedStatus_bareForm (t : TypeDef) (u : Uid) (before : Desk) :
    ((bareForm u).requestedStatus t).Yields before none before := by
  have hget : (bareForm u).get? ReviewStatus.predicateName = none := by
    rw [bareForm, Table.get?_insert]
    rfl
  unfold Form.requestedStatus
  rw [hget]
  exact yields_pure.2 ⟨rfl, rfl⟩

theorem read_bareForm (t : TypeDef) (u : Uid) (writable : Predicate → Bool) (before : Desk) :
    ((bareForm u).read t ["uid"] writable).Yields before .empty before := by
  have hkeys : (bareForm u).settingKeys ["uid"] = [] := rfl
  unfold Form.read
  rw [hkeys]
  simp [Form.readFields, Form.applyFacets]

theorem editStatus_bareForm {current : ReviewStatus} (hrole : .contributor ≤ c.role)
    (haccept : c.accept = false) (before : Desk) :
    (editStatus t (bareForm u) c current).Yields before current before := by
  have hneeded : ReviewStatus.requiredRole current current = .contributor := by
    cases current <;> rfl
  have htransition : ReviewStatus.transition current current c.role = .ok current := by
    simp [ReviewStatus.transition, hneeded, hrole]
  simp only [editStatus, haccept, Bool.false_eq_true, if_false, yields_bind, yields_map,
    yields_settle]
  exact ⟨current, before, ⟨none, requestedStatus_bareForm t u before, rfl⟩, htransition, rfl⟩

/-- Whoever passes the checks on an entry can change it. -/
theorem editEntry_bareForm (hinfo : (Lookup.entryInfo d u).Yields before (some info) mid)
    (ht : d.schema.type? t.name = some t) (hcheck : checkEdit c t info u = .ok ())
    (haccept : c.accept = false) :
    ∃ sub, (editEntry d r t.name (bareForm u) c).Yields before sub mid := by
  obtain ⟨-, -, hmay⟩ := checkEdit_ok.1 hcheck
  have hrole : .contributor ≤ c.role := by
    rcases hmay with h | ⟨-, h⟩
    · exact Nat.le_trans (by decide) h
    · exact h
  have htype : entryType d t.name = .ok t := by
    simp [entryType, ht]
  have hcleared : overwritesOf u (changed c t (info.status.getD .pending)
      (info.status.getD .pending) ⟨.existing u, .empty⟩).2 = [] := by
    simp [overwritesOf, changed, withEditHistory, clearedFields, Table.empty]
  obtain ⟨m, hm⟩ : ∃ m, Mutation.compile d.schema (changed c t (info.status.getD .pending)
      (info.status.getD .pending) ⟨.existing u, .empty⟩).1 [] [] = .ok m := ⟨_, rfl⟩
  refine ⟨_, editEntry_yields.2 ⟨⟨u, info, t, info.status.getD .pending, .empty,
    ⟨.existing u, .empty⟩, [], m, mid, mid, mid, mid, uid_bareForm u,
    existingEntry_yields.2 hinfo, htype, hcheck, editStatus_bareForm hrole haccept mid,
    read_bareForm t u _ mid, ?_, ?_, by rw [hcleared, hm], rfl⟩⟩⟩
  · simp [checkUniqueName, Entity.text?, Entity.first?, Entity.get?]
  · simp [resolveRelated, resolveFields, inheritSiblings, Table.empty, Table.values, Table.map]

/-- A new entry is of a type that the role may add. -/
theorem newEntry_permitted {typeName : String} {form : Form} {after : Desk} {sub : Submission}
    (hschema : d.schema.WellFormed)
    (h : (newEntry d r typeName form c).Yields before sub after) :
    ∃ t, d.schema.types.get? sub.typeName = some t ∧ t.permissionNew ≤ c.role := by
  obtain ⟨run⟩ := newEntry_yields.1 h
  rw [run.result]
  exact ⟨run.type, hschema.get?_of_type? (entryType_ok run.isType), checkRole_ok.1 run.mayAdd⟩

/-- A change is made as one of the stored types, by a role that can change entries of it. -/
theorem editEntry_permitted {typeName : String} {form : Form} {after : Desk} {sub : Submission}
    (hschema : d.schema.WellFormed) (hu : form.uid = .ok u)
    (h : (editEntry d r typeName form c).Yields before sub after) :
    ∃ t info mid, d.schema.types.get? t.name = some t ∧
      (Lookup.entryInfo d u).Yields before (some info) mid ∧ t.name ∈ info.types ∧
      lowestEditor t info ≤ c.role := by
  obtain ⟨run⟩ := editEntry_yields.1 h
  obtain rfl : run.uid = u := Except.ok.inj (run.hasUid.symm.trans hu)
  obtain ⟨htype, hedit, hmay⟩ := checkEdit_ok.1 run.mayEdit
  refine ⟨run.type, run.info, run.afterInfo, hschema.get?_of_type? (entryType_ok run.isType),
    existingEntry_yields.1 run.isEntry, htype, lowestEditor_le.2 ⟨hedit, ?_⟩⟩
  rcases hmay with hreviewer | ⟨howner, hcontributor⟩
  · split
    · exact Nat.le_trans (by decide) hreviewer
    · exact hreviewer
  · simp [howner, hcontributor]

/-- The permissions of types: a new entry is only added by a role that its type allows. A
change by whichever role and under whichever name is allowed by all stored types of the entry
exactly if none of them asks for a higher role than can change the entry as any other. -/
theorem type_permissions_iff {types : List EntityType} {schema : Schema}
    (hbuild : Schema.build types = .ok schema) (s : Store) (fixed : Option Json) (r : Resolver) :
    (∀ typeName form c before sub after,
      (newEntry (s.directory schema fixed) r typeName form c).Yields before sub after →
        ∃ t, schema.types.get? sub.typeName = some t ∧ t.permissionNew ≤ c.role) ∧
    ∀ (u : Uid) n info before mid, s.node? u.text = some n →
      n.fields.get? Search.typeKey = none →
      (Lookup.entryInfo (s.directory schema fixed) u).Yields before (some info) mid →
      ((∀ typeName form c sub after, form.uid = .ok u →
        (editEntry (s.directory schema fixed) r typeName form c).Yields before sub after →
          ∀ t ∈ schema.registered n.types, t.permissionEdit ≤ c.role) ↔
        ∀ t ∈ schema.registered n.types, ∀ t' ∈ schema.registered n.types,
          t'.permissionEdit ≤ lowestEditor t info) := by
  have hschema := Schema.wellFormed_of_build hbuild
  refine ⟨fun typeName form c before sub after h => newEntry_permitted hschema h, ?_⟩
  intro u n info before mid hn hkey hinfo
  obtain ⟨n', hn', htypes⟩ := Store.entryInfo_yields hinfo
  obtain rfl : n' = n := Option.some.inj (hn'.symm.trans hn)
  have htypes := htypes hkey
  constructor
  · intro hall t ht t' ht'
    obtain ⟨hname, hget⟩ := hschema.mem_registered.1 ht
    -- the lowest role that can change the entry does so, as its submitter if it has one
    let c : Context := ⟨info.submitter.getD u, lowestEditor t info, "", ⟨0, 0⟩, false⟩
    obtain ⟨hedit, hfloor⟩ := lowestEditor_le.1 (Nat.le_refl (lowestEditor t info).rank)
    have hcheck : checkEdit c t info u = .ok () := by
      refine checkEdit_ok.2 ⟨htypes ▸ hname, hedit, ?_⟩
      cases hsubmitter : info.submitter with
      | none =>
        rw [hsubmitter] at hfloor
        exact .inl hfloor
      | some user =>
        have hfloor' := hfloor
        rw [hsubmitter] at hfloor'
        exact .inr ⟨by simp [c, hsubmitter], hfloor'⟩
    obtain ⟨sub, hsub⟩ := editEntry_bareForm (r := r) hinfo (Schema.type?_of_get? hget) hcheck rfl
    exact hall t.name (bareForm u) c sub mid (uid_bareForm u) hsub t' ht'
  · intro hall typeName form c sub after hu h t' ht'
    obtain ⟨t, info', mid', hget, hinfo', htype, hlowest⟩ := editEntry_permitted hschema hu h
    obtain rfl : info' = info := Option.some.inj (hinfo'.unique hinfo).1
    have ht : t ∈ schema.registered n'.types :=
      hschema.mem_registered.2 ⟨htypes ▸ htype, hget⟩
    exact Nat.le_trans (hall t ht t' ht') hlowest

/-! ### A channel -/

/-- A store with one channel, which only administrators may change. -/
def oneChannel : Store :=
  (Store.empty.addEntry "Channel" "instagram" none).2

/-- The identifier of the channel. -/
def channelUid : Uid := Uid.ofNat 0x100

/-- What can be known of the store with one channel. -/
def channelDirectory : Directory :=
  oneChannel.directory Inventory.schema none

theorem exists_channel : ∃ n info after, oneChannel.node? channelUid.text = some n ∧
    n.fields.get? Search.typeKey = none ∧ n.types = ["Channel", "Entry"] ∧
    (Lookup.entryInfo channelDirectory channelUid).Yields Desk.clean (some info) after := by
  have hnode : (oneChannel.node? channelUid.text).any (fun n =>
      (n.fields.get? Search.typeKey).isNone && n.types == ["Channel", "Entry"]) = true := by
    decide +kernel
  have hinfo : (((Lookup.entryInfo channelDirectory channelUid).outcome
      Desk.clean).1.toOption.any Option.isSome) = true := by
    rewrite [channelDirectory, Inventory.schema_eq, Store.directory_eq]
    decide +kernel
  simp only [Option.any_eq_true, Bool.and_eq_true, Option.isNone_iff_eq_none, beq_iff_eq] at hnode
  obtain ⟨n, hn, hkey, htypes⟩ := hnode
  obtain ⟨found, after, hyields, hfound⟩ := Consult.exists_yields hinfo
  obtain ⟨info, rfl⟩ := Option.isSome_iff_exists.1 hfound
  exact ⟨n, info, after, hn, hkey, htypes, hyields⟩

/-- The permissions of the types of the channel hold exactly under the condition on them. -/
theorem type_permissions_iff_channel :
    ∃ n info mid, oneChannel.node? channelUid.text = some n ∧
      n.fields.get? Search.typeKey = none ∧
      (Lookup.entryInfo channelDirectory channelUid).Yields Desk.clean (some info) mid ∧
      ((∀ typeName form c sub after, form.uid = .ok channelUid →
        (editEntry channelDirectory stubResolver typeName form c).Yields Desk.clean sub after →
          ∀ t ∈ Inventory.schema.registered n.types, t.permissionEdit ≤ c.role) ↔
        ∀ t ∈ Inventory.schema.registered n.types, ∀ t' ∈ Inventory.schema.registered n.types,
          t'.permissionEdit ≤ lowestEditor t info) := by
  obtain ⟨n, info, mid, hn, hkey, -, hinfo⟩ := exists_channel
  exact ⟨n, info, mid, hn, hkey, hinfo, (type_permissions_iff Inventory.build_entityTypes
    oneChannel none stubResolver).2 channelUid n info Desk.clean mid hn hkey hinfo⟩

/-- A reviewer who names the channel as an entry can change it. -/
theorem channel_changed_by_reviewer :
    ¬ ∀ types schema, Schema.build types = .ok schema → ∀ (s : Store) fixed (r : Resolver)
      typeName form c before sub after (u : Uid) n, form.uid = .ok u →
      s.node? u.text = some n →
      (editEntry (s.directory schema fixed) r typeName form c).Yields before sub after →
        ∀ t ∈ schema.registered n.types, t.permissionEdit ≤ c.role := by
  intro hall
  obtain ⟨n, info, mid, hn, hkey, htypes, hinfo⟩ := exists_channel
  obtain ⟨n', hn', hstored⟩ := Store.entryInfo_yields hinfo
  obtain rfl : n' = n := Option.some.inj (hn'.symm.trans hn)
  have hedit : ((Inventory.schema.types.get? "Entry").any
      (fun t => t.name == "Entry" && t.permissionEdit == .contributor) &&
      (Inventory.schema.types.get? "Channel").any
        (fun t => t.name == "Channel" && t.permissionEdit == .admin)) = true := by
    decide +kernel
  simp only [Bool.and_eq_true, Option.any_eq_true, beq_iff_eq] at hedit
  obtain ⟨⟨entry, hentry, hentryName, hentryEdit⟩, channel, hchannel, hchannelName,
    hchannelEdit⟩ := hedit
  let c : Context := ⟨channelUid, .reviewer, "", ⟨0, 0⟩, false⟩
  have hcheck : checkEdit c entry info channelUid = .ok () := by
    refine checkEdit_ok.2 ⟨?_, ?_, .inl (Nat.le_refl _)⟩
    · rw [hstored hkey, htypes, hentryName]
      simp
    · rw [hentryEdit]
      exact (by decide : Role.contributor ≤ .reviewer)
  have htype : Inventory.schema.type? entry.name = some entry :=
    Schema.type?_of_get? (hentryName ▸ hentry)
  obtain ⟨sub, hsub⟩ := editEntry_bareForm (r := stubResolver) hinfo htype hcheck rfl
  have hregistered : channel ∈ Inventory.schema.registered n'.types := by
    refine Inventory.wellFormed.mem_registered.2 ⟨?_, hchannelName ▸ hchannel⟩
    rw [htypes, hchannelName]
    simp
  have hbelow : (Role.admin : Role) ≤ .reviewer := by
    rw [← hchannelEdit]
    exact hall _ _ Inventory.build_entityTypes _ none stubResolver _ _ _ _ _ _ _ _
      (uid_bareForm channelUid) hn hsub channel hregistered
  exact absurd hbelow (by decide)

end PressRegister
