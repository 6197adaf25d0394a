import PressRegister.Proofs.Mutation.Prelude
import PressRegister.Proofs.Workspace.Reviewer

/-!
# What changes overwrite

A change clears the fields of its form that are overwritten or left without a value, each once, and
the reviewer if it decides. So nothing is cleared twice unless the form sets the reviewer too, and
the variables of the mutation are told apart.

## Main definitions

* `Form.SetsReviewer`: a form sets the reviewer, where its type lets users do so.

## Main results

* `EditRun.distinct_overwrites`: a change clears every field once, or its form sets the reviewer.
* `Schema.KeepsReviewer.not_setsReviewer`: forms do not set it in a schema that keeps it.
* `Mutation.compile_wellBound`: compiled mutations bind every variable once and use it once.
-/

namespace PressRegister

open Consult Store

/-- A form sets the reviewer of an entry, whose type lets users do so. -/
def Form.SetsReviewer (schema : Schema) (typeName : String) (form : Form) : Prop :=
  ∃ t p raw, schema.type? typeName = some t ∧ t.predicate? "reviewed_by" = some p ∧
    p.readOnly = false ∧ form.get? "reviewed_by" = some raw

theorem Schema.KeepsReviewer.not_setsReviewer {schema : Schema} (h : schema.KeepsReviewer)
    (typeName : String) (form : Form) : ¬ form.SetsReviewer schema typeName := by
  rintro ⟨t, p, raw, ht, hp, hopen, -⟩
  rw [h.closed ht hp] at hopen
  cases hopen

/-- The fields that a change clears are some of the fields of its entry. -/
theorem nodup_clearedFields (t : TypeDef) (e : Entity) : (clearedFields t e).Nodup := by
  have hsublist : (clearedFields t e).Sublist e.fields.keys :=
    (List.filter_sublist (l := e.fields.entries)).map _
  exact e.fields.nodup_keys.sublist hsublist

theorem nodup_withEditHistory (c : Context) (current status : ReviewStatus) (e : Entity) :
    (withEditHistory c current status e).2.Nodup := by
  unfold withEditHistory
  simp only
  split
  · exact List.nodup_nil
  · split
    · exact List.nodup_singleton _
    · exact List.nodup_nil

section Changes

variable {types : List EntityType} {s : Store} {schema : Schema} {fixed : Option Json}
  {r : Resolver} {typeName : String} {form : Form} {c : Context} {before after : Desk}
  {sub : Submission}

/-- What a change holds of the reviewer is what its form sets. -/
theorem EditRun.setsReviewer
    (run : EditRun (s.directory schema fixed) r typeName form c before after sub)
    {objects : List Object} (h : run.fields.get? "reviewed_by" = some objects) :
    form.SetsReviewer schema typeName := by
  obtain ⟨p, hp, hopen, raw, hsets, -⟩ := run.given _ _ h
  have hname : p.name = "reviewed_by" := by simpa using List.find?_some hp
  cases hsets with
  | said hmem =>
    have hget := Table.get?_eq_some_iff.2 (List.mem_filter.1 hmem).1
    rw [hname] at hget
    exact ⟨run.type, p, raw, entryType_ok run.isType, hp, hopen, hget⟩
  | default hnew _ _ _ _ => cases hnew

/-- A change clears every field once, if its form does not set the reviewer. -/
theorem EditRun.distinct_overwrites
    (run : EditRun (s.directory schema fixed) r typeName form c before after sub)
    (hform : ¬ form.SetsReviewer schema typeName) : sub.overwrites.Distinct := by
  have hunset : run.fields.get? "reviewed_by" = none :=
    Option.eq_none_iff_forall_ne_some.2 fun _ h => hform (run.setsReviewer h)
  have hresolved : run.resolved.fields.get? "reviewed_by" = none :=
    resolveRelated_unset run.resolves hunset
  have hoverwrites : sub.overwrites = overwritesOf run.uid
      (changed c run.type (run.info.status.getD .pending) run.status run.resolved).2 :=
    congrArg Submission.overwrites run.result
  have hnodup : (changed c run.type (run.info.status.getD .pending) run.status
      run.resolved).2.Nodup := by
    refine List.nodup_append.2 ⟨nodup_clearedFields _ _, nodup_withEditHistory _ _ _ _, ?_⟩
    rintro name hcleared _ hsystem rfl
    rw [eq_of_mem_withEditHistory hsystem] at hcleared
    exact not_mem_clearedFields hresolved hcleared
  rw [hoverwrites, overwritesOf]
  split
  · exact ⟨List.nodup_nil, List.forall_mem_nil _⟩
  · exact ⟨List.nodup_singleton _, List.forall_mem_singleton.2 hnodup⟩

end Changes

/-- In a schema that was built, every variable of a compiled mutation is bound once and used once,
if every predicate of a node is cleared once. So it is in every change whose form does not set the
reviewer, and in a schema that keeps the reviewer no form does. -/
theorem Mutation.compile_wellBound {types : List EntityType} {schema : Schema}
    (hbuild : Schema.build types = .ok schema) :
    (∀ (overwrites : Overwrites) (e : Entity) (related : List Related) (m : Mutation),
      overwrites.Distinct → e.IsGround → (∀ x, .new x ∈ related → x.fields.IsGround) →
        compile schema e overwrites related = .ok m → m.WellBound) ∧
    (∀ (s : Store) (fixed : Option Json) (r : Resolver) (typeName : String)
      (form : Form) (c : Context) (before after : Desk) (sub : Submission),
        (editEntry (s.directory schema fixed) r typeName form c).Yields before sub after →
          sub.overwrites.Distinct ∨ form.SetsReviewer schema typeName) ∧
    (schema.KeepsReviewer →
      ∀ (typeName : String) (form : Form), ¬ form.SetsReviewer schema typeName) := by
  refine ⟨fun overwrites e related m hdistinct he hrelated h =>
    wellBound_of_compile hbuild hdistinct he hrelated h, ?_,
    fun hreviewer => hreviewer.not_setsReviewer⟩
  intro s fixed r typeName form c before after sub hsub
  obtain ⟨run⟩ := editEntry_yields.1 hsub
  by_cases hform : form.SetsReviewer schema typeName
  · exact .inr hform
  · exact .inl (run.distinct_overwrites hform)

/-! ### Sources that lose their edges -/

/-- Two sources lose their siblings, and one of them loses its organizations and its name. -/
def sourceOverwrites : Mutation.Overwrites :=
  [(Uid.ofNat 0x100, ["name", "sibling_sources", "publishes_org"]),
    (Uid.ofNat 0x101, ["sibling_sources"])]

/-- The first of the sources with another name. -/
def renamedSource : Entity :=
  ⟨.existing (Uid.ofNat 0x100), Table.empty.insert "name" [.plain (.ofText "Main")]⟩

theorem exists_compile_sources : ∃ m,
    Mutation.compile Inventory.schema renamedSource sourceOverwrites [] = .ok m ∧
      m.prelude.map (·.name) = ["mut_0x100_sibling_sources", "rev_0x100_publishes_org",
        "mut_0x101_sibling_sources"] := by
  have h : (((Mutation.compile Inventory.schema renamedSource sourceOverwrites []).toOption.any
      fun m => m.prelude.map (·.name) == ["mut_0x100_sibling_sources", "rev_0x100_publishes_org",
        "mut_0x101_sibling_sources"])) = true := by
    rewrite [Inventory.schema_eq]
    decide +kernel
  obtain ⟨m, hm, hnames⟩ := (Option.any_eq_true _ _).1 h
  exact ⟨m, toOption_eq_some.1 hm, beq_iff_eq.1 hnames⟩

/-- A store with a file format that is to be reviewed. -/
def formatStore : Store :=
  (Store.empty.addNode ["FileFormat", "Entry"]
    [("name", "CSV"), ("mime_type", "text/plain"), (ReviewStatus.predicateName, "pending")]).2

/-- The form by which the file format loses its MIME type. -/
def formatForm : Form :=
  (Table.empty.insert "uid" (.string "0x100")).insert "mime_type" .null

/-- The context of an administrator who accepts what is changed. -/
def formatContext : Context := ⟨Uid.ofNat 0x1, .admin, "", ⟨0, 0⟩, true⟩

theorem exists_edit_format : ∃ sub after,
    (editEntry (formatStore.directory Inventory.schema none) stubResolver "FileFormat" formatForm
      formatContext).Yields Desk.clean sub after ∧
    sub.overwrites = [(Uid.ofNat 0x100, ["mime_type", "reviewed_by"])] := by
  have h : ((editEntry (formatStore.directory Inventory.schema none) stubResolver "FileFormat"
      formatForm formatContext).outcome Desk.clean).1.toOption.any (fun sub =>
        sub.overwrites == [(Uid.ofNat 0x100, ["mime_type", "reviewed_by"])]) = true := by
    rewrite [Inventory.schema_eq, Store.directory_eq]
    decide +kernel
  obtain ⟨sub, after, hsub, hoverwrites⟩ := exists_yields h
  exact ⟨sub, after, hsub, beq_iff_eq.1 hoverwrites⟩

/-- The three edges that the sources lose are bound by a variable each. -/
theorem Mutation.compile_wellBound_sources :
    Schema.build Inventory.entityTypes = .ok Inventory.schema ∧
    sourceOverwrites.Distinct ∧ renamedSource.IsGround ∧
    (∃ m, compile Inventory.schema renamedSource sourceOverwrites [] = .ok m ∧
      m.prelude.map (·.name) = ["mut_0x100_sibling_sources", "rev_0x100_publishes_org",
        "mut_0x101_sibling_sources"] ∧ m.WellBound) ∧
    Inventory.schema.KeepsReviewer ∧ ∃ sub after,
      (editEntry (formatStore.directory Inventory.schema none) stubResolver "FileFormat" formatForm
        formatContext).Yields Desk.clean sub after ∧
      sub.overwrites = [(Uid.ofNat 0x100, ["mime_type", "reviewed_by"])] ∧
      sub.overwrites.Distinct := by
  obtain ⟨m, hm, hnames⟩ := exists_compile_sources
  obtain ⟨sub, after, hsub, hoverwrites⟩ := exists_edit_format
  have hdistinct : sourceOverwrites.Distinct := ⟨by decide, by decide⟩
  have hground : renamedSource.IsGround := by
    refine ⟨rfl, fun name values hvalues o ho => ?_⟩
    rw [renamedSource, Table.get?_insert] at hvalues
    split at hvalues
    · cases hvalues
      rw [List.mem_singleton.1 ho]
      rfl
    · cases hvalues
  have hbound := compile_wellBound Inventory.build_entityTypes
  exact ⟨Inventory.build_entityTypes, hdistinct, hground,
    ⟨m, hm, hnames, hbound.1 _ _ _ _ hdistinct hground (fun _ hx => (List.not_mem_nil hx).elim) hm⟩,
    Workspace.keepsReviewer_inventory, sub, after, hsub, hoverwrites,
    (hbound.2.1 _ _ _ _ _ _ _ _ _ hsub).resolve_right
      (hbound.2.2 Workspace.keepsReviewer_inventory _ _)⟩

end PressRegister
