import PressRegister.Proofs.Schema.Consistency
import PressRegister.Proofs.Submission.Changes
import PressRegister.Proofs.Workspace.Review

/-!
# Edges to a changed entry

A field that points back is stored as edges from other nodes to the entry. A change that overwrites
the field takes these edges before it sets the new ones, and it takes them from the nodes of the
types that the field leads to. Several types may declare a field of one name, each with types of
its own, and the change goes by the declaration that was registered first. An edge from a node of
the types that the type of the entry declares can stay, then, although the field no longer has the
node for a value.

## Main definitions

* `EditRun.Takes`: a change takes a value from a node, if it is there.
* `Submission.CleansUp`: the edge of a node to the entry is as the field says.

## Main results

* `EditRun.struck_iff`: what the deletions of a change take.
* `EditRun.mem_told_of_back`: a change tells its values of the entry.
* `edge_iff_value_iff`: when a node has an edge to the entry exactly if it is a value.
* `Submission.cleansUp_iff`: where all declarations agree, only other parts of a submission
  interfere.
* `edge_of_film`: an edge that stays.
-/

namespace PressRegister

open Consult Store

/-- The values after others are set: those that are set, and the old ones of a list, or of a single
value that nothing is set in place of. -/
theorem mem_setValues_iff {isList : Bool} {old vs : List String} {v : String} :
    v ∈ setValues isList old vs ↔
      v ∈ setValues isList [] vs ∨ v ∈ old ∧ (isList = true ∨ vs = []) := by
  cases isList with
  | true => simp [mem_setValues_true, or_comm]
  | false =>
    rw [setValues_false, setValues_false]
    cases hlast : vs.getLast? with
    | none => simp [List.getLast?_eq_none_iff.1 hlast]
    | some x =>
      have hne : vs ≠ [] := fun heq => by simp [heq] at hlast
      simp [hne]

/-- A field that is stored at its values tells the node itself there. -/
theorem Entity.mem_told_of_back {schema : Schema} {e : Entity} {uids : NewUids} {name v w : String}
    {p : Predicate} (hdir : schema.direction? name = p.direction?) (hback : p.pointsBack = true)
    {o : Object} (ho : o ∈ e.values name) (hnode : o.value.isNode = true)
    (hw : o.value.stored? uids = some w) (hv : e.subject.stored? uids = some v) :
    v ∈ told uids w (schema.edge name) (e.statements schema) := by
  obtain ⟨other, hother, -, hstored⟩ := Operand.exists_subject?_of_isNode hnode uids
  have hstated : ⟨other, schema.edge name, ⟨e.subject.operand, o.facets⟩⟩ ∈
      valueStatements e.subject name (schema.direction? name) o := by
    unfold Schema.edge valueStatements
    rcases Predicate.direction?_of_pointsBack hback with ⟨edge, hreverse⟩ | hmutual
    · simp [hdir, hreverse, hother]
    · simp [hdir, hmutual, hother]
  cases hget : e.fields.get? name with
  | none => simp [Entity.values, hget] at ho
  | some values =>
    rw [Entity.values, hget] at ho
    refine mem_told.2 ⟨_, mem_statements.2 ⟨name, values, hget, o, ho, hstated⟩, rfl, ?_, ?_⟩
    · exact hstored.symm.trans hw
    · exact (Subject.stored?_operand _ _).trans hv

/-! ### Single changes -/

/-- Apart from the status, what the system gives a changed entry is the user. -/
theorem mem_values_withEditHistory {c : Context} {current status : ReviewStatus} {e : Entity}
    {name : String} (hname : name ≠ ReviewStatus.predicateName) {o : Object}
    (h : o ∈ (withEditHistory c current status e).1.values name) :
    o ∈ e.values name ∨ o = c.userEdge := by
  have hpush (h : o ∈ (e.push "entry_edit_history" c.userEdge).values name) :
      o ∈ e.values name ∨ o = c.userEdge := by
    rw [Entity.push, Entity.values_set] at h
    split at h
    · rename_i hhistory
      rw [hhistory]
      exact (List.mem_append.1 h).imp_right List.mem_singleton.1
    · exact .inl h
  unfold withEditHistory at h
  simp only at h
  split at h
  · exact hpush h
  split at h
  · rw [Entity.values_set, Entity.values_set, if_neg hname] at h
    split at h
    · exact .inr (List.mem_singleton.1 h)
    · exact hpush h
  · rw [Entity.values_set, if_neg hname] at h
    exact hpush h

/-- The edge of a node to the entry `u` is as a field says after a submission. -/
structure Submission.CleansUp (schema : Schema) (s : Store) (sub : Submission) (u : Uid)
    (p : Predicate) (w : String) : Prop where
  /-- What the submission says of the node under the edge is what the field says. In a list all
  that is said stays; of a single value the last that is said. -/
  said : u.text ∈ setValues (isList schema p.edge) []
      (told (commit schema s sub.mutation).2 w p.edge sub.mutation.set) ↔
    w ∈ sub.entry.storedValues (commit schema s sub.mutation).2 p.name
  /-- An old edge that the field does not ask for is taken: the node is of the types that the
  first declaration of the field leads to, or is the entry, of which a mutual field takes all
  values, or the edge is taken for another field. Else something is said in place of it. -/
  taken : u.text ∈ s.valuesAt w p.edge →
    w ∉ sub.entry.storedValues (commit schema s sub.mutation).2 p.name →
    (isList schema p.edge = true ∨
      told (commit schema s sub.mutation).2 w p.edge sub.mutation.set = []) →
    (∃ first, schema.predicate? p.name = some first ∧ s.Carries (Mutation.owners first) w) ∨
      (p.direction? = some .mutual ∧ w = u.text) ∨
      ∃ name ∈ sub.cleared, name ≠ p.name ∧ ∃ first, schema.predicate? name = some first ∧
        Mutation.Clears s u name first w p.edge u.text

/-- Where the first declaration of a field leads to the types of the one at hand, a node of these
types is cleaned up, unless another part of the submission says something else of the edge. -/
theorem Submission.cleansUp_iff {schema : Schema} {s : Store} {sub : Submission} {u : Uid}
    {p : Predicate} {w : String}
    (howners : (schema.predicate? p.name).map Mutation.owners = some (Mutation.owners p))
    (hw : s.Carries (Mutation.owners p) w) : sub.CleansUp schema s u p w ↔
      (u.text ∈ setValues (isList schema p.edge) []
          (told (commit schema s sub.mutation).2 w p.edge sub.mutation.set) ↔
        w ∈ sub.entry.storedValues (commit schema s sub.mutation).2 p.name) := by
  refine ⟨CleansUp.said, fun hsaid => ⟨hsaid, fun _ _ _ => .inl ?_⟩⟩
  obtain ⟨first, hfirst, heq⟩ := Option.map_eq_some_iff.1 howners
  exact ⟨first, hfirst, heq ▸ hw⟩

namespace EditRun

variable {types : List EntityType} {s : Store} {schema : Schema} {fixed : Option Json}
  {r : Resolver} {typeName : String} {form : Form} {c : Context} {before after : Desk}
  {sub : Submission} {w q v : String} {p : Predicate} {raw : Json}
  (run : EditRun (s.directory schema fixed) r typeName form c before after sub)

/-- A change takes a value of a predicate from a node, if it is there. -/
def Takes (w q v : String) : Prop :=
  ∃ name ∈ sub.cleared, ∃ p, schema.predicate? name = some p ∧
    Mutation.Clears s run.uid name p w q v

include run

theorem struck_iff (hv : v ∈ s.valuesAt w q) :
    struck (s.bind sub.mutation.prelude) sub.mutation.delete w q v = true ↔ run.Takes w q v := by
  obtain ⟨u, m, hsubject, hm, hprelude, hdelete⟩ := run.written.deletes
  rw [hprelude, hdelete, Mutation.struck_clearings hm hv]
  refine exists_congr fun name => and_congr_right fun hname => ?_
  have hu := (hsubject (List.ne_nil_of_mem hname)).symm.trans run.subject_eq
  rw [Subject.existing.inj hu]

/-- What a predicate of a node has after a change: what is said of it, and what is kept. -/
theorem mem_valuesAt_iff (hq : q ≠ Search.typeKey) :
    v ∈ (commit schema s sub.mutation).1.valuesAt w q ↔
      v ∈ setValues (isList schema q) [] (told (commit schema s sub.mutation).2 w q
        sub.mutation.set) ∨
      (v ∈ s.valuesAt w q ∧ ¬ run.Takes w q v) ∧ (isList schema q = true ∨
        told (commit schema s sub.mutation).2 w q sub.mutation.set = []) := by
  rw [commit_valuesAt _ _ _ _ hq, mem_setValues_iff, List.mem_filter]
  refine or_congr_right (and_congr_left fun _ => and_congr_right fun hv => ?_)
  rw [Bool.not_eq_true', Bool.eq_false_iff, Ne, run.struck_iff hv]

section Field

variable (hbuild : Schema.build types = .ok schema) (hp : run.type.predicate? p.name = some p)
include hbuild hp

/-- The schema stores a field of the entry as the type of the entry says. -/
theorem exists_first : ∃ first, schema.predicate? p.name = some first ∧
    first.direction? = p.direction? := by
  have hwell := Schema.wellFormed_of_build hbuild
  obtain ⟨first, hfirst, hshape⟩ := hwell.shapes (hwell.get?_of_type? (entryType_ok run.isType)) p
    (Mutation.mem_of_predicate? hp).1
  exact ⟨first, hfirst, (Schema.storedLike_of_sameShape hshape).direction⟩

theorem direction_eq : schema.direction? p.name = p.direction? := by
  obtain ⟨first, hfirst, hdir⟩ := run.exists_first hbuild hp
  rw [Schema.direction?, hfirst]
  exact hdir

theorem edge_eq : schema.edge p.name = p.edge :=
  Mutation.edge_eq_of_direction? (run.direction_eq hbuild hp)

/-- A field that points back is stored under no types. -/
theorem edge_ne_typeKey (hback : p.pointsBack = true) : p.edge ≠ Search.typeKey := by
  obtain ⟨first, hfirst, hdir⟩ := run.exists_first hbuild hp
  have hnone := Schema.predicate?_typeKey hbuild
  rcases Predicate.direction?_of_pointsBack hback with ⟨edge, hreverse⟩ | hmutual
  · obtain ⟨other, hother, -⟩ := Schema.reverse_forward hbuild hfirst (hdir.trans hreverse)
    rw [Predicate.edge_of_reverse hreverse]
    rintro rfl
    rw [hnone] at hother
    cases hother
  · rw [Predicate.edge_of_mutual hmutual]
    intro hname
    rw [hname, hnone] at hfirst
    cases hfirst

variable (hback : p.pointsBack = true) (hgiven : (p.name, raw) ∈ form.settingKeys ["uid"])
include hback hgiven

/-- The values of a field of the form that points back are nodes, and the field is overwritten if
its type says so. -/
theorem value_of_back : (∀ o ∈ sub.entry.values p.name, o.value.isNode = true) ∧
    (p.overwrite = true → p.name ∈ sub.cleared) := by
  have hrel : p.isRelationship = true := by
    rcases Predicate.direction?_of_pointsBack hback with ⟨edge, hdir⟩ | hdir <;>
      exact (Option.isSome_map ..).symm.trans (congrArg Option.isSome hdir)
  have hname : p.name ≠ ReviewStatus.predicateName := by
    have hkey := (List.mem_filter.1 hgiven).2
    simp only [Bool.and_eq_true, bne_iff_ne] at hkey
    exact hkey.1
  obtain ⟨comp, htype, hentry⟩ := run.composition hbuild
  constructor
  · intro o ho
    have hvalue : o ∈ (withEditHistory c run.current run.status run.resolved).1.values p.name := by
      rw [← Entity.values_withoutEmptyFields]
      rwa [run.entry_eq] at ho
    rcases mem_values_withEditHistory hname hvalue with ho | rfl
    · rw [← hentry] at ho
      rw [← htype] at hp
      rcases comp.value_cases hp hrel ho with ⟨u, hu, -⟩ | ⟨-, t, -, ht, -⟩
      · rw [hu]; rfl
      · rw [ht]; rfl
    · rfl
  · intro hoverwrite
    obtain ⟨-, -, objects, -, hget⟩ := run.formed
      (splitKey?_eq_none hbuild (entryType_ok run.isType) hp) hp (.said hgiven)
    obtain ⟨fields, st, hresolve, hresolved, -⟩ := resolveRelated_yields.1 run.resolves
    obtain ⟨objects', -, hvalues⟩ := (resolveFields_resolves hresolve).1.values hp hrel hget
    rw [run.cleared_eq]
    have hfield : run.resolved.fields.get? p.name = some (distinctObjects objects') := by
      rw [hresolved]
      exact hvalues
    exact List.mem_append_left _
      (mem_clearedFields.2 ⟨_, hfield, .inr ⟨p, hp, hoverwrite⟩⟩)

/-- A change tells the nodes that are values of a field that points back of the entry. -/
theorem mem_told_of_back (hw : w ∈ sub.entry.storedValues (commit schema s sub.mutation).2 p.name) :
    run.uid.text ∈ told (commit schema s sub.mutation).2 w p.edge sub.mutation.set := by
  obtain ⟨o, ho, hstored⟩ := Entity.mem_storedValues.1 hw
  have hnode := (run.value_of_back hbuild hp hback hgiven).1 o ho
  have hentry : sub.entry.subject.stored? (commit schema s sub.mutation).2 =
      some run.uid.text := by
    rw [run.subject_eq]
    rfl
  rw [run.written.set, told_append, ← run.edge_eq hbuild hp]
  exact List.mem_append_left _
    (Entity.mem_told_of_back (run.direction_eq hbuild hp) hback ho hnode hstored hentry)

/-- What is taken of an edge to the entry, for the field and for other ones. -/
theorem takes_edge_iff (hoverwrite : p.overwrite = true) :
    run.Takes w p.edge run.uid.text ↔
      (∃ first, schema.predicate? p.name = some first ∧ s.Carries (Mutation.owners first) w) ∨
      (p.direction? = some .mutual ∧ w = run.uid.text) ∨
      ∃ name ∈ sub.cleared, name ≠ p.name ∧ ∃ first, schema.predicate? name = some first ∧
        Mutation.Clears s run.uid name first w p.edge run.uid.text := by
  obtain ⟨first, hfirst, hdir⟩ := run.exists_first hbuild hp
  have hcleared := (run.value_of_back hbuild hp hback hgiven).2 hoverwrite
  have hclears : Mutation.Clears s run.uid p.name first w p.edge run.uid.text ↔
      s.Carries (Mutation.owners first) w ∨ p.direction? = some .mutual ∧ w = run.uid.text := by
    unfold Mutation.Clears
    rw [hdir]
    rcases Predicate.direction?_of_pointsBack hback with ⟨edge, hreverse⟩ | hmutual
    · simp [hreverse, Predicate.edge_of_reverse hreverse]
    · simp [hmutual, Predicate.edge_of_mutual hmutual, or_comm]
  constructor
  · rintro ⟨name, hname, q, hq, htakes⟩
    by_cases hsame : name = p.name
    · subst hsame
      obtain rfl : first = q := Option.some.inj (hfirst.symm.trans hq)
      rcases hclears.1 htakes with hcarries | hself
      · exact .inl ⟨first, hfirst, hcarries⟩
      · exact .inr (.inl hself)
    · exact .inr (.inr ⟨name, hname, hsame, q, hq, htakes⟩)
  · rintro (⟨q, hq, hcarries⟩ | hself | ⟨name, hname, -, q, hq, htakes⟩)
    · obtain rfl : first = q := Option.some.inj (hfirst.symm.trans hq)
      exact ⟨p.name, hcleared, first, hfirst, hclears.2 (.inl hcarries)⟩
    · exact ⟨p.name, hcleared, first, hfirst, hclears.2 (.inr hself)⟩
    · exact ⟨name, hname, q, hq, htakes⟩

/-- After a change a node has an edge to the entry exactly if it is a value of the field, if and
only if the edge is cleaned up. -/
theorem mem_valuesAt_edge_iff (hoverwrite : p.overwrite = true) (w : String) :
    (run.uid.text ∈ (commit schema s sub.mutation).1.valuesAt w p.edge ↔
        w ∈ sub.entry.storedValues (commit schema s sub.mutation).2 p.name) ↔
      sub.CleansUp schema s run.uid p w := by
  have htold := run.mem_told_of_back (w := w) hbuild hp hback hgiven
  rw [run.mem_valuesAt_iff (run.edge_ne_typeKey hbuild hp hback)]
  constructor
  · intro h
    refine ⟨⟨fun hsaid => h.1 (.inl hsaid), fun hw => ?_⟩, fun hold hw hkept => ?_⟩
    · -- what is said of the node is not nothing, so an old edge can only stay in a list
      rcases h.2 hw with hsaid | ⟨-, hlist | hnone⟩
      · exact hsaid
      · rw [hlist, mem_setValues_true]
        exact .inr (htold hw)
      · exact absurd hnone (List.ne_nil_of_mem (htold hw))
    · rw [← run.takes_edge_iff hbuild hp hback hgiven hoverwrite]
      by_contra hnot
      exact hw (h.1 (.inr ⟨⟨hold, hnot⟩, hkept⟩))
  · intro h
    refine ⟨?_, fun hw => .inl (h.said.2 hw)⟩
    rintro (hsaid | ⟨⟨hold, hnot⟩, hkept⟩)
    · exact h.said.1 hsaid
    · by_contra hw
      exact hnot ((run.takes_edge_iff hbuild hp hback hgiven hoverwrite).2 (h.taken hold hw hkept))

end Field

end EditRun

/-- A change of an entry names a field that points back, and its type declares the field to be
overwritten. Afterwards a node, of whatever types, has an edge to the entry exactly if it is one of
the values of the field, if and only if the edge is cleaned up. -/
theorem edge_iff_value_iff {types : List EntityType} {schema : Schema}
    (hbuild : Schema.build types = .ok schema) {s : Store} {fixed : Option Json} {r : Resolver}
    {typeName : String} {t : TypeDef} {p : Predicate} {form : Form} {raw : Json} {c : Context}
    {before after : Desk} {sub : Submission} (ht : schema.type? typeName = some t)
    (hp : t.predicate? p.name = some p) (hback : p.pointsBack = true)
    (hoverwrite : p.overwrite = true) (hgiven : (p.name, raw) ∈ form.settingKeys ["uid"])
    (hedit : (editEntry (s.directory schema fixed) r typeName form c).Yields before sub after) :
    ∃ u, form.uid = .ok u ∧ sub.entry.subject = .existing u ∧ ∀ w,
      (u.text ∈ (commit schema s sub.mutation).1.valuesAt w p.edge ↔
          w ∈ sub.entry.storedValues (commit schema s sub.mutation).2 p.name) ↔
        sub.CleansUp schema s u p w := by
  obtain ⟨run⟩ := editEntry_yields.1 hedit
  obtain rfl : run.type = t := Option.some.inj ((entryType_ok run.isType).symm.trans ht)
  exact ⟨run.uid, run.hasUid, run.subject_eq,
    run.mem_valuesAt_edge_iff hbuild hp hback hgiven hoverwrite⟩

/-! ### An edge that stays -/

/-- Publishers and studios call what they have made their works: books the ones, films the
others. -/
def studioTypes : List EntityType :=
  [Inventory.entry,
   { name := "Book"
     parent := some "Entry"
     predicates := [.listRelationship "made_by" ["Publisher", "Studio"]] },
   { name := "Film"
     parent := some "Entry"
     predicates := [.listRelationship "made_by" ["Publisher", "Studio"]] },
   { name := "Publisher"
     parent := some "Entry"
     predicates := [.reverseListRelationship "works" "made_by" ["Book"]] },
   { name := "Studio"
     parent := some "Entry"
     predicates := [.reverseListRelationship "works" "made_by" ["Film"]] }]

/-- A store with a film, the studio that has made it, and another film. -/
def studioStore : Store :=
  (((Store.empty.addNode ["Film", "Entry"] [("made_by", "0x101")]).2.addNode ["Studio", "Entry"]
    []).2.addNode ["Film", "Entry"] []).2

/-- The form by which the studio has made the other film instead. -/
def worksForm : Form :=
  (Table.empty.insert "uid" (.string "0x101")).insert "works" (.array [.string "0x102"])

/-- The context of a reviewer. -/
def studioContext : Context := ⟨Uid.ofNat 0x1ff, .reviewer, "", ⟨0, 0⟩, false⟩

theorem exists_works : ∃ schema t p sub after, Schema.build studioTypes = .ok schema ∧
    schema.type? "Studio" = some t ∧ t.predicate? p.name = some p ∧ p.pointsBack = true ∧
    p.overwrite = true ∧ (p.name, .array [.string "0x102"]) ∈ worksForm.settingKeys ["uid"] ∧
    (editEntry (studioStore.directory schema none) stubResolver "Studio" worksForm
      studioContext).Yields Desk.clean sub after ∧ "Film" ∈ Mutation.owners p ∧
    "Film" ∈ (commit schema studioStore sub.mutation).1.typesAt "0x100" ∧
    "0x101" ∈ (commit schema studioStore sub.mutation).1.valuesAt "0x100" p.edge ∧
    "0x100" ∉ sub.entry.storedValues (commit schema studioStore sub.mutation).2 p.name := by
  have h : ((Schema.build studioTypes).toOption.any fun schema =>
      (schema.type? "Studio").any fun t => (t.predicate? "works").any fun p =>
        ((p.name == "works" && p.pointsBack && p.overwrite) && p.edge == "made_by" &&
          (Mutation.owners p).contains "Film") &&
        ((editEntry (studioStore.directory schema none) stubResolver "Studio" worksForm
          studioContext).outcome Desk.clean).1.toOption.any fun sub =>
            let after := commit schema studioStore sub.mutation
            (after.1.typesAt "0x100").contains "Film" &&
              ((after.1.valuesAt "0x100" "made_by").contains "0x101" &&
                !(sub.entry.storedValues after.2 "works").contains "0x100")) = true := by
    rewrite [Store.directory_eq]
    decide +kernel
  obtain ⟨schema, hbuild, h⟩ := (Option.any_eq_true _ _).1 h
  obtain ⟨t, ht, h⟩ := (Option.any_eq_true _ _).1 h
  obtain ⟨p, hp, h⟩ := (Option.any_eq_true _ _).1 h
  simp only [Bool.and_eq_true, beq_iff_eq, List.contains_iff_mem] at h
  obtain ⟨⟨⟨⟨⟨hname, hback⟩, hoverwrite⟩, hedge⟩, howners⟩, h⟩ := h
  obtain ⟨sub, after, hsub, h⟩ := exists_yields h
  simp only [Bool.and_eq_true, Bool.not_eq_true', List.contains_iff_mem,
    ← Bool.not_eq_true] at h
  obtain ⟨htypes, hstays, hvalue⟩ := h
  have hgiven : ("works", .array [.string "0x102"]) ∈ worksForm.settingKeys ["uid"] :=
    List.mem_filter.2 ⟨Table.get?_eq_some_iff.1 (Table.get?_insert_self ..), by decide⟩
  refine ⟨schema, t, p, sub, after, toOption_eq_some.1 hbuild, ht, hname ▸ hp, hback, hoverwrite,
    ?_, hsub, howners, htypes, hedge ▸ hstays, ?_⟩
  · rw [hname]
    exact hgiven
  · rw [hname]
    exact hvalue

/-- Of the works of the studio, those are cleaned up whose edges are as the form says. -/
theorem edge_iff_value_iff_works : ∃ schema t p sub after,
    Schema.build studioTypes = .ok schema ∧ schema.type? "Studio" = some t ∧
    t.predicate? p.name = some p ∧ p.pointsBack = true ∧ p.overwrite = true ∧
    (p.name, .array [.string "0x102"]) ∈ worksForm.settingKeys ["uid"] ∧
    (editEntry (studioStore.directory schema none) stubResolver "Studio" worksForm
      studioContext).Yields Desk.clean sub after ∧
    ∃ u, worksForm.uid = .ok u ∧ sub.entry.subject = .existing u ∧ ∀ w,
      (u.text ∈ (commit schema studioStore sub.mutation).1.valuesAt w p.edge ↔
          w ∈ sub.entry.storedValues (commit schema studioStore sub.mutation).2 p.name) ↔
        sub.CleansUp schema studioStore u p w := by
  obtain ⟨schema, t, p, sub, after, hbuild, ht, hp, hback, hoverwrite, hgiven, hsub, -⟩ :=
    exists_works
  exact ⟨schema, t, p, sub, after, hbuild, ht, hp, hback, hoverwrite, hgiven, hsub,
    edge_iff_value_iff hbuild ht hp hback hoverwrite hgiven hsub⟩

/-- The film that the studio gives up keeps its edge, though it is of the type that the works of
a studio have: the first declaration of the name is the one of publishers. -/
theorem edge_of_film :
    ¬ ∀ types schema, Schema.build types = .ok schema → ∀ typeName t p,
      schema.type? typeName = some t → t.predicate? p.name = some p → p.pointsBack = true →
      p.overwrite = true → ∀ s : Store, ∀ fixed r form raw c before sub after,
      (p.name, raw) ∈ form.settingKeys ["uid"] →
      (editEntry (s.directory schema fixed) r typeName form c).Yields before sub after →
      ∀ u, form.uid = .ok u → ∀ w,
        (∃ name ∈ Mutation.owners p, name ∈ (commit schema s sub.mutation).1.typesAt w) →
          (u.text ∈ (commit schema s sub.mutation).1.valuesAt w p.edge ↔
            w ∈ sub.entry.storedValues (commit schema s sub.mutation).2 p.name) := by
  intro hall
  obtain ⟨schema, t, p, sub, after, hbuild, ht, hp, hback, hoverwrite, hgiven, hsub, howners,
    htypes, hstays, hvalue⟩ := exists_works
  have huid : worksForm.uid = .ok (Uid.ofNat 0x101) := by decide
  exact hvalue ((hall _ schema hbuild _ t p ht hp hback hoverwrite studioStore none _ _ _ _ _ sub
    after hgiven hsub _ huid "0x100" ⟨"Film", howners, htypes⟩).1 hstays)

end PressRegister
