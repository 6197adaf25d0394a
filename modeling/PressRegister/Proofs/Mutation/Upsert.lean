import PressRegister.Proofs.Mutation.Clearing
import PressRegister.Proofs.Mutation.Telling

/-!
# What writing an entry makes of the store

The mutation of a stored entry clears the predicates to be overwritten and then
sets the new values. Afterwards an overwritten predicate holds exactly the new
values, wherever it is stored; a predicate that is not overwritten keeps its old
values and gains the new ones; and nothing else changes.

This needs identifiers of new nodes that no node has yet.

## Main definitions

* `Mutation.Coherent`: the predicates of a type are stored apart from each other.
* `Mutation.Write`: the mutation of an entry that is stored.
* `Mutation.Upserted`: what the commit of an entry's mutation leaves.

## Main results

* `Mutation.Coherent.exists_compile`: the mutation of an entry compiles.
* `Mutation.Write.upserted`: what its commit leaves.
-/

namespace PressRegister

open Predicate (withoutRepeats)

namespace Predicate

/-- Whether the values of a predicate point back at the node that has them. -/
def pointsBack (p : Predicate) : Bool :=
  match p.direction? with
  | some (.reverse _) | some .mutual => true
  | _ => false

/-- What the values of a predicate become when new ones are written over them. -/
def overwritten (p : Predicate) (new : List String) : List String :=
  if p.isList then withoutRepeats new else new.getLast?.toList

/-- What the values of a predicate become when new ones are added. -/
def added (p : Predicate) (old new : List String) : List String :=
  if p.isList then old ++ (withoutRepeats new).filter (!old.contains ·)
  else (new.getLast?.map ([·])).getD old

theorem edge_of_reverse {p : Predicate} {edge : String}
    (h : p.direction? = some (.reverse edge)) : p.edge = edge := by
  unfold Predicate.edge
  rw [h]

theorem edge_of_mutual {p : Predicate} (h : p.direction? = some .mutual) : p.edge = p.name := by
  unfold Predicate.edge
  rw [h]

theorem direction?_of_pointsBack {p : Predicate} (h : p.pointsBack = true) :
    (∃ edge, p.direction? = some (.reverse edge)) ∨ p.direction? = some .mutual := by
  unfold pointsBack at h
  split at h
  · rename_i edge hdir
    exact .inl ⟨edge, hdir⟩
  · rename_i hdir
    exact .inr hdir
  · cases h

theorem direction?_of_not_pointsBack {p : Predicate} (h : p.pointsBack = false) :
    p.direction? = none ∨ p.direction? = some .forward := by
  unfold pointsBack at h
  cases hdir : p.direction? with
  | none => exact .inl rfl
  | some direction => cases direction <;> simp_all

theorem edge_of_not_pointsBack {p : Predicate} (h : p.pointsBack = false) : p.edge = p.name := by
  unfold Predicate.edge
  rcases direction?_of_not_pointsBack h with hdir | hdir <;> rw [hdir]

theorem setValues_nil_eq_overwritten (p : Predicate) (new : List String) :
    setValues p.isList [] new = p.overwritten new := by
  unfold overwritten
  cases p.isList with
  | true => exact setValues_true_nil new
  | false =>
    rw [setValues_false]
    cases new.getLast? <;> rfl

theorem setValues_eq_added (p : Predicate) (old new : List String) :
    setValues p.isList old new = p.added old new := by
  unfold added
  cases p.isList with
  | true => exact setValues_true old new
  | false => exact setValues_false old new

end Predicate

namespace Mutation

/-! ### Types whose predicates are stored apart -/

/-- A predicate of a type is stored as the schema says, apart from the other predicates of
the type and, if its values point back, from the fields of new nodes. -/
def Separate (schema : Schema) (t : TypeDef) (p : Predicate) : Prop :=
  (schema.predicate? p.name).map (fun first => (first.direction?, first.isList)) =
      some (p.direction?, p.isList) ∧
    p.edge ≠ Search.typeKey ∧
    (∀ q ∈ t.predicates, q.edge = p.edge → q.name = p.name) ∧
    (p.pointsBack = true → (schema.predicate? p.name).map owners = some (owners p) ∧
      Store.isList schema p.edge = true ∧ p.edge ∉ Satellite.plainFields)

/-- The predicates of a type are stored apart from each other. -/
def Coherent (schema : Schema) (t : TypeDef) : Prop :=
  ∀ p ∈ t.predicates, Separate schema t p

instance (schema : Schema) (t : TypeDef) (p : Predicate) : Decidable (Separate schema t p) :=
  inferInstanceAs (Decidable (_ ∧ _))

instance (schema : Schema) (t : TypeDef) : Decidable (Coherent schema t) :=
  inferInstanceAs (Decidable (∀ p ∈ _, _))

/-- The fields of an entry are predicates of its type, with values of their kind. -/
def FieldsOf (t : TypeDef) (fields : Fields) : Prop :=
  ∀ name values, fields.get? name = some values →
    ∃ p, t.predicate? name = some p ∧ ∀ o ∈ values, p.kind.admits o.value = true

/-- What the mutation of a stored entry leaves, given the identifiers of new nodes: the
predicates in `names` are overwritten, all other fields are added to, and the rest stays. -/
structure Upserted (schema : Schema) (t : TypeDef) (u : Uid) (e : Entity) (names : List String)
    (before after : Store) (uids : NewUids) : Prop where
  /-- Every new value is stored. -/
  stored : ∀ name values, e.fields.get? name = some values →
    ∀ o ∈ values, ∃ v, o.value.stored? uids = some v
  overwritten_forward : ∀ p ∈ t.predicates, p.pointsBack = false → p.name ∈ names →
    after.valuesAt u.text p.name = p.overwritten (e.storedValues uids p.name)
  overwritten_reverse : ∀ p ∈ t.predicates, ∀ edge, p.direction? = some (.reverse edge) →
    p.name ∈ names → ∀ w,
      (after.Carries (owners p) w →
        (u.text ∈ after.valuesAt w edge ↔ w ∈ e.storedValues uids p.name)) ∧
      (¬ after.Carries (owners p) w → u.text ∈ before.valuesAt w edge →
        u.text ∈ after.valuesAt w edge)
  overwritten_mutual : ∀ p ∈ t.predicates, p.direction? = some .mutual → p.name ∈ names →
    after.valuesAt u.text p.name = p.overwritten (e.storedValues uids p.name) ∧
    ∀ w, (after.Carries (owners p) w →
        (u.text ∈ after.valuesAt w p.name ↔ w ∈ e.storedValues uids p.name)) ∧
      (w ≠ u.text → ¬ after.Carries (owners p) w → u.text ∈ before.valuesAt w p.name →
        u.text ∈ after.valuesAt w p.name)
  added_forward : ∀ p ∈ t.predicates, p.pointsBack = false → p.name ∉ names →
    after.valuesAt u.text p.name =
      p.added (before.valuesAt u.text p.name) (e.storedValues uids p.name)
  added_reverse : ∀ p ∈ t.predicates, ∀ edge, p.direction? = some (.reverse edge) →
    p.name ∉ names → ∀ w, u.text ∈ after.valuesAt w edge ↔
      u.text ∈ before.valuesAt w edge ∨ w ∈ e.storedValues uids p.name
  added_mutual : ∀ p ∈ t.predicates, p.direction? = some .mutual → p.name ∉ names →
    after.valuesAt u.text p.name =
      p.added (before.valuesAt u.text p.name) (e.storedValues uids p.name) ∧
    ∀ w, w ≠ u.text → (u.text ∈ after.valuesAt w p.name ↔
      u.text ∈ before.valuesAt w p.name ∨ w ∈ e.storedValues uids p.name)
  /-- Other nodes keep their edges to nodes other than the entry. -/
  other_edges : ∀ p ∈ t.predicates, p.pointsBack = true → ∀ w v, w ≠ u.text → v ≠ u.text →
    (v ∈ after.valuesAt w p.edge ↔ v ∈ before.valuesAt w p.edge)
  /-- Stored nodes keep all that is stored under no edge of the entry's type. -/
  frame : ∀ w q, before.node? w ≠ none → q ≠ Search.typeKey →
    (∀ p ∈ t.predicates, p.edge = q → p.pointsBack = false ∧ w ≠ u.text) →
    after.valuesAt w q = before.valuesAt w q
  types : ∀ w, before.node? w ≠ none → after.typesAt w = before.typesAt w

/-! ### The mutation of an entry -/

/-- The mutation of an entry that is stored: its fields and the overwritten names are
predicates of its type, related nodes that are new have plain fields, and the numbers above
the last one are no node's. -/
structure Write (schema : Schema) (t : TypeDef) (s : Store) (u : Uid) (e : Entity)
    (names : List String) (related : List Related) (m : Mutation) : Prop where
  coherent : Coherent schema t
  plain : KeepsPlain schema
  subject : e.subject = .existing u
  fields : FieldsOf t e.fields
  known : ∀ name ∈ names, ∃ p, t.predicate? name = some p
  newNodes : ∀ r ∈ related, r.IsPlain
  compiled : compile schema e [(u, names)] related = .ok m
  stored : s.node? u.text ≠ none
  fresh : s.Fresh

section Separate

variable {schema : Schema} {t : TypeDef} {s : Store} {u : Uid} {p : Predicate} {w q v : String}

theorem mem_of_predicate? {name : String} (h : t.predicate? name = some p) :
    p ∈ t.predicates ∧ p.name = name :=
  ⟨List.mem_of_find?_eq_some h, by simpa using List.find?_some h⟩

theorem Separate.direction?_eq (hp : Separate schema t p) :
    schema.direction? p.name = p.direction? := by
  obtain ⟨first, hfirst, heq⟩ := Option.map_eq_some_iff.1 hp.1
  rw [Schema.direction?, hfirst]
  exact (Prod.mk.inj heq).1

theorem Separate.isList_eq (hp : Separate schema t p) :
    Store.isList schema p.name = p.isList := by
  obtain ⟨first, hfirst, heq⟩ := Option.map_eq_some_iff.1 hp.1
  rw [Store.isList, hfirst]
  exact (Prod.mk.inj heq).2

theorem edge_eq_of_direction? (h : schema.direction? p.name = p.direction?) :
    schema.edge p.name = p.edge := by
  unfold Schema.edge Predicate.edge
  generalize schema.direction? p.name = direction at h ⊢
  subst h
  cases p.direction? with
  | none => rfl
  | some direction => cases direction <;> rfl

theorem Separate.edge_eq (hp : Separate schema t p) : schema.edge p.name = p.edge :=
  edge_eq_of_direction? hp.direction?_eq

theorem edge_eq_of_clears (h : Clears s u p.name p w q v) : q = p.edge := by
  unfold Clears at h
  unfold Predicate.edge
  cases hdir : p.direction? with
  | none =>
    rw [hdir] at h
    exact h.1
  | some direction =>
    cases direction <;> rw [hdir] at h <;> exact h.1

/-- What the declaration of a type clears is what the registered declaration clears. -/
theorem Separate.clears_iff {first : Predicate} (hp : Separate schema t p)
    (hfirst : schema.predicate? p.name = some first) :
    Clears s u p.name first w q v ↔ Clears s u p.name p w q v := by
  obtain ⟨hlayout, -, -, hback⟩ := hp
  rw [hfirst] at hlayout hback
  have hdir : first.direction? = p.direction? := (Prod.mk.inj (Option.some.inj hlayout)).1
  unfold Clears
  rw [hdir]
  by_cases hpoints : p.pointsBack = true
  · rw [Option.some.inj (hback hpoints).1]
  · unfold Predicate.pointsBack at hpoints
    cases hd : p.direction? with
    | none => rfl
    | some direction => cases direction <;> simp_all

/-- Predicates of a coherent type can be overwritten. -/
theorem Coherent.exists_compile (ht : Coherent schema t) {names : List String}
    (hnames : ∀ name ∈ names, ∃ p, t.predicate? name = some p) (e : Entity)
    (related : List Related) : ∃ m, compile schema e [(u, names)] related = .ok m := by
  have hknown : ∀ name ∈ names, ∃ first, schema.predicate? name = some first := by
    intro name hname
    obtain ⟨p, hp⟩ := hnames name hname
    obtain ⟨hmem, rfl⟩ := mem_of_predicate? hp
    obtain ⟨first, hfirst, -⟩ := Option.map_eq_some_iff.1 (ht p hmem).1
    exact ⟨first, hfirst⟩
  obtain ⟨c, hc⟩ := exists_clearings (u := u) hknown
  exact ⟨_, by simp [compile, hc, Except.map]; rfl⟩

end Separate

namespace Write

open Store

variable {schema : Schema} {t : TypeDef} {s : Store} {u : Uid} {e : Entity}
  {names : List String} {related : List Related} {m : Mutation} {p : Predicate} {w q v : String}
  (h : Write schema t s u e names related m)

include h

/-- Whether the mutation clears what a value of a node is stored under. -/
theorem struck_iff (hv : v ∈ s.valuesAt w q) :
    struck (s.bind m.prelude) m.delete w q v = true ↔
      ∃ p, t.predicate? p.name = some p ∧ p.name ∈ names ∧ Clears s u p.name p w q v := by
  obtain ⟨c, hc, hprelude, hdelete, -⟩ := compile_ok h.compiled
  simp only [List.flatMap_cons, List.flatMap_nil, List.append_nil] at hc
  rw [hprelude, hdelete, struck_clearings hc hv]
  constructor
  · rintro ⟨name, hname, first, hfirst, hclears⟩
    obtain ⟨p, hp⟩ := h.known name hname
    obtain ⟨hmem, rfl⟩ := mem_of_predicate? hp
    exact ⟨p, hp, hname, ((h.coherent p hmem).clears_iff hfirst).1 hclears⟩
  · rintro ⟨p, hp, hname, hclears⟩
    have hseparate := h.coherent p (mem_of_predicate? hp).1
    obtain ⟨first, hfirst, -⟩ := Option.map_eq_some_iff.1 hseparate.1
    exact ⟨p.name, hname, first, hfirst, (hseparate.clears_iff hfirst).2 hclears⟩

/-- What is struck of an edge is what the clearing of its predicate takes, if that is to be
overwritten. -/
theorem struck_edge_iff (hp : p ∈ t.predicates) (hv : v ∈ s.valuesAt w p.edge) :
    struck (s.bind m.prelude) m.delete w p.edge v = true ↔
      p.name ∈ names ∧ Clears s u p.name p w p.edge v := by
  obtain ⟨first, hfirst, -⟩ := Option.map_eq_some_iff.1 (h.coherent p hp).1
  rw [h.struck_iff hv]
  constructor
  · rintro ⟨q, hq, hname, hclears⟩
    have hmem := (mem_of_predicate? hq).1
    have hsame : q.name = p.name := (h.coherent p hp).2.2.1 q hmem (edge_eq_of_clears hclears).symm
    have hfirst' : schema.predicate? q.name = some first := hsame ▸ hfirst
    rw [← (h.coherent q hmem).clears_iff hfirst', hsame, (h.coherent p hp).clears_iff hfirst]
      at hclears
    exact ⟨hsame ▸ hname, hclears⟩
  · rintro ⟨hname, hclears⟩
    obtain ⟨q, hq⟩ := h.known p.name hname
    obtain ⟨hmem, hsame⟩ := mem_of_predicate? hq
    have hfirst' : schema.predicate? q.name = some first := hsame ▸ hfirst
    rw [← (h.coherent p hp).clears_iff hfirst, ← hsame, (h.coherent q hmem).clears_iff hfirst']
      at hclears
    exact ⟨q, hsame ▸ hq, hsame ▸ hname, hclears⟩

/-- Under the edges of a type only the entry tells anything of nodes that are not new. -/
theorem told_set {uids : NewUids}
    (hq : (∀ name, uids.get? name ≠ some w) ∨ q ∉ Search.typeKey :: Satellite.plainFields) :
    told uids w q m.set = told uids w q (e.statements schema) := by
  obtain ⟨c, -, -, -, hset⟩ := compile_ok h.compiled
  rw [hset, told_append, told_satelliteStatements h.plain h.newNodes hq, List.append_nil]

theorem told_of_no_edge {uids : NewUids} (hq : ∀ p ∈ t.predicates, p.edge ≠ q) :
    told uids w q (e.statements schema) = [] := by
  refine Entity.told_statements_of_no_edge fun key hkey => ?_
  obtain ⟨values, hvalues⟩ := Option.isSome_iff_exists.1 hkey
  obtain ⟨p, hp, -⟩ := h.fields key values hvalues
  obtain ⟨hmem, rfl⟩ := mem_of_predicate? hp
  rw [(h.coherent p hmem).edge_eq]
  exact hq p hmem

/-- The fields of an entry are stored apart from each other. -/
theorem hasEdgeAlone (hp : p ∈ t.predicates) : e.HasEdgeAlone schema p.name := by
  intro key hkey hne hedge
  obtain ⟨values, hvalues⟩ := Option.isSome_iff_exists.1 hkey
  obtain ⟨q, hq, -⟩ := h.fields key values hvalues
  obtain ⟨hmem, rfl⟩ := mem_of_predicate? hq
  rw [(h.coherent q hmem).edge_eq, (h.coherent p hp).edge_eq] at hedge
  exact hne ((h.coherent p hp).2.2.1 q hmem hedge)

/-- The values of a predicate that points back are nodes. -/
theorem hasNodes (hp : p ∈ t.predicates) (hback : p.pointsBack = true) : e.HasNodes p.name := by
  intro o ho
  cases hvalues : e.fields.get? p.name with
  | none => simp [hvalues] at ho
  | some values =>
    obtain ⟨q, hq, hkinds⟩ := h.fields p.name values hvalues
    obtain ⟨hmem, hsame⟩ := mem_of_predicate? hq
    have hdir : q.direction? = p.direction? := by
      rw [← (h.coherent q hmem).direction?_eq, hsame, (h.coherent p hp).direction?_eq]
    have hkind := hkinds o (by simpa [hvalues] using ho)
    unfold Predicate.pointsBack at hback
    rw [← hdir] at hback
    unfold Predicate.direction? Predicate.relationship? at hback
    cases hk : q.kind <;> simp_all [Predicate.Kind.admits]

/-- A node that is stored is no new one. -/
theorem get?_ne (hw : s.node? w ≠ none) (name : String) :
    (commit schema s m).2.get? name ≠ some w :=
  commit_get?_ne schema s m h.fresh hw name

theorem subject_stored? (uids : NewUids) : e.subject.stored? uids = some u.text := by
  rw [h.subject]
  rfl

/-- The values under an edge of a type: what is left of the old ones, and then what the
entry tells. -/
theorem valuesAt_edge (hp : p ∈ t.predicates)
    (hw : s.node? w ≠ none ∨ p.edge ∉ Satellite.plainFields) :
    ∃ rest, (commit schema s m).1.valuesAt w p.edge =
        setValues (isList schema p.edge) rest
          (told (commit schema s m).2 w p.edge (e.statements schema)) ∧
      (∀ v, v ∈ rest ↔ v ∈ s.valuesAt w p.edge ∧
        ¬ (p.name ∈ names ∧ Clears s u p.name p w p.edge v)) ∧
      ((∀ v ∈ s.valuesAt w p.edge, ¬ (p.name ∈ names ∧ Clears s u p.name p w p.edge v)) →
        rest = s.valuesAt w p.edge) := by
  have hkey : p.edge ≠ Search.typeKey := (h.coherent p hp).2.1
  have hother : (∀ name, (commit schema s m).2.get? name ≠ some w) ∨
      p.edge ∉ Search.typeKey :: Satellite.plainFields := by
    rcases hw with hw | hw
    · exact .inl (h.get?_ne hw)
    · exact .inr fun hmem => (List.mem_cons.1 hmem).elim hkey hw
  refine ⟨(s.valuesAt w p.edge).filter fun v =>
    !struck (s.bind m.prelude) m.delete w p.edge v, ?_, fun v => ?_, fun hnone => ?_⟩
  · rw [commit_valuesAt schema s m w hkey, h.told_set hother]
  · rw [List.mem_filter]
    refine and_congr_right fun hv => ?_
    rw [Bool.not_eq_true', Bool.eq_false_iff, ne_eq, h.struck_edge_iff hp hv]
  · refine List.filter_eq_self.2 fun v hv => ?_
    rw [Bool.not_eq_true', Bool.eq_false_iff, ne_eq, h.struck_edge_iff hp hv]
    exact hnone v hv

/-- Nothing changes under what is no edge of the type. -/
theorem valuesAt_of_no_edge (hq : ∀ p ∈ t.predicates, p.edge ≠ q) (hkey : q ≠ Search.typeKey)
    (hw : s.node? w ≠ none) : (commit schema s m).1.valuesAt w q = s.valuesAt w q := by
  have hrest : ((s.valuesAt w q).filter fun v =>
      !struck (s.bind m.prelude) m.delete w q v) = s.valuesAt w q := by
    refine List.filter_eq_self.2 fun v hv => ?_
    rw [Bool.not_eq_true', Bool.eq_false_iff, ne_eq, h.struck_iff hv]
    rintro ⟨p, hp, -, hclears⟩
    exact hq p (mem_of_predicate? hp).1 (edge_eq_of_clears hclears).symm
  rw [commit_valuesAt schema s m w hkey, hrest, h.told_set (.inl (h.get?_ne hw)),
    h.told_of_no_edge hq, setValues_nil]

/-- Stored nodes keep their types. -/
theorem typesAt_eq (hw : s.node? w ≠ none) :
    (commit schema s m).1.typesAt w = s.typesAt w := by
  rw [commit_typesAt, h.told_set (.inl (h.get?_ne hw)),
    h.told_of_no_edge fun p hp => (h.coherent p hp).2.1, setValues_nil]

theorem carries_iff (types : List String) (hw : s.node? w ≠ none) :
    (commit schema s m).1.Carries types w ↔ s.Carries types w := by
  unfold Carries
  rw [h.typesAt_eq hw]

/-! ### One predicate -/

/-- At the other ends of a predicate that points back stand the old edges that are not
cleared, and the entry where it is told. -/
theorem mem_valuesAt_back (hp : p ∈ t.predicates) (hback : p.pointsBack = true)
    (hw : p.direction? = some .mutual → w ≠ u.text) :
    v ∈ (commit schema s m).1.valuesAt w p.edge ↔
      (v ∈ s.valuesAt w p.edge ∧ ¬ (p.name ∈ names ∧ v = u.text ∧ s.Carries (owners p) w)) ∨
        (v = u.text ∧ w ∈ e.storedValues (commit schema s m).2 p.name) := by
  have hseparate := h.coherent p hp
  obtain ⟨-, hlist, hplain⟩ := hseparate.2.2.2 hback
  obtain ⟨rest, hvalues, hrest, -⟩ := h.valuesAt_edge (w := w) hp (.inr hplain)
  rw [hvalues, hlist, mem_setValues_true, hrest]
  have hsubject := h.subject_stored? (commit schema s m).2
  have halone := h.hasEdgeAlone hp
  have hnodes := h.hasNodes hp hback
  rcases Predicate.direction?_of_pointsBack hback with ⟨edge, hdir⟩ | hdir
  · have hschema := hseparate.direction?_eq.trans hdir
    rw [Predicate.edge_of_reverse hdir, Entity.mem_told_reverse halone hnodes hschema, hsubject]
    simp only [Clears, hdir, true_and, Option.some.injEq, eq_comm]
  · have hschema := hseparate.direction?_eq.trans hdir
    have hne : e.subject.stored? (commit schema s m).2 ≠ some w := by
      rw [hsubject]
      exact fun heq => hw hdir (Option.some.inj heq).symm
    rw [Predicate.edge_of_mutual hdir, Entity.mem_told_mutual halone hnodes hschema hne, hsubject]
    simp only [Clears, hdir, true_and, hw hdir, false_or, Option.some.injEq, eq_comm]

theorem isList_of_mutual (hp : p ∈ t.predicates) (hdir : p.direction? = some .mutual) :
    p.isList = true := by
  have hback : p.pointsBack = true := by simp [Predicate.pointsBack, hdir]
  rw [← (h.coherent p hp).isList_eq, ← Predicate.edge_of_mutual hdir]
  exact ((h.coherent p hp).2.2.2 hback).2.1

/-- What a predicate that is stored at the entry itself becomes there. -/
theorem valuesAt_self (hp : p ∈ t.predicates)
    (hdir : p.pointsBack = false ∨ p.direction? = some .mutual) :
    (commit schema s m).1.valuesAt u.text p.name =
      setValues p.isList (if p.name ∈ names then [] else s.valuesAt u.text p.name)
        (e.storedValues (commit schema s m).2 p.name) := by
  have hseparate := h.coherent p hp
  have hedge : p.edge = p.name := by
    rcases hdir with hdir | hdir
    · exact Predicate.edge_of_not_pointsBack hdir
    · exact Predicate.edge_of_mutual hdir
  have hclears : ∀ v, Clears s u p.name p u.text p.edge v := by
    intro v
    unfold Clears
    rw [hedge]
    rcases hdir with hdir | hdir
    · rcases Predicate.direction?_of_not_pointsBack hdir with hdir | hdir <;> rw [hdir] <;>
        exact ⟨rfl, rfl⟩
    · rw [hdir]
      exact ⟨rfl, .inl rfl⟩
  obtain ⟨rest, hvalues, hrest, hall⟩ := h.valuesAt_edge hp (.inl h.stored)
  have hrest : rest = if p.name ∈ names then [] else s.valuesAt u.text p.name := by
    by_cases hname : p.name ∈ names
    · rw [if_pos hname, List.eq_nil_iff_forall_not_mem]
      exact fun v hv => ((hrest v).1 hv).2 ⟨hname, hclears v⟩
    · rw [if_neg hname, hall fun v _ hcleared => hname hcleared.1, hedge]
  rw [hedge, hseparate.isList_eq, hrest] at hvalues
  rw [hvalues]
  have hsubject := h.subject_stored? (commit schema s m).2
  rcases hdir with hdir | hdir
  · have hforward : schema.IsForward p.name := by
      unfold Schema.IsForward
      rw [hseparate.direction?_eq]
      exact Predicate.direction?_of_not_pointsBack hdir
    rw [Entity.told_forward (h.hasEdgeAlone hp) hforward, if_pos hsubject]
  · have hback : p.pointsBack = true := by
      unfold Predicate.pointsBack
      rw [hdir]
    have hlist : p.isList = true := by
      rw [← hseparate.isList_eq, ← hedge]
      exact (hseparate.2.2.2 hback).2.1
    rw [hlist]
    exact Entity.setValues_told_mutual (h.hasEdgeAlone hp) (h.hasNodes hp hback)
      (hseparate.direction?_eq.trans hdir) hsubject _

/-- Every new value is stored. -/
theorem stored_value {name : String} {values : List Object}
    (hvalues : e.fields.get? name = some values) {o : Object} (ho : o ∈ values) :
    ∃ v, o.value.stored? (commit schema s m).2 = some v := by
  obtain ⟨p, hp, hkinds⟩ := h.fields name values hvalues
  obtain ⟨hmem, rfl⟩ := mem_of_predicate? hp
  have hsubject : e.subject.isNode = true := by
    rw [h.subject]
    rfl
  refine Entity.exists_stored p.name p.direction? hsubject
    (Operand.isStorable_of_admits (hkinds o ho)) (fun edge hdir => ?_) fun d hd => ?_
  · have hback : p.pointsBack = true := by simp [Predicate.pointsBack, hdir]
    exact h.hasNodes hmem hback o (by simpa [hvalues] using ho)
  · obtain ⟨c, -, -, -, hset⟩ := compile_ok h.compiled
    rw [hset]
    refine List.mem_append_left _ (Entity.mem_statements.2 ⟨p.name, values, hvalues, o, ho, ?_⟩)
    rw [(h.coherent p hmem).direction?_eq]
    exact hd

/-- A node whose edge to the entry was there before carries the types that it carried. -/
theorem carries_of_mem (types : List String) (hv : v ∈ s.valuesAt w q) :
    (commit schema s m).1.Carries types w ↔ s.Carries types w := by
  obtain ⟨n, hn⟩ := exists_node_of_mem_valuesAt hv
  exact h.carries_iff types (by rw [hn]; exact Option.some_ne_none n)

/-- At the other ends of an overwritten predicate, nodes of its types lead to the entry
exactly if they are new values, and all other nodes still do if they did. -/
theorem mem_valuesAt_overwritten (hp : p ∈ t.predicates) (hback : p.pointsBack = true)
    (hname : p.name ∈ names) (hw : p.direction? = some .mutual → w ≠ u.text) :
    ((commit schema s m).1.Carries (owners p) w →
        (u.text ∈ (commit schema s m).1.valuesAt w p.edge ↔
          w ∈ e.storedValues (commit schema s m).2 p.name)) ∧
      (¬ (commit schema s m).1.Carries (owners p) w → u.text ∈ s.valuesAt w p.edge →
        u.text ∈ (commit schema s m).1.valuesAt w p.edge) := by
  rw [h.mem_valuesAt_back hp hback hw]
  refine ⟨fun htypes => ⟨?_, fun hnew => .inr ⟨rfl, hnew⟩⟩, fun htypes hold => .inl ⟨hold, ?_⟩⟩
  · rintro (⟨hold, hkept⟩ | ⟨-, hnew⟩)
    · exact absurd ⟨hname, rfl, (h.carries_of_mem _ hold).1 htypes⟩ hkept
    · exact hnew
  · rintro ⟨-, -, hcarries⟩
    exact htypes ((h.carries_of_mem _ hold).2 hcarries)

/-- At the other ends of a predicate that is not overwritten, the entry is added. -/
theorem mem_valuesAt_added (hp : p ∈ t.predicates) (hback : p.pointsBack = true)
    (hname : p.name ∉ names) (hw : p.direction? = some .mutual → w ≠ u.text) :
    u.text ∈ (commit schema s m).1.valuesAt w p.edge ↔ u.text ∈ s.valuesAt w p.edge ∨
      w ∈ e.storedValues (commit schema s m).2 p.name := by
  rw [h.mem_valuesAt_back hp hback hw]
  simp [hname]

theorem frame (hw : s.node? w ≠ none) (hkey : q ≠ Search.typeKey)
    (hq : ∀ p ∈ t.predicates, p.edge = q → p.pointsBack = false ∧ w ≠ u.text) :
    (commit schema s m).1.valuesAt w q = s.valuesAt w q := by
  by_cases hedge : ∃ p ∈ t.predicates, p.edge = q
  · obtain ⟨p, hp, rfl⟩ := hedge
    obtain ⟨hback, hne⟩ := hq p hp rfl
    have hseparate := h.coherent p hp
    have hdir := Predicate.direction?_of_not_pointsBack hback
    obtain ⟨rest, hvalues, -, hall⟩ := h.valuesAt_edge hp (.inl hw)
    have hkept : rest = s.valuesAt w p.edge := by
      refine hall fun v _ hcleared => hne ?_
      unfold Clears at hcleared
      rcases hdir with hdir | hdir <;> rw [hdir] at hcleared <;> exact hcleared.2.2
    have hforward : schema.IsForward p.name := by
      unfold Schema.IsForward
      rw [hseparate.direction?_eq]
      exact hdir
    have hsubject : e.subject.stored? (commit schema s m).2 ≠ some w := by
      rw [h.subject_stored?]
      exact fun heq => hne (Option.some.inj heq).symm
    rw [hvalues, hkept, Predicate.edge_of_not_pointsBack hback,
      Entity.told_forward (h.hasEdgeAlone hp) hforward, if_neg hsubject, setValues_nil]
  · exact h.valuesAt_of_no_edge (fun p hp heq => hedge ⟨p, hp, heq⟩) hkey hw

/-- The effect of the mutation of an entry. -/
theorem upserted :
    Upserted schema t u e names s (commit schema s m).1 (commit schema s m).2 where
  stored _ _ hvalues _ ho := h.stored_value hvalues ho
  overwritten_forward p hp hback hname := by
    rw [h.valuesAt_self hp (.inl hback), if_pos hname, Predicate.setValues_nil_eq_overwritten]
  overwritten_reverse p hp edge hdir hname w := by
    have hback : p.pointsBack = true := by simp [Predicate.pointsBack, hdir]
    rw [← Predicate.edge_of_reverse hdir]
    exact h.mem_valuesAt_overwritten hp hback hname fun hmutual => by simp [hdir] at hmutual
  overwritten_mutual p hp hdir hname := by
    have hback : p.pointsBack = true := by simp [Predicate.pointsBack, hdir]
    have hself : (commit schema s m).1.valuesAt u.text p.name =
        p.overwritten (e.storedValues (commit schema s m).2 p.name) := by
      rw [h.valuesAt_self hp (.inr hdir), if_pos hname, Predicate.setValues_nil_eq_overwritten]
    refine ⟨hself, fun w => ?_⟩
    by_cases hw : w = u.text
    · subst hw
      refine ⟨fun _ => ?_, fun hne => absurd rfl hne⟩
      rw [hself, Predicate.overwritten, if_pos (h.isList_of_mutual hp hdir),
        Predicate.mem_withoutRepeats]
    · have hother := h.mem_valuesAt_overwritten hp hback hname fun _ => hw
      rw [Predicate.edge_of_mutual hdir] at hother
      exact ⟨hother.1, fun _ => hother.2⟩
  added_forward p hp hback hname := by
    rw [h.valuesAt_self hp (.inl hback), if_neg hname, Predicate.setValues_eq_added]
  added_reverse p hp edge hdir hname w := by
    have hback : p.pointsBack = true := by simp [Predicate.pointsBack, hdir]
    rw [← Predicate.edge_of_reverse hdir]
    exact h.mem_valuesAt_added hp hback hname fun hmutual => by simp [hdir] at hmutual
  added_mutual p hp hdir hname := by
    have hback : p.pointsBack = true := by simp [Predicate.pointsBack, hdir]
    refine ⟨?_, fun w hw => ?_⟩
    · rw [h.valuesAt_self hp (.inr hdir), if_neg hname, Predicate.setValues_eq_added]
    · have hadded := h.mem_valuesAt_added hp hback hname fun _ => hw
      rwa [Predicate.edge_of_mutual hdir] at hadded
  other_edges p hp hback w v hw hv := by
    rw [h.mem_valuesAt_back hp hback fun _ => hw]
    simp [hv]
  frame w q hw hkey hq := h.frame hw hkey hq
  types w hw := h.typesAt_eq hw

end Write

end Mutation

end PressRegister
