import Mathlib.Data.List.Basic
import PressRegister.Proofs.Store.Values

/-!
# What a commit makes of a store

A commit binds, deletes and sets. What it makes of the values of a predicate at a
node is a function of what they were, of the deletions that strike them, and of the
statements that tell new ones. New nodes get identifiers that no node had before,
one for each name.

## Main definitions

* `Subject.stored?`, `Operand.stored?`: how the parts of a statement are stored.
* `Store.told`: the values that statements tell of a predicate at a node.
* `Store.Allots`: identifiers were given to new names only from a number on.
* `Store.Fresh`: the numbers above the last one are no node's.
* `Store.Sound`: the nodes that have values have identifiers.

## Main results

* `Store.commit_valuesAt`, `Store.commit_typesAt`: values and types after a commit.
* `Store.commit_allots`: the identifiers of new nodes.
* `Store.commit_stored`: every node that is set gets its identifier.
* `Store.commit_sound`: commits give values to nodes with identifiers only.
-/

namespace PressRegister

/-- The identifier of the node that a statement to be set is about, given the
identifiers of new nodes. -/
def Subject.stored? (uids : NewUids) : Subject → Option String
  | .existing u => some u.text
  | .new b => uids.get? b.name
  | .var _ => none

/-- The text that an object is stored as, given the identifiers of new nodes. -/
def Operand.stored? (uids : NewUids) : Operand → Option String
  | .existing u => some u.text
  | .new b => uids.get? b.name
  | .literal v => some v.canonical
  | .geo p => some p.geometry.compact
  | .var _ | .wildcard => none

/-- Whether a subject is a node of its own. -/
def Subject.isNode : Subject → Bool
  | .var _ => false
  | _ => true

/-- Whether an operand is something that can be stored. -/
def Operand.isStorable : Operand → Bool
  | .var _ | .wildcard => false
  | _ => true

/-- Whether both ends of a statement can be stored. -/
def Statement.isStorable (q : Statement) : Bool :=
  q.subject.isNode && q.object.value.isStorable

/-- The value that a statement to be set tells of a predicate at a node. -/
def Statement.tells? (uids : NewUids) (w p : String) (q : Statement) : Option String :=
  if q.predicate = p ∧ q.subject.stored? uids = some w then q.object.value.stored? uids else none

theorem Statement.tells?_of_not_storable {q : Statement} (h : q.isStorable = false)
    (uids : NewUids) (w p : String) : q.tells? uids w p = none := by
  have hnone : q.subject.stored? uids = none ∨ q.object.value.stored? uids = none := by
    rcases Bool.and_eq_false_iff.1 h with hnode | hvalue
    · cases hs : q.subject <;> simp_all [Subject.isNode, Subject.stored?]
    · cases hv : q.object.value <;> simp_all [Operand.isStorable, Operand.stored?]
  unfold tells?
  rcases hnone with hnone | hnone <;> simp [hnone]

/-- The look-ups of one table of identifiers are look-ups of another. -/
def NewUids.Within (a b : NewUids) : Prop :=
  ∀ name u, a.get? name = some u → b.get? name = some u

namespace NewUids

theorem Within.refl (a : NewUids) : a.Within a := fun _ _ h => h

theorem Within.trans {a b c : NewUids} (hab : a.Within b) (hbc : b.Within c) : a.Within c :=
  fun name u h => hbc name u (hab name u h)

end NewUids

theorem Subject.stored?_mono {a b : NewUids} (hab : a.Within b) {x : Subject} {w : String}
    (h : x.stored? a = some w) : x.stored? b = some w := by
  cases x with
  | existing u => exact h
  | new node => exact hab _ _ h
  | var v => cases h

theorem Operand.stored?_mono {a b : NewUids} (hab : a.Within b) {x : Operand} {v : String}
    (h : x.stored? a = some v) : x.stored? b = some v := by
  cases x with
  | new node => exact hab _ _ h
  | _ => exact h

namespace Store

/-! ### Identifiers of new nodes -/

/-- Identifiers were given to new names only from a number on, each to one name. -/
structure Allots (low : Nat) (st : Store × NewUids) : Prop where
  low_le : low ≤ st.1.lastUid
  numbered : ∀ {name u}, st.2.get? name = some u →
    ∃ n, low < n ∧ n ≤ st.1.lastUid ∧ u = (Uid.ofNat n).text
  distinct : ∀ {a b u}, st.2.get? a = some u → st.2.get? b = some u → a = b

/-- The numbers above the last one are no node's. -/
def Fresh (s : Store) : Prop :=
  ∀ n, s.lastUid < n → s.node? (Uid.ofNat n).text = none

theorem fresh_empty : Store.empty.Fresh := fun _ _ => rfl

theorem Fresh.addNode {s : Store} (hs : s.Fresh) (types : List String)
    (fields : List (String × String)) : (s.addNode types fields).2.Fresh := by
  intro n hn
  change s.lastUid + 1 < n at hn
  have hne : (Uid.ofNat n).text ≠ (Uid.ofNat (s.lastUid + 1)).text := fun heq => by
    have := Uid.ofNat_injective heq
    omega
  change (s.nodes.insert _ _).get? _ = none
  rw [Table.get?_insert, if_neg hne]
  exact hs n (by omega)

/-- The nodes that have values have identifiers. -/
def Sound (s : Store) : Prop :=
  ∀ w p v, p ≠ Search.typeKey → v ∈ s.valuesAt w p → ∃ u : Uid, u.text = w

theorem sound_empty : Store.empty.Sound := fun _ _ _ _ h => by cases h

theorem Sound.addNode {s : Store} (hs : s.Sound) (types : List String)
    (fields : List (String × String)) : (s.addNode types fields).2.Sound := by
  intro w p v hp hv
  by_cases hw : w = (Uid.ofNat (s.lastUid + 1)).text
  · exact ⟨_, hw.symm⟩
  · have hnode : (s.addNode types fields).2.nodeAt w = s.nodeAt w := by
      unfold nodeAt node? Store.addNode
      simp only
      rw [Table.get?_insert, if_neg hw]
    rw [valuesAt, hnode] at hv
    exact hs w p v hp hv

/-- A store in which nodes were given identifiers, without any other change. -/
structure Names (st st' : Store × NewUids) : Prop where
  nodes : st'.1.nodes = st.1.nodes
  within : st.2.Within st'.2
  allots : ∀ low, Allots low st → Allots low st'

namespace Names

theorem refl (st : Store × NewUids) : Names st st :=
  ⟨rfl, .refl _, fun _ h => h⟩

theorem trans {a b c : Store × NewUids} (hab : Names a b) (hbc : Names b c) : Names a c :=
  ⟨hbc.nodes.trans hab.nodes, hab.within.trans hbc.within,
    fun low h => hbc.allots low (hab.allots low h)⟩

theorem nodeAt_eq {a b : Store × NewUids} (h : Names a b) (w : String) :
    b.1.nodeAt w = a.1.nodeAt w := by
  unfold nodeAt node?
  rw [h.nodes]

end Names

theorem allots_empty (s : Store) : Allots s.lastUid (s, .empty) where
  low_le := Nat.le_refl _
  numbered h := by cases h
  distinct h := by cases h

theorem allots_insert {low : Nat} {s : Store} {uids : NewUids} {name : String}
    (h : Allots low (s, uids)) :
    Allots low ({ s with lastUid := s.lastUid + 1 },
      uids.insert name (Uid.ofNat (s.lastUid + 1)).text) where
  low_le := Nat.le_succ_of_le h.low_le
  numbered {a u} ha := by
    rw [Table.get?_insert] at ha
    split at ha
    · cases ha
      exact ⟨s.lastUid + 1, Nat.lt_succ_of_le h.low_le, Nat.le_refl _, rfl⟩
    · obtain ⟨n, hlow, hn, hu⟩ := h.numbered ha
      exact ⟨n, hlow, Nat.le_succ_of_le hn, hu⟩
  distinct {a b u} ha hb := by
    -- an identifier that was given before has a smaller number
    have hold : ∀ {c}, uids.get? c = some (Uid.ofNat (s.lastUid + 1)).text → False := by
      intro c hc
      obtain ⟨n, -, hn, hu⟩ := h.numbered hc
      have := Uid.ofNat_injective hu
      simp only at hn
      omega
    rw [Table.get?_insert] at ha hb
    split at ha
    · cases ha
      split at hb
      · rename_i hac hbc
        exact hac.trans hbc.symm
      · exact (hold hb).elim
    · split at hb
      · cases hb
        exact (hold ha).elim
      · exact h.distinct ha hb

/-- The identifier that a new node is given is looked up under its name. -/
theorem uidOf_spec (s : Store) (uids : NewUids) (b : BlankNode) :
    Names (s, uids) (s.uidOf uids b).2 ∧
      (s.uidOf uids b).2.2.get? b.name = some (s.uidOf uids b).1 := by
  unfold uidOf
  cases h : uids.get? b.name with
  | some u => exact ⟨.refl _, h⟩
  | none =>
    refine ⟨⟨rfl, fun name u hu => ?_, fun low hlow => allots_insert hlow⟩, ?_⟩
    · have hne : name ≠ b.name := fun heq => by rw [heq, h] at hu; cases hu
      simpa [Table.get?_insert, hne] using hu
    · exact Table.get?_insert_self _ _ _

theorem subjectUid_spec (s : Store) (uids : NewUids) (x : Subject) :
    Names (s, uids) (s.subjectUid uids x).2 ∧
      (s.subjectUid uids x).1 = x.stored? (s.subjectUid uids x).2.2 ∧
      (s.subjectUid uids x).1.isSome = x.isNode := by
  cases x with
  | new b => exact ⟨(uidOf_spec s uids b).1, (uidOf_spec s uids b).2.symm, rfl⟩
  | _ => exact ⟨.refl _, rfl, rfl⟩

theorem objectText_spec (s : Store) (uids : NewUids) (x : Operand) :
    Names (s, uids) (s.objectText uids x).2 ∧
      (s.objectText uids x).1 = x.stored? (s.objectText uids x).2.2 ∧
      (s.objectText uids x).1.isSome = x.isStorable := by
  cases x with
  | new b => exact ⟨(uidOf_spec s uids b).1, (uidOf_spec s uids b).2.symm, rfl⟩
  | _ => exact ⟨.refl _, rfl, rfl⟩

/-! ### Setting statements -/

theorem types_addStatement (schema : Schema) (p v : String) (n : Node) :
    (addStatement schema p v n).types =
      if p = Search.typeKey then setValue true n.types v else n.types := by
  unfold addStatement
  split
  · exact Node.types_addType n v
  · rfl

theorem values_addStatement (schema : Schema) {p q v : String} (n : Node)
    (hq : q ≠ Search.typeKey) :
    (addStatement schema p v n).values q =
      if p = q then setValue (isList schema q) (n.values q) v else n.values q := by
  unfold addStatement
  by_cases hp : p = Search.typeKey
  · have hpq : p ≠ q := fun heq => hq (heq ▸ hp)
    rw [if_pos hp, if_neg hpq, Node.values_addType]
  · rw [if_neg hp, Node.values_put]
    by_cases hpq : p = q
    · simp [hpq]
    · simp [hpq, Ne.symm hpq]

theorem nodeAt_upsert (s : Store) (u : String) (f : Node → Node) (w : String) :
    (s.upsert u f).nodeAt w = if w = u then f (s.nodeAt w) else s.nodeAt w := by
  unfold nodeAt node? upsert
  rw [Table.get?_insert]
  by_cases h : w = u
  · simp [h]
  · simp [h]

theorem valuesAt_upsert (schema : Schema) (s : Store) {p q u v w : String}
    (hq : q ≠ Search.typeKey) :
    (s.upsert u (addStatement schema p v)).valuesAt w q =
      if p = q ∧ u = w then setValue (isList schema q) (s.valuesAt w q) v
      else s.valuesAt w q := by
  unfold valuesAt
  rw [nodeAt_upsert]
  by_cases hw : w = u
  · rw [if_pos hw, values_addStatement schema _ hq]
    simp [hw]
  · simp [hw, Ne.symm hw]

theorem typesAt_upsert (schema : Schema) (s : Store) (p u v w : String) :
    (s.upsert u (addStatement schema p v)).typesAt w =
      if p = Search.typeKey ∧ u = w then setValue true (s.typesAt w) v else s.typesAt w := by
  unfold typesAt
  rw [nodeAt_upsert]
  by_cases hw : w = u
  · rw [if_pos hw, types_addStatement]
    simp [hw]
  · simp [hw, Ne.symm hw]

/-- What setting a statement does: its ends get their identifiers, and the value is
entered if both of them can be stored. -/
theorem set_cases (schema : Schema) (st : Store × NewUids) (q : Statement) :
    ∃ mid, Names st mid ∧
      ((q.isStorable = true ∧ ∃ w v, q.subject.stored? mid.2 = some w ∧
          q.object.value.stored? mid.2 = some v ∧
          set schema st q = (mid.1.upsert w (addStatement schema q.predicate v), mid.2)) ∨
        (q.isStorable = false ∧ set schema st q = mid)) := by
  have hsubject := subjectUid_spec st.1 st.2 q.subject
  unfold set Statement.isStorable
  generalize st.1.subjectUid st.2 q.subject = named at hsubject ⊢
  obtain ⟨_ | w, s, uids⟩ := named
  all_goals obtain ⟨hnames, hstored, hnode⟩ := hsubject
  · exact ⟨(s, uids), hnames, .inr ⟨by simp [← hnode], rfl⟩⟩
  · have hobject := objectText_spec s uids q.object.value
    simp only
    generalize s.objectText uids q.object.value = named at hobject ⊢
    obtain ⟨_ | v, s', uids'⟩ := named
    all_goals obtain ⟨hnames', hstored', hvalue⟩ := hobject
    · exact ⟨(s', uids'), hnames.trans hnames', .inr ⟨by simp [← hvalue], rfl⟩⟩
    · refine ⟨(s', uids'), hnames.trans hnames', .inl ⟨by simp [← hnode, ← hvalue], w, v, ?_⟩⟩
      exact ⟨Subject.stored?_mono hnames'.within hstored.symm, hstored'.symm, rfl⟩

/-- The values that statements tell of a predicate at a node, in order. -/
def told (uids : NewUids) (w p : String) (qs : List Statement) : List String :=
  qs.filterMap (·.tells? uids w p)

theorem told_append (uids : NewUids) (w p : String) (qs rs : List Statement) :
    told uids w p (qs ++ rs) = told uids w p qs ++ told uids w p rs :=
  List.filterMap_append

theorem mem_told {uids : NewUids} {w p v : String} {qs : List Statement} :
    v ∈ told uids w p qs ↔ ∃ q ∈ qs, q.predicate = p ∧ q.subject.stored? uids = some w ∧
      q.object.value.stored? uids = some v := by
  simp only [told, List.mem_filterMap, Statement.tells?, Option.ite_none_right_eq_some, and_assoc]

/-- What setting statements makes of a store, once it is known which identifiers new nodes
get in the end. -/
structure Sets (schema : Schema) (qs : List Statement) (st st' : Store × NewUids) : Prop where
  within : st.2.Within st'.2
  allots : ∀ low, Allots low st → Allots low st'
  stored : ∀ q ∈ qs, q.isStorable = true →
    ∃ w v, q.subject.stored? st'.2 = some w ∧ q.object.value.stored? st'.2 = some v
  valuesAt : ∀ w p, p ≠ Search.typeKey →
    st'.1.valuesAt w p = setValues (isList schema p) (st.1.valuesAt w p) (told st'.2 w p qs)
  typesAt : ∀ w, st'.1.typesAt w =
    setValues true (st.1.typesAt w) (told st'.2 w Search.typeKey qs)

theorem Sets.nil (schema : Schema) (st : Store × NewUids) : Sets schema [] st st where
  within := .refl _
  allots _ h := h
  stored _ h := by cases h
  valuesAt _ _ _ := rfl
  typesAt _ := rfl

theorem Names.sets_nil {schema : Schema} {st st' : Store × NewUids} (h : Names st st') :
    Sets schema [] st st' where
  within := h.within
  allots := h.allots
  stored _ hq := by cases hq
  valuesAt w p _ := congrArg (Node.values · p) (h.nodeAt_eq w)
  typesAt w := congrArg Node.types (h.nodeAt_eq w)

theorem sets_single (schema : Schema) (st : Store × NewUids) (q : Statement) :
    Sets schema [q] st (set schema st q) := by
  obtain ⟨mid, hnames, ⟨-, w, v, hw, hv, hset⟩ | ⟨hq, hset⟩⟩ := set_cases schema st q
  · have htold : ∀ w' p, told mid.2 w' p [q] = if q.predicate = p ∧ w = w' then [v] else [] := by
      intro w' p
      simp only [told, Statement.tells?, hw, hv, Option.some.injEq, List.filterMap_cons,
        List.filterMap_nil]
      split <;> simp_all
    rw [hset]
    refine ⟨hnames.within, fun low h => ?_, fun q' hq' _ => ?_, fun w' p hp => ?_, fun w' => ?_⟩
    · exact ⟨(hnames.allots low h).low_le, (hnames.allots low h).numbered,
        (hnames.allots low h).distinct⟩
    · rw [List.mem_singleton.1 hq']
      exact ⟨w, v, hw, hv⟩
    · rw [valuesAt_upsert schema _ hp, htold, valuesAt, valuesAt, hnames.nodeAt_eq]
      split <;> rfl
    · rw [typesAt_upsert, htold, typesAt, typesAt, hnames.nodeAt_eq]
      split <;> rfl
  · have htold : ∀ w' p, told mid.2 w' p [q] = [] := fun w' p => by
      simp [told, Statement.tells?_of_not_storable hq]
    rw [hset]
    have hnil : Sets schema [] _ _ := hnames.sets_nil
    refine ⟨hnil.within, hnil.allots, fun q' hq' hstorable => ?_, fun w' p hp => ?_, fun w' => ?_⟩
    · rw [List.mem_singleton.1 hq', hq] at hstorable
      cases hstorable
    · rw [htold]
      exact hnil.valuesAt w' p hp
    · rw [htold]
      exact hnil.typesAt w'

/-- Later statements do not change what is told by earlier ones. -/
theorem Sets.told_eq {schema : Schema} {qs : List Statement} {a b : Store × NewUids}
    (h : Sets schema qs a b) {uids : NewUids} (hb : b.2.Within uids) (w p : String) :
    told uids w p qs = told b.2 w p qs := by
  refine List.filterMap_congr fun q hq => ?_
  cases hstorable : q.isStorable with
  | false => simp [Statement.tells?_of_not_storable hstorable]
  | true =>
    obtain ⟨x, y, hx, hy⟩ := h.stored q hq hstorable
    simp only [Statement.tells?, hx, hy, Subject.stored?_mono hb hx, Operand.stored?_mono hb hy]

theorem Sets.append {schema : Schema} {qs rs : List Statement} {a b c : Store × NewUids}
    (hab : Sets schema qs a b) (hbc : Sets schema rs b c) : Sets schema (qs ++ rs) a c where
  within := hab.within.trans hbc.within
  allots low h := hbc.allots low (hab.allots low h)
  stored q hq hstorable := by
    rcases List.mem_append.1 hq with hq | hq
    · obtain ⟨w, v, hw, hv⟩ := hab.stored q hq hstorable
      exact ⟨w, v, Subject.stored?_mono hbc.within hw, Operand.stored?_mono hbc.within hv⟩
    · exact hbc.stored q hq hstorable
  valuesAt w p hp := by
    rw [told_append, setValues_append, hab.told_eq hbc.within, ← hab.valuesAt w p hp]
    exact hbc.valuesAt w p hp
  typesAt w := by
    rw [told_append, setValues_append, hab.told_eq hbc.within, ← hab.typesAt w]
    exact hbc.typesAt w

/-- Statements set one by one. -/
theorem sets_foldl (schema : Schema) (st : Store × NewUids) (qs : List Statement) :
    Sets schema qs st (qs.foldl (set schema) st) := by
  induction qs generalizing st with
  | nil => exact (Names.refl st).sets_nil
  | cons q qs ih => exact (sets_single schema st q).append (ih _)

/-! ### Whole commits -/

/-- Whether one of several statements to be deleted takes a value from a node. -/
def struck (vars : Table (List String)) (qs : List Statement) (w p v : String) : Bool :=
  qs.any (·.strikes vars w p v)

theorem valuesAt_foldl_delete (s : Store) (vars : Table (List String)) (qs : List Statement)
    (w p : String) :
    (qs.foldl (fun s q => s.delete vars q) s).valuesAt w p =
      (s.valuesAt w p).filter fun v => !struck vars qs w p v := by
  induction qs generalizing s with
  | nil => exact (List.filter_eq_self.2 fun _ _ => rfl).symm
  | cons q qs ih =>
    rw [List.foldl_cons, ih, valuesAt_delete, List.filter_filter]
    refine List.filter_congr fun v _ => ?_
    simp [struck, Bool.and_comm]

theorem typesAt_foldl_delete (s : Store) (vars : Table (List String)) (qs : List Statement)
    (w : String) : (qs.foldl (fun s q => s.delete vars q) s).typesAt w = s.typesAt w := by
  induction qs generalizing s with
  | nil => rfl
  | cons q qs ih => rw [List.foldl_cons, ih, typesAt_delete]

theorem lastUid_foldl_delete (s : Store) (vars : Table (List String)) (qs : List Statement) :
    (qs.foldl (fun s q => s.delete vars q) s).lastUid = s.lastUid := by
  induction qs generalizing s with
  | nil => rfl
  | cons q qs ih =>
    rw [List.foldl_cons, ih, delete_eq]
    cases deletion? q <;> rfl

variable (schema : Schema) (s : Store) (m : Mutation)

/-- The values of a predicate after a commit: of the old ones those that no deletion
strikes, and then the ones that the set statements tell. -/
theorem commit_valuesAt (w : String) {p : String} (hp : p ≠ Search.typeKey) :
    (commit schema s m).1.valuesAt w p =
      setValues (isList schema p)
        ((s.valuesAt w p).filter fun v => !struck (s.bind m.prelude) m.delete w p v)
        (told (commit schema s m).2 w p m.set) := by
  rw [← valuesAt_foldl_delete]
  exact (sets_foldl schema _ m.set).valuesAt w p hp

/-- The types of a node after a commit: the old ones, and those that it is given. -/
theorem commit_typesAt (w : String) :
    (commit schema s m).1.typesAt w =
      setValues true (s.typesAt w) (told (commit schema s m).2 w Search.typeKey m.set) := by
  rw [← typesAt_foldl_delete s (s.bind m.prelude) m.delete]
  exact (sets_foldl schema _ m.set).typesAt w

/-- A commit gives identifiers to new names only above the last number of the store. -/
theorem commit_allots : Allots s.lastUid (commit schema s m) := by
  refine (sets_foldl schema _ m.set).allots _ ?_
  rw [← lastUid_foldl_delete s (s.bind m.prelude) m.delete]
  exact allots_empty _

/-- Where the numbers above the last one are no node's, no new node is a stored one. -/
theorem commit_get?_ne (hfresh : s.Fresh) {w : String} (hw : s.node? w ≠ none) (name : String) :
    (commit schema s m).2.get? name ≠ some w := by
  intro h
  obtain ⟨n, hn, -, rfl⟩ := (commit_allots schema s m).numbered h
  exact hw (hfresh n hn)

/-- After a commit the nodes that have values have identifiers, if they had them before. -/
theorem commit_sound (hs : s.Sound) : (commit schema s m).1.Sound := by
  intro w p v hp hv
  rw [commit_valuesAt schema s m w hp] at hv
  rcases mem_setValues_of_mem hv with hv | hv
  · exact hs w p v hp (List.mem_filter.1 hv).1
  · obtain ⟨q, -, -, hw, -⟩ := mem_told.1 hv
    cases hq : q.subject with
    | existing u =>
      rw [hq] at hw
      exact ⟨u, Option.some.inj hw⟩
    | new b =>
      rw [hq] at hw
      obtain ⟨n, -, -, rfl⟩ := (commit_allots schema s m).numbered hw
      exact ⟨Uid.ofNat n, rfl⟩
    | var x =>
      rw [hq] at hw
      cases hw

/-- Both ends of a statement that is set are stored, if they can be. -/
theorem commit_stored {q : Statement} (hq : q ∈ m.set) (hstorable : q.isStorable = true) :
    ∃ w v, q.subject.stored? (commit schema s m).2 = some w ∧
      q.object.value.stored? (commit schema s m).2 = some v :=
  (sets_foldl schema _ m.set).stored q hq hstorable

end Store

end PressRegister
