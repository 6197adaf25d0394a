import PressRegister.Proofs.Store.Commit

/-!
# The nodes of a store after a commit

No commit takes a node away. The nodes that it makes are the subjects of the statements
that it sets: where those are new nodes or nodes that are there, the numbers above the
last one stay unused.

## Main results

* `Store.node?_commit`: the nodes after a commit.
* `Store.Fresh.commit`: numbers above the last one stay unused.
-/

namespace PressRegister.Store

theorem node?_upsert (s : Store) (u : String) (f : Node → Node) (w : String) :
    (s.upsert u f).node? w ≠ none ↔ s.node? w ≠ none ∨ u = w := by
  unfold upsert node?
  rw [Table.get?_insert]
  split <;> simp_all [eq_comm]

theorem node?_delete (s : Store) (vars : Table (List String)) (q : Statement) (w : String) :
    (s.delete vars q).node? w ≠ none ↔ s.node? w ≠ none := by
  rw [delete_eq]
  cases hf : deletion? q with
  | none => rfl
  | some f =>
    rw [Option.map_some, Option.getD_some, node?_change (settles_deletion hf)]
    split <;> simp

theorem node?_foldl_delete (s : Store) (vars : Table (List String)) (qs : List Statement)
    (w : String) :
    (qs.foldl (fun s q => s.delete vars q) s).node? w ≠ none ↔ s.node? w ≠ none := by
  induction qs generalizing s with
  | nil => rfl
  | cons q qs ih => rw [List.foldl_cons, ih, node?_delete]

/-- A statement that can be stored makes the node that it is about. -/
theorem node?_set (schema : Schema) (st : Store × NewUids) (q : Statement) (w : String) :
    (set schema st q).1.node? w ≠ none ↔ st.1.node? w ≠ none ∨
      q.isStorable = true ∧ q.subject.stored? (set schema st q).2 = some w := by
  obtain ⟨mid, hnames, ⟨hq, x, v, hx, -, hset⟩ | ⟨hq, hset⟩⟩ := set_cases schema st q
  · have hnodes : mid.1.node? w = st.1.node? w := congrArg (Table.get? · w) hnames.nodes
    rw [hset, node?_upsert, hnodes, hx]
    simp [hq]
  · have hnodes : mid.1.node? w = st.1.node? w := congrArg (Table.get? · w) hnames.nodes
    rw [hset, hnodes]
    simp [hq]

/-- Of a statement that was set, the subject is known by the identifiers that are given in the
end. -/
theorem stored?_set_iff (schema : Schema) (st : Store × NewUids) {q : Statement}
    (hq : q.isStorable = true) {uids : NewUids} (h : (set schema st q).2.Within uids)
    (w : String) :
    q.subject.stored? (set schema st q).2 = some w ↔ q.subject.stored? uids = some w := by
  refine ⟨Subject.stored?_mono h, fun hw => ?_⟩
  obtain ⟨x, -, hx, -⟩ := (sets_single schema st q).stored q (List.mem_singleton_self q) hq
  rw [hx, ← hw, Subject.stored?_mono h hx]

theorem node?_foldl_set (schema : Schema) (st : Store × NewUids) (qs : List Statement)
    (w : String) :
    (qs.foldl (set schema) st).1.node? w ≠ none ↔ st.1.node? w ≠ none ∨
      ∃ q ∈ qs, q.isStorable = true ∧
        q.subject.stored? (qs.foldl (set schema) st).2 = some w := by
  induction qs generalizing st with
  | nil => simp
  | cons q qs ih =>
    have hwithin := (sets_foldl schema (set schema st q) qs).within
    rw [List.foldl_cons, ih, node?_set, List.exists_mem_cons_iff, or_assoc]
    refine or_congr_right (or_congr_left (and_congr_right fun hq => ?_))
    exact stored?_set_iff schema st hq hwithin w

/-- A node that is put in has the types that it is given. -/
theorem typesAt_addNode (s : Store) (types : List String) (fields : List (String × String))
    (w : String) : (s.addNode types fields).2.typesAt w =
      if w = (Uid.ofNat (s.lastUid + 1)).text then types else s.typesAt w := by
  unfold addNode typesAt nodeAt node?
  simp only [Table.get?_insert]
  split <;> rfl

variable {schema : Schema} {s : Store} {m : Mutation} {w : String}

/-- The nodes after a commit: the old ones, and those that something is stored of. -/
theorem node?_commit :
    (commit schema s m).1.node? w ≠ none ↔ s.node? w ≠ none ∨
      ∃ q ∈ m.set, q.isStorable = true ∧
        q.subject.stored? (commit schema s m).2 = some w := by
  rw [← node?_foldl_delete s (s.bind m.prelude) m.delete]
  exact node?_foldl_set schema _ m.set w

/-- Nodes that are there stay there. -/
theorem node?_commit_of_node? (h : s.node? w ≠ none) : (commit schema s m).1.node? w ≠ none :=
  node?_commit.2 (.inl h)

/-- Nodes of which something is told are there. -/
theorem node?_of_mem_told {p v : String} (hv : v ∈ told (commit schema s m).2 w p m.set) :
    (commit schema s m).1.node? w ≠ none := by
  obtain ⟨q, hq, -, hw, hv⟩ := mem_told.1 hv
  refine node?_commit.2 (.inr ⟨q, hq, ?_, hw⟩)
  have hsubject : q.subject.isNode = true := by
    cases hx : q.subject <;> simp_all [Subject.stored?, Subject.isNode]
  have hobject : q.object.value.isStorable = true := by
    cases hx : q.object.value <;> simp_all [Operand.stored?, Operand.isStorable]
  rw [Statement.isStorable, hsubject, hobject]
  rfl

/-- If what is set of stored nodes is set of nodes that are there, the numbers above the last one
stay unused. -/
theorem Fresh.commit (hs : s.Fresh)
    (hm : ∀ q ∈ m.set, ∀ u, q.subject = .existing u → s.node? u.text ≠ none) :
    (commit schema s m).1.Fresh := by
  intro n hn
  have hlow := (commit_allots schema s m).low_le
  by_contra hnode
  rcases node?_commit.1 hnode with hold | ⟨q, hq, -, hw⟩
  · exact hold (hs n (by omega))
  · cases hsubject : q.subject with
    | existing u =>
      rw [hsubject] at hw
      have hu : u.text = (Uid.ofNat n).text := Option.some.inj hw
      exact hm q hq u hsubject (hu ▸ hs n (by omega))
    | new b =>
      rw [hsubject] at hw
      obtain ⟨k, -, hk, htext⟩ := (commit_allots schema s m).numbered hw
      have := Uid.ofNat_injective htext
      omega
    | var v =>
      rw [hsubject] at hw
      cases hw

end PressRegister.Store
