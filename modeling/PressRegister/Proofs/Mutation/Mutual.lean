import PressRegister.Proofs.Mutation.Clearing
import PressRegister.Proofs.Mutation.Telling

/-!
# Edges that are stored at both ends

A mutual field is written from both of its ends and cleared at both of them. A mutation
is compiled from what a store was like, and may be carried out in a later one. It keeps
the edges symmetric all the same: what it sets comes in pairs, and what it clears of a
node it finds from the node and from the nodes at the other ends alike, as long as all
nodes with such edges are of the type that the clearing is limited to.

## Main definitions

* `Schema.IsMutual`: a field is stored at both ends, between nodes of one type.
* `Store.IsSymmetric`, `Store.LinksOnly`: edges lead both ways, between nodes of one type.
* `Mutation.Pairs`: what a mutation sets comes in pairs.

## Main results

* `Mutation.Pairs.mono`: pairs stay pairs as nodes get further types.
* `Mutation.Pairs.commit_isSymmetric`, `Mutation.Pairs.commit_linksOnly`: edges stay symmetric.
-/

namespace PressRegister

open Store

/-- A field is stored at both ends of its edges, which lead from nodes of one type to nodes of
that type. -/
structure Schema.IsMutual (schema : Schema) (name tag : String) : Prop where
  direction : schema.direction? name = some .mutual
  owners : ∀ p, schema.predicate? name = some p → Mutation.owners p = [tag]
  isList : Store.isList schema name = true
  /-- No other field is stored under the name. -/
  alone : ∀ key, key ≠ name → schema.edge key ≠ name
  notTypes : name ≠ Search.typeKey

/-- The edges under a name lead both ways. -/
def Store.IsSymmetric (s : Store) (name : String) : Prop :=
  ∀ a b, b ∈ s.valuesAt a name → a ∈ s.valuesAt b name

/-- The edges under a name lead from nodes of a type to nodes of that type. -/
def Store.LinksOnly (s : Store) (name tag : String) : Prop :=
  ∀ a b, b ∈ s.valuesAt a name → tag ∈ s.typesAt a ∧ tag ∈ s.typesAt b

/-- No commit takes a type from a node. -/
theorem Store.mem_typesAt_commit {schema : Schema} {s : Store} {m : Mutation} {w tag : String}
    (h : tag ∈ s.typesAt w) : tag ∈ (commit schema s m).1.typesAt w := by
  rw [commit_typesAt]
  exact mem_setValues_true.2 (.inl h)

namespace Mutation

/-- A subject is of a type once a mutation is carried out: it is stored as such, or it is a new
node of which the mutation says so. -/
def Types (m : Mutation) (s : Store) (tag : String) : Subject → Prop
  | .existing u => tag ∈ s.typesAt u.text
  | .new b => Statement.plain (.new b) Search.typeKey (.literal (.text tag)) ∈ m.set
  | .var _ => False

/-- The edges that a mutation sets under a name come in pairs, between nodes of a type. -/
structure Pairs (schema : Schema) (s : Store) (name tag : String) (m : Mutation) : Prop where
  /-- Nothing is deleted but predicates of one node. -/
  clears : ∃ (u : Uid) (names : List String) (c : Mutation),
    clearings schema (names.map fun other => (u, other)) = .ok c ∧
      m.prelude = c.prelude ∧ m.delete = c.delete
  converse : ∀ q ∈ m.set, q.predicate = name → ∃ q' ∈ m.set, q'.predicate = name ∧
    q.object.value = q'.subject.operand ∧ q'.object.value = q.subject.operand
  ends : ∀ q ∈ m.set, q.predicate = name → m.Types s tag q.subject

variable {schema : Schema} {s s' : Store} {name tag : String} {m : Mutation}

/-- A node that a mutation leaves of a type has the type after the commit. -/
theorem Types.mem_typesAt {x : Subject} (h : m.Types s tag x) {w : String}
    (hw : x.stored? (commit schema s m).2 = some w) : tag ∈ (commit schema s m).1.typesAt w := by
  cases x with
  | existing u =>
    obtain rfl : u.text = w := Option.some.inj hw
    exact mem_typesAt_commit h
  | new b =>
    rw [commit_typesAt]
    exact mem_setValues_true.2 (.inr (mem_told.2 ⟨_, h, rfl, hw, rfl⟩))
  | var v => exact h.elim

namespace Pairs

/-- Pairs stay pairs as nodes get further types. -/
theorem mono (h : m.Pairs schema s name tag) (htypes : ∀ w, tag ∈ s.typesAt w → tag ∈ s'.typesAt w) :
    m.Pairs schema s' name tag where
  clears := h.clears
  converse := h.converse
  ends q hq hname := by
    have hend := h.ends q hq hname
    cases hsubject : q.subject with
    | existing u =>
      rw [hsubject] at hend
      exact htypes _ hend
    | new b =>
      rw [hsubject] at hend
      exact hend
    | var v =>
      rw [hsubject] at hend
      exact hend.elim

/-- An edge is taken together with its converse: from the node that is cleared, and from the
nodes of the type that lead to it. -/
theorem struck_converse (hmutual : schema.IsMutual name tag) (h : m.Pairs schema s name tag)
    (hsymmetric : s.IsSymmetric name) (hlinks : s.LinksOnly name tag) {a b : String}
    (hb : b ∈ s.valuesAt a name) (hstruck : struck (s.bind m.prelude) m.delete a name b = true) :
    struck (s.bind m.prelude) m.delete b name a = true := by
  obtain ⟨u, names, c, hc, hprelude, hdelete⟩ := h.clears
  rw [hprelude, hdelete] at hstruck ⊢
  rw [struck_clearings hc hb] at hstruck
  rw [struck_clearings hc (hsymmetric a b hb)]
  obtain ⟨other, hother, p, hp, hclears⟩ := hstruck
  refine ⟨other, hother, p, hp, ?_⟩
  have hdirection : schema.direction? other = p.direction? := by
    rw [Schema.direction?, hp]
    rfl
  have hcarries (w : String) (hw : tag ∈ s.typesAt w) (heq : other = name) :
      s.Carries (Mutation.owners p) w := by
    rw [hmutual.owners p (heq ▸ hp)]
    exact .inr ⟨tag, List.mem_singleton_self tag, hw⟩
  unfold Clears at hclears ⊢
  split at hclears
  · rename_i edge hreverse
    -- no reverse field is stored under the name
    have hedge : schema.edge other = name := by
      rw [Schema.edge, hdirection, hreverse]
      exact hclears.1.symm
    have heq : other = name := by
      by_contra hne
      exact hmutual.alone other hne hedge
    rw [heq, hmutual.direction] at hdirection
    rw [← hdirection] at hreverse
    cases hreverse
  · obtain ⟨rfl, hends⟩ := hclears
    rcases hends with ha | ⟨hb', -⟩
    · exact ⟨rfl, .inr ⟨ha, hcarries b (hlinks a b hb).2 rfl⟩⟩
    · exact ⟨rfl, .inl hb'⟩
  · rename_i hreverse hmut
    obtain ⟨rfl, -⟩ := hclears
    rw [hmutual.direction] at hdirection
    exact absurd hdirection.symm hmut

/-- The edges that are told come in pairs as well. -/
theorem told_converse (h : m.Pairs schema s name tag) {uids : NewUids} {a b : String}
    (hb : b ∈ told uids a name m.set) : a ∈ told uids b name m.set := by
  obtain ⟨q, hq, hname, hsubject, hobject⟩ := mem_told.1 hb
  obtain ⟨q', hq', hname', hvalue, hvalue'⟩ := h.converse q hq hname
  rw [hvalue, Subject.stored?_operand] at hobject
  refine mem_told.2 ⟨q', hq', hname', hobject, ?_⟩
  rw [hvalue', Subject.stored?_operand, hsubject]

theorem mem_valuesAt_commit (hmutual : schema.IsMutual name tag) {a b : String} :
    b ∈ (commit schema s m).1.valuesAt a name ↔
      b ∈ s.valuesAt a name ∧ struck (s.bind m.prelude) m.delete a name b = false ∨
        b ∈ told (commit schema s m).2 a name m.set := by
  rw [commit_valuesAt _ _ _ _ hmutual.notTypes, hmutual.isList, mem_setValues_true, List.mem_filter,
    Bool.not_eq_true']

/-- A commit keeps the edges symmetric. -/
theorem commit_isSymmetric (hmutual : schema.IsMutual name tag) (h : m.Pairs schema s name tag)
    (hsymmetric : s.IsSymmetric name) (hlinks : s.LinksOnly name tag) :
    (commit schema s m).1.IsSymmetric name := by
  intro a b hb
  rw [mem_valuesAt_commit hmutual] at hb ⊢
  rcases hb with ⟨hb, hkept⟩ | hb
  · have ha := hsymmetric a b hb
    refine .inl ⟨ha, Bool.eq_false_iff.2 fun hstruck => ?_⟩
    rw [h.struck_converse hmutual hsymmetric hlinks ha hstruck] at hkept
    cases hkept
  · exact .inr (h.told_converse hb)

/-- A commit keeps the edges between nodes of the type. -/
theorem commit_linksOnly (hmutual : schema.IsMutual name tag) (h : m.Pairs schema s name tag)
    (hlinks : s.LinksOnly name tag) : (commit schema s m).1.LinksOnly name tag := by
  have hend {a b : String} (hb : b ∈ told (commit schema s m).2 a name m.set) :
      tag ∈ (commit schema s m).1.typesAt a := by
    obtain ⟨q, hq, hname, hsubject, -⟩ := mem_told.1 hb
    exact (h.ends q hq hname).mem_typesAt hsubject
  intro a b hb
  rcases (mem_valuesAt_commit hmutual).1 hb with ⟨hb, -⟩ | hb
  · obtain ⟨ha, hb⟩ := hlinks a b hb
    exact ⟨mem_typesAt_commit ha, mem_typesAt_commit hb⟩
  · exact ⟨hend hb, hend (h.told_converse hb)⟩

end Pairs

end Mutation

end PressRegister
