import PressRegister.Proofs.Consult
import PressRegister.Proofs.Store.Commit

/-!
# What clearing a predicate takes

A predicate is cleared wherever its values are stored: on the node itself, on the
nodes at the other ends of its edges, or on both. The nodes at the other ends are
bound before anything is deleted, and only those of the types that the predicate
allows.

## Main definitions

* `Store.Carries`: a node is of one of several types.
* `Mutation.Clears`: clearing a predicate takes a value from a node.
* `Mutation.variableName`: the name of the variable for a predicate of a node.

## Main results

* `Store.bind_get?`: what a block of a prelude binds.
* `Mutation.variableName_injective`: the name of a variable tells what it is for.
* `Mutation.struck_clearings`: the deletions of a mutation take what is cleared, and nothing
  else.
-/

namespace PressRegister

/-! ### Preludes -/

namespace Node

theorem passesAny_iff (n : Node) (fs : List Filter) :
    n.passesAny fs = true ↔ ∃ f ∈ fs, n.passes f = true := by
  induction fs with
  | nil => simp [passesAny]
  | cons f fs ih => simp [passesAny, ih]

theorem passes_allOf? (n : Node) (fs : List Filter) :
    ((Filter.allOf? fs).map n.passes).getD true = n.passesAll fs := by
  match fs with
  | [] => rfl
  | [f] => simp [Filter.allOf?, passesAll]
  | f :: g :: rest => simp [Filter.allOf?, passes]

theorem passesAll_anyOf? (n : Node) {fs : List Filter} :
    n.passesAll (Filter.anyOf? fs).toList = true ↔ fs = [] ∨ n.passesAny fs = true := by
  match fs with
  | [] => simp [Filter.anyOf?, passesAll]
  | [f] => simp [Filter.anyOf?, passesAll, passesAny]
  | f :: g :: rest => simp [Filter.anyOf?, passesAll, passes]

end Node

namespace Store

/-- A node is of one of several types; any node is, if there are none to choose from. -/
def Carries (s : Store) (types : List String) (w : String) : Prop :=
  types = [] ∨ ∃ t ∈ types, t ∈ s.typesAt w

/-- A block of a prelude binds its nodes, if no other block has its name. -/
theorem bind_get? (s : Store) {prelude : List Block} {b : Block} (hb : b ∈ prelude)
    (hvar : b.bindsVar = true) (hsame : ∀ c ∈ prelude, c.name = b.name → c = b) :
    (s.bind prelude).get? b.name = some (s.boundBy b) := by
  have hfold : ∀ (blocks : List Block) (vars : Table (List String)),
      (∀ c ∈ blocks, c.name = b.name → c = b) →
      b ∈ blocks ∨ vars.get? b.name = some (s.boundBy b) →
      (blocks.foldl (fun vars b => vars.insert b.name (s.boundBy b)) vars).get? b.name =
        some (s.boundBy b) := by
    intro blocks
    induction blocks with
    | nil =>
      rintro vars - (h | h)
      · cases h
      · exact h
    | cons c rest ih =>
      intro vars hnames h
      rw [List.foldl_cons]
      refine ih _ (fun d hd => hnames d (List.mem_cons_of_mem _ hd)) ?_
      by_cases hc : c.name = b.name
      · rw [hnames c List.mem_cons_self hc]
        exact .inr (Table.get?_insert_self _ _ _)
      · rw [Table.get?_insert, if_neg (Ne.symm hc)]
        rcases h with h | h
        · rcases List.mem_cons.1 h with h | h
          · exact absurd (congrArg Block.name h.symm) hc
          · exact .inl h
        · exact .inr h
  refine hfold _ _ (fun c hc => hsame c (List.mem_filter.1 hc).1) (.inl ?_)
  exact List.mem_filter.2 ⟨hb, hvar⟩

theorem mem_boundBy {s : Store} {b : Block} {w : String} :
    w ∈ s.boundBy b ↔ ∃ n, s.node? w = some n ∧ n.passes b.func = true ∧
      (b.filter.map n.passes).getD true = true := by
  unfold boundBy
  rw [Table.mem_keys_iff]
  simp only [Table.get?_filter, Option.filter_eq_some_iff, Bool.and_eq_true]
  rfl

/-- The owners of an edge are the nodes of owning types that have it. -/
theorem mem_boundBy_ownersBlock {s : Store} {var edge w : String} {u : Uid}
    {owners : List String} :
    w ∈ s.boundBy (Mutation.ownersBlock var edge u owners) ↔
      u.text ∈ s.valuesAt w edge ∧ s.Carries owners w := by
  rw [mem_boundBy]
  simp only [Mutation.ownersBlock, Block.binding, Node.passes_allOf?, Node.passesAll,
    Bool.and_eq_true, Node.passesAll_anyOf?, List.map_eq_nil_iff, Node.passesAny_iff,
    List.mem_map, exists_exists_and_eq_and, Node.passes, List.contains_iff_mem]
  constructor
  · rintro ⟨n, hn, -, huid, htypes⟩
    rw [valuesAt, Carries, typesAt, nodeAt_of_node? hn]
    exact ⟨huid, htypes⟩
  · rintro ⟨huid, htypes⟩
    obtain ⟨n, hn⟩ := exists_node_of_mem_valuesAt huid
    rw [valuesAt, nodeAt_of_node? hn] at huid
    rw [Carries, typesAt, nodeAt_of_node? hn] at htypes
    exact ⟨n, hn, by simp [List.ne_nil_of_mem huid], huid, htypes⟩

end Store

namespace Mutation

/-! ### Clearings -/

/-- The types that own the edges of a predicate. -/
def owners (p : Predicate) : List String :=
  (p.relationship?.map (·.constraint)).getD []

/-- Clearing a predicate of a node takes a value of a predicate from a node. -/
def Clears (s : Store) (u : Uid) (name : String) (p : Predicate) (w q v : String) : Prop :=
  match p.direction? with
  | some (.reverse edge) => q = edge ∧ v = u.text ∧ s.Carries (owners p) w
  | some .mutual => q = name ∧ (w = u.text ∨ v = u.text ∧ s.Carries (owners p) w)
  | _ => q = name ∧ w = u.text

/-- The part of a mutation that clears one predicate; nothing for an unknown one. -/
def clearingOf (schema : Schema) (u : Uid) (name : String) : Mutation :=
  ((schema.predicate? name).map fun p => clearing u p name).getD empty

theorem clearingOf_eq {schema : Schema} {u : Uid} {name : String} {p : Predicate}
    (hp : schema.predicate? name = some p) : clearingOf schema u name = clearing u p name := by
  simp [clearingOf, hp]

/-- A mutation that clears predicates is put together from the parts that clear one each. -/
theorem clearings_parts {schema : Schema} {pairs : List (Uid × String)} {m : Mutation}
    (h : clearings schema pairs = .ok m) :
    (∀ x ∈ pairs, ∃ p, schema.predicate? x.2 = some p) ∧
      m.prelude = pairs.flatMap (fun x => (clearingOf schema x.1 x.2).prelude) ∧
      m.delete = pairs.flatMap (fun x => (clearingOf schema x.1 x.2).delete) := by
  induction pairs generalizing m with
  | nil =>
    cases h
    exact ⟨fun _ hmem => (List.not_mem_nil hmem).elim, rfl, rfl⟩
  | cons x rest ih =>
    obtain ⟨u, name⟩ := x
    simp only [clearings] at h
    cases hp : schema.predicate? name with
    | none => simp [hp] at h
    | some p =>
      cases hrest : clearings schema rest with
      | error e => simp [hp, hrest, Except.map] at h
      | ok rest' =>
        obtain ⟨hknown, hprelude, hdelete⟩ := ih hrest
        simp only [hp, hrest, Except.map, Except.ok.injEq] at h
        subst h
        refine ⟨List.forall_mem_cons.2 ⟨⟨p, hp⟩, hknown⟩, ?_, ?_⟩
        · rw [List.flatMap_cons, clearingOf_eq hp, ← hprelude]
          rfl
        · rw [List.flatMap_cons, clearingOf_eq hp, ← hdelete]
          rfl

theorem clearings_ok {schema : Schema} {u : Uid} {names : List String} {m : Mutation}
    (h : clearings schema (names.map fun name => (u, name)) = .ok m) :
    (∀ name ∈ names, ∃ p, schema.predicate? name = some p) ∧
      m.prelude = names.flatMap (fun name => (clearingOf schema u name).prelude) ∧
      m.delete = names.flatMap (fun name => (clearingOf schema u name).delete) := by
  obtain ⟨hknown, hprelude, hdelete⟩ := clearings_parts h
  rw [List.flatMap_map] at hprelude hdelete
  exact ⟨fun name hname => hknown _ (List.mem_map_of_mem hname), hprelude, hdelete⟩

theorem exists_clearings {schema : Schema} {u : Uid} {names : List String}
    (h : ∀ name ∈ names, ∃ p, schema.predicate? name = some p) :
    ∃ m, clearings schema (names.map fun name => (u, name)) = .ok m := by
  induction names with
  | nil => exact ⟨_, rfl⟩
  | cons name rest ih =>
    obtain ⟨p, hp⟩ := h name List.mem_cons_self
    obtain ⟨m, hm⟩ := ih fun other hother => h other (List.mem_cons_of_mem _ hother)
    exact ⟨clearing u p name ++ m, by simp [clearings, hp, hm, Except.map]⟩

/-! ### Names of variables -/

/-- The name of the variable for a predicate of a node, with a mark. -/
def variableName (mark : String) (u : Uid) (name : String) : String :=
  mark ++ u.text ++ "_" ++ name

theorem underscore_notMem_uid (u : Uid) : '_' ∉ u.text.toList := by
  obtain ⟨digits, htext, -, hall⟩ := u.exists_digits
  rw [htext]
  simp only [List.mem_cons, not_or]
  refine ⟨by decide, by decide, fun hmem => ?_⟩
  have hdigit := List.all_eq_true.1 hall _ hmem
  revert hdigit
  decide

/-- An identifier and a name can be told apart, as an identifier holds no underscore. -/
theorem label_injective {u v : Uid} {name other : String}
    (h : u.text ++ "_" ++ name = v.text ++ "_" ++ other) : u = v ∧ name = other := by
  have hlist : u.text.toList ++ '_' :: name.toList = v.text.toList ++ '_' :: other.toList := by
    simpa using congrArg String.toList h
  have htake : ∀ w : Uid, ∀ rest : List Char,
      (w.text.toList ++ '_' :: rest).takeWhile (· != '_') = w.text.toList := fun w rest => by
    rw [List.takeWhile_append_of_pos fun c hc => ?_]
    · simp
    · have hne : c ≠ '_' := fun heq => underscore_notMem_uid w (heq ▸ hc)
      simpa using hne
  have huid : u.text.toList = v.text.toList := by
    rw [← htake u name.toList, hlist, htake]
  rw [huid] at hlist
  have hname := (List.cons.inj (List.append_cancel_left hlist)).2
  refine ⟨?_, String.toList_injective hname⟩
  cases u
  cases v
  simpa using String.toList_injective huid

/-- The name of a variable tells which predicate of which node it is for. -/
theorem variableName_injective {mark mark' : String} (hmark : mark = "rev_" ∨ mark = "mut_")
    (hmark' : mark' = "rev_" ∨ mark' = "mut_") {u v : Uid} {name other : String}
    (h : variableName mark u name = variableName mark' v other) : u = v ∧ name = other := by
  have hmarks : ∀ x y : String, "rev_" ++ x ≠ "mut_" ++ y := fun x y h => by
    simpa using congrArg (·.toList.head?) h
  have hlabel : ∀ mark : String, ∀ w : Uid, ∀ n : String,
      variableName mark w n = mark ++ (w.text ++ "_" ++ n) := fun mark w n => by
    simp [variableName, String.append_assoc]
  rw [hlabel, hlabel] at h
  rcases hmark with rfl | rfl <;> rcases hmark' with rfl | rfl
  · exact label_injective ((String.append_right_inj _).1 h)
  · exact absurd h (hmarks _ _)
  · exact absurd h.symm (hmarks _ _)
  · exact label_injective ((String.append_right_inj _).1 h)

/-- A predicate is cleared with the help of one block at most, which is named after it. -/
theorem mem_prelude_clearingOf {schema : Schema} {u : Uid} {name : String} {b : Block}
    (hb : b ∈ (clearingOf schema u name).prelude) :
    (clearingOf schema u name).prelude = [b] ∧ b.bindsVar = true ∧
      ∃ mark, (mark = "rev_" ∨ mark = "mut_") ∧ b.name = variableName mark u name := by
  unfold clearingOf at hb ⊢
  cases hp : schema.predicate? name with
  | none => simp [hp, empty] at hb
  | some p =>
    simp only [hp, Option.map_some, Option.getD_some, clearing] at hb ⊢
    split at hb
    · obtain rfl := List.mem_singleton.1 hb
      exact ⟨rfl, rfl, "rev_", .inl rfl, rfl⟩
    · obtain rfl := List.mem_singleton.1 hb
      exact ⟨rfl, rfl, "mut_", .inr rfl, rfl⟩
    · cases hb

/-- The name of a block tells which predicate of which node it helps to clear. -/
theorem eq_of_name_eq {schema : Schema} {x y : Uid × String} {b c : Block}
    (hb : b ∈ (clearingOf schema x.1 x.2).prelude) (hc : c ∈ (clearingOf schema y.1 y.2).prelude)
    (hname : b.name = c.name) : x = y := by
  obtain ⟨-, -, mark, hmark, hb⟩ := mem_prelude_clearingOf hb
  obtain ⟨-, -, mark', hmark', hc⟩ := mem_prelude_clearingOf hc
  obtain ⟨huid, hname⟩ := variableName_injective hmark hmark' (hb.symm.trans (hname.trans hc))
  exact Prod.ext huid hname

theorem prelude_eq_of_name_eq {schema : Schema} {u : Uid} {name other : String} {b c : Block}
    (hb : b ∈ (clearingOf schema u name).prelude) (hc : c ∈ (clearingOf schema u other).prelude)
    (heq : c.name = b.name) : c = b := by
  obtain ⟨hone, -, -⟩ := mem_prelude_clearingOf hb
  have hpair : (u, other) = (u, name) := eq_of_name_eq hc hb heq
  cases hpair
  rw [hone] at hc
  exact List.mem_singleton.1 hc

theorem strikes_clearAll {vars : Table (List String)} {u : Uid} {name w q v : String} :
    (clearAll u name).strikes vars w q v = true ↔ q = name ∧ w = u.text := by
  simp only [Statement.strikes, clearAll, Statement.plain, Object.plain, Store.subjectsOf,
    Bool.and_true, Bool.and_eq_true, List.contains_iff_mem, List.mem_singleton, beq_iff_eq]
  exact ⟨fun h => ⟨h.2.symm, h.1⟩, fun h => ⟨h.2, h.1.symm⟩⟩

/-- Unlinking takes the edges to a node from the owners that were bound. -/
theorem strikes_unlink {s : Store} {vars : Table (List String)} {u : Uid}
    {var edge w q v : String} {owners : List String}
    (hvars : vars.get? var = some (s.boundBy (ownersBlock var edge u owners)))
    (hv : v ∈ s.valuesAt w q) :
    (unlink var edge u).strikes vars w q v = true ↔
      q = edge ∧ v = u.text ∧ s.Carries owners w := by
  simp only [Statement.strikes, unlink, Statement.plain, Object.plain, Store.subjectsOf, hvars,
    Option.getD_some, Bool.and_eq_true, List.contains_iff_mem, beq_iff_eq,
    Store.mem_boundBy_ownersBlock]
  constructor
  · rintro ⟨⟨⟨-, htypes⟩, hq⟩, huid⟩
    exact ⟨hq.symm, huid.symm, htypes⟩
  · rintro ⟨rfl, rfl, htypes⟩
    exact ⟨⟨⟨hv, htypes⟩, rfl⟩, rfl⟩

/-- The deletions of one clearing take what is cleared, when its block is bound. -/
theorem strikes_clearingOf {schema : Schema} {s : Store} {vars : Table (List String)} {u : Uid}
    {name w q v : String} {p : Predicate} (hp : schema.predicate? name = some p)
    (hvars : ∀ b ∈ (clearingOf schema u name).prelude, vars.get? b.name = some (s.boundBy b))
    (hv : v ∈ s.valuesAt w q) :
    (∃ d ∈ (clearingOf schema u name).delete, d.strikes vars w q v = true) ↔
      Clears s u name p w q v := by
  rw [clearingOf_eq hp] at hvars ⊢
  unfold clearing Clears at *
  rcases hdir : p.direction? with _ | _ | edge | _
  · simp only [List.mem_singleton, exists_eq_left, strikes_clearAll]
  · simp only [List.mem_singleton, exists_eq_left, strikes_clearAll]
  · simp only [hdir, List.mem_singleton, forall_eq, exists_eq_left] at hvars ⊢
    exact strikes_unlink hvars hv
  · simp only [hdir, forall_eq, List.mem_cons, List.not_mem_nil, or_false,
      exists_eq_or_imp, exists_eq_left, strikes_clearAll] at hvars ⊢
    exact (or_congr Iff.rfl (strikes_unlink hvars hv)).trans and_or_left.symm

/-- The deletions of a mutation that clears predicates of a node take what one of the
clearings takes, and nothing else. -/
theorem struck_clearings {schema : Schema} {s : Store} {u : Uid} {names : List String}
    {m : Mutation} (h : clearings schema (names.map fun name => (u, name)) = .ok m)
    {w q v : String} (hv : v ∈ s.valuesAt w q) :
    Store.struck (s.bind m.prelude) m.delete w q v = true ↔
      ∃ name ∈ names, ∃ p, schema.predicate? name = some p ∧ Clears s u name p w q v := by
  obtain ⟨hknown, hprelude, hdelete⟩ := clearings_ok h
  have hvars : ∀ name ∈ names, ∀ b ∈ (clearingOf schema u name).prelude,
      (s.bind m.prelude).get? b.name = some (s.boundBy b) := by
    intro name hname b hb
    refine s.bind_get? ?_ (mem_prelude_clearingOf hb).2.1 fun c hc heq => ?_
    · rw [hprelude]
      exact List.mem_flatMap.2 ⟨name, hname, hb⟩
    · rw [hprelude] at hc
      obtain ⟨other, -, hc⟩ := List.mem_flatMap.1 hc
      exact prelude_eq_of_name_eq hb hc heq
  unfold Store.struck
  rw [List.any_eq_true, hdelete]
  constructor
  · rintro ⟨d, hd, hstrikes⟩
    obtain ⟨name, hname, hd⟩ := List.mem_flatMap.1 hd
    obtain ⟨p, hp⟩ := hknown name hname
    exact ⟨name, hname, p, hp, (strikes_clearingOf hp (hvars name hname) hv).1 ⟨d, hd, hstrikes⟩⟩
  · rintro ⟨name, hname, p, hp, hclears⟩
    obtain ⟨d, hd, hstrikes⟩ := (strikes_clearingOf hp (hvars name hname) hv).2 hclears
    exact ⟨d, List.mem_flatMap.2 ⟨name, hname, hd⟩, hstrikes⟩

/-- A compiled mutation clears what is overwritten, and sets what the entry and the new nodes
state. -/
theorem compile_ok {schema : Schema} {e : Entity} {overwrites : Overwrites}
    {related : List Related} {m : Mutation}
    (h : compile schema e overwrites related = .ok m) :
    ∃ c, clearings schema (overwrites.flatMap fun o => o.2.map fun name => (o.1, name)) = .ok c ∧
      m.prelude = c.prelude ∧ m.delete = c.delete ∧
      m.set = e.statements schema ++ satelliteStatements schema related := by
  obtain ⟨c, hc, rfl⟩ := map_eq_ok.1 h
  exact ⟨c, hc, rfl, rfl, rfl⟩

end Mutation

end PressRegister
