import Mathlib.Data.List.Nodup
import Mathlib.Data.List.TakeWhile
import PressRegister.Proofs.Filter.Meaning
import PressRegister.Proofs.Mutation.Clearing
import PressRegister.Proofs.Mutation.Telling
import PressRegister.Proofs.Statement.Unambiguous

/-!
# The prelude of a mutation

A mutation that clears edges at the nodes that own them binds these nodes first. The name of such
a variable is put together from a mark, the identifier of the node and the name of the predicate.
An identifier holds no underscore, so the name tells them apart, and every variable is bound once,
used once, and used to delete the very edges by which its nodes were selected.

## Main definitions

* `Operand.IsGround`, `Entity.IsGround`: what holds no variables.
* `Statement.uses`: a statement uses a variable.
* `Block.Selects`: a block selects the owners of an edge to a node.
* `Mutation.Overwrites.Distinct`: every predicate of a node is to be cleared once.
* `Mutation.WellBound`: every variable of a mutation is bound and used once.

## Main results

* `Mutation.wellBound_of_compile`: compiled mutations are well bound.
-/

namespace PressRegister

open Text

/-! ### Simple names -/

namespace Text

theorem isDottedName_of_notMem {cs : List Char} (h : '.' ∉ cs) :
    isDottedName cs = isSimpleName cs := by
  have hnone : cs.dropWhile (· != '.') = [] := List.dropWhile_eq_nil_iff.2 fun c hc => by
    have hne : c ≠ '.' := fun heq => h (heq ▸ hc)
    simpa using hne
  rw [isDottedName, hnone]

/-- A name without tilde and dot is an identifier. -/
theorem isIdentifier_of_isSimpleName {s : String} (h : isSimpleName s.toList = true) :
    isIdentifier s = true := by
  have hchars := isNameChar_of_isSimpleName h
  have hdot : '.' ∉ s.toList := fun hmem => absurd (hchars _ hmem) (by decide)
  have htilde : '~' ∉ s.toList := fun hmem => absurd (hchars _ hmem) (by decide)
  unfold isIdentifier isIdentifierChars
  split
  · rename_i rest heq
    exact absurd (heq ▸ List.mem_cons_self) htilde
  · rwa [isDottedName_of_notMem hdot]

end Text

/-- The names of predicates are simple. -/
theorem Schema.isSimpleName_of_isPredicateName {name : String}
    (h : Schema.isPredicateName name = true) : isSimpleName name.toList = true := by
  simp only [isPredicateName, isUndotted, Bool.and_eq_true, bne_iff_ne, ne_eq,
    Bool.not_eq_true', List.contains_eq_mem, decide_eq_false_iff_not] at h
  obtain ⟨⟨hidentifier, hdot⟩, htilde⟩ := h
  unfold isIdentifier isIdentifierChars at hidentifier
  split at hidentifier
  · rename_i rest heq
    simp [heq] at htilde
  · rwa [isDottedName_of_notMem hdot] at hidentifier

/-! ### Variables -/

/-- The variable that an operand is. -/
def Operand.variable? : Operand → Option Variable
  | .var v => some v
  | _ => none

/-- An operand is no variable. -/
def Operand.IsGround (v : Operand) : Prop :=
  v.variable? = none

/-- No value is a variable. -/
def Fields.IsGround (fields : Fields) : Prop :=
  ∀ name values, fields.get? name = some values → ∀ o ∈ values, o.value.IsGround

/-- Neither the subject of an entity nor one of its values is a variable. -/
structure Entity.IsGround (e : Entity) : Prop where
  subject : e.subject.operand.IsGround
  fields : Fields.IsGround e.fields

/-- The variables in a statement. -/
def Statement.variables (t : Statement) : List Variable :=
  t.subject.operand.variable?.toList ++ t.object.value.variable?.toList

/-- Whether a statement uses the variable with a name. -/
def Statement.uses (name : String) (t : Statement) : Bool :=
  t.variables.any (·.name == name)

/-- A block selects the nodes that have an edge to a node and, if types are given, one of them. -/
structure Block.Selects (b : Block) (edge : String) (u : Uid) (owners : List String) : Prop where
  plain : b = .binding b.name (.has edge) b.filter
  filter : ∃ f, b.filter = some f ∧ ∀ r, f.Holds r ↔
    r.compares .uidIn edge (.uid u) ∧ (owners = [] ∨ ∃ name ∈ owners, r.ofType name)
  bound : ∀ s w, w ∈ Store.boundBy s b ↔ u.text ∈ s.valuesAt w edge ∧ s.Carries owners w

/-- Every node that is to be cleared is named once, and so is every predicate of it. -/
structure Mutation.Overwrites.Distinct (overwrites : Overwrites) : Prop where
  nodes : (overwrites.map (·.1)).Nodup
  lists : ∀ o ∈ overwrites, o.2.Nodup

/-- Every variable of a mutation is bound once and used once, and its nodes are selected by what is
deleted. -/
structure Mutation.WellBound (m : Mutation) : Prop where
  identifier : ∀ b ∈ m.prelude, b.bindsVar = true ∧ isIdentifier b.name = true
  distinct : (m.prelude.map (·.name)).Nodup
  /-- Exactly one block binds a variable that a deletion uses. -/
  bound : ∀ t ∈ m.delete, ∀ v ∈ t.variables,
    v.ofValues = false ∧ ∃ b, m.prelude.filter (·.name == v.name) = [b]
  /-- Exactly one deletion uses a variable, and takes the edge by which its nodes were selected. -/
  used : ∀ b ∈ m.prelude, ∃ edge u owners,
    m.delete.filter (·.uses b.name) = [unlink b.name edge u] ∧ b.Selects edge u owners
  unset : ∀ t ∈ m.set, t.variables = []

namespace Mutation

variable {schema : Schema} {types : List EntityType} {u : Uid} {name : String}

/-! ### Owners of an edge -/

theorem selects_ownersBlock (var edge : String) (u : Uid) (owners : List String) :
    (ownersBlock var edge u owners).Selects edge u owners where
  plain := rfl
  filter := by
    obtain ⟨f, hf⟩ : ∃ f, Filter.allOf? (.compare .uidIn edge (.uid u) ::
        (Filter.anyOf? (owners.map .ofType)).toList) = some f :=
      Filter.exists_allOf? (List.cons_ne_nil _ _)
    refine ⟨f, hf, fun r => ?_⟩
    rw [Filter.holds_allOf? hf]
    cases htypes : Filter.anyOf? (owners.map .ofType) with
    | none =>
      have hnil : owners = [] := List.map_eq_nil_iff.1 (Filter.anyOf?_eq_none.1 htypes)
      simp [hnil]
    | some g =>
      have hne : owners ≠ [] := fun hnil => by simp [hnil, Filter.anyOf?] at htypes
      simp [Filter.holds_anyOf? htypes, hne]
  bound _ _ := Store.mem_boundBy_ownersBlock

/-! ### Names of variables -/

/-- A variable for a predicate with a registered name is an identifier. -/
theorem isIdentifier_variableName {mark : String} (hmark : mark = "rev_" ∨ mark = "mut_")
    (u : Uid) (hname : Schema.isPredicateName name = true) :
    isIdentifier (variableName mark u name) = true := by
  have hlist : (variableName mark u name).toList =
      mark.toList ++ (u.text.toList ++ '_' :: name.toList) := by
    simp [variableName]
  have hrest : (u.text.toList ++ '_' :: name.toList).all isNameChar = true := by
    simp only [List.all_append, List.all_cons, Bool.and_eq_true, List.all_eq_true]
    exact ⟨fun c => Uid.isNameChar_of_mem_text, by decide,
      isNameChar_of_isSimpleName (Schema.isSimpleName_of_isPredicateName hname)⟩
  refine isIdentifier_of_isSimpleName ?_
  rw [hlist]
  rcases hmark with rfl | rfl
  · exact hrest
  · exact hrest

/-! ### The parts of a prelude -/

theorem variables_clearAll (u : Uid) (name : String) : (clearAll u name).variables = [] := rfl

theorem variables_unlink (var edge : String) (u : Uid) :
    (unlink var edge u).variables = [⟨var, false⟩] := rfl

theorem uses_clearAll (var : String) (u : Uid) (name : String) :
    (clearAll u name).uses var = false := rfl

theorem uses_unlink (var edge : String) (u : Uid) : (unlink var edge u).uses var = true := by
  simp [Statement.uses, variables_unlink]

/-- A predicate is cleared without variables, or with one that a single block binds and a single
statement uses. -/
theorem clearingOf_cases {p : Predicate} (hp : schema.predicate? name = some p) (u : Uid) :
    (clearingOf schema u name).prelude = [] ∧
        (∀ t ∈ (clearingOf schema u name).delete, t.variables = []) ∨
      ∃ mark b edge owners, (mark = "rev_" ∨ mark = "mut_") ∧
        (clearingOf schema u name).prelude = [b] ∧ b.bindsVar = true ∧
        b.name = variableName mark u name ∧ b.Selects edge u owners ∧
        (∀ t ∈ (clearingOf schema u name).delete, ∀ v ∈ t.variables, v = ⟨b.name, false⟩) ∧
        (clearingOf schema u name).delete.filter (·.uses b.name) = [unlink b.name edge u] := by
  rw [clearingOf_eq hp]
  unfold clearing
  split
  · rename_i edge _
    refine .inr ⟨"rev_", _, edge, _, .inl rfl, rfl, rfl, rfl, selects_ownersBlock .., ?_, ?_⟩
    · simp [variables_unlink, ownersBlock, Block.binding]
    · simp [uses_unlink, ownersBlock, Block.binding]
  · refine .inr ⟨"mut_", _, name, _, .inr rfl, rfl, rfl, rfl, selects_ownersBlock .., ?_, ?_⟩
    · simp [variables_unlink, variables_clearAll, ownersBlock, Block.binding]
    · simp [uses_unlink, uses_clearAll, ownersBlock, Block.binding]
  · exact .inl ⟨rfl, by simp [variables_clearAll]⟩

/-- A block helps to clear one predicate, alone. -/
theorem clearingOf_of_mem_prelude {p : Predicate} (hp : schema.predicate? name = some p)
    {b : Block} (hb : b ∈ (clearingOf schema u name).prelude) :
    ∃ mark edge owners, (mark = "rev_" ∨ mark = "mut_") ∧
      (clearingOf schema u name).prelude = [b] ∧ b.bindsVar = true ∧
      b.name = variableName mark u name ∧ b.Selects edge u owners ∧
      (clearingOf schema u name).delete.filter (·.uses b.name) = [unlink b.name edge u] := by
  rcases clearingOf_cases hp u with
    ⟨hnil, -⟩ | ⟨mark, c, edge, owners, hmark, hone, hvar, hname, hselects, -, huses⟩
  · rw [hnil] at hb
    cases hb
  · rw [hone] at hb
    obtain rfl := List.mem_singleton.1 hb
    exact ⟨mark, edge, owners, hmark, hone, hvar, hname, hselects, huses⟩

/-- A variable that a deletion uses is bound with it. -/
theorem clearingOf_of_mem_variables {p : Predicate} (hp : schema.predicate? name = some p)
    {t : Statement} (ht : t ∈ (clearingOf schema u name).delete) {v : Variable}
    (hv : v ∈ t.variables) :
    ∃ b, (clearingOf schema u name).prelude = [b] ∧ v = ⟨b.name, false⟩ := by
  rcases clearingOf_cases hp u with ⟨-, hground⟩ | ⟨-, b, -, -, -, hone, -, -, -, hvars, -⟩
  · rw [hground t ht] at hv
    cases hv
  · exact ⟨b, hone, hvars t ht v hv⟩

/-! ### Whole mutations -/

/-- If only one element of a list without repetition contributes anything, it is all there is. -/
theorem flatMap_eq_of_forall_ne {α β : Type} {l : List α} (hl : l.Nodup) {a : α} (ha : a ∈ l)
    {f : α → List β} (h : ∀ x ∈ l, x ≠ a → f x = []) : l.flatMap f = f a := by
  obtain ⟨before, after, rfl⟩ := List.append_of_mem ha
  have hnot := List.nodup_middle.1 hl
  have hrest : ∀ x ∈ before ++ after, f x = [] := fun x hx =>
    h x (by simp at hx ⊢; tauto) fun heq => (List.nodup_cons.1 hnot).1 (heq ▸ hx)
  have hbefore := List.flatMap_eq_nil_iff.2 fun x hx => hrest x (List.mem_append_left _ hx)
  have hafter := List.flatMap_eq_nil_iff.2 fun x hx => hrest x (List.mem_append_right _ hx)
  rw [List.flatMap_append, List.flatMap_cons, hbefore, hafter, List.append_nil, List.nil_append]

section Clearings

variable {pairs : List (Uid × String)} {m : Mutation} (hpairs : pairs.Nodup)
  (h : clearings schema pairs = .ok m)
include hpairs h

theorem nodup_names_clearings : (m.prelude.map (·.name)).Nodup := by
  obtain ⟨hknown, hprelude, -⟩ := clearings_parts h
  rw [hprelude, List.map_flatMap, List.nodup_flatMap]
  refine ⟨fun x hx => ?_, hpairs.imp_of_mem fun {x y} hx hy hne name hname hname' => hne ?_⟩
  · obtain ⟨p, hp⟩ := hknown x hx
    rcases clearingOf_cases hp x.1 with ⟨hnil, -⟩ | ⟨-, b, -, -, -, hone, -⟩
    · simp [hnil]
    · simp [hone]
  · obtain ⟨b, hb, rfl⟩ := List.mem_map.1 hname
    obtain ⟨c, hc, heq⟩ := List.mem_map.1 hname'
    exact eq_of_name_eq hb hc heq.symm

/-- The blocks that bind a variable are those that help to clear what it is for. -/
theorem filter_prelude_clearings {x : Uid × String} (hx : x ∈ pairs) {b : Block}
    (hb : (clearingOf schema x.1 x.2).prelude = [b]) :
    m.prelude.filter (·.name == b.name) = [b] := by
  obtain ⟨-, hprelude, -⟩ := clearings_parts h
  rw [hprelude, List.filter_flatMap, flatMap_eq_of_forall_ne hpairs hx fun y hy hne => ?_, hb]
  · simp
  · refine List.filter_eq_nil_iff.2 fun c hc heq => hne ?_
    exact eq_of_name_eq hc (hb ▸ List.mem_singleton_self b) (eq_of_beq heq)

/-- The statements that use a variable are those that clear what it is for. -/
theorem filter_delete_clearings {x : Uid × String} (hx : x ∈ pairs) {b : Block}
    (hb : b ∈ (clearingOf schema x.1 x.2).prelude) :
    m.delete.filter (·.uses b.name) =
      (clearingOf schema x.1 x.2).delete.filter (·.uses b.name) := by
  obtain ⟨hknown, -, hdelete⟩ := clearings_parts h
  rw [hdelete, List.filter_flatMap, flatMap_eq_of_forall_ne hpairs hx fun y hy hne => ?_]
  refine List.filter_eq_nil_iff.2 fun t ht huses => hne ?_
  obtain ⟨p, hp⟩ := hknown y hy
  obtain ⟨v, hv, hname⟩ := List.any_eq_true.1 huses
  obtain ⟨c, hc, rfl⟩ := clearingOf_of_mem_variables hp ht hv
  exact eq_of_name_eq (hc ▸ List.mem_singleton_self c) hb (eq_of_beq hname)

end Clearings

/-! ### What is set -/

/-- An operand without variables stands for a subject without them. -/
theorem isGround_subject? {v : Operand} {other : Subject} (hv : v.IsGround)
    (h : v.subject? = some other) : other.operand.IsGround := by
  cases v with
  | existing u =>
    cases h
    rfl
  | new b =>
    cases h
    rfl
  | var x => cases hv
  | _ => cases h

/-- The statements of an entity without variables hold none. -/
theorem variables_of_mem_statements {e : Entity} (he : e.IsGround) {t : Statement}
    (ht : t ∈ e.statements schema) : t.variables = [] := by
  obtain ⟨name, values, hvalues, o, ho, ht⟩ := Entity.mem_statements.1 ht
  have hvalue := he.fields name values hvalues o ho
  have hground : ∀ {x : Subject} {edge : String} {y : Object}, x.operand.IsGround →
      y.value.IsGround → (⟨x, edge, y⟩ : Statement).variables = [] := fun hx hy => by
    rw [Statement.variables, hx, hy]
    rfl
  have hback : ∀ edge other, o.value.subject? = some other →
      (⟨other, edge, ⟨e.subject.operand, o.facets⟩⟩ : Statement).variables = [] :=
    fun edge other hother => hground (isGround_subject? hvalue hother) he.subject
  unfold Entity.valueStatements at ht
  cases hother : o.value.subject? with
  | none =>
    rcases hdirection : schema.direction? name with _ | _ | edge | _ <;>
      simp only [hdirection, hother, List.mem_singleton, List.not_mem_nil] at ht
    all_goals exact ht ▸ hground he.subject hvalue
  | some other =>
    rcases hdirection : schema.direction? name with _ | _ | edge | _ <;>
      simp only [hdirection, hother, List.mem_cons, List.not_mem_nil, or_false] at ht
    · exact ht ▸ hground he.subject hvalue
    · exact ht ▸ hground he.subject hvalue
    · exact ht ▸ hback edge other hother
    · rcases ht with rfl | rfl
      · exact hground he.subject hvalue
      · exact hback name other hother

/-- The type of a satellite is no variable. -/
theorem isGround_entity {x : Satellite} (h : Fields.IsGround x.fields) :
    (x.entity schema).IsGround := by
  refine ⟨rfl, fun name values hvalues o ho => ?_⟩
  rw [Satellite.entity, Table.get?_insert] at hvalues
  split at hvalues
  · cases hvalues
    obtain ⟨typeName, -, rfl⟩ := List.mem_map.1 ho
    rfl
  · exact h name values hvalues o ho

theorem Overwrites.Distinct.nodup_pairs {overwrites : Overwrites} (h : overwrites.Distinct) :
    (overwrites.flatMap fun o => o.2.map fun name => (o.1, name)).Nodup := by
  refine List.nodup_flatMap.2 ⟨fun o ho => ?_, ?_⟩
  · exact (h.lists o ho).map fun _ _ heq => (Prod.mk.inj heq).2
  · refine (List.pairwise_map.1 h.nodes).imp fun {o o'} hne x hx hy => hne ?_
    obtain ⟨_, -, rfl⟩ := List.mem_map.1 hx
    obtain ⟨_, -, heq⟩ := List.mem_map.1 hy
    exact (Prod.mk.inj heq).1.symm

/-- The mutation of an entry and its satellites, none of which hold variables, is well bound if
every predicate of a node is cleared once. -/
theorem wellBound_of_compile (hbuild : Schema.build types = .ok schema)
    {overwrites : Overwrites} (hdistinct : overwrites.Distinct) {e : Entity} (he : e.IsGround)
    {related : List Related} (hrelated : ∀ x, .new x ∈ related → x.fields.IsGround)
    {m : Mutation} (h : compile schema e overwrites related = .ok m) : m.WellBound := by
  obtain ⟨c, hc, hprelude, hdelete, hset⟩ := compile_ok h
  have hpairs := hdistinct.nodup_pairs
  obtain ⟨hknown, hpreludes, hdeletes⟩ := clearings_parts hc
  have hblock : ∀ b ∈ m.prelude, ∃ x p, x ∈ overwrites.flatMap (fun o => o.2.map fun name =>
      (o.1, name)) ∧ schema.predicate? x.2 = some p ∧
        b ∈ (clearingOf schema x.1 x.2).prelude := fun b hb => by
    rw [hprelude, hpreludes] at hb
    obtain ⟨x, hx, hb⟩ := List.mem_flatMap.1 hb
    obtain ⟨p, hp⟩ := hknown x hx
    exact ⟨x, p, hx, hp, hb⟩
  refine ⟨fun b hb => ?_, ?_, fun t ht v hv => ?_, fun b hb => ?_, fun t ht => ?_⟩
  · obtain ⟨x, p, -, hp, hb⟩ := hblock b hb
    obtain ⟨mark, -, -, hmark, -, hvar, hname, -⟩ := clearingOf_of_mem_prelude hp hb
    rw [hname]
    exact ⟨hvar, isIdentifier_variableName hmark _ (Schema.isPredicateName_of_build hbuild hp)⟩
  · rw [hprelude]
    exact nodup_names_clearings hpairs hc
  · rw [hdelete, hdeletes] at ht
    obtain ⟨x, hx, ht⟩ := List.mem_flatMap.1 ht
    obtain ⟨p, hp⟩ := hknown x hx
    obtain ⟨b, hb, rfl⟩ := clearingOf_of_mem_variables hp ht hv
    rw [hprelude]
    exact ⟨rfl, b, filter_prelude_clearings hpairs hc hx hb⟩
  · obtain ⟨x, p, hx, hp, hb⟩ := hblock b hb
    obtain ⟨-, edge, owners, -, -, -, -, hselects, huses⟩ := clearingOf_of_mem_prelude hp hb
    rw [hdelete, filter_delete_clearings hpairs hc hx hb, huses]
    exact ⟨edge, x.1, owners, rfl, hselects⟩
  · rw [hset] at ht
    rcases List.mem_append.1 ht with ht | ht
    · exact variables_of_mem_statements he ht
    · obtain ⟨_ | x, hx, ht⟩ := List.mem_flatMap.1 ht
      · cases ht
      · exact variables_of_mem_statements (isGround_entity (hrelated x hx)) ht

end Mutation

end PressRegister
