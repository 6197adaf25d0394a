import PressRegister.Filter

/-!
# What filters mean

A filter says something of one node once its functions do. Nothing is assumed of
the functions, so two filters with the same meaning agree whatever the database
takes the functions for.

## Main definitions

* `Reading`: what the functions of filters say of one node.
* `Condition`, `Connector.Joins`: conditions, and all or one of several conditions.
* `Filter.Holds`: whether a filter holds of the node.
* `Filter.conjuncts`, `Filter.Requires`: the conditions that all have to hold.

## Main results

* `Filter.holds_and`, `Filter.holds_or`: a filter of several parts means all of them
  or any of them, however the parts are nested.
* `Filter.holds_allOf?`, `Filter.holds_anyOf?`, `Filter.holds_join?`: the same of joined
  filters, where a single one stands for itself.
-/

namespace PressRegister

/-- What the functions of filters say of one node. -/
structure Reading where
  compares : Operator → String → Arg → Prop
  has : String → Prop
  ofType : String → Prop
  inVar : String → Prop
  isParam : String → Prop

/-- A condition on a node, given what the functions say of it. -/
abbrev Condition := Reading → Prop

/-- What a connector makes of several conditions. -/
def Connector.Joins (connector : Connector) (parts : Condition → Prop) : Condition := fun r =>
  match connector with
  | .and => ∀ φ, parts φ → φ r
  | .or => ∃ φ, parts φ ∧ φ r

namespace Filter

mutual

/-- Whether a filter holds of a node. -/
def Holds : Filter → Condition
  | .compare op predicate arg, r => r.compares op predicate arg
  | .has predicate, r => r.has predicate
  | .ofType name, r => r.ofType name
  | .inVar name, r => r.inVar name
  | .isParam name, r => r.isParam name
  | .and parts, r => AllHold parts r
  | .or parts, r => AnyHolds parts r

/-- Whether all filters hold of a node. -/
def AllHold : List Filter → Condition
  | [], _ => True
  | f :: rest, r => f.Holds r ∧ AllHold rest r

/-- Whether one of several filters holds of a node. -/
def AnyHolds : List Filter → Condition
  | [], _ => False
  | f :: rest, r => f.Holds r ∨ AnyHolds rest r

end

variable {r : Reading}

theorem allHold_iff {fs : List Filter} : AllHold fs r ↔ ∀ f ∈ fs, f.Holds r := by
  induction fs with
  | nil => simp [AllHold]
  | cons f rest ih => simp [AllHold, ih]

theorem anyHolds_iff {fs : List Filter} : AnyHolds fs r ↔ ∃ f ∈ fs, f.Holds r := by
  induction fs with
  | nil => simp [AnyHolds]
  | cons f rest ih => simp [AnyHolds, ih]

@[simp] theorem holds_compare {op : Operator} {predicate : String} {arg : Arg} :
    (Filter.compare op predicate arg).Holds r ↔ r.compares op predicate arg :=
  Iff.rfl

@[simp] theorem holds_has {predicate : String} :
    (Filter.has predicate).Holds r ↔ r.has predicate :=
  Iff.rfl

@[simp] theorem holds_ofType {name : String} :
    (Filter.ofType name).Holds r ↔ r.ofType name :=
  Iff.rfl

@[simp] theorem holds_and {fs : List Filter} :
    (Filter.and fs).Holds r ↔ ∀ f ∈ fs, f.Holds r :=
  allHold_iff

@[simp] theorem holds_or {fs : List Filter} :
    (Filter.or fs).Holds r ↔ ∃ f ∈ fs, f.Holds r :=
  anyHolds_iff

/-! ### Joined filters -/

theorem allOf?_eq_none {fs : List Filter} : allOf? fs = none ↔ fs = [] := by
  unfold allOf?
  split <;> simp_all

theorem anyOf?_eq_none {fs : List Filter} : anyOf? fs = none ↔ fs = [] := by
  unfold anyOf?
  split <;> simp_all

theorem exists_allOf? {fs : List Filter} (h : fs ≠ []) : ∃ f, allOf? fs = some f :=
  Option.ne_none_iff_exists'.1 (mt allOf?_eq_none.1 h)

theorem exists_anyOf? {fs : List Filter} (h : fs ≠ []) : ∃ f, anyOf? fs = some f :=
  Option.ne_none_iff_exists'.1 (mt anyOf?_eq_none.1 h)

theorem join?_eq_none {connector : Connector} {fs : List Filter} :
    join? connector fs = none ↔ fs = [] := by
  cases connector
  · exact allOf?_eq_none
  · exact anyOf?_eq_none

theorem holds_allOf? {fs : List Filter} {f : Filter} (h : allOf? fs = some f) :
    f.Holds r ↔ ∀ g ∈ fs, g.Holds r := by
  unfold allOf? at h
  split at h
  · cases h
  · cases h
    simp
  · cases h
    rw [holds_and]

theorem holds_anyOf? {fs : List Filter} {f : Filter} (h : anyOf? fs = some f) :
    f.Holds r ↔ ∃ g ∈ fs, g.Holds r := by
  unfold anyOf? at h
  split at h
  · cases h
  · cases h
    simp
  · cases h
    rw [holds_or]

theorem holds_join? {connector : Connector} {fs : List Filter} {f : Filter}
    (h : join? connector fs = some f) :
    f.Holds r ↔ connector.Joins (fun φ => ∃ g ∈ fs, φ = g.Holds) r := by
  cases connector
  · rw [holds_allOf? h]
    exact ⟨fun hall φ ⟨g, hg, hφ⟩ => hφ ▸ hall g hg, fun hall g hg => hall _ ⟨g, hg, rfl⟩⟩
  · rw [holds_anyOf? h]
    exact ⟨fun ⟨g, hg, hr⟩ => ⟨_, ⟨g, hg, rfl⟩, hr⟩, fun ⟨φ, ⟨g, hg, hφ⟩, hr⟩ => ⟨g, hg, hφ ▸ hr⟩⟩

theorem join?_cases {connector : Connector} {fs : List Filter} {f : Filter}
    (h : join? connector fs = some f) : fs = [f] ∨ f = .and fs ∨ f = .or fs := by
  cases connector
  · simp only [join?, allOf?] at h
    split at h
    · cases h
    · exact .inl (by rw [Option.some.inj h])
    · exact .inr (.inl (Option.some.inj h).symm)
  · simp only [join?, anyOf?] at h
    split at h
    · cases h
    · exact .inl (by rw [Option.some.inj h])
    · exact .inr (.inr (Option.some.inj h).symm)

/-! ### Parts -/

/-- The conditions at the top of a filter, which all have to hold. -/
def conjuncts : Filter → List Filter
  | .and parts => parts
  | f => [f]

theorem conjuncts_allOf? {fs : List Filter} {f : Filter} (h : allOf? fs = some f)
    (hlength : 2 ≤ fs.length) : f.conjuncts = fs := by
  unfold allOf? at h
  split at h
  · cases h
  · simp at hlength
  · cases h
    rfl

/-- A filter is another one, or has it among the parts that all have to hold. -/
inductive Requires : Filter → Filter → Prop
  | self (f : Filter) : Requires f f
  | part {parts : List Filter} {g : Filter} (h : g ∈ parts) : Requires (.and parts) g

theorem Requires.holds {f g : Filter} (h : f.Requires g) (hf : f.Holds r) : g.Holds r := by
  cases h with
  | self => exact hf
  | part hg => exact holds_and.1 hf g hg

theorem requires_of_mem {fs : List Filter} {f g : Filter} (h : allOf? fs = some f)
    (hg : g ∈ fs) : f.Requires g := by
  unfold allOf? at h
  split at h
  · cases h
  · cases h
    exact List.mem_singleton.1 hg ▸ .self _
  · cases h
    exact .part hg

theorem Requires.mem_or {fs : List Filter} {f g : Filter} (hrequires : f.Requires g)
    (h : allOf? fs = some f) (hand : ∀ parts, g ≠ .and parts) :
    g ∈ fs ∨ ∃ parts, .and parts ∈ fs ∧ g ∈ parts := by
  unfold allOf? at h
  split at h
  · cases h
  · cases h
    cases hrequires with
    | self => exact .inl List.mem_cons_self
    | part hg => exact .inr ⟨_, List.mem_cons_self, hg⟩
  · cases h
    cases hrequires with
    | self => exact absurd rfl (hand _)
    | part hg => exact .inl hg

end Filter

end PressRegister
