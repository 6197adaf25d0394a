import PressRegister.Proofs.Search.Meaning

/-!
# Which keys and values a search heeds

A search reads a filter map under the keys of the page, the terms and the types, under the
names of queryable predicates and of their queryable facets, and under the modifiers of
these. Whatever stands under other keys is without effect, and so is a value that does not
fit the field, the facet or the types that it stands under.

## Main definitions

* `Search.Recognised`: the keys that a search heeds.
* `Search.Idle`: the values that a search leaves out.
* `Search.Thinned`: values of which some idle ones are removed.
* `Search.Agrees`: two filter maps have the same under every recognised key, but for values
  that are idle.

## Main results

* `Search.Agrees.compile_eq`: filter maps that agree have the same search.
* `Search.compile_ignores`: other keys and idle values are without effect.
-/

namespace PressRegister

/-- The condition on a field depends on what its values make of its names. -/
theorem Predicate.condition?_congr {p : Predicate} {values values' : List String}
    {operator : Option Operator} (h : ∀ op, p.Uses operator op → op ≠ .has → ∀ name,
      values.filterMap (p.valueCondition? name op) = values'.filterMap (p.valueCondition? name op))
    (connector : Option Connector) :
    p.condition? values operator connector = p.condition? values' operator connector := by
  unfold condition?
  cases hop : p.operatorFor? operator with
  | none => rfl
  | some op =>
    have hname : p.nameCondition? op (p.connectorFor connector) values =
        p.nameCondition? op (p.connectorFor connector) values' := by
      funext name
      unfold nameCondition?
      split
      · rfl
      · rename_i hhas
        rw [h op (operatorFor?_eq_some_iff.1 hop) (by simpa using hhas)]
    simp only [Option.bind_eq_bind, Option.bind_some, hname]

namespace Search

variable {types : List EntityType} {s : Schema} {m m' : FilterMap}

/-! ### Keys and values -/

/-- The keys that a search heeds. -/
inductive Recognised (s : Schema) : String → Prop
  | fixed {key : String} (h : key ∈ [maxResultsKey, pageKey, termsKey, typeKey]) :
      Recognised s key
  | field {name : String} {p : Predicate} (hp : s.queryable? name = some p)
      (hname : name.toList.head? ≠ some '_') : Recognised s name
  | modifier {name kind : String} {p : Predicate} (hp : s.queryable? name = some p)
      (hname : name.toList.head? ≠ some '_') (hkind : kind ∈ ["operator", "connector"]) :
      Recognised s (name ++ "*" ++ kind)
  | facet {predicate name : String} {c : Predicate × Facet}
      (h : s.queryableFacet? predicate name = some c) : Recognised s (predicate ++ "|" ++ name)
  | facetOperator {predicate name : String} {c : Predicate × Facet}
      (h : s.queryableFacet? predicate name = some c) :
      Recognised s (predicate ++ "|" ++ name ++ "*" ++ "operator")

/-- A recognised key without separators is a fixed one or names a field. -/
theorem Recognised.fixed_or_field {key : String} (h : Recognised s key)
    (hstar : '*' ∉ key.toList) (hbar : '|' ∉ key.toList) :
    key ∈ [maxResultsKey, pageKey, termsKey, typeKey] ∨ ∃ p, s.queryable? key = some p := by
  cases h with
  | fixed h => exact .inl h
  | field hp _ => exact .inr ⟨_, hp⟩
  | modifier _ _ _ => exact absurd (by simp) hstar
  | facet _ => exact absurd (by simp) hbar
  | facetOperator _ => exact absurd (by simp) hbar

/-- The values that a search leaves out: names of no type, and texts that do not fit the
field or the facet that they stand under. -/
inductive Idle (s : Schema) (m : FilterMap) : String → String → Prop
  | type {v : String} (h : s.type? v = none) : Idle s m typeKey v
  | field {key v : String} {p : Predicate} (hkey : key.toList.head? ≠ some '_')
      (hp : s.queryable? key = some p)
      (hv : ∀ op, p.Uses (m.operator? key) op → ¬ p.Fits op v) : Idle s m key v
  | facet {predicate name v : String} {p : Predicate} {facet : Facet}
      (h : s.queryableFacet? predicate name = some (p, facet)) (hv : ¬ facet.Fits v) :
      Idle s m (predicate ++ "|" ++ name) v

/-- Values of which some idle ones are removed. -/
inductive Thinned (idle : String → Prop) : List String → List String → Prop
  | nil : Thinned idle [] []
  | keep {values values' : List String} (v : String) (h : Thinned idle values values') :
      Thinned idle (v :: values) (v :: values')
  | drop {values values' : List String} {v : String} (hv : idle v)
      (h : Thinned idle values values') : Thinned idle (v :: values) values'

/-- A filter map has the same as another one under every recognised key, but for values that
are idle. -/
def Agrees (s : Schema) (m m' : FilterMap) : Prop :=
  ∀ key, Recognised s key → Option.Rel (Thinned (Idle s m key)) (m.get? key) (m'.get? key)

namespace Thinned

variable {idle : String → Prop} {values values' : List String}

theorem refl (values : List String) : Thinned idle values values := by
  induction values with
  | nil => exact .nil
  | cons v rest ih => exact .keep v ih

theorem eq_of_forall_not (h : Thinned idle values values') (hidle : ∀ v, ¬ idle v) :
    values' = values := by
  induction h with
  | nil => rfl
  | keep v _ ih => rw [ih]
  | drop hv _ _ => exact absurd hv (hidle _)

/-- Idle values make nothing. -/
theorem filterMap_eq {α : Type} {f : String → Option α} (h : Thinned idle values values')
    (hidle : ∀ v, idle v → f v = none) : values'.filterMap f = values.filterMap f := by
  induction h with
  | nil => rfl
  | keep v _ ih => rw [List.filterMap_cons, List.filterMap_cons, ih]
  | drop hv _ ih => rw [ih, List.filterMap_cons, hidle _ hv]

end Thinned

/-! ### Which values are idle -/

theorem isIdentifierChar_of_queryable? (hs : Schema.build types = .ok s) {key : String}
    {p : Predicate} (hp : s.queryable? key = some p) : ∀ c ∈ key.toList, Text.IsIdentifierChar c := by
  have hregistered : s.predicate? key = some p := (Option.filter_eq_some_iff.1 hp).1
  exact (Text.isIdentifier_spec (Schema.isIdentifier_of_isUndotted
    (Schema.isUndotted_of_isPredicateName (Schema.isPredicateName_of_build hs hregistered)))).2

theorem not_idle_of_star (hs : Schema.build types = .ok s) {key : String}
    (hkey : '*' ∈ key.toList) (v : String) : ¬ Idle s m key v := by
  rintro (h | ⟨-, hp, -⟩ | ⟨h, -⟩)
  · revert hkey
    decide
  · exact absurd (isIdentifierChar_of_queryable? hs hp _ hkey) (by decide)
  · exact (facetKey?_eq_some_iff.1 (facetKey?_of_queryableFacet? hs h)).2.2 hkey

theorem not_idle_of_bar {key : String} (hhead : key.toList.head? = some '_')
    (hbar : '|' ∉ key.toList) (v : String) : ¬ Idle s m key v := by
  rintro (h | ⟨hkey, -, -⟩ | ⟨h, -⟩)
  · revert hhead
    decide
  · exact hkey hhead
  · exact hbar (by simp)

theorem Idle.type_unknown (hs : Schema.build types = .ok s) {v : String}
    (h : Idle s m typeKey v) : s.type? v = none := by
  generalize hkey : typeKey = key at h
  cases h with
  | type h => exact h
  | field _ hp _ =>
    subst hkey
    have hregistered := (Option.filter_eq_some_iff.1 hp).1
    rw [Schema.predicate?_typeKey hs] at hregistered
    cases hregistered
  | facet _ _ =>
    have hchars := congrArg (fun key : String => '|' ∈ key.toList) hkey
    simp [typeKey] at hchars

theorem Idle.field_unfit (hs : Schema.build types = .ok s) {key v : String} {p : Predicate}
    (hp : s.queryable? key = some p) (h : Idle s m key v) :
    ∀ op, p.Uses (m.operator? key) op → ¬ p.Fits op v := by
  cases h with
  | type _ =>
    have hregistered := (Option.filter_eq_some_iff.1 hp).1
    rw [Schema.predicate?_typeKey hs] at hregistered
    cases hregistered
  | field _ hq hv =>
    rw [hp] at hq
    exact Option.some.inj hq ▸ hv
  | facet _ _ => exact absurd (isIdentifierChar_of_queryable? hs hp '|' (by simp)) (by decide)

theorem Idle.facet_unfit (hs : Schema.build types = .ok s) {predicate name v : String}
    {p : Predicate} {facet : Facet} (hfacet : s.queryableFacet? predicate name = some (p, facet))
    (h : Idle s m (predicate ++ "|" ++ name) v) : ¬ facet.Fits v := by
  have hkey := facetKey?_of_queryableFacet? hs hfacet
  generalize predicate ++ "|" ++ name = key at h hkey
  cases h with
  | type _ =>
    revert hkey
    simp [facetKey?, Facet.splitKey?, typeKey]
  | field _ hp _ =>
    have hbar : '|' ∈ key.toList := by
      rw [(facetKey?_eq_some_iff.1 hkey).1]
      simp
    exact absurd (isIdentifierChar_of_queryable? hs hp '|' hbar) (by decide)
  | facet h hv =>
    rw [facetKey?_of_queryableFacet? hs h] at hkey
    obtain ⟨rfl, rfl⟩ := Prod.mk.inj (Option.some.inj hkey)
    rw [hfacet] at h
    obtain ⟨-, rfl⟩ := Prod.mk.inj (Option.some.inj h)
    exact hv

/-- Idle values make no part of the condition on a field. -/
theorem Thinned.condition?_eq (hs : Schema.build types = .ok s) {key : String} {p : Predicate}
    (hp : s.queryable? key = some p) {values values' : List String}
    (h : Thinned (Idle s m key) values values') (connector : Option Connector) :
    p.condition? values' (m.operator? key) connector =
      p.condition? values (m.operator? key) connector := by
  refine Predicate.condition?_congr (fun op huses hhas name => ?_) connector
  refine h.filterMap_eq fun v hv => ?_
  have hunfit := hv.field_unfit hs hp op huses
  rw [Predicate.fits_iff huses.mem_operators hhas name, ← Option.ne_none_iff_exists'] at hunfit
  exact Classical.not_not.1 hunfit

/-- Idle values make no part of the condition on a facet. -/
theorem Thinned.filterMap_condition?_eq (hs : Schema.build types = .ok s)
    {predicate name : String} {p : Predicate} {facet : Facet}
    (hfacet : s.queryableFacet? predicate name = some (p, facet)) {values values' : List String}
    (h : Thinned (Idle s m (predicate ++ "|" ++ name)) values values')
    (operator : Option Operator) :
    values'.filterMap (facet.condition? · operator) =
      values.filterMap (facet.condition? · operator) := by
  refine h.filterMap_eq fun v hv => ?_
  have hunfit := hv.facet_unfit hs hfacet
  rw [Facet.fits_iff operator, ← Option.ne_none_iff_exists'] at hunfit
  exact Classical.not_not.1 hunfit

/-! ### Filter maps that agree -/

namespace Agrees

variable (h : Agrees s m m')
include h

theorem get?_eq {key : String} (hkey : Recognised s key) (hidle : ∀ v, ¬ Idle s m key v) :
    m'.get? key = m.get? key := by
  have hrel := h key hkey
  generalize m.get? key = values at hrel
  generalize m'.get? key = values' at hrel
  cases hrel with
  | none => rfl
  | some hthinned => rw [hthinned.eq_of_forall_not hidle]

theorem fixed_eq {key : String} (hkey : key ∈ [maxResultsKey, pageKey, termsKey]) :
    m'.get? key = m.get? key := by
  refine h.get?_eq (.fixed ?_) (not_idle_of_bar ?_ ?_)
  · revert key
    decide
  · revert key
    decide
  · revert key
    decide

theorem modifier?_eq (hs : Schema.build types = .ok s) {key kind : String}
    (hkey : Recognised s (key ++ "*" ++ kind)) : m'.modifier? key kind = m.modifier? key kind := by
  rw [FilterMap.modifier?, FilterMap.first?, h.get?_eq hkey (not_idle_of_star hs (by simp))]
  rfl

theorem terms?_eq : terms? m' = terms? m := by
  rw [terms?, h.fixed_eq (by decide)]
  rfl

theorem pageSize_eq : pageSize m' = pageSize m := by
  rw [pageSize, FilterMap.first?, h.fixed_eq (by decide)]
  rfl

theorem page_eq : page m' = page m := by
  rw [page, FilterMap.first?, h.fixed_eq (by decide)]
  rfl

theorem typeClause?_eq (hs : Schema.build types = .ok s) :
    typeClause? s m' = typeClause? s m := by
  have hrel := h typeKey (.fixed (by decide))
  unfold typeClause? registeredTypes
  generalize m.get? typeKey = values at hrel
  generalize m'.get? typeKey = values' at hrel
  cases hrel with
  | none => rfl
  | some hthinned =>
    rw [Option.getD_some, Option.getD_some, hthinned.filterMap_eq fun v hv => hv.type_unknown hs]

theorem fieldClauses_eq (hs : Schema.build types = .ok s) :
    fieldClauses s m' = fieldClauses s m := by
  refine Table.filterMap_entries_eq fun key => ?_
  by_cases hkey : key.toList.head? ≠ some '_' ∧ ∃ p, s.queryable? key = some p
  · obtain ⟨hhead, p, hp⟩ := hkey
    have hoperator : m'.operator? key = m.operator? key := by
      rw [FilterMap.operator?, h.modifier?_eq hs (.modifier hp hhead (by decide))]
      rfl
    have hconnector : m'.connector? key = m.connector? key := by
      rw [FilterMap.connector?, h.modifier?_eq hs (.modifier hp hhead (by decide))]
      rfl
    have hrel := h key (.field hp hhead)
    generalize m.get? key = values at hrel
    generalize m'.get? key = values' at hrel
    cases hrel with
    | none => rfl
    | some hthinned =>
      refine Option.ext fun ⟨q, f⟩ => ?_
      rw [Option.bind_some, Option.bind_some, fieldClause?_eq_some_iff hs,
        fieldClause?_eq_some_iff hs, hoperator, hconnector]
      refine and_congr_right fun _ => and_congr_right fun hq => ?_
      rw [hthinned.condition?_eq hs hq]
  · -- the key names no field that filters may use
    have hnone (m : FilterMap) : (m.get? key).bind (fieldClause? s m key) = none := by
      refine Option.eq_none_iff_forall_ne_some.2 fun ⟨q, f⟩ hclause => hkey ?_
      obtain ⟨values, -, hclause⟩ := Option.bind_eq_some_iff.1 hclause
      obtain ⟨hhead, hq, -⟩ := (fieldClause?_eq_some_iff hs).1 hclause
      exact ⟨hhead, q, hq⟩
    rw [hnone, hnone]

theorem facetDemands_eq (hs : Schema.build types = .ok s) :
    facetDemands s m' = facetDemands s m := by
  unfold facetDemands
  congr 1
  refine Table.filterMap_entries_eq fun key => ?_
  by_cases hkey : ∃ predicate name c, key = predicate ++ "|" ++ name ∧
      s.queryableFacet? predicate name = some c
  · obtain ⟨predicate, name, ⟨p, facet⟩, rfl, hfacet⟩ := hkey
    have hoperator : m'.operator? (predicate ++ "|" ++ name) =
        m.operator? (predicate ++ "|" ++ name) := by
      rw [FilterMap.operator?, h.modifier?_eq hs (.facetOperator hfacet)]
      rfl
    have hrel := h _ (.facet hfacet)
    generalize m.get? (predicate ++ "|" ++ name) = values at hrel
    generalize m'.get? (predicate ++ "|" ++ name) = values' at hrel
    cases hrel with
    | none => rfl
    | some hthinned =>
      simp only [Option.bind_some, facetClause?, facetKey?_of_queryableFacet? hs hfacet,
        Option.bind_eq_bind, hfacet, hoperator,
        hthinned.filterMap_condition?_eq hs hfacet]
  · -- the key names no facet that filters may use
    have hnone (m : FilterMap) : (m.get? key).bind (facetClause? s m key) = none := by
      refine Option.eq_none_iff_forall_ne_some.2 fun clause hclause => hkey ?_
      obtain ⟨values, -, hclause⟩ := Option.bind_eq_some_iff.1 hclause
      simp only [facetClause?, Option.bind_eq_bind, Option.bind_eq_some_iff] at hclause
      obtain ⟨names, hnames, c, hc, -⟩ := hclause
      exact ⟨names.1, names.2, c, (facetKey?_eq_some_iff.1 hnames).1, hc⟩
    rw [hnone, hnone]

/-- Filter maps that agree have the same search. -/
theorem compile_eq (hs : Schema.build types = .ok s) (isPublic : Bool) :
    compile s m' isPublic = compile s m isPublic := by
  have hclauses : clauses s m' = clauses s m := by
    unfold clauses
    rw [h.terms?_eq, h.typeClause?_eq hs, h.fieldClauses_eq hs, h.facetDemands_eq hs]
  have hquery (conditions : List Filter) (shown : List Selection) (demands : List FacetDemand) :
      query m' conditions shown demands = query m conditions shown demands := by
    unfold query resultBlock offset
    rw [h.terms?_eq, h.pageSize_eq, h.page_eq]
  unfold compile
  rw [hclauses, h.terms?_eq, h.pageSize_eq, h.page_eq, h.facetDemands_eq hs]
  simp only [hquery]

end Agrees

/-! ### What is without effect -/

/-- What stands under keys that are not recognised is without effect on a search, and so are
the values under a key that are idle. -/
theorem compile_ignores (hs : Schema.build types = .ok s) (m : FilterMap) (isPublic : Bool) :
    (∀ m' : FilterMap, (∀ key, Recognised s key → m'.get? key = m.get? key) →
      compile s m' isPublic = compile s m isPublic) ∧
    ∀ key values values', m.get? key = some values → Thinned (Idle s m key) values values' →
      compile s (m.insert key values') isPublic = compile s m isPublic := by
  constructor
  · intro m' h
    refine Agrees.compile_eq (fun key hkey => ?_) hs isPublic
    rw [h key hkey]
    cases m.get? key with
    | none => exact .none
    | some values => exact .some (.refl values)
  · intro key values values' hm hvalues
    refine Agrees.compile_eq (fun other _ => ?_) hs isPublic
    rw [Table.get?_insert]
    split
    · rename_i heq
      subst heq
      rw [hm]
      exact .some hvalues
    · cases m.get? other with
      | none => exact .none
      | some values => exact .some (.refl values)

/-- A text that is none of the choices does not fit a field of several choices. -/
theorem not_fits_of_choices {p : Predicate} {choices : Choices}
    (hkind : p.kind = .multipleChoice choices) {v : String}
    (hv : choices.has (Text.trim v) = false) (op : Operator) : ¬ p.Fits op v := by
  rintro ⟨name, φ, -, h⟩
  cases h <;> simp_all [Predicate.Kind.IsText]

/-- A search by a language and by something that is none. -/
def languagesSearch : FilterMap :=
  .ofList [("languages", ["de", "klingon"])]

theorem sourceSearch_ignores :
    compile Inventory.schema (sourceSearch.insert "colour" ["red"]) true =
      compile Inventory.schema sourceSearch true ∧
    compile Inventory.schema (languagesSearch.insert "languages" ["de"]) true =
      compile Inventory.schema languagesSearch true := by
  constructor
  · refine (compile_ignores Inventory.build_entityTypes sourceSearch true).1 _ fun key hkey => ?_
    rw [Table.get?_insert, if_neg]
    rintro rfl
    have hnone : Inventory.schema.queryable? "colour" = none := by
      rw [Schema.queryable?, Inventory.predicate?_schema]
      decide +kernel
    obtain hfixed | ⟨p, hp⟩ := hkey.fixed_or_field (by decide) (by decide)
    · revert hfixed
      decide
    · rw [hnone] at hp
      cases hp
  · have hdeclared : ((Inventory.schema.queryable? "languages").map (·.kind)) =
        some (.multipleChoice Inventory.languages) := by
      rw [Schema.queryable?, Inventory.predicate?_schema]
      decide +kernel
    obtain ⟨p, hp, hkind⟩ := Option.map_eq_some_iff.1 hdeclared
    have hm : languagesSearch.get? "languages" = some ["de", "klingon"] := by decide +kernel
    have hidle : Idle Inventory.schema languagesSearch "languages" "klingon" :=
      .field (by decide) hp fun op _ => not_fits_of_choices hkind (by decide +kernel) op
    exact (compile_ignores Inventory.build_entityTypes languagesSearch true).2 _ _ _ hm
      (.keep _ (.drop hidle .nil))

end Search

end PressRegister
