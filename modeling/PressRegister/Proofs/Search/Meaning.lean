import PressRegister.Proofs.Inventory.Registry
import PressRegister.Proofs.Predicate.Meaning
import PressRegister.Proofs.Schema.Names
import PressRegister.Search

/-!
# What searches mean

A filter map asks for clauses: the search terms, the types, and what each key that names
a queryable predicate asks of it. A search without facets finds the nodes that satisfy all
of them, and there is no search if there is no clause.

## Main definitions

* `Search.Clause`: the clauses that a filter map asks for.
* `Search.Compiled.condition?`: the filter of the block that binds the matching entries.

## Main results

* `Search.clause_iff`: the clauses are what the conditions of the search mean.
* `Search.compile_means_clauses`: the filter of a search holds exactly if all clauses do.
* `Search.facetKey?_of_queryableFacet?`: a queryable facet of a predicate is read back from
  its key.
-/

namespace PressRegister.Search

open Predicate

/-! ### What a filter map asks for -/

/-- What search terms ask for: one of the search functions holds. -/
def TermsMean : Condition := fun r =>
  (∃ p ∈ termPredicates, r.compares .anyOfTerms p (.param termsParam)) ∨
    ∃ p ∈ exactPredicates, r.compares .eq p (.param termsParam)

/-- What names of types ask for: one of the registered types among them. -/
def TypesMean (s : Schema) (names : List String) : Condition := fun r =>
  ∃ name ∈ names, ∃ t, s.type? name = some t ∧ r.ofType t.name

/-- The clauses that a filter map asks for. -/
inductive Clause (s : Schema) (m : FilterMap) : Condition → Prop
  | terms {values : List String} (h : m.get? termsKey = some values)
      (hne : Text.trim (" ".intercalate values) ≠ "") : Clause s m TermsMean
  | types {names : List String} (h : m.get? typeKey = some names)
      (hregistered : ∃ name ∈ names, ∃ t, s.type? name = some t) :
      Clause s m (TypesMean s names)
  | field {key : String} {values : List String} {p : Predicate} {op : Operator}
      (h : m.get? key = some values) (hkey : key.toList.head? ≠ some '_')
      (hp : s.queryable? key = some p) (huses : p.Uses (m.operator? key) op)
      (husable : op = .has ∨ ∃ v ∈ values, p.Fits op v) :
      Clause s m (p.FieldMeans op
        ((m.connector? key).getD (if p.isList then .and else .or)) values)

/-- The filter of the block that binds the matching entries. -/
def Compiled.condition? (c : Compiled) : Option Filter :=
  (c.query.blocks.find? fun b => b.bindsVar && b.name == filteredVar).bind (·.filter)

/-! ### What the conditions of a search mean -/

/-- The conditions that a filter map asks for apart from facets. -/
def plainConditions (s : Schema) (m : FilterMap) : List Filter :=
  ((terms? m).map fun _ => termsClause).toList ++ (typeClause? s m).toList ++
    (fieldClauses s m).map (·.2)

variable {s : Schema} {m : FilterMap}

theorem terms?_eq_some_iff {terms : String} :
    terms? m = some terms ↔ ∃ values, m.get? termsKey = some values ∧
      Text.trim (" ".intercalate values) = terms ∧ terms ≠ "" := by
  simp only [terms?, Option.filter_eq_some_iff, Option.map_eq_some_iff, bne_iff_ne]
  exact ⟨fun ⟨⟨values, h, hterms⟩, hne⟩ => ⟨values, h, hterms, hne⟩,
    fun ⟨values, h, hterms, hne⟩ => ⟨⟨values, h, hterms⟩, hne⟩⟩

theorem holds_termsClause : termsClause.Holds = TermsMean := by
  funext r
  simp only [termsClause, Filter.holds_or, TermsMean, eq_iff_iff, List.mem_append, List.mem_map]
  constructor
  · rintro ⟨f, ⟨p, hp, rfl⟩ | ⟨p, hp, rfl⟩, hr⟩
    · exact .inl ⟨p, hp, hr⟩
    · exact .inr ⟨p, hp, hr⟩
  · rintro (⟨p, hp, hr⟩ | ⟨p, hp, hr⟩)
    · exact ⟨_, .inl ⟨p, hp, rfl⟩, hr⟩
    · exact ⟨_, .inr ⟨p, hp, rfl⟩, hr⟩

theorem mem_registeredTypes {names : List String} {name : String} :
    name ∈ registeredTypes s names ↔ ∃ n ∈ names, ∃ t, s.type? n = some t ∧ t.name = name := by
  simp only [registeredTypes, mem_withoutRepeats, List.mem_map, List.mem_filterMap]
  exact ⟨fun ⟨t, ⟨n, hn, ht⟩, hname⟩ => ⟨n, hn, t, ht, hname⟩,
    fun ⟨n, hn, t, ht, hname⟩ => ⟨t, ⟨n, hn, ht⟩, hname⟩⟩

theorem exists_typeClause?_iff : (∃ f, typeClause? s m = some f) ↔
    ∃ names, m.get? typeKey = some names ∧ ∃ name ∈ names, ∃ t, s.type? name = some t := by
  rw [← Option.ne_none_iff_exists', typeClause?, ne_eq, Filter.anyOf?_eq_none, List.map_eq_nil_iff]
  cases h : m.get? typeKey with
  | none => simp [registeredTypes, withoutRepeats]
  | some names =>
    simp only [Option.getD_some, Option.some.injEq, exists_eq_left']
    constructor
    · intro hne
      obtain ⟨name, hname⟩ := List.exists_mem_of_ne_nil _ hne
      obtain ⟨n, hn, t, ht, -⟩ := mem_registeredTypes.1 hname
      exact ⟨n, hn, t, ht⟩
    · rintro ⟨n, hn, t, ht⟩
      exact List.ne_nil_of_mem (mem_registeredTypes.2 ⟨n, hn, t, ht, rfl⟩)

theorem holds_typeClause? {names : List String} {f : Filter} (hm : m.get? typeKey = some names)
    (h : typeClause? s m = some f) : f.Holds = TypesMean s names := by
  funext r
  rw [typeClause?, hm, Option.getD_some] at h
  rw [Filter.holds_anyOf? h, TypesMean, eq_iff_iff]
  simp only [List.mem_map, mem_registeredTypes]
  constructor
  · rintro ⟨f, ⟨name, ⟨n, hn, t, ht, rfl⟩, rfl⟩, hr⟩
    exact ⟨n, hn, t, ht, hr⟩
  · rintro ⟨n, hn, t, ht, hr⟩
    exact ⟨_, ⟨t.name, ⟨n, hn, t, ht, rfl⟩, rfl⟩, hr⟩

/-! ### Keys -/

theorem isPredicateKey_of_build {types : List EntityType} (hs : Schema.build types = .ok s)
    {key : String} {p : Predicate} (hp : s.predicate? key = some p)
    (hkey : key.toList.head? ≠ some '_') : isPredicateKey key = true := by
  have hname := Schema.isUndotted_of_isPredicateName (Schema.isPredicateName_of_build hs hp)
  have hchars := (Text.isIdentifier_spec (Schema.isIdentifier_of_isUndotted hname)).2
  have hfree (c : Char) (hc : ¬ Text.IsIdentifierChar c) : c ∉ key.toList :=
    fun hmem => hc (hchars c hmem)
  have hdot : key ≠ typeKey := by
    rintro rfl
    rw [Schema.predicate?_typeKey hs] at hp
    cases hp
  have hstar := hfree '*' (by decide)
  have hbar := hfree '|' (by decide)
  simp [isPredicateKey, hkey, hdot, hstar, hbar]

theorem fieldClause?_eq_some_iff {types : List EntityType} (hs : Schema.build types = .ok s)
    {key : String} {values : List String} {p : Predicate} {f : Filter} :
    fieldClause? s m key values = some (p, f) ↔ key.toList.head? ≠ some '_' ∧
      s.queryable? key = some p ∧
      p.condition? values (m.operator? key) (m.connector? key) = some f := by
  unfold fieldClause?
  constructor
  · intro h
    split at h
    · cases h
    · rename_i hkey
      simp only [Option.bind_eq_bind, Option.bind_eq_some_iff, Option.pure_def, Option.some.injEq,
        Prod.mk.injEq] at h
      obtain ⟨p', hp, f', hf, rfl, rfl⟩ := h
      simp only [isPredicateKey, Bool.not_eq_true', Bool.not_eq_false, Bool.and_eq_true,
        bne_iff_ne] at hkey
      exact ⟨hkey.1.1.1, hp, hf⟩
  · rintro ⟨hkey, hp, hf⟩
    have hregistered : s.predicate? key = some p := by
      simp only [Schema.queryable?, Option.filter_eq_some_iff] at hp
      exact hp.1
    simp [isPredicateKey_of_build hs hregistered hkey, hp, hf]

/-! ### Keys for facets -/

theorem splitKey?_eq_some_iff {key : String} {names : String × String} :
    Facet.splitKey? key = some names ↔
      key.toList = names.1.toList ++ '|' :: names.2.toList ∧ '|' ∉ names.1.toList := by
  obtain ⟨predicate, facet⟩ := names
  have hsplit := List.takeWhile_append_dropWhile (p := (· != '|')) (l := key.toList)
  unfold Facet.splitKey?
  constructor
  · intro h
    split at h
    · cases h
    · rename_i c rest hdrop
      obtain ⟨rfl, rfl⟩ := Prod.mk.inj (Option.some.inj h)
      have hbar : c = '|' := by
        simpa [hdrop] using List.head?_dropWhile_not (p := (· != '|')) (l := key.toList)
      rw [hdrop, hbar] at hsplit
      refine ⟨by simp [hsplit], fun hmem => ?_⟩
      rw [String.toList_ofList] at hmem
      simpa using List.all_eq_true.1 List.all_takeWhile _ hmem
  · rintro ⟨hkey, hfree⟩
    have hpos : ∀ c ∈ predicate.toList, (c != '|') = true := fun c hc =>
      bne_iff_ne.2 fun heq => hfree (heq ▸ hc)
    rw [hkey, List.dropWhile_append_of_pos hpos, List.takeWhile_append_of_pos hpos]
    simp

/-- A key for a facet is the name of a predicate, a bar, and the name of a facet. -/
theorem facetKey?_eq_some_iff {key : String} {names : String × String} :
    facetKey? key = some names ↔ key = names.1 ++ "|" ++ names.2 ∧ '|' ∉ names.1.toList ∧
      '*' ∉ key.toList := by
  have hkey : key = names.1 ++ "|" ++ names.2 ↔
      key.toList = names.1.toList ++ '|' :: names.2.toList := by
    rw [← String.toList_inj]
    simp
  unfold facetKey?
  rw [hkey]
  split
  · rename_i hstar
    simp_all
  · rename_i hstar
    rw [splitKey?_eq_some_iff]
    simp_all

theorem predicate?_of_queryableFacet? {predicate name : String} {p : Predicate} {facet : Facet}
    (h : s.queryableFacet? predicate name = some (p, facet)) :
    s.predicate? predicate = some p ∧ facet ∈ p.facets ∧ facet.name = name ∧
      facet.queryable = true := by
  simp only [Schema.queryableFacet?, Predicate.facet?, Option.bind_eq_bind,
    Option.bind_eq_some_iff, Option.pure_def, Option.some.injEq, Prod.mk.injEq,
    Option.filter_eq_some_iff] at h
  obtain ⟨q, hq, facet', ⟨hfind, hqueryable⟩, rfl, rfl⟩ := h
  exact ⟨hq, List.mem_of_find?_eq_some hfind, by simpa using List.find?_some hfind, hqueryable⟩

/-- Registered names can be told apart in the key of a facet. -/
theorem facetKey?_of_queryableFacet? {types : List EntityType}
    (hs : Schema.build types = .ok s) {predicate name : String}
    {p : Predicate} {facet : Facet} (h : s.queryableFacet? predicate name = some (p, facet)) :
    facetKey? (predicate ++ "|" ++ name) = some (predicate, name) := by
  obtain ⟨hp, hfacet, rfl, -⟩ := predicate?_of_queryableFacet? h
  have hpredicate := (Text.isIdentifier_spec (Schema.isIdentifier_of_isUndotted
    (Schema.isUndotted_of_isPredicateName (Schema.isPredicateName_of_build hs hp)))).2
  have hname := (Text.isIdentifier_spec (Schema.isIdentifier_of_isUndotted
    ((Schema.wellNamed_of_build hs hp).facets facet hfacet))).2
  have hfree {c : Char} {cs : List Char} (hcs : ∀ d ∈ cs, Text.IsIdentifierChar d)
      (hc : ¬ Text.IsIdentifierChar c) : c ∉ cs := fun hmem => hc (hcs c hmem)
  refine facetKey?_eq_some_iff.2 ⟨rfl, hfree hpredicate (by decide), ?_⟩
  simp [hfree hpredicate (c := '*') (by decide), hfree hname (c := '*') (by decide)]

/-! ### Clauses and conditions -/

/-- The clauses that a filter map asks for are what the conditions of its search mean. -/
theorem clause_iff {types : List EntityType} (hs : Schema.build types = .ok s) {φ : Condition} :
    Clause s m φ ↔ ∃ f ∈ plainConditions s m, φ = f.Holds := by
  simp only [plainConditions, List.mem_append, Option.mem_toList, Option.map_eq_some_iff,
    List.mem_map, fieldClauses, List.mem_filterMap]
  constructor
  · rintro (⟨h, hne⟩ | ⟨h, hregistered⟩ | ⟨h, hkey, hp, huses, husable⟩)
    · exact ⟨termsClause, .inl (.inl ⟨_, terms?_eq_some_iff.2 ⟨_, h, rfl, hne⟩, rfl⟩),
        holds_termsClause.symm⟩
    · obtain ⟨f, hf⟩ := exists_typeClause?_iff.2 ⟨_, h, hregistered⟩
      exact ⟨f, .inl (.inr hf), (holds_typeClause? h hf).symm⟩
    · obtain ⟨f, hf⟩ := exists_condition?_iff.2 ⟨_, huses, husable⟩
      exact ⟨f, .inr ⟨(_, f), ⟨(_, _), Table.get?_eq_some_iff.1 h,
        (fieldClause?_eq_some_iff hs).2 ⟨hkey, hp, hf⟩⟩, rfl⟩,
        funext fun r => propext (holds_condition? huses hf).symm⟩
  · rintro ⟨f, (⟨terms, hterms, rfl⟩ | hf) | ⟨⟨p, f⟩, ⟨⟨key, values⟩, hmem, hf⟩, rfl⟩, rfl⟩
    · obtain ⟨values, h, rfl, hne⟩ := terms?_eq_some_iff.1 hterms
      exact holds_termsClause ▸ .terms h hne
    · obtain ⟨names, h, hregistered⟩ := exists_typeClause?_iff.1 ⟨f, hf⟩
      exact holds_typeClause? h hf ▸ .types h hregistered
    · obtain ⟨hkey, hp, hcondition⟩ := (fieldClause?_eq_some_iff hs).1 hf
      obtain ⟨op, huses, husable⟩ := exists_condition?_iff.1 ⟨f, hcondition⟩
      have hmeans : f.Holds = p.FieldMeans op (p.connectorFor (m.connector? key)) values :=
        funext fun r => propext (holds_condition? huses hcondition)
      exact hmeans ▸ .field (Table.get?_eq_some_iff.2 hmem) hkey hp huses husable

/-- Without keys for facets, a search has no other conditions. -/
theorem clauses_of_forall_facetKey? (hm : ∀ key ∈ m.keys, facetKey? key = none) :
    (clauses s m).1 = plainConditions s m := by
  have hnone : m.entries.filterMap (fun e => facetClause? s m e.1 e.2) = [] := by
    refine List.filterMap_eq_nil_iff.2 fun e he => ?_
    rw [facetClause?, hm e.1 (List.mem_map_of_mem he)]
    rfl
  have hdemands : facetDemands s m = .empty := by
    rw [facetDemands, hnone, List.foldl_nil]
  rw [clauses, hdemands]
  rfl

/-! ### The search -/

variable {isPublic : Bool}

theorem compile_eq_none_iff : compile s m isPublic = none ↔ (clauses s m).1 = [] := by
  simp only [compile]
  split <;> simp_all

/-- The filter of a search has one part for each condition, and in a public search one
more. -/
theorem compile_condition? {c : Compiled} (h : compile s m isPublic = some c) :
    c.condition? = Filter.allOf?
      (if isPublic then (clauses s m).1 ++ [visibility] else (clauses s m).1) := by
  simp only [compile] at h
  split at h
  · cases h
  · cases h
    rfl

theorem query_of_compile {c : Compiled} (h : compile s m isPublic = some c) :
    c.query = query m (if isPublic then (clauses s m).1 ++ [visibility] else (clauses s m).1)
      (clauses s m).2 (facetDemands s m).values := by
  simp only [compile] at h
  split at h
  · cases h
  · cases h
    rfl

theorem exists_compile_of_clause {types : List EntityType} (hs : Schema.build types = .ok s)
    (hm : ∀ key ∈ m.keys, facetKey? key = none) {φ : Condition} (h : Clause s m φ) :
    ∃ c, compile s m isPublic = some c := by
  obtain ⟨f, hf, -⟩ := (clause_iff hs).1 h
  rw [← Option.ne_none_iff_exists', ne_eq, compile_eq_none_iff, clauses_of_forall_facetKey? hm]
  exact List.ne_nil_of_mem hf

/-- A search without facets exists exactly if the filter map asks for a clause, and its
filter holds of a node exactly if all clauses do. -/
theorem compile_means_clauses {types : List EntityType} (hs : Schema.build types = .ok s)
    (hm : ∀ key ∈ m.keys, facetKey? key = none) :
    (compile s m false = none ↔ ∀ φ, ¬ Clause s m φ) ∧
      ∀ c, compile s m false = some c → ∃ f, c.condition? = some f ∧
        ∀ r, f.Holds r ↔ ∀ φ, Clause s m φ → φ r := by
  have hplain : (clauses s m).1 = plainConditions s m := clauses_of_forall_facetKey? hm
  constructor
  · rw [compile_eq_none_iff, hplain, List.eq_nil_iff_forall_not_mem]
    simp only [clause_iff hs]
    exact ⟨fun hnone φ ⟨f, hf, _⟩ => hnone f hf, fun hnone f hf => hnone f.Holds ⟨f, hf, rfl⟩⟩
  · intro c hc
    have hne : plainConditions s m ≠ [] := fun hnil => by
      rw [compile_eq_none_iff.2 (hplain.trans hnil)] at hc
      cases hc
    have hcondition := compile_condition? hc
    rw [if_neg (by simp), hplain] at hcondition
    obtain ⟨f, hf⟩ := Filter.exists_allOf? hne
    refine ⟨f, hcondition.trans hf, fun r => ?_⟩
    rw [Filter.holds_allOf? hf]
    simp only [clause_iff hs]
    exact ⟨fun hall φ ⟨g, hg, hφ⟩ => hφ ▸ hall g hg, fun hall g hg => hall _ ⟨g, hg, rfl⟩⟩

/-! ### A search for sources -/

/-- A search for sources in one of two languages that match a word. -/
def sourceSearch : FilterMap :=
  .ofList [("_terms", ["falter"]), ("dgraph.type", ["Source"]), ("languages", ["de", "en"]),
    ("languages*connector", ["or"])]

theorem facetKey?_sourceSearch : ∀ key ∈ sourceSearch.keys, facetKey? key = none := by
  decide +kernel

theorem exists_compile_sourceSearch (isPublic : Bool) :
    ∃ c, compile Inventory.schema sourceSearch isPublic = some c := by
  have hget : sourceSearch.get? termsKey = some ["falter"] := by decide +kernel
  exact exists_compile_of_clause Inventory.build_entityTypes facetKey?_sourceSearch
    (.terms hget (by decide +kernel))

theorem sourceSearch_means_clauses : ∃ c f,
    compile Inventory.schema sourceSearch false = some c ∧ c.condition? = some f ∧
      ∀ r, f.Holds r ↔ ∀ φ, Clause Inventory.schema sourceSearch φ → φ r := by
  obtain ⟨c, hc⟩ := exists_compile_sourceSearch false
  obtain ⟨f, hf, hmeans⟩ :=
    (compile_means_clauses Inventory.build_entityTypes facetKey?_sourceSearch).2 c hc
  exact ⟨c, f, hc, hf, hmeans⟩

end PressRegister.Search
