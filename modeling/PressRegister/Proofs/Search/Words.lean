import PressRegister.Proofs.Query.Masking
import PressRegister.Proofs.Search.Meaning
import PressRegister.Proofs.Text.Words

/-!
# The words of a search

Outside of its literals the query of a search holds keywords, fixed names, registered
names, and numbers, truth values and identifiers that were read from a value of the filter
map and are written anew. Nothing else of the filter map reaches the query.

## Main definitions

* `Search.Word`: the words that a search may hold.

## Main results

* `Search.isVocabulary_word`: they are words, and keywords are among them.
* `Search.query_says`: the query of a search holds no others.
-/

namespace PressRegister

open Number Text

/-- A text is one of the values of a filter map. -/
def FilterMap.HasValue (m : FilterMap) (v : String) : Prop :=
  ∃ key values, m.get? key = some values ∧ v ∈ values

namespace Search

/-- The names that every search may hold. -/
def fixedNames : List String :=
  [filteredVar, "total", "q", "$" ++ termsParam, "string", typeKey, "entry_review_status"] ++
    termPredicates ++ exactPredicates ++ resultFields ++ relatedFields ++ resultRelations

/-- The words that the search of a filter map may hold outside of literals. -/
inductive Word (s : Schema) (m : FilterMap) : String → Prop
  | keyword {w : String} (h : w ∈ keywords) : Word s m w
  | fixed {w : String} (h : w ∈ fixedNames) : Word s m w
  /-- The name of a registered predicate. -/
  | predicate {key : String} {p : Predicate} (h : s.predicate? key = some p) : Word s m p.name
  /-- The name of a registered predicate, against the direction of its edges. -/
  | against {key : String} {p : Predicate} (h : s.predicate? key = some p) :
      Word s m ("~" ++ p.name)
  | otherName {key a : String} {p : Predicate} (h : s.predicate? key = some p)
      (ha : a ∈ p.aliases) : Word s m a
  | facet {key : String} {p : Predicate} {f : Facet} (h : s.predicate? key = some p)
      (hf : f ∈ p.facets) : Word s m f.name
  | total {key : String} {p : Predicate} (h : s.predicate? key = some p) :
      Word s m ("total_" ++ p.name)
  | integer {v : String} {n : Int} (hv : m.HasValue v) (h : readInt64? (trim v) = some n) :
      Word s m (intText n)
  | float {v : String} {d : Double} (hv : m.HasValue v) (h : readFinite? (trim v) = some d) :
      Word s m d.plainText
  | boolean {v name : String} {b : Bool} (hv : m.HasValue v)
      (h : Predicate.readBool name (trim v) = .ok b) : Word s m (Scalar.boolText b)
  | node {v : String} {u : Uid} (hv : m.HasValue v) (h : Uid.parse? (trim v) = some u) :
      Word s m u.text
  /-- The number of results on a page, as it was read or by default. -/
  | pageSize : Word s m (natText (pageSize m))
  | offset : Word s m (natText (offset m))

variable {types : List EntityType} {s : Schema} {m : FilterMap}

theorem isWord_registered (hs : Schema.build types = .ok s) {key : String} {p : Predicate}
    (h : s.predicate? key = some p) : IsWord p.name :=
  isWord_of_isIdentifier (Schema.isIdentifier_of_isUndotted
    (Schema.isUndotted_of_isPredicateName (Schema.wellNamed_of_build hs h).name))

/-- What a search may hold outside of literals are words, and keywords are among them. -/
theorem isVocabulary_word (hs : Schema.build types = .ok s) : IsVocabulary (Word s m) where
  keyword := .keyword
  isWord h := by
    cases h with
    | keyword h =>
      have hall : ∀ w ∈ keywords, IsWord w := by
        decide +kernel
      exact hall _ h
    | fixed h =>
      have hall : ∀ w ∈ fixedNames, IsWord w := by
        decide +kernel
      exact hall _ h
    | predicate h => exact isWord_registered hs h
    | against h => exact IsWord.append (by decide) (isWord_registered hs h)
    | otherName h ha => exact isWord_of_isIdentifier ((Schema.wellNamed_of_build hs h).aliases _ ha)
    | facet h hf =>
      exact isWord_of_isIdentifier (Schema.isIdentifier_of_isUndotted
        ((Schema.wellNamed_of_build hs h).facets _ hf))
    | total h => exact IsWord.append (by decide) (isWord_registered hs h)
    | integer => exact isWord_intText _
    | float _ h =>
      simp only [readFinite?, Option.filter_eq_some_iff] at h
      exact isWord_plainText h.2
    | boolean => exact isWord_boolText _
    | node => exact Uid.isWord_text _
    | pageSize => exact isWord_natText _
    | offset => exact isWord_natText _

/-- The name that queries use for a registered predicate. -/
theorem word_queryName (hs : Schema.build types = .ok s) {key : String} {p : Predicate}
    (h : s.predicate? key = some p) : Word s m p.queryName := by
  rcases Schema.queryName_of_build hs h with hname | ⟨q, edge, hq, hname⟩
  · exact hname ▸ .predicate h
  · rw [hname, ← (Schema.wellFormed_of_build hs).predicateNames hq]
    exact .against hq

/-! ### Conditions -/

theorem says_textCondition {name token : String} {op : Operator} {f : Filter}
    (hname : Word s m name)
    (h : some (Filter.compare op name (if op == .regexp then .pattern token else .text token)) =
      some f) : f.Says (Word s m) := by
  cases h
  refine ⟨hname, ?_⟩
  split <;> trivial

theorem says_choiceCondition {name token : String} {op : Operator} {f : Filter}
    {choices : Choices} (hname : Word s m name)
    (h : (if choices.has token then some (Filter.compare op name (.text token)) else none) =
      some f) : f.Says (Word s m) := by
  split at h
  · cases h
    exact ⟨hname, trivial⟩
  · cases h

theorem says_yearCondition? {name : String} {op : Operator} {year : Nat} {f : Filter}
    (hname : Word s m name) (h : Predicate.yearCondition? name op year = some f) :
    f.Says (Word s m) := by
  unfold Predicate.yearCondition? at h
  split at h
  · cases h
  · cases h
    cases op with
    | eq => exact ⟨⟨hname, trivial⟩, ⟨hname, trivial⟩, trivial⟩
    | _ => exact ⟨hname, trivial⟩

/-- A condition on a value holds the name it is on, and what was read from the value. -/
theorem says_valueCondition? {p : Predicate} {name value : String} {op : Operator} {f : Filter}
    (hname : Word s m name) (hvalue : m.HasValue value)
    (h : p.valueCondition? name op value = some f) : f.Says (Word s m) := by
  unfold Predicate.valueCondition? at h
  simp only at h
  split at h
  · cases h
  split at h
  · cases h
  · cases h
  · obtain ⟨u, hread, rfl⟩ := Option.map_eq_some_iff.1 h
    exact ⟨hname, .node hvalue hread⟩
  · exact says_textCondition hname h
  · exact says_textCondition hname h
  · exact says_textCondition hname h
  · exact says_choiceCondition hname h
  · exact says_choiceCondition hname h
  · obtain ⟨n, hread, rfl⟩ := Option.map_eq_some_iff.1 h
    exact ⟨hname, .integer hvalue hread⟩
  · split at h
    · rename_i b hread
      cases h
      exact ⟨hname, .boolean hvalue hread⟩
    · cases h
  · unfold Predicate.dateCondition? at h
    split at h
    · exact says_yearCondition? hname h
    · obtain ⟨t, -, rfl⟩ := Option.map_eq_some_iff.1 h
      exact ⟨hname, trivial⟩

variable {values : List String}

theorem says_condition? (hs : Schema.build types = .ok s) {key : String} {p : Predicate}
    (hp : s.predicate? key = some p) (hvalues : ∀ v ∈ values, m.HasValue v)
    {operator : Option Operator} {asked : Option Connector} {f : Filter}
    (h : p.condition? values operator asked = some f) : f.Says (Word s m) := by
  simp only [Predicate.condition?, Option.bind_eq_bind, Option.bind_eq_some_iff] at h
  obtain ⟨op, -, h⟩ := h
  refine Filter.says_anyOf? h fun g hg => ?_
  obtain ⟨name, hname, hg⟩ := List.mem_filterMap.1 hg
  have hword : Word s m name := by
    rcases List.mem_cons.1 hname with rfl | ha
    · exact word_queryName hs hp
    · exact .otherName hp ha
  unfold Predicate.nameCondition? at hg
  split at hg
  · cases hg
    exact hword
  · refine Filter.says_join? hg fun c hc => ?_
    obtain ⟨v, hv, hc⟩ := List.mem_filterMap.1 hc
    exact says_valueCondition? hword (hvalues v hv) hc

theorem hasValue_of_mem {e : String × List String} (he : e ∈ m.entries) :
    ∀ v ∈ e.2, m.HasValue v :=
  fun _ hv => ⟨e.1, e.2, Table.get?_eq_some_iff.2 he, hv⟩

/-- The predicates that are filtered on are registered, and the conditions on them hold
words of the search only. -/
theorem fieldClauses_spec (hs : Schema.build types = .ok s) {c : Predicate × Filter}
    (hc : c ∈ fieldClauses s m) :
    (∃ key, s.predicate? key = some c.1) ∧ c.2.Says (Word s m) := by
  obtain ⟨⟨key, values⟩, he, hc⟩ := List.mem_filterMap.1 hc
  obtain ⟨-, hp, hcondition⟩ := (fieldClause?_eq_some_iff hs).1 hc
  simp only [Schema.queryable?, Option.filter_eq_some_iff] at hp
  exact ⟨⟨key, hp.1⟩, says_condition? hs hp.1 (hasValue_of_mem he) hcondition⟩

/-! ### Facets -/

theorem says_facetCondition? {key value : String} {p : Predicate} {facet : Facet}
    (hp : s.predicate? key = some p) (hfacet : facet ∈ p.facets) (hvalue : m.HasValue value)
    {asked : Option Operator} {f : Filter} (h : facet.condition? value asked = some f) :
    f.Says (Word s m) := by
  obtain ⟨arg, harg, rfl⟩ := Option.map_eq_some_iff.1 h
  refine ⟨.facet hp hfacet, ?_⟩
  unfold Facet.arg? at harg
  split at harg
  · cases harg
    trivial
  · split at harg
    · cases harg
      trivial
    · cases harg
  · obtain ⟨n, hread, rfl⟩ := Option.map_eq_some_iff.1 harg
    exact .integer hvalue hread
  · obtain ⟨d, hread, rfl⟩ := Option.map_eq_some_iff.1 harg
    exact .float hvalue hread
  · obtain ⟨t, -, rfl⟩ := Option.map_eq_some_iff.1 harg
    trivial
  · split at harg
    · rename_i b hread
      cases harg
      exact .boolean hvalue hread
    · cases harg

/-- What is asked of the facets of a predicate is said in words of the search. -/
structure FacetDemand.Says (s : Schema) (m : FilterMap) (d : FacetDemand) : Prop where
  predicate : ∃ key, s.predicate? key = some d.predicate
  conditions : ∀ f ∈ d.conditions, f.Says (Word s m)
  keys : ∀ k ∈ d.keys, Word s m k

theorem facetClause?_spec {key : String} (hvalues : ∀ v ∈ values, m.HasValue v)
    {p : Predicate} {facet : Facet} {f : Filter}
    (h : facetClause? s m key values = some (p, facet, f)) :
    (∃ key, s.predicate? key = some p) ∧ facet ∈ p.facets ∧ f.Says (Word s m) := by
  simp only [facetClause?, Schema.queryableFacet?, Predicate.facet?, Option.bind_eq_bind,
    Option.bind_eq_some_iff, Option.pure_def, Option.some.injEq, Prod.mk.injEq, Prod.exists,
    Option.filter_eq_some_iff] at h
  obtain ⟨pname, fname, -, p', facet', ⟨q, hq, facet'', ⟨hfind, -⟩, rfl, rfl⟩, f', hf, rfl, rfl,
    rfl⟩ := h
  have hfacet := List.mem_of_find?_eq_some hfind
  refine ⟨⟨pname, hq⟩, hfacet, Filter.says_allOf? hf fun g hg => ?_⟩
  obtain ⟨v, hv, hg⟩ := List.mem_filterMap.1 hg
  exact says_facetCondition? hq hfacet (hvalues v hv) hg

theorem says_addFacet {demands : Table FacetDemand}
    (hdemands : ∀ d ∈ demands.values, d.Says s m) {p : Predicate} {facet : Facet} {f : Filter}
    (hp : ∃ key, s.predicate? key = some p) (hfacet : facet ∈ p.facets)
    (hf : f.Says (Word s m)) : ∀ d ∈ (addFacet demands (p, facet, f)).values, d.Says s m := by
  have hold : ((demands.get? p.name).getD ⟨p, [], []⟩).Says s m := by
    cases hget : demands.get? p.name with
    | none => exact ⟨hp, by simp, by simp⟩
    | some d => exact hdemands d (Table.mem_values_iff.2 ⟨_, hget⟩)
  obtain ⟨key, hkey⟩ := hp
  intro d hd
  obtain ⟨name, hget⟩ := Table.mem_values_iff.1 hd
  simp only [addFacet, Table.get?_insert] at hget
  split at hget
  · cases hget
    refine ⟨hold.predicate, fun g hg => ?_, fun k hk => ?_⟩
    · rcases List.mem_append.1 hg with hg | hg
      · exact hold.conditions g hg
      · exact List.mem_singleton.1 hg ▸ hf
    · dsimp only at hk
      split at hk
      · exact hold.keys k hk
      · rcases List.mem_append.1 hk with hk | hk
        · exact hold.keys k hk
        · exact List.mem_singleton.1 hk ▸ .facet hkey hfacet
  · exact hdemands d (Table.mem_values_iff.2 ⟨name, hget⟩)

theorem says_facetDemands : ∀ d ∈ (facetDemands s m).values, d.Says s m := by
  have hall : ∀ c ∈ m.entries.filterMap (fun e => facetClause? s m e.1 e.2),
      (∃ key, s.predicate? key = some c.1) ∧ c.2.1 ∈ c.1.facets ∧ c.2.2.Says (Word s m) :=
    fun ⟨p, facet, f⟩ hc => by
      obtain ⟨e, he, hc⟩ := List.mem_filterMap.1 hc
      exact facetClause?_spec (hasValue_of_mem he) hc
  unfold facetDemands
  generalize m.entries.filterMap (fun e => facetClause? s m e.1 e.2) = clauses at hall
  have hnone : ∀ d ∈ (Table.empty : Table FacetDemand).values, d.Says s m := fun d hd => by cases hd
  generalize Table.empty = demands at hnone
  induction clauses generalizing demands with
  | nil => exact hnone
  | cons c rest ih =>
    obtain ⟨⟨hp, hfacet, hf⟩, hrest⟩ := List.forall_mem_cons.1 hall
    exact ih hrest _ (says_addFacet hnone hp hfacet hf)

/-! ### What is shown -/

theorem mem_pushUnique {selections : List Selection} {a b : Selection}
    (h : b ∈ Selection.pushUnique selections a) : b ∈ selections ∨ b = a := by
  unfold Selection.pushUnique at h
  split at h
  · exact .inl h
  · simpa using h

theorem says_fields {names : List String} (h : ∀ n ∈ names, n ∈ fixedNames) :
    ∀ a ∈ names.map Selection.field, a.Says (Word s m) := by
  intro a ha
  obtain ⟨n, hn, rfl⟩ := List.mem_map.1 ha
  exact .fixed (h n hn)

theorem says_projection (hs : Schema.build types = .ok s) {p : Predicate}
    (hp : ∃ key, s.predicate? key = some p) {facetKeys : List String}
    (hkeys : ∀ k ∈ facetKeys, Word s m k) : (projection p facetKeys).Says (Word s m) := by
  obtain ⟨key, hp⟩ := hp
  have hname : Word s m p.queryName := word_queryName hs hp
  have hchildren : ∀ a ∈ if p.isRelationship then relatedFields.map Selection.field else [],
      a.Says (Word s m) := by
    split
    · exact says_fields (by decide)
    · simp
  unfold projection
  generalize (if p.isRelationship then relatedFields.map Selection.field else []) = children
    at hchildren
  dsimp only
  split
  · exact hname
  · exact ⟨hname, by simp, hkeys, Selection.allSay_iff.2 hchildren⟩

theorem says_shownFields (hs : Schema.build types = .ok s) {fields : List (Predicate × Filter)}
    (hfields : ∀ c ∈ fields, ∃ key, s.predicate? key = some c.1) :
    ∀ a ∈ shownFields (facetDemands s m) fields, a.Says (Word s m) := by
  have hresult : ∀ a ∈ resultFields.map Selection.field, a.Says (Word s m) :=
    says_fields (by decide)
  unfold shownFields
  generalize resultFields.map Selection.field = shown at hresult
  induction fields generalizing shown with
  | nil => exact hresult
  | cons c rest ih =>
    obtain ⟨hc, hrest⟩ := List.forall_mem_cons.1 hfields
    refine ih hrest _ fun a ha => ?_
    rcases mem_pushUnique ha with ha | rfl
    · exact hresult a ha
    · refine says_projection hs hc fun k hk => ?_
      cases hget : (facetDemands s m).get? c.1.name with
      | none => simp [hget] at hk
      | some d =>
        rw [hget] at hk
        exact (says_facetDemands d (Table.mem_values_iff.2 ⟨_, hget⟩)).keys k hk

/-- What facets require and show in addition. -/
theorem says_requireFacet (hs : Schema.build types = .ok s) {demands : List FacetDemand}
    (hdemands : ∀ d ∈ demands, d.Says s m) {acc : List Filter × List Selection}
    (hconditions : ∀ f ∈ acc.1, f.Says (Word s m)) (hshown : ∀ a ∈ acc.2, a.Says (Word s m)) :
    (∀ f ∈ (demands.foldl requireFacet acc).1, f.Says (Word s m)) ∧
      ∀ a ∈ (demands.foldl requireFacet acc).2, a.Says (Word s m) := by
  induction demands generalizing acc with
  | nil => exact ⟨hconditions, hshown⟩
  | cons d rest ih =>
    obtain ⟨hd, hrest⟩ := List.forall_mem_cons.1 hdemands
    rw [List.foldl_cons]
    unfold requireFacet
    split
    · exact ih hrest hconditions hshown
    · obtain ⟨key, hp⟩ := hd.predicate
      refine ih hrest (fun f hf => ?_) (fun a ha => ?_)
      · rcases List.mem_append.1 hf with hf | hf
        · exact hconditions f hf
        · exact List.mem_singleton.1 hf ▸ word_queryName hs hp
      · rcases mem_pushUnique ha with ha | rfl
        · exact hshown a ha
        · exact says_projection hs hd.predicate hd.keys

theorem says_termsClause : termsClause.Says (Word s m) := by
  refine Filter.allSay_iff.2 fun f hf => ?_
  rcases List.mem_append.1 hf with hf | hf
  · obtain ⟨p, hp, rfl⟩ := List.mem_map.1 hf
    have hall : ∀ p ∈ termPredicates, p ∈ fixedNames := by decide
    exact ⟨.fixed (hall p hp), .fixed (by decide)⟩
  · obtain ⟨p, hp, rfl⟩ := List.mem_map.1 hf
    have hall : ∀ p ∈ exactPredicates, p ∈ fixedNames := by decide
    exact ⟨.fixed (hall p hp), .fixed (by decide)⟩

theorem says_typeClause? {f : Filter} (h : typeClause? s m = some f) : f.Says (Word s m) := by
  refine Filter.says_anyOf? h fun g hg => ?_
  obtain ⟨name, -, rfl⟩ := List.mem_map.1 hg
  trivial

theorem says_clauses (hs : Schema.build types = .ok s) :
    (∀ f ∈ (clauses s m).1, f.Says (Word s m)) ∧ ∀ a ∈ (clauses s m).2, a.Says (Word s m) := by
  refine says_requireFacet hs says_facetDemands (fun f hf => ?_)
    (says_shownFields hs fun c hc => (fieldClauses_spec hs hc).1)
  simp only [List.mem_append, Option.mem_toList, Option.map_eq_some_iff, List.mem_map] at hf
  rcases hf with (⟨-, -, rfl⟩ | hf) | ⟨c, hc, rfl⟩
  · exact says_termsClause
  · exact says_typeClause? hf
  · exact (fieldClauses_spec hs hc).2

/-! ### The query -/

theorem word_filteredVar : Word s m filteredVar :=
  .fixed (by decide)

theorem says_filteredBlock (hs : Schema.build types = .ok s) {conditions : List Filter}
    (hconditions : ∀ f ∈ conditions, f.Says (Word s m)) {demands : List FacetDemand}
    (hdemands : ∀ d ∈ demands, d.Says s m) :
    (filteredBlock conditions demands).Says (Word s m) where
  name := word_filteredVar
  func := .fixed (by decide)
  order := by simp [filteredBlock, Block.binding]
  first := by simp [filteredBlock, Block.binding]
  offset := by simp [filteredBlock, Block.binding]
  filter f hf := Filter.says_allOf? hf hconditions
  cascade fields hfields p hp := by
    simp only [filteredBlock] at hfields
    split at hfields
    · cases hfields
    · cases hfields
      obtain ⟨d, hd, rfl⟩ := List.mem_map.1 hp
      obtain ⟨key, hkey⟩ := (hdemands d hd).predicate
      exact word_queryName hs hkey
  body a ha := by
    obtain ⟨d, hd, rfl⟩ := List.mem_map.1 ha
    obtain ⟨key, hkey⟩ := (hdemands d hd).predicate
    refine ⟨word_queryName hs hkey, fun f hf => ?_, by simp, Selection.allSay_iff.2 ?_⟩
    · exact Filter.says_allOf? hf (hdemands d hd).conditions
    · split
      · intro a ha
        exact List.mem_singleton.1 ha ▸ .fixed (by decide)
      · simp

/-- A block that shows something of the matching entries. -/
theorem says_showing {name : String} {body : List Selection} (hname : Word s m name)
    (hbody : ∀ a ∈ body, a.Says (Word s m)) :
    (Block.showing name (.inVar filteredVar) body).Says (Word s m) where
  name := hname
  func := .fixed (by decide)
  order := by simp [Block.showing]
  first := by simp [Block.showing]
  offset := by simp [Block.showing]
  filter := by simp [Block.showing]
  cascade := by simp [Block.showing]
  body := hbody

theorem says_countUid : ∀ a ∈ [Selection.count "uid"], a.Says (Word s m) := fun _ ha =>
  List.mem_singleton.1 ha ▸ .fixed (by decide)

theorem says_facetTotal (hs : Schema.build types = .ok s) {d : FacetDemand} (hd : d.Says s m) :
    (facetTotal d).Says (Word s m) := by
  obtain ⟨key, hkey⟩ := hd.predicate
  exact { says_showing (.total hkey) says_countUid with
    filter := fun f hf => by
      cases hf
      exact word_queryName hs hkey }

theorem says_withRelations {shown : List Selection} (h : ∀ a ∈ shown, a.Says (Word s m)) :
    ∀ a ∈ withRelations shown, a.Says (Word s m) := by
  have hrelations : ∀ name ∈ resultRelations, name ∈ fixedNames := by decide
  unfold withRelations
  generalize resultRelations = relations at hrelations
  induction relations generalizing shown with
  | nil => exact h
  | cons name rest ih =>
    obtain ⟨hname, hrest⟩ := List.forall_mem_cons.1 hrelations
    refine ih (fun a ha => ?_) hrest
    rcases mem_pushUnique ha with ha | rfl
    · exact h a ha
    · exact ⟨.fixed hname, by simp, by simp, Selection.allSay_iff.2 (says_fields (by decide))⟩

theorem says_resultBlock {shown : List Selection} (h : ∀ a ∈ shown, a.Says (Word s m)) :
    (resultBlock m shown).Says (Word s m) :=
  have hname : Word s m "q" := .fixed (by decide)
  { says_showing hname h with
    order := fun o ho => by
      cases ho
      exact .fixed (by decide)
    first := fun n hn => by
      cases hn
      exact .pageSize
    offset := fun n hn => by
      cases hn
      exact .offset }

/-- The query of a search holds words of the search only. -/
theorem query_says (hs : Schema.build types = .ok s) {conditions : List Filter}
    (hconditions : ∀ f ∈ conditions, f.Says (Word s m)) :
    (query m conditions (clauses s m).2 (facetDemands s m).values).Says (Word s m) where
  name := word_filteredVar
  params p hp := by
    simp only [query] at hp
    split at hp
    · rw [List.mem_singleton.1 hp]
      exact ⟨.fixed (by decide), .fixed (by decide)⟩
    · cases hp
  blocks b hb := by
    simp only [query, List.mem_cons, List.mem_append, List.mem_map, List.not_mem_nil,
      or_false] at hb
    rcases hb with rfl | rfl | ⟨d, hd, rfl⟩ | rfl
    · exact says_filteredBlock hs hconditions says_facetDemands
    · exact says_showing (.fixed (by decide)) says_countUid
    · exact says_facetTotal hs (says_facetDemands d hd)
    · exact says_resultBlock (says_withRelations (says_clauses hs).2)

end Search

end PressRegister
