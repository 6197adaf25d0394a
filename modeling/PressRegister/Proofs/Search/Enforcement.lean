import PressRegister.Proofs.Search.Facets

/-!
# When a search enforces a facet

A key `predicate|facet` with a value that fits asks for entries with an edge whose facet
fits, for their number, and for the facet to be shown. The search does all of this for a
predicate that nothing else stands for. It does not if every result shows the predicate
anyway, or if another predicate is asked for that queries know under the same name.

## Main definitions

* `Search.Compiled.Enforces`: a search does all that a condition on a facet asks for.
* `Search.Heeded`: nothing that is shown or asked for besides stands in the way of a facet.

## Main results

* `Search.heeded_of_alone`, `Search.heeded_inventory`: a facet is heeded if its predicate has
  its name in queries to itself and is no field of every result, as in the inventory.
* `Search.facet_enforced_iff`: a search enforces a facet exactly if the facet is heeded.
-/

namespace PressRegister.Search

open Number Selection

variable {types : List EntityType} {s : Schema} {m : FilterMap} {isPublic : Bool}

/-! ### What is asked for -/

/-- A search does all that a condition on a facet of a predicate asks for. -/
structure Compiled.Enforces (c : Compiled) (s : Schema) (m : FilterMap) (p : Predicate)
    (facet : Facet) (condition : Filter) : Prop where
  /-- The predicate is required as such, or by the condition of its own key. -/
  required : ∃ f g, c.condition? = some f ∧ f.Requires g ∧
    (g = .has p.queryName ∨ (p, g) ∈ fieldClauses s m)
  /-- Matching entries keep to the edges whose facets satisfy the condition. -/
  selected : ∃ b ∈ c.query.blocks, b.bindsVar = true ∧ b.name = filteredVar ∧
    ∃ g children, .edge p.queryName (some g) [] children ∈ b.body ∧ g.Requires condition
  /-- Entries without such an edge do not match. -/
  cascaded : ∃ b ∈ c.query.blocks, b.bindsVar = true ∧ b.name = filteredVar ∧
    ∃ fields, b.cascade = some fields ∧ p.queryName ∈ fields
  /-- The matching entries with the predicate are counted. -/
  counted : { Block.showing ("total_" ++ p.name) (.inVar filteredVar) [.count "uid"] with
    filter := some (.has p.queryName) } ∈ c.query.blocks
  /-- Results show the facet on the edges of the predicate. -/
  shown : ∃ b ∈ c.query.blocks, b.name = "q" ∧ ∃ facetKeys children,
    .edge p.queryName none facetKeys children ∈ b.body ∧ facet.name ∈ facetKeys

/-- Nothing that is shown or asked for besides stands in the way of a facet of a predicate. -/
structure Heeded (s : Schema) (m : FilterMap) (p : Predicate) (facet : Facet) : Prop where
  notFixed : p.queryName ∉ resultFields
  /-- The facet is asked of the predicate that is shown first under the name. -/
  requested : ∃ q d, (asked s m).find? (·.queryName == p.queryName) = some q ∧
    (facetDemands s m).get? q.name = some d ∧ facet.name ∈ d.keys
  /-- If fields are asked for that queries know under the name, then the predicate itself is,
  or one of them is only asked for a value. -/
  required : (∃ c ∈ fieldClauses s m, c.1.queryName = p.queryName) →
    ∃ c ∈ fieldClauses s m, c.1 = p ∨ c.2 = .has p.queryName

/-! ### Conditions -/

/-- A predicate that is required as such is asked for, in a key of its own or in one for a
facet. -/
theorem required_of_requires {c : Compiled} (hc : compile s m isPublic = some c) {f : Filter}
    (hf : c.condition? = some f) {name : String} (h : f.Requires (.has name)) :
    .has name ∈ (clauses s m).1 := by
  rw [compile_condition? hc] at hf
  have hmem : ∀ g, (∀ op predicate arg, g ≠ .compare op predicate arg) →
      g ∈ (if isPublic then (clauses s m).1 ++ [visibility] else (clauses s m).1) →
      g ∈ (clauses s m).1 := by
    intro g hg h
    split at h
    · refine (List.mem_append.1 h).resolve_right fun h => ?_
      exact hg _ _ _ (List.mem_singleton.1 h)
    · exact h
  rcases h.mem_or hf (by simp) with h | ⟨parts, hparts, h⟩
  · exact hmem _ (by simp) h
  · -- the parts of a condition on a field are comparisons
    rcases mem_clauses_iff.1 (hmem _ (by simp) hparts) with hplain | ⟨d, -, hd, -⟩
    · obtain ⟨_, hor⟩ | ⟨_, htype⟩ | ⟨e, he, hparts⟩ := mem_plainConditions hplain
      · cases hor
      · cases htype
      · obtain ⟨values, operator, connector, hcondition⟩ := condition?_fieldClauses he
        obtain hf | ⟨_, _, hf⟩ | ⟨_, hf, hfree⟩ | ⟨_, hf⟩ :=
          Predicate.condition?_cases (hparts ▸ hcondition)
        · cases hf
        · cases hf
        · exact (hfree name (Filter.and.inj hf ▸ h)).elim
        · cases hf
    · cases hd

/-! ### Blocks -/

theorem mem_blocks_iff {conditions : List Filter} {shown : List Selection}
    {demands : List FacetDemand} {b : Block} :
    b ∈ (query m conditions shown demands).blocks ↔ b = filteredBlock conditions demands ∨
      b = Block.showing "total" (.inVar filteredVar) [.count "uid"] ∨
      (∃ d ∈ demands, b = facetTotal d) ∨ b = resultBlock m (withRelations shown) := by
  simp only [query, List.mem_cons, List.mem_append, List.mem_map, List.not_mem_nil, or_false,
    eq_comm (a := b)]

/-- No other block has the name of the one that shows the results. -/
theorem eq_resultBlock_of_name {conditions : List Filter} {shown : List Selection}
    {demands : List FacetDemand} {b : Block}
    (h : b ∈ (query m conditions shown demands).blocks) (hname : b.name = "q") :
    b = resultBlock m (withRelations shown) := by
  rcases mem_blocks_iff.1 h with rfl | rfl | ⟨d, -, rfl⟩ | h
  · exact absurd hname (by simp [filteredBlock, Block.binding, filteredVar])
  · exact absurd hname (by simp [Block.showing])
  · have hchars := congrArg String.toList hname
    simp [facetTotal, Block.showing] at hchars
  · exact h

/-- The edge of a facet is shown exactly if the predicate is no field of every result, and
the facet is asked of the predicate that is shown first under its name. -/
theorem edge_mem_shown_iff (hs : Schema.build types = .ok s) {name facet : String} :
    (∃ facetKeys children, .edge name none facetKeys children ∈ (clauses s m).2 ∧
      facet ∈ facetKeys) ↔
      name ∉ resultFields ∧ ∃ q d, (asked s m).find? (·.queryName == name) = some q ∧
        (facetDemands s m).get? q.name = some d ∧ facet ∈ d.keys := by
  have hfind : ((asked s m).map (shownAs s m)).find? (·.predicate == name) =
      ((asked s m).find? (·.queryName == name)).map (shownAs s m) := by
    rw [List.find?_map]
    congr 2
    funext q
    simp [predicate_shownAs]
  have hfixed : (∀ b ∈ resultFields.map Selection.field, b.predicate ≠ name) ↔
      name ∉ resultFields := by
    rw [List.forall_mem_map]
    exact ⟨fun h hmem => h _ hmem rfl, fun h q hq heq => h (heq ▸ hq)⟩
  simp only [clauses_snd hs, mem_foldl_pushUnique]
  constructor
  · rintro ⟨facetKeys, children, h | ⟨hnew, h⟩, hfacet⟩
    · obtain ⟨_, -, hfield⟩ := List.mem_map.1 h
      cases hfield
    · obtain ⟨q, hq, hshown⟩ := Option.map_eq_some_iff.1 (hfind.symm.trans h)
      refine ⟨hfixed.1 hnew, q, ?_⟩
      obtain ⟨hprojection, -⟩ | ⟨_, hprojection⟩ := projection_cases q
        ((((facetDemands s m).get? q.name).map (·.keys)).getD [])
      · cases hprojection.symm.trans hshown
      · obtain ⟨-, -, hkeys, -⟩ := Selection.edge.inj (hprojection.symm.trans hshown)
        rw [← hkeys] at hfacet
        cases hd : (facetDemands s m).get? q.name with
        | none => simp [hd] at hfacet
        | some d => exact ⟨d, hq, rfl, by simpa [hd] using hfacet⟩
  · rintro ⟨hnew, q, d, hq, hd, hfacet⟩
    have hname : q.queryName = name := by simpa using List.find?_some hq
    obtain ⟨-, hnil⟩ | ⟨children, hprojection⟩ := projection_cases q d.keys
    · rw [hnil] at hfacet
      cases hfacet
    · have hshown : shownAs s m q = .edge name none d.keys children := by
        rw [shownAs, hd, Option.map_some, Option.getD_some, hprojection, hname]
      exact ⟨d.keys, children, .inr ⟨hfixed.2 hnew, by
        rw [← hshown, predicate_shownAs, hname, hfind, hq, Option.map_some]⟩, hfacet⟩

/-! ### What a search needs to enforce a facet -/

theorem Compiled.Enforces.heeded (hs : Schema.build types = .ok s) {c : Compiled}
    (hc : compile s m isPublic = some c) {p : Predicate} {facet : Facet} {condition : Filter}
    (h : c.Enforces s m p facet condition) : Heeded s m p facet := by
  obtain ⟨b, hb, hname, facetKeys, children, hmem, hfacet⟩ := h.shown
  rw [query_of_compile hc] at hb
  rw [eq_resultBlock_of_name hb hname] at hmem
  obtain ⟨hfixed, hrequested⟩ := (edge_mem_shown_iff hs).1
    ⟨facetKeys, children, (mem_withRelations_iff hfacet).1 hmem, hfacet⟩
  refine ⟨hfixed, hrequested, fun ⟨e, he, hquery⟩ => ?_⟩
  obtain ⟨f, g, hf, hrequires, rfl | hg⟩ := h.required
  · -- the field is not required because of the facet, as it is shown already
    rcases mem_clauses_iff.1 (required_of_requires hc hf hrequires) with h | ⟨d, -, hd, -, hnew⟩
    · obtain ⟨_, hor⟩ | ⟨_, htype⟩ | ⟨e, he, hhas⟩ := mem_plainConditions h
      · cases hor
      · cases htype
      · exact ⟨e, he, .inr hhas⟩
    · exact absurd (hquery.trans (Filter.has.inj hd)) (hnew e he)
  · exact ⟨(p, g), hg, .inl rfl⟩

/-- A heeded facet has its predicate required. -/
theorem Heeded.exists_condition {d : FacetDemand} {facet : Facet}
    (h : Heeded s m d.predicate facet) (hd : d ∈ (facetDemands s m).values) :
    ∃ g ∈ (clauses s m).1, g = .has d.predicate.queryName ∨
      (d.predicate, g) ∈ fieldClauses s m := by
  by_cases hfield : ∃ c ∈ fieldClauses s m, c.1.queryName = d.predicate.queryName
  · obtain ⟨⟨q, g⟩, hc, hown⟩ := h.required hfield
    refine ⟨g, mem_clauses_iff.2 (.inl (List.mem_append_right _ (List.mem_map_of_mem hc))), ?_⟩
    rcases hown with rfl | hhas
    · exact .inr hc
    · exact .inl hhas
  · refine ⟨_, mem_clauses_iff.2 (.inr ⟨d, hd, rfl, h.notFixed, ?_⟩), .inl rfl⟩
    exact fun c hc hname => hfield ⟨c, hc, hname⟩

theorem Heeded.enforces (hs : Schema.build types = .ok s) {d : FacetDemand} {facet : Facet}
    (h : Heeded s m d.predicate facet) {condition : Filter}
    (hd : d ∈ (facetDemands s m).values) (hholds : d.Holds facet condition)
    (isPublic : Bool) :
    ∃ c, compile s m isPublic = some c ∧ c.Enforces s m d.predicate facet condition := by
  obtain ⟨g, hg, hown⟩ := h.exists_condition hd
  have hsome : compile s m isPublic ≠ none := fun hnone =>
    List.ne_nil_of_mem hg (compile_eq_none_iff.1 hnone)
  obtain ⟨c, hc⟩ := Option.ne_none_iff_exists'.1 hsome
  refine ⟨c, hc, ?_⟩
  obtain ⟨conditions, hconditions, hgconditions⟩ : ∃ conditions, conditions =
      (if isPublic then (clauses s m).1 ++ [visibility] else (clauses s m).1) ∧
        g ∈ conditions := by
    refine ⟨_, rfl, ?_⟩
    split
    · exact List.mem_append_left _ hg
    · exact hg
  have hquery := query_of_compile hc
  have hcondition := compile_condition? hc
  rw [← hconditions] at hquery hcondition
  have hblock : filteredBlock conditions (facetDemands s m).values ∈ c.query.blocks :=
    hquery ▸ mem_blocks_iff.2 (.inl rfl)
  obtain ⟨f, hf⟩ := Filter.exists_allOf? (List.ne_nil_of_mem hgconditions)
  obtain ⟨k, hk⟩ := Filter.exists_allOf? (List.ne_nil_of_mem hholds.1)
  constructor
  case required =>
    exact ⟨f, g, hcondition.trans hf, Filter.requires_of_mem hf hgconditions, hown⟩
  case selected =>
    have hselection : facetSelection d ∈ (facetDemands s m).values.map facetSelection :=
      List.mem_map_of_mem hd
    rw [facetSelection, hk] at hselection
    exact ⟨_, hblock, rfl, rfl, k, _, hselection, Filter.requires_of_mem hk hholds.1⟩
  case cascaded =>
    have hdemands : (facetDemands s m).values.isEmpty = false :=
      List.isEmpty_eq_false_iff.2 (List.ne_nil_of_mem hd)
    exact ⟨_, hblock, rfl, rfl, (facetDemands s m).values.map (·.predicate.queryName),
      by simp [filteredBlock, hdemands], List.mem_map_of_mem hd⟩
  case counted => exact hquery ▸ mem_blocks_iff.2 (.inr (.inr (.inl ⟨d, hd, rfl⟩)))
  case shown =>
    obtain ⟨facetKeys, children, hshown, hfacet⟩ :=
      (edge_mem_shown_iff hs).2 ⟨h.notFixed, h.requested⟩
    exact ⟨_, hquery ▸ mem_blocks_iff.2 (.inr (.inr (.inr rfl))), rfl, facetKeys, children,
      (mem_withRelations_iff hfacet).2 hshown, hfacet⟩

/-- A key for a facet with a value that fits makes a condition, which is asked of the facet. -/
theorem exists_demand_of_fits (hs : Schema.build types = .ok s) {predicate name : String}
    {p : Predicate} {facet : Facet} {values : List String}
    (hfacet : s.queryableFacet? predicate name = some (p, facet))
    (hm : m.get? (predicate ++ "|" ++ name) = some values)
    (hfits : ∃ v ∈ values, facet.Fits v) :
    ∃ condition d, Filter.allOf? (values.filterMap fun v =>
        facet.condition? v (m.operator? (predicate ++ "|" ++ name))) = some condition ∧
      (facetDemands s m).get? p.name = some d ∧ d.predicate = p ∧ d.Holds facet condition := by
  obtain ⟨v, hv, hfits⟩ := hfits
  obtain ⟨part, hpart⟩ := (Facet.fits_iff (m.operator? (predicate ++ "|" ++ name))).1 hfits
  have hmem : part ∈ values.filterMap fun v =>
      facet.condition? v (m.operator? (predicate ++ "|" ++ name)) :=
    List.mem_filterMap.2 ⟨v, hv, hpart⟩
  obtain ⟨condition, hcondition⟩ := Filter.exists_allOf? (List.ne_nil_of_mem hmem)
  obtain ⟨d, hd⟩ := exists_demand hs hm (facetClause?_eq_some_iff.2
    ⟨_, facetKey?_of_queryableFacet? hs hfacet, hfacet, hcondition⟩)
  exact ⟨condition, d, hcondition, hd⟩

/-! ### Facets that are heeded -/

theorem predicate?_of_mem_asked (hs : Schema.build types = .ok s) {q : Predicate}
    (h : q ∈ asked s m) : s.predicate? q.name = some q := by
  rcases List.mem_append.1 h with h | h
  · obtain ⟨⟨q, f⟩, hc, rfl⟩ := List.mem_map.1 h
    obtain ⟨e, -, he⟩ := List.mem_filterMap.1 hc
    obtain ⟨-, hq, -⟩ := (fieldClause?_eq_some_iff hs).1 he
    have hq : s.predicate? e.1 = some q := (Option.filter_eq_some_iff.1 hq).1
    rwa [(Schema.wellFormed_of_build hs).predicateNames hq]
  · obtain ⟨d, hd, rfl⟩ := List.mem_map.1 h
    obtain ⟨name, hget⟩ := Table.mem_values_iff.1 hd
    obtain ⟨hp, hname⟩ := predicate?_of_facetDemands hs hget
    rwa [hname]

/-- No other registered predicate has the name that a predicate has in queries, and results
do not show it unasked. -/
structure Alone (s : Schema) (p : Predicate) : Prop where
  notFixed : p.queryName ∉ resultFields
  only : ∀ q ∈ s.predicates.values, q.queryName = p.queryName → q.name = p.name

theorem heeded_of_alone (hs : Schema.build types = .ok s) {d : FacetDemand} {facet : Facet}
    (hd : (facetDemands s m).get? d.predicate.name = some d) (hfacet : facet.name ∈ d.keys)
    (halone : Alone s d.predicate) : Heeded s m d.predicate facet := by
  have hdasked : d.predicate ∈ asked s m :=
    List.mem_append_right _ (List.mem_map_of_mem (Table.mem_values_iff.2 ⟨_, hd⟩))
  have heq : ∀ q ∈ asked s m, q.queryName = d.predicate.queryName → q = d.predicate := by
    intro q hq hname
    have hget := predicate?_of_mem_asked hs hq
    rw [halone.only q (Table.mem_values_iff.2 ⟨_, hget⟩) hname,
      predicate?_of_mem_asked hs hdasked] at hget
    exact (Option.some.inj hget).symm
  refine ⟨halone.notFixed, ?_, fun ⟨c, hc, hname⟩ => ⟨c, hc, .inl ?_⟩⟩
  · have hsome : ((asked s m).find? (·.queryName == d.predicate.queryName)).isSome = true :=
      List.find?_isSome.2 ⟨d.predicate, hdasked, by simp⟩
    obtain ⟨q, hq⟩ := Option.isSome_iff_exists.1 hsome
    obtain rfl := heq q (List.mem_of_find?_eq_some hq) (by simpa using List.find?_some hq)
    exact ⟨d.predicate, d, hq, hd, hfacet⟩
  · exact heq c.1 (List.mem_append_left _ (List.mem_map_of_mem hc)) hname

/-- Whatever the inventory shows of a predicate whose facets filters may use, it shows because
of that predicate. -/
theorem alone_inventory {predicate name : String} {p : Predicate} {facet : Facet}
    (h : Inventory.schema.queryableFacet? predicate name = some (p, facet)) :
    Alone Inventory.schema p := by
  let declared := Inventory.entityTypes.flatMap (·.predicates)
  have hall : (declared.filter (·.facets.any (·.queryable))).all (fun p =>
      !resultFields.contains p.queryName &&
        declared.all fun q => q.queryName != p.queryName || q.name == p.name) = true := by
    decide +kernel
  obtain ⟨hp, hfacet, -, hqueryable⟩ := predicate?_of_queryableFacet? h
  have hmem : p ∈ declared.filter (·.facets.any (·.queryable)) :=
    List.mem_filter.2 ⟨Schema.mem_declared_of_build Inventory.build_entityTypes hp,
      List.any_eq_true.2 ⟨facet, hfacet, hqueryable⟩⟩
  have halone := List.all_eq_true.1 hall p hmem
  simp only [Bool.and_eq_true, Bool.not_eq_true', List.all_eq_true, Bool.or_eq_true, bne_iff_ne,
    beq_iff_eq, ← Bool.not_eq_true, List.contains_iff_mem] at halone
  refine ⟨halone.1, fun q hq hname => ?_⟩
  obtain ⟨key, hkey⟩ := Table.mem_values_iff.1 hq
  have hdeclared : q ∈ declared := Schema.mem_declared_of_build Inventory.build_entityTypes hkey
  exact (halone.2 q hdeclared).resolve_left fun hne => hne hname

/-- In the inventory every key for a facet with a value that fits is heeded. -/
theorem heeded_inventory {predicate name : String} {p : Predicate} {facet : Facet}
    {values : List String}
    (hfacet : Inventory.schema.queryableFacet? predicate name = some (p, facet))
    (hm : m.get? (predicate ++ "|" ++ name) = some values)
    (hfits : ∃ v ∈ values, facet.Fits v) : Heeded Inventory.schema m p facet := by
  obtain ⟨_, d, -, hd, rfl, hholds⟩ :=
    exists_demand_of_fits Inventory.build_entityTypes hfacet hm hfits
  exact heeded_of_alone Inventory.build_entityTypes hd hholds.2 (alone_inventory hfacet)

/-! ### The search -/

/-- A key for a facet with a value that fits is enforced exactly if the facet is heeded. -/
theorem facet_enforced_iff (hs : Schema.build types = .ok s) {predicate name : String}
    {p : Predicate} {facet : Facet} {values : List String}
    (hfacet : s.queryableFacet? predicate name = some (p, facet))
    (hm : m.get? (predicate ++ "|" ++ name) = some values)
    (hfits : ∃ v ∈ values, facet.Fits v) (isPublic : Bool) :
    ∃ condition, Filter.allOf? (values.filterMap fun v =>
        facet.condition? v (m.operator? (predicate ++ "|" ++ name))) = some condition ∧
      ((∃ c, compile s m isPublic = some c ∧ c.Enforces s m p facet condition) ↔
        Heeded s m p facet) := by
  obtain ⟨condition, d, hcondition, hd, rfl, hholds⟩ := exists_demand_of_fits hs hfacet hm hfits
  exact ⟨condition, hcondition, fun ⟨c, hc, h⟩ => h.heeded hs hc,
    fun h => h.enforces hs (Table.mem_values_iff.2 ⟨_, hd⟩) hholds isPublic⟩

/-- A search for entries by the size of their audience. -/
def audienceSearch : FilterMap :=
  .ofList [("audience_size|count", ["1000"])]

theorem facet_enforced_iff_audience : ∃ p facet condition c,
    Inventory.schema.queryableFacet? "audience_size" "count" = some (p, facet) ∧
      compile Inventory.schema audienceSearch true = some c ∧
      c.Enforces Inventory.schema audienceSearch p facet condition := by
  have hkind : ((Inventory.schema.queryableFacet? "audience_size" "count").map (·.2.kind)) =
      some .integer := by
    rw [Schema.queryableFacet?, Inventory.predicate?_schema]
    decide +kernel
  obtain ⟨⟨p, facet⟩, hfacet, hkind⟩ := Option.map_eq_some_iff.1 hkind
  have hm : audienceSearch.get? ("audience_size" ++ "|" ++ "count") = some ["1000"] := by
    decide +kernel
  have hread : readInt64? (Text.trim "1000") = some 1000 := by
    decide +kernel
  have hfits : ∃ v ∈ ["1000"], facet.Fits v := ⟨_, List.mem_cons_self, .integer hkind hread⟩
  obtain ⟨condition, -, henforced⟩ :=
    facet_enforced_iff Inventory.build_entityTypes hfacet hm hfits true
  obtain ⟨c, hc, h⟩ := henforced.2 (heeded_inventory hfacet hm hfits)
  exact ⟨p, facet, condition, c, hfacet, hc, h⟩

/-- Entries whose name is stored with its language. -/
def labelledEntry : EntityType where
  name := "Entry"
  predicates := [.uid, .uniqueName "unique_name",
    (Predicate.string "name").withFacet ⟨"lang", .string, true⟩,
    .string "entry_review_status", .dateTime "creation_date",
    .singleRelationship "entry_added" []]

/-- A search for the entries with a name in one language. -/
def languageSearch : FilterMap :=
  .ofList [("name|lang", ["de"])]

/-- Names are shown with every result, so that their language is not asked for: there is no
search at all. -/
theorem language_not_enforced : ∃ s p facet, Schema.build [labelledEntry] = .ok s ∧
    s.queryableFacet? "name" "lang" = some (p, facet) ∧
    languageSearch.get? ("name" ++ "|" ++ "lang") = some ["de"] ∧ facet.Fits "de" ∧
    compile s languageSearch false = none := by
  have hbuild : ((Schema.build [labelledEntry]).toOption.map fun s =>
      ((s.queryableFacet? "name" "lang").map (·.2.kind), (compile s languageSearch false).isNone)) =
        some (some .string, true) := by
    decide +kernel
  obtain ⟨s, hs, h⟩ := Option.map_eq_some_iff.1 hbuild
  obtain ⟨hfacet, hnone⟩ := Prod.mk.inj h
  obtain ⟨⟨p, facet⟩, hfacet, hkind⟩ := Option.map_eq_some_iff.1 hfacet
  exact ⟨s, p, facet, toOption_eq_some.1 hs, hfacet, by decide +kernel, .text hkind,
    Option.isNone_iff_eq_none.1 hnone⟩

end PressRegister.Search
