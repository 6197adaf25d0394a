import PressRegister.Proofs.Search.Meaning

/-!
# What keys for facets add to a search

The conditions on the facets of one predicate are gathered first. The search then requires
the predicate and shows it with the facets, unless results show it already: as a field that
every result shows, because of a key of its own, or because of another predicate that queries
know under the same name.

## Main definitions

* `Search.FacetDemand.Holds`: a condition on a facet is among what is asked of a predicate.
* `Search.asked`: the predicates that a filter map asks for, in the order they are shown in.
* `Search.shownAs`: what results show of a predicate that is asked for.

## Main results

* `Selection.mem_foldl_pushUnique`: of several selections of a predicate the first counts.
* `Search.exists_demand`: a key for a facet is among what is asked of the facet's predicate.
* `Search.mem_clauses_iff`: the conditions that facets add to those of the other keys.
* `Search.clauses_snd`, `Search.mem_withRelations_iff`: what results show.
-/

namespace PressRegister

/-! ### Selections -/

namespace Selection

/-- Of several selections of a predicate the first counts. -/
theorem mem_foldl_pushUnique {selections shown : List Selection} {a : Selection} :
    a ∈ selections.foldl pushUnique shown ↔ a ∈ shown ∨
      (∀ b ∈ shown, b.predicate ≠ a.predicate) ∧
        selections.find? (·.predicate == a.predicate) = some a := by
  induction selections generalizing shown with
  | nil => simp
  | cons b rest ih =>
    rw [List.foldl_cons, ih, List.find?_cons]
    unfold pushUnique
    split
    · rename_i hany
      obtain ⟨c, hc, hcb⟩ := List.any_eq_true.1 hany
      have hcb : c.predicate = b.predicate := by simpa using hcb
      -- what is shown of the predicate already keeps the new selection out
      by_cases hba : b.predicate = a.predicate
      · have hno : ¬ ∀ d ∈ shown, d.predicate ≠ a.predicate := fun hall =>
          hall c hc (hcb.trans hba)
        simp [hno]
      · simp [beq_false_of_ne hba]
    · rename_i hany
      have hnew : ∀ c ∈ shown, c.predicate ≠ b.predicate := by
        simpa using hany
      rw [List.mem_append, List.mem_singleton, or_assoc, List.forall_mem_append]
      refine or_congr_right ?_
      by_cases hba : b.predicate = a.predicate
      · simp only [hba, beq_self_eq_true, Option.some.injEq, List.mem_singleton, forall_eq,
          ne_eq, not_true_eq_false, and_false, false_and, or_false]
        exact ⟨fun hab => ⟨hba ▸ hnew, hab.symm⟩, fun h => h.2.symm⟩
      · have hab : a ≠ b := fun hab => hba (by rw [hab])
        simp [beq_false_of_ne hba, hba, hab]

/-- Several selections added one by one show what each of them is about. -/
theorem exists_mem_foldl_pushUnique {selections shown : List Selection} {name : String} :
    (∃ a ∈ selections.foldl pushUnique shown, a.predicate = name) ↔
      (∃ a ∈ shown, a.predicate = name) ∨ ∃ a ∈ selections, a.predicate = name := by
  simp only [mem_foldl_pushUnique]
  constructor
  · rintro ⟨a, ha | ⟨-, ha⟩, hname⟩
    · exact .inl ⟨a, ha, hname⟩
    · exact .inr ⟨a, List.mem_of_find?_eq_some ha, hname⟩
  · intro h
    by_cases hshown : ∃ a ∈ shown, a.predicate = name
    · obtain ⟨a, ha, hname⟩ := hshown
      exact ⟨a, .inl ha, hname⟩
    · obtain ⟨b, hb, hbname⟩ := h.resolve_left hshown
      have hsome : (selections.find? (·.predicate == name)).isSome = true :=
        List.find?_isSome.2 ⟨b, hb, by simpa using hbname⟩
      obtain ⟨a, ha⟩ := Option.isSome_iff_exists.1 hsome
      have hname : a.predicate = name := by simpa using List.find?_some ha
      subst hname
      exact ⟨a, .inr ⟨fun c hc hcname => hshown ⟨c, hc, hcname⟩, ha⟩, rfl⟩

/-- A selection shows something of its predicate. -/
def Shows : Selection → Prop
  | .field _ | .edge _ _ _ _ => True
  | .count _ | .bind _ _ => False

theorem shows_fields (names : List String) : ∀ a ∈ names.map field, a.Shows := by
  intro a ha
  obtain ⟨name, -, rfl⟩ := List.mem_map.1 ha
  trivial

end Selection

namespace Search

open Selection

variable {types : List EntityType} {s : Schema} {m : FilterMap}

theorem isShown_iff {selections : List Selection} (h : ∀ a ∈ selections, a.Shows)
    {name : String} : isShown selections name = true ↔ ∃ a ∈ selections, a.predicate = name := by
  rw [isShown, List.any_eq_true]
  refine exists_congr fun a => and_congr_right fun ha => ?_
  cases a with
  | field p => simp [predicate]
  | edge p facetFilter facetKeys children => simp [predicate]
  | count p => exact (h _ ha).elim
  | bind var p => exact (h _ ha).elim

/-- A predicate is shown as a plain field, or as an edge with the facets asked for. -/
theorem projection_cases (p : Predicate) (facetKeys : List String) :
    projection p facetKeys = .field p.queryName ∧ facetKeys = [] ∨
      ∃ children, projection p facetKeys = .edge p.queryName none facetKeys children := by
  unfold projection
  generalize (if p.isRelationship then relatedFields.map Selection.field else []) = children
  dsimp only
  split
  · rename_i hempty
    simp only [Bool.and_eq_true, List.isEmpty_iff] at hempty
    exact .inl ⟨rfl, hempty.2⟩
  · exact .inr ⟨children, rfl⟩

theorem predicate_projection (p : Predicate) (facetKeys : List String) :
    (projection p facetKeys).predicate = p.queryName := by
  obtain ⟨h, -⟩ | ⟨children, h⟩ := projection_cases p facetKeys <;> rw [h] <;> rfl

theorem shows_projection (p : Predicate) (facetKeys : List String) :
    (projection p facetKeys).Shows := by
  obtain ⟨h, -⟩ | ⟨children, h⟩ := projection_cases p facetKeys <;> rw [h] <;> trivial

theorem shows_pushUnique_projection {shown : List Selection} (h : ∀ a ∈ shown, a.Shows)
    (p : Predicate) (facetKeys : List String) :
    ∀ a ∈ pushUnique shown (projection p facetKeys), a.Shows := by
  intro a ha
  unfold pushUnique at ha
  split at ha
  · exact h a ha
  · rcases List.mem_append.1 ha with ha | ha
    · exact h a ha
    · exact List.mem_singleton.1 ha ▸ shows_projection p facetKeys

/-! ### What is asked of facets -/

/-- The registry holds the predicates whose facets are asked for. -/
def Registered (s : Schema) (demands : Table FacetDemand) : Prop :=
  ∀ name d, demands.get? name = some d → s.predicate? name = some d.predicate

/-- A condition on a facet and the facet's name are among what is asked of a predicate. -/
def FacetDemand.Holds (d : FacetDemand) (facet : Facet) (condition : Filter) : Prop :=
  condition ∈ d.conditions ∧ facet.name ∈ d.keys

theorem get?_addFacet {demands : Table FacetDemand} {p : Predicate} {facet : Facet}
    {condition : Filter} {name : String} {d : FacetDemand} :
    (addFacet demands (p, facet, condition)).get? name = some d ↔
      if name = p.name then
        d = let old := (demands.get? p.name).getD ⟨p, [], []⟩
          ⟨old.predicate, old.conditions ++ [condition],
            if old.keys.contains facet.name then old.keys else old.keys ++ [facet.name]⟩
      else demands.get? name = some d := by
  simp only [addFacet, Table.get?_insert]
  split
  · exact Option.some_inj.trans eq_comm
  · rfl

theorem holds_addFacet (demands : Table FacetDemand) (p : Predicate) (facet : Facet)
    (condition : Filter) : ∃ d, (addFacet demands (p, facet, condition)).get? p.name = some d ∧
      d.Holds facet condition := by
  refine ⟨_, get?_addFacet.2 (by rw [if_pos rfl]), by simp, ?_⟩
  dsimp only
  split
  · rename_i hmem
    simpa using hmem
  · simp

/-- What was asked before is asked still. -/
theorem holds_addFacet_of_holds {demands : Table FacetDemand} {name : String} {d : FacetDemand}
    {facet : Facet} {condition : Filter} (hd : demands.get? name = some d)
    (h : d.Holds facet condition) (c : Predicate × Facet × Filter) :
    ∃ d', (addFacet demands c).get? name = some d' ∧ d'.Holds facet condition := by
  by_cases hname : name = c.1.name
  · subst hname
    refine ⟨_, get?_addFacet.2 (by rw [if_pos rfl]), ?_, ?_⟩
    · simp only [hd, Option.getD_some]
      exact List.mem_append_left _ h.1
    · simp only [hd, Option.getD_some]
      split
      · exact h.2
      · exact List.mem_append_left _ h.2
  · exact ⟨d, get?_addFacet.2 (by rwa [if_neg hname]), h⟩

theorem holds_foldl_addFacet {clauses : List (Predicate × Facet × Filter)}
    (demands : Table FacetDemand) {p : Predicate} {facet : Facet} {condition : Filter}
    (h : (p, facet, condition) ∈ clauses) :
    ∃ d, (clauses.foldl addFacet demands).get? p.name = some d ∧ d.Holds facet condition := by
  -- what is asked first is asked of the table that the other clauses go on with
  have hkept : ∀ (rest : List (Predicate × Facet × Filter)) (demands : Table FacetDemand),
      (∃ d, demands.get? p.name = some d ∧ d.Holds facet condition) →
        ∃ d, (rest.foldl addFacet demands).get? p.name = some d ∧ d.Holds facet condition := by
    intro rest
    induction rest with
    | nil => exact fun _ h => h
    | cons c rest ih =>
      rintro demands ⟨d, hd, hholds⟩
      exact ih _ (holds_addFacet_of_holds hd hholds c)
  induction clauses generalizing demands with
  | nil => cases h
  | cons c rest ih =>
    rcases List.mem_cons.1 h with rfl | h
    · exact hkept rest _ (holds_addFacet demands p facet condition)
    · exact ih _ h

theorem registered_foldl_addFacet {clauses : List (Predicate × Facet × Filter)}
    (hclauses : ∀ c ∈ clauses, s.predicate? c.1.name = some c.1) {demands : Table FacetDemand}
    (h : Registered s demands) : Registered s (clauses.foldl addFacet demands) := by
  induction clauses generalizing demands with
  | nil => exact h
  | cons c rest ih =>
    obtain ⟨hc, hrest⟩ := List.forall_mem_cons.1 hclauses
    refine ih hrest fun name d hd => ?_
    rw [get?_addFacet] at hd
    split at hd
    · rename_i hname
      subst hname hd
      cases hget : demands.get? c.1.name with
      | none => simpa using hc
      | some old => simpa using h _ _ hget
    · exact h _ _ hd

theorem facetClause?_eq_some_iff {key : String} {values : List String} {p : Predicate}
    {facet : Facet} {condition : Filter} :
    facetClause? s m key values = some (p, facet, condition) ↔
      ∃ names, facetKey? key = some names ∧
        s.queryableFacet? names.1 names.2 = some (p, facet) ∧
        Filter.allOf? (values.filterMap fun v => facet.condition? v (m.operator? key)) =
          some condition := by
  simp only [facetClause?, Option.bind_eq_bind, Option.bind_eq_some_iff, Option.pure_def,
    Option.some.injEq, Prod.mk.injEq]
  constructor
  · rintro ⟨names, hnames, ⟨p', facet'⟩, hfacet, condition', hcondition, rfl, rfl, rfl⟩
    exact ⟨names, hnames, hfacet, hcondition⟩
  · rintro ⟨names, hnames, hfacet, hcondition⟩
    exact ⟨names, hnames, (p, facet), hfacet, condition, hcondition, rfl, rfl, rfl⟩

/-- What is asked of facets is asked of registered predicates, under their names. -/
theorem predicate?_of_facetDemands (hs : Schema.build types = .ok s) {name : String}
    {d : FacetDemand} (h : (facetDemands s m).get? name = some d) :
    s.predicate? name = some d.predicate ∧ d.predicate.name = name := by
  have hregistered : Registered s (facetDemands s m) := by
    refine registered_foldl_addFacet (fun c hc => ?_) fun name d h => by cases h
    obtain ⟨e, -, he⟩ := List.mem_filterMap.1 hc
    obtain ⟨names, -, hfacet, -⟩ := facetClause?_eq_some_iff.1 he
    have hp := (predicate?_of_queryableFacet? hfacet).1
    rwa [(Schema.wellFormed_of_build hs).predicateNames hp]
  exact ⟨hregistered _ _ h, (Schema.wellFormed_of_build hs).predicateNames (hregistered _ _ h)⟩

/-- A key for a facet is among what is asked of the facets of its predicate. -/
theorem exists_demand (hs : Schema.build types = .ok s) {key : String} {values : List String}
    {p : Predicate} {facet : Facet} {condition : Filter} (hm : m.get? key = some values)
    (h : facetClause? s m key values = some (p, facet, condition)) :
    ∃ d, (facetDemands s m).get? p.name = some d ∧ d.predicate = p ∧
      d.Holds facet condition := by
  have hmem : (p, facet, condition) ∈ m.entries.filterMap fun e => facetClause? s m e.1 e.2 :=
    List.mem_filterMap.2 ⟨(key, values), Table.get?_eq_some_iff.1 hm, h⟩
  obtain ⟨d, hd, hholds⟩ := holds_foldl_addFacet .empty hmem
  refine ⟨d, hd, ?_, hholds⟩
  obtain ⟨names, -, hfacet, -⟩ := facetClause?_eq_some_iff.1 h
  have hp := (predicate?_of_queryableFacet? hfacet).1
  have hname := (Schema.wellFormed_of_build hs).predicateNames hp
  have hd := (predicate?_of_facetDemands hs hd).1
  rw [hname, hp] at hd
  exact (Option.some.inj hd).symm

/-! ### Conditions -/

theorem condition?_fieldClauses {c : Predicate × Filter} (h : c ∈ fieldClauses s m) :
    ∃ values operator connector, c.1.condition? values operator connector = some c.2 := by
  obtain ⟨e, -, he⟩ := List.mem_filterMap.1 h
  unfold fieldClause? at he
  split at he
  · cases he
  · simp only [Option.bind_eq_bind, Option.bind_eq_some_iff, Option.pure_def, Option.some.injEq] at he
    obtain ⟨p, -, f, hf, rfl⟩ := he
    exact ⟨_, _, _, hf⟩

/-- The search terms and the types ask for one of several things. -/
theorem mem_plainConditions {f : Filter} (h : f ∈ plainConditions s m) :
    (∃ parts, f = .or parts) ∨ (∃ name, f = .ofType name) ∨ ∃ c ∈ fieldClauses s m, c.2 = f := by
  simp only [plainConditions, List.mem_append, Option.mem_toList, Option.map_eq_some_iff,
    List.mem_map] at h
  rcases h with (⟨terms, -, rfl⟩ | htypes) | hfields
  · exact .inl ⟨_, rfl⟩
  · unfold typeClause? Filter.anyOf? at htypes
    split at htypes
    · cases htypes
    · rename_i name hname
      cases htypes
      obtain ⟨t, -, ht⟩ := List.mem_map.1 (hname ▸ List.mem_cons_self)
      exact .inr (.inl ⟨t, ht.symm⟩)
    · cases htypes
      exact .inl ⟨_, rfl⟩
  · exact .inr (.inr hfields)

theorem isShown_pushUnique_projection {shown : List Selection} (h : ∀ a ∈ shown, a.Shows)
    (p : Predicate) (facetKeys : List String) (name : String) :
    isShown (pushUnique shown (projection p facetKeys)) name = true ↔
      isShown shown name = true ∨ p.queryName = name := by
  rw [isShown_iff h, isShown_iff (shows_pushUnique_projection h p facetKeys)]
  unfold pushUnique
  rw [predicate_projection]
  split
  · rename_i hany
    obtain ⟨b, hb, hbp⟩ := List.any_eq_true.1 hany
    constructor
    · exact .inl
    · rintro (hshown | rfl)
      · exact hshown
      · exact ⟨b, hb, by simpa using hbp⟩
  · simp only [List.mem_append, List.mem_singleton, or_and_right, exists_or, exists_eq_left,
      predicate_projection]

/-- Facets require the fields that are not shown before any of them is looked at. -/
theorem mem_foldl_requireFacet {demands : List FacetDemand} {conditions : List Filter}
    {shown : List Selection} (h : ∀ a ∈ shown, a.Shows) {f : Filter} :
    f ∈ (demands.foldl requireFacet (conditions, shown)).1 ↔ f ∈ conditions ∨
      ∃ d ∈ demands, f = .has d.predicate.queryName ∧
        isShown shown d.predicate.queryName = false := by
  induction demands generalizing conditions shown with
  | nil => simp
  | cons d rest ih =>
    simp only [List.foldl_cons, List.mem_cons, or_and_right, exists_or, exists_eq_left]
    cases hshown : isShown shown d.predicate.queryName with
    | true =>
      have hstep : requireFacet (conditions, shown) d = (conditions, shown) := by
        simp [requireFacet, hshown]
      rw [hstep, ih h]
      simp
    | false =>
      have hstep : requireFacet (conditions, shown) d =
          (conditions ++ [.has d.predicate.queryName],
            pushUnique shown (projection d.predicate d.keys)) := by
        simp [requireFacet, hshown]
      rw [hstep, ih (shows_pushUnique_projection h _ _)]
      simp only [List.mem_append, List.mem_singleton, and_true, or_assoc,
        ← Bool.not_eq_true, isShown_pushUnique_projection h, not_or]
      refine or_congr_right ?_
      constructor
      · rintro (hf | ⟨d', hd', hf, hnew, -⟩)
        · exact .inl hf
        · exact .inr ⟨d', hd', hf, hnew⟩
      · rintro (hf | ⟨d', hd', hf, hnew⟩)
        · exact .inl hf
        · by_cases hname : d.predicate.queryName = d'.predicate.queryName
          · exact .inl (hf.trans (by rw [hname]))
          · exact .inr ⟨d', hd', hf, hnew, hname⟩

/-- What results show of a predicate that is asked for. -/
def shownAs (s : Schema) (m : FilterMap) (p : Predicate) : Selection :=
  projection p ((((facetDemands s m).get? p.name).map (·.keys)).getD [])

theorem shownFields_eq_foldl (s : Schema) (m : FilterMap) :
    shownFields (facetDemands s m) (fieldClauses s m) =
      (((fieldClauses s m).map (·.1)).map (shownAs s m)).foldl pushUnique
        (resultFields.map .field) := by
  rw [List.map_map, List.foldl_map]
  rfl

theorem shows_foldl_pushUnique {ps : List Predicate} {shown : List Selection}
    (h : ∀ a ∈ shown, a.Shows) :
    ∀ a ∈ (ps.map (shownAs s m)).foldl pushUnique shown, a.Shows := by
  intro a ha
  rcases mem_foldl_pushUnique.1 ha with ha | ⟨-, ha⟩
  · exact h a ha
  · obtain ⟨p, -, rfl⟩ := List.mem_map.1 (List.mem_of_find?_eq_some ha)
    exact shows_projection _ _

theorem predicate_shownAs (p : Predicate) : (shownAs s m p).predicate = p.queryName :=
  predicate_projection _ _

theorem isShown_shownFields {name : String} :
    isShown (shownFields (facetDemands s m) (fieldClauses s m)) name = true ↔
      name ∈ resultFields ∨ ∃ c ∈ fieldClauses s m, c.1.queryName = name := by
  have hfields : (∃ a ∈ resultFields.map Selection.field, a.predicate = name) ↔
      name ∈ resultFields := by
    constructor
    · rintro ⟨a, ha, rfl⟩
      obtain ⟨field, hfield, rfl⟩ := List.mem_map.1 ha
      exact hfield
    · exact fun h => ⟨.field name, List.mem_map_of_mem h, rfl⟩
  have hclauses : (∃ a ∈ ((fieldClauses s m).map (·.1)).map (shownAs s m), a.predicate = name) ↔
      ∃ c ∈ fieldClauses s m, c.1.queryName = name := by
    rw [List.map_map]
    constructor
    · rintro ⟨a, ha, rfl⟩
      obtain ⟨c, hc, rfl⟩ := List.mem_map.1 ha
      exact ⟨c, hc, (predicate_shownAs _).symm⟩
    · exact fun ⟨c, hc, h⟩ => ⟨_, List.mem_map_of_mem hc, (predicate_shownAs _).trans h⟩
  rw [shownFields_eq_foldl, isShown_iff (shows_foldl_pushUnique (shows_fields _)),
    exists_mem_foldl_pushUnique, hfields, hclauses]

/-- The conditions of a search are those of its other keys, and for each predicate with a
facet that is asked for that it has a value, unless the predicate is shown anyway. -/
theorem mem_clauses_iff {f : Filter} : f ∈ (clauses s m).1 ↔ f ∈ plainConditions s m ∨
    ∃ d ∈ (facetDemands s m).values, f = .has d.predicate.queryName ∧
      d.predicate.queryName ∉ resultFields ∧
      ∀ c ∈ fieldClauses s m, c.1.queryName ≠ d.predicate.queryName := by
  have hshows : ∀ a ∈ shownFields (facetDemands s m) (fieldClauses s m), a.Shows := by
    rw [shownFields_eq_foldl]
    exact shows_foldl_pushUnique (shows_fields _)
  have hclauses : (clauses s m).1 = ((facetDemands s m).values.foldl requireFacet
      (plainConditions s m, shownFields (facetDemands s m) (fieldClauses s m))).1 := rfl
  rw [hclauses, mem_foldl_requireFacet hshows]
  simp only [← Bool.not_eq_true, isShown_shownFields, not_or, not_exists, not_and]

/-! ### What results show -/

/-- The predicates that a filter map asks for, in the order they are shown in. -/
def asked (s : Schema) (m : FilterMap) : List Predicate :=
  (fieldClauses s m).map (·.1) ++ (facetDemands s m).values.map (·.predicate)

theorem requireFacet_snd {conditions : List Filter} {shown : List Selection}
    (h : ∀ a ∈ shown, a.Shows) (d : FacetDemand) :
    (requireFacet (conditions, shown) d).2 =
      pushUnique shown (projection d.predicate d.keys) := by
  simp only [requireFacet]
  split
  · rename_i hshown
    obtain ⟨a, ha, hname⟩ := (isShown_iff h).1 hshown
    have hany : shown.any (·.predicate == (projection d.predicate d.keys).predicate) = true :=
      List.any_eq_true.2 ⟨a, ha, by simp [hname, predicate_projection]⟩
    rw [pushUnique, if_pos hany]
  · rfl

theorem foldl_requireFacet_snd {demands : List FacetDemand} {acc : List Filter × List Selection}
    (h : ∀ a ∈ acc.2, a.Shows) : (demands.foldl requireFacet acc).2 =
      (demands.map fun d => projection d.predicate d.keys).foldl pushUnique acc.2 := by
  induction demands generalizing acc with
  | nil => rfl
  | cons d rest ih =>
    have hstep : (requireFacet acc d).2 = pushUnique acc.2 (projection d.predicate d.keys) :=
      requireFacet_snd h d
    rw [List.foldl_cons, List.map_cons, List.foldl_cons, ← hstep]
    exact ih (hstep ▸ shows_pushUnique_projection h _ _)

/-- Results show the fields of every result and then what is asked for. -/
theorem clauses_snd (hs : Schema.build types = .ok s) : (clauses s m).2 =
    ((asked s m).map (shownAs s m)).foldl pushUnique (resultFields.map .field) := by
  have hclauses : (clauses s m).2 = ((facetDemands s m).values.foldl requireFacet
      (plainConditions s m, shownFields (facetDemands s m) (fieldClauses s m))).2 := rfl
  have hdemands : ((facetDemands s m).values.map fun d => projection d.predicate d.keys) =
      ((facetDemands s m).values.map (·.predicate)).map (shownAs s m) := by
    rw [List.map_map]
    refine List.map_congr_left fun d hd => ?_
    obtain ⟨name, hget⟩ := Table.mem_values_iff.1 hd
    simp [shownAs, (predicate?_of_facetDemands hs hget).2, hget]
  rw [hclauses, foldl_requireFacet_snd, hdemands, asked, List.map_append, List.foldl_append,
    shownFields_eq_foldl]
  dsimp only
  rw [shownFields_eq_foldl]
  exact shows_foldl_pushUnique (shows_fields _)

/-- Of the relationships that every result shows no facets are shown. -/
theorem mem_withRelations_iff {shown : List Selection} {name facet : String}
    {facetKeys : List String} {children : List Selection} (hfacet : facet ∈ facetKeys) :
    .edge name none facetKeys children ∈ withRelations shown ↔
      .edge name none facetKeys children ∈ shown := by
  have hfold : withRelations shown =
      (resultRelations.map (Selection.nested · relatedFields)).foldl pushUnique shown := by
    rw [List.foldl_map]
    rfl
  rw [hfold, mem_foldl_pushUnique]
  refine or_iff_left fun hnew => ?_
  obtain ⟨relation, -, hrelation⟩ := List.mem_map.1 (List.mem_of_find?_eq_some hnew.2)
  simp only [nested, edge.injEq] at hrelation
  rw [← hrelation.2.2.1] at hfacet
  cases hfacet

end Search

end PressRegister
