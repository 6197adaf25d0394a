import PressRegister.Proofs.Search.Facets

/-!
# What public searches find

A public search differs from the same search behind the login in one filter. That filter
says in addition that the entry is accepted, whatever the filter map asks for. It says so
after everything that the filter map asks for, and a second time if the filter map asks for
accepted entries in the same words.

## Main definitions

* `Filter.StandsIn`: a text holds the text of a filter at one place.
* `Search.Compiled.Confines`: a search is another one, confined to accepted entries.
* `Search.AsksAccepted`: a filter map asks for accepted entries, and for nothing else of
  their review status.

## Main results

* `Query.standsIn_chars`: the filter of the first block stands in the text of a query once,
  and all around it is the same for every filter.
* `Search.compile_confines`: public searches are confined to accepted entries, and nothing
  else sets them apart.
* `Search.visibility_mem_clauses_iff`: when a filter map asks for accepted entries itself.
* `Search.visibility_once_iff`: the filter of a public search says once that entries are
  accepted, unless the filter map asks for it as well.
-/

namespace PressRegister

/-! ### The place of a filter in the text -/

/-- A text holds the text of a filter at one place, and all around it is the same for
every filter. -/
def Filter.StandsIn (text : Filter → List Char) : Prop :=
  ∃ before after, ∀ f, text f = before ++ f.chars ++ after

namespace Filter.StandsIn

theorem self : StandsIn chars :=
  ⟨[], [], fun f => by simp⟩

variable {text : Filter → List Char}

theorem append_left (cs : List Char) (h : StandsIn text) : StandsIn fun f => cs ++ text f := by
  obtain ⟨before, after, h⟩ := h
  exact ⟨cs ++ before, after, fun f => by simp only [h, List.append_assoc]⟩

theorem append_right (h : StandsIn text) (cs : List Char) : StandsIn fun f => text f ++ cs := by
  obtain ⟨before, after, h⟩ := h
  exact ⟨before, after ++ cs, fun f => by simp only [h, List.append_assoc]⟩

theorem cons (c : Char) (h : StandsIn text) : StandsIn fun f => c :: text f :=
  h.append_left [c]

end Filter.StandsIn

/-- The same block with another filter. -/
def Block.withFilter (b : Block) (f : Filter) : Block :=
  { b with filter := some f }

theorem Block.standsIn_chars (b : Block) (depth : Nat) :
    Filter.StandsIn fun f => (b.withFilter f).chars depth := by
  -- what stands around the directives does not depend on the filter
  have hframe : ∃ before after, b.chars depth = before ++ ')' :: b.directiveChars ++ after ∧
      ∀ f, (b.withFilter f).chars depth =
        before ++ ')' :: (b.withFilter f).directiveChars ++ after :=
    ⟨_, _, rfl, fun f => rfl⟩
  obtain ⟨before, after, -, hframe⟩ := hframe
  have hdirective : ∀ f, (b.withFilter f).directiveChars =
      " @filter(".toList ++ f.chars ++ [')'] ++ { b with filter := none }.directiveChars :=
    fun f => rfl
  simp only [hframe, hdirective]
  exact .append_right (.append_left _ (.cons _ (.append_right (.append_right
    (.append_left _ .self) _) _))) _

/-- The filter of the first block stands in the text of a query once. -/
theorem Query.standsIn_chars (q : Query) (b : Block) (rest : List Block) :
    Filter.StandsIn fun f => { q with blocks := b.withFilter f :: rest }.chars := by
  have hframe : ∃ before after, q.chars = before ++ Block.listChars 1 q.blocks ++ after ∧
      ∀ blocks, { q with blocks := blocks }.chars = before ++ Block.listChars 1 blocks ++ after :=
    ⟨_, _, rfl, fun blocks => rfl⟩
  obtain ⟨before, after, -, hframe⟩ := hframe
  simp only [hframe, Block.listChars, List.flatMap_cons]
  exact .append_right (.append_left _ (.append_right (b.standsIn_chars 1) _)) _

namespace Search

/-- A search is another one, confined to accepted entries: but for the filter of the block
that binds the matching entries the two are the same. -/
structure Compiled.Confines (c whole : Compiled) : Prop where
  page : c.page = whole.page
  pageSize : c.pageSize = whole.pageSize
  bindings : c.bindings = whole.bindings
  query : ∃ (block : Block) (rest : List Block) (f g : Filter),
    block.bindsVar = true ∧ block.name = filteredVar ∧
    c.query = { whole.query with blocks := block.withFilter f :: rest } ∧
    whole.query.blocks = block.withFilter g :: rest ∧
    (∃ before after, c.query.chars = before ++ f.chars ++ after ∧
      whole.query.chars = before ++ g.chars ++ after) ∧
    ∀ r, f.Holds r ↔ g.Holds r ∧ r.compares .eq "entry_review_status" (.text "accepted")

variable {s : Schema} {m : FilterMap}

theorem filteredBlock_eq_withFilter {conditions : List Filter} {f : Filter}
    (h : Filter.allOf? conditions = some f) (demands : List FacetDemand) :
    filteredBlock conditions demands = (filteredBlock [] demands).withFilter f := by
  rw [filteredBlock, h]
  rfl

/-- The query for other conditions differs in the filter of its first block. -/
theorem query_eq {conditions : List Filter} {f : Filter}
    (h : Filter.allOf? conditions = some f) (shown : List Selection)
    (demands : List FacetDemand) :
    query m conditions shown demands = { query m [] shown demands with
      blocks := (filteredBlock [] demands).withFilter f ::
        (query m [] shown demands).blocks.tail } := by
  simp only [query, filteredBlock_eq_withFilter h, List.tail_cons]

/-- There is a public search of a filter map exactly if there is one behind the login, and
it is that search, confined to accepted entries. -/
theorem compile_confines (s : Schema) (m : FilterMap) :
    (compile s m true = none ↔ compile s m false = none) ∧
      ∀ c whole, compile s m true = some c → compile s m false = some whole →
        c.Confines whole := by
  refine ⟨by rw [compile_eq_none_iff, compile_eq_none_iff], fun c whole hc hwhole => ?_⟩
  have hne : (clauses s m).1 ≠ [] := fun hnil => by
    rw [compile_eq_none_iff.2 hnil] at hc
    cases hc
  simp only [compile, List.isEmpty_iff, hne, if_false, Option.some.injEq, if_true,
    Bool.false_eq_true] at hc hwhole
  subst hc hwhole
  obtain ⟨f, hf⟩ := Filter.exists_allOf? (List.append_ne_nil_of_left_ne_nil hne [visibility])
  obtain ⟨g, hg⟩ := Filter.exists_allOf? hne
  let demands := (facetDemands s m).values
  obtain ⟨before, after, hchars⟩ := (query m [] (clauses s m).2 demands).standsIn_chars
    (filteredBlock [] demands) (query m [] (clauses s m).2 demands).blocks.tail
  refine ⟨rfl, rfl, rfl, filteredBlock [] demands, (query m [] (clauses s m).2 demands).blocks.tail,
    f, g, rfl, rfl, query_eq hf _ _, congrArg Query.blocks (query_eq hg _ _),
    ⟨before, after, ?_, ?_⟩, fun r => ?_⟩
  · rw [query_eq hf]
    exact hchars f
  · rw [query_eq hg]
    exact hchars g
  · rw [Filter.holds_allOf? hf, Filter.holds_allOf? hg, List.forall_mem_append]
    simp [visibility, ReviewStatus.predicateName, ReviewStatus.name]

theorem sourceSearch_confines : ∃ c whole, compile Inventory.schema sourceSearch true = some c ∧
    compile Inventory.schema sourceSearch false = some whole ∧ c.Confines whole := by
  obtain ⟨c, hc⟩ := exists_compile_sourceSearch true
  obtain ⟨whole, hwhole⟩ := exists_compile_sourceSearch false
  exact ⟨c, whole, hc, hwhole, (compile_confines Inventory.schema sourceSearch).2 c whole hc hwhole⟩

/-! ### How often a search says that entries are accepted -/

/-- Whether a filter says that the entry is accepted, in the words of public searches. -/
def isVisibility : Filter → Bool
  | .compare .eq predicate (.text value) =>
    predicate == "entry_review_status" && value == "accepted"
  | _ => false

theorem isVisibility_iff {f : Filter} : isVisibility f = true ↔ f = visibility := by
  constructor
  · intro h
    unfold isVisibility at h
    split at h
    · simp only [Bool.and_eq_true, beq_iff_eq] at h
      rw [h.1, h.2]
      rfl
    · cases h
  · rintro rfl
    rfl

/-- A filter map asks for accepted entries, and for nothing else of their review status: of
the values under its key one is a status, which is `accepted`, and the operator heeds them. -/
def AsksAccepted (m : FilterMap) : Prop :=
  m.operator? "entry_review_status" ≠ some .has ∧
    ∃ values, m.get? "entry_review_status" = some values ∧
      (values.map Text.trim).filter Inventory.reviewStatuses.has = ["accepted"]

/-- The review status as the inventory declares it. -/
structure IsReviewStatus (p : Predicate) : Prop where
  kind : p.kind = .singleChoice Inventory.reviewStatuses
  aliases : p.aliases = []
  queryable : p.queryable = true

theorem exists_isReviewStatus : ∃ p,
    Inventory.schema.predicate? "entry_review_status" = some p ∧ IsReviewStatus p := by
  have hdeclared : ((Inventory.schema.predicate? "entry_review_status").map fun p =>
      (p.kind, p.aliases, p.queryable)) =
        some (.singleChoice Inventory.reviewStatuses, [], true) := by
    rw [Inventory.predicate?_schema]
    decide +kernel
  obtain ⟨p, hp, h⟩ := Option.map_eq_some_iff.1 hdeclared
  simp only [Prod.mk.injEq] at h
  exact ⟨p, hp, h.1, h.2.1, h.2.2⟩

namespace IsReviewStatus

variable {p : Predicate} (h : IsReviewStatus p)
include h

theorem queryName : p.queryName = p.name := by
  simp [Predicate.queryName, Predicate.direction?, Predicate.relationship?, h.kind]

theorem uses_eq_iff {asked : Option Operator} : p.Uses asked .eq ↔ asked ≠ some .has := by
  have hoperators : p.operators = [.eq, .has] := by rw [Predicate.operators, h.kind]; rfl
  constructor
  · rintro huses rfl
    have hhas : p.Uses (some .has) .has := .asked (by simp [hoperators])
    cases huses.unique hhas
  · intro hasked
    by_cases heq : asked = some .eq
    · exact heq ▸ .asked (by simp [hoperators])
    · refine .default (fun op hop => ?_) (by rw [hoperators]; rfl)
      subst hop
      simp only [hoperators, List.mem_cons, List.not_mem_nil, or_false, not_or]
      exact ⟨fun h => heq (h ▸ rfl), fun h => hasked (h ▸ rfl)⟩

/-- The condition on the review status is that of public searches exactly if the operator
heeds the values and one of them is a status, which is `accepted`. -/
theorem condition?_eq_visibility_iff (hname : p.name = "entry_review_status")
    {values : List String} {operator : Option Operator} {connector : Option Connector} :
    p.condition? values operator connector = some visibility ↔ operator ≠ some .has ∧
      (values.map Text.trim).filter Inventory.reviewStatuses.has = ["accepted"] := by
  have hvalues (op : Operator) : values.filterMap (p.valueCondition? p.queryName op) =
      ((values.map Text.trim).filter Inventory.reviewStatuses.has).map fun v =>
        .compare op p.queryName (.text v) :=
    Predicate.filterMap_valueCondition?_of_choices h.kind (by decide +kernel)
  rw [← h.uses_eq_iff]
  constructor
  · intro hcondition
    obtain ⟨op, huses, hvisible⟩ :=
      Predicate.exists_nameCondition?_queryName hcondition fun _ => by simp [visibility]
    unfold Predicate.nameCondition? at hvisible
    split at hvisible
    · cases hvisible
    · obtain hsingle | hjoined | hjoined := Filter.join?_cases hvisible
      · rw [hvalues] at hsingle
        obtain ⟨v, hv, hcompare⟩ := List.map_eq_singleton_iff.1 hsingle
        simp only [visibility, Filter.compare.injEq, Arg.text.injEq] at hcompare
        obtain ⟨rfl, -, rfl⟩ := hcompare
        exact ⟨huses, hv⟩
      · cases hjoined
      · cases hjoined
  · rintro ⟨huses, hstatus⟩
    have hone : values.filterMap (p.valueCondition? p.queryName .eq) = [visibility] := by
      rw [hvalues, hstatus, h.queryName, hname]
      rfl
    have hcondition : p.nameCondition? .eq (p.connectorFor connector) values p.queryName =
        some visibility := by
      rw [Predicate.nameCondition?, if_neg (by decide), hone]
      cases p.connectorFor connector <;> rfl
    simp only [Predicate.condition?, Predicate.operatorFor?_eq_some_iff.2 huses,
      Option.bind_eq_bind, Option.bind_some, h.aliases, List.filterMap_cons, hcondition]
    rfl

end IsReviewStatus

variable {types : List EntityType}

/-- A filter map asks for accepted entries in the words of public searches exactly if it asks
for them under the key of the review status. -/
theorem visibility_mem_clauses_iff (hs : Schema.build types = .ok s) {p : Predicate}
    (hp : s.predicate? "entry_review_status" = some p) (hstatus : IsReviewStatus p) :
    visibility ∈ (clauses s m).1 ↔ AsksAccepted m := by
  have hname : p.name = "entry_review_status" :=
    (Schema.wellFormed_of_build hs).predicateNames hp
  constructor
  · intro h
    rcases mem_clauses_iff.1 h with h | ⟨d, -, hhas, -⟩
    · obtain ⟨_, hor⟩ | ⟨_, htype⟩ | ⟨⟨q, f⟩, hc, rfl⟩ := mem_plainConditions h
      · cases hor
      · cases htype
      · obtain ⟨⟨key, values⟩, hmem, he⟩ := List.mem_filterMap.1 hc
        obtain ⟨-, hq, hcondition⟩ := (fieldClause?_eq_some_iff hs).1 he
        have hq : s.predicate? key = some q := (Option.filter_eq_some_iff.1 hq).1
        have hquery : q.queryName = "entry_review_status" := by
          obtain hf | ⟨op, arg, hf⟩ | ⟨_, hf, -⟩ | ⟨_, hf⟩ := Predicate.condition?_cases hcondition
          · cases hf
          · exact (Filter.compare.inj hf).2.1.symm
          · cases hf
          · cases hf
        obtain hown | ⟨_, edge, -, hreverse⟩ := Schema.queryName_of_build hs hq
        · have hkey : key = "entry_review_status" := by
            rw [← (Schema.wellFormed_of_build hs).predicateNames hq, ← hown, hquery]
          subst hkey
          obtain rfl : p = q := Option.some.inj (hp.symm.trans hq)
          obtain ⟨hoperator, hvalues⟩ := (hstatus.condition?_eq_visibility_iff hname).1 hcondition
          exact ⟨hoperator, values, Table.get?_eq_some_iff.2 hmem, hvalues⟩
        · have hchars := congrArg String.toList (hquery.symm.trans hreverse)
          simp at hchars
    · cases hhas
  · rintro ⟨hoperator, values, hm, hvalues⟩
    refine mem_clauses_iff.2 (.inl (List.mem_append_right _ ?_))
    refine List.mem_map.2 ⟨(p, visibility), List.mem_filterMap.2 ⟨_, Table.get?_eq_some_iff.1 hm,
      (fieldClause?_eq_some_iff hs).2 ⟨by simp, ?_, ?_⟩⟩, rfl⟩
    · rw [Schema.queryable?, hp, Option.filter_some, if_pos hstatus.queryable]
    · exact (hstatus.condition?_eq_visibility_iff hname).2 ⟨hoperator, hvalues⟩

/-- The filter of a public search says once that entries are accepted, exactly if the filter
map does not ask for that in the same words. -/
theorem visibility_once_iff (hs : Schema.build types = .ok s)
    (hstatus : s.predicate? "entry_review_status" =
      Inventory.schema.predicate? "entry_review_status") {c : Compiled}
    (hc : compile s m true = some c) : ∃ f, c.condition? = some f ∧
      (f.conjuncts.countP isVisibility = 1 ↔ ¬ AsksAccepted m) := by
  obtain ⟨p, hp, hstatusField⟩ := exists_isReviewStatus
  have hne : (clauses s m).1 ≠ [] := fun hnil => by
    rw [compile_eq_none_iff.2 hnil] at hc
    cases hc
  have hlength : 2 ≤ ((clauses s m).1 ++ [visibility]).length := by
    have := List.length_pos_iff.2 hne
    simp only [List.length_append, List.length_singleton]
    omega
  obtain ⟨f, hf⟩ := Filter.exists_allOf? (List.append_ne_nil_of_left_ne_nil hne [visibility])
  refine ⟨f, (compile_condition? hc).trans hf, ?_⟩
  rw [Filter.conjuncts_allOf? hf hlength, List.countP_append,
    ← visibility_mem_clauses_iff hs (hstatus.trans hp) hstatusField]
  have hlast : [visibility].countP isVisibility = 1 := by
    simp [isVisibility_iff]
  have hzero : (clauses s m).1.countP isVisibility = 0 ↔ visibility ∉ (clauses s m).1 := by
    rw [List.countP_eq_zero]
    simp only [isVisibility_iff]
    exact ⟨fun h hmem => h _ hmem rfl, fun h g hg heq => h (heq ▸ hg)⟩
  rw [← hzero, hlast]
  omega

theorem sourceSearch_visibility_once : ∃ c f, compile Inventory.schema sourceSearch true = some c ∧
    c.condition? = some f ∧ f.conjuncts.countP isVisibility = 1 := by
  obtain ⟨c, hc⟩ := exists_compile_sourceSearch true
  obtain ⟨f, hf, honce⟩ := visibility_once_iff Inventory.build_entityTypes rfl hc
  refine ⟨c, f, hc, hf, honce.2 fun ⟨_, values, hm, _⟩ => ?_⟩
  have hnone : sourceSearch.get? "entry_review_status" = none := by decide +kernel
  rw [hnone] at hm
  cases hm

/-- A search for accepted entries. -/
def acceptedSearch : FilterMap :=
  .ofList [("entry_review_status", ["accepted"])]

theorem acceptedSearch_visibility_twice : ∃ c f,
    compile Inventory.schema acceptedSearch true = some c ∧ c.condition? = some f ∧
      f.conjuncts.countP isVisibility = 2 := by
  have htwice : ((compile Inventory.schema acceptedSearch true).bind fun c =>
      c.condition?.map fun f => f.conjuncts.countP isVisibility) = some 2 := by
    decide +kernel
  obtain ⟨c, hc, h⟩ := Option.bind_eq_some_iff.1 htwice
  obtain ⟨f, hf, hcount⟩ := Option.map_eq_some_iff.1 h
  exact ⟨c, f, hc, hf, hcount⟩

end Search

end PressRegister
