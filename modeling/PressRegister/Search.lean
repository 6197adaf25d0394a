import PressRegister.Predicate.Condition
import PressRegister.Query
import PressRegister.Schema

/-!
# Searches

A filter map gives values to keys; a search turns it into one query that counts
the matching entries and shows a page of them. Keys are

* `_max_results`, `_page`: the page;
* `_terms`: words to look for, which travel beside the query and never inside it;
* `dgraph.type`: entity types;
* a predicate: values to compare with, and `predicate*operator` and
  `predicate*connector` for how they are compared and joined;
* `predicate|facet`: values for a facet, and `predicate|facet*operator`.

All other keys are without effect, and only registered names reach the query text.

## Main definitions

* `FilterMap`: keys and values.
* `Search.clauses`: the conditions that a filter map asks for.
* `Search.compile`: the query of a filter map, if it restricts the result at all.
-/

namespace PressRegister

open Number

/-- Values by key. -/
abbrev FilterMap := Table (List String)

namespace FilterMap

/-- The filter map of a JSON object; keys without a value are left out. -/
def ofJson : Json → FilterMap
  | .object members =>
    Table.ofList (members.filterMap fun m =>
      let values := Predicate.tokens false m.2
      if values.isEmpty then none else some (m.1, values))
  | _ => .empty

/-- The first value of a key. -/
def first? (m : FilterMap) (key : String) : Option String :=
  (m.get? key).bind List.head?

/-- The first value of the modifier of a key. -/
def modifier? (m : FilterMap) (key kind : String) : Option String :=
  m.first? (key ++ "*" ++ kind)

/-- The operator asked for a key. -/
def operator? (m : FilterMap) (key : String) : Option Operator :=
  (m.modifier? key "operator").bind Operator.read?

/-- The connector asked for a key. -/
def connector? (m : FilterMap) (key : String) : Option Connector :=
  (m.modifier? key "connector").bind Connector.read?

end FilterMap

namespace Search

/-! ### Keys and names -/

/-- The key of the number of results on a page. -/
def maxResultsKey : String := "_max_results"
/-- The key of the number of the page. -/
def pageKey : String := "_page"
/-- The key of the search terms. -/
def termsKey : String := "_terms"
/-- The key of entity types, and the predicate that every entry has. -/
def typeKey : String := "dgraph.type"

/-- The variable that the search terms are bound to. -/
def termsParam : String := "search_terms"
/-- The variable that the matching entries are bound to. -/
def filteredVar : String := "filtered"

/-- The predicates in which single search terms are looked for. -/
def termPredicates : List String := ["name", "other_names", "title", "authors"]
/-- The predicates that are compared with the search terms as a whole. -/
def exactPredicates : List String := ["doi", "arxiv"]
/-- The predicates that every result shows. -/
def resultFields : List String := ["uid", "unique_name", "name", "dgraph.type"]
/-- What is shown of a related node. -/
def relatedFields : List String := ["uid", "name", "unique_name"]
/-- The relationships that every result shows. -/
def resultRelations : List String := ["country", "channel"]

/-! ### Pages -/

/-- The number of results on a page that is not asked for otherwise. -/
def defaultPageSize : Nat := 25
/-- The greatest number of results on a page. -/
def maxPageSize : Nat := 50

/-- The number of results on a page. -/
def pageSize (m : FilterMap) : Nat :=
  match (m.first? maxResultsKey).bind fun v => readInt64? (Text.trim v) with
  | some n => if 0 < n then min n.toNat maxPageSize else defaultPageSize
  | none => defaultPageSize

/-- The number of the page, counted from zero. -/
def page (m : FilterMap) : Nat :=
  ((m.first? pageKey).bind fun v =>
    readUnsigned? uint32Max (Text.trimChars v.toList)).getD 0

/-- The number of results before a page, as far as 32 bits go. -/
def offset (m : FilterMap) : Nat :=
  min (page m * pageSize m) uint32Max

/-! ### Conditions -/

/-- The search terms as one text. -/
def terms? (m : FilterMap) : Option String :=
  ((m.get? termsKey).map fun values => Text.trim (" ".intercalate values)).filter (· != "")

/-- The condition that an entry matches the search terms. -/
def termsClause : Filter :=
  .or (termPredicates.map (fun p => .compare .anyOfTerms p (.param termsParam)) ++
    exactPredicates.map (fun p => .compare .eq p (.param termsParam)))

/-- The names of the registered types among given ones, each once. -/
def registeredTypes (s : Schema) (names : List String) : List String :=
  Predicate.withoutRepeats ((names.filterMap s.type?).map (·.name))

/-- The condition that an entry is of one of the given types. -/
def typeClause? (s : Schema) (m : FilterMap) : Option Filter :=
  Filter.anyOf? ((registeredTypes s ((m.get? typeKey).getD [])).map .ofType)

/-- Whether a key is meant as a predicate. -/
def isPredicateKey (key : String) : Bool :=
  key.toList.head? != some '_' && key != typeKey && !key.toList.contains '*' &&
    !key.toList.contains '|'

/-- The predicate of a key and the condition on it, if filters may use the
predicate and a value fits it. -/
def fieldClause? (s : Schema) (m : FilterMap) (key : String) (values : List String) :
    Option (Predicate × Filter) := do
  if !isPredicateKey key then none
  else
    let p ← s.queryable? key
    let f ← p.condition? values (m.operator? key) (m.connector? key)
    return (p, f)

/-- The predicates with a condition, in key order. -/
def fieldClauses (s : Schema) (m : FilterMap) : List (Predicate × Filter) :=
  m.entries.filterMap fun e => fieldClause? s m e.1 e.2

/-! ### Facets -/

/-- What is asked of the facets of one predicate. -/
structure FacetDemand where
  predicate : Predicate
  conditions : List Filter
  keys : List String

/-- The names of a predicate and of one of its facets in a key that is no modifier. -/
def facetKey? (key : String) : Option (String × String) :=
  if key.toList.contains '*' then none else Facet.splitKey? key

/-- The facet of a key and the condition on it, if filters may use the facet and a
value fits it. -/
def facetClause? (s : Schema) (m : FilterMap) (key : String) (values : List String) :
    Option (Predicate × Facet × Filter) := do
  let (predicate, facet) ← facetKey? key
  let (p, f) ← s.queryableFacet? predicate facet
  let condition ← Filter.allOf?
    (values.filterMap fun v => f.condition? v (m.operator? key))
  return (p, f, condition)

/-- Adds the condition on a facet to what is asked of its predicate. -/
def addFacet (demands : Table FacetDemand) (c : Predicate × Facet × Filter) :
    Table FacetDemand :=
  let (p, f, condition) := c
  let demand := (demands.get? p.name).getD ⟨p, [], []⟩
  demands.insert p.name {
    demand with
    conditions := demand.conditions ++ [condition]
    keys := if demand.keys.contains f.name then demand.keys else demand.keys ++ [f.name] }

/-- What is asked of facets, by the name of their predicate. -/
def facetDemands (s : Schema) (m : FilterMap) : Table FacetDemand :=
  (m.entries.filterMap fun e => facetClause? s m e.1 e.2).foldl addFacet .empty

/-! ### What is shown -/

/-- What a result shows of a predicate that was filtered on: the facets asked for,
and the nodes at the other ends of a relationship. -/
def projection (p : Predicate) (facetKeys : List String) : Selection :=
  let children := if p.isRelationship then relatedFields.map Selection.field else []
  if children.isEmpty && facetKeys.isEmpty then .field p.queryName
  else .edge p.queryName none facetKeys children

/-- Whether a result shows a predicate. -/
def isShown (selections : List Selection) (name : String) : Bool :=
  selections.any fun
    | .field p => p == name
    | .edge p _ _ _ => p == name
    | .count _ | .bind _ _ => false

/-- What results show once the filtered predicates are added. -/
def shownFields (demands : Table FacetDemand) (clauses : List (Predicate × Filter)) :
    List Selection :=
  clauses.foldl (fun shown c =>
    Selection.pushUnique shown (projection c.1 (((demands.get? c.1.name).map (·.keys)).getD [])))
    (resultFields.map .field)

/-- Requires and shows the predicate of a facet, unless results show it already. -/
def requireFacet (acc : List Filter × List Selection) (d : FacetDemand) :
    List Filter × List Selection :=
  if isShown acc.2 d.predicate.queryName then acc
  else (acc.1 ++ [.has d.predicate.queryName],
    Selection.pushUnique acc.2 (projection d.predicate d.keys))

/-- The selection that keeps to the edges whose facets match. -/
def facetSelection (d : FacetDemand) : Selection :=
  .edge d.predicate.queryName (Filter.allOf? d.conditions) []
    (if d.predicate.isRelationship then [.field "uid"] else [])

/-- The block that counts the matching entries with a predicate. -/
def facetTotal (d : FacetDemand) : Block :=
  { Block.showing ("total_" ++ d.predicate.name) (.inVar filteredVar) [.count "uid"] with
    filter := some (.has d.predicate.queryName) }

/-! ### The query -/

/-- The conditions that a filter map asks for, and what results show. -/
def clauses (s : Schema) (m : FilterMap) : List Filter × List Selection :=
  let fields := fieldClauses s m
  let demands := facetDemands s m
  let general := ((terms? m).map fun _ => termsClause).toList ++ (typeClause? s m).toList
  demands.values.foldl requireFacet
    (general ++ fields.map (·.2), shownFields demands fields)

/-- The condition that an entry may be seen by everyone. -/
def visibility : Filter :=
  .compare .eq ReviewStatus.predicateName (.text ReviewStatus.accepted.name)

/-- A query with the values of its variables and the page it shows. -/
structure Compiled where
  query : Query
  /-- The values of the variables, by their names in the query. -/
  bindings : Table String
  pageSize : Nat
  page : Nat
  deriving Inhabited

/-- The text of a compiled query. -/
def Compiled.text (c : Compiled) : String :=
  c.query.render

/-- The block that binds the matching entries. -/
def filteredBlock (conditions : List Filter) (demands : List FacetDemand) : Block :=
  { Block.binding filteredVar (.has typeKey) (Filter.allOf? conditions) with
    cascade := if demands.isEmpty then none else some (demands.map (·.predicate.queryName))
    body := demands.map facetSelection }

/-- The block that shows a page of the matching entries by name. -/
def resultBlock (m : FilterMap) (shown : List Selection) : Block :=
  { Block.showing "q" (.inVar filteredVar) shown with
    order := some (.ascending, "name")
    first := some (pageSize m)
    offset := some (offset m) }

/-- What every result shows in the end. -/
def withRelations (shown : List Selection) : List Selection :=
  resultRelations.foldl
    (fun shown name => Selection.pushUnique shown (.nested name relatedFields)) shown

/-- The query for given conditions. -/
def query (m : FilterMap) (conditions : List Filter) (shown : List Selection)
    (demands : List FacetDemand) : Query where
  name := filteredVar
  params := if (terms? m).isSome then [(termsParam, "string")] else []
  blocks := filteredBlock conditions demands ::
    Block.showing "total" (.inVar filteredVar) [.count "uid"] ::
    (demands.map facetTotal ++ [resultBlock m (withRelations shown)])

/-- The query of a filter map, unless the map does not restrict the result. A
public search is confined to what everyone may see. -/
def compile (s : Schema) (m : FilterMap) (isPublic : Bool) : Option Compiled :=
  let (conditions, shown) := clauses s m
  if conditions.isEmpty then none
  else some {
    query := query m (if isPublic then conditions ++ [visibility] else conditions) shown
      (facetDemands s m).values
    bindings := match terms? m with
      | some terms => Table.empty.insert ("$" ++ termsParam) terms
      | none => .empty
    pageSize := pageSize m
    page := page m }

end Search

end PressRegister
