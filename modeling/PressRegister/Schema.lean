import PressRegister.Predicate
import PressRegister.Table
import PressRegister.Text.Identifier

/-!
# Schemas

The registry of entity types. A type declares predicates of its own and inherits
those of its parent that it does not declare anew. Declarations that share a name
must store their values in the same way.

## Main definitions

* `EntityType`: the declaration of a type.
* `TypeDef`: a registered type with everything it inherits.
* `Schema`, `Schema.build`: the registry, and its construction with all checks.
* `Schema.type?`, `Schema.predicate?`: look-ups.
-/

namespace PressRegister

open Text

/-- The predicates that every entity type must have. -/
def entryPredicates : List String :=
  ["uid", "unique_name", "name", "entry_review_status", "creation_date", "entry_added"]

/-- The declaration of an entity type. -/
structure EntityType where
  name : String
  parent : Option String := none
  predicates : List Predicate := []
  permissionNew : Role := .contributor
  permissionEdit : Role := .contributor
  deriving Repr

/-- Sets the lowest role for new entries and for changes. -/
def EntityType.permit (t : EntityType) (role : Role) : EntityType :=
  { t with permissionNew := role, permissionEdit := role }

/-- Sets the lowest role for changes. -/
def EntityType.permitEdit (t : EntityType) (role : Role) : EntityType :=
  { t with permissionEdit := role }

/-- A registered type with everything it inherits. -/
structure TypeDef where
  name : String
  /-- The type itself, then its ancestors: the types of its nodes. -/
  lineage : List String
  predicates : List Predicate
  permissionNew : Role
  permissionEdit : Role
  deriving Repr

namespace TypeDef

/-- The predicate of a type with a name. -/
def predicate? (t : TypeDef) (name : String) : Option Predicate :=
  t.predicates.find? (·.name == name)

/-- Whether a type is another one or inherits from it. -/
def isA (t : TypeDef) (name : String) : Bool :=
  t.lineage.contains name

end TypeDef

/-- The registry of entity types and of their predicates. -/
structure Schema where
  types : Table TypeDef
  /-- The first declaration of each predicate name. -/
  predicates : Table Predicate
  deriving Repr, Inhabited

namespace Schema

/-- Whether two declarations store their values in the same way. -/
def sameShape (a b : Predicate) : Bool :=
  a.storageClass == b.storageClass && a.kind.name == b.kind.name &&
    a.relationship?.map (fun r => (r.cardinality, r.direction)) ==
      b.relationship?.map (fun r => (r.cardinality, r.direction))

/-- Whether a text is an identifier without a dot. -/
def isUndotted (name : String) : Bool :=
  isIdentifier name && !name.toList.contains '.'

/-- Whether a text can name a predicate: an identifier without tilde and dot. -/
def isPredicateName (name : String) : Bool :=
  isUndotted name && name.toList.head? != some '~'

/-- Checks the names in a declaration. -/
def checkNames (typeName : String) (p : Predicate) : Except Error Unit :=
  if !isPredicateName p.name then
    .error (.schema (typeName ++ " declares invalid predicate name " ++ shown p.name))
  else match p.aliases.find? (!isIdentifier ·) with
    | some name => .error (.schema (p.name ++ " has invalid alias " ++ shown name))
    | none =>
      match p.facets.find? (!isUndotted ·.name) with
      | some f => .error (.schema (p.name ++ " has invalid facet name " ++ shown f.name))
      | none => .ok ()

/-- Enters the declarations of a type into the registry of predicates, given the
names it has declared so far. A name that is registered keeps its first declaration. -/
def registerPredicates (typeName : String) :
    List Predicate → List String → Table Predicate → Except Error (Table Predicate)
  | [], _, registry => .ok registry
  | p :: rest, seen, registry => do
    checkNames typeName p
    if seen.contains p.name then
      .error (.schema (typeName ++ " declares " ++ p.name ++ " twice"))
    else match registry.get? p.name with
      | some first =>
        if sameShape first p then registerPredicates typeName rest (p.name :: seen) registry
        else .error (.schema ("predicate " ++ p.name ++ " on " ++ typeName ++
          " conflicts with an earlier declaration"))
      | none => registerPredicates typeName rest (p.name :: seen) (registry.insert p.name p)

/-- The lineage and predicates of a type whose parent, if any, is registered. -/
def inherit (types : Table TypeDef) (t : EntityType) :
    Except Error (List String × List Predicate) :=
  match t.parent with
  | none => .ok ([t.name], t.predicates)
  | some parentName =>
    match types.get? parentName with
    | none => .error (.schema (t.name ++ " extends unknown type " ++ parentName))
    | some parent => .ok (t.name :: parent.lineage,
        t.predicates ++ parent.predicates.filter fun p =>
          !(t.predicates.any (·.name == p.name)))

/-- Registers a type. Its parent must be registered before it. -/
def register (s : Schema) (t : EntityType) : Except Error Schema := do
  if !isUndotted t.name then
    .error (.schema ("invalid type name " ++ shown t.name))
  else if s.types.contains t.name then
    .error (.schema ("type " ++ t.name ++ " registered twice"))
  else
    let predicates ← registerPredicates t.name t.predicates [] s.predicates
    let (lineage, resolved) ← inherit s.types t
    return {
      types := s.types.insert t.name
        ⟨t.name, lineage, resolved, t.permissionNew, t.permissionEdit⟩
      predicates }

/-- Checks that every type has the predicates of an entry. -/
def checkEntryPredicates (s : Schema) : Except Error Unit :=
  s.types.values.forM fun t =>
    match entryPredicates.find? fun name => (t.predicate? name).isNone with
    | some name => .error (.schema (t.name ++ " lacks entry predicate " ++ name))
    | none => .ok ()

/-- Whether an edge is registered as a relationship stored on the entry itself. -/
def isForward (s : Schema) (edge : String) : Bool :=
  match s.predicates.get? edge with
  | some p => p.direction? == some .forward
  | none => false

/-- Checks that every edge stored on related nodes is registered there. -/
def checkReverseEdges (s : Schema) : Except Error Unit :=
  s.predicates.values.forM fun p =>
    match p.direction? with
    | some (.reverse edge) =>
      if s.isForward edge then .ok ()
      else .error (.schema (p.name ++ " is the reverse of " ++ edge ++
        ", which is not a forward relationship"))
    | _ => .ok ()

/-- The registry of types in order of declaration. -/
def build (types : List EntityType) : Except Error Schema := do
  let s ← types.foldlM register ⟨.empty, .empty⟩
  s.checkEntryPredicates
  s.checkReverseEdges
  return s

/-! ### Look-ups -/

/-- Whether two texts are equal up to the case of ASCII letters. -/
def sameLetters (a b : String) : Bool :=
  a.toList.map Char.toLower == b.toList.map Char.toLower

/-- The type with a name; in want of one, the first type whose name has the same letters. -/
def type? (s : Schema) (name : String) : Option TypeDef :=
  (s.types.get? name).or (s.types.values.find? fun t => sameLetters t.name name)

/-- The names of all types in order. -/
def typeNames (s : Schema) : List String :=
  s.types.keys

/-- The lineage of a type. -/
def lineage? (s : Schema) (typeName : String) : Option (List String) :=
  (s.type? typeName).map (·.lineage)

/-- The first declaration of a predicate. -/
def predicate? (s : Schema) (name : String) : Option Predicate :=
  s.predicates.get? name

/-- The first declaration of a predicate, if filters may use it. -/
def queryable? (s : Schema) (name : String) : Option Predicate :=
  (s.predicate? name).filter (·.queryable)

/-- A predicate and one of its facets, if filters may use the facet. -/
def queryableFacet? (s : Schema) (predicate facet : String) : Option (Predicate × Facet) := do
  let p ← s.predicate? predicate
  let f ← (p.facet? facet).filter (·.queryable)
  return (p, f)

end Schema

end PressRegister
