import PressRegister.Lookup

/-!
# Unique names

Every entry has a unique name that can be read. It is the slug of its name where
this is free; otherwise more is added until it is free.

## Main definitions

* `Naming.uniqueName`: the unique name for a name.
* `Naming.sourceUniqueName`: the unique name of a source, which may take in its
  channel and country.
* `Naming.paperName`, `Naming.paperKey`: the citation of a paper, and its unique name.
-/

namespace PressRegister.Naming

open Text

/-- A name that is taken, with a random suffix. -/
def disambiguate (base : String) (supply : Supply) : String × Supply :=
  let (n, supply) := supply.next
  (base ++ "_" ++ String.ofList (randomSuffix n), supply)

/-- The slug that a unique name starts from. -/
def baseName (name : String) : Except Error String :=
  let base := slug name
  if base.isEmpty then .error (.invalidValue "name" name "cannot derive a unique name")
  else .ok base

/-- Whether a node has a unique name. -/
def isTaken (d : Directory) (candidate : String) : Consult Bool := do
  let holder ← Lookup.findUid d "unique_name" candidate
  return holder.isSome

/-- The unique name for a name. -/
def uniqueName (d : Directory) (name : String) : Consult String := do
  let base ← Consult.settle (baseName name)
  if ← isTaken d base then Consult.draw (disambiguate base) else return base

/-- The candidates for the unique name of a source: its name, then with its channel,
then with its country and channel. -/
def sourceCandidates (base : String) (channel country : Option String) : List String :=
  match channel, country with
  | none, _ => [base]
  | some channel, none => [base, slug (base ++ " " ++ channel)]
  | some channel, some country =>
    [base, slug (base ++ " " ++ channel), slug (base ++ " " ++ country ++ " " ++ channel)]

/-- A list in which no item follows itself. -/
def withoutStutter : List String → List String
  | [] => []
  | [a] => [a]
  | a :: b :: rest => if a = b then withoutStutter (b :: rest) else a :: withoutStutter (b :: rest)

/-- The first candidate that is free. -/
def firstFree (d : Directory) : List String → Consult (Option String)
  | [] => return none
  | candidate :: rest => do
    if ← isTaken d candidate then firstFree d rest else return some candidate

/-- The unique name of a source: its first free candidate, or the last one with a suffix. -/
def sourceUniqueName (d : Directory) (name : String) (channel country : Option String) :
    Consult String := do
  let base ← Consult.settle (baseName name)
  let candidates := withoutStutter (sourceCandidates base channel country)
  match ← firstFree d candidates with
  | some free => return free
  | none => Consult.draw (disambiguate (candidates.getLast?.getD base))

/-! ### Papers -/

/-- Whether a character ends a sentence. -/
def endsSentence (c : Char) : Bool :=
  c == '.' || c == '?' || c == '!'

/-- The first sentence of a title; a full stop does not belong to it. -/
def firstSentence (title : List Char) : List Char :=
  match title.dropWhile (!endsSentence ·) with
  | c :: _ => title.takeWhile (!endsSentence ·) ++ (if c == '.' then [] else [c])
  | [] => title

/-- The citation of a paper: first author, year and the first sentence of the title. -/
def paperName (authors : List String) (year : Option Int) (title : String) : String :=
  let author := authors.head?.getD ""
  let others := if 1 < authors.length then " et al." else ""
  let date := match year with
    | some y => " (" ++ Number.intText y ++ ")"
    | none => ""
  let name := author ++ others ++ date
  let short := String.ofList (firstSentence (trimChars title.toList))
  if name.isEmpty then short else trim name ++ ": " ++ short

/-- The unique name that the identifiers of a paper give. -/
def paperKey (doi arxiv : Option String) : Option String :=
  ((doi.toList ++ arxiv.toList).map slug).find? (!·.isEmpty)

end PressRegister.Naming
