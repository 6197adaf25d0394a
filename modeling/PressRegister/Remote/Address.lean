import PressRegister.Number.Integer
import PressRegister.Text.Hex

/-!
# Web addresses

An absolute address with the scheme `http` or `https`, in the one form in which
addresses are sent: scheme and host in lower case, no default port, a path that
starts with a slash and has no dot segments, and characters that may not stand in
an address replaced by their percent codes. A user and password before the host
are not part of it.

Hosts are ASCII names or bracketed numbers.

## Main definitions

* `Address`: the parts of an address.
* `Address.read`: reads an address.
* `Address.text`: writes it.
-/

namespace PressRegister

open Number Text

/-- The parts of an address. -/
structure Address where
  scheme : List Char
  host : List Char
  port : Option Nat
  path : List Char
  query : Option (List Char)
  fragment : Option (List Char)
  deriving DecidableEq, Repr

namespace Address

/-! ### Characters -/

/-- Whether a character is an ASCII letter. -/
def isLetter (c : Char) : Bool :=
  ('a' ≤ c && c ≤ 'z') || ('A' ≤ c && c ≤ 'Z')

/-- Whether a character may follow the first letter of a scheme. -/
def isSchemeChar (c : Char) : Bool :=
  isLetter c || isDigit c || c == '+' || c == '-' || c == '.'

/-- Whether a character separates the parts of a path. -/
def isSlash (c : Char) : Bool :=
  c == '/' || c == '\\'

/-- Whether a character ends the part of an address that names the host. -/
def endsAuthority (c : Char) : Bool :=
  isSlash c || c == '?' || c == '#'

/-- Whether a character may stand in the name of a host. -/
def isHostChar (c : Char) : Bool :=
  0x20 < c.toNat && c.toNat < 0x7f && !"#%/:<>?@[\\]^|".toList.contains c

/-- Whether a character may stand in the number of a host between brackets. -/
def isHostNumberChar (c : Char) : Bool :=
  isHexDigit c || c == ':' || c == '.'

/-- An ASCII letter in lower case. -/
def lowerAscii (c : Char) : Char :=
  if 'A' ≤ c && c ≤ 'Z' then Char.ofNat (c.toNat + 32) else c

/-- An ASCII letter in upper case. -/
def upperAscii (c : Char) : Char :=
  if 'a' ≤ c && c ≤ 'z' then Char.ofNat (c.toNat - 32) else c

/-- The percent codes of the bytes of a character. -/
def percentCodes (c : Char) : List Char :=
  (String.singleton c).toUTF8.toList.flatMap fun b =>
    '%' :: (hexPadded 2 b.toNat).map upperAscii

/-- A text in which control characters, characters outside ASCII and given
characters are replaced by percent codes. -/
def encode (special : String) (cs : List Char) : List Char :=
  cs.flatMap fun c =>
    if c.toNat < 0x20 || 0x7f ≤ c.toNat || special.toList.contains c then percentCodes c else [c]

/-! ### Reading -/

/-- An address without control characters and blanks at its ends, and without line
breaks and tabulators. -/
def cleaned (s : String) : List Char :=
  let outer (c : Char) : Bool := c.toNat ≤ 0x20
  let inner := ((s.toList.dropWhile outer).reverse.dropWhile outer).reverse
  inner.filter fun c => !(c == '\t' || c == '\n' || c == '\r')

/-- The scheme of an address in lower case, and what follows its colon. -/
def scheme? (cs : List Char) : Option (List Char × List Char) :=
  match cs.dropWhile isSchemeChar with
  | ':' :: rest =>
    if (cs.head?.map isLetter).getD false then
      some ((cs.takeWhile isSchemeChar).map lowerAscii, rest)
    else none
  | _ => none

/-- A text without a user and password before its last at sign. -/
def withoutUser (cs : List Char) : List Char :=
  (cs.reverse.takeWhile (· != '@')).reverse

/-- The host at the start of a text, in lower case, and what follows it. -/
def host? (cs : List Char) : Option (List Char × List Char) :=
  match cs with
  | '[' :: rest =>
    let number := rest.takeWhile isHostNumberChar
    match rest.dropWhile isHostNumberChar with
    | ']' :: after =>
      if number.isEmpty then none else some ('[' :: number.map lowerAscii ++ [']'], after)
    | _ => none
  | cs =>
    let name := cs.takeWhile (· != ':')
    if !name.isEmpty && name.all isHostChar then
      some (name.map lowerAscii, cs.dropWhile (· != ':'))
    else none

/-- The port that a scheme has unless another one is given. -/
def defaultPort (scheme : List Char) : Nat :=
  if scheme = "https".toList then 443 else 80

/-- The port behind a host; a default port is not mentioned. -/
def port? (scheme : List Char) : List Char → Option (Option Nat)
  | [] | [':'] => some none
  | ':' :: digits => do
    let n ← readNat? digits
    if n ≤ 65535 then return if n = defaultPort scheme then none else some n else none
  | _ => none

/-- How many steps up a path segment goes: none if it is no dot segment. -/
def dots? (segment : List Char) : Option Nat :=
  let dot := segment.map lowerAscii
  if [".", "%2e"].any (·.toList == dot) then some 0
  else if ["..", ".%2e", "%2e.", "%2e%2e"].any (·.toList == dot) then some 1
  else none

/-- The segments of a path without dot segments; `done` are those before, last first. -/
def segments (done : List (List Char)) : List (List Char) → List (List Char)
  | [] => done.reverse
  | [s] => match dots? s with
    | some n => (done.drop n).reverse ++ [[]]
    | none => done.reverse ++ [encode " \"#<>?\x60\x7b\x7d" s]
  | s :: rest => match dots? s with
    | some n => segments (done.drop n) rest
    | none => segments (encode " \"#<>?\x60\x7b\x7d" s :: done) rest

/-- The path of an address. -/
def pathOf (cs : List Char) : List Char :=
  match cs.map (fun c => if isSlash c then '/' else c) with
  | '/' :: rest => (segments [] (rest.splitOn '/')).flatMap ('/' :: ·)
  | _ => ['/']

/-- What follows the first of a given character, if it occurs. -/
def after? (c : Char) (cs : List Char) : Option (List Char) :=
  match cs.dropWhile (· != c) with
  | _ :: rest => some rest
  | [] => none

/-- The address that a scheme and what follows its slashes make up. -/
def ofParts? (scheme cs : List Char) : Option Address := do
  let (host, port) ← host? (withoutUser (cs.takeWhile (!endsAuthority ·)))
  let port ← port? scheme port
  let rest := cs.dropWhile (!endsAuthority ·)
  let beforeFragment := rest.takeWhile (· != '#')
  return {
    scheme, host, port
    path := pathOf (beforeFragment.takeWhile (· != '?'))
    query := (after? '?' beforeFragment).map (encode " \"#<>'")
    fragment := (after? '#' rest).map (encode " \"<>\x60") }

/-- Reads an address; `none` if a text is no absolute address of the web. -/
def read? (s : String) : Option Address := do
  let (scheme, rest) ← scheme? (cleaned s)
  if scheme = "http".toList ∨ scheme = "https".toList then
    ofParts? scheme (rest.dropWhile isSlash)
  else none

/-! ### Writing -/

/-- The text of an address. -/
def chars (a : Address) : List Char :=
  a.scheme ++ "://".toList ++ a.host ++
    (match a.port with
      | some n => ':' :: natChars n
      | none => []) ++
    a.path ++
    (match a.query with
      | some q => '?' :: q
      | none => []) ++
    (match a.fragment with
      | some f => '#' :: f
      | none => [])

/-- The text of an address. -/
def text (a : Address) : String :=
  String.ofList a.chars

end Address

end PressRegister
