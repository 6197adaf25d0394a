import PressRegister.Calendar.Reader
import PressRegister.Json.Printer
import PressRegister.Operand
import PressRegister.Predicate

/-!
# Tokens of raw input

Raw input is a string, a number, a truth value or a list of these. It is read as
a list of tokens: texts without blanks at their ends, none of them empty.

## Main definitions

* `tokens`: the tokens of raw input; a string may be cut at its commas.
* `singleToken`: the token of raw input that may hold at most one.
* `withoutRepeats`: a list without what was said before.
* `readBool`, `readInstant`, `readPoint`: tokens and raw input as values.
-/

namespace PressRegister.Predicate

open Calendar Number

/-- The parts of a text between its commas. -/
def commaParts (s : String) : List String :=
  (s.toList.splitOn ',').map String.ofList

/-- Texts without blanks at their ends; empty ones are left out. -/
def trimmedTokens (items : List String) : List String :=
  (items.map Text.trim).filter (· != "")

/-- The tokens of raw input. A string is cut at its commas if `split` is set. -/
def tokens (split : Bool) : Json → List String
  | .array items => trimmedTokens (items.filterMap Json.scalarText?)
  | .string s => trimmedTokens (if split then commaParts s else [s])
  | raw => trimmedTokens raw.scalarText?.toList

/-- Several tokens as one text. -/
def joined (items : List String) : String :=
  ", ".intercalate items

/-- The token of raw input that may hold at most one; `predicate` is named in the error. -/
def singleToken (predicate : String) (raw : Json) : Except Error (Option String) :=
  match tokens false raw with
  | [] => .ok none
  | [token] => .ok (some token)
  | items => .error (.invalidValue predicate (joined items) "expects a single value")

/-- A list in which every item stands once, where it was first. -/
def withoutRepeats : List String → List String
  | [] => []
  | item :: rest => item :: (withoutRepeats rest).filter (· != item)

theorem mem_withoutRepeats {v : String} {vs : List String} :
    v ∈ withoutRepeats vs ↔ v ∈ vs := by
  induction vs with
  | nil => rfl
  | cons w vs ih =>
    simp only [withoutRepeats, List.mem_cons, List.mem_filter, ih, bne_iff_ne, ne_eq]
    by_cases h : v = w
    · simp [h]
    · simp [h]

theorem nodup_withoutRepeats (vs : List String) : (withoutRepeats vs).Nodup := by
  induction vs with
  | nil => exact List.nodup_nil
  | cons v vs ih =>
    exact List.nodup_cons.2 ⟨by simp, ih.filter _⟩

theorem withoutRepeats_eq_self {vs : List String} (h : vs.Nodup) : withoutRepeats vs = vs := by
  induction vs with
  | nil => rfl
  | cons v vs ih =>
    obtain ⟨hv, hvs⟩ := List.nodup_cons.1 h
    rw [withoutRepeats, ih hvs, List.filter_eq_self.2]
    intro w hw
    simpa using fun heq : w = v => hv (heq ▸ hw)

/-- Reads a truth value. -/
def readBool (predicate token : String) : Except Error Bool :=
  let text := Text.lower (Text.trim token)
  if ["true", "t", "yes", "y", "1", "on"].contains text then .ok true
  else if ["false", "f", "no", "n", "0", "off"].contains text then .ok false
  else .error (.invalidValue predicate token "not a boolean")

/-- The first year that is not taken for a typing error. -/
def minYear : Int := 1700
/-- The last year that is not taken for a typing error. -/
def maxYear : Int := 2100

/-- Reads an instant whose year is plausible. -/
def readInstant (predicate token : String) : Except Error Instant :=
  match Instant.read? token with
  | none => .error (.invalidValue predicate token "cannot parse date")
  | some t =>
    if t.year < minYear || maxYear < t.year then
      .error (.invalidValue predicate token "year outside [1700, 2100]")
    else .ok t

/-- The coordinates in raw input: a geometry, an object with `lon` and `lat`, or a
pair with the longitude first. -/
def coordinates? : Json → Option (Double × Double)
  | .array [lon, lat] => do return (← lon.double?, ← lat.double?)
  | raw@(.object _) =>
    match raw.member? "coordinates" with
    | some (.array (lon :: lat :: _)) => do return (← lon.double?, ← lat.double?)
    | some _ => none
    | none => do return (← (← raw.member? "lon").double?, ← (← raw.member? "lat").double?)
  | _ => none

/-- Reads a point on the map; nothing is given by `null`. -/
def readPoint (predicate : String) (raw : Json) : Except Error (Option Point) :=
  match raw with
  | .null => .ok none
  | _ =>
    match coordinates? raw with
    | some (lon, lat) =>
      if lon.isWithin 180 && lat.isWithin 90 then .ok (some ⟨lon, lat⟩)
      else .error (.invalidValue predicate raw.compact "not a point geometry")
    | none => .error (.invalidValue predicate raw.compact "not a point geometry")

end PressRegister.Predicate
