import PressRegister.Proofs.Number.Text
import PressRegister.Proofs.Predicate.RoundTrip
import PressRegister.Proofs.Predicate.Years

/-!
# Searching by the spelling of a value

A text is read in two places: as a value that is to be stored, and as what a filter compares stored
values with. Two spellings part them. The digits of a whole number may be grouped where a facet is
stored, and not where it is searched for; and a unique name is stored in lower case, but searched
for as it is spelled. Every other text that is accepted as a value is searched for by the condition
that holds of the value as it is stored, without the fraction of a second that an instant may have.

## Main definitions

* `Scalar.stored`: a literal as it is stored.
* `Arg.Denotes`: what an argument of a comparison denotes.
* `Reading.ofStored`: what the functions of filters say of a node with one stored literal.
* `Predicate.Spells`: the literals that texts spell.

## Main results

* `readFinite?_plainText`: a finite number is read back.
* `Facet.condition?_of_validate`, `Predicate.condition?_of_spells`: the conditions of texts that are
  accepted as values.
* `spelling_searches_iff`: the accepted texts that the value is searched for by.
-/

namespace PressRegister

open Calendar Number

/-! ### Stored literals -/

/-- A literal as it is stored: an instant loses its fraction of a second. -/
def Scalar.stored : Scalar → Scalar
  | .instant t => .instant t.whole
  | s => s

/-- What an argument of a comparison denotes. A text denotes itself, and the instant that is read
from it. -/
inductive Arg.Denotes : Arg → Scalar → Prop
  | text (s : String) : Denotes (.text s) (.text s)
  | instant {s : String} {t : Instant} (h : Instant.read? s = some t) :
      Denotes (.text s) (.instant t)
  | int {s : String} {n : Int} (h : readInt64? s = some n) : Denotes (.number s) (.int n)
  | float {s : String} {d : Double} (h : readFinite? s = some d) : Denotes (.number s) (.float d)
  | bool (b : Bool) : Denotes (.number (Scalar.boolText b)) (.bool b)

/-- Whether a literal compares with another one. Whole numbers and instants have an order, all
other literals are only told apart. -/
def Scalar.Compares (op : Operator) : Scalar → Scalar → Prop
  | .int m, .int n => op.Admits (compare m n)
  | .instant t, .instant u => op.Admits (t.order u)
  | s, t => op = .eq ∧ s = t

/-- What the functions of filters say of a node whose only value is a stored literal. -/
def Reading.ofStored (name : String) (s : Scalar) : Reading where
  compares op predicate arg := predicate = name ∧ ∃ v, arg.Denotes v ∧ s.Compares op v
  has predicate := predicate = name
  ofType _ := False
  inVar _ := False
  isParam _ := False

/-- Dates are stored as instants. -/
theorem Reading.ofStored_instant (name : String) (t : Instant) :
    ofStored name (.instant t) = ofDate name t := by
  have hcompares : (ofStored name (.instant t)).compares = (ofDate name t).compares := by
    funext op predicate arg
    refine propext (and_congr_right fun _ => ⟨?_, ?_⟩)
    · rintro ⟨v, hdenotes, hcompares⟩
      cases hdenotes with
      | instant h => exact ⟨_, _, rfl, h, hcompares⟩
      | _ => cases hcompares.2
    · rintro ⟨s, u, rfl, h, hadmits⟩
      exact ⟨.instant u, .instant h, hadmits⟩
  rw [ofStored, ofDate]
  exact congrArg (Reading.mk · _ _ _ _) hcompares

theorem Instant.order_self (t : Instant) : t.order t = .eq := by
  rw [Instant.order, Ordering.then_eq_eq]
  exact ⟨Int.compare_eq_eq.2 rfl, Nat.compare_eq_eq.2 rfl⟩

/-- A finite number is read back. -/
theorem readFinite?_plainText {s : String} {d : Double} (h : readFinite? s = some d) :
    readFinite? d.plainText = some d := by
  obtain ⟨-, hfinite⟩ := Option.filter_eq_some_iff.1 h
  cases d with
  | finite negative magnitude =>
    rw [readFinite?, Double.plainText, String.toList_ofList, Double.read?_chars]
    rfl
  | _ => cases hfinite

theorem Arg.Denotes.stored_iff {arg : Arg} {w : Scalar} (h : arg.Denotes w.stored) :
    arg.Denotes w ↔ w.stored = w := by
  constructor
  · intro hplain
    cases hplain with
    | instant hread =>
      cases h with
      | instant hwhole => rw [Scalar.stored, ← Option.some.inj (hread.symm.trans hwhole)]
    | _ => rfl
  · intro heq
    rwa [heq] at h

/-! ### Texts as tokens -/

namespace Predicate

variable {p : Predicate} {t : String} {v : Operand}

theorem tokens_text {split : Bool} (h : split = true → ',' ∉ t.toList) :
    tokens split (.string t) = if Text.trim t = "" then [] else [Text.trim t] := by
  have hparts : (if split then commaParts t else [t]) = [t] := by
    cases split with
    | false => rfl
    | true => simp [commaParts, List.splitOn_eq_singleton (h rfl)]
  rw [tokens, hparts, trimmedTokens, List.map_singleton]
  split
  · rename_i hempty
    rw [hempty]
    rfl
  · rename_i hne
    exact List.filter_eq_self.2 (List.forall_mem_singleton.2 (bne_iff_ne.2 hne))

theorem singleToken_text (predicate t : String) : singleToken predicate (.string t) =
    .ok (if Text.trim t = "" then none else some (Text.trim t)) := by
  have htokens : tokens false (.string t) = if Text.trim t = "" then [] else [Text.trim t] :=
    tokens_text fun hsplit => absurd hsplit Bool.false_ne_true
  rw [singleToken, htokens]
  by_cases hempty : Text.trim t = ""
  · rw [if_pos hempty, if_pos hempty]
  · rw [if_neg hempty, if_neg hempty]

theorem isToken_trim (h : Text.trim t ≠ "") : IsToken (Text.trim t) :=
  ⟨Text.trim_trim t, h⟩

/-- A field of one token has the operand of a text that is read as the trimmed text. -/
theorem readSingle_text {read : String → Except Error Operand}
    (h : p.readSingle (.string t) read = .ok [v]) :
    IsToken (Text.trim t) ∧ read (Text.trim t) = .ok v := by
  unfold readSingle at h
  rw [singleToken_text] at h
  by_cases hempty : Text.trim t = ""
  · rw [if_pos hempty] at h
    cases h
  · rw [if_neg hempty] at h
    obtain ⟨_, hsome, h⟩ := bind_eq_ok.1 h
    cases hsome
    obtain ⟨w, hread, hw⟩ := bind_eq_ok.1 h
    cases pure_eq_ok.1 hw
    exact ⟨isToken_trim hempty, hread⟩

/-! ### What texts spell -/

/-- The kinds of values that texts spell: texts, choices, whole numbers, truth values and dates. -/
def Kind.IsSpelled : Kind → Prop
  | .uid | .geo | .relationship _ => False
  | _ => True

/-- A token spells a literal as a value of a field. -/
inductive Spells (p : Predicate) (token : String) : Scalar → Prop
  | text (hkind : p.kind = .string ∨ p.kind = .listString) : Spells p token (.text token)
  | name (hkind : p.kind = .uniqueName) : Spells p token (.text (Text.lower token))
  | choice {choices : Choices}
      (hkind : p.kind = .singleChoice choices ∨ p.kind = .multipleChoice choices)
      (hchoice : choices.has token = true) : Spells p token (.text token)
  | integer {min max : Option Int} {n : Int} (hkind : p.kind = .integer min max)
      (hread : readInt64? token = some n) : Spells p token (.int n)
  | boolean {b : Bool} (hkind : p.kind = .boolean) (hread : readBool p.name token = .ok b) :
      Spells p token (.bool b)
  | instant {t : Instant} (hkind : p.kind = .dateTime) (hread : readInstant p.name token = .ok t) :
      Spells p token (.instant t)

theorem spells_ofChoice {choices : Choices} {token : String} {w : Scalar} (htoken : IsToken token)
    (hkind : p.kind = .singleChoice choices ∨ p.kind = .multipleChoice choices)
    (h : (choices.read p.name token).map Operand.ofText = .ok (.literal w)) :
    p.Spells token w := by
  obtain ⟨choice, hchoice, heq⟩ := map_eq_ok.1 h
  unfold Choices.read at hchoice
  split at hchoice
  · rename_i hhas
    cases hchoice
    rw [htoken.ofText] at heq
    cases heq
    exact .choice hkind hhas
  · cases hchoice

theorem Kind.IsSpelled.exists_literal {k : Kind} (hkind : k.IsSpelled) (h : k.admits v = true) :
    ∃ w, v = .literal w := by
  cases v with
  | literal w => exact ⟨w, rfl⟩
  | _ => cases k <;> first | exact hkind.elim | cases h

/-- A text that is accepted as one value spells it. -/
theorem spells_of_validate {supply supply' : Supply} (hkind : p.kind.IsSpelled)
    (hcomma : ',' ∉ t.toList) (h : p.validate (.string t) supply = .ok ([v], supply')) :
    ∃ w, v = .literal w ∧ IsToken (Text.trim t) ∧ p.Spells (Text.trim t) w := by
  obtain ⟨w, rfl⟩ := hkind.exists_literal (validate_admits h (List.mem_singleton_self v))
  refine ⟨w, rfl, ?_⟩
  obtain ⟨rel, -, hrel, -⟩ | ⟨-, hliteral, -⟩ := validate_cases h
  · rw [hrel] at hkind
    exact hkind.elim
  have hlist : withoutRepeats (tokens true (.string t)) =
      if Text.trim t = "" then [] else [Text.trim t] := by
    rw [tokens_text fun _ => hcomma]
    split <;> rfl
  unfold validateLiteral at hliteral
  cases hp : p.kind <;> rw [hp] at hkind <;> simp only [hp] at hliteral
  case string =>
    obtain ⟨htoken, hread⟩ := readSingle_text hliteral
    rw [htoken.ofText] at hread
    cases hread
    exact ⟨htoken, .text (.inl hp)⟩
  case uniqueName =>
    obtain ⟨htoken, hread⟩ := readSingle_text hliteral
    rw [htoken.lower.ofText] at hread
    cases hread
    exact ⟨htoken, .name hp⟩
  case listString =>
    rw [hlist] at hliteral
    by_cases hempty : Text.trim t = ""
    · rw [if_pos hempty] at hliteral
      cases hliteral
    · have htoken := isToken_trim hempty
      rw [if_neg hempty, List.map_singleton, htoken.ofText] at hliteral
      cases hliteral
      exact ⟨htoken, .text (.inr hp)⟩
  case integer min max =>
    obtain ⟨htoken, hread⟩ := readSingle_text hliteral
    unfold readInteger at hread
    split at hread
    · cases hread
    · rename_i n hn
      split at hread
      · cases hread
      · cases hread
        exact ⟨htoken, .integer hp hn⟩
  case boolean =>
    obtain ⟨htoken, hread⟩ := readSingle_text hliteral
    obtain ⟨b, hb, heq⟩ := map_eq_ok.1 hread
    cases heq
    exact ⟨htoken, .boolean hp hb⟩
  case dateTime =>
    obtain ⟨htoken, hread⟩ := readSingle_text hliteral
    obtain ⟨u, hu, heq⟩ := map_eq_ok.1 hread
    cases heq
    exact ⟨htoken, .instant hp hu⟩
  case singleChoice choices =>
    obtain ⟨htoken, hread⟩ := readSingle_text hliteral
    exact ⟨htoken, spells_ofChoice htoken (.inl hp) hread⟩
  case multipleChoice choices =>
    unfold readChoices at hliteral
    rw [hlist] at hliteral
    by_cases hempty : Text.trim t = ""
    · rw [if_pos hempty] at hliteral
      cases hliteral
    · have htoken := isToken_trim hempty
      rw [if_neg hempty] at hliteral
      dsimp only at hliteral
      split at hliteral
      · cases hliteral
      · rw [List.mapM_cons, List.mapM_nil] at hliteral
        obtain ⟨v, hread, hvalues⟩ := bind_eq_ok.1 hliteral
        cases hvalues
        exact ⟨htoken, spells_ofChoice htoken (.inr hp) hread⟩
  all_goals exact hkind.elim

/-! ### Conditions of texts -/

variable {token : String} {w : Scalar}

/-- A token that spells a literal asks for it, and the stored literal is what it asks for unless the
token is a unique name that is spelled with capital letters. -/
theorem Spells.asks (htoken : IsToken token) (h : p.Spells token w) :
    ∃ φ, p.TokenAsks p.name .eq token φ ∧
      (φ (Reading.ofStored p.name w.stored) ↔
        (p.kind = .uniqueName → Text.lower token = token)) := by
  have htext (hkind : p.kind ≠ .uniqueName) :
      (Reading.ofStored p.name (.text token)).compares .eq p.name (.text token) ↔
        (p.kind = .uniqueName → Text.lower token = token) :=
    iff_of_true ⟨rfl, _, .text token, rfl, rfl⟩ fun heq => absurd heq hkind
  cases h with
  | text hkind =>
    refine ⟨_, .text (by rcases hkind with h | h <;> simp [Kind.IsText, h]) (by decide), htext ?_⟩
    rcases hkind with h | h <;> simp [h]
  | name hkind =>
    refine ⟨_, .text (.inr (.inl hkind)) (by decide), ?_⟩
    constructor
    · rintro ⟨-, v, hdenotes, -, heq⟩ -
      cases hdenotes with
      | text => exact Scalar.text.inj heq
      | instant => cases heq
    · intro hlower
      exact ⟨rfl, _, .text token, rfl, congrArg Scalar.text (hlower hkind)⟩
  | choice hkind hchoice =>
    refine ⟨_, .choice hkind hchoice, htext ?_⟩
    rcases hkind with h | h <;> simp [h]
  | integer hkind hread =>
    refine ⟨_, .integer hkind hread, iff_of_true ?_ (by simp [hkind])⟩
    exact ⟨rfl, _, .int (readInt64?_intText hread), Int.compare_eq_eq.2 rfl⟩
  | boolean hkind hread =>
    refine ⟨_, .boolean hkind hread, iff_of_true ?_ (by simp [hkind])⟩
    exact ⟨rfl, _, .bool _, rfl, rfl⟩
  | @instant t hkind hread =>
    obtain ⟨hread?, -, hmax⟩ := readInstant_ok hread
    rw [Scalar.stored, Reading.ofStored_instant]
    have hlower : p.kind = .uniqueName → Text.lower token = token := fun heq => by
      rw [hkind] at heq
      cases heq
    cases hyear : isYear token.toList with
    | false =>
      refine ⟨_, .instant hkind hyear hread?, iff_of_true ?_ hlower⟩
      exact ⟨rfl, _, _, rfl, (read?_canonical_of_readInstant hread).2, Instant.order_self _⟩
    | true =>
      -- a year asks for all its days, and it spells the first of them
      have htrim : Text.trimChars token.toList = token.toList := by
        simpa [Text.trim] using congrArg String.toList htoken.1
      simp only [Instant.read?, htrim, hyear, if_true, Option.some.injEq] at hread?
      subst hread?
      rw [Instant.year_ofYear, maxYear] at hmax
      have hlast : digitsValue token.toList < 9999 := by omega
      refine ⟨_, .year hkind hyear rfl (Nat.ne_of_lt hlast) .eq, iff_of_true ?_ hlower⟩
      rw [YearAsks.ofDate_iff hlast .eq, Instant.year_whole, Instant.year_ofYear]
      exact Int.compare_eq_eq.2 rfl

/-! ### Conditions of fields -/

theorem Kind.IsSpelled.uses (h : p.kind.IsSpelled) : p.Uses none .eq := by
  refine .default (by simp) ?_
  rw [Predicate.operators]
  cases hkind : p.kind <;> rw [hkind] at h
  case uid | geo | relationship => exact h.elim
  all_goals rfl

theorem Kind.IsSpelled.queryName (h : p.kind.IsSpelled) : p.queryName = p.name := by
  have hrelationship : p.relationship? = none := by
    rw [relationship?]
    split
    · rename_i hkind
      rw [hkind] at h
      exact h.elim
    · rfl
  rw [Predicate.queryName, direction?, hrelationship]
  rfl

/-- The condition on a field without aliases that one text makes is the one on its name. -/
theorem condition?_single {asked : Option Connector} (haliases : p.aliases = [])
    (hkind : p.kind.IsSpelled) : p.condition? [t] none asked = p.valueCondition? p.name .eq t := by
  have hoperator : p.operatorFor? none = some .eq := operatorFor?_eq_some_iff.2 hkind.uses
  have hname : p.nameCondition? .eq (p.connectorFor asked) [t] p.name =
      p.valueCondition? p.name .eq t := by
    rw [nameCondition?, if_neg (by decide)]
    cases p.connectorFor asked <;> cases h : p.valueCondition? p.name .eq t <;>
      simp [h, Filter.join?, Filter.allOf?, Filter.anyOf?]
  rw [condition?, hoperator, haliases, hkind.queryName]
  cases h : p.valueCondition? p.name .eq t <;> simp [hname, h, Filter.anyOf?]

/-- A text that is accepted as one value makes a condition. It holds of the value as it is stored,
unless the text is a unique name that is spelled with capital letters. -/
theorem condition?_of_spells (hkind : p.kind.IsSpelled) (haliases : p.aliases = [])
    (htoken : IsToken (Text.trim t)) (h : p.Spells (Text.trim t) w) :
    (∃ f, p.condition? [t] none none = some f ∧ f.Holds (Reading.ofStored p.name w.stored)) ↔
      (p.kind = .uniqueName → Text.lower (Text.trim t) = Text.trim t) := by
  obtain ⟨φ, hasks, hholds⟩ := h.asks htoken
  have hop : .eq ∈ p.operators := hkind.uses.mem_operators
  obtain ⟨f, hf, rfl⟩ := (asks_iff hop (by decide)).1 ⟨htoken.2, hasks⟩
  rw [condition?_single haliases hkind, ← hholds]
  constructor
  · rintro ⟨g, hg, hr⟩
    exact Option.some.inj (hg.symm.trans hf) ▸ hr
  · exact fun hr => ⟨f, hf, hr⟩

end Predicate

/-! ### Conditions of facets -/

open Predicate

theorem ungrouped_eq_self {s : String} (h : '_' ∉ s.toList ∧ ' ' ∉ s.toList) : ungrouped s = s := by
  have hall : s.toList.filter (fun c => c != '_' && c != ' ') = s.toList := by
    refine List.filter_eq_self.2 fun c hc => ?_
    rw [Bool.and_eq_true, bne_iff_ne, bne_iff_ne]
    exact ⟨fun heq => h.1 (heq ▸ hc), fun heq => h.2 (heq ▸ hc)⟩
  rw [ungrouped, hall, String.ofList_toList]

namespace Facet

variable {f : Facet} {parent t token key : String} {w : Scalar}

/-- A token is a whole number whose digits are grouped. -/
def IsGrouped (f : Facet) (token : String) : Prop :=
  f.kind = .integer ∧ ('_' ∈ token.toList ∨ ' ' ∈ token.toList)

/-- A facet is read from the trimmed text. -/
theorem read_of_validate (h : f.validate parent (.string t) = .ok w) :
    f.kind.read (parent ++ "|" ++ f.name) (Text.trim t) = .ok w := by
  obtain ⟨_, hsingle, h⟩ := bind_eq_ok.1 h
  rw [singleToken_text] at hsingle
  cases hsingle
  by_cases hempty : Text.trim t = ""
  · rw [if_pos hempty] at h
    cases h
  · rwa [if_neg hempty] at h

/-- What a token is read as is what it is searched for as, unless its digits are grouped. -/
theorem arg?_of_read (h : f.kind.read key token = .ok w) :
    (∃ arg, f.arg? token = some arg ∧ arg.Denotes w.stored) ↔ ¬ f.IsGrouped token := by
  have hother (hkind : f.kind ≠ .integer) (hdenotes : ∃ arg, f.arg? token = some arg ∧
      arg.Denotes w.stored) : (∃ arg, f.arg? token = some arg ∧ arg.Denotes w.stored) ↔
      ¬ f.IsGrouped token :=
    iff_of_true hdenotes fun hgrouped => hkind hgrouped.1
  unfold FacetKind.read at h
  cases hkind : f.kind <;> simp only [hkind] at h
  case string =>
    cases h
    exact hother (by simp [hkind]) ⟨_, by rw [arg?, hkind], .text token⟩
  case integer =>
    split at h
    · rename_i n hn
      cases h
      constructor
      · rintro ⟨arg, harg, -⟩ ⟨-, hgroups⟩
        rw [arg?, hkind] at harg
        obtain ⟨m, hm, -⟩ := Option.map_eq_some_iff.1 harg
        rcases hgroups with hc | hc
        · exact absurd (isDigit_or_sign_of_readInt? hm hc) (by decide)
        · exact absurd (isDigit_or_sign_of_readInt? hm hc) (by decide)
      · intro hplain
        have hself : ungrouped token = token :=
          ungrouped_eq_self (not_or.1 fun hgroups => hplain ⟨hkind, hgroups⟩)
        rw [hself] at hn
        exact ⟨.number (intText n), by rw [arg?, hkind, hn]; rfl, .int (readInt64?_intText hn)⟩
    · cases h
  case float =>
    split at h
    · rename_i d hd
      cases h
      exact hother (by simp [hkind])
        ⟨.number d.plainText, by rw [arg?, hkind, hd]; rfl, .float (readFinite?_plainText hd)⟩
    · cases h
  case dateTime =>
    obtain ⟨u, hu, rfl⟩ := map_eq_ok.1 h
    exact hother (by simp [hkind]) ⟨.text u.canonical,
      by rw [arg?, hkind, (readInstant_ok hu).1]; rfl,
      .instant (read?_canonical_of_readInstant hu).2⟩
  case boolean =>
    obtain ⟨b, hb, rfl⟩ := map_eq_ok.1 h
    have hname : readBool f.name token = .ok b := readBool_eq_ok_of_eq_ok f.name hb
    exact hother (by simp [hkind])
      ⟨.number (Scalar.boolText b), by rw [arg?, hkind, hname], .bool b⟩
  case choice choices =>
    obtain ⟨choice, hchoice, rfl⟩ := map_eq_ok.1 h
    unfold Choices.read at hchoice
    split at hchoice
    · rename_i hhas
      cases hchoice
      exact hother (by simp [hkind]) ⟨_, by rw [arg?, hkind]; exact if_pos hhas, .text _⟩
    · cases hchoice

/-- A text that is accepted as the value of a facet makes the condition that the facet has this
value, as it is stored, unless its digits are grouped. -/
theorem condition?_of_validate (h : f.validate parent (.string t) = .ok w) :
    (∃ arg, f.condition? t none = some (.compare .eq f.name arg) ∧ arg.Denotes w.stored ∧
      (arg.Denotes w ↔ w.stored = w)) ↔ ¬ f.IsGrouped (Text.trim t) := by
  rw [← arg?_of_read (read_of_validate h), condition?]
  constructor
  · rintro ⟨arg, hcondition, hdenotes, -⟩
    obtain ⟨_, harg, heq⟩ := Option.map_eq_some_iff.1 hcondition
    cases heq
    exact ⟨arg, harg, hdenotes⟩
  · rintro ⟨arg, harg, hdenotes⟩
    exact ⟨arg, by rw [harg]; rfl, hdenotes, hdenotes.stored_iff⟩

end Facet

/-! ### Searching by a spelling -/

/-- A text that is accepted as the value of a facet is read as that value where the facet is
searched for, exactly if it is no whole number whose digits are grouped. A text that is accepted as
one value of a field makes a condition that holds of the stored value, exactly if it is no unique
name that is spelled with capital letters. -/
theorem spelling_searches_iff (f : Facet) (p : Predicate) (parent t : String) :
    (∀ w : Scalar, f.validate parent (.string t) = .ok w →
      ((∃ arg, f.condition? t none = some (.compare .eq f.name arg) ∧ arg.Denotes w.stored ∧
        (arg.Denotes w ↔ w.stored = w)) ↔ ¬ f.IsGrouped (Text.trim t))) ∧
    (p.kind.IsSpelled → p.aliases = [] → ',' ∉ t.toList → ∀ (v : Operand) (supply supply' : Supply),
      p.validate (.string t) supply = .ok ([v], supply') →
        ∃ w, v = .literal w ∧
          ((∃ g, p.condition? [t] none none = some g ∧
            g.Holds (Reading.ofStored p.name w.stored)) ↔
              (p.kind = .uniqueName → Text.lower (Text.trim t) = Text.trim t))) := by
  refine ⟨fun w h => f.condition?_of_validate h, ?_⟩
  intro hkind haliases hcomma v supply supply' h
  obtain ⟨w, rfl, htoken, hspells⟩ := spells_of_validate hkind hcomma h
  exact ⟨w, rfl, condition?_of_spells hkind haliases htoken hspells⟩

/-- How many people a source reaches. -/
def countFacet : Facet :=
  { name := "count", kind := .integer }

/-- A number without groups and a name in lower case are searched for by their spelling. -/
theorem spelling_searches_iff_acme :
    (∃ arg, countFacet.condition? " 12000" none = some (.compare .eq "count" arg) ∧
      arg.Denotes (.int 12000) ∧ (arg.Denotes (.int 12000) ↔ Scalar.int 12000 = .int 12000)) ∧
    ∃ f, (Predicate.uniqueName "unique_name").condition? ["acme "] none none = some f ∧
      f.Holds (Reading.ofStored "unique_name" (.text "acme")) := by
  have hcount : countFacet.validate "audience_size" (.string " 12000") = .ok (.int 12000) := by
    decide +kernel
  have hplain : ¬ countFacet.IsGrouped (Text.trim " 12000") := fun hgrouped =>
    absurd hgrouped.2 (by decide +kernel)
  have hname : (Predicate.uniqueName "unique_name").validate (.string "acme ") .counting =
      .ok ([.literal (.text "acme")], .counting) := rfl
  have hkind : (Predicate.uniqueName "unique_name").kind.IsSpelled := trivial
  refine ⟨((spelling_searches_iff countFacet (.uniqueName "unique_name") _ _).1 _ hcount).2
    hplain, ?_⟩
  obtain ⟨w, hw, hiff⟩ := (spelling_searches_iff countFacet (.uniqueName "unique_name") "" _).2
    hkind rfl (by decide) _ _ _ hname
  cases hw
  exact hiff.2 fun _ => by decide +kernel

/-- Neither a number with groups nor a name in capital letters is searched for by its spelling. -/
theorem spelling_lost :
    (countFacet.validate "audience_size" (.string "12 000") = .ok (.int 12000) ∧
      countFacet.condition? "12 000" none = none) ∧
    (Predicate.uniqueName "unique_name").validate (.string "ACME") .counting =
        .ok ([.literal (.text "acme")], .counting) ∧
      ¬ ∃ f, (Predicate.uniqueName "unique_name").condition? ["ACME"] none none = some f ∧
        f.Holds (Reading.ofStored "unique_name" (.text "acme")) := by
  refine ⟨⟨by decide +kernel, rfl⟩, rfl, fun hfound => ?_⟩
  have hkind : (Predicate.uniqueName "unique_name").kind.IsSpelled := trivial
  have htoken : Predicate.IsToken (Text.trim "ACME") := by decide +kernel
  have hlower : Text.lower (Text.trim "ACME") = "acme" := by decide +kernel
  have hspells : (Predicate.uniqueName "unique_name").Spells (Text.trim "ACME") (.text "acme") :=
    hlower ▸ .name rfl
  have hsame := (Predicate.condition?_of_spells hkind rfl htoken hspells).1 hfound rfl
  exact absurd hsame (by decide +kernel)

end PressRegister
