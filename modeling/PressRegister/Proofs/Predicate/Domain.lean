import Mathlib.Algebra.Order.Field.Rat
import Mathlib.Tactic.Positivity
import PressRegister.Proofs.Predicate.RoundTrip

/-!
# The domain of a predicate

Whatever shape raw input has, the operands that it is accepted as lie in the domain that the
predicate declares: they are of its kind and keep its bounds, choices and plausible years, and
there are as many of them as the predicate takes. Relationships lead to stored nodes and, where
labels are allowed, to new nodes with legible names.

## Main definitions

* `Number.Double.value?`, `Number.Double.Between`: doubles as numbers.
* `Predicate.Kind.Contains`: the operands in the domain of a kind of values.
* `Predicate.InDomain`: the lists of operands that a predicate takes.

## Main results

* `Predicate.validateLiteral_contains`, `Predicate.nodesOf_contains`: accepted operands are in
  the domain of their kind.
* `Predicate.validate_inDomain`: accepted input is in the domain of its predicate.
-/

namespace PressRegister

open Calendar Number

/-! ### Doubles as numbers -/

/-- The number that a finite double is. -/
def Number.Double.value? : Double → Option ℚ
  | .finite negative a => some ((if negative then -1 else 1) * (units a / 2 ^ 1074))
  | _ => none

/-- A double is a number between two others. -/
def Number.Double.Between (low high : ℚ) (d : Double) : Prop :=
  ∃ q, d.value? = some q ∧ low ≤ q ∧ q ≤ high

theorem Number.div_two_pow_le {n bound exponent : Nat} (h : n ≤ bound * 2 ^ exponent) :
    (0 : ℚ) ≤ n / 2 ^ exponent ∧ (n : ℚ) / 2 ^ exponent ≤ bound := by
  refine ⟨by positivity, ?_⟩
  rw [div_le_iff₀ (by positivity)]
  exact_mod_cast h

theorem Number.Double.between_of_isWithin {bound : Nat} {d : Double}
    (h : d.isWithin bound = true) : d.Between (-bound) bound := by
  cases d with
  | finite negative a =>
    have hunits : units a ≤ bound * 2 ^ 1074 := by
      rw [← Nat.shiftLeft_eq]
      exact of_decide_eq_true h
    obtain ⟨hlow, hhigh⟩ := div_two_pow_le hunits
    have hbound : (0 : ℚ) ≤ bound := Nat.cast_nonneg bound
    refine ⟨_, rfl, ?_⟩
    cases negative
    · rw [if_neg Bool.false_ne_true, one_mul]
      exact ⟨(neg_nonpos.2 hbound).trans hlow, hhigh⟩
    · rw [if_pos rfl, neg_one_mul]
      exact ⟨neg_le_neg hhigh, (neg_nonpos.2 hlow).trans hbound⟩
  | infinite => cases h
  | nan => cases h

namespace Predicate

/-! ### What the domain is -/

/-- The operands in the domain of a kind of values. -/
inductive Kind.Contains : Kind → Operand → Prop
  | uid (u : Uid) : Contains .uid (.existing u)
  | string {s : String} (h : IsToken s) : Contains .string (.literal (.text s))
  | uniqueName {s : String} (h : IsToken s) (hlower : Text.lower s = s) :
      Contains .uniqueName (.literal (.text s))
  | listString {s : String} (h : IsToken s) : Contains .listString (.literal (.text s))
  | integer {min max : Option Int} {n : Int} (hmin : ∀ low ∈ min, low ≤ n)
      (hmax : ∀ high ∈ max, n ≤ high) : Contains (.integer min max) (.literal (.int n))
  | boolean (b : Bool) : Contains .boolean (.literal (.bool b))
  | dateTime {t : Instant} (hlow : 1700 ≤ t.year) (hhigh : t.year ≤ 2100) :
      Contains .dateTime (.literal (.instant t))
  | geo {point : Point} (hlongitude : point.longitude.Between (-180) 180)
      (hlatitude : point.latitude.Between (-90) 90) : Contains .geo (.geo point)
  | singleChoice {choices : Choices} {s : String} (h : IsToken s) (hchoice : s ∈ choices.names) :
      Contains (.singleChoice choices) (.literal (.text s))
  | multipleChoice {choices : Choices} {s : String} (h : IsToken s)
      (hchoice : s ∈ choices.names) (hna : s ≠ "NA") :
      Contains (.multipleChoice choices) (.literal (.text s))
  | stored {rel : Relationship} (u : Uid) : Contains (.relationship rel) (.existing u)
  | label {rel : Relationship} {b : BlankNode} (hallowed : rel.allowNew = true)
      (hname : Text.IsGrouped b.name.toList) : Contains (.relationship rel) (.new b)

/-- The lists of operands that a predicate takes. -/
structure InDomain (p : Predicate) (values : List Operand) : Prop where
  contains : ∀ v ∈ values, p.kind.Contains v
  single : p.isList = false → values.length ≤ 1
  nodup : (p.kind = .listString ∨ ∃ choices, p.kind = .multipleChoice choices) → values.Nodup

/-! ### Tokens -/

variable {p : Predicate} {raw : Json} {values : List Operand} {v : Operand}

theorem contains_of_readUid {token : String} (h : p.readUid token = .ok v) :
    Kind.uid.Contains v := by
  unfold readUid at h
  split at h
  · cases h
    exact .uid _
  · cases h

theorem contains_of_readInteger {min max : Option Int} {token : String}
    (h : p.readInteger min max token = .ok v) : (Kind.integer min max).Contains v := by
  unfold readInteger at h
  split at h
  · cases h
  · rename_i n _
    split at h
    · cases h
    · rename_i hbounds
      cases h
      simp only [Bool.or_eq_true, not_or, Bool.not_eq_true, Option.any_eq_false_iff_get,
        decide_eq_false_iff_not, Int.not_lt] at hbounds
      refine .integer (fun low hlow => ?_) fun high hhigh => ?_
      · cases hlow
        exact hbounds.1 rfl
      · cases hhigh
        exact hbounds.2 rfl

theorem contains_of_readInstant {predicate token : String} {t : Instant}
    (h : readInstant predicate token = .ok t) : Kind.dateTime.Contains (.literal (.instant t)) :=
  .dateTime (readInstant_ok h).2.1 (readInstant_ok h).2.2

theorem contains_of_readPoint {predicate : String} {point : Point}
    (h : readPoint predicate raw = .ok (some point)) : Kind.geo.Contains (.geo point) := by
  unfold readPoint at h
  split at h
  · cases h
  · split at h
    · split at h
      · rename_i hwithin
        cases h
        obtain ⟨hlongitude, hlatitude⟩ := Bool.and_eq_true_iff.1 hwithin
        exact .geo (Double.between_of_isWithin hlongitude) (Double.between_of_isWithin hlatitude)
      · cases h
    · cases h

theorem mem_names_of_has {choices : Choices} {s : String} (h : choices.has s = true) :
    s ∈ choices.names := by
  obtain ⟨choice, hmem, heq⟩ := List.any_eq_true.1 h
  exact List.mem_map.2 ⟨choice, hmem, beq_iff_eq.1 heq⟩

/-- A token that is read among choices is one of them. -/
theorem choice_of_read {choices : Choices} {token : String} (htoken : IsToken token)
    (h : (choices.read p.name token).map Operand.ofText = .ok v) :
    v = .literal (.text token) ∧ token ∈ choices.names := by
  refine ⟨(eq_ofText_of_read h).trans htoken.ofText, ?_⟩
  obtain ⟨choice, hchoice, -⟩ := map_eq_ok.1 h
  unfold Choices.read at hchoice
  split at hchoice
  · rename_i hhas
    exact mem_names_of_has hhas
  · cases hchoice

/-! ### Fields -/

/-- Every operand of a field that is no relationship is in the domain of its kind. -/
theorem validateLiteral_contains (h : p.validateLiteral raw = .ok values) (hv : v ∈ values) :
    p.kind.Contains v := by
  -- the operand of a field of one token is what that token is read as
  have hsingle {read : String → Except Error Operand} (h : p.readSingle raw read = .ok values) :
      ∃ token, IsToken token ∧ read token = .ok v := by
    obtain rfl | ⟨token, w, htoken, hread, rfl⟩ := readSingle_cases h
    · cases hv
    · exact ⟨token, htoken, List.mem_singleton.1 hv ▸ hread⟩
  unfold validateLiteral at h
  cases hkind : p.kind <;> simp only [hkind] at h
  case uid =>
    obtain ⟨token, -, hread⟩ := hsingle h
    exact contains_of_readUid hread
  case string =>
    obtain ⟨token, htoken, hread⟩ := hsingle h
    rw [htoken.ofText] at hread
    cases hread
    exact .string htoken
  case uniqueName =>
    obtain ⟨token, htoken, hread⟩ := hsingle h
    rw [htoken.lower.ofText] at hread
    cases hread
    exact .uniqueName htoken.lower (Text.lower_lower token)
  case listString =>
    cases h
    obtain ⟨token, hmem, rfl⟩ := List.mem_map.1 hv
    have htoken : IsToken token := isToken_of_mem_withoutRepeats hmem
    rw [htoken.ofText]
    exact .listString htoken
  case integer min max =>
    obtain ⟨token, -, hread⟩ := hsingle h
    exact contains_of_readInteger hread
  case boolean =>
    unfold readTruth at h
    split at h
    case h_4 =>
      obtain ⟨token, -, hread⟩ := hsingle h
      obtain ⟨b, -, rfl⟩ := map_eq_ok.1 hread
      exact .boolean b
    all_goals
      cases h
      rw [List.mem_singleton.1 hv]
      exact .boolean _
  case dateTime =>
    obtain ⟨token, -, hread⟩ := hsingle h
    obtain ⟨t, ht, rfl⟩ := map_eq_ok.1 hread
    exact contains_of_readInstant ht
  case geo =>
    obtain ⟨point, hpoint, rfl⟩ := map_eq_ok.1 h
    cases point with
    | none => cases hv
    | some point =>
      rw [List.mem_singleton.1 hv]
      exact contains_of_readPoint hpoint
  case singleChoice choices =>
    obtain ⟨token, htoken, hread⟩ := hsingle h
    obtain ⟨rfl, hchoice⟩ := choice_of_read htoken hread
    exact .singleChoice htoken hchoice
  case multipleChoice choices =>
    simp only [readChoices] at h
    split at h
    · cases h
      cases hv
    · rename_i hna
      obtain ⟨token, hmem, hread⟩ := exists_of_mapM_eq_ok h hv
      have htoken : IsToken token := isToken_of_mem_withoutRepeats hmem
      obtain ⟨rfl, hchoice⟩ := choice_of_read htoken hread
      refine .multipleChoice htoken hchoice fun heq => hna ?_
      rw [List.contains_iff_mem, notApplicable, ← heq]
      exact hmem
  case relationship rel =>
    cases h
    cases hv

/-- The nodes of tokens are in the domain of the relationship that the tokens are read for. -/
theorem nodesOf_contains {rel : Relationship} {items : List String} {supply : Supply}
    (hitems : p.relationshipTokens rel raw = .ok items) (hv : v ∈ (nodesOf items supply).1) :
    (Kind.relationship rel).Contains v := by
  obtain ⟨token, htoken, hstands⟩ := exists_of_mem_nodesOf hv
  cases hstands with
  | stored => exact .stored _
  | label supply hlabel =>
    exact .label ((relationshipTokens_eq_ok.1 hitems).2.2 token htoken hlabel)
      (BlankNode.isSlugged_ofLabel token supply).isGrouped

/-- A field of one value is not given more of them. -/
theorem length_validateLiteral_le (hlist : p.isList = false)
    (h : p.validateLiteral raw = .ok values) : values.length ≤ 1 := by
  have hsingle {read : String → Except Error Operand} (h : p.readSingle raw read = .ok values) :
      values.length ≤ 1 := by
    obtain rfl | ⟨token, w, -, -, rfl⟩ := readSingle_cases h <;> simp
  unfold isList at hlist
  unfold validateLiteral at h
  cases hkind : p.kind <;> simp only [hkind] at h hlist
  case boolean =>
    unfold readTruth at h
    split at h
    case h_4 => exact hsingle h
    all_goals
      cases h
      exact Nat.le_refl 1
  case geo =>
    obtain ⟨point, -, rfl⟩ := map_eq_ok.1 h
    cases point <;> simp
  case listString => cases hlist
  case multipleChoice => cases hlist
  case relationship =>
    cases h
    exact Nat.zero_le 1
  all_goals exact hsingle h

/-- Tokens that stand once make literals that are told apart. -/
theorem nodup_map_ofText {items : List String} (hitems : ∀ s ∈ items, IsToken s)
    (hnodup : items.Nodup) : (items.map Operand.ofText).Nodup := by
  rw [List.map_congr_left fun s hs => (hitems s hs).ofText]
  exact List.pairwise_map.2 (hnodup.imp fun hne heq => hne (by simpa using heq))

/-- Texts and choices of which there may be several are told apart. -/
theorem nodup_validateLiteral
    (hkind : p.kind = .listString ∨ ∃ choices, p.kind = .multipleChoice choices)
    (h : p.validateLiteral raw = .ok values) : values.Nodup := by
  have htokens : ((withoutRepeats (tokens true raw)).map Operand.ofText).Nodup :=
    nodup_map_ofText (fun s hs => isToken_of_mem_withoutRepeats hs) (nodup_withoutRepeats _)
  unfold validateLiteral at h
  rcases hkind with hkind | ⟨choices, hkind⟩ <;> simp only [hkind] at h
  · cases h
    exact htokens
  · simp only [readChoices] at h
    split at h
    · cases h
      exact .nil
    · obtain rfl := eq_map_of_mapM_eq_ok (fun _ _ => eq_ofText_of_read) h
      exact htokens

/-- Accepted input is in the domain of its predicate. -/
theorem validate_inDomain {supply supply' : Supply}
    (h : p.validate raw supply = .ok (values, supply')) : p.InDomain values := by
  obtain ⟨rel, items, hkind, hitems, heq⟩ | ⟨-, hvalues, -⟩ := validate_cases h
  · obtain rfl : (nodesOf items supply).1 = values := congrArg Prod.fst heq
    refine ⟨fun v hv => hkind ▸ nodesOf_contains hitems hv, fun hlist => ?_, fun hseveral => ?_⟩
    · have hcardinality : rel.cardinality = .single := by
        cases hcard : rel.cardinality with
        | single => rfl
        | list => simp [isList, hkind, hcard] at hlist
      rw [← (nodesOf_standsFor items supply).length_eq]
      exact (relationshipTokens_eq_ok.1 hitems).2.1 hcardinality
    · rcases hseveral with hother | ⟨choices, hother⟩ <;> simp [hkind] at hother
  · exact ⟨fun v hv => validateLiteral_contains hvalues hv,
      fun hlist => length_validateLiteral_le hlist hvalues,
      fun hseveral => nodup_validateLiteral hseveral hvalues⟩

/-- A stored organization and one that is given by its label are in the domain of a relationship
that allows labels. -/
theorem validate_inDomain_owns :
    ∃ values, owns.validate (.ofStrings ["0x10", " Styria  Media ", "0x10"]) .counting =
        .ok (values, .counting) ∧
      values == [.existing (.ofNat 16), .new ⟨"styria_media", none⟩] ∧ owns.InDomain values := by
  have h : owns.validate (.ofStrings ["0x10", " Styria  Media ", "0x10"]) .counting =
      .ok ([.existing (.ofNat 16), .new ⟨"styria_media", some "Styria  Media"⟩], .counting) := rfl
  exact ⟨_, h, rfl, validate_inDomain h⟩

end Predicate

end PressRegister
