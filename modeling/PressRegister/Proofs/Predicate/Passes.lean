import PressRegister.Proofs.Predicate.RoundTrip

/-!
# Passes through raw input

Operands that were read are serialized and read again. One such pass leaves out the fractions of
seconds, the labels of new nodes and, in a list, the operands that are equal to an earlier one.
Nothing that it leaves out is there any more for the next pass: operands without fractions and
labels stay what they are, and two operands that are told apart stay apart. So all passes after
the first one change nothing.

## Main definitions

* `Operand.withoutFraction`: an operand without the fraction of a second.
* `Predicate.kept`: the operands that a pass leaves.
* `Predicate.normal`: the operands as one pass leaves them.
* `Predicate.passes`: a number of passes.

## Main results

* `Predicate.pass_normal`: a pass does not change what a pass has left.
* `Predicate.pass_normalises`: what one pass and all further ones do.
-/

namespace PressRegister

open Calendar

namespace Operand

/-- An operand without the fraction of a second, if it is an instant. -/
def withoutFraction : Operand → Operand
  | .literal (.instant t) => .literal (.instant t.whole)
  | v => v

/-- Whether an operand is an instant. -/
def isInstant : Operand → Bool
  | .literal (.instant _) => true
  | _ => false

@[simp]
theorem reread_reread (v : Operand) : v.reread.reread = v.reread := by
  have hwhole : ∀ t : Instant, t.whole.whole = t.whole := fun t =>
    Instant.whole_eq_self_iff.2 (by simp [Instant.whole])
  cases v with
  | literal s =>
    cases s with
    | instant t => rw [reread, reread, hwhole]
    | _ => rfl
  | _ => rfl

/-- The label that a new node loses does not count. -/
theorem reread_beq_withoutFraction {v : Operand} (h : (v == v) = true) :
    (v.reread == v.withoutFraction) = true := by
  cases v with
  | new b => exact beq_self_eq_true b.name
  | literal s =>
    cases s with
    | instant t => exact beq_self_eq_true t.whole
    | _ => exact h
  | _ => exact h

theorem map_reread_beq_map_withoutFraction {vs : List Operand} (h : ∀ v ∈ vs, (v == v) = true) :
    (vs.map reread == vs.map withoutFraction) = true := by
  induction vs with
  | nil => rfl
  | cons v vs ih =>
    obtain ⟨hv, hvs⟩ := List.forall_mem_cons.1 h
    rw [List.map_cons, List.map_cons, List.cons_beq_cons, reread_beq_withoutFraction hv, ih hvs]
    rfl

/-- Only instants may become equal when they are read back. -/
theorem reread_beq_reread {v w : Operand} (hv : v.isInstant = false) (hw : w.isInstant = false) :
    (v.reread == w.reread) = (v == w) := by
  have hsame : ∀ {v : Operand}, v.isInstant = false → (∃ b, v = .new b) ∨ v.reread = v := by
    intro v hv
    cases v with
    | new b => exact .inl ⟨b, rfl⟩
    | literal s =>
      cases s with
      | instant t => cases hv
      | _ => exact .inr rfl
    | _ => exact .inr rfl
  obtain ⟨b, rfl⟩ | hv := hsame hv
  · obtain ⟨b', rfl⟩ | hw := hsame hw
    · rfl
    · rw [hw]
      cases w <;> rfl
  · rw [hv]
    obtain ⟨b', rfl⟩ | hw := hsame hw
    · cases v <;> rfl
    · rw [hw]

end Operand

namespace Predicate

open Operand

variable {p : Predicate} {values : List Operand}

/-! ### Fields of one value -/

theorem readSingle_length_le {raw : Json} {read : String → Except Error Operand}
    (h : p.readSingle raw read = .ok values) : values.length ≤ 1 := by
  obtain rfl | ⟨token, v, -, -, rfl⟩ := readSingle_cases h
  · exact Nat.zero_le 1
  · exact Nat.le_refl 1

theorem validateLiteral_length_le {raw : Json} (hlist : p.isList = false)
    (h : p.validateLiteral raw = .ok values) : values.length ≤ 1 := by
  unfold validateLiteral at h
  cases hkind : p.kind <;> simp only [hkind] at h
  case listString => simp [isList, hkind] at hlist
  case multipleChoice choices => simp [isList, hkind] at hlist
  case boolean =>
    unfold readTruth at h
    split at h
    case h_4 => exact readSingle_length_le h
    all_goals
      cases h
      exact Nat.le_refl 1
  case geo =>
    obtain ⟨point, -, rfl⟩ := map_eq_ok.1 h
    cases point <;> simp
  case relationship rel =>
    cases h
    exact Nat.zero_le 1
  all_goals exact readSingle_length_le h

/-- A field that is no list is read as one operand at most. -/
theorem Reads.length_le (h : p.Reads values) (hlist : p.isList = false) : values.length ≤ 1 := by
  obtain ⟨raw, before, after, hvalidate⟩ := h
  obtain ⟨rel, items, hkind, hitems, heq⟩ | ⟨-, hvalues, -⟩ := validate_cases hvalidate
  · have hpairs := nodesOf_standsFor items before
    rw [heq] at hpairs
    have hsingle : rel.cardinality = .single := by
      cases hcardinality : rel.cardinality with
      | single => rfl
      | list => simp [isList, hkind, hcardinality] at hlist
    exact hpairs.length_eq ▸ (relationshipTokens_eq_ok.1 hitems).2.1 hsingle
  · exact validateLiteral_length_le hlist hvalues

/-- The operands of a list are no instants. -/
theorem Reads.isInstant_eq_false (h : p.Reads values) (hlist : p.isList = true) {v : Operand}
    (hv : v ∈ values) : v.isInstant = false := by
  have hadmits := h.admits hv
  unfold isList at hlist
  cases hkind : p.kind <;> simp only [hkind] at hadmits hlist
  case listString =>
    cases v with
    | literal s => cases s <;> first | rfl | cases hadmits
    | _ => cases hadmits
  case multipleChoice choices =>
    cases v with
    | literal s => cases s <;> first | rfl | cases hadmits
    | _ => cases hadmits
  case relationship rel =>
    cases v with
    | existing u => rfl
    | new b => rfl
    | _ => cases hadmits
  all_goals cases hlist

/-! ### Passes -/

/-- The operands that a pass leaves: in a list, those that are not equal to an earlier one. -/
def kept (p : Predicate) (values : List Operand) : List Operand :=
  if p.isList then distinct values else values

/-- Operands as one pass leaves them. -/
def normal (p : Predicate) (values : List Operand) : List Operand :=
  (p.kept values).map reread

/-- Operands are serialized, and what they are serialized as is read. -/
def pass (p : Predicate) (values : List Operand) (supply : Supply) :
    Except Error (List Operand × Supply) :=
  p.validate (p.serialize values) supply

/-- A number of passes, each over what the one before has left. -/
def passes (p : Predicate) : Nat → List Operand → Supply → Except Error (List Operand × Supply)
  | 0, values, supply => .ok (values, supply)
  | n + 1, values, supply => do
    let (values, supply) ← p.pass values supply
    p.passes n values supply

/-- A field of one operand has nothing that a pass could leave out. -/
theorem Reads.distinct_eq_kept (h : p.Reads values) : distinct values = p.kept values := by
  unfold kept
  split
  · rfl
  · rename_i hlist
    have hlength := h.length_le (by simpa using hlist)
    obtain _ | ⟨v, _ | ⟨w, rest⟩⟩ := values
    · rfl
    · rfl
    · simp at hlength

/-- Operands that a pass leaves are told apart also when they are read back. -/
theorem Reads.pairwise_normal (h : p.Reads values) :
    (p.normal values).Pairwise fun v w => w != v := by
  unfold normal
  rw [← h.distinct_eq_kept, List.pairwise_map]
  cases hlist : p.isList with
  | true =>
    have hinstant : ∀ v ∈ distinct values, v.isInstant = false := fun v hv =>
      h.isInstant_eq_false hlist ((distinct_sublist values).subset hv)
    refine (pairwise_distinct values).imp_of_mem fun {v w} hv hw hne => ?_
    rw [bne, reread_beq_reread (hinstant w hw) (hinstant v hv)]
    exact hne
  | false =>
    have hlength := Nat.le_trans (distinct_sublist values).length_le (h.length_le hlist)
    obtain hnil | ⟨v, hv⟩ : distinct values = [] ∨ ∃ v, distinct values = [v] := by
      rwa [Nat.le_one_iff_eq_zero_or_eq_one, List.length_eq_zero_iff, List.length_eq_one_iff]
        at hlength
    · rw [hnil]
      exact .nil
    · rw [hv]
      exact List.pairwise_singleton _ _

/-- A pass over operands that were read leaves the normal ones, whatever could be drawn. -/
theorem Reads.pass (h : p.Reads values) (supply : Supply) :
    p.pass values supply = .ok (p.normal values, supply) := by
  obtain ⟨raw, before, after, hvalidate⟩ := id h
  rw [Predicate.pass, (validate_serialize hvalidate supply).1, normal, h.distinct_eq_kept]

/-- A pass does not change what a pass has left. -/
theorem pass_normal (h : p.Reads values) (supply : Supply) :
    p.pass (p.normal values) supply = .ok (p.normal values, supply) := by
  have hnormal : p.Reads (p.normal values) := ⟨_, supply, supply, h.pass supply⟩
  have hsame : (p.normal values).map reread = p.normal values := by
    rw [normal, List.map_map]
    exact List.map_congr_left fun v _ => reread_reread v
  rw [hnormal.pass, normal, ← hnormal.distinct_eq_kept, distinct_eq_self h.pairwise_normal, hsame]

/-- One pass leaves operands without their fractions of seconds and, in a list, without those that
are equal to an earlier one, and all further passes leave them as they are. Nothing is drawn. -/
theorem pass_normalises {raw : Json} {before after : Supply}
    (h : p.validate raw before = .ok (values, after)) :
    (∀ supply, p.validate (p.serialize values) supply = .ok (p.normal values, supply)) ∧
      (p.normal values == (p.kept values).map withoutFraction) = true ∧
      ∀ n supply, p.passes n (p.normal values) supply = .ok (p.normal values, supply) := by
  have hreads : p.Reads values := ⟨raw, before, after, h⟩
  refine ⟨hreads.pass, ?_, fun n => ?_⟩
  · refine map_reread_beq_map_withoutFraction fun v hv => ?_
    rw [← hreads.distinct_eq_kept] at hv
    exact (validate_serialize h before).2 v ((distinct_sublist values).subset hv)
  · induction n with
    | zero => exact fun supply => rfl
    | succ n ih =>
      intro supply
      rw [passes, pass_normal hreads]
      exact ih supply

/-- Two spellings of one identifier and two of one label are read back once, and so is a label
without letters, for which a name was drawn. -/
theorem pass_normalises_owns : ∃ values after,
    owns.validate (.ofStrings ["0x1A", "Styria Media", "0x1a", "?!", "STYRIA MEDIA"]) .counting =
      .ok (values, after) ∧ after.used = 1 ∧ values.length = 5 ∧ (owns.kept values).length = 3 ∧
    (∀ supply, owns.validate (owns.serialize values) supply = .ok (owns.normal values, supply)) ∧
    (owns.normal values == (owns.kept values).map withoutFraction) = true ∧
    ∀ n supply, owns.passes n (owns.normal values) supply = .ok (owns.normal values, supply) := by
  have hread : (owns.validate (.ofStrings ["0x1A", "Styria Media", "0x1a", "?!", "STYRIA MEDIA"])
      .counting).toOption.any (fun (values, after) => after.used == 1 && values.length == 5 &&
        (owns.kept values).length == 3) = true := by
    decide +kernel
  obtain ⟨⟨values, after⟩, hread, hall⟩ := (Option.any_eq_true _ _).1 hread
  simp only [Bool.and_eq_true, beq_iff_eq] at hall
  obtain ⟨⟨hused, hlength⟩, hkept⟩ := hall
  have h := toOption_eq_some.1 hread
  exact ⟨values, after, h, hused, hlength, hkept, pass_normalises h⟩

end Predicate

end PressRegister
