import PressRegister.Proofs.Naming.Labels
import PressRegister.Proofs.Predicate.RoundTrip

/-!
# Lists given as one text

A field of several values takes a list of texts, or one text that is cut at its commas. Texts
without commas have the same tokens either way, and the tokens are all that such a field reads: its
values and their order, and the error if there is one, are the same.

## Main results

* `Predicate.tokens_joined`: the tokens of texts that are joined by commas.
* `Predicate.validate_congr`: a field of several values reads nothing but tokens.
* `Predicate.exists_validate`: what is read does not depend on the supply if no label needs a draw.
* `Predicate.validate_joined`: a list and its texts joined by commas are the same input.
-/

namespace PressRegister

theorem Text.trim_of_isAllBlank {s : String} (h : isAllBlank s = true) : trim s = "" := by
  have hstart : s.toList.dropWhile isBlank = [] :=
    List.dropWhile_eq_nil_iff.2 (List.all_eq_true.1 h)
  rw [trim, trimChars, trimStart, hstart]
  rfl

namespace Predicate

variable {p : Predicate} {texts : List String} {raw raw' : Json}

/-! ### Tokens -/

/-- A text is cut at the commas that join it. -/
theorem commaParts_intercalate (hne : texts ≠ []) (h : ∀ t ∈ texts, ',' ∉ t.toList) :
    commaParts (",".intercalate texts) = texts := by
  have hchars : (",".intercalate texts).toList = [','].intercalate (texts.map String.toList) := by
    simp
  have hsplit : ([','].intercalate (texts.map String.toList)).splitOn ',' =
      texts.map String.toList := by
    refine List.splitOn_intercalate ',' (fun cs hcs => ?_) (by simpa using hne)
    obtain ⟨t, ht, rfl⟩ := List.mem_map.1 hcs
    exact h t ht
  rw [commaParts, hchars, hsplit, List.map_map]
  refine (List.map_congr_left fun t _ => ?_).trans (List.map_id _)
  exact String.ofList_toList

/-- Texts without commas have the same tokens joined and listed. No text at all is joined to an
empty one, which is no token. -/
theorem tokens_joined (h : ∀ t ∈ texts, ',' ∉ t.toList) :
    tokens true (.string (",".intercalate texts)) = tokens true (.ofStrings texts) := by
  rw [tokens_ofStrings]
  by_cases hne : texts = []
  · subst hne
    rfl
  · rw [tokens, if_pos rfl, commaParts_intercalate hne h]

theorem slug_ne_empty_of_mem_tokens {split : Bool}
    (h : ∀ t ∈ texts, Text.isAllBlank t = false → Text.slug t ≠ "") {token : String}
    (htoken : token ∈ tokens split (.ofStrings texts)) : Text.slug token ≠ "" := by
  rw [tokens_ofStrings, trimmedTokens, List.mem_filter, List.mem_map] at htoken
  obtain ⟨⟨t, ht, rfl⟩, hne⟩ := htoken
  rw [Text.slug_trim]
  refine h t ht (Bool.eq_false_iff.2 fun hblank => ?_)
  rw [Text.trim_of_isAllBlank hblank] at hne
  exact absurd hne (by decide)

/-! ### Fields of several values -/

/-- A field of several values reads nothing but the tokens of raw input. -/
theorem validate_congr (hlist : p.isList = true) (h : tokens true raw = tokens true raw')
    (supply : Supply) : p.validate raw supply = p.validate raw' supply := by
  unfold isList at hlist
  unfold validate validateLiteral
  cases hkind : p.kind <;> simp only [hkind] at hlist ⊢
  case listString => rw [h]
  case multipleChoice choices => rw [readChoices, readChoices, h]
  case relationship rel => rw [relationshipTokens, relationshipTokens, hlist, h]
  all_goals cases hlist

/-- The nodes of tokens that leave slugs do not depend on the supply. -/
theorem nodesOf_of_slugs {items : List String} (h : ∀ token ∈ items, Text.slug token ≠ "")
    (supply supply' : Supply) : nodesOf items supply = ((nodesOf items supply').1, supply) := by
  induction items generalizing supply' with
  | nil => rfl
  | cons token rest ih =>
    obtain ⟨htoken, hrest⟩ := List.forall_mem_cons.1 h
    unfold nodesOf
    cases Uid.parse? token with
    | some u => rw [ih hrest supply']
    | none =>
      rw [BlankNode.ofLabel_of_slug htoken supply supply']
      simp only [ih hrest (BlankNode.ofLabel token supply').2]

/-- What is read does not depend on the supply if the tokens of relationships leave slugs. -/
theorem exists_validate
    (h : p.isRelationship = true → ∀ token ∈ tokens p.isList raw, Text.slug token ≠ "") :
    ∃ result : Except Error (List Operand), ∀ supply,
      p.validate raw supply = result.map fun values => (values, supply) := by
  cases hkind : p.kind with
  | relationship rel =>
    have hslugs : ∀ token ∈ tokens (rel.cardinality == .list) raw, Text.slug token ≠ "" := by
      simpa [isRelationship, relationship?, isList, hkind] using h
    have hvalidate : ∀ supply, p.validate raw supply =
        (p.relationshipTokens rel raw).map fun items => nodesOf items supply := fun _ => by
      simp only [validate, hkind]
    simp only [hvalidate]
    cases hitems : p.relationshipTokens rel raw with
    | error e => exact ⟨.error e, fun _ => rfl⟩
    | ok items =>
      have hitem : ∀ token ∈ items, Text.slug token ≠ "" := by
        intro token htoken
        rw [(relationshipTokens_eq_ok.1 hitems).1, mem_withoutRepeats] at htoken
        exact hslugs token htoken
      exact ⟨.ok (nodesOf items .counting).1, fun supply =>
        congrArg Except.ok (nodesOf_of_slugs hitem supply .counting)⟩
  | _ => exact ⟨p.validateLiteral raw, fun _ => by simp only [validate, hkind]⟩

/-- Texts without commas are the same input of a field of several values, whether they are joined
by commas or listed: the values, in their order, or the error are the same. A relationship draws a
name for a label that leaves no slug, so its labels are to leave one. -/
theorem validate_joined (hlist : p.isList = true) (hcomma : ∀ t ∈ texts, ',' ∉ t.toList)
    (hslug : p.isRelationship = true →
      ∀ t ∈ texts, Text.isAllBlank t = false → Text.slug t ≠ "") :
    ∃ result : Except Error (List Operand),
      (∀ supply, p.validate (.string (",".intercalate texts)) supply =
        result.map fun values => (values, supply)) ∧
      ∀ supply, p.validate (.ofStrings texts) supply =
        result.map fun values => (values, supply) := by
  obtain ⟨result, hresult⟩ : ∃ result : Except Error (List Operand), ∀ supply,
      p.validate (.ofStrings texts) supply = result.map fun values => (values, supply) :=
    exists_validate fun hrel _ htoken => slug_ne_empty_of_mem_tokens (hslug hrel) htoken
  refine ⟨result, fun supply => ?_, hresult⟩
  rw [validate_congr hlist (tokens_joined hcomma), hresult]

/-- The organizations that an organization owns, one of them twice and one of them new. -/
theorem validate_joined_owns :
    owns.isList = true ∧ (∀ t ∈ ["0x10", " Styria  Media", " ", "0x10 "], ',' ∉ t.toList) ∧
      (∀ t ∈ ["0x10", " Styria  Media", " ", "0x10 "],
        Text.isAllBlank t = false → Text.slug t ≠ "") ∧
      ∃ values, values == [.existing (.ofNat 16), .new ⟨"styria_media", none⟩] ∧
        (∀ supply, owns.validate (.string "0x10, Styria  Media, ,0x10 ") supply =
          .ok (values, supply)) ∧
        ∀ supply, owns.validate (.ofStrings ["0x10", " Styria  Media", " ", "0x10 "]) supply =
          .ok (values, supply) := by
  have hlist : owns.isList = true := rfl
  have hcomma : ∀ t ∈ ["0x10", " Styria  Media", " ", "0x10 "], ',' ∉ t.toList := by decide
  have hslug : ∀ t ∈ ["0x10", " Styria  Media", " ", "0x10 "],
      Text.isAllBlank t = false → Text.slug t ≠ "" := by decide +kernel
  refine ⟨hlist, hcomma, hslug, ?_⟩
  obtain ⟨result, hjoined, hlisted⟩ := validate_joined hlist hcomma fun _ => hslug
  have hread : owns.validate (.ofStrings ["0x10", " Styria  Media", " ", "0x10 "]) .counting =
      .ok ([.existing (.ofNat 16), .new ⟨"styria_media", some "Styria  Media"⟩], .counting) := rfl
  rw [hlisted] at hread
  obtain ⟨values, hvalues, heq⟩ := map_eq_ok.1 hread
  obtain ⟨rfl, -⟩ := Prod.mk.inj heq
  rw [hvalues] at hjoined hlisted
  exact ⟨_, rfl, hjoined, hlisted⟩

end Predicate

end PressRegister
