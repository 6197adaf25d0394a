import Mathlib.Data.List.Forall2
import PressRegister.Predicate.Validation
import PressRegister.Proofs.Consult
import PressRegister.Proofs.Text.Slug

/-!
# What validation gives

The operands that raw input stands for are of the kind that the predicate
declares. In particular all of them can be stored, and only relationships lead to
nodes that are yet to be created. Such nodes are named after their labels.

## Main definitions

* `Predicate.IsToken`: a text can be a token.
* `Operand.isNode`: an operand is a single node.
* `Predicate.Kind.admits`: an operand is of a kind.
* `Predicate.StandsFor`: what a token of a relationship stands for.
* `Predicate.Reads`: operands are what some raw input stands for.

## Main results

* `Predicate.relationshipTokens_eq_ok`: the tokens of a relationship.
* `Predicate.validate_cases`: how a field is read.
* `Predicate.validate_admits`: validated operands are of the kind of their predicate.
* `Predicate.Reads.isLabelled`: validated new nodes are named after their labels.
* `Predicate.validate_reaches`: all that validation does to the supply is to draw from it.
-/

namespace PressRegister

/-- Whether an operand is a single node. -/
def Operand.isNode : Operand → Bool
  | .existing _ | .new _ => true
  | _ => false

namespace Predicate

/-- Whether an operand is of a kind of values. -/
def Kind.admits : Kind → Operand → Bool
  | .uid, .existing _ => true
  | .string, .literal (.text _) => true
  | .uniqueName, .literal (.text _) => true
  | .listString, .literal (.text _) => true
  | .integer _ _, .literal (.int _) => true
  | .boolean, .literal (.bool _) => true
  | .dateTime, .literal (.instant _) => true
  | .geo, .geo _ => true
  | .singleChoice _, .literal (.text _) => true
  | .multipleChoice _, .literal (.text _) => true
  | .relationship _, v => v.isNode
  | _, _ => false

/-! ### Tokens -/

/-- A text can be a token: it has no blanks at its ends, and it is not empty. -/
def IsToken (s : String) : Prop :=
  Text.trim s = s ∧ s ≠ ""

instance : DecidablePred IsToken :=
  fun _ => inferInstanceAs (Decidable (_ ∧ _))

theorem isToken_of_mem_tokens {split : Bool} {raw : Json} {token : String}
    (h : token ∈ tokens split raw) : IsToken token := by
  have htrimmed : ∀ items, token ∈ trimmedTokens items → IsToken token := by
    intro items hitems
    obtain ⟨hmem, hne⟩ := List.mem_filter.1 hitems
    obtain ⟨item, -, rfl⟩ := List.mem_map.1 hmem
    exact ⟨Text.trim_trim item, by simpa using hne⟩
  unfold tokens at h
  split at h <;> exact htrimmed _ h

/-- What can be a token is one, if it is not cut. -/
theorem trimmedTokens_eq_self {items : List String} (h : ∀ s ∈ items, IsToken s) :
    trimmedTokens items = items := by
  have htrim : items.map Text.trim = items := by
    refine (List.map_congr_left fun s hs => ?_).trans (List.map_id _)
    exact (h s hs).1
  rw [trimmedTokens, htrim, List.filter_eq_self]
  exact fun s hs => bne_iff_ne.2 (h s hs).2

theorem tokens_string {s : String} (h : IsToken s) : tokens false (.string s) = [s] := by
  have hitems : ∀ t ∈ [s], IsToken t := List.forall_mem_singleton.2 h
  exact trimmedTokens_eq_self hitems

theorem tokens_ofStrings (split : Bool) (texts : List String) :
    tokens split (.ofStrings texts) = trimmedTokens texts := by
  have htexts : (texts.map Json.string).filterMap Json.scalarText? = texts := by
    rw [List.filterMap_map]
    exact List.filterMap_some
  rw [Json.ofStrings, tokens, htexts]

theorem tokens_array {split : Bool} {texts : List String} (h : ∀ s ∈ texts, IsToken s) :
    tokens split (.array (texts.map .string)) = texts :=
  (tokens_ofStrings split texts).trans (trimmedTokens_eq_self h)

/-- The tokens of a relationship stand once, are at most one for a single target, and are
identifiers where no labels are allowed. -/
theorem relationshipTokens_eq_ok {p : Predicate} {rel : Relationship} {raw : Json}
    {items : List String} : p.relationshipTokens rel raw = .ok items ↔
      items = withoutRepeats (tokens (rel.cardinality == .list) raw) ∧
        (rel.cardinality = .single → items.length ≤ 1) ∧
        ∀ token ∈ items, Uid.parse? token = none → rel.allowNew = true := by
  unfold relationshipTokens
  simp only
  generalize withoutRepeats (tokens (rel.cardinality == .list) raw) = found
  split
  · rename_i hmany
    simp only [Bool.and_eq_true, beq_iff_eq, decide_eq_true_eq] at hmany
    refine iff_of_false (by simp) ?_
    rintro ⟨rfl, hsingle, -⟩
    exact absurd (hsingle hmany.1) (by omega)
  · rename_i hfew
    have hfew : rel.cardinality = .single → found.length ≤ 1 := fun hsingle => by
      simpa [hsingle] using hfew
    split
    · rename_i token hfound
      have htoken := List.find?_some hfound
      simp only [Bool.and_eq_true, Option.isNone_iff_eq_none, Bool.not_eq_true'] at htoken
      refine iff_of_false (by simp) ?_
      rintro ⟨rfl, -, hallowed⟩
      have := hallowed token (List.mem_of_find?_eq_some hfound) htoken.1
      simp [this] at htoken
    · rename_i hnone
      have hallowed : ∀ token ∈ found, Uid.parse? token = none → rel.allowNew = true := by
        intro token htoken hlabel
        simpa [hlabel] using List.find?_eq_none.1 hnone token htoken
      simp only [Except.ok.injEq]
      constructor
      · rintro rfl
        exact ⟨rfl, hfew, hallowed⟩
      · rintro ⟨rfl, -, -⟩
        rfl

theorem isToken_of_mem_relationshipTokens {p : Predicate} {rel : Relationship} {raw : Json}
    {items : List String} (h : p.relationshipTokens rel raw = .ok items) {token : String}
    (htoken : token ∈ items) : IsToken token := by
  rw [(relationshipTokens_eq_ok.1 h).1, mem_withoutRepeats] at htoken
  exact isToken_of_mem_tokens htoken

/-! ### Operands -/

/-- A field of one token has the operand that the token is read as. -/
theorem readSingle_cases {p : Predicate} {raw : Json} {read : String → Except Error Operand}
    {values : List Operand} (h : p.readSingle raw read = .ok values) :
    values = [] ∨ ∃ token v, IsToken token ∧ read token = .ok v ∧ values = [v] := by
  unfold readSingle at h
  obtain ⟨_ | token, hsingle, h⟩ := bind_eq_ok.1 h
  · exact .inl (pure_eq_ok.1 h)
  · obtain ⟨v, hread, h⟩ := bind_eq_ok.1 h
    refine .inr ⟨token, v, ?_, hread, pure_eq_ok.1 h⟩
    unfold singleToken at hsingle
    split at hsingle
    · cases hsingle
    · rename_i htokens
      cases hsingle
      exact isToken_of_mem_tokens (by rw [htokens]; exact List.mem_singleton_self _)
    · cases hsingle

/-- An operand of a field of one token is what a token is read as. -/
theorem exists_of_readSingle {p : Predicate} {raw : Json} {read : String → Except Error Operand}
    {values : List Operand} (h : p.readSingle raw read = .ok values) {v : Operand}
    (hv : v ∈ values) : ∃ token, read token = .ok v := by
  obtain rfl | ⟨token, w, -, hread, rfl⟩ := readSingle_cases h
  · cases hv
  · exact ⟨token, by rw [List.mem_singleton.1 hv, hread]⟩

/-- What a token of a relationship stands for: a stored node, or the new node of a label. -/
inductive StandsFor (token : String) : Operand → Prop
  | stored {u : Uid} (h : Uid.parse? token = some u) : StandsFor token (.existing u)
  | label (supply : Supply) (h : Uid.parse? token = none) :
      StandsFor token (.new (BlankNode.ofLabel token supply).1)

/-- The nodes of tokens are what the tokens stand for, one by one. -/
theorem nodesOf_standsFor (tokens : List String) (supply : Supply) :
    List.Forall₂ StandsFor tokens (nodesOf tokens supply).1 := by
  induction tokens generalizing supply with
  | nil => exact .nil
  | cons token rest ih =>
    unfold nodesOf
    split
    · rename_i u hu
      exact .cons (.stored hu) (ih supply)
    · rename_i hnone
      exact .cons (.label supply hnone) (ih _)

/-- A node among those of tokens is what one of the tokens stands for. -/
theorem exists_of_mem_nodesOf {tokens : List String} {supply : Supply} {v : Operand}
    (h : v ∈ (nodesOf tokens supply).1) : ∃ token ∈ tokens, StandsFor token v := by
  have hpairs := nodesOf_standsFor tokens supply
  generalize (nodesOf tokens supply).1 = nodes at h hpairs
  induction hpairs with
  | nil => cases h
  | cons hfirst _ ih =>
    rcases List.mem_cons.1 h with rfl | h
    · exact ⟨_, List.mem_cons_self, hfirst⟩
    · obtain ⟨token, htoken, hstands⟩ := ih h
      exact ⟨token, List.mem_cons_of_mem _ htoken, hstands⟩

/-- A field is read as the nodes of its tokens, if it is a relationship, and without a draw
otherwise. -/
theorem validate_cases {p : Predicate} {raw : Json} {supply supply' : Supply}
    {values : List Operand} (h : p.validate raw supply = .ok (values, supply')) :
    (∃ rel items, p.kind = .relationship rel ∧ p.relationshipTokens rel raw = .ok items ∧
      nodesOf items supply = (values, supply')) ∨
    p.relationship? = none ∧ p.validateLiteral raw = .ok values ∧ supply' = supply := by
  unfold validate at h
  split at h
  · rename_i rel hkind
    obtain ⟨items, hitems, heq⟩ := map_eq_ok.1 h
    exact .inl ⟨rel, items, hkind, hitems, heq.symm⟩
  · rename_i hkind
    obtain ⟨values', hvalues, heq⟩ := map_eq_ok.1 h
    obtain ⟨rfl, rfl⟩ := Prod.mk.inj heq
    refine .inr ⟨?_, hvalues, rfl⟩
    unfold relationship?
    split
    · rename_i rel hrel
      exact absurd hrel (hkind rel)
    · rfl

theorem validateLiteral_admits {p : Predicate} {raw : Json} {values : List Operand}
    (h : p.validateLiteral raw = .ok values) {v : Operand} (hv : v ∈ values) :
    p.kind.admits v = true := by
  unfold validateLiteral at h
  cases hkind : p.kind <;> simp only [hkind] at h
  case uid =>
    obtain ⟨token, hread⟩ := exists_of_readSingle h hv
    unfold readUid at hread
    split at hread <;> cases hread
    rfl
  case string =>
    obtain ⟨token, hread⟩ := exists_of_readSingle h hv
    cases hread
    rfl
  case uniqueName =>
    obtain ⟨token, hread⟩ := exists_of_readSingle h hv
    cases hread
    rfl
  case listString =>
    cases h
    obtain ⟨token, -, rfl⟩ := List.mem_map.1 hv
    rfl
  case integer min max =>
    obtain ⟨token, hread⟩ := exists_of_readSingle h hv
    unfold readInteger at hread
    split at hread
    · cases hread
    · split at hread <;> cases hread
      rfl
  case boolean =>
    unfold readTruth at h
    split at h
    case h_4 =>
      obtain ⟨token, hread⟩ := exists_of_readSingle h hv
      obtain ⟨b, -, rfl⟩ := map_eq_ok.1 hread
      rfl
    all_goals
      cases h
      rw [List.mem_singleton.1 hv]
      rfl
  case dateTime =>
    obtain ⟨token, hread⟩ := exists_of_readSingle h hv
    obtain ⟨t, -, rfl⟩ := map_eq_ok.1 hread
    rfl
  case geo =>
    obtain ⟨point, -, rfl⟩ := map_eq_ok.1 h
    cases point with
    | none => cases hv
    | some point =>
      rw [List.mem_singleton.1 hv]
      rfl
  case singleChoice choices =>
    obtain ⟨token, hread⟩ := exists_of_readSingle h hv
    obtain ⟨choice, -, rfl⟩ := map_eq_ok.1 hread
    rfl
  case multipleChoice choices =>
    simp only [readChoices] at h
    split at h
    · cases h
      cases hv
    · obtain ⟨token, -, hread⟩ := exists_of_mapM_eq_ok h hv
      obtain ⟨choice, -, rfl⟩ := map_eq_ok.1 hread
      rfl
  case relationship rel =>
    cases h
    cases hv

/-- The operands that raw input stands for are of the kind of the predicate. -/
theorem validate_admits {p : Predicate} {raw : Json} {supply supply' : Supply}
    {values : List Operand} (h : p.validate raw supply = .ok (values, supply')) {v : Operand}
    (hv : v ∈ values) : p.kind.admits v = true := by
  obtain ⟨rel, items, hkind, -, heq⟩ | ⟨-, hvalues, -⟩ := validate_cases h
  · have hnodes : v ∈ (nodesOf items supply).1 := by
      rw [heq]
      exact hv
    obtain ⟨token, -, hstands⟩ := exists_of_mem_nodesOf hnodes
    rw [hkind]
    cases hstands <;> rfl
  · exact validateLiteral_admits hvalues hv

/-! ### Draws -/

theorem ofLabel_reaches (text : String) (supply : Supply) :
    supply.Reaches (BlankNode.ofLabel text supply).2 := by
  unfold BlankNode.ofLabel
  simp only
  split
  · exact .refl _
  · split
    · exact supply.reaches_next
    · exact .refl _

theorem nodesOf_reaches (tokens : List String) (supply : Supply) :
    supply.Reaches (nodesOf tokens supply).2 := by
  induction tokens generalizing supply with
  | nil => exact .refl _
  | cons token rest ih =>
    unfold nodesOf
    split
    · exact ih supply
    · exact (ofLabel_reaches token supply).trans (ih _)

/-- All that validation does to the supply is to draw from it. -/
theorem validate_reaches {p : Predicate} {raw : Json} {supply supply' : Supply}
    {values : List Operand} (h : p.validate raw supply = .ok (values, supply')) :
    supply.Reaches supply' := by
  obtain ⟨rel, items, -, -, heq⟩ | ⟨-, -, rfl⟩ := validate_cases h
  · have hreaches := nodesOf_reaches items supply
    rw [heq] at hreaches
    exact hreaches
  · exact .refl _

/-! ### Operands that were read -/

/-- The operands of a field are what some raw input stands for. -/
def Reads (p : Predicate) (values : List Operand) : Prop :=
  ∃ raw before after, p.validate raw before = .ok (values, after)

variable {p : Predicate} {values : List Operand}

theorem Reads.admits (h : p.Reads values) {v : Operand} (hv : v ∈ values) :
    p.kind.admits v = true := by
  obtain ⟨raw, before, after, hvalidate⟩ := h
  exact validate_admits hvalidate hv

/-- A new node that was read is the one of a label, of a relationship that allows labels. -/
theorem Reads.exists_label (h : p.Reads values) {b : BlankNode} (hb : .new b ∈ values) :
    ∃ rel token supply, p.relationship? = some rel ∧ rel.allowNew = true ∧
      b = (BlankNode.ofLabel token supply).1 := by
  obtain ⟨raw, before, after, hvalidate⟩ := h
  obtain ⟨rel, items, hkind, hitems, heq⟩ | ⟨hrel, hvalues, -⟩ := validate_cases hvalidate
  · have hnodes : .new b ∈ (nodesOf items before).1 := by
      rw [heq]
      exact hb
    obtain ⟨token, htoken, hstands⟩ := exists_of_mem_nodesOf hnodes
    cases hstands with
    | label supply hlabel =>
      exact ⟨rel, token, supply, by rw [relationship?, hkind],
        (relationshipTokens_eq_ok.1 hitems).2.2 token htoken hlabel, rfl⟩
  · -- only relationships lead to nodes that are yet to be created
    have hadmits := validateLiteral_admits hvalues hb
    unfold relationship? at hrel
    cases hkind : p.kind with
    | relationship rel => simp [hkind] at hrel
    | _ =>
      rw [hkind] at hadmits
      cases hadmits

/-- New nodes that were read are named after their labels. -/
theorem Reads.isLabelled (h : p.Reads values) {b : BlankNode} (hb : .new b ∈ values) :
    b.IsLabelled := by
  obtain ⟨-, token, supply, -, -, rfl⟩ := h.exists_label hb
  exact BlankNode.isLabelled_ofLabel token supply

/-- A unique name that was read is one literal, or it is cleared. -/
theorem Reads.uniqueName (h : p.Reads values) (hkind : p.kind = .uniqueName) :
    values = [] ∨ ∃ s, values = [.literal (.text s)] := by
  obtain ⟨raw, before, after, hvalidate⟩ := h
  obtain ⟨rel, _, hrel, -⟩ | ⟨-, hvalues, -⟩ := validate_cases hvalidate
  · rw [hkind] at hrel
    cases hrel
  · simp only [validateLiteral, hkind] at hvalues
    obtain rfl | ⟨token, v, -, hread, rfl⟩ := readSingle_cases hvalues
    · exact .inl rfl
    · cases hread
      exact .inr ⟨_, rfl⟩

end Predicate

end PressRegister
