import PressRegister.Proofs.Schema.Registry
import PressRegister.Search

/-!
# The names in a schema

Every declaration that enters the registry has passed the check of its names. So all
that a registered predicate may bring into a query, its own name, the edge it is stored
under, its aliases and its facets, is made of the characters of identifiers.

## Main definitions

* `Text.IsIdentifierChar`: the characters of identifiers.
* `Predicate.WellNamed`: the names in a declaration are identifiers.

## Main results

* `Schema.wellNamed_of_build`: the registered predicates of a schema that was built are
  well named.
* `Schema.queryName_of_build`: queries use registered names for them.
-/

namespace PressRegister

/-! ### Characters of identifiers -/

namespace Text

/-- Whether a character may stand in an identifier. -/
def IsIdentifierChar (c : Char) : Prop :=
  isNameChar c = true ∨ c = '.' ∨ c = '~'

instance : DecidablePred IsIdentifierChar :=
  fun _ => inferInstanceAs (Decidable (_ ∨ _))

theorem isNameChar_of_isNameStart {c : Char} (h : isNameStart c = true) : isNameChar c = true := by
  simp only [isNameStart, isNameChar, Char.isAlphanum, Bool.or_eq_true] at h ⊢
  exact h.imp_left .inl

theorem isNameChar_of_isSimpleName {cs : List Char} (h : isSimpleName cs = true) :
    ∀ c ∈ cs, isNameChar c = true := by
  cases cs with
  | nil => simp
  | cons c rest =>
    simp only [isSimpleName, Bool.and_eq_true, List.all_eq_true] at h
    rintro d hd
    rcases List.mem_cons.1 hd with rfl | hd
    · exact isNameChar_of_isNameStart h.1
    · exact h.2 d hd

theorem ne_nil_of_isSimpleName {cs : List Char} (h : isSimpleName cs = true) : cs ≠ [] := by
  rintro rfl
  simp [isSimpleName] at h

theorem isDottedName_spec {cs : List Char} (h : isDottedName cs = true) :
    cs ≠ [] ∧ ∀ c ∈ cs, isNameChar c = true ∨ c = '.' := by
  unfold isDottedName at h
  have hsplit := List.takeWhile_append_dropWhile (p := (· != '.')) (l := cs)
  split at h
  · exact ⟨ne_nil_of_isSimpleName h, fun c hc => .inl (isNameChar_of_isSimpleName h c hc)⟩
  · rename_i dot rest hdrop
    rw [hdrop] at hsplit
    simp only [Bool.and_eq_true] at h
    have hdot : dot = '.' := by
      have hhead := List.head?_dropWhile_not (p := (· != '.')) (l := cs)
      simpa [hdrop] using hhead
    refine ⟨fun hnil => by simp [hnil] at hdrop, fun c hc => ?_⟩
    rw [← hsplit, List.mem_append, List.mem_cons] at hc
    rcases hc with hc | hc | hc
    · exact .inl (isNameChar_of_isSimpleName h.1 c hc)
    · exact .inr (hc.trans hdot)
    · exact .inl (isNameChar_of_isSimpleName h.2 c hc)

theorem isIdentifier_spec {s : String} (h : isIdentifier s = true) :
    s.toList ≠ [] ∧ ∀ c ∈ s.toList, IsIdentifierChar c := by
  unfold isIdentifier isIdentifierChars at h
  split at h
  · rename_i rest heq
    rw [heq]
    refine ⟨by simp, fun c hc => ?_⟩
    rcases List.mem_cons.1 hc with hc | hc
    · exact .inr (.inr hc)
    · exact ((isDottedName_spec h).2 c hc).imp_right .inl
  · obtain ⟨hne, hchars⟩ := isDottedName_spec h
    exact ⟨hne, fun c hc => (hchars c hc).imp_right .inl⟩

end Text

/-! ### Names in declarations -/

open Text

/-- The names in a declaration are identifiers, and only aliases may hold a dot. -/
structure Predicate.WellNamed (p : Predicate) : Prop where
  name : Schema.isPredicateName p.name = true
  aliases : ∀ a ∈ p.aliases, isIdentifier a = true
  facets : ∀ f ∈ p.facets, Schema.isUndotted f.name = true

namespace Schema

theorem isIdentifier_of_isUndotted {name : String} (h : isUndotted name = true) :
    isIdentifier name = true := by
  simp only [isUndotted, Bool.and_eq_true] at h
  exact h.1

theorem isUndotted_of_isPredicateName {name : String} (h : isPredicateName name = true) :
    isUndotted name = true := by
  simp only [isPredicateName, Bool.and_eq_true] at h
  exact h.1

theorem wellNamed_of_checkNames {typeName : String} {p : Predicate}
    (h : checkNames typeName p = .ok ()) : p.WellNamed := by
  unfold checkNames at h
  split at h
  · cases h
  · rename_i hname
    split at h
    · cases h
    · rename_i haliases
      split at h
      · cases h
      · rename_i hfacets
        refine ⟨by simpa using hname, fun a ha => ?_, fun f hf => ?_⟩
        · simpa using List.find?_eq_none.1 haliases a ha
        · simpa using List.find?_eq_none.1 hfacets f hf

/-- What a registry of predicates holds is well named. -/
def AllNamed (registry : Table Predicate) : Prop :=
  ∀ key p, registry.get? key = some p → p.WellNamed

theorem allNamed_of_registerPredicates {typeName : String} {predicates : List Predicate}
    {seen : List String} {before after : Table Predicate} (hbefore : AllNamed before)
    (h : registerPredicates typeName predicates seen before = .ok after) : AllNamed after := by
  induction predicates generalizing seen before with
  | nil =>
    cases h
    exact hbefore
  | cons p rest ih =>
    obtain ⟨hcheck, -, mid, hrest, ⟨-, -, -, rfl⟩ | ⟨-, rfl⟩⟩ := registerPredicates_cons_ok h
    · exact ih hbefore hrest
    · refine ih (fun key q hq => ?_) hrest
      rw [Table.get?_insert] at hq
      split at hq
      · cases hq
        exact wellNamed_of_checkNames hcheck
      · exact hbefore key q hq

theorem allNamed_register {s s' : Schema} {t : EntityType} (hs : AllNamed s.predicates)
    (h : s.register t = .ok s') : AllNamed s'.predicates := by
  obtain ⟨predicates, -, -, hregister, -, rfl⟩ := register_ok h
  exact allNamed_of_registerPredicates hs hregister

variable {types : List EntityType} {s : Schema}

/-- The registered predicates of a schema that was built are well named. -/
theorem wellNamed_of_build (h : build types = .ok s) {name : String} {p : Predicate}
    (hp : s.predicate? name = some p) : p.WellNamed := by
  have hregister := foldlM_of_build h
  have hall := foldlM_induction (P := fun s => AllNamed s.predicates)
    (fun _ _ _ => allNamed_register) (fun _ _ h => by cases h) hregister
  exact hall name p hp

theorem isPredicateName_of_build (h : build types = .ok s) {name : String} {p : Predicate}
    (hp : s.predicate? name = some p) : isPredicateName name = true := by
  rw [← (wellFormed_of_build h).predicateNames hp]
  exact (wellNamed_of_build h hp).name

/-- The types of nodes are kept apart from all registered predicates. -/
theorem predicate?_typeKey (h : build types = .ok s) : s.predicate? Search.typeKey = none := by
  cases hp : s.predicate? Search.typeKey with
  | none => rfl
  | some p =>
    have hname := isUndotted_of_isPredicateName (isPredicateName_of_build h hp)
    simp [isUndotted, Search.typeKey] at hname

/-- The name that queries use for a registered predicate is its own, or a registered
name against its direction. -/
theorem queryName_of_build (h : build types = .ok s) {name : String} {p : Predicate}
    (hp : s.predicate? name = some p) :
    p.queryName = p.name ∨ ∃ q edge, s.predicate? edge = some q ∧ p.queryName = "~" ++ edge := by
  unfold Predicate.queryName
  split
  · rename_i edge hdir
    obtain ⟨q, hq, -⟩ := reverse_forward h hp hdir
    exact .inr ⟨q, edge, hq, rfl⟩
  · exact .inl rfl

end Schema

end PressRegister
