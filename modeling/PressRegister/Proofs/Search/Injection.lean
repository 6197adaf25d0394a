import Mathlib.Data.List.Forall2
import Mathlib.Data.List.TakeWhile
import PressRegister.Proofs.Predicate.Validation
import PressRegister.Proofs.Search.Words

/-!
# Searches and free text

The search terms and the values of fields that hold texts of any form are free text. They
stand inside of literals and nowhere else: two filter maps that differ in free text have
searches with one masked text, and the words in it are words of the search.

## Main definitions

* `Search.IsFreeText`: the keys whose values are free text.
* `Search.Reworded`: two filter maps differ in free text only.

## Main results

* `Search.Reworded.blank_clauses`: they ask for the same conditions but for the texts.
* `Search.Reworded.blank_query`: and so are their queries the same.
* `Search.compile_masks_texts`: no text of a filter map leaves its literal.
-/

namespace PressRegister

open Text

/-- What the entries of two tables with the same keys contribute, if the entries of each
key contribute the same. -/
theorem Table.filterMap_entries_congr {α β γ : Type} {t : Table α} {t' : Table β}
    (hkeys : t.keys = t'.keys) {f : String × α → Option γ} {g : String × β → Option γ}
    (h : ∀ key v v', t.get? key = some v → t'.get? key = some v' → f (key, v) = g (key, v')) :
    t.entries.filterMap f = t'.entries.filterMap g := by
  refine filterMap_entries_eq (f := fun key v => f (key, v)) (g := fun key v => g (key, v))
    fun key => ?_
  have hsome : (∃ v, t.get? key = some v) ↔ ∃ v', t'.get? key = some v' := by
    rw [← mem_keys_iff, ← mem_keys_iff, hkeys]
  cases hv : t.get? key with
  | none =>
    cases hv' : t'.get? key with
    | none => rfl
    | some v' => simp [hv, hv'] at hsome
  | some v =>
    obtain ⟨v', hv'⟩ := hsome.1 ⟨v, hv⟩
    rw [hv', Option.bind_some, Option.bind_some, h key v v' hv hv']

theorem Table.mem_of_get?_ofList {α : Type} {entries : List (String × α)} {key : String} {v : α}
    (h : (Table.ofList entries).get? key = some v) : (key, v) ∈ entries := by
  have hfold (t : Table α) : (entries.foldl (fun t e => t.insert e.1 e.2) t).get? key = some v →
      t.get? key = some v ∨ (key, v) ∈ entries := by
    clear h
    induction entries generalizing t with
    | nil => exact .inl
    | cons e rest ih =>
      intro h
      rcases ih _ h with ht | hmem
      · rw [get?_insert] at ht
        split at ht
        · rename_i hkey
          cases ht
          exact .inr (hkey ▸ List.mem_cons_self)
        · exact .inl ht
      · exact .inr (List.mem_cons_of_mem _ hmem)
  exact (hfold _ h).resolve_left (by simp)

/-! ### Blank texts -/

namespace Text

theorem trimChars_eq_nil_iff {cs : List Char} :
    trimChars cs = [] ↔ ∀ c ∈ cs, isBlank c = true := by
  constructor
  · intro h
    simp only [trimChars, trimEnd, List.reverse_eq_nil_iff, List.dropWhile_eq_nil_iff,
      List.mem_reverse] at h
    -- a blank start has been cut off, so nothing is left
    cases hstart : trimStart cs with
    | nil => exact List.dropWhile_eq_nil_iff.1 hstart
    | cons c rest =>
      have hc : isBlank c = false := head?_dropWhile (congrArg List.head? hstart)
      rw [hstart] at h
      rw [h c List.mem_cons_self] at hc
      cases hc
  · intro h
    have hstart : trimStart cs = [] := List.dropWhile_eq_nil_iff.2 h
    rw [trimChars, hstart]
    rfl

theorem trim_eq_empty_iff {s : String} : trim s = "" ↔ ∀ c ∈ s.toList, isBlank c = true := by
  rw [← trimChars_eq_nil_iff, trim, ← String.toList_inj, String.toList_ofList]
  rfl

/-- Texts joined by blanks are blank exactly if all of them are. -/
theorem trim_intercalate_eq_empty_iff {texts : List String} :
    trim (" ".intercalate texts) = "" ↔ ∀ t ∈ texts, trim t = "" := by
  simp only [trim_eq_empty_iff, String.toList_intercalate]
  induction texts with
  | nil => simp
  | cons t rest ih =>
    cases rest with
    | nil => simp
    | cons u rest =>
      have hblank : ∀ c ∈ " ".toList, isBlank c = true := List.all_eq_true.1 (by decide)
      rw [List.forall_mem_cons, ← ih, List.map_cons, List.map_cons, List.intercalate_cons_cons,
        List.forall_mem_append, List.forall_mem_append]
      exact ⟨fun h => ⟨h.1.1, h.2⟩, fun h => ⟨⟨h.1, hblank⟩, h.2⟩⟩

end Text

/-- The values of a filter map that was read from JSON are not blank. -/
theorem FilterMap.trim_ne_of_ofJson {raw : Json} {v : String} (h : (ofJson raw).HasValue v) :
    trim v ≠ "" := by
  obtain ⟨key, values, hget, hv⟩ := h
  cases raw with
  | object members =>
    obtain ⟨⟨name, value⟩, -, hvalues⟩ := List.mem_filterMap.1 (Table.mem_of_get?_ofList hget)
    dsimp only at hvalues
    split at hvalues
    · cases hvalues
    · cases hvalues
      have htoken := Predicate.isToken_of_mem_tokens hv
      rw [htoken.1]
      exact htoken.2
  | _ => cases hget

namespace Search

theorem isSome_terms?_iff {m : FilterMap} :
    (terms? m).isSome = true ↔ ∃ vs, m.get? termsKey = some vs ∧ ¬ ∀ v ∈ vs, trim v = "" := by
  simp only [Option.isSome_iff_exists, terms?_eq_some_iff, ← trim_intercalate_eq_empty_iff]
  exact ⟨fun ⟨_, vs, hvs, hterms, hne⟩ => ⟨vs, hvs, hterms ▸ hne⟩,
    fun ⟨vs, hvs, hne⟩ => ⟨_, vs, hvs, rfl, hne⟩⟩

/-! ### Filter maps that differ in free text -/

/-- The values of a key are free text: the search terms, and what fields that hold texts
of any form are compared with. The keys of the page are never those of a field. -/
def IsFreeText (s : Schema) (key : String) : Prop :=
  key = termsKey ∨ key ≠ maxResultsKey ∧ key ≠ pageKey ∧
    ∃ p, s.predicate? key = some p ∧ p.kind.IsText

/-- A value is the same, or free text in the place of free text. -/
def Rewords (s : Schema) (key v v' : String) : Prop :=
  v = v' ∨ IsFreeText s key ∧ trim v ≠ "" ∧ trim v' ≠ ""

/-- Two filter maps have the same keys, and for each key equally many values that differ
in free text only. -/
structure Reworded (s : Schema) (m m' : FilterMap) : Prop where
  keys : m.keys = m'.keys
  values : ∀ {key vs vs'}, m.get? key = some vs → m'.get? key = some vs' →
    List.Forall₂ (Rewords s key) vs vs'

variable {types : List EntityType} {s : Schema} {m m' : FilterMap}

theorem isIdentifierChar_of_isFreeText (hs : Schema.build types = .ok s) {key : String}
    (h : IsFreeText s key) : ∀ c ∈ key.toList, IsIdentifierChar c := by
  rcases h with rfl | ⟨-, -, p, hp, -⟩
  · have hall : "_terms".toList.all (IsIdentifierChar ·) = true := by decide
    exact fun c hc => of_decide_eq_true (List.all_eq_true.1 hall c hc)
  · exact (isIdentifier_spec (Schema.isIdentifier_of_isUndotted
      (Schema.isUndotted_of_isPredicateName (Schema.isPredicateName_of_build hs hp)))).2

theorem not_isFreeText_typeKey (hs : Schema.build types = .ok s) : ¬ IsFreeText s typeKey := by
  rintro (h | ⟨-, -, p, hp, -⟩)
  · exact absurd h (by decide)
  · rw [Schema.predicate?_typeKey hs] at hp
    cases hp

/-- The keys of modifiers and of facets are no keys of free text. -/
theorem not_isFreeText_of_mem (hs : Schema.build types = .ok s) {key : String} {c : Char}
    (hc : c ∈ key.toList) (hne : ¬ IsIdentifierChar c) : ¬ IsFreeText s key :=
  fun h => hne (isIdentifierChar_of_isFreeText hs h c hc)

theorem not_isIdentifierChar_star : ¬ IsIdentifierChar '*' := by
  decide

theorem not_isIdentifierChar_bar : ¬ IsIdentifierChar '|' := by
  decide

theorem mem_of_facetKey? {key : String} {names : String × String} (h : facetKey? key = some names) :
    '|' ∈ key.toList := by
  rw [(facetKey?_eq_some_iff.1 h).1]
  simp

/-! ### Conditions but for their texts -/

/-- What is read off values of two maps one by one, if it is the same for each of them. -/
theorem filterMap_congr_of_forall₂ {α β γ : Type} {R : α → β → Prop} {as : List α} {bs : List β}
    (h : List.Forall₂ R as bs) {f : α → Option γ} {g : β → Option γ}
    (hfg : ∀ a b, R a b → f a = g b) : as.filterMap f = bs.filterMap g := by
  induction h with
  | nil => rfl
  | cons hab _ ih => rw [List.filterMap_cons, List.filterMap_cons, hfg _ _ hab, ih]

theorem blank_valueCondition? {p : Predicate} (hkind : p.kind.IsText) (name : String)
    (op : Operator) {v v' : String} (hv : trim v ≠ "") (hv' : trim v' ≠ "") :
    (p.valueCondition? name op v).map Filter.blank =
      (p.valueCondition? name op v').map Filter.blank := by
  have htext (w : String) (hw : trim w ≠ "") : (p.valueCondition? name op w).map Filter.blank =
      some (.compare op name (if op == .regexp then .pattern "" else .text "")) := by
    have hne : (trim w).isEmpty = false := by simpa using hw
    unfold Predicate.valueCondition?
    rcases hkind with hkind | hkind | hkind
    all_goals
      simp only [hne, hkind, Bool.false_eq_true, if_false, Option.map_some, Filter.blank]
      split <;> rfl
  rw [htext v hv, htext v' hv']

theorem blank_condition? {p : Predicate} {values values' : List String}
    (h : List.Forall₂ (fun v v' => v = v' ∨ p.kind.IsText ∧ trim v ≠ "" ∧ trim v' ≠ "")
      values values') (operator : Option Operator) (asked : Option Connector) :
    (p.condition? values operator asked).map Filter.blank =
      (p.condition? values' operator asked).map Filter.blank := by
  have hvalue (op : Operator) (name : String) :
      (values.filterMap (p.valueCondition? name op)).map Filter.blank =
        (values'.filterMap (p.valueCondition? name op)).map Filter.blank := by
    rw [List.map_filterMap, List.map_filterMap]
    refine filterMap_congr_of_forall₂ h fun v v' hv => ?_
    rcases hv with rfl | ⟨hkind, hv, hv'⟩
    · rfl
    · exact blank_valueCondition? hkind name op hv hv'
  have hname (op : Operator) (connector : Connector) (name : String) :
      (p.nameCondition? op connector values name).map Filter.blank =
        (p.nameCondition? op connector values' name).map Filter.blank := by
    unfold Predicate.nameCondition?
    split
    · rfl
    · rw [Filter.map_blank_join?, Filter.map_blank_join?, hvalue]
  unfold Predicate.condition?
  cases p.operatorFor? operator with
  | none => rfl
  | some op =>
    simp only [Option.bind_eq_bind, Option.bind_some, Filter.map_blank_anyOf?, List.map_filterMap,
      hname]

/-- What results show depends on the fields that are filtered on, and not on how. -/
theorem shownFields_eq (demands : Table FacetDemand) (fields : List (Predicate × Filter)) :
    shownFields demands fields = (fields.map (·.1)).foldl (fun shown p => Selection.pushUnique shown
      (projection p (((demands.get? p.name).map (·.keys)).getD []))) (resultFields.map .field) := by
  rw [List.foldl_map]
  rfl

/-- What facets require in addition depends on what is shown, and not on the conditions. -/
theorem blank_requireFacet {demands : List FacetDemand} {conditions conditions' : List Filter}
    {shown : List Selection} (h : conditions.map Filter.blank = conditions'.map Filter.blank) :
    (demands.foldl requireFacet (conditions, shown)).1.map Filter.blank =
        (demands.foldl requireFacet (conditions', shown)).1.map Filter.blank ∧
      (demands.foldl requireFacet (conditions, shown)).2 =
        (demands.foldl requireFacet (conditions', shown)).2 := by
  induction demands generalizing conditions conditions' shown with
  | nil => exact ⟨h, rfl⟩
  | cons d rest ih =>
    simp only [List.foldl_cons, requireFacet]
    split
    · exact ih h
    · exact ih (by rw [List.map_append, List.map_append, h])

/-! ### What the two maps ask for -/

namespace Reworded

variable (h : Reworded s m m')
include h

theorem exists_get?_iff (key : String) :
    (∃ vs, m.get? key = some vs) ↔ ∃ vs, m'.get? key = some vs := by
  rw [← Table.mem_keys_iff, ← Table.mem_keys_iff, h.keys]

theorem get?_eq {key : String} (hkey : ¬ IsFreeText s key) : m.get? key = m'.get? key := by
  cases hget : m.get? key with
  | none =>
    cases hget' : m'.get? key with
    | none => rfl
    | some vs' =>
      obtain ⟨vs, hvs⟩ := (h.exists_get?_iff key).2 ⟨vs', hget'⟩
      rw [hget] at hvs
      cases hvs
  | some vs =>
    obtain ⟨vs', hget'⟩ := (h.exists_get?_iff key).1 ⟨vs, hget⟩
    have heq : List.Forall₂ Eq vs vs' :=
      (h.values hget hget').imp fun _ _ hv => hv.resolve_right fun hfree => hkey hfree.1
    rw [List.forall₂_eq_eq_eq] at heq
    rw [hget', heq]

theorem modifier?_eq (hs : Schema.build types = .ok s) (key kind : String) :
    m.modifier? key kind = m'.modifier? key kind := by
  have hstar : '*' ∈ (key ++ "*" ++ kind).toList := by simp [String.toList_append]
  unfold FilterMap.modifier? FilterMap.first?
  rw [h.get?_eq (not_isFreeText_of_mem hs hstar not_isIdentifierChar_star)]

theorem operator?_eq (hs : Schema.build types = .ok s) (key : String) :
    m.operator? key = m'.operator? key := by
  unfold FilterMap.operator?
  rw [h.modifier?_eq hs]

theorem connector?_eq (hs : Schema.build types = .ok s) (key : String) :
    m.connector? key = m'.connector? key := by
  unfold FilterMap.connector?
  rw [h.modifier?_eq hs]

theorem pageSize_eq : pageSize m = pageSize m' := by
  have hkey : ¬ IsFreeText s maxResultsKey := by
    rintro (hkey | hkey)
    · exact absurd hkey (by decide)
    · exact hkey.1 rfl
  unfold pageSize FilterMap.first?
  rw [h.get?_eq hkey]

theorem page_eq : page m = page m' := by
  have hkey : ¬ IsFreeText s pageKey := by
    rintro (hkey | hkey)
    · exact absurd hkey (by decide)
    · exact hkey.2.1 rfl
  unfold page FilterMap.first?
  rw [h.get?_eq hkey]

theorem offset_eq : offset m = offset m' := by
  unfold offset
  rw [h.pageSize_eq, h.page_eq]

/-- There are search terms in both maps or in neither. -/
theorem isSome_terms? : (terms? m).isSome = (terms? m').isSome := by
  have hblank {vs vs' : List String} (hvs : List.Forall₂ (Rewords s termsKey) vs vs') :
      (∀ v ∈ vs, trim v = "") ↔ ∀ v ∈ vs', trim v = "" := by
    induction hvs with
    | nil => rfl
    | cons hv _ ih =>
      rw [List.forall_mem_cons, List.forall_mem_cons, ih]
      rcases hv with rfl | ⟨-, hv, hv'⟩
      · rfl
      · simp [hv, hv']
  rw [Bool.eq_iff_iff, isSome_terms?_iff, isSome_terms?_iff]
  constructor
  · rintro ⟨vs, hvs, hne⟩
    obtain ⟨vs', hvs'⟩ := (h.exists_get?_iff _).1 ⟨vs, hvs⟩
    exact ⟨vs', hvs', (hblank (h.values hvs hvs')).not.1 hne⟩
  · rintro ⟨vs', hvs', hne⟩
    obtain ⟨vs, hvs⟩ := (h.exists_get?_iff _).2 ⟨vs', hvs'⟩
    exact ⟨vs, hvs, (hblank (h.values hvs hvs')).not.2 hne⟩

theorem typeClause?_eq (hs : Schema.build types = .ok s) : typeClause? s m = typeClause? s m' := by
  unfold typeClause?
  rw [h.get?_eq (not_isFreeText_typeKey hs)]

/-- The fields that are filtered on are the same, and so are the conditions on them but for
their texts. -/
theorem blank_fieldClauses (hs : Schema.build types = .ok s) :
    (fieldClauses s m).map (fun c => (c.1, c.2.blank)) =
      (fieldClauses s m').map (fun c => (c.1, c.2.blank)) := by
  unfold fieldClauses
  rw [List.map_filterMap, List.map_filterMap]
  refine Table.filterMap_entries_congr h.keys fun key vs vs' hvs hvs' => ?_
  simp only [fieldClause?, h.operator?_eq hs, h.connector?_eq hs]
  split
  · rfl
  rename_i hkey
  cases hp : s.queryable? key with
  | none => rfl
  | some p =>
    have hregistered : s.predicate? key = some p := by
      simp only [Schema.queryable?, Option.filter_eq_some_iff] at hp
      exact hp.1
    have hvalues : List.Forall₂ (fun v v' => v = v' ∨ p.kind.IsText ∧ trim v ≠ "" ∧ trim v' ≠ "")
        vs vs' := by
      refine (h.values hvs hvs').imp fun v v' hrewords => hrewords.imp_right fun htext => ?_
      obtain ⟨hfree, hv, hv'⟩ := htext
      refine ⟨?_, hv, hv'⟩
      rcases hfree with rfl | ⟨-, -, q, hq, hkind⟩
      · exact absurd (by decide) hkey
      · rw [hregistered] at hq
        cases hq
        exact hkind
    have hpair (f : Option Filter) : (f.bind fun f => some (p, f)).map (fun c => (c.1, c.2.blank)) =
        (f.map Filter.blank).map fun f => (p, f) := by
      cases f <;> rfl
    exact (hpair _).trans ((congrArg _ (blank_condition? hvalues _ _)).trans (hpair _).symm)

/-- What is asked of facets is the same. -/
theorem facetDemands_eq (hs : Schema.build types = .ok s) :
    facetDemands s m = facetDemands s m' := by
  unfold facetDemands
  congr 1
  refine Table.filterMap_entries_congr h.keys fun key vs vs' hvs hvs' => ?_
  simp only [facetClause?, h.operator?_eq hs]
  cases hkey : facetKey? key with
  | none => rfl
  | some names =>
    have hget := h.get?_eq (not_isFreeText_of_mem hs (mem_of_facetKey? hkey)
      not_isIdentifierChar_bar)
    rw [hvs, hvs'] at hget
    cases hget
    rfl

/-- The conditions are the same but for their texts, and the same is shown. -/
theorem blank_clauses (hs : Schema.build types = .ok s) :
    (clauses s m).1.map Filter.blank = (clauses s m').1.map Filter.blank ∧
      (clauses s m).2 = (clauses s m').2 := by
  have hfields := h.blank_fieldClauses hs
  have hshown : (fieldClauses s m).map (·.1) = (fieldClauses s m').map (·.1) := by
    simpa [List.map_map, Function.comp_def] using congrArg (List.map Prod.fst) hfields
  have hconditions : ((fieldClauses s m).map (·.2)).map Filter.blank =
      ((fieldClauses s m').map (·.2)).map Filter.blank := by
    simpa [List.map_map, Function.comp_def] using congrArg (List.map Prod.snd) hfields
  have hterms : ((terms? m).map fun _ => termsClause) = (terms? m').map fun _ => termsClause := by
    have hsome := h.isSome_terms?
    cases hm : terms? m <;> cases hm' : terms? m' <;> simp_all
  unfold clauses
  dsimp only
  rw [h.facetDemands_eq hs, h.typeClause?_eq hs, hterms, shownFields_eq, shownFields_eq, hshown]
  refine blank_requireFacet ?_
  simp only [List.map_append, hconditions]

/-- The queries for conditions that are the same but for their texts are the same but for
their texts. -/
theorem blank_query {conditions conditions' : List Filter}
    (hconditions : conditions.map Filter.blank = conditions'.map Filter.blank)
    (shown : List Selection) (demands : List FacetDemand) :
    (query m conditions shown demands).blank = (query m' conditions' shown demands).blank := by
  have hfiltered (fs : List Filter) : (filteredBlock fs demands).blank =
      { filteredBlock [] demands with filter := Filter.allOf? (fs.map Filter.blank) } := by
    rw [← Filter.map_blank_allOf?]
    rfl
  have hresult : resultBlock m (withRelations shown) = resultBlock m' (withRelations shown) := by
    unfold resultBlock
    rw [h.pageSize_eq, h.offset_eq]
  simp only [query, Query.blank, List.map_cons, hfiltered, hconditions, h.isSome_terms?, hresult]

end Reworded

/-! ### The text of a search -/

theorem says_compile (hs : Schema.build types = .ok s) {isPublic : Bool} {c : Compiled}
    (h : compile s m isPublic = some c) : c.query.Says (Word s m) := by
  have hclauses := (says_clauses hs (m := m)).1
  rw [query_of_compile h]
  refine query_says hs ?_
  split
  · have hvisibility : visibility.Says (Word s m) := ⟨.fixed (by decide), trivial⟩
    exact List.forall_mem_append.2 ⟨hclauses, by simpa using hvisibility⟩
  · exact hclauses

/-- The masked text of a search is that of its query without the texts. -/
theorem mask_text (hs : Schema.build types = .ok s) {isPublic : Bool} {c : Compiled}
    (h : compile s m isPublic = some c) : ∃ out, mask .plain c.text.toList = some out ∧
      mask .plain c.query.blank.chars = some out ∧ ∀ w ∈ words out, Word s m w := by
  rw [Compiled.text, Query.render, String.toList_ofList]
  exact (Query.alike_blank (isVocabulary_word hs) (says_compile hs h)).mask_eq

/-- Rewording free text keeps the search, but for the texts in its query. -/
theorem Reworded.blank_compile (h : Reworded s m m') (hs : Schema.build types = .ok s)
    {isPublic : Bool} {c : Compiled} (hc : compile s m isPublic = some c) :
    ∃ c', compile s m' isPublic = some c' ∧ c'.query.blank = c.query.blank := by
  obtain ⟨hconditions, hshown⟩ := h.blank_clauses hs
  cases hc' : compile s m' isPublic with
  | none =>
    rw [compile_eq_none_iff.1 hc', List.map_nil, List.map_eq_nil_iff] at hconditions
    rw [compile_eq_none_iff.2 hconditions] at hc
    cases hc
  | some c' =>
    refine ⟨c', rfl, ?_⟩
    rw [query_of_compile hc, query_of_compile hc', ← hshown, ← h.facetDemands_eq hs]
    refine (h.blank_query ?_ _ _).symm
    split
    · simp only [List.map_append, hconditions]
    · exact hconditions

/-- All literals in the text of a search are closed. Outside of them it holds words of the
search only, and rewording free text leaves the masked text as it is. -/
theorem compile_masks_texts (hs : Schema.build types = .ok s) {isPublic : Bool} {c : Compiled}
    (hc : compile s m isPublic = some c) :
    ∃ out, mask .plain c.text.toList = some out ∧ (∀ w ∈ words out, Word s m w) ∧
      ∀ m', Reworded s m m' → ∃ c', compile s m' isPublic = some c' ∧
        mask .plain c'.text.toList = some out := by
  obtain ⟨out, hmask, hblank, hwords⟩ := mask_text hs hc
  refine ⟨out, hmask, hwords, fun m' h => ?_⟩
  obtain ⟨c', hc', hquery⟩ := h.blank_compile hs hc
  obtain ⟨out', hmask', hblank', -⟩ := mask_text hs hc'
  rw [hquery, hblank] at hblank'
  cases hblank'
  exact ⟨c', hc', hmask'⟩

/-- A search for a text in all names, and for the text as a pattern in the other names. -/
def textSearch (text : String) : FilterMap :=
  .ofList [("_terms", [text]), ("other_names", [text]), ("other_names*operator", ["regexp"])]

theorem entries_textSearch (text : String) : (textSearch text).entries =
    [("_terms", [text]), ("other_names", [text]), ("other_names*operator", ["regexp"])] := by
  have hterms : ¬ "other_names" < "_terms" ∧ "other_names" ≠ "_terms" := by decide
  have hoperator : ¬ "other_names*operator" < "_terms" ∧ "other_names*operator" ≠ "_terms" ∧
      ¬ "other_names*operator" < "other_names" ∧ "other_names*operator" ≠ "other_names" := by
    decide
  simp only [textSearch, Table.ofList, Table.insert, Table.place, Table.empty, List.foldl_cons,
    List.foldl_nil, hterms, hoperator, if_false]

theorem reworded_textSearch {text text' : String} (h : trim text ≠ "") (h' : trim text' ≠ "") :
    Reworded Inventory.schema (textSearch text) (textSearch text') where
  keys := by rw [Table.keys, Table.keys, entries_textSearch, entries_textSearch]; rfl
  values {key vs vs'} hvs hvs' := by
    have hother : IsFreeText Inventory.schema "other_names" := by
      refine .inr ⟨by decide, by decide, ?_⟩
      have hkind : (Inventory.schema.predicate? "other_names").map (·.kind) = some .listString := by
        rw [Inventory.predicate?_schema]
        decide +kernel
      obtain ⟨p, hp, hkind⟩ := Option.map_eq_some_iff.1 hkind
      exact ⟨p, hp, .inr (.inr hkind)⟩
    rw [Table.get?_eq_some_iff, entries_textSearch] at hvs hvs'
    simp only [List.mem_cons, Prod.mk.injEq, List.not_mem_nil, or_false] at hvs hvs'
    rcases hvs with ⟨rfl, rfl⟩ | ⟨rfl, rfl⟩ | ⟨rfl, rfl⟩
    · obtain rfl : vs' = [text'] := by simpa using hvs'
      exact .cons (.inr ⟨.inl rfl, h, h'⟩) .nil
    · obtain rfl : vs' = [text'] := by simpa using hvs'
      exact .cons (.inr ⟨hother, h, h'⟩) .nil
    · obtain rfl : vs' = ["regexp"] := by simpa using hvs'
      exact .cons (.inl rfl) .nil

/-- A text that would close its literal and the filter, if it were not written as one. -/
def breakingText : String :=
  "\"/i)) \x7b uid \x7d"

theorem textSearch_masks_texts : ∃ c c' out,
    compile Inventory.schema (textSearch "falter") true = some c ∧
      compile Inventory.schema (textSearch breakingText) true = some c' ∧
      mask .plain c.text.toList = some out ∧ mask .plain c'.text.toList = some out ∧
      ∀ w ∈ words out, Word Inventory.schema (textSearch "falter") w := by
  have hget : (textSearch "falter").get? termsKey = some ["falter"] := by decide +kernel
  obtain ⟨c, hc⟩ : ∃ c, compile Inventory.schema (textSearch "falter") true = some c :=
    exists_compile_of_clause Inventory.build_entityTypes (by decide +kernel)
      (.terms hget (by decide +kernel))
  obtain ⟨out, hout, hwords, hreworded⟩ := compile_masks_texts Inventory.build_entityTypes hc
  have hfalter : trim "falter" ≠ "" := by decide
  have hbreaking : trim breakingText ≠ "" := by decide
  obtain ⟨c', hc', hout'⟩ := hreworded _ (reworded_textSearch hfalter hbreaking)
  exact ⟨c, c', out, hc, hc', hout, hout', hwords⟩

end Search

end PressRegister
