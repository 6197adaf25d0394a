import PressRegister.Proofs.Number.Decimal
import PressRegister.Proofs.Search.Meaning

/-!
# Pages of a search

Two filter maps that ask for different pages of one search show windows of one list of results.
A number of results or of a page counts as far as it can be read: in 64 bits with a sign the
number of results, in 32 bits the page. Beyond, the page is as if nothing was asked.

## Main definitions

* `FilterMap.SameBeside`: two filter maps differ under some keys only.
* `FilterMap.Asks`: a filter map has a number under a key.
* `Search.sizeFor`, `Search.offsetFor`: the window for numbers that are asked for.
* `Search.Compiled.Shows`: the window of the results that a search shows.
* `Search.AskInOrder`: two searches that differ in the page alone.

## Main results

* `Search.pageSize_of_asks`, `Search.page_of_asks`: what numbers make of a page.
* `Search.compile_shows_of_asks`: the window of a search.
* `Search.sameList_of_sameBeside`: searches that differ in the page show windows of one list.
* `Search.pages_ordered`: how the windows of two such searches lie to each other.
-/

namespace PressRegister

open Number

namespace FilterMap

/-- Two filter maps have the same under all keys but some. -/
def SameBeside (keys : List String) (m m' : FilterMap) : Prop :=
  ∀ key, key ∉ keys → m'.get? key = m.get? key

/-- The first value under a key is the text of a natural number, with blanks around it or not. -/
def Asks (m : FilterMap) (key : String) (n : Nat) : Prop :=
  ∃ v, m.first? key = some v ∧ readNat? (Text.trimChars v.toList) = some n

end FilterMap

namespace Search

variable {s : Schema} {m m' : FilterMap} {isPublic : Bool} {c c' : Compiled} {n p : Nat}

/-! ### Numbers -/

/-- The number of results on a page for a number that is asked for. -/
def sizeFor (n : Nat) : Nat :=
  if (n : Int) ≤ int64Max then min n maxPageSize else defaultPageSize

/-- The page for a number that is asked for. -/
def pageFor (p : Nat) : Nat :=
  if p ≤ uint32Max then p else 0

/-- The number of results before a page, for a number of results and a page that are asked for. -/
def offsetFor (n p : Nat) : Nat :=
  min (pageFor p * sizeFor n) uint32Max

theorem pageSize_of_asks (h : m.Asks maxResultsKey n) (hn : 0 < n) : pageSize m = sizeFor n := by
  obtain ⟨v, hv, hread⟩ := h
  have hlist : (Text.trim v).toList = Text.trimChars v.toList := by simp [Text.trim]
  have hmin : int64Min ≤ (n : Int) := by
    have : int64Min < 0 := by decide
    omega
  rw [pageSize, hv, Option.bind_some, readInt64?, hlist, readInt?_of_readNat? hread, sizeFor]
  by_cases hmax : (n : Int) ≤ int64Max
  · rw [if_pos ⟨hmin, hmax⟩, if_pos hmax]
    simp only [Int.toNat_natCast]
    exact if_pos (by omega)
  · rw [if_neg fun hbounds => hmax hbounds.2, if_neg hmax]

theorem page_of_asks (h : m.Asks pageKey p) : page m = pageFor p := by
  obtain ⟨v, hv, hread⟩ := h
  rw [page, hv, Option.bind_some, readUnsigned?_of_readNat? hread, pageFor]
  split <;> rfl

theorem sizeFor_bounds (hn : 0 < n) : 1 ≤ sizeFor n ∧ sizeFor n ≤ 50 := by
  have hmax : maxPageSize = 50 := rfl
  have hdefault : defaultPageSize = 25 := rfl
  unfold sizeFor
  split <;> omega

/-- A greater number of results makes no smaller page, unless it is too great to be read. -/
theorem sizeFor_le_iff {n' : Nat} (hn : 0 < n) (hle : n ≤ n') :
    sizeFor n ≤ sizeFor n' ↔ ¬ (int64Max < n' ∧ 25 < n ∧ (n : Int) ≤ int64Max) := by
  have hmax : maxPageSize = 50 := rfl
  have hdefault : defaultPageSize = 25 := rfl
  unfold sizeFor
  split <;> split <;> omega

/-- A later page has no earlier window, unless it is too late to be read. -/
theorem offsetFor_le_iff {p' : Nat} (hn : 0 < n) (hle : p ≤ p') :
    offsetFor n p ≤ offsetFor n p' ↔ ¬ (uint32Max < p' ∧ 0 < p ∧ p ≤ uint32Max) := by
  have hsize := (sizeFor_bounds hn).1
  unfold offsetFor pageFor
  by_cases hp' : p' ≤ uint32Max
  · have hmul : p * sizeFor n ≤ p' * sizeFor n := Nat.mul_le_mul_right _ hle
    rw [if_pos hp', if_pos (Nat.le_trans hle hp')]
    exact iff_of_true (by omega) (by omega)
  · rw [if_neg hp', Nat.zero_mul, Nat.zero_min, Nat.le_zero]
    by_cases hp : p ≤ uint32Max
    · have hmul : p ≤ p * sizeFor n := Nat.le_mul_of_pos_right p hsize
      have hzero : p = 0 → p * sizeFor n = 0 := fun hp => by rw [hp, Nat.zero_mul]
      have hmax : 0 < uint32Max := by decide
      rw [if_pos hp]
      omega
    · rw [if_neg hp]
      exact iff_of_true (by simp) (by omega)

/-- Consecutive pages are adjacent as long as the number of results before them fits. -/
theorem offsetFor_succ (hn : 0 < n) (hp : p ≤ uint32Max) (h : offsetFor n p < uint32Max)
    (h' : offsetFor n (p + 1) < uint32Max) : offsetFor n (p + 1) = offsetFor n p + sizeFor n := by
  have hmul : p ≤ p * sizeFor n := Nat.le_mul_of_pos_right p (sizeFor_bounds hn).1
  have hsucc : (p + 1) * sizeFor n = p * sizeFor n + sizeFor n := Nat.succ_mul p (sizeFor n)
  unfold offsetFor at h h' ⊢
  have hpage : pageFor p = p := if_pos hp
  rw [hpage] at h ⊢
  have hnext : pageFor (p + 1) = p + 1 := if_pos (by omega)
  rw [hnext] at h' ⊢
  omega

/-! ### Windows -/

/-- The text that asks for a window. -/
def windowChars (size offset : Nat) : List Char :=
  ", first: ".toList ++ natChars size ++ ", offset: ".toList ++ natChars offset

/-- The window of the results that a search shows, and the text that asks for it. -/
structure Compiled.Shows (c : Compiled) (size offset : Nat) : Prop where
  size_eq : c.pageSize = size
  offset_eq : offset = min (c.page * size) uint32Max
  last : ∃ b, c.query.blocks.getLast? = some b ∧ b.name = "q" ∧ b.func = .inVar filteredVar ∧
    b.first = some size ∧ b.offset = some offset
  rendered : ∃ before after, c.text.toList = before ++ windowChars size offset ++ ')' :: after

/-- Two searches show windows of one list: they differ in what the last block cuts out alone. -/
def Compiled.SameList (c c' : Compiled) : Prop :=
  c'.bindings = c.bindings ∧ c'.query.params = c.query.params ∧ ∃ blocks b b',
    c.query.blocks = blocks ++ [b] ∧ c'.query.blocks = blocks ++ [b'] ∧
      b' = { b with first := b'.first, offset := b'.offset }

/-- What ends the head of the last block stands in the text of a query. -/
theorem rendered_of_last {q : Query} {blocks : List Block} {b : Block} {opening window : List Char}
    (hblocks : q.blocks = blocks ++ [b]) (hhead : b.headChars = opening ++ window) :
    ∃ before after, q.chars = before ++ window ++ ')' :: after := by
  obtain ⟨start, rest, hchars⟩ : ∃ start rest, b.chars 1 = start ++ window ++ ')' :: rest := by
    unfold Block.chars
    rw [hhead]
    generalize Selection.indent 1 ++ b.name.toList ++ _ = start
    exact ⟨start ++ opening, b.directiveChars ++ _, by
      simp only [List.append_assoc, List.cons_append]; rfl⟩
  have hlast : Block.listChars 1 q.blocks = Block.listChars 1 blocks ++ b.chars 1 := by
    simp [Block.listChars, hblocks]
  unfold Query.chars
  rw [hlast, hchars]
  generalize "query ".toList ++ q.name.toList ++ _ ++ _ = name
  exact ⟨name ++ Block.listChars 1 blocks ++ start, rest ++ "\x7d\n".toList, by simp⟩

/-- The head of a block ends with the window that it cuts out. -/
theorem exists_headChars {b : Block} {size offset : Nat} (hfirst : b.first = some size)
    (hoffset : b.offset = some offset) :
    ∃ opening, b.headChars = opening ++ windowChars size offset := by
  unfold Block.headChars windowChars
  rw [hfirst, hoffset]
  generalize "func: ".toList ++ b.func.chars ++ _ = opening
  simp only [List.append_assoc]
  exact ⟨opening, rfl⟩

theorem bindings_of_compile (h : compile s m isPublic = some c) : c.bindings =
    match terms? m with
    | some terms => Table.empty.insert ("$" ++ termsParam) terms
    | none => .empty := by
  simp only [compile] at h
  split at h
  · cases h
  · cases h
    rfl

/-- A search shows the window of its page. -/
theorem compile_shows (h : compile s m isPublic = some c) :
    c.Shows (pageSize m) (offset m) ∧ c.page = page m := by
  have hquery := query_of_compile h
  have hpage : c.pageSize = pageSize m ∧ c.page = page m := by
    simp only [compile] at h
    split at h
    · cases h
    · cases h
      exact ⟨rfl, rfl⟩
  have hblocks : ∃ blocks, c.query.blocks =
      blocks ++ [resultBlock m (withRelations (clauses s m).2)] := by
    rw [hquery, query]
    simp only [← List.cons_append]
    exact ⟨_, rfl⟩
  obtain ⟨blocks, hblocks⟩ := hblocks
  refine ⟨⟨hpage.1, by rw [offset, hpage.2], ?_, ?_⟩, hpage.2⟩
  · refine ⟨resultBlock m (withRelations (clauses s m).2), ?_, rfl, rfl, rfl, rfl⟩
    rw [hblocks, List.getLast?_concat]
  · obtain ⟨opening, hopening⟩ := exists_headChars
      (b := resultBlock m (withRelations (clauses s m).2)) rfl rfl
    obtain ⟨before, after, hchars⟩ := rendered_of_last hblocks hopening
    refine ⟨before, after, ?_⟩
    rw [Compiled.text, Query.render, String.toList_ofList, hchars]

/-! ### Searches that differ in the page -/

section SameBeside

variable (h : FilterMap.SameBeside [maxResultsKey, pageKey] m m')
include h

theorem terms?_sameBeside : terms? m' = terms? m := by
  rw [terms?, h _ (by decide)]
  rfl

theorem typeClause?_sameBeside : typeClause? s m' = typeClause? s m := by
  rw [typeClause?, h _ (by decide)]
  rfl

theorem modifier?_sameBeside (key kind : String) :
    m'.modifier? key kind = m.modifier? key kind := by
  have hkey : key ++ "*" ++ kind ∉ [maxResultsKey, pageKey] := by
    intro hmem
    have hstar : '*' ∈ (key ++ "*" ++ kind).toList := by simp
    simp only [List.mem_cons, List.not_mem_nil, or_false] at hmem
    rcases hmem with heq | heq
    · rw [heq] at hstar
      exact absurd hstar (by decide)
    · rw [heq] at hstar
      exact absurd hstar (by decide)
  rw [FilterMap.modifier?, FilterMap.first?, h _ hkey]
  rfl

/-- What does not heed the keys of the page makes the same of both filter maps. -/
theorem filterMap_entries_sameBeside {α : Type} {f f' : String → List String → Option α}
    (hf : ∀ key values, f' key values = f key values)
    (hidle : ∀ key ∈ [maxResultsKey, pageKey], ∀ values, f key values = none) :
    m'.entries.filterMap (fun e => f' e.1 e.2) = m.entries.filterMap (fun e => f e.1 e.2) := by
  refine Table.filterMap_entries_eq fun key => ?_
  by_cases hkey : key ∈ [maxResultsKey, pageKey]
  · have hnone : ∀ t : FilterMap, (t.get? key).bind (f key) = none := fun t => by
      cases t.get? key with
      | none => rfl
      | some values => exact hidle key hkey values
    have hsame : f' key = f key := funext (hf key)
    rw [hsame, hnone, hnone]
  · rw [h key hkey]
    exact congrArg _ (funext (hf key))

theorem fieldClauses_sameBeside : fieldClauses s m' = fieldClauses s m := by
  refine filterMap_entries_sameBeside h (fun key values => ?_) fun key hkey values => ?_
  · rw [fieldClause?, FilterMap.operator?, FilterMap.connector?, modifier?_sameBeside h,
      modifier?_sameBeside h]
    rfl
  · have hpredicate : isPredicateKey key = false := by
      revert key
      decide
    simp [fieldClause?, hpredicate]

theorem facetDemands_sameBeside : facetDemands s m' = facetDemands s m := by
  unfold facetDemands
  congr 1
  refine filterMap_entries_sameBeside h (fun key values => ?_) fun key hkey values => ?_
  · rw [facetClause?, FilterMap.operator?, modifier?_sameBeside h]
    rfl
  · have hfacet : facetKey? key = none := by
      revert key
      decide
    simp [facetClause?, hfacet]

theorem clauses_sameBeside : clauses s m' = clauses s m := by
  rw [clauses, terms?_sameBeside h, typeClause?_sameBeside h, fieldClauses_sameBeside h,
    facetDemands_sameBeside h]
  rfl

/-- Searches that differ in the page show windows of one list. -/
theorem sameList_of_sameBeside (hc : compile s m isPublic = some c)
    (hc' : compile s m' isPublic = some c') : c.SameList c' := by
  have hquery := query_of_compile hc
  have hquery' := query_of_compile hc'
  rw [clauses_sameBeside h, facetDemands_sameBeside h] at hquery'
  have hbindings : c'.bindings = c.bindings := by
    rw [bindings_of_compile hc, bindings_of_compile hc', terms?_sameBeside h]
  have hparams : c'.query.params = c.query.params := by
    rw [hquery, hquery', query, query, terms?_sameBeside h]
  refine ⟨hbindings, hparams, ?_⟩
  rw [hquery, hquery', query, query]
  simp only [← List.cons_append]
  exact ⟨_, _, _, rfl, rfl, rfl⟩

end SameBeside

/-! ### Windows in order -/

/-- Two searches differ in the page alone, and the second one asks for at least as many results
and for a page that is not before the first one's. -/
structure AskInOrder (s : Schema) (isPublic : Bool) (m m' : FilterMap) (c c' : Compiled)
    (n n' p p' : Nat) : Prop where
  same : m.SameBeside [maxResultsKey, pageKey] m'
  compiled : compile s m isPublic = some c
  compiled' : compile s m' isPublic = some c'
  size : m.Asks maxResultsKey n
  size' : m'.Asks maxResultsKey n'
  page : m.Asks pageKey p
  page' : m'.Asks pageKey p'
  pos : 0 < n
  sizes : n ≤ n'
  pages : p ≤ p'

/-- The window that a search shows, by the numbers that it asks for. -/
theorem compile_shows_of_asks (hc : compile s m isPublic = some c) (hn : m.Asks maxResultsKey n)
    (hpos : 0 < n) (hp : m.Asks pageKey p) :
    c.Shows (sizeFor n) (offsetFor n p) ∧ c.page = pageFor p := by
  obtain ⟨hshows, hnumber⟩ := compile_shows hc
  rw [offset, page_of_asks hp, pageSize_of_asks hn hpos] at hshows
  exact ⟨hshows, hnumber.trans (page_of_asks hp)⟩

theorem AskInOrder.shows {n' p' : Nat} (h : AskInOrder s isPublic m m' c c' n n' p p') :
    (c.Shows (sizeFor n) (offsetFor n p) ∧ c.page = pageFor p) ∧
      (c'.Shows (sizeFor n') (offsetFor n' p') ∧ c'.page = pageFor p') :=
  ⟨compile_shows_of_asks h.compiled h.size h.pos h.page,
    compile_shows_of_asks h.compiled' h.size' (Nat.lt_of_lt_of_le h.pos h.sizes) h.page'⟩

/-- Of two searches in order, the second one has no smaller page and, for pages of one size, no
earlier window, unless a number is too great to be read. Consecutive pages are adjacent as long as
the number of results before them fits 32 bits. -/
theorem pages_ordered {n' p' : Nat} (h : AskInOrder s isPublic m m' c c' n n' p p') :
    c.SameList c' ∧
    (c.Shows (sizeFor n) (offsetFor n p) ∧ c.page = pageFor p) ∧
    (c'.Shows (sizeFor n') (offsetFor n' p') ∧ c'.page = pageFor p') ∧
    (1 ≤ sizeFor n ∧ sizeFor n ≤ 50) ∧ (1 ≤ sizeFor n' ∧ sizeFor n' ≤ 50) ∧
    (sizeFor n ≤ sizeFor n' ↔ ¬ (int64Max < n' ∧ 25 < n ∧ (n : Int) ≤ int64Max)) ∧
    (sizeFor n = sizeFor n' →
      (offsetFor n p ≤ offsetFor n' p' ↔ ¬ (uint32Max < p' ∧ 0 < p ∧ p ≤ uint32Max)) ∧
      (p' = p + 1 → p ≤ uint32Max → offsetFor n p < uint32Max → offsetFor n' p' < uint32Max →
        offsetFor n' p' = offsetFor n p + sizeFor n)) := by
  have hpos' : 0 < n' := Nat.lt_of_lt_of_le h.pos h.sizes
  refine ⟨sameList_of_sameBeside h.same h.compiled h.compiled', h.shows.1, h.shows.2,
    sizeFor_bounds h.pos, sizeFor_bounds hpos', sizeFor_le_iff h.pos h.sizes, fun hsame => ?_⟩
  have hoffset : offsetFor n' p' = offsetFor n p' := by rw [offsetFor, offsetFor, hsame]
  rw [hoffset]
  refine ⟨offsetFor_le_iff h.pos h.pages, ?_⟩
  rintro rfl hp hbefore hnext
  exact offsetFor_succ h.pos hp hbefore hnext

/-! ### A search by a word -/

/-- A search by a word that asks for a page. -/
def pageSearch (size page : String) : FilterMap :=
  ((Table.empty.insert termsKey ["falter"]).insert maxResultsKey [size]).insert pageKey [page]

theorem get?_pageSearch (size page key : String) : (pageSearch size page).get? key =
    if key = pageKey then some [page] else if key = maxResultsKey then some [size]
    else if key = termsKey then some ["falter"] else none := by
  simp only [pageSearch, Table.get?_insert, Table.get?_empty]

theorem exists_compile_pageSearch (size page : String) :
    ∃ c, compile Inventory.schema (pageSearch size page) true = some c := by
  have hfacet : ∀ key ∈ (pageSearch size page).keys, facetKey? key = none := by
    intro key hkey
    have hne := Table.mem_keys_iff_ne_none.1 hkey
    rw [get?_pageSearch] at hne
    have hmem : key ∈ [pageKey, maxResultsKey, termsKey] := by
      refine Classical.byContradiction fun hnot => ?_
      simp only [List.mem_cons, List.not_mem_nil, or_false, not_or] at hnot
      rw [if_neg hnot.1, if_neg hnot.2.1, if_neg hnot.2.2] at hne
      exact hne rfl
    clear hkey hne
    revert key
    decide
  have hterms : (pageSearch size page).get? termsKey = some ["falter"] := by
    rw [get?_pageSearch]
    rfl
  exact exists_compile_of_clause Inventory.build_entityTypes hfacet
    (.terms hterms (by decide +kernel))

/-- Searches by the word for two pages in order. -/
theorem exists_askInOrder (size size' page page' : String) (n n' p p' : Nat)
    (hsize : readNat? (Text.trimChars size.toList) = some n)
    (hsize' : readNat? (Text.trimChars size'.toList) = some n')
    (hpage : readNat? (Text.trimChars page.toList) = some p)
    (hpage' : readNat? (Text.trimChars page'.toList) = some p') (hpos : 0 < n) (hsizes : n ≤ n')
    (hpages : p ≤ p') : ∃ c c', AskInOrder Inventory.schema true (pageSearch size page)
      (pageSearch size' page') c c' n n' p p' := by
  obtain ⟨c, hc⟩ := exists_compile_pageSearch size page
  obtain ⟨c', hc'⟩ := exists_compile_pageSearch size' page'
  have hasks : ∀ size page, (pageSearch size page).first? maxResultsKey = some size ∧
      (pageSearch size page).first? pageKey = some page := fun size page => by
    rw [FilterMap.first?, FilterMap.first?, get?_pageSearch, get?_pageSearch]
    exact ⟨rfl, rfl⟩
  refine ⟨c, c', fun key hkey => ?_, hc, hc', ⟨size, (hasks _ _).1, hsize⟩,
    ⟨size', (hasks _ _).1, hsize'⟩, ⟨page, (hasks _ _).2, hpage⟩, ⟨page', (hasks _ _).2, hpage'⟩,
    hpos, hsizes, hpages⟩
  simp only [List.mem_cons, List.not_mem_nil, or_false, not_or] at hkey
  rw [get?_pageSearch, get?_pageSearch, if_neg hkey.1, if_neg hkey.2, if_neg hkey.1, if_neg hkey.2]

/-- The third page of ten results lies after the second one. -/
theorem pages_ordered_falter : ∃ c c', AskInOrder Inventory.schema true (pageSearch "10" "1")
      (pageSearch "10" "2") c c' 10 10 1 2 ∧
    c.SameList c' ∧ c.Shows 10 10 ∧ c'.Shows 10 20 := by
  obtain ⟨c, c', h⟩ := exists_askInOrder "10" "10" "1" "2" 10 10 1 2 (by decide) (by decide)
    (by decide) (by decide) (by decide) (by decide) (by decide)
  obtain ⟨hlist, ⟨hshows, -⟩, ⟨hshows', -⟩, -⟩ := pages_ordered h
  exact ⟨c, c', h, hlist, hshows, hshows'⟩

/-- Beyond what is read, a greater number of results makes a smaller page, a later page an earlier
window, and consecutive pages show the same window. -/
theorem pages_disordered :
    (¬ ∀ m m' c c' n n' p p', AskInOrder Inventory.schema true m m' c c' n n' p p' →
      c.pageSize ≤ c'.pageSize) ∧
    (¬ ∀ m m' c c' n n' p p', AskInOrder Inventory.schema true m m' c c' n n' p p' →
      ∀ size offset offset', c.Shows size offset → c'.Shows size offset' → offset ≤ offset') ∧
    (¬ ∀ m m' c c' n n' p p', AskInOrder Inventory.schema true m m' c c' n n' p p' → p' = p + 1 →
      ∀ size offset offset', c.Shows size offset → c'.Shows size offset' → offset < uint32Max →
        offset' < uint32Max → offset' = offset + size) := by
  refine ⟨fun hall => ?_, fun hall => ?_, fun hall => ?_⟩
  · obtain ⟨c, c', h⟩ := exists_askInOrder "40" "9223372036854775808" "0" "0"
      40 9223372036854775808 0 0
      (by decide) (by decide) (by decide) (by decide) (by decide) (by decide) (by decide)
    have hle := hall _ _ _ _ _ _ _ _ h
    rw [h.shows.1.1.size_eq, h.shows.2.1.size_eq] at hle
    exact absurd hle (by decide)
  · obtain ⟨c, c', h⟩ := exists_askInOrder "25" "25" "1" "4294967296" 25 25 1 4294967296
      (by decide) (by decide) (by decide) (by decide) (by decide) (by decide) (by decide)
    exact absurd (hall _ _ _ _ _ _ _ _ h _ _ _ h.shows.1.1 h.shows.2.1) (by decide)
  · obtain ⟨c, c', h⟩ := exists_askInOrder "25" "25" "4294967296" "4294967297"
      25 25 4294967296 4294967297
      (by decide) (by decide) (by decide) (by decide) (by decide) (by decide) (by decide)
    exact absurd (hall _ _ _ _ _ _ _ _ h rfl _ _ _ h.shows.1.1 h.shows.2.1 (by decide) (by decide))
      (by decide)

end Search

end PressRegister
