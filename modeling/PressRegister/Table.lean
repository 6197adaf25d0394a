/-!
# Tables

Finite maps from texts to values. The entries stand in the order of their keys,
each key once, so two tables with the same look-ups are equal.

## Main definitions

* `Table`: entries in key order.
* `Table.get?`, `Table.insert`, `Table.erase`, `Table.modify`: look-up and changes by key.
* `Table.filter`, `Table.map`, `Table.ofList`: tables made from tables and lists.

## Main results

* `Table.get?_insert`, `Table.get?_erase`, `Table.get?_map`: every operation through look-ups.
* `Table.flatMap_entries_eq`: what one entry alone contributes to.
* `Table.filterMap_entries_eq`: what all entries contribute to.
* `Table.ext`: a table is determined by its look-ups.
-/

namespace PressRegister

/-- Whether the entries of a list stand in key order, each key once. -/
def KeysIncrease {α : Type} (entries : List (String × α)) : Prop :=
  entries.Pairwise fun a b => a.1 < b.1

/-- A finite map from texts to values. -/
structure Table (α : Type) where
  entries : List (String × α)
  sorted : KeysIncrease entries

namespace Table

variable {α β : Type}

instance [DecidableEq α] : DecidableEq (Table α) := fun a b =>
  if h : a.entries = b.entries then
    .isTrue (by cases a; cases b; cases h; rfl)
  else .isFalse fun hab => h (hab ▸ rfl)

instance [BEq α] : BEq (Table α) := ⟨fun a b => a.entries == b.entries⟩

instance [Repr α] : Repr (Table α) := ⟨fun t => reprPrec t.entries⟩

/-- The table without entries. -/
def empty : Table α := ⟨[], .nil⟩

instance : Inhabited (Table α) := ⟨empty⟩

/-- The value of a key in a list of entries. -/
def find (key : String) : List (String × α) → Option α
  | [] => none
  | e :: rest => if key = e.1 then some e.2 else find key rest

/-- The value of a key. -/
def get? (t : Table α) (key : String) : Option α :=
  find key t.entries

/-- Whether a key has a value. -/
def contains (t : Table α) (key : String) : Bool :=
  (t.get? key).isSome

/-- The keys in order. -/
def keys (t : Table α) : List String :=
  t.entries.map (·.1)

/-- The values in the order of their keys. -/
def values (t : Table α) : List α :=
  t.entries.map (·.2)

/-- Whether a table has no entries. -/
def isEmpty (t : Table α) : Bool :=
  t.entries.isEmpty

/-- The number of entries. -/
def size (t : Table α) : Nat :=
  t.entries.length

/-- Puts an entry in its place, over an entry of the same key. -/
def place (key : String) (value : α) : List (String × α) → List (String × α)
  | [] => [(key, value)]
  | e :: rest =>
    if key < e.1 then (key, value) :: e :: rest
    else if key = e.1 then (key, value) :: rest
    else e :: place key value rest

theorem mem_place {key : String} {value : α} {entries : List (String × α)} {e : String × α}
    (h : e ∈ place key value entries) : e = (key, value) ∨ e ∈ entries := by
  induction entries with
  | nil => simpa [place] using h
  | cons d rest ih =>
    simp only [place] at h
    split at h
    · rcases List.mem_cons.1 h with h | h
      · exact .inl h
      · exact .inr h
    · split at h
      · rcases List.mem_cons.1 h with h | h
        · exact .inl h
        · exact .inr (List.mem_cons_of_mem _ h)
      · rcases List.mem_cons.1 h with h | h
        · exact .inr (h ▸ List.mem_cons_self)
        · rcases ih h with h | h
          · exact .inl h
          · exact .inr (List.mem_cons_of_mem _ h)

theorem lt_of_not_lt_of_ne {a b : String} (h : ¬ a < b) (hne : a ≠ b) : b < a := by
  rcases Std.lt_trichotomy a b with h' | h' | h'
  · exact absurd h' h
  · exact absurd h' hne
  · exact h'

theorem place_sorted (key : String) (value : α) {entries : List (String × α)}
    (h : KeysIncrease entries) : KeysIncrease (place key value entries) := by
  induction entries with
  | nil => exact List.pairwise_singleton _ _
  | cons d rest ih =>
    obtain ⟨hd, hrest⟩ := List.pairwise_cons.1 h
    simp only [place]
    split
    · rename_i hlt
      refine List.pairwise_cons.2 ⟨fun e he => ?_, h⟩
      rcases List.mem_cons.1 he with he | he
      · exact he ▸ hlt
      · exact String.lt_trans hlt (hd e he)
    · split
      · rename_i _ heq
        subst heq
        exact List.pairwise_cons.2 ⟨hd, hrest⟩
      · rename_i hlt hne
        refine List.pairwise_cons.2 ⟨fun e he => ?_, ih hrest⟩
        rcases mem_place he with he | he
        · exact he ▸ lt_of_not_lt_of_ne hlt hne
        · exact hd e he

/-- Sets the value of a key. -/
def insert (t : Table α) (key : String) (value : α) : Table α :=
  ⟨place key value t.entries, place_sorted key value t.sorted⟩

/-- Removes a key. -/
def erase (t : Table α) (key : String) : Table α :=
  ⟨t.entries.filter fun e => e.1 != key, t.sorted.filter _⟩

/-- Keeps the entries that satisfy a condition. -/
def filter (t : Table α) (keep : String → α → Bool) : Table α :=
  ⟨t.entries.filter fun e => keep e.1 e.2, t.sorted.filter _⟩

/-- Changes every value, knowing its key. -/
def map (t : Table α) (f : String → α → β) : Table β :=
  ⟨t.entries.map fun e => (e.1, f e.1 e.2), by
    unfold KeysIncrease
    rw [List.pairwise_map]
    exact t.sorted⟩

/-- Changes the value of a key, if it has one. -/
def modify (t : Table α) (key : String) (f : α → α) : Table α :=
  match t.get? key with
  | some value => t.insert key (f value)
  | none => t

/-- The table of a list of entries; of two with one key the later counts. -/
def ofList (entries : List (String × α)) : Table α :=
  entries.foldl (fun t e => t.insert e.1 e.2) empty

/-- The first key, in order, whose entry satisfies a condition. -/
def findKey? (t : Table α) (p : String → α → Bool) : Option String :=
  (t.entries.find? fun e => p e.1 e.2).map (·.1)

/-! ### Look-ups -/

@[simp] theorem get?_empty (key : String) : (empty : Table α).get? key = none := rfl

theorem find_place (key other : String) (value : α) (entries : List (String × α)) :
    find other (place key value entries) =
      if other = key then some value else find other entries := by
  induction entries with
  | nil => simp [place, find]
  | cons d rest ih =>
    simp only [place]
    split
    · simp [find]
    · split
      · rename_i _ heq
        simp only [find, heq]
        split <;> simp_all
      · rename_i _ hne
        simp only [find, ih]
        by_cases h1 : other = d.1 <;> by_cases h2 : other = key <;> simp_all

theorem get?_insert (t : Table α) (key other : String) (value : α) :
    (t.insert key value).get? other = if other = key then some value else t.get? other :=
  find_place key other value t.entries

@[simp] theorem get?_insert_self (t : Table α) (key : String) (value : α) :
    (t.insert key value).get? key = some value := by
  simp [get?_insert]

theorem find_filter_ne (key other : String) (entries : List (String × α)) :
    find other (entries.filter fun e => e.1 != key) =
      if other = key then none else find other entries := by
  induction entries with
  | nil => simp [find]
  | cons d rest ih =>
    by_cases hd : d.1 = key
    · rw [List.filter_cons_of_neg (by simp [hd]), ih]
      by_cases ho : other = key
      · simp [ho]
      · simp only [ho, if_false, find]
        rw [if_neg (fun h => ho (h.trans hd))]
    · rw [List.filter_cons_of_pos (by simp [hd])]
      simp only [find, ih]
      by_cases ho : other = key
      · subst ho
        rw [if_neg (fun h => hd h.symm)]
        simp
      · simp [ho]

theorem get?_erase (t : Table α) (key other : String) :
    (t.erase key).get? other = if other = key then none else t.get? other :=
  find_filter_ne key other t.entries

theorem find_map (f : String → α → β) (key : String) (entries : List (String × α)) :
    find key (entries.map fun e => (e.1, f e.1 e.2)) = (find key entries).map (f key) := by
  induction entries with
  | nil => rfl
  | cons d rest ih =>
    simp only [List.map_cons, find, ih]
    by_cases h : key = d.1
    · simp [h]
    · simp [h]

theorem get?_map (t : Table α) (f : String → α → β) (key : String) :
    (t.map f).get? key = (t.get? key).map (f key) :=
  find_map f key t.entries

theorem get?_modify (t : Table α) (key other : String) (f : α → α) :
    (t.modify key f).get? other = if other = key then (t.get? key).map f else t.get? other := by
  unfold modify
  cases h : t.get? key with
  | none =>
    by_cases ho : other = key
    · simp [ho, h]
    · simp [ho]
  | some value => simp [get?_insert]

theorem find_eq_some_of_mem {entries : List (String × α)} (h : KeysIncrease entries)
    {e : String × α} (he : e ∈ entries) : find e.1 entries = some e.2 := by
  induction entries with
  | nil => cases he
  | cons d rest ih =>
    obtain ⟨hd, hrest⟩ := List.pairwise_cons.1 h
    rcases List.mem_cons.1 he with he | he
    · simp [find, he]
    · have hlt := hd e he
      have hne : e.1 ≠ d.1 := fun heq => String.lt_irrefl _ (heq ▸ hlt)
      simp [find, hne, ih hrest he]

theorem mem_of_find_eq_some {entries : List (String × α)} {key : String} {value : α}
    (h : find key entries = some value) : (key, value) ∈ entries := by
  induction entries with
  | nil => cases h
  | cons d rest ih =>
    simp only [find] at h
    split at h
    · rename_i hk
      cases h
      exact hk ▸ List.mem_cons_self
    · exact List.mem_cons_of_mem _ (ih h)

/-- A key has a value exactly if their entry is in the table. -/
theorem get?_eq_some_iff {t : Table α} {key : String} {value : α} :
    t.get? key = some value ↔ (key, value) ∈ t.entries :=
  ⟨mem_of_find_eq_some, fun h => find_eq_some_of_mem t.sorted h⟩

/-- The keys are those that have a value. -/
theorem mem_keys_iff {t : Table α} {key : String} :
    key ∈ t.keys ↔ ∃ value, t.get? key = some value := by
  simp only [keys, List.mem_map, get?_eq_some_iff, Prod.exists]
  constructor
  · rintro ⟨k, value, h, rfl⟩
    exact ⟨value, h⟩
  · rintro ⟨value, h⟩
    exact ⟨key, value, h, rfl⟩

/-- The values are those that a key has. -/
theorem mem_values_iff {t : Table α} {value : α} :
    value ∈ t.values ↔ ∃ key, t.get? key = some value := by
  simp only [values, List.mem_map, get?_eq_some_iff, Prod.exists]
  constructor
  · rintro ⟨key, v, h, rfl⟩
    exact ⟨key, h⟩
  · rintro ⟨key, h⟩
    exact ⟨key, value, h, rfl⟩

theorem mem_keys_iff_contains {t : Table α} {key : String} :
    key ∈ t.keys ↔ t.contains key = true := by
  rw [mem_keys_iff, contains, Option.isSome_iff_exists]

theorem mem_keys_iff_ne_none {t : Table α} {key : String} :
    key ∈ t.keys ↔ t.get? key ≠ none := by
  rw [mem_keys_iff, Option.ne_none_iff_exists']

/-- Every key stands once. -/
theorem nodup_keys (t : Table α) : t.keys.Nodup := by
  refine List.pairwise_map.2 (List.Pairwise.imp ?_ t.sorted)
  intro a b hlt heq
  rw [heq] at hlt
  exact Std.lt_irrefl hlt

theorem get?_filter (t : Table α) (keep : String → α → Bool) (key : String) :
    (t.filter keep).get? key = (t.get? key).filter (keep key) := by
  refine Option.ext fun value => ?_
  rw [get?_eq_some_iff, Option.filter_eq_some_iff, get?_eq_some_iff]
  exact List.mem_filter

/-- Lists read off the entries of a table, if all entries but one give nothing. -/
theorem flatMap_entries_eq (t : Table α) (key : String) (f : String × α → List β)
    (h : ∀ e ∈ t.entries, e.1 ≠ key → f e = []) :
    t.entries.flatMap f = ((t.get? key).map fun value => f (key, value)).getD [] := by
  obtain ⟨entries, sorted⟩ := t
  simp only [get?] at h ⊢
  induction entries with
  | nil => rfl
  | cons d rest ih =>
    obtain ⟨hd, hrest⟩ := List.pairwise_cons.1 sorted
    have ih := ih hrest fun e he => h e (List.mem_cons_of_mem _ he)
    rw [List.flatMap_cons, find]
    split
    · rename_i heq
      subst heq
      have hnil : rest.flatMap f = [] := by
        rw [List.flatMap_eq_nil_iff]
        refine fun e he => h e (List.mem_cons_of_mem _ he) fun heq => ?_
        exact String.lt_irrefl _ (heq ▸ hd e he)
      simp [hnil]
    · rename_i hne
      rw [h d List.mem_cons_self (Ne.symm hne), List.nil_append, ih]

theorem entries_eq_of_find_eq {as bs : List (String × α)} (ha : KeysIncrease as)
    (hb : KeysIncrease bs) (h : ∀ key, find key as = find key bs) : as = bs := by
  induction as generalizing bs with
  | nil =>
    cases bs with
    | nil => rfl
    | cons b bs => have := h b.1; simp [find] at this
  | cons a as ih =>
    cases bs with
    | nil => have := h a.1; simp [find] at this
    | cons b bs =>
      obtain ⟨ha', has⟩ := List.pairwise_cons.1 ha
      obtain ⟨hb', hbs⟩ := List.pairwise_cons.1 hb
      have hkey : a.1 = b.1 := by
        rcases Std.lt_trichotomy a.1 b.1 with hlt | heq | hgt
        · have hne : a.1 ≠ b.1 := fun heq => String.lt_irrefl _ (heq ▸ hlt)
          have h1 := h a.1
          simp only [find, if_true, hne, if_false] at h1
          have hmem := mem_of_find_eq_some h1.symm
          exact absurd (String.lt_trans hlt (hb' _ hmem)) (String.lt_irrefl _)
        · exact heq
        · have hne : b.1 ≠ a.1 := fun heq => String.lt_irrefl _ (heq ▸ hgt)
          have h1 := h b.1
          simp only [find, if_true, hne, if_false] at h1
          have hmem := mem_of_find_eq_some h1
          exact absurd (String.lt_trans hgt (ha' _ hmem)) (String.lt_irrefl _)
      have hval : a.2 = b.2 := by
        have h1 := h a.1
        simpa [find, hkey] using h1
      have hab : a = b := Prod.ext hkey hval
      subst hab
      congr 1
      refine ih has hbs fun key => ?_
      have h1 := h key
      simp only [find] at h1
      by_cases hk : key = a.1
      · subst hk
        have hnone : ∀ (l : List (String × α)), (∀ e ∈ l, a.1 < e.1) → find a.1 l = none := by
          intro l hl
          cases hf : find a.1 l with
          | none => rfl
          | some v =>
            exact absurd (hl _ (mem_of_find_eq_some hf)) (String.lt_irrefl _)
        rw [hnone as ha', hnone bs hb']
      · simpa [hk] using h1

theorem find_filterMap (f : String → α → Option β) (key : String) {entries : List (String × α)}
    (h : KeysIncrease entries) :
    find key (entries.filterMap fun e => (f e.1 e.2).map (e.1, ·)) =
      (find key entries).bind (f key) := by
  induction entries with
  | nil => rfl
  | cons d rest ih =>
    obtain ⟨hd, hrest⟩ := List.pairwise_cons.1 h
    rw [List.filterMap_cons, find]
    by_cases hkey : key = d.1
    · subst hkey
      rw [if_pos rfl, Option.bind_some]
      cases hf : f d.1 d.2 with
      | some value => simp [find]
      | none =>
        -- the key stands nowhere else
        have hnone : find d.1 rest = none := by
          cases hfind : find d.1 rest with
          | none => rfl
          | some value =>
            exact absurd (hd _ (mem_of_find_eq_some hfind)) (String.lt_irrefl _)
        rw [Option.map_none]
        exact (ih hrest).trans (by rw [hnone, Option.bind_none])
    · rw [if_neg hkey, ← ih hrest]
      cases f d.1 d.2 with
      | none => rfl
      | some value => simp [find, hkey]

theorem filterMap_sorted (f : String → α → Option β) {entries : List (String × α)}
    (h : KeysIncrease entries) :
    KeysIncrease (entries.filterMap fun e => (f e.1 e.2).map (e.1, ·)) := by
  refine List.Pairwise.filterMap _ (fun a b hab c hc d hd => ?_) h
  obtain ⟨_, -, rfl⟩ := Option.map_eq_some_iff.1 hc
  obtain ⟨_, -, rfl⟩ := Option.map_eq_some_iff.1 hd
  exact hab

/-- Lists read off the entries of two tables, if the entries of each key give the same. -/
theorem filterMap_entries_eq {γ : Type} {s : Table α} {t : Table β} {f : String → α → Option γ}
    {g : String → β → Option γ}
    (h : ∀ key, (s.get? key).bind (f key) = (t.get? key).bind (g key)) :
    s.entries.filterMap (fun e => f e.1 e.2) = t.entries.filterMap fun e => g e.1 e.2 := by
  have hkeyed := entries_eq_of_find_eq (filterMap_sorted f s.sorted) (filterMap_sorted g t.sorted)
    fun key => by rw [find_filterMap f key s.sorted, find_filterMap g key t.sorted]; exact h key
  have hvalues := congrArg (List.map (·.2)) hkeyed
  simpa [List.map_filterMap, Function.comp_def] using hvalues

/-- A table is determined by its look-ups. -/
theorem ext {s t : Table α} (h : ∀ key, s.get? key = t.get? key) : s = t := by
  cases s with
  | mk as ha =>
    cases t with
    | mk bs hb =>
      have : as = bs := entries_eq_of_find_eq ha hb h
      subst this
      rfl

end Table

end PressRegister
