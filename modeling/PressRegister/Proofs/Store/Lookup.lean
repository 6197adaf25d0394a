import PressRegister.Proofs.Consult
import PressRegister.Proofs.Store.Commit
import PressRegister.Proofs.Text.Ascii
import PressRegister.Store.Answer
import PressRegister.Naming

/-!
# Look-ups in the node table

What a look-up yields when the node table answers it: the first node that has a
unique name, and the types of a node as they are stored. No look-up touches the
supply of random names.

## Main definitions

* `Store.directory`: what can be known of a store.
* `Store.answerOf`: the answer to a question whose text is read off its bytes.
* `Store.IsFree`: no node has a unique name.
* `Store.toldTypes`: the types that answers tell of a node.
* `Store.KeepsTypesApart`: types are stored as types alone.

## Main results

* `Store.directory_eq`: what can be known of a store, for the evaluation of closed facts.
* `Store.findUid_yields`: which node a unique name belongs to.
* `Store.findUid_eq_none_iff`: a unique name that leads to no node is free.
* `Store.types_yields`: which types a node has.
* `Store.KeepsTypesApart.commit`: a commit stores types as types.
* `Store.entryInfo_yields`: the types of an entry are the stored ones.
* `Lookup.findUid_draws`, `Lookup.types_draws`, `Lookup.uniqueName_draws`,
  `Lookup.entryInfo_draws`: look-ups draw nothing.
-/

namespace PressRegister

/-! ### Look-ups draw nothing -/

namespace Lookup

variable (d : Directory)

theorem askRows_draws {α : Type} (read? : Json → Option α) (q : Question) :
    (askRows d read? q).Draws :=
  .bind (.ask d q) fun _ => .settle _

theorem findUid_draws (field value : String) : (findUid d field value).Draws := by
  unfold findUid
  split
  · exact .fail _
  · exact .bind (askRows_draws d _ _) fun _ => .pure _

theorem types_draws (u : Uid) : (types d u).Draws :=
  .bind (askRows_draws d _ _) fun _ => .pure _

theorem uniqueName_draws (u : Uid) : (uniqueName d u).Draws :=
  .bind (askRows_draws d _ _) fun _ => .pure _

theorem entryInfo_draws (u : Uid) : (entryInfo d u).Draws := by
  refine .bind (askRows_draws d _ _) fun found => ?_
  cases found.head? with
  | none => exact .pure _
  | some row => exact .settle _

/-- The types, the status and the submitter of a row are read from its members. -/
theorem Row.read?_object {members : List (String × Json)} {row : Row}
    (h : Row.read? (.object members) = some row) :
    textList? ((Json.object members).member? "dgraph.type") = some row.types ∧
      optionalText? ((Json.object members).member? "entry_review_status") = some row.status ∧
      optionalUidRow? ((Json.object members).member? "entry_added") = some row.submitter := by
  simp only [Row.read?, fieldValues?, List.map_cons, List.map_nil, Option.bind_eq_bind,
    Option.bind_eq_some_iff] at h
  obtain ⟨_, -, _, -, types, htypes, status, hstatus, submitter, hsubmitter, hrow⟩ := h
  obtain rfl := Option.some.inj hrow
  exact ⟨htypes, hstatus, hsubmitter⟩

end Lookup

/-! ### Answers -/

namespace Json

/-- The members of an object that is made of a table are looked up in the table. -/
theorem lookup_entries {α : Type} (t : Table α) (key : String) :
    t.entries.lookup key = t.get? key := by
  unfold Table.get?
  generalize t.entries = entries
  induction entries with
  | nil => rfl
  | cons e rest ih =>
    rw [List.lookup_cons, Table.find, ih]
    by_cases h : key = e.1
    · simp [h]
    · rw [if_neg h, beq_eq_false_iff_ne.2 h]

theorem member?_ofMembers (members : List (String × Json)) (name : String) :
    (ofMembers members).member? name = (Table.ofList members).get? name :=
  lookup_entries _ _

end Json

namespace Table

variable {α : Type}

/-- Where a table is put over another one, its values count. -/
theorem get?_foldl_insert (t under : Table α) (key : String) :
    (t.entries.foldl (fun t e => t.insert e.1 e.2) under).get? key =
      (t.get? key).or (under.get? key) := by
  obtain ⟨entries, hsorted⟩ := t
  have hget : Table.get? ⟨entries, hsorted⟩ key = find key entries := rfl
  rw [hget]
  clear hget
  induction entries generalizing under with
  | nil => rfl
  | cons e rest ih =>
    obtain ⟨hfirst, hrest⟩ := List.pairwise_cons.1 hsorted
    rw [List.foldl_cons, ih _ hrest, get?_insert, find]
    by_cases hkey : key = e.1
    · subst hkey
      have hnone : find e.1 rest = none := by
        cases hfind : find e.1 rest with
        | none => rfl
        | some v =>
          exact absurd (hfirst _ (mem_of_find_eq_some hfind)) (String.lt_irrefl _)
      simp [hnone]
    · simp [hkey]

end Table

namespace Store

/-- What can be known of a store; `fixed` answers all questions but look-ups. -/
def directory (s : Store) (schema : Schema) (fixed : Option Json) : Directory where
  schema := schema
  answer q := .ok (s.answer fixed q)

/-- The answer to a question whose text is read off its bytes. -/
def answerOf (s : Store) (fixed : Option Json) (q : Question) : Json :=
  match valueField? (Text.charsOf q.text) with
  | some field =>
    let value := (q.bindings.get? "$value").getD ""
    rowsJson ((s.holder? field value).map fun u => Json.object [("uid", .string u)]).toList
  | none =>
    if occurs "uid($uid)".toList (Text.charsOf q.text) then
      rowsJson (s.row? ((q.bindings.get? "$uid").getD "")).toList
    else fixed.getD noResults

theorem answer_eq : answer = answerOf := by
  funext s fixed q
  simp only [answerOf, Text.charsOf_eq]
  rfl

/-- Closed facts about what is made of the answers of a store are decided faster for this form. -/
theorem directory_eq : directory =
    fun s schema fixed => ⟨schema, fun q => .ok (s.answerOf fixed q)⟩ := by
  rw [← answer_eq]
  rfl

/-- No node has a unique name. -/
def IsFree (s : Store) (name : String) : Prop :=
  ∀ w, name ∉ s.valuesAt w "unique_name"

variable {s : Store} {schema : Schema} {fixed : Option Json} {before after : Desk}

/-! ### Holders of a value -/

theorem holder?_eq_none {field value : String} :
    s.holder? field value = none ↔ ∀ w, value ∉ s.valuesAt w field := by
  unfold holder? Table.findKey?
  rw [Option.map_eq_none_iff, List.find?_eq_none]
  constructor
  · intro h w hw
    obtain ⟨n, hn⟩ := exists_node_of_mem_valuesAt hw
    rw [valuesAt, nodeAt_of_node? hn] at hw
    exact h (w, n) (Table.get?_eq_some_iff.1 hn) (by simpa using hw)
  · rintro h ⟨w, n⟩ hmem hcontains
    refine h w ?_
    rw [valuesAt, nodeAt_of_node? (Table.get?_eq_some_iff.2 hmem)]
    simpa using hcontains

theorem holder?_eq_some {field value w : String} (h : s.holder? field value = some w) :
    value ∈ s.valuesAt w field := by
  unfold holder? Table.findKey? at h
  obtain ⟨⟨w', n⟩, hfind, rfl⟩ := Option.map_eq_some_iff.1 h
  have hn : s.node? w' = some n := Table.get?_eq_some_iff.2 (List.mem_of_find?_eq_some hfind)
  have hcontains := List.find?_some hfind
  rw [valuesAt, nodeAt_of_node? hn]
  simpa using hcontains

/-- The question for a unique name is answered by the node that has it. -/
theorem answer_valueQuestion (value : String) :
    s.answer fixed (Lookup.valueQuestion "unique_name" value) = rowsJson
      ((s.holder? "unique_name" value).map fun u => Json.object [("uid", .string u)]).toList := by
  -- the text of the question does not depend on the value
  have htext : valueField? (Text.charsOf (Lookup.valueQuestion "unique_name" "").text) =
      some "unique_name" := by
    decide +kernel
  have hfield : valueField? (Text.charsOf (Lookup.valueQuestion "unique_name" value).text) =
      some "unique_name" := htext
  rw [answer_eq, answerOf, hfield]
  rfl

/-- The node that a unique name belongs to is the first one that has it. -/
theorem findUid_yields {value : String} {r : Option Uid}
    (h : (Lookup.findUid (s.directory schema fixed) "unique_name" value).Yields before r after) :
    r = (s.holder? "unique_name" value).bind Uid.parse? ∧ after.supply = before.supply := by
  unfold Lookup.findUid at h
  split at h
  · exact (Consult.not_yields_fail h).elim
  · simp only [Lookup.askRows, Consult.yields_bind, Consult.yields_ask, Consult.yields_settle,
      Consult.yields_pure] at h
    obtain ⟨rows, mid, ⟨answer, mid', ⟨hanswer, rfl⟩, hrows, rfl⟩, rfl, rfl⟩ := h
    have hanswer : answer = s.answer fixed (Lookup.valueQuestion "unique_name" value) :=
      (Except.ok.inj hanswer).symm
    rw [hanswer, answer_valueQuestion] at hrows
    refine ⟨?_, rfl⟩
    cases hholder : s.holder? "unique_name" value with
    | none =>
      rw [hholder] at hrows
      cases hrows
      rfl
    | some w =>
      rw [hholder] at hrows
      cases hrows
      rfl

/-- A unique name is free exactly if it leads to no node, when all nodes have identifiers. -/
theorem findUid_eq_none_iff (hsound : s.Sound) {name : String} {r : Option Uid}
    (h : (Lookup.findUid (s.directory schema fixed) "unique_name" name).Yields before r after) :
    r = none ↔ s.IsFree name := by
  obtain ⟨rfl, -⟩ := findUid_yields h
  unfold IsFree
  rw [← holder?_eq_none]
  cases hholder : s.holder? "unique_name" name with
  | none => simp
  | some w =>
    obtain ⟨u, rfl⟩ := hsound w "unique_name" name (by decide) (holder?_eq_some hholder)
    simp [Uid.parse?_text]

theorem isTaken_yields (hsound : s.Sound) {name : String} {r : Bool}
    (h : (Naming.isTaken (s.directory schema fixed) name).Yields before r after) :
    (r = false ↔ s.IsFree name) ∧ after.supply = before.supply := by
  simp only [Naming.isTaken, Consult.yields_bind, Consult.yields_pure] at h
  obtain ⟨holder, mid, hfind, rfl, rfl⟩ := h
  refine ⟨?_, (findUid_yields hfind).2⟩
  rw [← findUid_eq_none_iff hsound hfind]
  cases holder <;> simp

/-! ### Fields of nodes -/

/-- The question for an entry is answered by the fields of its node. -/
theorem answer_entryQuestion (u : Uid) :
    s.answer fixed (Lookup.nodeQuestion "check_entry" Lookup.entrySelections u) =
      rowsJson (s.row? u.text).toList := by
  have htext : ∀ v : Uid, (Lookup.nodeQuestion "check_entry" Lookup.entrySelections v).text =
      (Lookup.nodeQuestion "check_entry" Lookup.entrySelections (Uid.ofNat 0)).text :=
    fun _ => rfl
  have hfield : valueField? (Text.charsOf (Lookup.nodeQuestion "check_entry"
      Lookup.entrySelections (Uid.ofNat 0)).text) = none := by
    decide +kernel
  have hoccurs : occurs "uid($uid)".toList (Text.charsOf (Lookup.nodeQuestion "check_entry"
      Lookup.entrySelections (Uid.ofNat 0)).text) = true := by
    decide +kernel
  rw [answer_eq, answerOf, htext u, hfield]
  simp only [hoccurs, if_true]
  rfl

/-- What the question for the types of a node asks for. -/
def typesQuestion (u : Uid) : Question :=
  Lookup.nodeQuestion "types" [.field "uid", .field "dgraph.type"] u

/-- The question for the types of a node is answered by its fields. -/
theorem answer_typesQuestion (u : Uid) :
    s.answer fixed (typesQuestion u) = rowsJson (s.row? u.text).toList := by
  have hfield : valueField? (Text.charsOf (typesQuestion (Uid.ofNat 0)).text) = none := by
    decide +kernel
  have hoccurs : occurs "uid($uid)".toList
      (Text.charsOf (typesQuestion (Uid.ofNat 0)).text) = true := by
    decide +kernel
  have htext : (typesQuestion u).text = (typesQuestion (Uid.ofNat 0)).text := rfl
  rw [answer_eq, answerOf, htext, hfield]
  simp only [hoccurs, if_true]
  rfl

theorem mapM_string?_map (texts : List String) :
    (texts.map Json.string).mapM Json.string? = some texts := by
  induction texts with
  | nil => rfl
  | cons text rest ih => simp [List.mapM_cons, Json.string?, ih]

/-- What a row says of a field is what is stored, and apart from that it has the identifier and
the types. -/
theorem row?_eq_some {n : Node} {w : String} {raw : Json} (hn : s.node? w = some n)
    (hraw : s.row? w = some raw) : ∃ members, raw = .object members ∧ ∀ name,
      raw.member? name = ((n.fields.get? name).map (fieldJson name)).or
        ((Table.ofList [("uid", .string w), (Search.typeKey, Json.ofStrings n.types)]).get?
          name) := by
  unfold row? at hraw
  rw [hn] at hraw
  refine ⟨_, (Option.some.inj hraw).symm, fun name => ?_⟩
  have hfields : (n.fields.entries.map fun f => (f.1, fieldJson f.1 f.2)) =
      (n.fields.map fieldJson).entries := rfl
  rw [← Option.some.inj hraw, Json.member?_ofMembers, Table.ofList, List.foldl_append, hfields,
    Table.get?_foldl_insert, Table.get?_map]
  rfl

/-- The types that a row tells are the stored ones, if no field is named like them. -/
theorem types_of_row {n : Node} {w : String} {raw : Json} {row : Lookup.Row}
    (hn : s.node? w = some n) (htypes : n.fields.get? Search.typeKey = none)
    (hraw : s.row? w = some raw) (hread : Lookup.Row.read? raw = some row) :
    row.types = n.types := by
  obtain ⟨members, rfl, hmember⟩ := row?_eq_some hn hraw
  obtain ⟨hlist, -, -⟩ := Lookup.Row.read?_object hread
  have htold : (Table.ofList [("uid", .string w), (Search.typeKey, Json.ofStrings n.types)]).get?
      "dgraph.type" = some (Json.ofStrings n.types) := Table.get?_insert_self _ _ _
  rw [hmember, show n.fields.get? "dgraph.type" = none from htypes, Option.map_none,
    Option.none_or, htold] at hlist
  have hlist : (n.types.map Json.string).mapM Json.string? = some row.types := hlist
  rw [mapM_string?_map] at hlist
  exact (Option.some.inj hlist).symm

/-- A question that is answered by the row of a node finds what is read from the row. -/
theorem askRows_row {q : Question} {w : String} {found : List Lookup.Row}
    (hq : s.answer fixed q = rowsJson (s.row? w).toList)
    (h : (Lookup.askRows (s.directory schema fixed) Lookup.Row.read? q).Yields before found after) :
    s.node? w = none ∧ found = [] ∨ ∃ n raw row, s.node? w = some n ∧ s.row? w = some raw ∧
      Lookup.Row.read? raw = some row ∧ found = [row] := by
  simp only [Lookup.askRows, Consult.yields_bind, Consult.yields_ask, Consult.yields_settle] at h
  obtain ⟨answer, mid, ⟨hanswer, rfl⟩, hrows, rfl⟩ := h
  obtain rfl : rowsJson (s.row? w).toList = answer := hq.symm.trans (Except.ok.inj hanswer)
  cases hrow : s.row? w with
  | none =>
    rw [hrow] at hrows
    cases hrows
    exact .inl ⟨Option.map_eq_none_iff.1 hrow, rfl⟩
  | some raw =>
    obtain ⟨n, hn, -⟩ := Option.map_eq_some_iff.1 hrow
    rw [hrow] at hrows
    cases hread : Lookup.Row.read? raw with
    | none => simp [Lookup.rows, rowsJson, Json.member?, hread] at hrows
    | some row =>
      have hfound : found = [row] := by
        simpa [Lookup.rows, rowsJson, Json.member?, hread] using hrows.symm
      exact .inr ⟨n, raw, row, hn, rfl, hread, hfound⟩

/-! ### Types -/

/-- The types that answers tell of a node. A field that is named like the types is told in
their place. -/
def toldTypes (s : Store) (w : String) : List String :=
  ((s.node? w).map fun n => (n.fields.get? Search.typeKey).getD n.types).getD []

/-- No field of a node is named like its types. -/
def KeepsTypesApart (s : Store) : Prop :=
  ∀ w n, s.node? w = some n → n.fields.get? Search.typeKey = none

theorem KeepsTypesApart.toldTypes_eq (h : s.KeepsTypesApart) (w : String) :
    s.toldTypes w = s.typesAt w := by
  unfold toldTypes typesAt
  cases hn : s.node? w with
  | none => rw [nodeAt_of_none hn]; rfl
  | some n => rw [nodeAt_of_node? hn, Option.map_some, h w n hn]; rfl

theorem keepsTypesApart_iff :
    s.KeepsTypesApart ↔ ∀ w, (s.nodeAt w).fields.get? Search.typeKey = none := by
  constructor
  · intro h w
    cases hn : s.node? w with
    | none => rw [nodeAt_of_none hn]; rfl
    | some n => rw [nodeAt_of_node? hn]; exact h w n hn
  · intro h w n hn
    rw [← nodeAt_of_node? hn]
    exact h w

theorem KeepsTypesApart.addNode (h : s.KeepsTypesApart) {types : List String}
    {fields : List (String × String)} (hfields : ∀ f ∈ fields, f.1 ≠ Search.typeKey) :
    (s.addNode types fields).2.KeepsTypesApart := by
  have hvalues : ∀ (rest : List (String × String)) (t : Table (List String)),
      (∀ f ∈ rest, f.1 ≠ Search.typeKey) → t.get? Search.typeKey = none →
        (rest.foldl (fun t f => t.insert f.1 (((t.get? f.1).getD []) ++ [f.2])) t).get?
          Search.typeKey = none := by
    intro rest
    induction rest with
    | nil => exact fun t _ ht => ht
    | cons f rest ih =>
      intro t hrest ht
      obtain ⟨hf, hrest⟩ := List.forall_mem_cons.1 hrest
      rw [List.foldl_cons]
      exact ih _ hrest (by rw [Table.get?_insert, if_neg hf.symm, ht])
  intro w n hn
  change (s.nodes.insert _ _).get? w = some n at hn
  rw [Table.get?_insert] at hn
  split at hn
  · rw [← Option.some.inj hn]
    exact hvalues fields .empty hfields rfl
  · exact h w n hn

/-- A deletion leaves no values where there were none. -/
theorem get?_deletion {q : Statement} {f : Node → Node} (h : deletion? q = some f) {n : Node}
    {p : String} (hn : n.fields.get? p = none) : (f n).fields.get? p = none := by
  have hremove (key v : String) : (n.remove key v).fields.get? p = none := by
    unfold Node.remove
    rw [Table.get?_modify]
    split
    · rename_i heq
      rw [← heq, hn, Option.map_none]
    · exact hn
  have hclear (key : String) : (n.clear key).fields.get? p = none := by
    unfold Node.clear
    rw [Table.get?_erase, hn, ite_self]
  unfold deletion? at h
  cases hv : q.object.value <;> simp only [hv, Option.some.injEq, reduceCtorEq] at h
  all_goals subst h
  · exact hremove _ _
  · exact hremove _ _
  · exact hclear _

theorem KeepsTypesApart.delete (h : s.KeepsTypesApart) (vars : Table (List String))
    (q : Statement) : (s.delete vars q).KeepsTypesApart := by
  rw [keepsTypesApart_iff] at h ⊢
  intro w
  rw [delete_eq]
  cases hq : deletion? q with
  | none => exact h w
  | some f =>
    rw [Option.map_some, Option.getD_some, nodeAt_change (settles_deletion hq)]
    split
    · exact get?_deletion hq (h w)
    · exact h w

/-- A type that is set is entered among the types. -/
theorem KeepsTypesApart.set {st : Store × NewUids} (h : st.1.KeepsTypesApart) (q : Statement) :
    (set schema st q).1.KeepsTypesApart := by
  rw [keepsTypesApart_iff] at h ⊢
  intro w
  obtain ⟨mid, hnames, ⟨-, u, v, -, -, hset⟩ | ⟨-, hset⟩⟩ := set_cases schema st q
  · rw [hset, nodeAt_upsert, hnames.nodeAt_eq]
    split
    · unfold addStatement
      split
      · unfold Node.addType
        split <;> exact h w
      · rename_i hne
        rw [Node.put, Table.get?_insert, if_neg (Ne.symm hne)]
        exact h w
    · exact h w
  · rw [hset, hnames.nodeAt_eq]
    exact h w

theorem KeepsTypesApart.commit (h : s.KeepsTypesApart) (m : Mutation) :
    (commit schema s m).1.KeepsTypesApart := by
  have hdelete : ∀ (qs : List Statement) (s : Store) (vars : Table (List String)),
      s.KeepsTypesApart → (qs.foldl (fun s q => s.delete vars q) s).KeepsTypesApart := by
    intro qs
    induction qs with
    | nil => exact fun _ _ h => h
    | cons q rest ih => exact fun s vars h => ih _ vars (h.delete vars q)
  have hset : ∀ (qs : List Statement) (st : Store × NewUids), st.1.KeepsTypesApart →
      (qs.foldl (Store.set schema) st).1.KeepsTypesApart := by
    intro qs
    induction qs with
    | nil => exact fun _ h => h
    | cons q rest ih => exact fun st h => ih _ (h.set q)
  exact hset _ _ (hdelete _ s _ h)

/-- A list of texts in an answer is read as it is. -/
theorem textList?_fieldJson {values types : List String}
    (h : Lookup.textList? (some (fieldJson Search.typeKey values)) = some types) :
    types = values := by
  have hname : nodeFields.contains Search.typeKey = false := by decide
  unfold fieldJson at h
  rw [hname] at h
  simp only [Bool.false_eq_true, if_false] at h
  split at h
  · cases h
  · have h : (values.map Json.string).mapM Json.string? = some types := h
    rw [mapM_string?_map] at h
    exact (Option.some.inj h).symm

/-- The types that are told of a node that is there. -/
theorem types_of_toldRow {n : Node} {w : String} {raw : Json} {row : Lookup.Row}
    (hn : s.node? w = some n) (hraw : s.row? w = some raw)
    (hread : Lookup.Row.read? raw = some row) : row.types = s.toldTypes w := by
  rw [toldTypes, hn, Option.map_some, Option.getD_some]
  cases hfield : n.fields.get? Search.typeKey with
  | none => exact types_of_row hn hfield hraw hread
  | some values =>
    obtain ⟨members, rfl, hmember⟩ := row?_eq_some hn hraw
    obtain ⟨hlist, -, -⟩ := Lookup.Row.read?_object hread
    rw [hmember, show n.fields.get? "dgraph.type" = some values from hfield, Option.map_some,
      Option.some_or] at hlist
    exact textList?_fieldJson hlist

/-- The look-up of the types of a node yields the types that are told of it. -/
theorem types_yields {u : Uid} {types : List String}
    (h : (Lookup.types (s.directory schema fixed) u).Yields before types after) :
    types = s.toldTypes u.text := by
  simp only [Lookup.types, Consult.yields_bind, Consult.yields_pure] at h
  obtain ⟨found, mid, hfound, rfl, -⟩ := h
  rcases askRows_row (answer_typesQuestion u) hfound with
    ⟨hnone, rfl⟩ | ⟨n, raw, row, hn, hrow, hread, rfl⟩
  · rw [toldTypes, hnone]
    rfl
  · exact types_of_toldRow hn hrow hread

/-! ### Entries -/

/-- What is known of an entry is read from the row of its node. -/
theorem entryInfo_row {u : Uid} {info : EntryInfo}
    (h : (Lookup.entryInfo (s.directory schema fixed) u).Yields before (some info) after) :
    ∃ n raw row, s.node? u.text = some n ∧ s.row? u.text = some raw ∧
      Lookup.Row.read? raw = some row ∧ row.info? u = .ok (some info) := by
  simp only [Lookup.entryInfo, Consult.yields_bind] at h
  obtain ⟨found, mid, hfound, hinfo⟩ := h
  rcases askRows_row (answer_entryQuestion u) hfound with
    ⟨-, rfl⟩ | ⟨n, raw, row, hn, hrow, hread, rfl⟩
  · simp at hinfo
  · exact ⟨n, raw, row, hn, hrow, hread, (Consult.yields_settle.1 hinfo).1⟩

theorem info?_eq_ok {row : Lookup.Row} {u : Uid} {info : EntryInfo}
    (h : row.info? u = .ok (some info)) : info.types = row.types ∧
      row.status.elim (.ok .pending) ReviewStatus.read = .ok (info.status.getD .pending) ∧
      info.submitter = row.submitter.bind Uid.parse? := by
  unfold Lookup.Row.info? at h
  split at h
  · cases h
  · obtain ⟨status, hstatus, hsome⟩ := bind_eq_ok.1 h
    obtain rfl := Option.some.inj (pure_eq_ok.1 hsome)
    refine ⟨rfl, ?_, rfl⟩
    cases hrow : row.status with
    | none =>
      rw [hrow] at hstatus
      cases hstatus
      rfl
    | some text =>
      have hsome (f : String → Except Error ReviewStatus) :
          (some text).mapM f = (f text).map some := rfl
      rw [hrow, hsome] at hstatus
      obtain ⟨st, hread, rfl⟩ := map_eq_ok.1 hstatus
      rw [Option.elim_some, hread, Option.getD_some]

/-- What is known of an entry has the types that are told of its node. -/
theorem entryInfo_types {u : Uid} {info : EntryInfo}
    (h : (Lookup.entryInfo (s.directory schema fixed) u).Yields before (some info) after) :
    info.types = s.toldTypes u.text := by
  obtain ⟨n, raw, row, hn, hrow, hread, hinfo⟩ := entryInfo_row h
  exact (info?_eq_ok hinfo).1.trans (types_of_toldRow hn hrow hread)

/-- What is known of an entry has the types that are stored. -/
theorem entryInfo_yields {u : Uid} {info : EntryInfo}
    (h : (Lookup.entryInfo (s.directory schema fixed) u).Yields before (some info) after) :
    ∃ n, s.node? u.text = some n ∧
      (n.fields.get? Search.typeKey = none → info.types = n.types) := by
  obtain ⟨n, raw, row, hn, hrow, hread, hinfo⟩ := entryInfo_row h
  exact ⟨n, hn, fun htypes => (info?_eq_ok hinfo).1.trans (types_of_row hn htypes hrow hread)⟩

end Store

end PressRegister
