import PressRegister.Proofs.Store.Lookup

/-!
# The review of stored entries

The review status of a node is read from its one value, and a node that has none counts
as pending. What a change to an entry is told of the entry is what is stored.

## Main definitions

* `Store.statusAt`: the review status of a node.
* `Store.submitterAt?`: the account that submitted a node.
* `Store.HasNode`: a node exists.
* `Store.Unused`: the numbers above the last one are of no node with a type.

## Main results

* `Store.entryInfo_review`: the status and the submitter that a look-up tells.
* `Store.Unused.not_made`: no commit makes a node anew that exists.
-/

namespace PressRegister

theorem ReviewStatus.read_name (status : ReviewStatus) : read status.name = .ok status := by
  cases status <;> decide +kernel

namespace Store

/-- The review status of a node; a node without one counts as pending. -/
def statusAt (s : Store) (w : String) : Except Error ReviewStatus :=
  (s.valuesAt w ReviewStatus.predicateName).head?.elim (.ok .pending) ReviewStatus.read

/-- The account that a node is recorded to be submitted by. -/
def submitterAt? (s : Store) (w : String) : Option Uid :=
  (s.valuesAt w "entry_added").head?.bind Uid.parse?

/-- A node exists: it has a type, or its identifier is none that the store has yet to give. -/
def HasNode (s : Store) (w : String) : Prop :=
  s.typesAt w ≠ [] ∨ ∀ n, s.lastUid < n → w ≠ (Uid.ofNat n).text

/-- The numbers above the last one are of no node with a type. -/
def Unused (s : Store) : Prop :=
  ∀ n, s.lastUid < n → s.typesAt (Uid.ofNat n).text = []

variable {s : Store} {schema : Schema} {fixed : Option Json} {before after : Desk} {w : String}

theorem Fresh.unused (h : s.Fresh) : s.Unused := fun n hn => by
  rw [typesAt, nodeAt_of_none (h n hn)]
  rfl

theorem statusAt_of_valuesAt {status : ReviewStatus}
    (h : s.valuesAt w ReviewStatus.predicateName = [status.name]) : s.statusAt w = .ok status := by
  rw [statusAt, h, List.head?_cons, Option.elim_some, status.read_name]

/-- No commit gives the identifier of a node that exists to a new one. -/
theorem Unused.not_made (h : s.Unused) (hw : s.HasNode w) (m : Mutation) (name : String) :
    (commit schema s m).2.get? name ≠ some w := by
  intro hmade
  obtain ⟨n, hn, -, rfl⟩ := (commit_allots schema s m).numbered hmade
  rcases hw with htypes | hgiven
  · exact htypes (h n hn)
  · exact hgiven n hn rfl

/-! ### What a look-up tells -/

/-- A text that may be missing is told if there is one value, and none if there is no field. -/
theorem optionalText?_field {name : String} {values : Option (List String)} {text : Option String}
    (hname : nodeFields.contains name = false)
    (h : Lookup.optionalText? (values.map (fieldJson name)) = some text) :
    (values.getD []).head? = text := by
  cases values with
  | none => exact Option.some.inj h
  | some values =>
    simp only [Option.map_some, fieldJson, hname, Bool.false_eq_true, if_false] at h
    match values, h with
    | [], h => cases h
    | [v], h => exact Option.some.inj h
    | _ :: _ :: _, h => cases h

theorem optionalUidRow?_field {name : String} {values : Option (List String)}
    {text : Option String} (hname : nodeFields.contains name = true)
    (h : Lookup.optionalUidRow? (values.map (fieldJson name)) = some text) :
    (values.getD []).head? = text := by
  cases values with
  | none => exact Option.some.inj h
  | some values =>
    simp only [Option.map_some, fieldJson, hname, if_true] at h
    cases values with
    | nil => cases h
    | cons v rest => exact Option.some.inj h

/-- A change to an entry is told the status and the submitter that are stored. -/
theorem entryInfo_review {u : Uid} {info : EntryInfo}
    (h : (Lookup.entryInfo (s.directory schema fixed) u).Yields before (some info) after) :
    s.statusAt u.text = .ok (info.status.getD .pending) ∧
      info.submitter = s.submitterAt? u.text := by
  obtain ⟨n, raw, row, hn, hrow, hread, hinfo⟩ := entryInfo_row h
  obtain ⟨-, hstatus, hsubmitter⟩ := info?_eq_ok hinfo
  obtain ⟨members, rfl, hmember⟩ := row?_eq_some hn hrow
  obtain ⟨-, hstatus', hsubmitter'⟩ := Lookup.Row.read?_object hread
  -- neither field is named like the identifier or the types
  have hfield {name : String} (huid : name ≠ "uid") (htype : name ≠ Search.typeKey) :
      (Json.object members).member? name = (n.fields.get? name).map (fieldJson name) := by
    rw [hmember]
    simp [Table.ofList, Table.get?_insert, huid, htype]
  rw [hfield (by decide) (by decide)] at hstatus' hsubmitter'
  have hvalues (name : String) : s.valuesAt u.text name = (n.fields.get? name).getD [] := by
    rw [valuesAt, nodeAt_of_node? hn]
    rfl
  constructor
  · rw [statusAt, ReviewStatus.predicateName, hvalues, optionalText?_field (by decide) hstatus']
    exact hstatus
  · rw [submitterAt?, hvalues, optionalUidRow?_field (by decide) hsubmitter']
    exact hsubmitter

end Store

end PressRegister
