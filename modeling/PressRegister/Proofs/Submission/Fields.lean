import PressRegister.Proofs.Mutation.Telling
import PressRegister.Submission.Form

/-!
# The fields of forms

The fields that a form or the defaults of a type give are what predicates of the type
read from raw input. So they are of the declared kinds, all of them can be stored, and
their new nodes are named after labels. Reading them draws on the supply and does
nothing else to it.

## Main definitions

* `FieldsHold`: fields hold values that predicates of a type are given in some way.
* `FieldsRead`: fields hold what predicates of a type read.
* `Form.Sets`: the input that a field is set from.
* `Form.SetsTo`, `Form.Gives`: a form, or the default of a field, gives the field values.
* `Entity.IsStorable`: all values of an entity can be stored.

## Main results

* `Form.read_hold`, `Form.read_fieldsRead`: the fields of a form.
* `applyDefaults_hold`: the fields with the defaults of a type.
* `checkRequired_ok`: an entry that passes has all its required fields.
-/

namespace PressRegister

open Consult

/-- Fields hold values that predicates of a type are given in some way. -/
def FieldsHold (P : Predicate → List Operand → Prop) (t : TypeDef) (fields : Fields) : Prop :=
  ∀ name objects, fields.get? name = some objects →
    ∃ p, t.predicate? name = some p ∧ P p (objects.map (·.value))

/-- Fields hold what predicates of a type read from raw input. -/
def FieldsRead (t : TypeDef) (fields : Fields) : Prop :=
  ∀ name objects, fields.get? name = some objects →
    ∃ p, t.predicate? name = some p ∧ p.Reads (objects.map (·.value))

/-- All values of an entity can be stored. -/
def Entity.IsStorable (e : Entity) : Prop :=
  ∀ name objects, e.fields.get? name = some objects → ∀ o ∈ objects, o.value.isStorable = true

namespace FieldsHold

variable {P : Predicate → List Operand → Prop} {t : TypeDef} {fields : Fields}

theorem empty (P : Predicate → List Operand → Prop) (t : TypeDef) : FieldsHold P t .empty :=
  fun _ _ h => by cases h

theorem insert (h : FieldsHold P t fields) {name : String} {objects : List Object} {p : Predicate}
    (hp : t.predicate? name = some p) (hobjects : P p (objects.map (·.value))) :
    FieldsHold P t (fields.insert name objects) := by
  intro key values hget
  rw [Table.get?_insert] at hget
  split at hget
  · rename_i hkey
    cases hget
    exact ⟨p, hkey ▸ hp, hobjects⟩
  · exact h key values hget

theorem fieldsRead (h : FieldsHold P t fields) (hP : ∀ p values, P p values → p.Reads values) :
    FieldsRead t fields := by
  intro name objects hget
  obtain ⟨p, hp, hvalues⟩ := h name objects hget
  exact ⟨p, hp, hP p _ hvalues⟩

end FieldsHold

namespace FieldsRead

variable {t : TypeDef} {fields : Fields}

theorem isStorable (h : FieldsRead t fields) (subject : Subject) :
    Entity.IsStorable ⟨subject, fields⟩ := by
  intro name objects hget o ho
  obtain ⟨p, -, hreads⟩ := h name objects hget
  exact Operand.isStorable_of_admits (hreads.admits (List.mem_map_of_mem ho))

theorem isLabelled (h : FieldsRead t fields) {name : String} {objects : List Object}
    (hget : fields.get? name = some objects) {o : Object} (ho : o ∈ objects) {b : BlankNode}
    (hb : o.value = .new b) : b.IsLabelled := by
  obtain ⟨p, -, hreads⟩ := h name objects hget
  exact hreads.isLabelled (hb ▸ List.mem_map_of_mem ho)

end FieldsRead

/-! ### Forms -/

namespace Form

variable {t : TypeDef} {writable : Predicate → Bool} {fields fields' : Fields}
  {before after : Desk}

theorem map_value_plain (values : List Operand) :
    (values.map Object.plain).map (·.value) = values := by
  rw [List.map_map]
  exact List.map_id _

/-- The values of one key are what a predicate that may be set reads from its input. -/
theorem readField_yields {key : String} {raw : Json} {values : List Object}
    (h : (readField t writable key raw).Yields before values after) :
    ∃ p supply supply' operands, t.predicate? key = some p ∧ writable p = true ∧
      p.validate raw supply = .ok (operands, supply') ∧ values = operands.map Object.plain := by
  unfold readField at h
  split at h
  · exact (not_yields_fail h).elim
  · rename_i p hp
    split at h
    · exact (not_yields_fail h).elim
    · rename_i hwritable
      simp only [yields_bind, yields_tryDraw, yields_pure] at h
      obtain ⟨operands, mid, ⟨supply, hvalidate, -⟩, rfl, -⟩ := h
      exact ⟨p, _, supply, operands, hp, by simpa using hwritable, hvalidate, rfl⟩

section Hold

variable {P : Predicate → List Operand → Prop}

theorem readFields_hold {keys : List (String × Json)}
    (hkeys : ∀ key raw p values, (key, raw) ∈ keys → t.predicate? key = some p →
      writable p = true → (∃ supply supply', p.validate raw supply = .ok (values, supply')) →
        P p values)
    (hfields : FieldsHold P t fields)
    (h : (readFields t writable keys fields).Yields before fields' after) :
    FieldsHold P t fields' := by
  induction keys generalizing fields before with
  | nil =>
    obtain ⟨rfl, -⟩ := yields_pure.1 h
    exact hfields
  | cons e rest ih =>
    obtain ⟨values, mid, hvalues, hrest⟩ := yields_bind.1 h
    obtain ⟨p, supply, supply', operands, hp, hwritable, hvalidate, rfl⟩ := readField_yields hvalues
    refine ih (fun key raw p values hmem => hkeys key raw p values (List.mem_cons_of_mem _ hmem))
      (hfields.insert hp ?_) hrest
    rw [map_value_plain]
    exact hkeys e.1 e.2 p operands List.mem_cons_self hp hwritable ⟨supply, supply', hvalidate⟩

/-- A facet is set on the values of a predicate and leaves the values as they are. -/
theorem applyFacet_hold {key parent facet : String} {raw : Json} (hfields : FieldsHold P t fields)
    (h : applyFacet t writable fields key parent facet raw = .ok fields') :
    FieldsHold P t fields' := by
  unfold applyFacet at h
  split at h
  · cases h
  split at h
  · cases h
  split at h
  · cases h
  obtain ⟨value, -, h⟩ := bind_eq_ok.1 h
  split at h
  · cases h
  · rename_i objects hobjects
    obtain rfl := pure_eq_ok.1 h
    obtain ⟨p, hp, hholds⟩ := hfields parent objects hobjects
    refine hfields.insert hp ?_
    rw [List.map_map]
    exact hholds

theorem applyFacets_hold {keys : List (String × Json)} (hfields : FieldsHold P t fields)
    (h : applyFacets t writable keys fields = .ok fields') : FieldsHold P t fields' := by
  induction keys generalizing fields with
  | nil =>
    cases h
    exact hfields
  | cons e rest ih =>
    obtain ⟨key, raw⟩ := e
    unfold applyFacets at h
    split at h
    · exact ih hfields h
    · obtain ⟨mid, hmid, h⟩ := bind_eq_ok.1 h
      exact ih (applyFacet_hold hfields hmid) h

/-- What holds of all that is read from the keys of a form holds of its fields. -/
theorem read_hold {form : Form} {skip : List String}
    (hkeys : ∀ key raw p values, (key, raw) ∈ form.settingKeys skip → t.predicate? key = some p →
      writable p = true → (∃ supply supply', p.validate raw supply = .ok (values, supply')) →
        P p values)
    (h : (form.read t skip writable).Yields before fields after) : FieldsHold P t fields := by
  simp only [read, yields_bind, yields_settle] at h
  obtain ⟨fields', mid, hread, hfacets, -⟩ := h
  refine applyFacets_hold (readFields_hold (fun key raw p values hmem => ?_) (.empty P t) hread)
    hfacets
  exact hkeys key raw p values (List.mem_filter.1 hmem).1

end Hold

/-- The fields of a form are what the predicates of the type read. -/
theorem read_fieldsRead {form : Form} {skip : List String}
    (h : (form.read t skip writable).Yields before fields after) : FieldsRead t fields :=
  read_hold (P := Predicate.Reads) (fun _ raw _ _ _ _ _ ⟨supply, supply', hvalidate⟩ =>
    ⟨raw, supply, supply', hvalidate⟩) h

/-- The input that a field is set from: what the form says of it, or the default, where the form
is of a new entry and says nothing of the field. The form of a change has a key to skip. -/
inductive Sets (form : Form) (skip : List String) (p : Predicate) (raw : Json) : Prop
  | said (h : (p.name, raw) ∈ form.settingKeys skip)
  | default (hnew : skip = []) (hunsaid : form.get? p.name = none) (h : p.default = some raw)
    (hopen : p.readOnly = false) (hstatus : p.name ≠ ReviewStatus.predicateName)

/-- The values that a field is set to, which users may set. -/
def SetsTo (form : Form) (skip : List String) (p : Predicate) (values : List Operand) : Prop :=
  p.readOnly = false ∧ ∃ raw, form.Sets skip p raw ∧
    ∃ supply supply', p.validate raw supply = .ok (values, supply')

/-- A form gives a field values, or the default of the field does, and users may set the field. -/
def Gives (form : Form) (p : Predicate) (values : List Operand) : Prop :=
  p.readOnly = false ∧ ∃ raw, (form.get? p.name = some raw ∨ p.default = some raw) ∧
    ∃ supply supply', p.validate raw supply = .ok (values, supply')

theorem SetsTo.reads {form : Form} {skip : List String} {p : Predicate} {values : List Operand}
    (h : form.SetsTo skip p values) : p.Reads values := by
  obtain ⟨-, raw, -, supply, supply', hvalidate⟩ := h
  exact ⟨raw, supply, supply', hvalidate⟩

theorem SetsTo.gives {form : Form} {skip : List String} {p : Predicate} {values : List Operand}
    (h : form.SetsTo skip p values) : form.Gives p values := by
  obtain ⟨hopen, raw, hsets, hvalidate⟩ := h
  refine ⟨hopen, raw, ?_, hvalidate⟩
  cases hsets with
  | said h => exact .inl (Table.get?_eq_some_iff.2 (List.mem_filter.1 h).1)
  | default _ _ h _ _ => exact .inr h

/-- The fields of a form are those that it sets. -/
theorem read_setsTo {form : Form} {skip : List String}
    (hwritable : ∀ p, writable p = true → p.readOnly = false)
    (h : (form.read t skip writable).Yields before fields after) :
    FieldsHold (form.SetsTo skip) t fields := by
  refine read_hold (fun key raw p values hmem hp hopen hvalidate => ?_) h
  obtain rfl : p.name = key := by simpa using List.find?_some hp
  exact ⟨hwritable p hopen, raw, .said hmem, hvalidate⟩

/-! ### Keys -/

theorem readFields_get? {keys : List (String × Json)} {name : String}
    (hname : ∀ e ∈ keys, e.1 ≠ name)
    (h : (readFields t writable keys fields).Yields before fields' after) :
    fields'.get? name = fields.get? name := by
  induction keys generalizing fields before with
  | nil =>
    obtain ⟨rfl, -⟩ := yields_pure.1 h
    rfl
  | cons e rest ih =>
    obtain ⟨values, mid, -, hrest⟩ := yields_bind.1 h
    obtain ⟨hne, hname⟩ := List.forall_mem_cons.1 hname
    rw [ih hname hrest, Table.get?_insert, if_neg hne.symm]

/-- Facets are set on fields that have values, and on no other ones. -/
theorem applyFacet_eq_none {key parent facet name : String} {raw : Json}
    (hname : fields.get? name = none)
    (h : applyFacet t writable fields key parent facet raw = .ok fields') :
    fields'.get? name = none := by
  unfold applyFacet at h
  split at h
  · cases h
  split at h
  · cases h
  split at h
  · cases h
  obtain ⟨value, -, h⟩ := bind_eq_ok.1 h
  split at h
  · cases h
  · rename_i objects hobjects
    obtain rfl := pure_eq_ok.1 h
    have hne : name ≠ parent := by
      rintro rfl
      rw [hname] at hobjects
      cases hobjects
    rw [Table.get?_insert, if_neg hne, hname]

theorem applyFacets_eq_none {keys : List (String × Json)} {name : String}
    (hname : fields.get? name = none) (h : applyFacets t writable keys fields = .ok fields') :
    fields'.get? name = none := by
  induction keys generalizing fields with
  | nil =>
    cases h
    exact hname
  | cons e rest ih =>
    obtain ⟨key, raw⟩ := e
    unfold applyFacets at h
    split at h
    · exact ih hname h
    · obtain ⟨mid, hmid, h⟩ := bind_eq_ok.1 h
      exact ih (applyFacet_eq_none hname hmid) h

/-- The values of a field are what its predicate reads from the input under its name. -/
theorem readFields_values {keys : List (String × Json)}
    (hkeys : keys.Pairwise fun a b => a.1 ≠ b.1)
    (h : (readFields t writable keys fields).Yields before fields' after) {key : String}
    {raw : Json} (hmem : (key, raw) ∈ keys) :
    ∃ p supply supply' values, t.predicate? key = some p ∧
      p.validate raw supply = .ok (values, supply') ∧
        fields'.get? key = some (values.map Object.plain) := by
  induction keys generalizing fields before with
  | nil => cases hmem
  | cons e rest ih =>
    obtain ⟨values, mid, hvalues, hrest⟩ := yields_bind.1 h
    obtain ⟨hfirst, hkeys⟩ := List.pairwise_cons.1 hkeys
    rcases List.mem_cons.1 hmem with rfl | hmem
    · rw [readFields_get? (fun e he => (hfirst e he).symm) hrest, Table.get?_insert_self]
      obtain ⟨p, supply, supply', operands, hp, -, hvalidate, rfl⟩ := readField_yields hvalues
      exact ⟨p, supply, supply', operands, hp, hvalidate, rfl⟩
    · exact ih hkeys hrest hmem

/-- Facets leave the values that they are set on as they are. -/
theorem applyFacet_values {key parent facet : String} {raw : Json}
    (h : applyFacet t writable fields key parent facet raw = .ok fields') {name : String}
    {objects : List Object} (hname : fields.get? name = some objects) :
    ∃ objects', fields'.get? name = some objects' ∧
      objects'.map (·.value) = objects.map (·.value) := by
  unfold applyFacet at h
  split at h
  · cases h
  split at h
  · cases h
  split at h
  · cases h
  obtain ⟨value, -, h⟩ := bind_eq_ok.1 h
  split at h
  · cases h
  · rename_i others hothers
    obtain rfl := pure_eq_ok.1 h
    rw [Table.get?_insert]
    split
    · rename_i heq
      rw [← heq, hname] at hothers
      obtain rfl := Option.some.inj hothers
      exact ⟨_, rfl, by rw [List.map_map]; rfl⟩
    · exact ⟨objects, hname, rfl⟩

theorem applyFacets_values {keys : List (String × Json)}
    (h : applyFacets t writable keys fields = .ok fields') {name : String}
    {objects : List Object} (hname : fields.get? name = some objects) :
    ∃ objects', fields'.get? name = some objects' ∧
      objects'.map (·.value) = objects.map (·.value) := by
  induction keys generalizing fields objects with
  | nil =>
    cases h
    exact ⟨objects, hname, rfl⟩
  | cons e rest ih =>
    obtain ⟨key, raw⟩ := e
    unfold applyFacets at h
    split at h
    · exact ih h hname
    · obtain ⟨mid, hmid, h⟩ := bind_eq_ok.1 h
      obtain ⟨objects₁, hget, hvalues⟩ := applyFacet_values hmid hname
      obtain ⟨objects₂, hget', hvalues'⟩ := ih h hget
      exact ⟨objects₂, hget', hvalues'.trans hvalues⟩

/-- What a form gives a field is what its predicate reads from the input under its name. -/
theorem read_values {form : Form} {skip : List String}
    (h : (form.read t skip writable).Yields before fields after) {key : String} {raw : Json}
    (hmem : (key, raw) ∈ form.settingKeys skip) (hkey : Facet.splitKey? key = none) :
    ∃ p supply supply' objects, t.predicate? key = some p ∧
      p.validate raw supply = .ok (objects.map (·.value), supply') ∧
        fields.get? key = some objects := by
  simp only [read, yields_bind, yields_settle] at h
  obtain ⟨fields', mid, hread, hfacets, -⟩ := h
  have hdistinct : (form.settingKeys skip).Pairwise fun a b => a.1 ≠ b.1 := by
    refine List.Pairwise.filter _ (form.sorted.imp ?_)
    intro a b hlt heq
    rw [heq] at hlt
    exact String.lt_irrefl _ hlt
  obtain ⟨p, supply, supply', values, hp, hvalidate, hget⟩ :=
    readFields_values (hdistinct.filter _) hread (List.mem_filter.2 ⟨hmem, by simp [hkey]⟩)
  obtain ⟨objects, hget', hvalues⟩ := applyFacets_values hfacets hget
  rw [map_value_plain] at hvalues
  exact ⟨p, supply, supply', objects, hp, by rw [hvalues]; exact hvalidate, hget'⟩

/-- A field that a form says nothing of is not set. -/
theorem read_eq_none {form : Form} {skip : List String} {name : String}
    (hname : ∀ raw, (name, raw) ∉ form.settingKeys skip)
    (h : (form.read t skip writable).Yields before fields after) : fields.get? name = none := by
  simp only [read, yields_bind, yields_settle] at h
  obtain ⟨fields', mid, hread, hfacets, -⟩ := h
  refine applyFacets_eq_none ?_ hfacets
  rw [readFields_get? (fun e he heq => ?_) hread]
  · rfl
  · exact hname e.2 (heq ▸ (List.mem_filter.1 he).1)

/-- No form sets the review status as a field. -/
theorem read_status {form : Form} {skip : List String}
    (h : (form.read t skip writable).Yields before fields after) :
    fields.get? ReviewStatus.predicateName = none := by
  refine read_eq_none (fun raw hmem => ?_) h
  have hkey := (List.mem_filter.1 hmem).2
  simp at hkey

/-! ### Draws -/

theorem requestedStatus_draws (t : TypeDef) (form : Form) : (form.requestedStatus t).Draws := by
  unfold requestedStatus
  split
  · exact .pure _
  split
  · exact .fail _
  refine .bind (.tryDraw fun s a s' => Predicate.validate_reaches) fun values => ?_
  split
  · exact .pure _
  · exact .bind (.settle _) fun _ => .pure _

theorem readFields_draws (t : TypeDef) (writable : Predicate → Bool) (keys : List (String × Json))
    (fields : Fields) : (readFields t writable keys fields).Draws := by
  induction keys generalizing fields with
  | nil => exact .pure _
  | cons e rest ih =>
    refine .bind ?_ fun values => ih _
    unfold readField
    split
    · exact .fail _
    split
    · exact .fail _
    · exact .bind (.tryDraw fun s a s' => Predicate.validate_reaches) fun _ => .pure _

theorem read_draws (t : TypeDef) (form : Form) (skip : List String)
    (writable : Predicate → Bool) : (form.read t skip writable).Draws :=
  .bind (readFields_draws t writable _ _) fun _ => .settle _

end Form

/-! ### Defaults -/

/-- A default is entered where a field has no value, or nothing happens. -/
theorem applyDefaults_cons {p : Predicate} {rest : List Predicate} {e e' : Entity}
    {before after : Desk} (h : (applyDefaults (p :: rest) e).Yields before e' after) :
    (applyDefaults rest e).Yields before e' after ∨
      ∃ raw values mid, p.default = some raw ∧ p.readOnly = false ∧
        p.name ≠ ReviewStatus.predicateName ∧ e.fields.contains p.name = false ∧
        (tryDraw (p.validate raw)).Yields before values mid ∧
        (applyDefaults rest (e.set p.name (values.map Object.plain))).Yields mid e' after := by
  unfold applyDefaults at h
  split at h
  · exact .inl h
  · rename_i raw hraw
    split at h
    · exact .inl h
    · rename_i hopen
      obtain ⟨values, mid, hvalues, hrest⟩ := yields_bind.1 h
      simp only [Bool.or_eq_true, not_or, Bool.not_eq_true, beq_eq_false_iff_ne] at hopen
      exact .inr ⟨raw, values, mid, hraw, hopen.1.2, hopen.1.1, hopen.2, hvalues, hrest⟩

/-- A field that is not set after another one was is not set before. -/
theorem contains_of_set {e : Entity} {name key : String} {objects : List Object}
    (h : (e.set name objects).fields.contains key = false) : e.fields.contains key = false := by
  unfold Table.contains Entity.set at h
  rw [Table.get?_insert] at h
  split at h
  · cases h
  · exact h

variable {t : TypeDef} {before after : Desk}

/-- What holds of the fields of an entry and of all defaults holds of the fields with the
defaults. They are given to the entry itself. -/
theorem applyDefaults_hold {P : Predicate → List Operand → Prop} {predicates : List Predicate}
    {e e' : Entity} (hpredicates : ∀ p ∈ predicates, t.predicate? p.name = some p)
    (hdefaults : ∀ p raw values, t.predicate? p.name = some p → p.default = some raw →
      p.readOnly = false → p.name ≠ ReviewStatus.predicateName →
      e.fields.contains p.name = false →
      (∃ supply supply', p.validate raw supply = .ok (values, supply')) → P p values)
    (hfields : FieldsHold P t e.fields)
    (h : (applyDefaults predicates e).Yields before e' after) :
    FieldsHold P t e'.fields ∧ e'.subject = e.subject := by
  induction predicates generalizing e before with
  | nil =>
    obtain ⟨rfl, -⟩ := yields_pure.1 h
    exact ⟨hfields, rfl⟩
  | cons p rest ih =>
    have hrest := fun q hq => hpredicates q (List.mem_cons_of_mem _ hq)
    rcases applyDefaults_cons h with
      h | ⟨raw, values, mid, hraw, hopen, hstatus, hunset, hvalues, h⟩
    · exact ih hrest hdefaults hfields h
    · obtain ⟨supply, hvalidate, -⟩ := yields_tryDraw.1 hvalues
      have hp := hpredicates p List.mem_cons_self
      have hset : FieldsHold P t (e.set p.name (values.map Object.plain)).fields :=
        hfields.insert hp (by
          rw [Form.map_value_plain]
          exact hdefaults p raw values hp hraw hopen hstatus hunset ⟨_, _, hvalidate⟩)
      obtain ⟨hfields', hsubject⟩ := ih hrest (fun q raw values hq hraw hopen hstatus hunset =>
        hdefaults q raw values hq hraw hopen hstatus (contains_of_set hunset)) hset h
      exact ⟨hfields', hsubject⟩

/-- Defaults are entered where nothing is set, and never for the review status. -/
theorem applyDefaults_kept {predicates : List Predicate} {e e' : Entity} {name : String}
    (hname : e.fields.contains name = true ∨ name = ReviewStatus.predicateName)
    (h : (applyDefaults predicates e).Yields before e' after) :
    e'.fields.get? name = e.fields.get? name := by
  induction predicates generalizing e before with
  | nil =>
    obtain ⟨rfl, -⟩ := yields_pure.1 h
    rfl
  | cons p rest ih =>
    unfold applyDefaults at h
    split at h
    · exact ih hname h
    · split at h
      · exact ih hname h
      · rename_i hopen
        obtain ⟨values, mid, -, hrest⟩ := yields_bind.1 h
        simp only [Bool.or_eq_true, beq_iff_eq, not_or] at hopen
        have hne : name ≠ p.name := by
          rintro rfl
          exact hname.elim hopen.2 hopen.1.1
        have hget : (e.set p.name (values.map Object.plain)).fields.get? name =
            e.fields.get? name := (Table.get?_insert _ _ _ _).trans (if_neg hne)
        rw [ih ?_ hrest, hget]
        rwa [Table.contains, hget]

/-- A field that has no value is given its default. -/
theorem applyDefaults_sets {predicates : List Predicate} {e e' : Entity}
    (hpredicates : ∀ p ∈ predicates, t.predicate? p.name = some p) {p : Predicate} {raw : Json}
    (hp : p ∈ predicates) (hraw : p.default = some raw) (hopen : p.readOnly = false)
    (hstatus : p.name ≠ ReviewStatus.predicateName) (hunset : e.fields.contains p.name = false)
    (h : (applyDefaults predicates e).Yields before e' after) :
    ∃ supply supply' values, p.validate raw supply = .ok (values, supply') ∧
      e'.fields.get? p.name = some (values.map Object.plain) := by
  induction predicates generalizing e before with
  | nil => cases hp
  | cons q rest ih =>
    have hrest := fun q hq => hpredicates q (List.mem_cons_of_mem _ hq)
    by_cases hname : q.name = p.name
    · -- names are not shared, so the default is the one of this field
      have hq := hpredicates q List.mem_cons_self
      rw [hname, hpredicates p hp] at hq
      obtain rfl := Option.some.inj hq
      unfold applyDefaults at h
      simp only [hraw, hopen, hunset, beq_eq_false_iff_ne.2 hstatus, Bool.or_self,
        Bool.false_eq_true, if_false] at h
      obtain ⟨values, mid, hvalues, h⟩ := yields_bind.1 h
      obtain ⟨supply, hvalidate, -⟩ := yields_tryDraw.1 hvalues
      have hset : (e.set p.name (values.map Object.plain)).fields.get? p.name =
          some (values.map Object.plain) := Table.get?_insert_self _ _ _
      refine ⟨_, _, values, hvalidate, ?_⟩
      rw [applyDefaults_kept (.inl (by rw [Table.contains, hset]; rfl)) h, hset]
    · have hp : p ∈ rest := (List.mem_cons.1 hp).resolve_left fun heq => hname (heq ▸ rfl)
      rcases applyDefaults_cons h with h | ⟨_, values, mid, -, -, -, -, -, h⟩
      · exact ih hrest hp hunset h
      · refine ih hrest hp ?_ h
        rw [Table.contains, Entity.set, Table.get?_insert, if_neg (Ne.symm hname)]
        exact hunset

theorem applyDefaults_draws (predicates : List Predicate) (e : Entity) :
    (applyDefaults predicates e).Draws := by
  induction predicates generalizing e with
  | nil => exact .pure _
  | cons p rest ih =>
    intro before e' after h
    rcases applyDefaults_cons h with h | ⟨raw, values, mid, -, -, -, -, hvalues, h⟩
    · exact ih e _ _ _ h
    · have hdraw : (tryDraw (p.validate raw)).Draws :=
        .tryDraw fun s a s' => Predicate.validate_reaches
      exact (hdraw _ _ _ hvalues).trans (ih _ _ _ _ h)

/-! ### Required fields -/

/-- An entry that passes the check has a value for every required field. -/
theorem checkRequired_ok {e : Entity} (h : checkRequired t e = .ok ()) {p : Predicate}
    (hp : p ∈ t.predicates) (hrequired : p.required = true) (hreadOnly : p.readOnly = false) :
    (e.fields.get? p.name).getD [] ≠ [] := by
  unfold checkRequired at h
  split at h
  · cases h
  · rename_i hnone
    have hmissing := List.find?_eq_none.1 hnone p hp
    simpa [isMissing, hrequired, hreadOnly, Entity.get?] using hmissing

end PressRegister
