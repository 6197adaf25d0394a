import PressRegister.Proofs.Inventory.Registry
import PressRegister.Proofs.Mutation.Clearing
import PressRegister.Proofs.Mutation.Sections

/-!
# Compiled mutations are legible

A mutation is compiled from entities whose fields, facets and variables have names that are made
of the characters of identifiers. What is added to them on the way, the edges of reverse
predicates, the variables of a prelude and the predicates that are cleared, has names of the
registry. So the text of a compiled mutation carries its statements.

## Main definitions

* `Entity.IsLegible`, `Satellite.IsLegible`: the names in an entity are made of the characters of
  identifiers.

## Main results

* `Mutation.isLegible_of_compile`: compiled mutations are legible.
* `Mutation.isLossless_of_compile`: their texts carry their statements.
-/

namespace PressRegister

open Text

/-! ### Legible entities -/

/-- The names in an object are made of the characters of identifiers. -/
structure Object.IsLegible (o : Object) : Prop where
  value : o.value.IsLegible
  facets : o.facets.IsLegible

/-- The names in fields are made of the characters of identifiers. -/
def Fields.IsLegible (fields : Fields) : Prop :=
  ∀ f ∈ fields.entries, IsName f.1 ∧ ∀ o ∈ f.2, o.IsLegible

/-- The names in an entity are made of the characters of identifiers. -/
structure Entity.IsLegible (e : Entity) : Prop where
  subject : e.subject.operand.IsLegible
  fields : Fields.IsLegible e.fields

/-- The names in a new node are made of the characters of identifiers. -/
structure Satellite.IsLegible (t : Satellite) : Prop where
  node : t.node.IsSlugged
  fields : Fields.IsLegible t.fields

theorem Object.isLegible_plain {v : Operand} (h : v.IsLegible) : (Object.plain v).IsLegible :=
  ⟨h, fun _ he => (List.not_mem_nil he).elim⟩

theorem Operand.IsLegible.subject? {v : Operand} (h : v.IsLegible) {x : Subject}
    (hx : v.subject? = some x) : x.operand.IsLegible := by
  cases v with
  | existing u =>
    cases hx
    trivial
  | new b =>
    cases hx
    exact h
  | var x =>
    cases hx
    exact h
  | _ => cases hx

theorem Fields.isLegible_empty : Fields.IsLegible .empty :=
  fun _ hf => (List.not_mem_nil hf).elim

theorem Fields.IsLegible.insert {fields : Fields} (h : fields.IsLegible) {name : String}
    (hname : IsName name) {values : List Object} (hvalues : ∀ o ∈ values, o.IsLegible) :
    Fields.IsLegible (Table.insert fields name values) := by
  intro f hf
  rcases Table.mem_place hf with rfl | hf
  · exact ⟨hname, hvalues⟩
  · exact h f hf

/-- An entity of a new node is legible, with the types of the node among its fields. -/
theorem Satellite.IsLegible.entity {t : Satellite} (h : t.IsLegible) (s : Schema) :
    (t.entity s).IsLegible := by
  refine ⟨h.node, h.fields.insert (by decide) fun o ho => ?_⟩
  obtain ⟨name, -, rfl⟩ := List.mem_map.1 ho
  exact Object.isLegible_plain trivial

section

variable {types : List EntityType} {s : Schema} (hbuild : Schema.build types = .ok s)
include hbuild

theorem Schema.isName_of_predicate? {name : String} {p : Predicate}
    (hp : s.predicate? name = some p) : IsName name :=
  isName_of_isIdentifier (isIdentifier_of_isUndotted
    (isUndotted_of_isPredicateName (isPredicateName_of_build hbuild hp)))

/-- The edge of a reverse predicate is registered, so it is an identifier. -/
theorem Schema.isName_edge {name edge : String} {p : Predicate} (hp : s.predicate? name = some p)
    (hdirection : p.direction? = some (.reverse edge)) : IsName edge := by
  obtain ⟨q, hq, -⟩ := reverse_forward hbuild hp hdirection
  exact isName_of_predicate? hbuild hq

theorem Entity.IsLegible.statements {e : Entity} (h : e.IsLegible) {t : Statement}
    (ht : t ∈ e.statements s) : t.IsLegible := by
  obtain ⟨f, hf, ht⟩ := List.mem_flatMap.1 ht
  obtain ⟨o, ho, ht⟩ := List.mem_flatMap.1 ht
  obtain ⟨hname, hobjects⟩ := h.fields f hf
  have hobject := hobjects o ho
  have hforward : Statement.IsLegible ⟨e.subject, f.1, o⟩ :=
    ⟨h.subject, hname, hobject.value, hobject.facets⟩
  -- the statement from the other end has the edge for a predicate
  have hbackward : ∀ edge, IsName edge → ∀ other, o.value.subject? = some other →
      Statement.IsLegible ⟨other, edge, ⟨e.subject.operand, o.facets⟩⟩ := fun edge hedge _ hother =>
    ⟨hobject.value.subject? hother, hedge, h.subject, hobject.facets⟩
  unfold valueStatements at ht
  rcases hdirection : (s.predicate? f.1).bind Predicate.direction? with _ | _ | edge | _
  · simp only [hdirection, List.mem_singleton] at ht
    exact ht ▸ hforward
  · simp only [hdirection, List.mem_singleton] at ht
    exact ht ▸ hforward
  · obtain ⟨p, hp, hreverse⟩ := Option.bind_eq_some_iff.1 hdirection
    simp only [hdirection] at ht
    split at ht
    · rename_i other hother
      rw [List.mem_singleton.1 ht]
      exact hbackward edge (Schema.isName_edge hbuild hp hreverse) other hother
    · cases ht
  · simp only [hdirection, List.mem_cons] at ht
    rcases ht with rfl | ht
    · exact hforward
    · split at ht
      · rename_i other hother
        rw [List.mem_singleton.1 ht]
        exact hbackward f.1 hname other hother
      · cases ht

end

namespace Mutation

variable {types : List EntityType} {s : Schema}

/-- What is cleared in one go is cleared for one predicate of one node. -/
theorem mem_clearings {pairs : List (Uid × String)} {m : Mutation}
    (h : clearings s pairs = .ok m) :
    (∀ b ∈ m.prelude, ∃ u name p, s.predicate? name = some p ∧ b ∈ (clearing u p name).prelude) ∧
      ∀ t ∈ m.delete, ∃ u name p, s.predicate? name = some p ∧
        t ∈ (clearing u p name).delete := by
  induction pairs generalizing m with
  | nil =>
    cases h
    exact ⟨fun _ hb => (List.not_mem_nil hb).elim, fun _ ht => (List.not_mem_nil ht).elim⟩
  | cons pair rest ih =>
    obtain ⟨u, name⟩ := pair
    simp only [clearings] at h
    split at h
    · cases h
    · rename_i p hp
      obtain ⟨m', hrest, rfl⟩ := map_eq_ok.1 h
      obtain ⟨hprelude, hdelete⟩ := ih hrest
      refine ⟨fun b hb => ?_, fun t ht => ?_⟩
      · rcases List.mem_append.1 hb with hb | hb
        · exact ⟨u, name, p, hp, hb⟩
        · exact hprelude b hb
      · rcases List.mem_append.1 ht with ht | ht
        · exact ⟨u, name, p, hp, ht⟩
        · exact hdelete t ht

section

variable (hbuild : Schema.build types = .ok s)
include hbuild

/-- What a predicate is cleared with has names of the registry. -/
theorem isLegible_clearing {name : String} {p : Predicate} (hp : s.predicate? name = some p)
    (u : Uid) : (clearing u p name).IsLegible := by
  have hname := Schema.isName_of_predicate? hbuild hp
  have hplain : ∀ {subject : Subject} {edge : String} {value : Operand},
      subject.operand.IsLegible → IsName edge → value.IsLegible →
        (Statement.plain subject edge value).IsLegible := fun hsubject hedge hvalue =>
    ⟨hsubject, hedge, hvalue, fun _ he => (List.not_mem_nil he).elim⟩
  have hrest : IsName (u.text ++ "_" ++ name) :=
    (u.isName_text.append (by decide)).append hname
  have hunlink : ∀ {mark edge : String}, mark = "rev_" ∨ mark = "mut_" → IsName edge →
      BindsOwners (ownersBlock (mark ++ u.text ++ "_" ++ name) edge u (owners p)) ∧
        (unlink (mark ++ u.text ++ "_" ++ name) edge u).IsLegible :=
    fun {mark edge} hmark hedge => by
      have hname : IsName mark := by rcases hmark with rfl | rfl <;> decide
      have hvar : mark ++ u.text ++ "_" ++ name = mark ++ (u.text ++ "_" ++ name) := by
        simp [String.append_assoc]
      rw [hvar]
      exact ⟨.intro hmark hrest hedge u _, hplain (hname.append hrest) hedge trivial⟩
  have hclear : (clearAll u name).IsLegible := hplain trivial hname trivial
  unfold clearing
  rcases hdirection : p.direction? with _ | _ | edge | _
  · exact ⟨by simpa using hclear, by simp⟩
  · exact ⟨by simpa using hclear, by simp⟩
  · have howners := hunlink (.inl rfl) (Schema.isName_edge hbuild hp hdirection)
    exact ⟨by simpa using howners.2, by simpa [owners] using howners.1⟩
  · have howners := hunlink (.inr rfl) hname
    exact ⟨by simpa using ⟨hclear, howners.2⟩, by simpa [owners] using howners.1⟩

/-- A compiled mutation is legible, if the entry and the new nodes are. -/
theorem isLegible_of_compile {entry : Entity} {overwrites : Overwrites} {related : List Related}
    {m : Mutation} (hentry : entry.IsLegible) (hrelated : ∀ t, .new t ∈ related → t.IsLegible)
    (h : compile s entry overwrites related = .ok m) : m.IsLegible := by
  obtain ⟨c, hclearings, hprelude, hdelete, hset⟩ := compile_ok h
  obtain ⟨hblocks, hdeletes⟩ := mem_clearings hclearings
  refine ⟨List.forall_mem_append.2 ⟨fun t ht => ?_, fun t ht => ?_⟩, fun b hb => ?_⟩
  · rw [hdelete] at ht
    obtain ⟨u, name, p, hp, ht⟩ := hdeletes t ht
    exact (isLegible_clearing hbuild hp u).statements t (List.mem_append_left _ ht)
  · rw [hset] at ht
    rcases List.mem_append.1 ht with ht | ht
    · exact hentry.statements hbuild ht
    · obtain ⟨r, hr, ht⟩ := List.mem_flatMap.1 ht
      cases r with
      | existing u => cases ht
      | new satellite => exact ((hrelated satellite hr).entity s).statements hbuild ht
  · rw [hprelude] at hb
    obtain ⟨u, name, p, hp, hb⟩ := hblocks b hb
    exact (isLegible_clearing hbuild hp u).prelude b hb

end

/-- The text of a compiled mutation carries its statements, whatever is written in their literals
and facets. -/
theorem isLossless_of_compile (hbuild : Schema.build types = .ok s) {entry : Entity}
    {overwrites : Overwrites} {related : List Related} {m : Mutation} (hentry : entry.IsLegible)
    (hrelated : ∀ t, .new t ∈ related → t.IsLegible)
    (h : compile s entry overwrites related = .ok m) : m.IsLossless :=
  (isLegible_of_compile hbuild hentry hrelated h).isLossless

/-- A source whose name looks like the end of a section, published by an organization that is new
and whose name looks like a statement. -/
def publishedSource : Entity where
  subject := .existing (.ofNat 5)
  fields :=
    (Table.empty.insert "name"
      [.plain (.literal (.text "The \"Star\"\n\x7d\nset \x7b"))]).insert "publishes_org"
      [⟨.new ⟨"acme", none⟩, ⟨[("note", .text "a, b=1) ."), ("weight", .int (-3))]⟩⟩]

/-- The organization, with a name that looks like a statement. -/
def publishingOrganization : Satellite where
  node := ⟨"acme", none⟩
  typeName := "Organization"
  fields := Table.empty.insert "name" [.plain (.literal (.text "<0x5> <name> * .\n\x7d"))]

/-- The publishers are cleared with the help of a prelude, or the source is only added to. -/
theorem isLossless_of_compile_published : ∃ m n,
    compile Inventory.schema publishedSource [(.ofNat 5, ["name", "publishes_org"])]
      [.new publishingOrganization] = .ok m ∧
    compile Inventory.schema publishedSource [] [.new publishingOrganization] = .ok n ∧
    m.prelude.length = 1 ∧ n.prelude.length = 0 ∧ m.IsLossless ∧ n.IsLossless := by
  have hcompile : ((compile Inventory.schema publishedSource
        [(.ofNat 5, ["name", "publishes_org"])] [.new publishingOrganization]).toOption.any
          (·.prelude.length == 1) &&
      (compile Inventory.schema publishedSource [] [.new publishingOrganization]).toOption.any
        (·.prelude.length == 0)) = true := by
    rewrite [Inventory.schema_eq]
    decide +kernel
  have hacme : (⟨"acme", none⟩ : BlankNode).IsSlugged := ⟨by decide +kernel, by decide⟩
  have htext : ∀ s : String, (Object.plain (.literal (.text s))).IsLegible := fun s =>
    Object.isLegible_plain trivial
  have hsource : publishedSource.IsLegible := by
    refine ⟨trivial, (Fields.isLegible_empty.insert (by decide) ?_).insert (by decide) ?_⟩
    · simpa using htext _
    · simp only [List.mem_singleton, forall_eq]
      refine ⟨hacme, fun e he => ?_⟩
      rcases List.mem_cons.1 he with rfl | he
      · exact (by decide : IsName "note")
      · rw [List.mem_singleton.1 he]
        exact (by decide : IsName "weight")
  have hrelated : ∀ t, .new t ∈ [Related.new publishingOrganization] → t.IsLegible := by
    intro t ht
    obtain rfl := Related.new.inj (List.mem_singleton.1 ht)
    exact ⟨hacme, Fields.isLegible_empty.insert (by decide)
      (by simpa using htext _)⟩
  obtain ⟨hm, hn⟩ := Bool.and_eq_true_iff.1 hcompile
  obtain ⟨m, hm, hprelude⟩ := (Option.any_eq_true _ _).1 hm
  obtain ⟨n, hn, hprelude'⟩ := (Option.any_eq_true _ _).1 hn
  have hm := toOption_eq_some.1 hm
  have hn := toOption_eq_some.1 hn
  exact ⟨m, n, hm, hn, beq_iff_eq.1 hprelude, beq_iff_eq.1 hprelude',
    isLossless_of_compile Inventory.build_entityTypes hsource hrelated hm,
    isLossless_of_compile Inventory.build_entityTypes hsource hrelated hn⟩

end Mutation

end PressRegister
