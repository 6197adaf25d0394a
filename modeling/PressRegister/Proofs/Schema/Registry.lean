import PressRegister.Proofs.Consult
import PressRegister.Schema

/-!
# What the construction of a schema establishes

A schema that was built holds every type and every predicate under its own name. A
type has no two predicates of one name, and each of them is stored in the same way
as the registered predicate of its name.

## Main definitions

* `Schema.WellFormed`: what holds of every schema that was built.
* `Schema.enterType`: the registration of a type without its checks.
* `Schema.edge`: the edge that a field is stored under.
* `Schema.IsOwn`: a field has its edge to itself.

## Main results

* `Schema.types_of_build`: the types of a schema that was built.
* `Schema.predicate?_of_build`: the registered predicate of a name is the first declared.
* `Schema.wellFormed_of_build`: a schema that was built is well formed.
* `Schema.mem_lineage_of_build`: nodes of a type are given the type itself.
* `Schema.reverse_forward`: the edge of a reverse predicate is registered as a forward one.
* `Schema.isOwn_of_build`: fields whose values are no nodes have their edges to themselves.
-/

namespace PressRegister.Schema

/-- What holds of every schema that was built. -/
structure WellFormed (s : Schema) : Prop where
  /-- Types are registered under their names. -/
  typeNames : ∀ {key t}, s.types.get? key = some t → t.name = key
  /-- Predicates are registered under their names. -/
  predicateNames : ∀ {key p}, s.predicates.get? key = some p → p.name = key
  /-- The predicates of a type are stored as the registered ones of their names. -/
  shapes : ∀ {key t}, s.types.get? key = some t → ∀ p ∈ t.predicates,
    ∃ first, s.predicates.get? p.name = some first ∧ sameShape first p = true
  /-- No two predicates of a type have one name. -/
  distinct : ∀ {key t}, s.types.get? key = some t →
    t.predicates.Pairwise fun p q => p.name ≠ q.name

/-! ### Registering predicates -/

theorem sameShape_refl (p : Predicate) : sameShape p p = true := by
  simp [sameShape]

/-- One declaration enters the registry: its name is new to the type, and it is stored as the
registered declaration of the name, which it is itself if there was none. -/
theorem registerPredicates_cons_ok {typeName : String} {p : Predicate} {rest : List Predicate}
    {seen : List String} {before after : Table Predicate}
    (h : registerPredicates typeName (p :: rest) seen before = .ok after) :
    checkNames typeName p = .ok () ∧ p.name ∉ seen ∧ ∃ mid,
      registerPredicates typeName rest (p.name :: seen) mid = .ok after ∧
      ((∃ first, before.get? p.name = some first ∧ sameShape first p = true ∧ mid = before) ∨
        before.get? p.name = none ∧ mid = before.insert p.name p) := by
  unfold registerPredicates at h
  obtain ⟨⟨⟩, hcheck, h⟩ := bind_eq_ok.1 h
  split at h
  · cases h
  · rename_i hseen
    refine ⟨hcheck, by simpa using hseen, ?_⟩
    split at h
    · rename_i first hfirst
      split at h
      · rename_i hshape
        exact ⟨before, h, .inl ⟨first, hfirst, hshape, rfl⟩⟩
      · cases h
    · rename_i hnone
      exact ⟨_, h, .inr ⟨hnone, rfl⟩⟩

/-- What holds once the predicates of a type are entered into the registry. -/
structure Entered (predicates : List Predicate) (seen : List String)
    (before after : Table Predicate) : Prop where
  /-- Names keep their declarations, and new ones get the first of the type. -/
  registered : ∀ key, after.get? key =
    (before.get? key).or (predicates.find? (·.name == key))
  shapes : ∀ p ∈ predicates, ∃ first, after.get? p.name = some first ∧ sameShape first p = true
  unseen : ∀ p ∈ predicates, p.name ∉ seen
  distinct : predicates.Pairwise fun p q => p.name ≠ q.name

namespace Entered

variable {predicates : List Predicate} {seen : List String} {before after : Table Predicate}

theorem kept (h : Entered predicates seen before after) {key : String} {p : Predicate}
    (hp : before.get? key = some p) : after.get? key = some p := by
  rw [h.registered, hp, Option.some_or]

theorem names (h : Entered predicates seen before after)
    (hbefore : ∀ {key p}, before.get? key = some p → p.name = key) {key : String} {p : Predicate}
    (hp : after.get? key = some p) : p.name = key := by
  rw [h.registered] at hp
  rcases Option.or_eq_some_iff.1 hp with hp | ⟨-, hp⟩
  · exact hbefore hp
  · simpa using List.find?_some hp

end Entered

theorem entered_of_registerPredicates {typeName : String} {predicates : List Predicate}
    {seen : List String} {before after : Table Predicate}
    (h : registerPredicates typeName predicates seen before = .ok after) :
    Entered predicates seen before after := by
  induction predicates generalizing seen before with
  | nil =>
    cases h
    exact ⟨fun _ => by simp, by simp, by simp, .nil⟩
  | cons p rest ih =>
    obtain ⟨-, hunseen, mid, hrest, hmid⟩ := registerPredicates_cons_ok h
    have hentered := ih hrest
    -- either way the name is registered, with the declaration it had or with this one
    have hget : ∀ key, mid.get? key =
        (before.get? key).or (if p.name = key then some p else none) := by
      intro key
      rcases hmid with ⟨first, hfirst, -, rfl⟩ | ⟨hnone, rfl⟩
      · split
        · rename_i hname
          rw [← hname, hfirst, Option.some_or]
        · rw [Option.or_none]
      · rw [Table.get?_insert]
        by_cases hname : key = p.name
        · simp [hname, hnone]
        · simp [hname, Ne.symm hname]
    obtain ⟨first, hfirst, hshape⟩ : ∃ first, mid.get? p.name = some first ∧
        sameShape first p = true := by
      rcases hmid with ⟨first, hfirst, hshape, rfl⟩ | ⟨-, rfl⟩
      · exact ⟨first, hfirst, hshape⟩
      · exact ⟨p, Table.get?_insert_self _ _ _, sameShape_refl p⟩
    refine ⟨fun key => ?_, ?_, ?_, ?_⟩
    · rw [hentered.registered, hget, Option.or_assoc]
      congr 1
      by_cases hname : p.name = key
      · simp [hname]
      · simp [hname]
    · intro q hq
      rcases List.mem_cons.1 hq with rfl | hq
      · exact ⟨first, hentered.kept hfirst, hshape⟩
      · exact hentered.shapes q hq
    · intro q hq
      rcases List.mem_cons.1 hq with rfl | hq
      · exact hunseen
      · exact fun hmem => hentered.unseen q hq (List.mem_cons_of_mem _ hmem)
    · refine List.pairwise_cons.2 ⟨fun q hq heq => ?_, hentered.distinct⟩
      exact hentered.unseen q hq (heq ▸ List.mem_cons_self)

/-! ### Registering types -/

/-- A type has its own predicates and those of its parent that it does not declare anew. -/
theorem inherit_ok {types : Table TypeDef} {t : EntityType} {lineage : List String}
    {resolved : List Predicate} (h : inherit types t = .ok (lineage, resolved)) :
    resolved = t.predicates ∨ ∃ name parent, types.get? name = some parent ∧
      resolved = t.predicates ++
        parent.predicates.filter fun p => !(t.predicates.any (·.name == p.name)) := by
  unfold inherit at h
  split at h
  · cases h
    exact .inl rfl
  · rename_i name hname
    split at h
    · cases h
    · rename_i parent hparent
      cases h
      exact .inr ⟨name, parent, hparent, rfl⟩

/-- A type is registered once its predicates are entered and what it inherits is found. -/
theorem register_ok {s s' : Schema} {t : EntityType} (h : s.register t = .ok s') :
    ∃ predicates lineage resolved,
      registerPredicates t.name t.predicates [] s.predicates = .ok predicates ∧
      inherit s.types t = .ok (lineage, resolved) ∧
      s' = ⟨s.types.insert t.name ⟨t.name, lineage, resolved, t.permissionNew, t.permissionEdit⟩,
        predicates⟩ := by
  unfold register at h
  split at h
  · cases h
  split at h
  · cases h
  obtain ⟨predicates, hregister, h⟩ := bind_eq_ok.1 h
  obtain ⟨⟨lineage, resolved⟩, hinherit, h⟩ := bind_eq_ok.1 h
  exact ⟨predicates, lineage, resolved, hregister, hinherit, pure_eq_ok.1 h⟩

theorem wellFormed_register {s s' : Schema} {t : EntityType} (hs : s.WellFormed)
    (h : s.register t = .ok s') : s'.WellFormed := by
  obtain ⟨predicates, lineage, resolved, hregister, hinherit, rfl⟩ := register_ok h
  have hentered := entered_of_registerPredicates hregister
  have hold : ∀ {p : Predicate}, (∃ first, s.predicates.get? p.name = some first ∧
      sameShape first p = true) → ∃ first, predicates.get? p.name = some first ∧
        sameShape first p = true :=
    fun ⟨first, hfirst, hshape⟩ => ⟨first, hentered.kept hfirst, hshape⟩
  have hresolved : (∀ p ∈ resolved, ∃ first, predicates.get? p.name = some first ∧
      sameShape first p = true) ∧ resolved.Pairwise fun p q => p.name ≠ q.name := by
    rcases inherit_ok hinherit with rfl | ⟨name, parent, hparent, rfl⟩
    · exact ⟨hentered.shapes, hentered.distinct⟩
    · refine ⟨fun p hp => ?_, List.pairwise_append.2 ⟨hentered.distinct, ?_, fun p hp q hq => ?_⟩⟩
      · rcases List.mem_append.1 hp with hp | hp
        · exact hentered.shapes p hp
        · exact hold (hs.shapes hparent p (List.mem_filter.1 hp).1)
      · exact (hs.distinct hparent).filter _
      · intro heq
        have hnone := (List.mem_filter.1 hq).2
        simp only [Bool.not_eq_true', List.any_eq_false, beq_iff_eq] at hnone
        exact hnone p hp heq
  refine ⟨fun {key t'} ht => ?_, hentered.names hs.predicateNames, fun {key t'} ht => ?_,
    fun {key t'} ht => ?_⟩
  all_goals rw [Table.get?_insert] at ht; split at ht
  · rename_i heq
    cases ht
    exact heq.symm
  · exact hs.typeNames ht
  · cases ht
    exact hresolved.1
  · exact fun p hp => hold (hs.shapes ht p hp)
  · cases ht
    exact hresolved.2
  · exact hs.distinct ht

theorem wellFormed_empty : WellFormed ⟨.empty, .empty⟩ where
  typeNames h := by cases h
  predicateNames h := by cases h
  shapes h := by cases h
  distinct h := by cases h

variable {types : List EntityType} {s : Schema}

/-- The checks of a whole registry leave it as the declarations made it. -/
theorem foldlM_of_build (h : build types = .ok s) :
    types.foldlM register ⟨.empty, .empty⟩ = .ok s := by
  obtain ⟨s', hregister, h⟩ := bind_eq_ok.1 h
  obtain ⟨-, -, h⟩ := bind_eq_ok.1 h
  obtain ⟨-, -, h⟩ := bind_eq_ok.1 h
  obtain rfl := pure_eq_ok.1 h
  exact hregister

theorem build_ok (h : build types = .ok s) :
    s.WellFormed ∧ s.checkEntryPredicates = .ok () ∧ s.checkReverseEdges = .ok () := by
  obtain ⟨s', hregister, h⟩ := bind_eq_ok.1 h
  obtain ⟨⟨⟩, hentry, h⟩ := bind_eq_ok.1 h
  obtain ⟨⟨⟩, hreverse, h⟩ := bind_eq_ok.1 h
  obtain rfl := pure_eq_ok.1 h
  exact ⟨foldlM_induction (fun s t s' hs => wellFormed_register hs) wellFormed_empty hregister,
    hentry, hreverse⟩

/-- Enters a type with what it inherits. A type whose parent is unknown is left out. -/
def enterType (types : Table TypeDef) (t : EntityType) : Table TypeDef :=
  match inherit types t with
  | .ok (lineage, resolved) =>
    types.insert t.name ⟨t.name, lineage, resolved, t.permissionNew, t.permissionEdit⟩
  | .error _ => types

/-- The types of a schema that was built are those that are entered without any check. -/
theorem types_of_build (h : build types = .ok s) : s.types = types.foldl enterType .empty := by
  have hfold : ∀ (rest : List EntityType) (before after : Schema),
      rest.foldlM register before = .ok after →
        after.types = rest.foldl enterType before.types := by
    intro rest
    induction rest with
    | nil =>
      intro before after h
      rw [← pure_eq_ok.1 h]
      rfl
    | cons t rest ih =>
      intro before after h
      rw [List.foldlM_cons] at h
      obtain ⟨mid, hmid, hrest⟩ := bind_eq_ok.1 h
      obtain ⟨predicates, lineage, resolved, -, hinherit, rfl⟩ := register_ok hmid
      rw [ih _ _ hrest, List.foldl_cons, enterType, hinherit]
  exact hfold types _ s (foldlM_of_build h)

/-- A type is the first of its lineage. -/
theorem mem_lineage_of_inherit {types : Table TypeDef} {t : EntityType} {lineage : List String}
    {resolved : List Predicate} (h : inherit types t = .ok (lineage, resolved)) :
    t.name ∈ lineage := by
  unfold inherit at h
  split at h
  · cases h
    exact List.mem_cons_self
  · split at h
    · cases h
    · cases h
      exact List.mem_cons_self

/-- Nodes of a type are given the type itself among others. -/
theorem mem_lineage_of_build (h : build types = .ok s) {key : String} {t : TypeDef}
    (ht : s.types.get? key = some t) : t.name ∈ t.lineage := by
  have hregister := foldlM_of_build h
  refine foldlM_induction (P := fun s => ∀ key t, s.types.get? key = some t → t.name ∈ t.lineage)
    (fun before e after hbefore hregister key t ht => ?_) (fun key t ht => by cases ht)
    hregister key t ht
  obtain ⟨predicates, lineage, resolved, -, hinherit, rfl⟩ := register_ok hregister
  rw [Table.get?_insert] at ht
  split at ht
  · cases ht
    exact mem_lineage_of_inherit hinherit
  · exact hbefore key t ht

/-- The registered predicate of a name is the first that any type declares under it. -/
theorem predicate?_of_build (h : build types = .ok s) (name : String) :
    s.predicate? name = (types.flatMap (·.predicates)).find? (·.name == name) := by
  have hregister := foldlM_of_build h
  have hall (types : List EntityType) (before : Schema)
      (hregister : types.foldlM register before = .ok s) :
      s.predicates.get? name = (before.predicates.get? name).or
        ((types.flatMap (·.predicates)).find? (·.name == name)) := by
    induction types generalizing before with
    | nil =>
      obtain rfl := pure_eq_ok.1 hregister
      simp
    | cons t rest ih =>
      rw [List.foldlM_cons] at hregister
      obtain ⟨mid, hmid, hrest⟩ := bind_eq_ok.1 hregister
      obtain ⟨predicates, lineage, resolved, hpredicates, -, rfl⟩ := register_ok hmid
      rw [ih _ hrest, (entered_of_registerPredicates hpredicates).registered, Option.or_assoc,
        List.flatMap_cons, List.find?_append]
  exact hall types _ hregister

theorem mem_declared_of_build (h : build types = .ok s) {name : String} {p : Predicate}
    (hp : s.predicate? name = some p) : p ∈ types.flatMap (·.predicates) := by
  rw [predicate?_of_build h] at hp
  exact List.mem_of_find?_eq_some hp

/-- A schema that was built is well formed. -/
theorem wellFormed_of_build (h : build types = .ok s) : s.WellFormed :=
  (build_ok h).1

/-- The edge of a reverse predicate is registered as a forward one. -/
theorem reverse_forward (h : build types = .ok s) {name edge : String} {p : Predicate}
    (hp : s.predicate? name = some p) (hdir : p.direction? = some (.reverse edge)) :
    ∃ q, s.predicate? edge = some q ∧ q.direction? = some .forward := by
  have hcheck := ok_of_forM (build_ok h).2.2 (Table.mem_values_iff.2 ⟨name, hp⟩)
  simp only [hdir] at hcheck
  split at hcheck
  · rename_i hforward
    unfold isForward at hforward
    split at hforward
    · rename_i q hq
      exact ⟨q, hq, by simpa using hforward⟩
    · cases hforward
  · cases hcheck

/-! ### Look-ups -/

/-- The registered types among names. -/
def registered (s : Schema) (names : List String) : List TypeDef :=
  names.filterMap s.types.get?

namespace WellFormed

variable (hs : s.WellFormed)
include hs

/-- A type that is looked up is registered under its name. -/
theorem get?_of_type? {name : String} {t : TypeDef} (h : s.type? name = some t) :
    s.types.get? t.name = some t := by
  unfold type? at h
  rcases Option.or_eq_some_iff.1 h with h | ⟨-, h⟩
  · rw [hs.typeNames h]
    exact h
  · obtain ⟨⟨key, t'⟩, hmem, rfl⟩ := List.mem_map.1 (List.mem_of_find?_eq_some h)
    have hget := Table.get?_eq_some_iff.2 hmem
    rw [hs.typeNames hget]
    exact hget

theorem mem_registered {names : List String} {t : TypeDef} :
    t ∈ s.registered names ↔ t.name ∈ names ∧ s.types.get? t.name = some t := by
  unfold registered
  rw [List.mem_filterMap]
  constructor
  · rintro ⟨name, hname, ht⟩
    rw [hs.typeNames ht]
    exact ⟨hname, ht⟩
  · rintro ⟨hname, ht⟩
    exact ⟨t.name, hname, ht⟩

/-- A predicate of a type is the one of its name. -/
theorem predicate?_eq {key : String} {t : TypeDef} (ht : s.types.get? key = some t)
    {p : Predicate} (hp : p ∈ t.predicates) : t.predicate? p.name = some p := by
  have hdistinct := hs.distinct ht
  unfold TypeDef.predicate?
  generalize t.predicates = predicates at hp hdistinct
  induction predicates with
  | nil => cases hp
  | cons q rest ih =>
    obtain ⟨hq, hrest⟩ := List.pairwise_cons.1 hdistinct
    rcases List.mem_cons.1 hp with rfl | hp
    · simp
    · rw [List.find?_cons_of_neg (by simpa using hq p hp)]
      exact ih hp hrest

/-- A predicate of a type is stored as the registered one. -/
theorem sameShape_of_predicate? {key name : String} {t : TypeDef} {p first : Predicate}
    (ht : s.types.get? key = some t) (hp : t.predicate? name = some p)
    (hfirst : s.predicate? name = some first) : sameShape first p = true := by
  have hname : p.name = name := by simpa using List.find?_some hp
  obtain ⟨first', hfirst', hshape⟩ := hs.shapes ht p (List.mem_of_find?_eq_some hp)
  rw [hname, show s.predicates.get? name = some first from hfirst] at hfirst'
  cases hfirst'
  exact hshape

/-- A type declares a unique name where the registry does. -/
theorem kind_of_uniqueName {key name : String} {t : TypeDef} {p first : Predicate}
    (ht : s.types.get? key = some t) (hp : t.predicate? name = some p)
    (hfirst : s.predicate? name = some first) (hkind : first.kind = .uniqueName) :
    p.kind = .uniqueName := by
  have hshape := hs.sameShape_of_predicate? ht hp hfirst
  simp only [sameShape, Bool.and_eq_true, beq_iff_eq] at hshape
  have hsame : Predicate.Kind.uniqueName.name = p.kind.name := hkind ▸ hshape.1.2
  cases hp : p.kind with
  | uniqueName => rfl
  | _ =>
    rw [hp] at hsame
    simp [Predicate.Kind.name] at hsame

/-- A type declares no relationship where the registry declares none. -/
theorem isRelationship_eq_false {key name : String} {t : TypeDef} {p first : Predicate}
    (ht : s.types.get? key = some t) (hp : t.predicate? name = some p)
    (hfirst : s.predicate? name = some first) (hdir : first.direction? = none) :
    p.isRelationship = false := by
  have hshape := hs.sameShape_of_predicate? ht hp hfirst
  simp only [sameShape, Bool.and_eq_true, beq_iff_eq] at hshape
  rw [Predicate.direction?, Option.map_eq_none_iff] at hdir
  rw [hdir, Option.map_none] at hshape
  rw [Predicate.isRelationship, Option.map_eq_none_iff.1 hshape.2.symm]
  rfl

end WellFormed

/-- A type is looked up under its name, or under a name of the same letters that is no type's. -/
theorem type?_cases {name : String} {t : TypeDef} (h : s.type? name = some t) :
    s.types.get? name = some t ∨ s.types.get? name = none ∧ sameLetters t.name name = true := by
  unfold type? at h
  rcases Option.or_eq_some_iff.1 h with h | ⟨hnone, h⟩
  · exact .inl h
  · exact .inr ⟨hnone, List.find?_some (p := fun t : TypeDef => sameLetters t.name name) h⟩

theorem type?_of_get? {name : String} {t : TypeDef} (h : s.types.get? name = some t) :
    s.type? name = some t := by
  simp [type?, h]

/-! ### Where fields are stored -/

/-- The direction of the edges of a field. -/
def direction? (s : Schema) (name : String) : Option Direction :=
  (s.predicate? name).bind Predicate.direction?

/-- The edge that a field is stored under. -/
def edge (s : Schema) (name : String) : String :=
  match s.direction? name with
  | some (.reverse edge) => edge
  | _ => name

/-- A field is stored at the node itself and not at its values. -/
def IsForward (s : Schema) (name : String) : Prop :=
  s.direction? name = none ∨ s.direction? name = some .forward

/-- A field is stored at the node itself, and no other field is stored under its name. -/
def IsOwn (s : Schema) (name : String) : Prop :=
  s.IsForward name ∧ ∀ key, key ≠ name → s.edge key ≠ name

theorem edge_of_isForward {name : String} (h : s.IsForward name) : s.edge name = name := by
  unfold edge
  rcases h with h | h <;> rw [h]

/-- A field has its edge to itself if no field is its reverse. -/
theorem isOwn_of_forall {name : String} (h : s.IsForward name)
    (hreverse : ∀ p ∈ s.predicates.values, p.direction? ≠ some (.reverse name)) :
    s.IsOwn name := by
  refine ⟨h, fun key hne => ?_⟩
  unfold edge
  split
  · rename_i other hdir
    obtain ⟨p, hp, hdir⟩ := Option.bind_eq_some_iff.1 hdir
    rintro rfl
    exact hreverse p (Table.mem_values_iff.2 ⟨key, hp⟩) hdir
  · exact hne

/-- The name of a field that does not lead forward is the edge of no other field. -/
theorem edge_ne_of_build (h : build types = .ok s) {name key : String} {p : Predicate}
    (hp : s.predicate? name = some p) (hdir : p.direction? ≠ some .forward) (hne : key ≠ name) :
    s.edge key ≠ name := by
  unfold edge
  split
  · rename_i other hreverse
    obtain ⟨q, hq, hreverse⟩ := Option.bind_eq_some_iff.1 hreverse
    rintro rfl
    obtain ⟨p', hp', hforward⟩ := reverse_forward h hq hreverse
    rw [hp] at hp'
    cases hp'
    exact hdir hforward
  · exact hne

/-- A field whose values are no nodes has its edge to itself. -/
theorem isOwn_of_build (h : build types = .ok s) {name : String} {p : Predicate}
    (hp : s.predicate? name = some p) (hdir : p.direction? = none) : s.IsOwn name := by
  have hnone : s.direction? name = none := by rw [direction?, hp, Option.bind_some, hdir]
  exact ⟨.inl hnone, fun key => edge_ne_of_build h hp (by rw [hdir]; exact nofun)⟩

end PressRegister.Schema
