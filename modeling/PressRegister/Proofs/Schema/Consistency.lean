import Mathlib.Data.List.Nodup
import PressRegister.Proofs.Inventory.Registry
import PressRegister.Proofs.Schema.Names

/-!
# A schema that was built is consistent

Types are registered one after another, each below a parent that is registered already, and a
name is registered once. So a type stays what it was when it was registered: its own
declarations, then those of its parent that it does not declare anew, and a lineage that goes
up to a type without parent. Each declaration is compared with the first one of its name, which
stays registered, so in the end all declarations of a name store their values alike.

## Main definitions

* `TypeDef.Inherits`: a type is what its declaration and its parent make of it.
* `Predicate.StoredLike`: two predicates store their values alike.
* `Schema.Extends`: a schema is another one with declared types entered.
* `TypeDef.Consistent`: all that holds of a registered type.

## Main results

* `Schema.extends_of_register`: what one declaration does to a schema.
* `Schema.consistent_of_build`: the types of a schema that was built are consistent.
-/

namespace PressRegister

/-- A type is what its declaration and its parent, if it has one, make of it. -/
inductive TypeDef.Inherits (s : Schema) (e : EntityType) (t : TypeDef) : Prop
  | root (hparent : e.parent = none) (hlineage : t.lineage = [t.name])
      (hpredicates : t.predicates = e.predicates) : Inherits s e t
  | child {name : String} {parent : TypeDef} (hparent : e.parent = some name)
      (hregistered : s.types.get? name = some parent)
      (hlineage : t.lineage = t.name :: parent.lineage)
      (hpredicates : t.predicates = e.predicates ++
        parent.predicates.filter fun p => p.name ∉ e.predicates.map (·.name)) : Inherits s e t

/-- Two predicates store their values alike: their classes, the constructors of their kinds, their
cardinalities and their directions are the same. -/
structure Predicate.StoredLike (p q : Predicate) : Prop where
  storageClass : p.storageClass = q.storageClass
  kind : p.kind.ctorIdx = q.kind.ctorIdx
  cardinality : p.relationship?.map (·.cardinality) = q.relationship?.map (·.cardinality)
  direction : p.direction? = q.direction?

/-- What holds of a type that is registered in a schema, which was built from declarations. -/
structure TypeDef.Consistent (types : List EntityType) (s : Schema) (t : TypeDef) : Prop where
  /-- One declaration has the name of the type, and makes it what it is. -/
  declared : ∃ e ∈ types, e.name = t.name ∧ t.Inherits s e ∧
    ∀ e' ∈ types, e'.name = t.name → e' = e
  nodup_lineage : t.lineage.Nodup
  /-- The types of the lineage are registered, and the type has a predicate of each name that one
  of them has. -/
  ancestors : ∀ name ∈ t.lineage, ∃ a, s.types.get? name = some a ∧
    ∀ p ∈ a.predicates, ∃ q ∈ t.predicates, q.name = p.name
  nodup_names : (t.predicates.map (·.name)).Nodup
  isIdentifier : ∀ p ∈ t.predicates, Text.isIdentifier p.name = true
  entry : ∀ name ∈ entryPredicates, ∃ p ∈ t.predicates, p.name = name
  /-- The registered predicate of a name is stored like the one of the type. -/
  registered : ∀ p ∈ t.predicates, ∃ q, s.predicate? p.name = some q ∧ q.name = p.name ∧
    q.StoredLike p
  /-- The edge of a reverse predicate is registered as a relationship that leads forward. -/
  reverse : ∀ p ∈ t.predicates, ∀ edge, p.direction? = some (.reverse edge) →
    ∃ q, s.predicate? edge = some q ∧ q.name = edge ∧ q.direction? = some .forward

/-! ### Shapes -/

/-- Kinds of one name have one constructor. -/
theorem Predicate.Kind.ctorIdx_eq_of_name_eq {k l : Predicate.Kind} (h : k.name = l.name) :
    k.ctorIdx = l.ctorIdx := by
  have hindex : ∀ k : Predicate.Kind, k.ctorIdx = ["uid", "string", "unique_name", "list_string",
      "integer", "boolean", "datetime", "geo", "single_choice", "multiple_choice",
      "relationship"].idxOf k.name := by
    intro k
    cases k <;> rfl
  rw [hindex, hindex, h]

theorem Schema.storedLike_of_sameShape {p q : Predicate} (h : sameShape p q = true) :
    p.StoredLike q := by
  simp only [sameShape, Bool.and_eq_true, beq_iff_eq] at h
  obtain ⟨⟨hclass, hkind⟩, hrelationship⟩ := h
  have hcardinality := congrArg (Option.map Prod.fst) hrelationship
  have hdirection := congrArg (Option.map Prod.snd) hrelationship
  simp only [Option.map_map] at hcardinality hdirection
  exact ⟨hclass, Predicate.Kind.ctorIdx_eq_of_name_eq hkind, hcardinality, hdirection⟩

namespace Schema

/-! ### One declaration -/

theorem inherits_of_inherit {s : Schema} {e : EntityType} {lineage : List String}
    {resolved : List Predicate} (h : inherit s.types e = .ok (lineage, resolved)) :
    TypeDef.Inherits s e ⟨e.name, lineage, resolved, e.permissionNew, e.permissionEdit⟩ := by
  unfold inherit at h
  split at h
  · rename_i hparent
    cases h
    exact .root hparent rfl rfl
  · rename_i name hparent
    split at h
    · cases h
    · rename_i parent hregistered
      cases h
      refine .child hparent hregistered rfl ?_
      change e.predicates ++ _ = _
      congr 1
      refine List.filter_congr fun p _ => ?_
      rw [Bool.eq_iff_iff]
      simp

/-- A declaration is entered under a name that was not registered. -/
theorem get?_eq_none_of_register {s s' : Schema} {e : EntityType} (h : s.register e = .ok s') :
    s.types.get? e.name = none := by
  unfold register at h
  split at h
  · cases h
  split at h
  · cases h
  · rename_i hcontains
    simpa [Table.contains] using hcontains

/-- A schema is another one with declared types entered, each of them once. -/
structure Extends (types : List EntityType) (before after : Schema) : Prop where
  kept : ∀ {name t}, before.types.get? name = some t → after.types.get? name = some t
  unregistered : ∀ e ∈ types, before.types.get? e.name = none
  apart : types.Pairwise fun e e' => e.name ≠ e'.name
  entered : ∀ e ∈ types, ∃ t, after.types.get? e.name = some t ∧ t.name = e.name ∧
    t.Inherits after e
  complete : ∀ {name t}, after.types.get? name = some t →
    before.types.get? name = some t ∨ ∃ e ∈ types, e.name = name

end Schema

/-- A type stays what it is when further types are registered. -/
theorem TypeDef.Inherits.mono {s s' : Schema} {e : EntityType} {t : TypeDef}
    (h : t.Inherits s e)
    (hkept : ∀ {name t}, s.types.get? name = some t → s'.types.get? name = some t) :
    t.Inherits s' e := by
  cases h with
  | root hparent hlineage hpredicates => exact .root hparent hlineage hpredicates
  | child hparent hregistered hlineage hpredicates =>
    exact .child hparent (hkept hregistered) hlineage hpredicates

namespace Schema

/-- What one declaration does to a schema. -/
theorem extends_of_register {s s' : Schema} {e : EntityType} (h : s.register e = .ok s') :
    Extends [e] s s' := by
  have hnone := get?_eq_none_of_register h
  obtain ⟨predicates, lineage, resolved, -, hinherit, rfl⟩ := register_ok h
  have hkept : ∀ {name t}, s.types.get? name = some t →
      (s.types.insert e.name ⟨e.name, lineage, resolved, e.permissionNew, e.permissionEdit⟩).get?
        name = some t := by
    intro name t ht
    rw [Table.get?_insert, if_neg]
    · exact ht
    · rintro rfl
      rw [hnone] at ht
      cases ht
  refine ⟨hkept, by simpa using hnone, List.pairwise_singleton _ _, ?_, fun {name t} ht => ?_⟩
  · intro e' he'
    rw [List.mem_singleton.1 he']
    exact ⟨_, Table.get?_insert_self _ _ _, rfl, (inherits_of_inherit hinherit).mono hkept⟩
  · rw [Table.get?_insert] at ht
    split at ht
    · rename_i hname
      exact .inr ⟨e, List.mem_singleton_self e, hname.symm⟩
    · exact .inl ht

theorem Extends.append {as bs : List EntityType} {a b c : Schema} (hab : Extends as a b)
    (hbc : Extends bs b c) : Extends (as ++ bs) a c := by
  have hnew : ∀ e ∈ bs, ∀ e' ∈ as, e'.name ≠ e.name := by
    intro e he e' he' heq
    obtain ⟨t, ht, -⟩ := hab.entered e' he'
    rw [heq, hbc.unregistered e he] at ht
    cases ht
  refine ⟨fun h => hbc.kept (hab.kept h), fun e he => ?_, ?_, fun e he => ?_, fun {name t} ht => ?_⟩
  · rcases List.mem_append.1 he with he | he
    · exact hab.unregistered e he
    · cases ha : a.types.get? e.name with
      | none => rfl
      | some t =>
        have hb := hab.kept ha
        rw [hbc.unregistered e he] at hb
        cases hb
  · exact List.pairwise_append.2 ⟨hab.apart, hbc.apart, fun e' he' e he => hnew e he e' he'⟩
  · rcases List.mem_append.1 he with he | he
    · obtain ⟨t, ht, hname, hinherits⟩ := hab.entered e he
      exact ⟨t, hbc.kept ht, hname, hinherits.mono hbc.kept⟩
    · exact hbc.entered e he
  · rcases hbc.complete ht with hb | ⟨e, he, hname⟩
    · exact (hab.complete hb).imp_right fun ⟨e, he, hname⟩ =>
        ⟨e, List.mem_append_left _ he, hname⟩
    · exact .inr ⟨e, List.mem_append_right _ he, hname⟩

/-! ### All declarations -/

/-- What declarations that are registered one after another do to a schema. -/
theorem extends_of_foldlM {types : List EntityType} {s s' : Schema}
    (h : types.foldlM register s = .ok s') : Extends types s s' := by
  induction types generalizing s with
  | nil =>
    obtain rfl := pure_eq_ok.1 h
    exact ⟨id, by simp, .nil, by simp, .inl⟩
  | cons e rest ih =>
    rw [List.foldlM_cons] at h
    obtain ⟨mid, hmid, hrest⟩ := bind_eq_ok.1 h
    exact (extends_of_register hmid).append (ih hrest)

/-- What holds of the lineages of registered types. -/
structure Lineal (s : Schema) (t : TypeDef) : Prop where
  nodup : t.lineage.Nodup
  ancestors : ∀ name ∈ t.lineage, ∃ a, s.types.get? name = some a ∧
    ∀ p ∈ a.predicates, ∃ q ∈ t.predicates, q.name = p.name

theorem Lineal.mono {s s' : Schema} {t : TypeDef} (h : s.Lineal t)
    (hkept : ∀ {name t}, s.types.get? name = some t → s'.types.get? name = some t) :
    s'.Lineal t := by
  refine ⟨h.nodup, fun name hname => ?_⟩
  obtain ⟨a, ha, hnames⟩ := h.ancestors name hname
  exact ⟨a, hkept ha, hnames⟩

/-- Below a parent, a type has a predicate of each name that the parent has. -/
theorem exists_name_of_parent (own : List Predicate) {inherited : List Predicate}
    {p : Predicate} (hp : p ∈ inherited) :
    ∃ q ∈ own ++ inherited.filter fun p => p.name ∉ own.map (·.name), q.name = p.name := by
  by_cases hown : p.name ∈ own.map (·.name)
  · obtain ⟨q, hq, hname⟩ := List.mem_map.1 hown
    exact ⟨q, List.mem_append_left _ hq, hname⟩
  · exact ⟨p, List.mem_append_right _ (List.mem_filter.2 ⟨hp, by simpa using hown⟩), rfl⟩

/-- The lineage of a new type goes on with that of its parent, which cannot hold a name that was
not registered. -/
theorem lineal_of_inherits {s s' : Schema} {e : EntityType} {t : TypeDef}
    (hs : ∀ name t, s.types.get? name = some t → s.Lineal t)
    (hkept : ∀ {name t}, s.types.get? name = some t → s'.types.get? name = some t)
    (hnone : s.types.get? t.name = none) (ht : s'.types.get? t.name = some t)
    (h : t.Inherits s e) : s'.Lineal t := by
  have hself : ∃ a, s'.types.get? t.name = some a ∧
      ∀ p ∈ a.predicates, ∃ q ∈ t.predicates, q.name = p.name := ⟨t, ht, fun p hp => ⟨p, hp, rfl⟩⟩
  cases h with
  | root _ hlineage _ =>
    refine ⟨by simp [hlineage], fun name hname => ?_⟩
    rw [hlineage, List.mem_singleton] at hname
    exact hname ▸ hself
  | child _ hregistered hlineage hpredicates =>
    have hparent := hs _ _ hregistered
    refine ⟨?_, fun name hname => ?_⟩
    · rw [hlineage]
      refine List.nodup_cons.2 ⟨fun hmem => ?_, hparent.nodup⟩
      obtain ⟨a, ha, -⟩ := hparent.ancestors _ hmem
      rw [hnone] at ha
      cases ha
    · rw [hlineage] at hname
      rcases List.mem_cons.1 hname with rfl | hname
      · exact hself
      · obtain ⟨a, ha, hnames⟩ := hparent.ancestors name hname
        refine ⟨a, hkept ha, fun p hp => ?_⟩
        obtain ⟨q, hq, hqname⟩ := hnames p hp
        obtain ⟨r, hr, hrname⟩ := exists_name_of_parent e.predicates hq
        exact ⟨r, hpredicates ▸ hr, hrname.trans hqname⟩

/-- Registering a type keeps the lineages of the others, and makes one for it. -/
theorem lineal_register {s s' : Schema} {e : EntityType}
    (hs : ∀ name t, s.types.get? name = some t → s.Lineal t) (h : s.register e = .ok s') :
    ∀ name t, s'.types.get? name = some t → s'.Lineal t := by
  have hkept : ∀ {name t}, s.types.get? name = some t → s'.types.get? name = some t :=
    (extends_of_register h).kept
  have hnone := get?_eq_none_of_register h
  obtain ⟨predicates, lineage, resolved, -, hinherit, rfl⟩ := register_ok h
  intro name t ht
  rw [Table.get?_insert] at ht
  split at ht
  · cases ht
    exact lineal_of_inherits hs hkept hnone (Table.get?_insert_self _ _ _)
      (inherits_of_inherit hinherit)
  · exact (hs name t ht).mono hkept

variable {types : List EntityType} {s : Schema}

theorem lineal_of_build (h : build types = .ok s) {name : String} {t : TypeDef}
    (ht : s.types.get? name = some t) : s.Lineal t :=
  foldlM_induction (P := fun s => ∀ name t, s.types.get? name = some t → s.Lineal t)
    (fun _ _ _ hs => lineal_register hs) (fun _ _ ht => by cases ht) (foldlM_of_build h) name t ht

/-- A type of a schema that was built has the predicates of an entry. -/
theorem exists_entryPredicate_of_build (h : build types = .ok s) {key name : String} {t : TypeDef}
    (ht : s.types.get? key = some t) (hname : name ∈ entryPredicates) :
    ∃ p ∈ t.predicates, p.name = name := by
  have hcheck := ok_of_forM (build_ok h).2.1 (Table.mem_values_iff.2 ⟨key, ht⟩)
  split at hcheck
  · cases hcheck
  · rename_i hnone
    have hsome := List.find?_eq_none.1 hnone name hname
    obtain ⟨p, hp⟩ : ∃ p, t.predicate? name = some p :=
      Option.ne_none_iff_exists'.1 (by simpa using hsome)
    exact ⟨p, List.mem_of_find?_eq_some hp, by simpa using List.find?_some hp⟩

/-- One declaration has the name of a registered type, and made it what it is. -/
theorem declared_of_build (h : build types = .ok s) {t : TypeDef}
    (ht : s.types.get? t.name = some t) : ∃ e ∈ types, e.name = t.name ∧ t.Inherits s e ∧
      ∀ e' ∈ types, e'.name = t.name → e' = e := by
  have hextends := extends_of_foldlM (foldlM_of_build h)
  rcases hextends.complete ht with hempty | ⟨e, he, hname⟩
  · cases hempty
  · obtain ⟨t', ht', -, hinherits⟩ := hextends.entered e he
    obtain rfl : t' = t := Option.some.inj (ht'.symm.trans (hname ▸ ht))
    exact ⟨e, he, hname, hinherits, fun e' he' hname' =>
      List.inj_on_of_nodup_map (List.pairwise_map.2 hextends.apart) he' he
        (hname'.trans hname.symm)⟩

/-- The types of a schema that was built are consistent. -/
theorem consistent_of_build (h : build types = .ok s) {name : String} {t : TypeDef}
    (ht : s.types.get? name = some t) : t.name = name ∧ t.Consistent types s := by
  have hs := wellFormed_of_build h
  obtain rfl := hs.typeNames ht
  have hlineal := lineal_of_build h ht
  have hregistered : ∀ p ∈ t.predicates, ∃ q, s.predicate? p.name = some q ∧ q.name = p.name ∧
      q.StoredLike p := fun p hp => by
    obtain ⟨q, hq, hshape⟩ := hs.shapes ht p hp
    exact ⟨q, hq, hs.predicateNames hq, storedLike_of_sameShape hshape⟩
  refine ⟨rfl, declared_of_build h ht, hlineal.nodup, hlineal.ancestors,
    List.pairwise_map.2 (hs.distinct ht), fun p hp => ?_,
    fun _ => exists_entryPredicate_of_build h ht, hregistered, fun p hp edge hdirection => ?_⟩
  · obtain ⟨q, hq, -⟩ := hregistered p hp
    exact isIdentifier_of_isUndotted (isUndotted_of_isPredicateName (isPredicateName_of_build h hq))
  · obtain ⟨q, hq, -, hlike⟩ := hregistered p hp
    obtain ⟨r, hr, hforward⟩ := reverse_forward h hq (hlike.direction.trans hdirection)
    exact ⟨r, hr, hs.predicateNames hr, hforward⟩

theorem consistent_of_build_source : ∃ t, build Inventory.entityTypes = .ok Inventory.schema ∧
    Inventory.schema.types.get? "Source" = some t ∧ t.lineage = ["Source", "Entry"] ∧
    t.name = "Source" ∧ t.Consistent Inventory.entityTypes Inventory.schema := by
  have hlineage : (Inventory.schema.types.get? "Source").map (·.lineage) =
      some ["Source", "Entry"] := by
    decide +kernel
  obtain ⟨t, ht, hlineage⟩ := Option.map_eq_some_iff.1 hlineage
  exact ⟨t, Inventory.build_entityTypes, ht, hlineage,
    consistent_of_build Inventory.build_entityTypes ht⟩

end Schema

end PressRegister
