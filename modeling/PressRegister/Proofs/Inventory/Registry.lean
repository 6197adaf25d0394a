import PressRegister.Inventory
import PressRegister.Proofs.Schema.Registry

/-!
# The registry of the inventory

The declarations of the inventory pass all checks, so what holds of every schema
that was built holds of it.

## Main definitions

* `Inventory.predicateNames`: the names of all predicates in order.
* `Inventory.registeredPredicates`: the first declarations of all predicates.

## Main results

* `Inventory.build_entityTypes`: the schema of the inventory is built from its declarations.
* `Inventory.types_schema`, `Inventory.predicate?_schema`: its types and predicates are found among
  the declarations.
* `Inventory.schema_eq`: the schema without the checks of its declarations.
* `Inventory.wellFormed`: it is well formed.
* `Inventory.isOwn_of_isForward`: which fields have their edges to themselves.
-/

namespace PressRegister

/-- A schema is determined by its types and the entries of its predicates. -/
theorem Schema.eq_of_parts {s : Schema} {types : Table TypeDef} {predicates : Table Predicate}
    (htypes : s.types = types) (hentries : predicates.entries = s.predicates.entries) :
    s = ⟨types, predicates⟩ := by
  obtain ⟨_, _, _⟩ := s
  obtain ⟨_, _⟩ := predicates
  subst htypes hentries
  rfl

namespace Inventory

/-- The names of the predicates in order. -/
def predicateNames : List String :=
  ["access", "address_geo", "address_string", "archives", "arxiv", "audience_size", "authors",
   "channel", "channel_feeds", "channel_url", "contains_ads", "country", "country_code",
   "creation_date", "data_from", "data_to", "description", "doi", "employees", "entry_added",
   "entry_edit_history", "entry_notes", "entry_review_status", "fileformat", "founded",
   "geographic_scope", "geographic_scope_subunit", "is_person", "journal", "languages",
   "location_point", "member_countries", "mime_type", "name", "opted_scope", "other_names",
   "ownership_kind", "owns", "party_affiliated", "payment_model", "publication_cycle",
   "publication_kind", "published_date", "publishes", "publishes_org", "related", "reviewed_by",
   "sibling_sources", "sources_included", "special_interest", "title", "topical_focus", "uid",
   "unique_name", "url", "verified_account", "wikidata_id"]

theorem keys_schema? : schema?.toOption.map (·.predicates.keys) = some predicateNames := by
  decide +kernel

/-- The schema of the inventory is built from its declarations. -/
theorem build_entityTypes : Schema.build entityTypes = .ok schema := by
  obtain ⟨s, hs, -⟩ := Option.map_eq_some_iff.1 keys_schema?
  have hschema : schema = s := by
    delta schema
    rw [hs, Option.getD_some]
  change schema? = _
  rw [hschema]
  exact toOption_eq_some.1 hs

/-- The types of the inventory are entered one after another. -/
theorem types_schema : schema.types = entityTypes.foldl Schema.enterType .empty :=
  Schema.types_of_build build_entityTypes

/-- A predicate of the inventory is looked up among the declarations. -/
theorem predicate?_schema (name : String) :
    schema.predicate? name = (entityTypes.flatMap (·.predicates)).find? (·.name == name) :=
  Schema.predicate?_of_build build_entityTypes name

/-- The first declaration of a name. -/
def declaration (name : String) : Predicate :=
  ((entityTypes.flatMap (·.predicates)).find? (·.name == name)).getD (.string name)

theorem entries_predicates :
    predicateNames.map (fun name => (name, declaration name)) = schema.predicates.entries := by
  have hkeys : schema.predicates.keys = predicateNames := by
    have hbuilt : schema?.toOption = some schema := toOption_eq_some.2 build_entityTypes
    simpa [hbuilt] using keys_schema?
  rw [← hkeys, Table.keys, List.map_map]
  refine (List.map_congr_left fun e he => ?_).trans (List.map_id _)
  have hget : schema.predicate? e.1 = some e.2 := Table.get?_eq_some_iff.2 he
  rw [predicate?_schema] at hget
  simp only [id, Function.comp, declaration, hget, Option.getD_some]

/-- The first declarations of all predicates. -/
def registeredPredicates : Table Predicate :=
  ⟨predicateNames.map fun name => (name, declaration name),
    entries_predicates ▸ schema.predicates.sorted⟩

/-- The schema of the inventory without the checks of its declarations: closed facts about it are
decided faster for this form. -/
theorem schema_eq :
    schema = ⟨entityTypes.foldl Schema.enterType .empty, registeredPredicates⟩ :=
  Schema.eq_of_parts types_schema entries_predicates

theorem wellFormed : schema.WellFormed :=
  Schema.wellFormed_of_build build_entityTypes

/-- A field of the inventory that is stored at its node has its edge to itself, unless it is the
reverse of one of two fields. -/
theorem isOwn_of_isForward {name : String} (h : schema.IsForward name)
    (hname : name ∉ ["publishes", "sources_included"]) : schema.IsOwn name := by
  refine Schema.isOwn_of_forall h fun p hp hdir => hname ?_
  have hreverse : ((entityTypes.flatMap (·.predicates)).all fun p => [none, some .forward,
      some .mutual, some (.reverse "publishes"), some (.reverse "sources_included")].contains
        p.direction?) = true := by
    decide +kernel
  obtain ⟨key, hkey⟩ := Table.mem_values_iff.1 hp
  have hdeclared : schema.predicate? key = some p := hkey
  rw [predicate?_schema] at hdeclared
  have hp' := List.all_eq_true.1 hreverse p (List.mem_of_find?_eq_some hdeclared)
  simpa [hdir] using hp'

end Inventory

end PressRegister
