import PressRegister.Schema

/-!
# The media inventory

The entity types of the inventory: news sources, the organizations behind them,
and the archives and papers that cover them.

## Main definitions

* `Inventory.entityTypes`: the declarations, parents before children.
* `Inventory.schema`: the registry of the inventory.
* `Inventory.siblingInherited`: what new sibling sources take over.
-/

namespace PressRegister.Inventory

open Predicate

/-- The type of the accounts that submit and review entries. -/
def userType : String := "User"

/-! ### Choices -/

/-- The review statuses. -/
def reviewStatuses : Choices :=
  [("draft", "Draft"), ("pending", "Pending"), ("accepted", "Accepted"),
   ("rejected", "Rejected")]

/-- Yes, no, or neither. -/
def yesNo : Choices :=
  [("NA", "Don't know / NA"), ("yes", "Yes"), ("no", "No")]

/-- Who owns an organization. -/
def ownershipKinds : Choices :=
  [("NA", "Don't know / NA"), ("public ownership", "Mainly public ownership"),
   ("private ownership", "Mainly private ownership"), ("political party", "Political party"),
   ("unknown", "Unknown ownership")]

/-- What a source publishes. -/
def publicationKinds : Choices :=
  [("newspaper", "Newspaper"), ("news site", "News site"), ("news agency", "News agency"),
   ("magazine", "Magazine"), ("tv show", "TV show"), ("tv channel", "TV channel"),
   ("radio show", "Radio show"), ("radio channel", "Radio channel"), ("podcast", "Podcast"),
   ("newsletter", "Newsletter"), ("blog", "Blog"), ("alternative media", "Alternative media"),
   ("organizational communication", "Organizational communication")]

/-- What a source reports on. -/
def topicalFoci : Choices :=
  [("politics", "Politics"), ("society", "Society"), ("economy", "Economy"),
   ("religion", "Religion"), ("science", "Science"), ("culture", "Culture"),
   ("sports", "Sports"), ("environment", "Environment"), ("local", "Local news")]

/-- The area a source reports for. -/
def geographicScopes : Choices :=
  [("multinational", "Multinational"), ("national", "National"), ("subnational", "Subnational"),
   ("NA", "Don't know / NA")]

/-- What readers of a source pay for. -/
def paymentModels : Choices :=
  [("free", "Free, all content is free of charge"),
   ("partly free", "Some content is free of charge"), ("soft paywall", "Soft paywall"),
   ("subscription", "All content requires a subscription"), ("NA", "Don't know / NA")]

/-- Whether a source carries advertisements. -/
def advertising : Choices :=
  [("yes", "Yes"), ("no", "No"), ("non subscribers", "Only for non-subscribers"),
   ("NA", "Don't know / NA")]

/-- How often a source appears. -/
def publicationCycles : Choices :=
  [("continuous", "Continuous"), ("daily", "Daily"),
   ("multiple times per week", "Multiple times per week"), ("weekly", "Weekly"),
   ("twice a month", "Twice a month"), ("monthly", "Monthly"),
   ("less than monthly", "Less frequent than monthly"), ("NA", "Don't know / NA")]

/-- The languages of sources. -/
def languages : Choices :=
  [("de", "German"), ("en", "English"), ("fr", "French"), ("it", "Italian"), ("es", "Spanish"),
   ("pt", "Portuguese"), ("nl", "Dutch"), ("pl", "Polish"), ("cs", "Czech"), ("sk", "Slovak"),
   ("hu", "Hungarian"), ("ro", "Romanian"), ("bg", "Bulgarian"), ("hr", "Croatian"),
   ("sl", "Slovenian"), ("sr", "Serbian"), ("el", "Greek"), ("tr", "Turkish"), ("sv", "Swedish"),
   ("da", "Danish"), ("no", "Norwegian"), ("fi", "Finnish"), ("et", "Estonian"),
   ("lv", "Latvian"), ("lt", "Lithuanian"), ("ru", "Russian"), ("uk", "Ukrainian"),
   ("ar", "Arabic")]

/-- What the size of an audience counts. -/
def audienceUnits : Choices :=
  [("followers", "Followers"), ("subscribers", "Subscribers"), ("copies sold", "Copies sold"),
   ("daily visitors", "Daily visitors"), ("monthly visitors", "Monthly visitors"),
   ("likes", "Likes"), ("viewers", "Viewers"), ("listeners", "Listeners")]

/-- The formats of feeds. -/
def feedKinds : Choices :=
  [("rss", "RSS"), ("xml", "XML"), ("sitemap", "Sitemap")]

/-- Who may use an archive. -/
def accessKinds : Choices :=
  [("free", "Free"), ("restricted", "Restricted"), ("NA", "Don't know / NA")]

/-! ### Entity types -/

/-- Fields that a new sibling source takes over from the source it was added with. -/
def siblingInherited : List String :=
  ["publication_kind", "special_interest", "topical_focus", "geographic_scope", "country",
   "geographic_scope_subunit", "languages", "party_affiliated"]

/-- Adds the facets of a submission: when it was made, and from where. -/
def withSubmissionFacets (p : Predicate) : Predicate :=
  (p.withFacet ⟨"timestamp", .dateTime, false⟩).withFacet ⟨"ip", .string, false⟩

/-- What all entries have in common. -/
def entry : EntityType where
  name := "Entry"
  predicates := [
    uid,
    (uniqueName "unique_name").beRequired.notNew.permit .reviewer,
    (string "name").beRequired,
    (listString "other_names").beQueryable,
    (string "entry_notes").describe
      "Do you have any other notes on the entry that you just coded?",
    ((integer "wikidata_id").withLabel "WikiData ID").notNew,
    ((singleChoice "entry_review_status" reviewStatuses).beRequired.notNew.beQueryable.withDefault
      (.string ReviewStatus.pending.name)).permit .reviewer,
    (dateTime "creation_date").notNew.systemOnly,
    ((withSubmissionFacets (singleRelationship "entry_added" [userType])).withOverwrite
      false).notNew.systemOnly,
    ((withSubmissionFacets (listRelationship "entry_edit_history" [userType])).withOverwrite
      false).notNew.systemOnly,
    (withSubmissionFacets (singleRelationship "reviewed_by" [userType])).notNew.systemOnly]

/-- Media organizations, and persons in their place. -/
def organization : EntityType where
  name := "Organization"
  parent := some "Entry"
  predicates := [
    ((string "name").withLabel "Organization Name").beRequired.describe
      "What is the legal or official name of the media organisation?",
    ((boolean "is_person").withDefault (.bool false)).beQueryable.describe
      "Is the media organisation a person?",
    (singleChoice "ownership_kind" ownershipKinds).beQueryable,
    (singleRelationship "country" ["Country"]).beQueryable.describe
      "In which country is the organisation located?",
    (listRelationship "publishes" ["Source"]).beQueryable.describe
      "Which news sources publishes the organisation (or person)?",
    (listRelationship "owns" ["Organization"]).beQueryable.describe
      "Which other media organisations are owned by this organisation?",
    (singleChoice "party_affiliated" yesNo).beQueryable,
    (string "address_string").notNew,
    (geo "address_geo").notNew.systemOnly,
    (integerIn "employees" 0 10000000).beQueryable.notNew.describe
      "How many employees does the news organization have?",
    (dateTime "founded").beQueryable.notNew]

/-- News sources. -/
def source : EntityType where
  name := "Source"
  parent := some "Entry"
  predicates := [
    (singleRelationship "channel" ["Channel"]).beRequired.beQueryable.notEdit,
    string "channel_url",
    (listString "channel_feeds").withFacet ⟨"kind", .choice feedKinds, false⟩,
    (multipleChoice "publication_kind" publicationKinds).beQueryable,
    (singleChoice "special_interest" yesNo).beQueryable,
    (multipleChoice "topical_focus" topicalFoci).beQueryable,
    (singleChoice "geographic_scope" geographicScopes).beQueryable,
    (singleRelationship "country" ["Country", "Multinational"]).beQueryable,
    (listRelationship "geographic_scope_subunit" ["Subunit"]).allowNew.beQueryable,
    (multipleChoice "languages" languages).beQueryable,
    (singleChoice "payment_model" paymentModels).beQueryable,
    (singleChoice "contains_ads" advertising).beQueryable,
    (singleChoice "publication_cycle" publicationCycles).beQueryable,
    ((((dateTime "audience_size").describe "Date the audience figure refers to").withFacet
      ⟨"count", .integer, true⟩).withFacet ⟨"unit", .choice audienceUnits, true⟩).withFacet
      ⟨"data_from", .string, false⟩,
    (boolean "verified_account").beQueryable,
    (singleChoice "party_affiliated" yesNo).beQueryable,
    (dateTime "founded").beQueryable,
    (listRelationship "related" ["Source"]).beQueryable,
    (mutualListRelationship "sibling_sources" ["Source"]).allowNew,
    (reverseListRelationship "publishes_org" "publishes" ["Organization"]).allowNew.withLabel
      "Published by",
    reverseListRelationship "archives" "sources_included" ["Archive", "Dataset"]]

/-- The channels that sources appear on. -/
def channel : EntityType :=
  { name := "Channel", parent := some "Entry" : EntityType }.permit .admin

/-- Countries. -/
def country : EntityType :=
  { name := "Country"
    parent := some "Entry"
    predicates := [(string "country_code").beQueryable, boolean "opted_scope"] : EntityType
  }.permit .admin

/-- Groups of countries. -/
def multinational : EntityType :=
  { name := "Multinational"
    parent := some "Country"
    predicates := [listRelationship "member_countries" ["Country"]] : EntityType
  }.permit .admin

/-- Parts of countries. -/
def subunit : EntityType where
  name := "Subunit"
  parent := some "Entry"
  predicates := [
    singleRelationship "country" ["Country"],
    string "country_code",
    (geo "location_point").notNew]

/-- Archives of news. -/
def archive : EntityType where
  name := "Archive"
  parent := some "Entry"
  predicates := [
    string "description",
    (singleChoice "access" accessKinds).beQueryable,
    string "url",
    (listRelationship "sources_included" ["Source"]).beQueryable,
    dateTime "data_from",
    dateTime "data_to"]

/-- Archives made for research. -/
def dataset : EntityType where
  name := "Dataset"
  parent := some "Archive"
  predicates := [
    (listString "authors").beQueryable,
    (listRelationship "fileformat" ["FileFormat"]).beQueryable]

/-- Research papers on sources. -/
def researchPaper : EntityType where
  name := "ResearchPaper"
  parent := some "Entry"
  predicates := [
    ((string "name").withLabel "Citation").describe
      "Generated from authors, year and title when left empty",
    (string "title").beRequired.beQueryable,
    (listString "authors").beRequired.beQueryable,
    (dateTime "published_date").beRequired.beQueryable,
    (string "doi").beQueryable,
    (string "arxiv").beQueryable,
    string "journal",
    string "url",
    (listRelationship "sources_included" ["Source"]).beQueryable]

/-- The file formats of datasets. -/
def fileFormat : EntityType :=
  { name := "FileFormat"
    parent := some "Entry"
    predicates := [string "mime_type"] : EntityType
  }.permit .reviewer

/-- The declarations of the inventory, parents before children. -/
def entityTypes : List EntityType :=
  [entry, organization, source, channel, country, multinational, subunit, archive, dataset,
   researchPaper, fileFormat]

/-- The registry of the inventory. -/
def schema? : Except Error Schema :=
  Schema.build entityTypes

/-- The registry of the inventory; its declarations pass all checks. -/
@[irreducible]
def schema : Schema :=
  schema?.toOption.getD ⟨.empty, .empty⟩

end PressRegister.Inventory
