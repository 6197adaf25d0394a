import PressRegister.Predicate.Condition
import PressRegister.Proofs.Filter.Meaning

/-!
# What conditions on predicates mean

What a filter map asks of a field is told here without filters: which operator counts,
which texts fit the field, what each of them asks for, and how the names of the field and
the texts are joined. A year stands for all of its days; the last year of four digits
fits no field, as no date of four digits comes after its days.

## Main definitions

* `Predicate.Uses`: the operator of a condition.
* `Predicate.Asks`: what a text that fits a field asks of one of its names.
* `Predicate.FieldMeans`: what several texts ask of a field.
* `Facet.Fits`: the texts that fit a facet.

## Main results

* `Predicate.asks_iff`: a text makes a condition exactly if it fits the field, and the
  condition means what the text asks for.
* `Predicate.exists_condition?_iff`, `Predicate.holds_condition?`: the same of the whole
  condition on a field.
* `Predicate.valueCondition?_cases`, `Predicate.condition?_cases`: the forms of conditions.
* `Facet.fits_iff`: a text makes a condition on a facet exactly if it fits.
-/

namespace PressRegister

open Calendar Number

namespace Predicate

/-! ### What is said without filters -/

/-- The kinds of values that are texts of any form. -/
def Kind.IsText (k : Kind) : Prop :=
  k = .string ∨ k = .uniqueName ∨ k = .listString

/-- The operator of a condition: the one asked for, if the field allows it, and the
first one the field allows otherwise. -/
inductive Uses (p : Predicate) : Option Operator → Operator → Prop
  | asked {op} (h : op ∈ p.operators) : Uses p (some op) op
  | default {asked op} (hasked : ∀ op, asked = some op → op ∉ p.operators)
      (h : p.operators.head? = some op) : Uses p asked op

/-- What a year asks of the dates under a name, between its first instant and the first
instant of the next year. -/
inductive YearAsks (name : String) (first next : Arg) : Operator → Condition → Prop
  | eq : YearAsks name first next .eq fun r =>
      r.compares .ge name first ∧ r.compares .lt name next
  | gt : YearAsks name first next .gt fun r => r.compares .ge name next
  | lt : YearAsks name first next .lt fun r => r.compares .lt name first
  | ge : YearAsks name first next .ge fun r => r.compares .ge name first
  | le : YearAsks name first next .le fun r => r.compares .lt name next

/-- What a text without blanks at its ends asks of a name of a field, if it fits. -/
inductive TokenAsks (p : Predicate) (name : String) (op : Operator) (token : String) :
    Condition → Prop
  | text (hkind : p.kind.IsText) (hop : op ≠ .regexp) :
      TokenAsks p name op token fun r => r.compares op name (.text token)
  | pattern (hkind : p.kind.IsText) (hop : op = .regexp) :
      TokenAsks p name op token fun r => r.compares op name (.pattern token)
  | choice {choices : Choices}
      (hkind : p.kind = .singleChoice choices ∨ p.kind = .multipleChoice choices)
      (hchoice : choices.has token = true) :
      TokenAsks p name op token fun r => r.compares op name (.text token)
  | integer {min max : Option Int} {n : Int} (hkind : p.kind = .integer min max)
      (hread : readInt64? token = some n) :
      TokenAsks p name op token fun r => r.compares op name (.number (intText n))
  | boolean {b : Bool} (hkind : p.kind = .boolean) (hread : readBool name token = .ok b) :
      TokenAsks p name op token fun r => r.compares op name (.number (Scalar.boolText b))
  | node {rel : Relationship} {u : Uid} (hkind : p.kind = .relationship rel)
      (hread : Uid.parse? token = some u) :
      TokenAsks p name op token fun r => r.compares op name (.uid u)
  | instant {t : Instant} (hkind : p.kind = .dateTime) (hyear : isYear token.toList = false)
      (hread : Instant.read? token = some t) :
      TokenAsks p name op token fun r => r.compares op name (.text t.canonical)
  | year {y : Nat} {φ : Condition} (hkind : p.kind = .dateTime)
      (hyear : isYear token.toList = true) (hread : digitsValue token.toList = y)
      (hlast : y ≠ 9999)
      (hasks : YearAsks name (.text (Instant.ofYear y).canonical)
        (.text (Instant.ofYear (y + 1)).canonical) op φ) :
      TokenAsks p name op token φ

/-- What a text asks of a name of a field, if it fits. -/
def Asks (p : Predicate) (name : String) (op : Operator) (value : String) (φ : Condition) :
    Prop :=
  Text.trim value ≠ "" ∧ TokenAsks p name op (Text.trim value) φ

/-- A text fits a field. -/
def Fits (p : Predicate) (op : Operator) (value : String) : Prop :=
  ∃ name φ, p.Asks name op value φ

/-- What the values under one name have to satisfy. -/
def NameMeans (p : Predicate) (op : Operator) (connector : Connector) (values : List String)
    (name : String) : Condition := fun r =>
  if op = .has then r.has name
  else connector.Joins (fun φ => ∃ v ∈ values, p.Asks name op v φ) r

/-- What several texts ask of a field: the values under its own name, or under one of
its aliases, satisfy them. -/
def FieldMeans (p : Predicate) (op : Operator) (connector : Connector)
    (values : List String) : Condition := fun r =>
  ∃ name ∈ p.queryName :: p.aliases, p.NameMeans op connector values name r

/-! ### Operators -/

variable {p : Predicate} {op : Operator} {name value : String}

theorem operatorFor?_eq_some_iff {asked : Option Operator} :
    p.operatorFor? asked = some op ↔ p.Uses asked op := by
  unfold operatorFor? defaultOperator?
  constructor
  · intro h
    obtain ⟨default, hdefault, hop⟩ := Option.map_eq_some_iff.1 h
    split at hop
    · rename_i op'
      split at hop
      · rename_i hmem
        subst hop
        exact .asked (by simpa using hmem)
      · rename_i hmem
        subst hop
        refine .default (fun op heq => ?_) hdefault
        cases heq
        simpa using hmem
    · subst hop
      exact .default (fun op heq => by cases heq) hdefault
  · rintro (⟨hmem⟩ | ⟨hasked, hdefault⟩)
    · obtain ⟨first, hfirst⟩ := Option.ne_none_iff_exists'.1
        (mt List.head?_eq_none_iff.1 (List.ne_nil_of_mem hmem))
      simp [hfirst, hmem]
    · rw [hdefault, Option.map_some]
      split
      · rename_i op'
        simp [hasked op' rfl]
      · rfl

theorem Uses.mem_operators {asked : Option Operator} (h : p.Uses asked op) :
    op ∈ p.operators := by
  cases h with
  | asked h => exact h
  | default _ h => exact List.mem_of_head? h

/-! ### Texts -/

theorem readBool_eq_ok_of_eq_ok {predicate : String} (other : String) {token : String} {b : Bool}
    (h : readBool predicate token = .ok b) : readBool other token = .ok b := by
  simp only [readBool] at h ⊢
  split at h
  · rename_i htrue
    rwa [if_pos htrue]
  · rename_i htrue
    split at h
    · rename_i hfalse
      rwa [if_neg htrue, if_pos hfalse]
    · cases h

/-- What a text that fits asks of one name, it asks of any other. -/
theorem Asks.exists_of_name {φ : Condition} (h : p.Asks name op value φ) (other : String) :
    ∃ ψ, p.Asks other op value ψ := by
  obtain ⟨hne, h⟩ := h
  cases h with
  | text hkind hop => exact ⟨_, hne, .text hkind hop⟩
  | pattern hkind hop => exact ⟨_, hne, .pattern hkind hop⟩
  | choice hkind hchoice => exact ⟨_, hne, .choice hkind hchoice⟩
  | integer hkind hread => exact ⟨_, hne, .integer hkind hread⟩
  | boolean hkind hread => exact ⟨_, hne, .boolean hkind (readBool_eq_ok_of_eq_ok other hread)⟩
  | node hkind hread => exact ⟨_, hne, .node hkind hread⟩
  | instant hkind hyear hread => exact ⟨_, hne, .instant hkind hyear hread⟩
  | year hkind hyear hread hlast hasks =>
    cases hasks with
    | eq => exact ⟨_, hne, .year hkind hyear hread hlast .eq⟩
    | gt => exact ⟨_, hne, .year hkind hyear hread hlast .gt⟩
    | lt => exact ⟨_, hne, .year hkind hyear hread hlast .lt⟩
    | ge => exact ⟨_, hne, .year hkind hyear hread hlast .ge⟩
    | le => exact ⟨_, hne, .year hkind hyear hread hlast .le⟩

theorem Fits.asks (h : p.Fits op value) (name : String) : ∃ φ, p.Asks name op value φ :=
  let ⟨_, _, h⟩ := h
  h.exists_of_name name

/-- A year makes a condition unless it is the last one, and the condition means what
the year asks for. -/
theorem yearAsks_iff {year : Nat} {φ : Condition} (hop : op ∈ orderedOperators)
    (hhas : op ≠ .has) :
    (year ≠ 9999 ∧ YearAsks name (.text (Instant.ofYear year).canonical)
      (.text (Instant.ofYear (year + 1)).canonical) op φ) ↔
      ∃ f, yearCondition? name op year = some f ∧ φ = f.Holds := by
  constructor
  · rintro ⟨hyear, hasks⟩
    unfold yearCondition?
    rw [if_neg hyear]
    cases hasks
    all_goals exact ⟨_, rfl, funext fun r => by simp⟩
  · rintro ⟨f, h, rfl⟩
    unfold yearCondition? at h
    split at h
    · cases h
    · rename_i hyear
      refine ⟨hyear, ?_⟩
      cases h
      cases op with
      | eq =>
        have hboth (a b : Filter) : (Filter.and [a, b]).Holds = fun r => a.Holds r ∧ b.Holds r :=
          funext fun r => by simp
        rw [hboth]
        exact .eq
      | gt => exact .gt
      | lt => exact .lt
      | ge => exact .ge
      | le => exact .le
      | has => exact absurd rfl hhas
      | anyOfTerms | allOfTerms | regexp | uidIn => simp [orderedOperators] at hop

/-- A text that fits makes a condition that means what the text asks for. -/
theorem Asks.condition {φ : Condition} (hop : op ∈ p.operators) (hhas : op ≠ .has)
    (h : p.Asks name op value φ) :
    ∃ f, p.valueCondition? name op value = some f ∧ φ = f.Holds := by
  obtain ⟨hne, h⟩ := h
  have hempty : (Text.trim value).isEmpty = false := by simpa using hne
  unfold valueCondition?
  simp only [hempty, Bool.false_eq_true, if_false]
  cases h with
  | text hkind hregexp =>
    rcases hkind with hkind | hkind | hkind <;> rw [hkind]
    all_goals exact ⟨_, rfl, by simp [hregexp]; rfl⟩
  | pattern hkind hregexp =>
    subst hregexp
    rcases hkind with hkind | hkind | hkind <;> rw [hkind]
    all_goals exact ⟨_, rfl, rfl⟩
  | choice hkind hchoice =>
    rcases hkind with hkind | hkind <;> rw [hkind]
    all_goals exact ⟨_, if_pos hchoice, rfl⟩
  | integer hkind hread => rw [hkind]; exact ⟨_, by rw [hread]; rfl, rfl⟩
  | boolean hkind hread => rw [hkind]; exact ⟨_, by rw [hread], rfl⟩
  | node hkind hread => rw [hkind]; exact ⟨_, by rw [hread]; rfl, rfl⟩
  | instant hkind hyear hread =>
    rw [hkind]
    exact ⟨_, by rw [dateCondition?, hyear, hread]; rfl, rfl⟩
  | year hkind hyear hread hlast hasks =>
    subst hread
    rw [operators, hkind] at hop
    rw [hkind]
    simp only [dateCondition?, hyear, if_true]
    exact (yearAsks_iff hop hhas).1 ⟨hlast, hasks⟩

theorem tokenAsks_ofText (token : String) (hkind : p.kind.IsText) :
    p.TokenAsks name op token
      (Filter.compare op name (if op == .regexp then .pattern token else .text token)).Holds := by
  by_cases hregexp : op = .regexp
  · subst hregexp
    exact .pattern hkind rfl
  · rw [if_neg (by simpa using hregexp)]
    exact .text hkind hregexp

theorem tokenAsks_ofChoice {choices : Choices} {token : String} {f : Filter}
    (hkind : p.kind = .singleChoice choices ∨ p.kind = .multipleChoice choices)
    (h : (if choices.has token then some (Filter.compare op name (.text token)) else none) =
      some f) : p.TokenAsks name op token f.Holds := by
  split at h
  · rename_i hhas
    cases h
    exact .choice hkind hhas
  · cases h

/-- A text whose condition is made fits, and it asks for what the condition means. -/
theorem asks_of_valueCondition? {f : Filter} (hop : op ∈ p.operators) (hhas : op ≠ .has)
    (h : p.valueCondition? name op value = some f) : p.Asks name op value f.Holds := by
  unfold valueCondition? at h
  simp only at h
  split at h
  · cases h
  rename_i hempty
  refine ⟨by simpa using hempty, ?_⟩
  split at h
  · cases h
  · cases h
  · rename_i rel hkind
    obtain ⟨u, hread, rfl⟩ := Option.map_eq_some_iff.1 h
    exact .node hkind hread
  · rename_i hkind
    exact Option.some.inj h ▸ tokenAsks_ofText _ (.inl hkind)
  · rename_i hkind
    exact Option.some.inj h ▸ tokenAsks_ofText _ (.inr (.inl hkind))
  · rename_i hkind
    exact Option.some.inj h ▸ tokenAsks_ofText _ (.inr (.inr hkind))
  · rename_i hkind
    exact tokenAsks_ofChoice (.inl hkind) h
  · rename_i hkind
    exact tokenAsks_ofChoice (.inr hkind) h
  · rename_i hkind
    obtain ⟨n, hread, rfl⟩ := Option.map_eq_some_iff.1 h
    exact .integer hkind hread
  · rename_i hkind
    split at h
    · rename_i b hread
      cases h
      exact .boolean hkind hread
    · cases h
  · rename_i hkind
    unfold dateCondition? at h
    split at h
    · rename_i hyear
      rw [operators, hkind] at hop
      obtain ⟨hlast, hasks⟩ := (yearAsks_iff hop hhas).2 ⟨f, h, rfl⟩
      exact .year hkind hyear rfl hlast hasks
    · rename_i hyear
      obtain ⟨t, hread, rfl⟩ := Option.map_eq_some_iff.1 h
      exact .instant hkind (by simpa using hyear) hread

/-- A text makes a condition on a name exactly if it fits the field, and the condition
means what the text asks for. -/
theorem asks_iff {φ : Condition} (hop : op ∈ p.operators) (hhas : op ≠ .has) :
    p.Asks name op value φ ↔ ∃ f, p.valueCondition? name op value = some f ∧ φ = f.Holds :=
  ⟨fun h => h.condition hop hhas, fun ⟨_, h, hφ⟩ => hφ ▸ asks_of_valueCondition? hop hhas h⟩

/-! ### Conditions on fields -/

variable {values : List String} {connector : Connector} {f : Filter}

theorem fits_iff (hop : op ∈ p.operators) (hhas : op ≠ .has) (name : String) :
    p.Fits op value ↔ ∃ f, p.valueCondition? name op value = some f := by
  constructor
  · intro h
    obtain ⟨φ, hasks⟩ := h.asks name
    obtain ⟨f, hf, -⟩ := (asks_iff hop hhas).1 hasks
    exact ⟨f, hf⟩
  · rintro ⟨f, hf⟩
    exact ⟨name, f.Holds, (asks_iff hop hhas).2 ⟨f, hf, rfl⟩⟩

/-- The values under a name make a condition exactly if the operator ignores them or one
of them fits. -/
theorem exists_nameCondition?_iff (hop : op ∈ p.operators) :
    (∃ f, p.nameCondition? op connector values name = some f) ↔
      op = .has ∨ ∃ v ∈ values, p.Fits op v := by
  unfold nameCondition?
  split
  · rename_i hhas
    exact iff_of_true ⟨_, rfl⟩ (.inl (by simpa using hhas))
  · rename_i hhas
    have hhas : op ≠ .has := by simpa using hhas
    rw [← Option.ne_none_iff_exists', ne_eq, Filter.join?_eq_none, List.filterMap_eq_nil_iff]
    simp only [hhas, false_or, fits_iff hop hhas name, ← Option.ne_none_iff_exists']
    simp

theorem holds_nameCondition? (hop : op ∈ p.operators) {r : Reading}
    (h : p.nameCondition? op connector values name = some f) :
    f.Holds r ↔ p.NameMeans op connector values name r := by
  unfold nameCondition? at h
  unfold NameMeans
  split at h
  · rename_i hhas
    cases h
    simp [show op = .has by simpa using hhas]
  · rename_i hhas
    have hhas : op ≠ .has := by simpa using hhas
    rw [if_neg hhas, Filter.holds_join? h]
    have hparts : (fun φ => ∃ g ∈ values.filterMap (p.valueCondition? name op), φ = g.Holds) =
        fun φ => ∃ v ∈ values, p.Asks name op v φ := by
      funext φ
      simp only [asks_iff hop hhas, List.mem_filterMap]
      exact propext ⟨fun ⟨g, ⟨v, hv, hg⟩, hφ⟩ => ⟨v, hv, g, hg, hφ⟩,
        fun ⟨v, hv, g, hg, hφ⟩ => ⟨g, ⟨v, hv, hg⟩, hφ⟩⟩
    rw [hparts]

/-- A field has a condition exactly if it has an operator and the operator ignores the
values or one of them fits. -/
theorem exists_condition?_iff {operator : Option Operator} {asked : Option Connector} :
    (∃ f, p.condition? values operator asked = some f) ↔
      ∃ op, p.Uses operator op ∧ (op = .has ∨ ∃ v ∈ values, p.Fits op v) := by
  simp only [condition?, Option.bind_eq_bind, Option.bind_eq_some_iff, operatorFor?_eq_some_iff]
  constructor
  · rintro ⟨f, op, huses, h⟩
    have hne : (p.queryName :: p.aliases).filterMap
        (p.nameCondition? op (p.connectorFor asked) values) ≠ [] := by
      rw [ne_eq, ← Filter.anyOf?_eq_none, h]
      simp
    obtain ⟨g, hg⟩ := List.exists_mem_of_ne_nil _ hne
    obtain ⟨name, -, hg⟩ := List.mem_filterMap.1 hg
    exact ⟨op, huses, (exists_nameCondition?_iff huses.mem_operators).1 ⟨g, hg⟩⟩
  · rintro ⟨op, huses, husable⟩
    obtain ⟨g, hg⟩ : ∃ g, p.nameCondition? op (p.connectorFor asked) values p.queryName = some g :=
      (exists_nameCondition?_iff huses.mem_operators).2 husable
    have hne : (p.queryName :: p.aliases).filterMap
        (p.nameCondition? op (p.connectorFor asked) values) ≠ [] :=
      List.ne_nil_of_mem (List.mem_filterMap.2 ⟨_, List.mem_cons_self, hg⟩)
    obtain ⟨f, hf⟩ := Filter.exists_anyOf? hne
    exact ⟨f, op, huses, hf⟩

theorem Uses.unique {asked : Option Operator} {op' : Operator} (h : p.Uses asked op)
    (h' : p.Uses asked op') : op = op' := by
  rw [← operatorFor?_eq_some_iff] at h h'
  exact Option.some.inj (h.symm.trans h')

/-- The condition on a field means what the values ask of it. -/
theorem holds_condition? {operator : Option Operator} {asked : Option Connector} {r : Reading}
    (huses : p.Uses operator op) (h : p.condition? values operator asked = some f) :
    f.Holds r ↔ p.FieldMeans op (p.connectorFor asked) values r := by
  have hop := huses.mem_operators
  obtain ⟨op', huses', husable⟩ := exists_condition?_iff.1 ⟨f, h⟩
  obtain rfl := huses.unique huses'
  simp only [condition?, Option.bind_eq_bind, operatorFor?_eq_some_iff.2 huses,
    Option.bind_some] at h
  rw [Filter.holds_anyOf? h, FieldMeans]
  constructor
  · rintro ⟨g, hg, hr⟩
    obtain ⟨name, hname, hg⟩ := List.mem_filterMap.1 hg
    exact ⟨name, hname, (holds_nameCondition? hop hg).1 hr⟩
  · rintro ⟨name, hname, hr⟩
    -- the values make a condition under every name if they make one at all
    obtain ⟨g, hg⟩ := (exists_nameCondition?_iff hop).2 husable
    exact ⟨g, List.mem_filterMap.2 ⟨name, hname, hg⟩, (holds_nameCondition? hop hg).2 hr⟩

/-! ### The form of conditions -/

/-- A text makes one comparison of its name, and a year two of them. -/
theorem valueCondition?_cases (h : p.valueCondition? name op value = some f) :
    (∃ op' arg, f = .compare op' name arg) ∨
      ∃ op₁ arg₁ op₂ arg₂, f = .and [.compare op₁ name arg₁, .compare op₂ name arg₂] := by
  unfold valueCondition? at h
  simp only at h
  split at h
  · cases h
  split at h
  · cases h
  · cases h
  · obtain ⟨u, -, rfl⟩ := Option.map_eq_some_iff.1 h
    exact .inl ⟨_, _, rfl⟩
  · exact .inl ⟨_, _, (Option.some.inj h).symm⟩
  · exact .inl ⟨_, _, (Option.some.inj h).symm⟩
  · exact .inl ⟨_, _, (Option.some.inj h).symm⟩
  · split at h
    · exact .inl ⟨_, _, (Option.some.inj h).symm⟩
    · cases h
  · split at h
    · exact .inl ⟨_, _, (Option.some.inj h).symm⟩
    · cases h
  · obtain ⟨n, -, rfl⟩ := Option.map_eq_some_iff.1 h
    exact .inl ⟨_, _, rfl⟩
  · split at h
    · exact .inl ⟨_, _, (Option.some.inj h).symm⟩
    · cases h
  · unfold dateCondition? at h
    split at h
    · unfold yearCondition? at h
      split at h
      · cases h
      · cases h
        cases op with
        | eq => exact .inr ⟨_, _, _, _, rfl⟩
        | _ => exact .inl ⟨_, _, rfl⟩
    · obtain ⟨t, -, rfl⟩ := Option.map_eq_some_iff.1 h
      exact .inl ⟨_, _, rfl⟩

/-- A condition on a field that is not joined by `or` is the one on its own name: under
each alias there would be one as well. -/
theorem exists_nameCondition?_queryName {operator : Option Operator} {asked : Option Connector}
    (h : p.condition? values operator asked = some f) (hor : ∀ parts, f ≠ .or parts) :
    ∃ op, p.Uses operator op ∧
      p.nameCondition? op (p.connectorFor asked) values p.queryName = some f := by
  obtain ⟨op, huses, husable⟩ := exists_condition?_iff.1 ⟨f, h⟩
  refine ⟨op, huses, ?_⟩
  obtain ⟨g, hg⟩ : ∃ g, p.nameCondition? op (p.connectorFor asked) values p.queryName = some g :=
    (exists_nameCondition?_iff huses.mem_operators).2 husable
  have hmem : g ∈ (p.queryName :: p.aliases).filterMap
      (p.nameCondition? op (p.connectorFor asked) values) :=
    List.mem_filterMap.2 ⟨_, List.mem_cons_self, hg⟩
  simp only [condition?, Option.bind_eq_bind, operatorFor?_eq_some_iff.2 huses,
    Option.bind_some, Filter.anyOf?] at h
  split at h
  · cases h
  · rename_i heq
    rw [heq, List.mem_singleton] at hmem
    rw [hg, hmem, h]
  · exact absurd (Option.some.inj h).symm (hor _)

/-- A text never asks only for a value. -/
theorem valueCondition?_ne_has (other : String) :
    p.valueCondition? name op value ≠ some (.has other) := by
  intro h
  rcases valueCondition?_cases h with ⟨_, _, hf⟩ | ⟨_, _, _, _, hf⟩ <;> cases hf

/-- A condition on a field requires a value, compares the values under the field's name with
a text, joins several such comparisons, or offers a choice. -/
theorem condition?_cases {operator : Option Operator} {asked : Option Connector}
    (h : p.condition? values operator asked = some f) :
    f = .has p.queryName ∨ (∃ op arg, f = .compare op p.queryName arg) ∨
      (∃ parts, f = .and parts ∧ ∀ other, .has other ∉ parts) ∨ ∃ parts, f = .or parts := by
  by_cases hor : ∃ parts, f = .or parts
  · exact .inr (.inr (.inr hor))
  · obtain ⟨op, -, hname⟩ := exists_nameCondition?_queryName h fun parts hf => hor ⟨parts, hf⟩
    unfold nameCondition? at hname
    split at hname
    · exact .inl (Option.some.inj hname).symm
    · obtain hvalues | hjoined | hjoined := Filter.join?_cases hname
      · obtain ⟨v, -, hv⟩ := List.mem_filterMap.1 (hvalues ▸ List.mem_cons_self)
        rcases valueCondition?_cases hv with hf | ⟨_, _, _, _, hf⟩
        · exact .inr (.inl hf)
        · exact .inr (.inr (.inl ⟨_, hf, by simp⟩))
      · refine .inr (.inr (.inl ⟨_, hjoined, fun other hmem => ?_⟩))
        obtain ⟨v, -, hv⟩ := List.mem_filterMap.1 hmem
        exact valueCondition?_ne_has _ hv
      · exact (hor ⟨_, hjoined⟩).elim

theorem filterMap_valueCondition?_of_choices {choices : Choices}
    (hkind : p.kind = .singleChoice choices) (hempty : choices.has "" = false) :
    values.filterMap (p.valueCondition? name op) =
      ((values.map Text.trim).filter choices.has).map fun v => .compare op name (.text v) := by
  have hvalue (v : String) : p.valueCondition? name op v =
      if choices.has (Text.trim v) then some (.compare op name (.text (Text.trim v))) else none := by
    simp only [valueCondition?, hkind]
    split
    · rename_i hblank
      rw [String.isEmpty_iff.1 hblank, hempty]
      rfl
    · rfl
  induction values with
  | nil => rfl
  | cons v rest ih =>
    rw [List.filterMap_cons, hvalue, List.map_cons, List.filter_cons, ih]
    split
    · rename_i hnone
      split at hnone
      · cases hnone
      · rename_i hhas
        rw [if_neg hhas]
    · rename_i f hsome
      split at hsome
      · rename_i hhas
        rw [if_pos hhas, ← Option.some.inj hsome]
        rfl
      · cases hsome

end Predicate

/-! ### Facets -/

/-- A text fits a facet. -/
inductive Facet.Fits (f : Facet) (value : String) : Prop
  | text (hkind : f.kind = .string)
  | choice {choices : Choices} (hkind : f.kind = .choice choices)
      (hchoice : choices.has (Text.trim value) = true)
  | integer {n : Int} (hkind : f.kind = .integer) (hread : readInt64? (Text.trim value) = some n)
  | float {d : Double} (hkind : f.kind = .float) (hread : readFinite? (Text.trim value) = some d)
  | instant {t : Instant} (hkind : f.kind = .dateTime)
      (hread : Instant.read? (Text.trim value) = some t)
  | boolean {b : Bool} (hkind : f.kind = .boolean)
      (hread : Predicate.readBool f.name (Text.trim value) = .ok b)

/-- A text makes a condition on a facet exactly if it fits, whatever operator is asked for. -/
theorem Facet.fits_iff {f : Facet} {value : String} (asked : Option Operator) :
    f.Fits value ↔ ∃ c, f.condition? value asked = some c := by
  have hmap : (∃ c, f.condition? value asked = some c) ↔
      ∃ arg, f.arg? (Text.trim value) = some arg := by
    simp only [condition?, Option.map_eq_some_iff]
    exact ⟨fun ⟨_, arg, h, _⟩ => ⟨arg, h⟩, fun ⟨arg, h⟩ => ⟨_, arg, h, rfl⟩⟩
  rw [hmap]
  constructor
  · rintro (hkind | ⟨hkind, hchoice⟩ | ⟨hkind, hread⟩ | ⟨hkind, hread⟩ | ⟨hkind, hread⟩ |
      ⟨hkind, hread⟩)
    · exact ⟨_, by rw [arg?, hkind]⟩
    · exact ⟨_, by rw [arg?, hkind]; exact if_pos hchoice⟩
    · exact ⟨_, by rw [arg?, hkind, hread]; rfl⟩
    · exact ⟨_, by rw [arg?, hkind, hread]; rfl⟩
    · exact ⟨_, by rw [arg?, hkind, hread]; rfl⟩
    · exact ⟨_, by rw [arg?, hkind, hread]⟩
  · rintro ⟨arg, h⟩
    unfold arg? at h
    split at h
    · rename_i hkind
      exact .text hkind
    · rename_i choices hkind
      split at h
      · rename_i hchoice
        exact .choice hkind hchoice
      · cases h
    · rename_i hkind
      obtain ⟨n, hread, -⟩ := Option.map_eq_some_iff.1 h
      exact .integer hkind hread
    · rename_i hkind
      obtain ⟨d, hread, -⟩ := Option.map_eq_some_iff.1 h
      exact .float hkind hread
    · rename_i hkind
      obtain ⟨t, hread, -⟩ := Option.map_eq_some_iff.1 h
      exact .instant hkind hread
    · rename_i hkind
      split at h
      · rename_i b hread
        exact .boolean hkind hread
      · cases h

end PressRegister
