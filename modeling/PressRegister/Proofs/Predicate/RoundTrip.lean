import PressRegister.Proofs.Calendar.RoundTrip
import PressRegister.Proofs.Predicate.Validation
import PressRegister.Proofs.Text.LetterCase

/-!
# Serialized operands read back

The raw input that operands are serialized as is valid again, and nothing is drawn for it. Most
operands read back as themselves. An instant loses its fraction of a second, since its canonical
text has none, and a new node loses its label, which does not count when nodes are compared. A
list loses the operands that are equal to an earlier one: repeated tokens are left out before
they are read, so two spellings of one identifier or of one label still lead to two operands.

## Main definitions

* `Operand.reread`: what an operand is read back as.
* `Operand.distinct`: operands without those that are equal to an earlier one.

## Main results

* `Predicate.validate_serialize`: what serialized operands are read back as.
* `Predicate.validate_serialize_iff`: when operands are read back unchanged.
* `Predicate.serialize_loses`: input whose operands are not read back unchanged.
-/

namespace PressRegister

open Calendar Number

namespace Operand

/-- What an operand is read back as: an instant without its fraction of a second, and a new node
without its label. -/
def reread : Operand → Operand
  | .literal (.instant t) => .literal (.instant t.whole)
  | .new b => .new ⟨b.name, none⟩
  | v => v

/-- Operands without those that are equal to an earlier one. -/
def distinct : List Operand → List Operand
  | [] => []
  | v :: rest => v :: (distinct rest).filter (· != v)

theorem distinct_sublist (vs : List Operand) : (distinct vs).Sublist vs := by
  induction vs with
  | nil => exact .slnil
  | cons v vs ih => exact (List.filter_sublist.trans ih).cons_cons v

theorem pairwise_distinct (vs : List Operand) : (distinct vs).Pairwise fun v w => w != v := by
  induction vs with
  | nil => exact .nil
  | cons v vs ih => exact List.pairwise_cons.2 ⟨fun w hw => (List.mem_filter.1 hw).2, ih.filter _⟩

theorem distinct_eq_self {vs : List Operand} (h : vs.Pairwise fun v w => w != v) :
    distinct vs = vs := by
  induction vs with
  | nil => rfl
  | cons v vs ih =>
    obtain ⟨hv, hvs⟩ := List.pairwise_cons.1 h
    rw [distinct, ih hvs, List.filter_eq_self.2 hv]

/-- Operands of which none is left out are told apart. -/
theorem distinct_eq_self_iff {vs : List Operand} :
    distinct vs = vs ↔ vs.Pairwise fun v w => w != v :=
  ⟨fun h => h ▸ pairwise_distinct vs, distinct_eq_self⟩

/-- An operand is read back unchanged unless it has a fraction of a second. -/
theorem reread_beq_self {v : Operand} (h : (v == v) = true) :
    (v.reread == v) = true ↔ ∀ t, v = .literal (.instant t) → t.nano % 1000000000 = 0 := by
  cases v with
  | new b => exact iff_of_true (beq_self_eq_true b.name) (by simp)
  | literal s =>
    cases s with
    | instant t =>
      have hwhole : (reread (.literal (.instant t)) == .literal (.instant t)) = true ↔
          t.whole = t := beq_iff_eq (α := Instant)
      rw [hwhole, Instant.whole_eq_self_iff]
      simp
    | _ => simpa [reread] using h
  | _ => simpa [reread] using h

/-- Operands are read back unchanged if none is left out and none has a fraction of a second. -/
theorem map_reread_distinct_beq {vs : List Operand} (h : ∀ v ∈ vs, (v == v) = true) :
    ((distinct vs).map reread == vs) = true ↔
      (∀ t, .literal (.instant t) ∈ vs → t.nano % 1000000000 = 0) ∧
        vs.Pairwise fun v w => w != v := by
  have hmap : (vs.map reread == vs) = true ↔ ∀ v ∈ vs, (v.reread == v) = true := by
    clear h
    induction vs with
    | nil => simp
    | cons v vs ih => simp [List.cons_beq_cons, ih]
  have hwhole : (vs.map reread == vs) = true ↔
      ∀ t, .literal (.instant t) ∈ vs → t.nano % 1000000000 = 0 := by
    rw [hmap]
    exact ⟨fun hall t ht => (reread_beq_self (h _ ht)).1 (hall _ ht) t rfl,
      fun hall v hv => (reread_beq_self (h v hv)).2 fun t heq => hall t (heq ▸ hv)⟩
  rw [← distinct_eq_self_iff]
  constructor
  · intro heq
    have hlength : (distinct vs).length = vs.length := by
      simpa using List.length_eq_of_beq heq
    have hself : distinct vs = vs := (distinct_sublist vs).eq_of_length hlength
    rw [hself] at heq
    exact ⟨hwhole.1 heq, hself⟩
  · rintro ⟨hall, hself⟩
    rw [hself]
    exact hwhole.2 hall

end Operand

namespace Predicate

/-! ### Canonical texts are tokens -/

theorem isToken_of_noBlank {s : String} (h : Text.NoBlank s) (hne : s ≠ "") : IsToken s :=
  ⟨h.trim_eq, hne⟩

theorem isToken_uid (u : Uid) : IsToken u.text := by
  obtain ⟨digits, htext, -, hall⟩ := u.exists_digits
  refine isToken_of_noBlank (fun c hc => ?_) fun hempty => by simp [hempty] at htext
  rw [htext, List.mem_cons, List.mem_cons] at hc
  rcases hc with rfl | rfl | hc
  · decide
  · decide
  · exact Uid.isBlank_of_isLowerHexDigit (List.all_eq_true.1 hall c hc)

theorem isToken_blankNode {b : BlankNode} (h : b.IsSlugged) : IsToken b.text := by
  refine isToken_of_noBlank (fun c hc => ?_) (by simp [BlankNode.text, BlankNode.chars])
  rw [BlankNode.text, BlankNode.chars, String.toList_ofList, List.mem_cons, List.mem_cons] at hc
  rcases hc with rfl | rfl | hc
  · decide
  · decide
  · rw [← h.1] at hc
    exact Text.noBlank_slug b.name c hc

theorem isToken_intText (n : Int) : IsToken (intText n) := by
  have hblank : ∀ c ∈ natChars n.natAbs, Text.isBlank c = false := fun c hc =>
    isBlank_of_isDigit (isDigit_of_mem_natChars hc)
  have hne : natChars n.natAbs ≠ [] := natChars_ne_nil n.natAbs
  unfold intText intChars
  split
  · refine isToken_of_noBlank (fun c hc => ?_) (by simp)
    rw [String.toList_ofList, List.mem_cons] at hc
    rcases hc with rfl | hc
    · decide
    · exact hblank c hc
  · exact isToken_of_noBlank (by simpa [Text.NoBlank] using hblank) (by simpa using hne)

theorem isToken_canonical {t : Instant} (hlow : 0 ≤ t.year) (hhigh : t.year ≤ 9999) :
    IsToken t.canonical := by
  rw [Instant.canonical, Instant.canonicalChars_eq hlow hhigh]
  refine isToken_of_noBlank (fun c hc => ?_) (by simp [timestampChars])
  rw [String.toList_ofList] at hc
  exact isBlank_of_mem_timestampChars hc

theorem IsToken.lower {s : String} (h : IsToken s) : IsToken (Text.lower s) := by
  refine ⟨Text.trim_lower h.1, fun hempty => ?_⟩
  rw [Text.lower, String.ofList_eq_empty_iff] at hempty
  exact Text.lowerAfter_ne_nil (by simpa using h.2) hempty

theorem IsToken.ofText {s : String} (h : IsToken s) :
    Operand.ofText s = .literal (.text s) := by
  rw [Operand.ofText, h.1]

/-! ### Fields of one token -/

/-- An operand that is read from a token is read back from its raw input. -/
structure ReadsBack (read : String → Except Error Operand) (v : Operand) : Prop where
  /-- The raw input is a token. -/
  token : ∃ text, v.raw = .string text ∧ IsToken text ∧ read text = .ok v.reread
  same : (v == v) = true

variable {p : Predicate} {raw : Json} {values : List Operand}

/-- What serialized operands are read back as, and what tells them apart. -/
structure RoundTrips (validate : Json → Except Error (List Operand)) (p : Predicate)
    (values : List Operand) : Prop where
  again : validate (p.serialize values) = .ok (values.map Operand.reread)
  apart : values.Pairwise fun v w => w != v
  same : ∀ v ∈ values, (v == v) = true

theorem readSingle_string {read : String → Except Error Operand} {s : String} (h : IsToken s) :
    p.readSingle (.string s) read = (read s).map fun v => [v] := by
  have hsingle : singleToken p.name (.string s) = .ok (some s) := by
    rw [singleToken, tokens_string h]
  unfold readSingle
  rw [hsingle]
  change (read s >>= fun v => pure [v]) = _
  cases read s <;> rfl

/-- A field of one token is read back if every operand is. -/
theorem readSingle_roundTrips {read : String → Except Error Operand} (hlist : p.isList = false)
    (h : p.readSingle raw read = .ok values)
    (hback : ∀ token v, IsToken token → read token = .ok v → ReadsBack read v) :
    RoundTrips (fun raw => p.readSingle raw read) p values := by
  obtain rfl | ⟨token, v, htoken, hread, rfl⟩ := readSingle_cases h
  · refine ⟨?_, .nil, by simp⟩
    simp only [serialize, hlist, Bool.false_eq_true, if_false]
    rfl
  · obtain ⟨⟨text, hraw, htext, hagain⟩, hsame⟩ := hback token v htoken hread
    refine ⟨?_, List.pairwise_singleton _ _, fun w hw => ?_⟩
    · simp only [serialize, hlist, Bool.false_eq_true, if_false, hraw]
      rw [readSingle_string htext, hagain]
      rfl
    · rw [List.mem_singleton.1 hw]
      exact hsame

theorem readsBack_uid {token : String} {v : Operand} (h : p.readUid token = .ok v) :
    ReadsBack p.readUid v := by
  unfold readUid at h
  split at h
  · rename_i u _
    cases h
    exact ⟨⟨u.text, rfl, isToken_uid u, by rw [readUid, u.parse?_text]; rfl⟩, beq_self_eq_true u⟩
  · cases h

theorem readsBack_text {read : String → Except Error Operand} {s : String} (hs : IsToken s)
    (h : read s = .ok (.literal (.text s))) : ReadsBack read (.literal (.text s)) :=
  ⟨⟨s, rfl, hs, h⟩, beq_self_eq_true s⟩

theorem readsBack_integer {min max : Option Int} {token : String} {v : Operand}
    (h : p.readInteger min max token = .ok v) : ReadsBack (p.readInteger min max) v := by
  unfold readInteger at h
  split at h
  · cases h
  · rename_i n hn
    split at h
    · cases h
    · rename_i hbounds
      cases h
      refine ⟨⟨intText n, rfl, isToken_intText n, ?_⟩, beq_self_eq_true n⟩
      simp only [readInteger, readInt64?_intText hn, if_neg hbounds]
      rfl

theorem readInstant_ok {predicate token : String} {t : Instant}
    (h : readInstant predicate token = .ok t) :
    Instant.read? token = some t ∧ minYear ≤ t.year ∧ t.year ≤ maxYear := by
  unfold readInstant at h
  split at h
  · cases h
  · rename_i hread
    split at h
    · cases h
    · rename_i hyear
      cases h
      simp only [Bool.or_eq_true, decide_eq_true_eq, not_or, Int.not_lt] at hyear
      exact ⟨hread, hyear⟩

/-- The years that are plausible are written with four digits. -/
theorem read?_canonical_of_readInstant {predicate token : String} {t : Instant}
    (h : readInstant predicate token = .ok t) :
    IsToken t.canonical ∧ Instant.read? t.canonical = some t.whole := by
  obtain ⟨hread, hmin, hmax⟩ := readInstant_ok h
  have hlow : 0 ≤ t.year := Int.le_trans (by decide) hmin
  have hhigh : t.year ≤ 9999 := Int.le_trans hmax (by decide)
  exact ⟨isToken_canonical hlow hhigh,
    Instant.read?_canonical (Instant.isRead_of_read? hread) hlow hhigh⟩

theorem readsBack_instant {token : String} {v : Operand}
    (h : (readInstant p.name token).map (fun t => .literal (.instant t)) = .ok v) :
    ReadsBack (fun token => (readInstant p.name token).map fun t => .literal (.instant t)) v := by
  obtain ⟨t, ht, rfl⟩ := map_eq_ok.1 h
  obtain ⟨-, hmin, hmax⟩ := readInstant_ok ht
  obtain ⟨htoken, hagain⟩ := read?_canonical_of_readInstant ht
  refine ⟨⟨t.canonical, rfl, htoken, ?_⟩, beq_self_eq_true t⟩
  have hplausible : ¬ (t.whole.year < minYear ∨ maxYear < t.whole.year) := by
    rw [Instant.year_whole]
    omega
  simp only [readInstant, hagain, Bool.or_eq_true, decide_eq_true_eq, if_neg hplausible]
  rfl

theorem eq_ofText_of_read {choices : Choices} {token : String} {v : Operand}
    (h : (choices.read p.name token).map Operand.ofText = .ok v) : v = Operand.ofText token := by
  obtain ⟨choice, hchoice, rfl⟩ := map_eq_ok.1 h
  unfold Choices.read at hchoice
  split at hchoice
  · rw [Except.ok.inj hchoice]
  · cases hchoice

theorem readBool_boolText (predicate : String) (b : Bool) :
    readBool predicate (Scalar.boolText b) = .ok b := by
  cases b <;> rfl

theorem truth_roundTrips (hlist : p.isList = false) (h : p.readTruth raw = .ok values) :
    RoundTrips p.readTruth p values := by
  have hbool : ∀ b, RoundTrips p.readTruth p [.literal (.bool b)] := by
    intro b
    have htoken : IsToken (Scalar.boolText b) := by cases b <;> decide
    refine ⟨?_, List.pairwise_singleton _ _, fun w hw => ?_⟩
    · simp only [serialize, hlist, Bool.false_eq_true, if_false]
      change p.readSingle (.string (Scalar.boolText b)) _ = _
      rw [readSingle_string htoken, readBool_boolText]
      rfl
    · rw [List.mem_singleton.1 hw]
      exact beq_self_eq_true b
  unfold readTruth at h
  split at h
  · cases h
    exact hbool _
  · cases h
    exact hbool _
  · cases h
    exact hbool _
  · obtain rfl | ⟨token, v, -, hread, rfl⟩ := readSingle_cases h
    · refine ⟨?_, .nil, by simp⟩
      simp only [serialize, hlist, Bool.false_eq_true, if_false]
      rfl
    · obtain ⟨b, -, rfl⟩ := map_eq_ok.1 hread
      exact hbool b

/-! ### Points -/

theorem same_of_isFinite {d : Double} (h : d.isFinite = true) : d.same d = true := by
  cases d with
  | finite s a => simp [Double.same]
  | _ => cases h

theorem isFinite_of_isWithin {bound : Nat} {d : Double} (h : d.isWithin bound = true) :
    d.isFinite = true := by
  cases d with
  | finite s a => rfl
  | _ => cases h

/-- The geometry of a point on the map is read as the point. -/
theorem readPoint_geometry {point : Point} (hlongitude : point.longitude.isWithin 180 = true)
    (hlatitude : point.latitude.isWithin 90 = true) :
    readPoint p.name point.geometry = .ok (some point) := by
  have hcoordinates : coordinates? point.geometry = some (point.longitude, point.latitude) := by
    simp only [Point.geometry, isFinite_of_isWithin hlongitude, isFinite_of_isWithin hlatitude,
      if_true]
    rfl
  unfold readPoint
  rw [hcoordinates]
  simp [Point.geometry, hlongitude, hlatitude]

theorem point_roundTrips (hlist : p.isList = false)
    (h : (readPoint p.name raw).map (fun point => (point.map Operand.geo).toList) = .ok values) :
    RoundTrips (fun raw => (readPoint p.name raw).map fun point => (point.map Operand.geo).toList)
      p values := by
  obtain ⟨found, hfound, rfl⟩ := map_eq_ok.1 h
  cases found with
  | none =>
    refine ⟨?_, .nil, by simp⟩
    simp only [serialize, hlist, Bool.false_eq_true, if_false]
    rfl
  | some point =>
    have hwithin : point.longitude.isWithin 180 = true ∧ point.latitude.isWithin 90 = true := by
      unfold readPoint at hfound
      split at hfound
      · cases hfound
      · split at hfound
        · split at hfound
          · rename_i hwithin
            cases hfound
            simpa using hwithin
          · cases hfound
        · cases hfound
    refine ⟨?_, List.pairwise_singleton _ _, fun w hw => ?_⟩
    · simp only [serialize, hlist, Bool.false_eq_true, if_false]
      change (readPoint p.name point.geometry).map _ = _
      rw [readPoint_geometry hwithin.1 hwithin.2]
      rfl
    · rw [List.mem_singleton.1 hw]
      change (point.longitude.same point.longitude && point.latitude.same point.latitude) = true
      rw [same_of_isFinite (isFinite_of_isWithin hwithin.1),
        same_of_isFinite (isFinite_of_isWithin hwithin.2)]
      rfl

/-! ### Fields of several tokens -/

/-- Tokens that stand once are read back. -/
theorem texts_roundTrips {validate : Json → Except Error (List Operand)} {items : List String}
    (hlist : p.isList = true) (hitems : ∀ s ∈ items, IsToken s) (hnodup : items.Nodup)
    (h : validate (.array (items.map .string)) = .ok (items.map Operand.ofText)) :
    RoundTrips validate p (items.map Operand.ofText) := by
  have htexts : items.map Operand.ofText = items.map fun s => .literal (.text s) :=
    List.map_congr_left fun s hs => (hitems s hs).ofText
  refine ⟨?_, ?_, fun v hv => ?_⟩
  · have hraw : p.serialize (items.map Operand.ofText) = .array (items.map .string) := by
      simp only [serialize, hlist, if_true, htexts, List.map_map]
      rfl
    rw [hraw, h, htexts, List.map_map]
    rfl
  · rw [htexts, List.pairwise_map]
    refine hnodup.imp fun {s t} hne => ?_
    change (!(t == s)) = true
    simpa using Ne.symm hne
  · rw [htexts] at hv
    obtain ⟨s, -, rfl⟩ := List.mem_map.1 hv
    exact beq_self_eq_true s

theorem isToken_of_mem_withoutRepeats {split : Bool} {token : String}
    (h : token ∈ withoutRepeats (tokens split raw)) : IsToken token :=
  isToken_of_mem_tokens (mem_withoutRepeats.1 h)

/-- The tokens of a list are found again in their array. -/
theorem withoutRepeats_tokens_array (split : Bool) :
    withoutRepeats (tokens split (.array ((withoutRepeats (tokens true raw)).map .string))) =
      withoutRepeats (tokens true raw) := by
  rw [tokens_array fun s hs => isToken_of_mem_withoutRepeats hs,
    withoutRepeats_eq_self (nodup_withoutRepeats _)]

theorem choices_roundTrips {choices : Choices} (hlist : p.isList = true)
    (h : p.readChoices choices raw = .ok values) :
    RoundTrips (p.readChoices choices) p values := by
  unfold readChoices at h
  simp only at h
  split at h
  · cases h
    have hnone : ∀ s ∈ ([] : List String), IsToken s := fun s hs => nomatch hs
    exact texts_roundTrips hlist hnone .nil rfl
  · rename_i hna
    obtain rfl := eq_map_of_mapM_eq_ok (fun _ _ => eq_ofText_of_read) h
    refine texts_roundTrips hlist (fun s hs => isToken_of_mem_withoutRepeats hs)
      (nodup_withoutRepeats _) ?_
    simp only [readChoices, withoutRepeats_tokens_array, if_neg hna]
    exact h

/-- A field that is no relationship is read back. -/
theorem validateLiteral_roundTrips (hrel : p.relationship? = none)
    (h : p.validateLiteral raw = .ok values) : RoundTrips p.validateLiteral p values := by
  have hlist : p.isList = match p.kind with
      | .listString | .multipleChoice _ => true
      | _ => false := by
    unfold relationship? at hrel
    unfold isList
    split at hrel
    · cases hrel
    · rename_i hkind
      split
      all_goals simp_all
  unfold validateLiteral at h ⊢
  cases hkind : p.kind with
  | relationship rel => simp [relationship?, hkind] at hrel
  | uid =>
    simp only [hkind] at h hlist ⊢
    exact readSingle_roundTrips hlist h fun _ _ _ hread => readsBack_uid hread
  | string =>
    simp only [hkind] at h hlist ⊢
    refine readSingle_roundTrips hlist h fun token v htoken hread => ?_
    cases hread
    rw [htoken.ofText]
    exact readsBack_text htoken (by rw [htoken.ofText])
  | uniqueName =>
    simp only [hkind] at h hlist ⊢
    refine readSingle_roundTrips hlist h fun token v htoken hread => ?_
    cases hread
    rw [htoken.lower.ofText]
    exact readsBack_text htoken.lower (by rw [Text.lower_lower, htoken.lower.ofText])
  | listString =>
    simp only [hkind, Except.ok.injEq] at h hlist ⊢
    subst h
    refine texts_roundTrips hlist (fun s hs => isToken_of_mem_withoutRepeats hs)
      (nodup_withoutRepeats _) ?_
    rw [withoutRepeats_tokens_array]
  | integer min max =>
    simp only [hkind] at h hlist ⊢
    exact readSingle_roundTrips hlist h fun _ _ _ hread => readsBack_integer hread
  | boolean =>
    simp only [hkind] at h hlist ⊢
    exact truth_roundTrips hlist h
  | dateTime =>
    simp only [hkind] at h hlist ⊢
    exact readSingle_roundTrips hlist h fun _ _ _ hread => readsBack_instant hread
  | geo =>
    simp only [hkind] at h hlist ⊢
    exact point_roundTrips hlist h
  | singleChoice choices =>
    simp only [hkind] at h hlist ⊢
    refine readSingle_roundTrips hlist h fun token v htoken hread => ?_
    obtain rfl := eq_ofText_of_read hread
    rw [htoken.ofText] at hread ⊢
    exact readsBack_text htoken hread
  | multipleChoice choices =>
    simp only [hkind] at h hlist ⊢
    exact choices_roundTrips hlist h

end Predicate

/-! ### Nodes -/

namespace Operand

/-- An operand is a stored node, or a new node that is named after a label. -/
def IsReadNode : Operand → Prop
  | .existing _ => True
  | .new b => b.IsSlugged
  | _ => False

/-- The token that a node is serialized as. -/
def token : Operand → String
  | .existing u => u.text
  | .new b => b.text
  | _ => ""

theorem parse?_blankNode {b : BlankNode} (h : b.IsSlugged) : Uid.parse? b.text = none := by
  have htoken := congrArg String.toList (Predicate.isToken_blankNode h).1
  have hchars : Text.trimChars b.text.toList = '_' :: ':' :: b.name.toList := by
    simpa [Text.trim, BlankNode.text, BlankNode.chars] using htoken
  unfold Uid.parse?
  rw [hchars]
  split
  · rename_i heq
    exact absurd (List.cons.inj heq).1 (by decide)
  · rfl

section

variable {v w : Operand}

theorem IsReadNode.raw_eq (h : v.IsReadNode) : v.raw = .string v.token := by
  cases v with
  | existing u => rfl
  | new b => rfl
  | _ => cases h

theorem IsReadNode.isToken (h : v.IsReadNode) : Predicate.IsToken v.token := by
  cases v with
  | existing u => exact Predicate.isToken_uid u
  | new b => exact Predicate.isToken_blankNode h
  | _ => cases h

/-- Nodes are equal if they are serialized as one token. -/
theorem IsReadNode.beq_iff (hv : v.IsReadNode) (hw : w.IsReadNode) :
    (v == w) = true ↔ v.token = w.token := by
  cases v with
  | existing u =>
    cases w with
    | existing u' =>
      have hbeq : (existing u == existing u') = true ↔ u = u' := beq_iff_eq (α := Uid)
      rw [hbeq, Uid.mk.injEq]
      rfl
    | new b =>
      refine iff_of_false Bool.false_ne_true fun heq => ?_
      have hparse := u.parse?_text
      rw [show u.text = b.text from heq, parse?_blankNode hw] at hparse
      cases hparse
    | _ => cases hw
  | new b =>
    cases w with
    | new b' =>
      have hbeq : (new b == new b') = true ↔ b.name = b'.name := BlankNode.beq_iff_name_eq
      rw [hbeq]
      simp [token, BlankNode.text, BlankNode.chars]
    | existing u =>
      refine iff_of_false Bool.false_ne_true fun heq => ?_
      have hparse := u.parse?_text
      rw [show u.text = b.text from heq.symm, parse?_blankNode hv] at hparse
      cases hparse
    | _ => cases hw
  | _ => cases hv

end

theorem distinct_tokens {vs : List Operand} (h : ∀ v ∈ vs, v.IsReadNode) :
    Predicate.withoutRepeats (vs.map token) = (distinct vs).map token := by
  induction vs with
  | nil => rfl
  | cons v vs ih =>
    obtain ⟨hv, hvs⟩ := List.forall_mem_cons.1 h
    rw [List.map_cons, Predicate.withoutRepeats, ih hvs, distinct, List.map_cons, List.filter_map]
    congr 2
    refine List.filter_congr fun w hw => ?_
    have hread := hvs w ((distinct_sublist vs).subset hw)
    have hsame : (w.token == v.token) = (w == v) := by
      rw [Bool.eq_iff_iff, hread.beq_iff hv, beq_iff_eq]
    simp only [Function.comp_apply, bne, hsame]

end Operand

namespace Predicate

open Operand

variable {p : Predicate} {raw : Json} {values : List Operand}

theorem StandsFor.isReadNode {token : String} {v : Operand} (h : StandsFor token v) :
    v.IsReadNode := by
  cases h with
  | stored hu => trivial
  | label supply hnone => exact BlankNode.isSlugged_ofLabel token supply

/-- The tokens that nodes are serialized as stand for the nodes, and nothing is drawn for them. -/
theorem nodesOf_token {vs : List Operand} (h : ∀ v ∈ vs, v.IsReadNode) (supply : Supply) :
    nodesOf (vs.map token) supply = (vs.map reread, supply) := by
  induction vs with
  | nil => rfl
  | cons v vs ih =>
    obtain ⟨hv, hvs⟩ := List.forall_mem_cons.1 h
    rw [List.map_cons, nodesOf]
    cases v with
    | existing u =>
      simp only [token, u.parse?_text, ih hvs]
      rfl
    | new b =>
      simp only [token, parse?_blankNode hv, BlankNode.IsSlugged.ofLabel_text hv, ih hvs]
      rfl
    | _ => cases hv

/-- The tokens of serialized nodes. -/
theorem tokens_serialize {rel : Relationship} (hkind : p.kind = .relationship rel)
    (hvalues : ∀ v ∈ values, v.IsReadNode)
    (hsingle : rel.cardinality = .single → values.length ≤ 1) :
    tokens (rel.cardinality == .list) (p.serialize values) = values.map token := by
  have hlist : p.isList = (rel.cardinality == .list) := by rw [isList, hkind]
  cases hcardinality : rel.cardinality with
  | list =>
    have hraw : p.serialize values = .array ((values.map token).map .string) := by
      have hmap : values.map raw = (values.map token).map .string := by
        rw [List.map_map]
        exact List.map_congr_left fun v hv => (hvalues v hv).raw_eq
      simp only [serialize, hlist, hcardinality, beq_self_eq_true, if_true, hmap]
    rw [hraw]
    refine tokens_array fun s hs => ?_
    obtain ⟨v, hv, rfl⟩ := List.mem_map.1 hs
    exact (hvalues v hv).isToken
  | single =>
    have hfalse : (Cardinality.single == Cardinality.list) = false := rfl
    rw [hcardinality, hfalse] at hlist
    obtain _ | ⟨v, _ | ⟨w, rest⟩⟩ := values
    · simp only [serialize, hlist, Bool.false_eq_true, if_false]
      rfl
    · have hv := hvalues v List.mem_cons_self
      simp only [serialize, hlist, Bool.false_eq_true, if_false, hv.raw_eq]
      exact tokens_string hv.isToken
    · have hlength := hsingle hcardinality
      simp at hlength

/-- Serialized operands are read back, each instant without its fraction of a second, each new
node without its label, and no operand that is equal to an earlier one. Nothing is drawn. -/
theorem validate_serialize {before after : Supply} (h : p.validate raw before = .ok (values, after))
    (supply : Supply) :
    p.validate (p.serialize values) supply = .ok ((distinct values).map reread, supply) ∧
      ∀ v ∈ values, (v == v) = true := by
  obtain ⟨rel, items, hkind, hitems, heq⟩ | ⟨hrel, hread, -⟩ := validate_cases h
  · have hpairs := nodesOf_standsFor items before
    rw [heq] at hpairs
    have hvalues : ∀ v ∈ values, v.IsReadNode := fun v hv => by
      have hmem : v ∈ (nodesOf items before).1 := by rwa [heq]
      obtain ⟨token, -, hstands⟩ := exists_of_mem_nodesOf hmem
      exact hstands.isReadNode
    obtain ⟨-, hsingle, hallowed⟩ := relationshipTokens_eq_ok.1 hitems
    have htokens : tokens (rel.cardinality == .list) (p.serialize values) = values.map token :=
      tokens_serialize hkind hvalues fun hcardinality =>
        hpairs.length_eq ▸ hsingle hcardinality
    have hagain : p.relationshipTokens rel (p.serialize values) =
        .ok ((distinct values).map token) := by
      refine relationshipTokens_eq_ok.2 ⟨?_, fun hcardinality => ?_, fun token htoken hlabel => ?_⟩
      · rw [htokens, distinct_tokens hvalues]
      · rw [List.length_map]
        exact Nat.le_trans (distinct_sublist values).length_le
          (hpairs.length_eq ▸ hsingle hcardinality)
      · obtain ⟨v, hv, rfl⟩ := List.mem_map.1 htoken
        have hmem : v ∈ (nodesOf items before).1 := by
          rw [heq]
          exact (distinct_sublist values).subset hv
        obtain ⟨item, hitem, hstands⟩ := exists_of_mem_nodesOf hmem
        cases hstands with
        | stored hu =>
          rename_i u
          have hparse := u.parse?_text
          rw [show Uid.parse? u.text = none from hlabel] at hparse
          cases hparse
        | label _ hnone => exact hallowed item hitem hnone
    refine ⟨?_, fun v hv => ((hvalues v hv).beq_iff (hvalues v hv)).2 rfl⟩
    have hdistinct : ∀ v ∈ distinct values, v.IsReadNode := fun v hv =>
      hvalues v ((distinct_sublist values).subset hv)
    simp only [validate, hkind, hagain, Except.map, nodesOf_token hdistinct]
  · obtain ⟨hagain, hapart, hsame⟩ := validateLiteral_roundTrips hrel hread
    refine ⟨?_, hsame⟩
    rw [distinct_eq_self hapart]
    unfold validate
    split
    · rename_i rel hkind
      simp [relationship?, hkind] at hrel
    · rw [hagain]
      rfl

/-- Operands are read back from what they are serialized as, and nothing is drawn for it. They are
unchanged exactly if no instant has a fraction of a second and no two operands are equal. -/
theorem validate_serialize_iff {before after : Supply}
    (h : p.validate raw before = .ok (values, after)) (supply : Supply) :
    ∃ again, p.validate (p.serialize values) supply = .ok (again, supply) ∧
      ((again == values) = true ↔
        (∀ t, .literal (.instant t) ∈ values → t.nano % 1000000000 = 0) ∧
          values.Pairwise fun v w => w != v) := by
  obtain ⟨hagain, hsame⟩ := validate_serialize h supply
  exact ⟨_, hagain, map_reread_distinct_beq hsame⟩

/-- The organizations that an organization owns, any of which may be new. -/
def owns : Predicate :=
  (listRelationship "owns" ["Organization"]).allowNew

/-- Two spellings of one label are read, and they are one node. -/
theorem validate_serialize_iff_owns :
    ∃ values, owns.validate (.ofStrings ["0x10", "Styria Media", "STYRIA MEDIA"]) .counting =
        .ok (values, .counting) ∧
      values == [.existing (.ofNat 16), .new ⟨"styria_media", none⟩, .new ⟨"styria_media", none⟩] ∧
      ∃ again, owns.validate (owns.serialize values) .counting = .ok (again, .counting) ∧
        ((again == values) = true ↔
          (∀ t, .literal (.instant t) ∈ values → t.nano % 1000000000 = 0) ∧
            values.Pairwise fun v w => w != v) := by
  have h : owns.validate (.ofStrings ["0x10", "Styria Media", "STYRIA MEDIA"]) .counting =
      .ok ([.existing (.ofNat 16), .new ⟨"styria_media", some "Styria Media"⟩,
        .new ⟨"styria_media", some "STYRIA MEDIA"⟩], .counting) := rfl
  exact ⟨_, h, rfl, validate_serialize_iff h .counting⟩

/-- A fraction of a second is not read back, nor is the second of two spellings of an identifier. -/
theorem serialize_loses :
    (∃ values again, (dateTime "founded").validate (.string "1988-10-19T08:30:00.5Z") .counting =
        .ok (values, .counting) ∧
      (dateTime "founded").validate ((dateTime "founded").serialize values) .counting =
        .ok (again, .counting) ∧ (again == values) = false) ∧
    ∃ values again, owns.validate (.ofStrings ["0x1A", "0x1a"]) .counting =
        .ok (values, .counting) ∧
      owns.validate (owns.serialize values) .counting = .ok (again, .counting) ∧
      (again == values) = false :=
  ⟨⟨_, _, rfl, rfl, rfl⟩, _, _, rfl, rfl, rfl⟩

end Predicate

end PressRegister
