import PressRegister.Proofs.Filter.Meaning
import PressRegister.Proofs.Text.Literals
import PressRegister.Proofs.Text.Words

/-!
# The text of a filter is unambiguous

Two filters with one text differ in nothing that a reader could see: in groups of a single
part, which are written as the part, in the kinds of arguments that stand bare, and in slashes
in patterns, which are left out. Both are brought into a plain form that has none of these
differences, and a plain filter ends where it ends in any text that starts with it.

## Main definitions

* `Arg.IsLegible`, `Filter.IsLegible`: the names in a filter are identifiers, its numbers are
  words, and no group is empty.
* `Arg.canonical`, `Filter.canonical`: the plain form of a filter.
* `Filter.call?`, `Filter.ofCall?`: filters that are no groups, as calls.
* `Filter.IsPlain`: filters in plain form.

## Main results

* `Filter.IsLegible.chars_canonical`: the plain form of a filter has its text.
* `Filter.IsPlain.eq_of_append`: texts that start with plain filters start with the same one.
* `Filter.render_eq_iff`: filters have one text exactly if they have one plain form, and texts
  and patterns are read back from their literals.
-/

namespace PressRegister

open Text

/-! ### Arguments -/

namespace Arg

/-- Names of an argument are identifiers, and numbers are words. -/
inductive IsLegible : Arg → Prop
  | name {s : String} (h : isIdentifier s = true) : IsLegible (.name s)
  | text (s : String) : IsLegible (.text s)
  | number {s : String} (h : IsWord s) : IsLegible (.number s)
  | uid (u : Uid) : IsLegible (.uid u)
  | param {s : String} (h : isIdentifier s = true) : IsLegible (.param s)
  | varRef {s : String} (h : isIdentifier s = true) : IsLegible (.varRef s)
  | pattern (s : String) : IsLegible (.pattern s)

/-- An argument that stands bare as a name, and a pattern without its slashes. -/
def canonical : Arg → Arg
  | .name s | .varRef s | .number s => .name s
  | .uid u => .name u.text
  | .param s => .name ("$" ++ s)
  | .text s => .text s
  | .pattern s => .pattern (String.ofList (s.toList.filter (· != '/')))

/-- Arguments in plain form. -/
inductive IsPlain : Arg → Prop
  | word {s : String} (h : IsWord s) : IsPlain (.name s)
  | text (s : String) : IsPlain (.text s)
  | pattern {s : String} (h : '/' ∉ s.toList) : IsPlain (.pattern s)

theorem chars_canonical (a : Arg) : a.canonical.chars = a.chars := by
  cases a with
  | param s => simp [canonical, chars]
  | pattern s =>
    have hfilter (cs : List Char) :
        (cs.filter (· != '/')).flatMap patternChar = cs.flatMap patternChar := by
      induction cs with
      | nil => rfl
      | cons c cs ih =>
        by_cases hslash : c = '/'
        · simp [hslash, ih, patternChar]
        · simp [hslash, ih]
    simp [canonical, chars, patternChars, hfilter]
  | _ => rfl

theorem isWord_param {s : String} (h : isIdentifier s = true) : IsWord ("$" ++ s) :=
  .append (by decide) (isWord_of_isIdentifier h)

theorem IsLegible.isPlain_canonical {a : Arg} (h : a.IsLegible) : a.canonical.IsPlain := by
  cases h with
  | name h => exact .word (isWord_of_isIdentifier h)
  | text s => exact .text s
  | number h => exact .word h
  | uid u => exact .word u.isWord_text
  | param h => exact .word (isWord_param h)
  | varRef h => exact .word (isWord_of_isIdentifier h)
  | pattern s => exact .pattern (by simp)

/-- A plain argument ends where it ends, if a separator follows. -/
theorem IsPlain.eq_of_append {a b : Arg} (ha : a.IsPlain) (hb : b.IsPlain)
    {rest rest' : List Char} (hrest : startsApart rest = true) (hrest' : startsApart rest' = true)
    (h : a.chars ++ rest = b.chars ++ rest') : a = b ∧ rest = rest' := by
  cases ha with
  | word hv =>
    cases hb with
    | word hw =>
      obtain ⟨rfl, hrest⟩ := eq_of_word_append hv hw hrest hrest' h
      exact ⟨rfl, hrest⟩
    | text t => exact (hv.append_ne (by decide) _ _ h).elim
    | pattern _ => exact (hv.append_ne (by decide) _ _ h).elim
  | text s =>
    cases hb with
    | word hw => exact (hw.append_ne (by decide) _ _ h.symm).elim
    | text t =>
      obtain ⟨hchars, hrest⟩ := eq_of_quoteChars_append h
      exact ⟨by rw [String.toList_inj.1 hchars], hrest⟩
    | pattern _ => cases (List.cons.inj h).1
  | @pattern s hs =>
    cases hb with
    | word hw => exact (hw.append_ne (by decide) _ _ h.symm).elim
    | text t => cases (List.cons.inj h).1
    | @pattern t ht =>
      have hfree {cs : List Char} (hcs : '/' ∉ cs) : cs.filter (· != '/') = cs :=
        List.filter_eq_self.2 fun c hc => bne_iff_ne.2 fun heq => hcs (heq ▸ hc)
      obtain ⟨hchars, hrest⟩ := eq_of_patternChars_append h
      rw [hfree hs, hfree ht] at hchars
      exact ⟨by rw [String.toList_inj.1 hchars], hrest⟩

end Arg

namespace Operator

theorem find?_name (op : Operator) : all.find? (·.name == op.name) = some op := by
  cases op <;> rfl

theorem isWord_name (op : Operator) : IsWord op.name := by
  cases op <;> decide

end Operator

namespace Connector

/-- What stands between the parts of a group. -/
def separator : Connector → String
  | .and => " AND "
  | .or => " OR "

theorem startsApart_separator (connector : Connector) :
    startsApart connector.separator.toList = true := by
  cases connector <;> rfl

theorem eq_of_separator_append {connector connector' : Connector} {rest rest' : List Char}
    (h : connector.separator.toList ++ rest = connector'.separator.toList ++ rest') :
    connector = connector' := by
  cases connector with
  | and =>
    cases connector' with
    | and => rfl
    | or => cases (List.cons.inj (List.cons.inj h).2).1
  | or =>
    cases connector' with
    | and => cases (List.cons.inj (List.cons.inj h).2).1
    | or => rfl

end Connector

namespace Filter

/-! ### Calls -/

/-- A filter that is no group, as the call of a function with plain arguments. -/
def call? : Filter → Option (String × List Arg)
  | .compare op predicate arg => some (op.name, [.name predicate, arg])
  | .has predicate => some ("has", [.name predicate])
  | .ofType name => some ("type", [.text name])
  | .inVar name => some ("uid", [.name name])
  | .isParam name => some ("uid", [.name ("$" ++ name)])
  | .and _ | .or _ => none

/-- The filter that a call stands for. -/
def ofCall? : String → List Arg → Option Filter
  | name, [.name predicate, arg] =>
    (Operator.all.find? (·.name == name)).map fun op => .compare op predicate arg
  | _, [.text name] => some (.ofType name)
  | name, [.name s] =>
    if name = "has" then some (.has s)
    else if s.toList.head? = some '$' then some (.isParam (String.ofList s.toList.tail))
    else some (.inVar s)
  | _, _ => none

theorem chars_of_call? {f : Filter} {name : String} {args : List Arg}
    (h : f.call? = some (name, args)) : f.chars = callChars name (args.map Arg.chars) := by
  cases f with
  | and parts => cases h
  | or parts => cases h
  | isParam param =>
    obtain ⟨rfl, rfl⟩ := Prod.mk.inj (Option.some.inj h)
    simp [chars, Arg.chars]
  | _ =>
    obtain ⟨rfl, rfl⟩ := Prod.mk.inj (Option.some.inj h)
    simp [chars, Arg.chars]

/-- Calls end where they end. -/
theorem eq_of_callChars_append {name name' : String} {first first' : Arg}
    {others others' : List Arg} {rest rest' : List Char} (hname : IsWord name)
    (hname' : IsWord name') (hargs : ∀ a ∈ first :: others, a.IsPlain)
    (hargs' : ∀ a ∈ first' :: others', a.IsPlain)
    (h : callChars name ((first :: others).map Arg.chars) ++ rest =
      callChars name' ((first' :: others').map Arg.chars) ++ rest') :
    name = name' ∧ first :: others = first' :: others' ∧ rest = rest' := by
  simp only [callChars, List.append_assoc, List.cons_append, List.nil_append, List.map_cons,
    intercalate_cons] at h
  obtain ⟨rfl, htail⟩ := eq_of_word_append hname hname' rfl rfl h
  obtain ⟨rfl, hothers⟩ := (hargs _ List.mem_cons_self).eq_of_append (hargs' _ List.mem_cons_self)
    (startsApart_joined rfl _ _) (startsApart_joined rfl _ _) (List.cons.inj htail).2
  obtain ⟨rfl, hrest⟩ := eq_of_joined_append (P := (startsApart · = true)) (fun _ => rfl)
    (fun _ => rfl) (by simp) (fun a ha b hb _ _ =>
      (hargs a (List.mem_cons_of_mem _ ha)).eq_of_append (hargs' b (List.mem_cons_of_mem _ hb)))
    hothers
  exact ⟨rfl, rfl, hrest⟩

/-! ### Groups -/

/-- Filters joined by a connector. -/
def joined : Connector → List Filter → Filter
  | .and, parts => .and parts
  | .or, parts => .or parts

theorem chars_joined (connector : Connector) (parts : List Filter) :
    (joined connector parts).chars = groupChars connector.separator (parts.map chars) := by
  cases connector <;> simp [joined, chars, partChars_eq_map, Connector.separator]

/-- The text of a group, its first part apart. -/
theorem chars_joined_append (connector : Connector) (first second : Filter) (others : List Filter)
    (rest : List Char) : (joined connector (first :: second :: others)).chars ++ rest =
      '(' :: (first.chars ++ (((second :: others).map chars).flatMap
        (connector.separator.toList ++ ·) ++ ')' :: rest)) := by
  have hgroup : groupChars connector.separator ((first :: second :: others).map chars) =
      '(' :: connector.separator.toList.intercalate ((first :: second :: others).map chars) ++
        [')'] := rfl
  rw [chars_joined, hgroup, List.map_cons, intercalate_cons]
  simp

/-- Filters joined by a connector; a single filter stands for itself. -/
def grouped (connector : Connector) : List Filter → Filter
  | [f] => f
  | parts => joined connector parts

theorem chars_grouped (connector : Connector) (parts : List Filter) :
    (grouped connector parts).chars = (joined connector parts).chars := by
  unfold grouped
  split
  · rw [chars_joined]
    rfl
  · rfl

/-! ### The plain form -/

/-- Names in a filter are identifiers, numbers are words, and no group is empty. -/
inductive IsLegible : Filter → Prop
  | compare (op : Operator) {predicate : String} {arg : Arg}
      (hpredicate : isIdentifier predicate = true) (harg : arg.IsLegible) :
      IsLegible (.compare op predicate arg)
  | has {predicate : String} (h : isIdentifier predicate = true) : IsLegible (.has predicate)
  | ofType (name : String) : IsLegible (.ofType name)
  | inVar {name : String} (h : isIdentifier name = true) : IsLegible (.inVar name)
  | isParam {name : String} (h : isIdentifier name = true) : IsLegible (.isParam name)
  | joined (connector : Connector) {parts : List Filter} (hne : parts ≠ [])
      (hparts : ∀ f ∈ parts, f.IsLegible) : IsLegible (joined connector parts)

/-- Conditions joined by `join?` are legible if the conditions are. -/
theorem IsLegible.of_join? {connector : Connector} {fs : List Filter} {f : Filter}
    (hfs : ∀ g ∈ fs, g.IsLegible) (h : join? connector fs = some f) : f.IsLegible := by
  have hne : fs ≠ [] := by
    rintro rfl
    cases connector <;> cases h
  obtain rfl | rfl | rfl := join?_cases h
  · exact hfs f List.mem_cons_self
  · exact .joined .and hne hfs
  · exact .joined .or hne hfs

mutual

/-- A filter whose groups have several parts and whose arguments are in plain form. -/
def canonical : Filter → Filter
  | .compare op predicate arg => .compare op predicate arg.canonical
  | .and parts => grouped .and (canonicalParts parts)
  | .or parts => grouped .or (canonicalParts parts)
  | f => f

/-- The plain forms of several filters. -/
def canonicalParts : List Filter → List Filter
  | [] => []
  | f :: rest => f.canonical :: canonicalParts rest

end

theorem canonicalParts_eq_map (fs : List Filter) : canonicalParts fs = fs.map canonical := by
  induction fs with
  | nil => rfl
  | cons f fs ih => simp [canonicalParts, ih]

theorem canonical_joined (connector : Connector) (parts : List Filter) :
    (joined connector parts).canonical = grouped connector (parts.map canonical) := by
  cases connector <;> simp [joined, canonical, canonicalParts_eq_map]

/-- The plain form of a filter has its text. -/
theorem IsLegible.chars_canonical {f : Filter} (h : f.IsLegible) :
    f.canonical.chars = f.chars := by
  induction h with
  | compare => simp [canonical, chars, Arg.chars_canonical]
  | joined connector hne hparts ih =>
    rw [canonical_joined, chars_grouped, chars_joined, chars_joined, List.map_map]
    exact congrArg _ (List.map_congr_left ih)
  | _ => rfl

/-- Filters in plain form: calls that can be told from their names and arguments, and groups
of several parts. -/
inductive IsPlain : Filter → Prop
  | call {f : Filter} {name : String} {first : Arg} {others : List Arg}
      (hcall : f.call? = some (name, first :: others)) (hname : IsWord name)
      (hargs : ∀ a ∈ first :: others, a.IsPlain) (hread : ofCall? name (first :: others) = some f) :
      IsPlain f
  | group (connector : Connector) {first second : Filter} {others : List Filter}
      (hparts : ∀ f ∈ first :: second :: others, f.IsPlain) :
      IsPlain (joined connector (first :: second :: others))

/-- The plain form of a filter is plain. -/
theorem IsLegible.isPlain_canonical {f : Filter} (h : f.IsLegible) : f.canonical.IsPlain := by
  induction h with
  | compare op hpredicate harg =>
    have hname := Arg.IsPlain.word (isWord_of_isIdentifier hpredicate)
    refine .call rfl op.isWord_name (by simp [hname, harg.isPlain_canonical]) ?_
    simp [ofCall?, op.find?_name, canonical]
  | has h => exact .call rfl (by decide) (by simp [Arg.IsPlain.word (isWord_of_isIdentifier h)]) rfl
  | ofType name => exact .call rfl (by decide) (by simp [Arg.IsPlain.text]) rfl
  | @inVar name h =>
    -- an identifier does not start with the sign of a variable that comes with the query
    have hsign : ¬ IsIdentifierChar '$' := by decide
    have hhead : name.toList.head? ≠ some '$' := fun hhead =>
      hsign ((isIdentifier_spec h).2 '$' (List.mem_of_mem_head? hhead))
    refine .call rfl (by decide) (by simp [Arg.IsPlain.word (isWord_of_isIdentifier h)]) ?_
    simp [ofCall?, hhead, canonical]
  | @isParam name h =>
    refine .call rfl (by decide) (by simp [Arg.IsPlain.word (Arg.isWord_param h)]) ?_
    simp [ofCall?, canonical]
  | @joined connector parts hne hparts ih =>
    rw [canonical_joined]
    match parts with
    | [] => exact (hne rfl).elim
    | [f] => exact ih f List.mem_cons_self
    | first :: second :: others =>
      refine .group connector fun g hg => ?_
      obtain ⟨f, hf, rfl⟩ := List.mem_map.1 (show g ∈ (first :: second :: others).map canonical
        from hg)
      exact ih f hf

/-- A plain filter ends where it ends. -/
theorem IsPlain.eq_of_append {f g : Filter} (hf : f.IsPlain) (hg : g.IsPlain)
    {rest rest' : List Char} (h : f.chars ++ rest = g.chars ++ rest') : f = g ∧ rest = rest' := by
  induction hf generalizing g rest rest' with
  | call hcall hname hargs hread =>
    rw [chars_of_call? hcall] at h
    cases hg with
    | call hcall' hname' hargs' hread' =>
      rw [chars_of_call? hcall'] at h
      obtain ⟨rfl, heq, hrest⟩ := eq_of_callChars_append hname hname' hargs hargs' h
      rw [heq, hread'] at hread
      exact ⟨(Option.some.inj hread).symm, hrest⟩
    | group =>
      rw [chars_joined_append, callChars, List.append_assoc, List.append_assoc] at h
      exact (hname.append_ne (by decide) _ _ h).elim
  | @group connector first second others hparts ih =>
    rw [chars_joined_append] at h
    cases hg with
    | call hcall' hname' hargs' hread' =>
      rw [chars_of_call? hcall', callChars, List.append_assoc, List.append_assoc] at h
      exact (hname'.append_ne (by decide) _ _ h.symm).elim
    | group connector' hparts' =>
      rw [chars_joined_append] at h
      obtain ⟨rfl, hjoined⟩ := ih first List.mem_cons_self (hparts' _ List.mem_cons_self)
        (List.cons.inj h).2
      have hseparator := hjoined
      simp only [List.map_cons, List.flatMap_cons, List.append_assoc] at hseparator
      obtain rfl := Connector.eq_of_separator_append hseparator
      obtain ⟨hothers, hrest⟩ := eq_of_joined_append (P := (startsApart · = true))
        (startsApart_append_left connector.startsApart_separator) (fun _ => rfl)
        (by cases connector <;> simp [Connector.separator]) (fun a ha b hb _ _ _ _ =>
          ih a (List.mem_cons_of_mem _ ha) (hparts' b (List.mem_cons_of_mem _ hb))) hjoined
      exact ⟨by rw [hothers], hrest⟩

/-- Legible filters have one text exactly if they have one plain form. Every text is read back
from its quoted literal, and every pattern, but for slashes, from what stands between its
slashes. -/
theorem render_eq_iff :
    (∀ f g : Filter, f.IsLegible → g.IsLegible →
      (f.render = g.render ↔ f.canonical = g.canonical)) ∧
    (∀ s : String, Json.parse? (String.ofList (Arg.text s).chars) = some (.string s)) ∧
    ∀ s : String, readPattern? (Arg.pattern s).chars.tail =
      some (s.toList.filter (· != '/'), ['i']) := by
  refine ⟨fun f g hf hg => ⟨fun h => ?_, fun h => ?_⟩, Json.parse?_quote, fun s => ?_⟩
  · have hchars : f.canonical.chars ++ [] = g.canonical.chars ++ [] := by
      rw [hf.chars_canonical, hg.chars_canonical, String.ofList_inj.1 h]
    exact (hf.isPlain_canonical.eq_of_append hg.isPlain_canonical hchars).1
  · rw [render, render, ← hf.chars_canonical, h, hg.chars_canonical]
  · simpa [Arg.chars] using readPattern?_patternChars s.toList []

/-- A text that looks like the rest of a group does not make one, and a group of one part is
written as the part. -/
theorem render_eq_iff_quoted :
    (Filter.compare .eq "name" (.text "x\") OR has(email")).render ≠
      (Filter.or [.compare .eq "name" (.text "x"), .has "email"]).render ∧
    (Filter.and [.has "email"]).render = (Filter.has "email").render := by
  have hname : isIdentifier "name" = true := by decide
  have hhas : (Filter.has "email").IsLegible := .has (by decide)
  have heq (s : String) : (Filter.compare .eq "name" (.text s)).IsLegible :=
    .compare .eq hname (.text s)
  have hor : (Filter.or [.compare .eq "name" (.text "x"), .has "email"]).IsLegible :=
    .joined .or (by simp) (by simp [heq, hhas])
  have hand : (Filter.and [.has "email"]).IsLegible := .joined .and (by simp) (by simp [hhas])
  refine ⟨fun h => ?_, (render_eq_iff.1 _ _ hand hhas).2 rfl⟩
  cases (render_eq_iff.1 _ _ (heq _) hor).1 h

end Filter

end PressRegister
