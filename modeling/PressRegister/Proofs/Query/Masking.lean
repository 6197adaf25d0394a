import PressRegister.Proofs.Text.Masking
import PressRegister.Query

/-!
# What stands outside the literals of a query

A query is written with words of its own, the keywords, and with the names and numbers in
it. All other texts in it are written as literals. So the masked text of a query holds
nothing but these words, and it is the masked text of the query without its texts.

## Main definitions

* `keywords`: the words that the writing of queries brings in.
* `Filter.Says`, `Selection.Says`, `Block.Says`, `Query.Says`: all names and numbers in a
  part of a query are words of a vocabulary.
* `Filter.blank`, `Block.blank`, `Query.blank`: a part of a query without its texts.

## Main results

* `Filter.alike_blank`, `Query.alike_blank`: a query is written like the query without its
  texts.
-/

namespace PressRegister

open Text

/-- The words that the writing of queries brings in. -/
def keywords : List String :=
  ["query", "as", "var", "func", "first", "offset", "orderasc", "orderdesc", "@filter",
    "@cascade", "@facets", "count", "has", "type", "uid", "AND", "OR"] ++
  Operator.all.map (·.name)

/-- A vocabulary: words, with all keywords among them. -/
structure IsVocabulary (W : String → Prop) : Prop where
  isWord : ∀ {w}, W w → IsWord w
  keyword : ∀ {w}, w ∈ keywords → W w

/-! ### Names and numbers in a query -/

/-- The names and numbers in an argument are words. -/
def Arg.Says (W : String → Prop) : Arg → Prop
  | .name s | .varRef s | .number s => W s
  | .uid u => W u.text
  | .param s => W ("$" ++ s)
  | .text _ | .pattern _ => True

namespace Filter

mutual

/-- The names and numbers in a filter are words. -/
def Says (W : String → Prop) : Filter → Prop
  | .compare _ predicate arg => W predicate ∧ arg.Says W
  | .has predicate => W predicate
  | .ofType _ => True
  | .inVar name => W name
  | .isParam name => W ("$" ++ name)
  | .and parts | .or parts => AllSay W parts

/-- The names and numbers in several filters are words. -/
def AllSay (W : String → Prop) : List Filter → Prop
  | [] => True
  | f :: rest => f.Says W ∧ AllSay W rest

end

theorem allSay_iff {W : String → Prop} {fs : List Filter} :
    AllSay W fs ↔ ∀ f ∈ fs, f.Says W := by
  induction fs with
  | nil => simp [AllSay]
  | cons f rest ih => simp [AllSay, ih]

theorem says_allOf? {W : String → Prop} {fs : List Filter} {f : Filter}
    (h : allOf? fs = some f) (hall : ∀ g ∈ fs, g.Says W) : f.Says W := by
  unfold allOf? at h
  split at h
  · cases h
  · cases h
    simpa using hall
  · cases h
    exact allSay_iff.2 hall

theorem says_anyOf? {W : String → Prop} {fs : List Filter} {f : Filter}
    (h : anyOf? fs = some f) (hall : ∀ g ∈ fs, g.Says W) : f.Says W := by
  unfold anyOf? at h
  split at h
  · cases h
  · cases h
    simpa using hall
  · cases h
    exact allSay_iff.2 hall

theorem says_join? {W : String → Prop} {connector : Connector} {fs : List Filter} {f : Filter}
    (h : join? connector fs = some f) (hall : ∀ g ∈ fs, g.Says W) : f.Says W := by
  cases connector
  · exact says_allOf? h hall
  · exact says_anyOf? h hall

end Filter

namespace Selection

mutual

/-- The names and numbers in a selection are words. -/
def Says (W : String → Prop) : Selection → Prop
  | .field p | .count p => W p
  | .bind var p => W var ∧ W p
  | .edge p facetFilter facetKeys children =>
    W p ∧ (∀ f ∈ facetFilter, f.Says W) ∧ (∀ k ∈ facetKeys, W k) ∧ AllSay W children

/-- The names and numbers in several selections are words. -/
def AllSay (W : String → Prop) : List Selection → Prop
  | [] => True
  | s :: rest => s.Says W ∧ AllSay W rest

end

theorem allSay_iff {W : String → Prop} {ss : List Selection} :
    AllSay W ss ↔ ∀ s ∈ ss, s.Says W := by
  induction ss with
  | nil => simp [AllSay]
  | cons s rest ih => simp [AllSay, ih]

end Selection

/-- The names and numbers in a block are words. -/
structure Block.Says (W : String → Prop) (b : Block) : Prop where
  name : W b.name
  func : b.func.Says W
  order : ∀ o ∈ b.order, W o.2
  first : ∀ n ∈ b.first, W (Number.natText n)
  offset : ∀ n ∈ b.offset, W (Number.natText n)
  filter : ∀ f ∈ b.filter, f.Says W
  cascade : ∀ fields ∈ b.cascade, ∀ p ∈ fields, W p
  body : ∀ s ∈ b.body, s.Says W

/-- The names and numbers in a query are words. -/
structure Query.Says (W : String → Prop) (q : Query) : Prop where
  name : W q.name
  params : ∀ p ∈ q.params, W ("$" ++ p.1) ∧ W p.2
  blocks : ∀ b ∈ q.blocks, b.Says W

/-! ### Queries without texts -/

/-- An argument without its text. -/
def Arg.blank : Arg → Arg
  | .text _ => .text ""
  | .pattern _ => .pattern ""
  | arg => arg

namespace Filter

mutual

/-- A filter without its texts. -/
def blank : Filter → Filter
  | .compare op predicate arg => .compare op predicate arg.blank
  | .and parts => .and (blanks parts)
  | .or parts => .or (blanks parts)
  | f => f

/-- Several filters without their texts. -/
def blanks : List Filter → List Filter
  | [] => []
  | f :: rest => f.blank :: blanks rest

end

theorem blanks_eq_map (fs : List Filter) : blanks fs = fs.map blank := by
  induction fs with
  | nil => rfl
  | cons f rest ih => simp [blanks, ih]

theorem map_blank_allOf? (fs : List Filter) :
    (allOf? fs).map blank = allOf? (fs.map blank) := by
  match fs with
  | [] => rfl
  | [f] => rfl
  | f :: g :: rest => simp [allOf?, blank, blanks_eq_map]

theorem map_blank_anyOf? (fs : List Filter) :
    (anyOf? fs).map blank = anyOf? (fs.map blank) := by
  match fs with
  | [] => rfl
  | [f] => rfl
  | f :: g :: rest => simp [anyOf?, blank, blanks_eq_map]

theorem map_blank_join? (connector : Connector) (fs : List Filter) :
    (join? connector fs).map blank = join? connector (fs.map blank) := by
  cases connector
  · exact map_blank_allOf? fs
  · exact map_blank_anyOf? fs

end Filter

/-- A block whose filter is without its texts. -/
def Block.blank (b : Block) : Block :=
  { b with filter := b.filter.map Filter.blank }

/-- A query whose blocks have filters without texts. -/
def Query.blank (q : Query) : Query :=
  { q with blocks := q.blocks.map Block.blank }

/-! ### The text of a filter -/

variable {W : String → Prop}

theorem alike_separator {c : Char} (h : closedWords [] [c] = some []) : Alike W [c] [c] :=
  .fixed (by simp) h (by simp)

variable (hW : IsVocabulary W)
include hW

theorem IsVocabulary.openAlike {w : String} (hw : W w) : OpenAlike W w.toList w.toList :=
  .word (hW.isWord hw) hw

theorem IsVocabulary.openAlike_param {name : String} (h : W ("$" ++ name)) :
    OpenAlike W ('$' :: name.toList) ('$' :: name.toList) := by
  have hparam := hW.openAlike h
  rwa [String.toList_append] at hparam

/-- A text made of keywords, with a separator at its end, is like itself. -/
theorem IsVocabulary.fixed {s : String} (ws : List String)
    (h : closedWords [] s.toList = some ws) (hws : ∀ w ∈ ws, w ∈ keywords) :
    Alike W s.toList s.toList :=
  .fixed (by simp) h fun w hw => hW.keyword (hws w hw)

theorem Arg.openAlike_blank {arg : Arg} (h : arg.Says W) :
    OpenAlike W arg.chars arg.blank.chars := by
  cases arg with
  | name s => exact hW.openAlike h
  | number s => exact hW.openAlike h
  | varRef s => exact hW.openAlike h
  | uid u => exact hW.openAlike h
  | param s => exact hW.openAlike_param h
  | text s => exact fun _ _ _ _ hrest => .quoted _ _ hrest
  | pattern s => exact fun _ _ _ _ hrest => .pattern _ _ hrest

namespace Filter

/-- The call of a function is written like the call with other arguments that are alike. -/
theorem alike_callChars {α : Type} {name : String} (hname : W name) {args : List α}
    {f g : α → List Char} (hargs : ∀ a ∈ args, OpenAlike W (f a) (g a)) :
    Alike W (callChars name (args.map f)) (callChars name (args.map g)) := by
  have hcomma : Alike W ", ".toList ", ".toList := hW.fixed [] (by decide) (by simp)
  have hopen : Alike W ['('] ['('] := alike_separator (by decide)
  have hclose : Alike W [')'] [')'] := alike_separator (by decide)
  have hargs := OpenAlike.intercalate hcomma (by decide) hargs
  unfold callChars
  rw [List.append_assoc, List.append_assoc, List.cons_append, List.cons_append]
  exact (hW.openAlike hname).close rfl rfl (hopen.append (hargs.close rfl rfl hclose))

theorem alike_call {name : String} (hname : W name) {as bs : List Char}
    (h : OpenAlike W as bs) : Alike W (callChars name [as]) (callChars name [bs]) :=
  have harg : ∀ a ∈ [(as, bs)], OpenAlike W a.1 a.2 := by simpa using h
  alike_callChars hW hname harg

/-- Parts joined by a keyword are written like other parts that are alike. -/
theorem alike_groupChars (word : String) (ws : List String)
    (h : closedWords [] word.toList = some ws) (hws : ∀ w ∈ ws, w ∈ keywords)
    (hapart : startsApart word.toList = true) {fs : List Filter}
    (hparts : ∀ f ∈ fs, Alike W f.chars f.blank.chars) :
    Alike W (groupChars word (partChars fs)) (groupChars word (partChars (blanks fs))) := by
  rw [partChars_eq_map, blanks_eq_map, partChars_eq_map, List.map_map]
  match fs, hparts with
  | [], _ => exact .nil
  | [f], hparts => exact hparts f List.mem_cons_self
  | f :: g :: rest, hparts =>
    have hopen : Alike W ['('] ['('] := alike_separator (by decide)
    have hclose : Alike W [')'] [')'] := alike_separator (by decide)
    have hjoined := OpenAlike.intercalate (hW.fixed ws h hws) hapart
      fun f hf => .ofAlike (hparts f hf)
    exact hopen.append (hjoined.close rfl rfl hclose)

omit hW

mutual

/-- A filter is written like the filter without its texts. -/
theorem alike_blank (hW : IsVocabulary W) : (f : Filter) → f.Says W →
    Alike W f.chars f.blank.chars
  | .compare op predicate arg, h =>
    have hargs : ∀ a ∈ [(predicate.toList, predicate.toList), (arg.chars, arg.blank.chars)],
        OpenAlike W a.1 a.2 := by
      simp only [List.forall_mem_cons, List.not_mem_nil, false_implies, implies_true, and_true]
      exact ⟨hW.openAlike h.1, Arg.openAlike_blank hW h.2⟩
    alike_callChars hW (hW.keyword (by cases op <;> decide)) hargs
  | .has _, h => alike_call hW (hW.keyword (by decide)) (hW.openAlike h)
  | .ofType _, _ =>
    alike_call hW (hW.keyword (by decide)) fun _ _ _ _ hrest => .quoted _ _ hrest
  | .inVar _, h => alike_call hW (hW.keyword (by decide)) (hW.openAlike h)
  | .isParam _, h => alike_call hW (hW.keyword (by decide)) (hW.openAlike_param h)
  | .and parts, h => alike_groupChars hW " AND " ["AND"] (by decide) (by decide) (by decide)
    (alike_blanks hW parts h)
  | .or parts, h => alike_groupChars hW " OR " ["OR"] (by decide) (by decide) (by decide)
    (alike_blanks hW parts h)

theorem alike_blanks (hW : IsVocabulary W) : (fs : List Filter) → AllSay W fs →
    ∀ f ∈ fs, Alike W f.chars f.blank.chars
  | [], _ => by simp
  | f :: rest, h => List.forall_mem_cons.2 ⟨alike_blank hW f h.1, alike_blanks hW rest h.2⟩

end

end Filter

/-! ### The text of a selection -/

namespace Selection

omit hW

theorem alike_indent (depth : Nat) : Alike W (indent depth) (indent depth) := by
  unfold indent
  induction 2 * depth with
  | zero => exact .nil
  | succ n ih =>
    rw [List.replicate_succ]
    exact .separator (by decide) (by decide) (by decide) ih

theorem startsApart_facetsChars (inner : List Char) :
    startsApart (facetsChars inner) = true := by
  unfold facetsChars
  rw [List.append_assoc]
  exact startsApart_append_left (by decide) _

include hW

theorem alike_facetsChars {as bs : List Char} (h : OpenAlike W as bs) :
    Alike W (facetsChars as) (facetsChars bs) := by
  have hopen := hW.fixed (s := " @facets(") ["@facets"] (by decide) (by decide)
  unfold facetsChars
  rw [List.append_assoc, List.append_assoc]
  exact hopen.append (h.close rfl rfl (alike_separator (by decide)))

theorem openAlike_commaChars {words : List String} (h : ∀ w ∈ words, W w) :
    OpenAlike W (commaChars (words.map (·.toList))) (commaChars (words.map (·.toList))) :=
  .intercalate (hW.fixed [] (by decide) (by simp)) (by decide) fun w hw => hW.openAlike (h w hw)

/-- The condition in the facets of an edge. -/
theorem alike_facetFilter {facetFilter : Option Filter} : (∀ f ∈ facetFilter, f.Says W) →
    let cs := match facetFilter with
      | some f => facetsChars f.chars
      | none => []
    Alike W cs cs ∧ IsApart cs := by
  intro h
  cases facetFilter with
  | none => exact ⟨.nil, .inl rfl⟩
  | some f =>
    exact ⟨alike_facetsChars hW (.ofAlike (Filter.alike_blank hW f (h f rfl)).left),
      .inr (startsApart_facetsChars _)⟩

/-- The names in the facets of an edge. -/
theorem alike_facetKeys {facetKeys : List String} (h : ∀ k ∈ facetKeys, W k) :
    let cs := if facetKeys.isEmpty then []
      else facetsChars (commaChars (facetKeys.map (·.toList)))
    Alike W cs cs ∧ IsApart cs := by
  dsimp only
  split
  · exact ⟨.nil, .inl rfl⟩
  · exact ⟨alike_facetsChars hW (openAlike_commaChars hW h), .inr (startsApart_facetsChars _)⟩

/-- What stands between the braces behind a line, if anything does. -/
theorem alike_body (depth : Nat) {α : Type} (items : List α) {inner : List Char}
    (h : Alike W inner inner) :
    let cs := if items.isEmpty then ['\n']
      else " \x7b\n".toList ++ inner ++ indent depth ++ "\x7d\n".toList
    Alike W cs cs ∧ startsApart cs = true := by
  have hopen := hW.fixed (s := " \x7b\n") [] (by decide) (by decide)
  have hclose := hW.fixed (s := "\x7d\n") [] (by decide) (by decide)
  dsimp only
  split
  · exact ⟨alike_separator (by decide), rfl⟩
  · rw [List.append_assoc, List.append_assoc]
    exact ⟨hopen.append (h.append ((alike_indent depth).append hclose)),
      startsApart_append_left (by decide) _⟩

omit hW

mutual

/-- The lines of a selection are like themselves. -/
theorem alike_chars (hW : IsVocabulary W) : (depth : Nat) → (s : Selection) → s.Says W →
    Alike W (s.chars depth) (s.chars depth)
  | depth, .field p, h => by
    have hp : Alike W (p.toList ++ ['\n']) (p.toList ++ ['\n']) :=
      (hW.openAlike h).close rfl rfl (alike_separator (by decide))
    rw [chars, List.append_assoc]
    exact (alike_indent depth).append hp
  | depth, .count p, h => by
    have hopen := hW.fixed (s := "count(") ["count"] (by decide) (by decide)
    have hclose := hW.fixed (s := ")\n") [] (by decide) (by decide)
    have hp := (hW.openAlike h).close (by decide) (by decide) hclose
    rw [chars, List.append_assoc, List.append_assoc]
    exact (alike_indent depth).append (hopen.append hp)
  | depth, .bind var p, h => by
    have has := hW.fixed (s := " as ") ["as"] (by decide) (by decide)
    have hp : Alike W (p.toList ++ ['\n']) (p.toList ++ ['\n']) :=
      (hW.openAlike h.2).close rfl rfl (alike_separator (by decide))
    have hapart : startsApart (" as ".toList ++ (p.toList ++ ['\n'])) = true :=
      startsApart_append_left (by decide) _
    rw [chars, List.append_assoc, List.append_assoc, List.append_assoc]
    exact (alike_indent depth).append ((hW.openAlike h.1).close hapart hapart (has.append hp))
  | depth, .edge p facetFilter facetKeys children, h => by
    have hchildren := alike_listChars hW (depth + 1) children h.2.2.2
    obtain ⟨hfilter, hfilterApart⟩ := alike_facetFilter hW h.2.1
    obtain ⟨hkeys, hkeysApart⟩ := alike_facetKeys hW h.2.2.1
    obtain ⟨hbody, hbodyApart⟩ := alike_body hW depth children hchildren
    have hrest := startsApart_append hfilterApart (startsApart_append hkeysApart hbodyApart)
    rw [chars.eq_def]
    dsimp only
    rw [List.append_assoc, List.append_assoc, List.append_assoc]
    exact (alike_indent depth).append ((hW.openAlike h.1).close hrest hrest
      (hfilter.append (hkeys.append hbody)))

theorem alike_listChars (hW : IsVocabulary W) : (depth : Nat) → (ss : List Selection) →
    AllSay W ss → Alike W (listChars depth ss) (listChars depth ss)
  | _, [], _ => .nil
  | depth, s :: rest, h =>
    (alike_chars hW depth s h.1).append (alike_listChars hW depth rest h.2)

end

end Selection

/-! ### The text of a block -/

namespace Block

include hW

/-- The order of a block. -/
theorem openAlike_order {order : Option (Order × String)} : (∀ o ∈ order, W o.2) →
    let cs := match order with
      | some (order, p) => ", ".toList ++ order.key.toList ++ ": ".toList ++ p.toList
      | none => []
    OpenAlike W cs cs ∧ IsApart cs := by
  intro h
  match order, h with
  | none, _ => exact ⟨.nil, .inl rfl⟩
  | some (order, p), h =>
    have hcomma := hW.fixed (s := ", ") [] (by decide) (by decide)
    have hcolon := hW.fixed (s := ": ") [] (by decide) (by decide)
    have hkey : W order.key := hW.keyword (by cases order <;> decide)
    have hcolonApart : IsApart (": ".toList ++ p.toList) :=
      .inr (startsApart_append_left (by decide) _)
    dsimp only
    rw [List.append_assoc, List.append_assoc]
    exact ⟨.behind hcomma (.append (hW.openAlike hkey) (.behind hcolon (hW.openAlike (h _ rfl)))
      hcolonApart hcolonApart), .inr (startsApart_append_left (by decide) _)⟩

/-- A number in the head of a block. -/
theorem openAlike_number (s : String) (ws : List String) (hs : closedWords [] s.toList = some ws)
    (hws : ∀ w ∈ ws, w ∈ keywords) (hapart : startsApart s.toList = true) {n : Option Nat} :
    (∀ k ∈ n, W (Number.natText k)) →
    let cs := match n with
      | some n => s.toList ++ Number.natChars n
      | none => []
    OpenAlike W cs cs ∧ IsApart cs := by
  intro h
  cases n with
  | none => exact ⟨.nil, .inl rfl⟩
  | some n =>
    have hn := hW.openAlike (h n rfl)
    rw [Number.natText, String.toList_ofList] at hn
    exact ⟨.behind (hW.fixed ws hs hws) hn, .inr (startsApart_append_left hapart _)⟩

theorem openAlike_headChars {b : Block} (h : b.Says W) :
    OpenAlike W b.headChars b.headChars := by
  have hopen := hW.fixed (s := "func: ") ["func"] (by decide) (by decide)
  have hfunc := (Filter.alike_blank hW b.func h.func).left
  obtain ⟨horder, horderApart⟩ := openAlike_order hW h.order
  obtain ⟨hfirst, hfirstApart⟩ :=
    openAlike_number hW ", first: " ["first"] (by decide) (by decide) (by decide) h.first
  obtain ⟨hoffset, hoffsetApart⟩ :=
    openAlike_number hW ", offset: " ["offset"] (by decide) (by decide) (by decide) h.offset
  unfold headChars
  exact (((OpenAlike.ofAlike (hopen.append hfunc)).append horder horderApart horderApart).append
    hfirst hfirstApart hfirstApart).append hoffset hoffsetApart hoffsetApart

/-- The fields that must be there. -/
theorem openAlike_cascade {cascade : Option (List String)} :
    (∀ fields ∈ cascade, ∀ p ∈ fields, W p) →
    let cs := match cascade with
      | some [] => " @cascade".toList
      | some fields =>
        " @cascade(".toList ++ Selection.commaChars (fields.map (·.toList)) ++ [')']
      | none => []
    OpenAlike W cs cs := by
  intro h
  match cascade, h with
  | none, _ => exact .nil
  | some [], _ =>
    have hblank := hW.fixed (s := " ") [] (by decide) (by decide)
    have hword := hW.openAlike (hW.keyword (w := "@cascade") (by decide))
    exact .behind hblank hword
  | some (p :: rest), h =>
    have hopen := hW.fixed (s := " @cascade(") ["@cascade"] (by decide) (by decide)
    have hfields := Selection.openAlike_commaChars hW (h _ rfl)
    dsimp only
    rw [List.append_assoc]
    exact .ofAlike (hopen.append (hfields.close rfl rfl (alike_separator (by decide))))

/-- The filter of a block. -/
theorem alike_filter {filter : Option Filter} : (∀ f ∈ filter, f.Says W) →
    let chars (filter : Option Filter) : List Char := match filter with
      | some f => " @filter(".toList ++ f.chars ++ [')']
      | none => []
    Alike W (chars filter) (chars (filter.map Filter.blank)) := by
  intro h
  cases filter with
  | none => exact .nil
  | some f =>
    have hopen := hW.fixed (s := " @filter(") ["@filter"] (by decide) (by decide)
    have hf := (Filter.alike_blank hW f (h f rfl)).append (alike_separator (c := ')') (by decide))
    dsimp only [Option.map_some]
    rw [List.append_assoc, List.append_assoc]
    exact hopen.append hf

theorem openAlike_directiveChars {b : Block} (h : b.Says W) :
    OpenAlike W b.directiveChars b.blank.directiveChars := by
  exact .behind (alike_filter hW h.filter) (openAlike_cascade hW h.cascade)

/-- How the name of a block is followed by its head. -/
theorem alike_opening (bindsVar : Bool) :
    let cs := (if bindsVar then " as var(" else "(").toList
    Alike W cs cs ∧ startsApart cs = true := by
  cases bindsVar
  · exact ⟨hW.fixed (s := "(") [] (by decide) (by decide), by decide⟩
  · exact ⟨hW.fixed (s := " as var(") ["as", "var"] (by decide) (by decide), by decide⟩

/-- A block is written like the block without its texts. -/
theorem alike_blank {b : Block} (h : b.Says W) (depth : Nat) :
    Alike W (b.chars depth) (b.blank.chars depth) := by
  obtain ⟨hopening, hopeningApart⟩ := alike_opening hW b.bindsVar
  obtain ⟨hbody, hbodyApart⟩ := Selection.alike_body hW depth b.body
    (Selection.alike_listChars hW (depth + 1) b.body (Selection.allSay_iff.2 h.body))
  have hhead := openAlike_headChars hW h
  have hclose : Alike W [')'] [')'] := alike_separator (by decide)
  have hrest := hclose.append ((openAlike_directiveChars hW h).close hbodyApart hbodyApart hbody)
  have hname := (hW.openAlike h.name).close hopeningApart hopeningApart hopening
  have hline := ((Selection.alike_indent depth).append hname).append
    (hhead.close rfl rfl hrest)
  unfold chars
  simp only [List.append_assoc, List.cons_append, List.nil_append] at hline ⊢
  exact hline

end Block

/-! ### The text of a query -/

namespace Query

include hW

/-- The variables of a query. -/
theorem alike_params {params : List (String × String)}
    (h : ∀ p ∈ params, W ("$" ++ p.1) ∧ W p.2) :
    let cs := if params.isEmpty then []
      else '(' :: Selection.commaChars (params.map paramChars) ++ [')']
    Alike W cs cs ∧ IsApart cs := by
  have hcolon := hW.fixed (s := ": ") [] (by decide) (by decide)
  have hcomma := hW.fixed (s := ", ") [] (by decide) (by decide)
  have hparam : ∀ p ∈ params, OpenAlike W (paramChars p) (paramChars p) := fun p hp => by
    have hapart : IsApart (": ".toList ++ p.2.toList) :=
      .inr (startsApart_append_left (by decide) _)
    unfold paramChars
    rw [List.append_assoc]
    exact (hW.openAlike_param (h p hp).1).append (.behind hcolon (hW.openAlike (h p hp).2))
      hapart hapart
  have hjoined := OpenAlike.intercalate hcomma (by decide) hparam
  have hopen : Alike W ['('] ['('] := alike_separator (by decide)
  dsimp only
  split
  · exact ⟨.nil, .inl rfl⟩
  · exact ⟨hopen.append (hjoined.close rfl rfl (alike_separator (by decide))), .inr rfl⟩

/-- A query is written like the query without its texts. -/
theorem alike_blank {q : Query} (h : q.Says W) : Alike W q.chars q.blank.chars := by
  have hopen := hW.fixed (s := "query ") ["query"] (by decide) (by decide)
  have hbrace := hW.fixed (s := " \x7b\n") [] (by decide) (by decide)
  have hclose := hW.fixed (s := "\x7d\n") [] (by decide) (by decide)
  obtain ⟨hparams, hparamsApart⟩ := alike_params hW h.params
  have hblocks : Alike W (Block.listChars 1 q.blocks)
      (Block.listChars 1 (q.blocks.map Block.blank)) := by
    have hall := h.blocks
    generalize q.blocks = blocks at hall
    induction blocks with
    | nil => exact .nil
    | cons b rest ih =>
      obtain ⟨hb, hrest⟩ := List.forall_mem_cons.1 hall
      exact (Block.alike_blank hW hb 1).append (ih hrest)
  have hbody := hbrace.append (hblocks.append hclose)
  have hapart (cs : List Char) : startsApart (" \x7b\n".toList ++ cs) = true :=
    startsApart_append_left (by decide) cs
  have htext := hopen.append ((hW.openAlike h.name).close
    (startsApart_append hparamsApart (hapart _)) (startsApart_append hparamsApart (hapart _))
    (hparams.append hbody))
  unfold chars
  simp only [List.append_assoc] at htext ⊢
  exact htext

end Query

end PressRegister
