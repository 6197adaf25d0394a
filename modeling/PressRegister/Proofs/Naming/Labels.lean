import PressRegister.Proofs.Text.SlugComposition

/-!
# Labels and the nodes they name

A new node is known by the slug of its label. Slugs are normal forms, so labels with one slug are
labels of one node, whether or not they are marked as the name of a blank node. The text of a node
in statements is such a marked label, and it is read as the node again.

## Main definitions

* `BlankNode.spellings`: a label, with and without the mark of a blank node.

## Main results

* `BlankNode.name_ofLabel`, `BlankNode.ofLabel_of_slug`: the node of a label that leaves a slug is
  named by the slug, and nothing is drawn for it.
* `BlankNode.ofLabel_beq_iff`: labels of one node.
* `BlankNode.slug_normalises`: slugs are normal forms, they compose, and they tell nodes apart.
-/

namespace PressRegister.BlankNode

open Text

variable {x y label : String}

theorem name_ofLabel (h : slug label ≠ "") (supply : Supply) :
    (ofLabel label supply).1.name = slug label :=
  (isLabelled_ofLabel label supply).name_eq ((slug_ofLabel label supply).trans (slug_trim label)) h

/-- The node of a label that leaves a slug does not depend on the supply. -/
theorem ofLabel_of_slug (h : slug label ≠ "") (supply supply' : Supply) :
    ofLabel label supply = ((ofLabel label supply').1, supply) := by
  have hslug : (slugChars (trimChars label.toList)).isEmpty = false := by
    rw [← slug_trim] at h
    simpa [slug, trim] using h
  unfold ofLabel
  simp only [hslug]
  split <;> rfl

/-- Labels that leave slugs are labels of one node exactly if the slugs are equal. -/
theorem ofLabel_beq_iff (hx : slug x ≠ "") (hy : slug y ≠ "") (supply supply' : Supply) :
    ((ofLabel x supply).1 == (ofLabel y supply').1) = true ↔ slug x = slug y := by
  rw [beq_iff_name_eq, name_ofLabel hx, name_ofLabel hy]

/-- A label as it is, and marked as the name of a blank node. -/
def spellings (label : String) : List String :=
  [label, "_:" ++ label]

theorem slug_of_mem_spellings {s : String} (h : s ∈ spellings label) : slug s = slug label := by
  simp only [spellings, List.mem_cons, List.not_mem_nil, or_false] at h
  rcases h with rfl | rfl
  · rfl
  · exact slug_marked label

/-- The slug of a text is empty or made of groups that single underscores join, and it is its own
slug. The slug of two texts with a blank or an underscore between them is made of those of their
slugs of which something is left. Labels that leave slugs are labels of one node exactly if the
slugs are equal, marked or not, and every node is read back from its text without a draw. -/
theorem slug_normalises (x y : String) :
    (slug x = "" ∨ IsGrouped (slug x).toList) ∧ slug (slug x) = slug x ∧
    (∀ c, isBlank c = true ∨ c = '_' → slug (x ++ String.singleton c ++ y) =
      "_".intercalate ([slug x, slug y].filter (· != ""))) ∧
    (slug x ≠ "" → slug y ≠ "" → ∀ s ∈ spellings x, ∀ t ∈ spellings y, ∀ supply supply',
      ((ofLabel s supply).1 == (ofLabel t supply').1) = true ↔ slug x = slug y) ∧
    ∀ supply, ∀ b ∈ [(ofLabel x supply).1, (fresh supply).1], ∀ supply', ∃ again,
      ofLabel b.text supply' = (again, supply') ∧ (again == b) = true := by
  refine ⟨slug_eq_empty_or_isGrouped x, slug_slug x, fun c hc => ?_, fun hx hy s hs t ht => ?_,
    fun supply b hb supply' => ?_⟩
  · have hseparator : IsSeparator c := by
      rcases hc with hblank | rfl
      · exact isSeparator_of_isBlank hblank
      · decide
    exact (slug_separated hseparator x y).trans (ofList_joinSlugs _ _)
  · intro supply supply'
    have hs := slug_of_mem_spellings hs
    have ht := slug_of_mem_spellings ht
    rw [ofLabel_beq_iff (hs ▸ hx) (ht ▸ hy), hs, ht]
  · have hslugged : b.IsSlugged := by
      simp only [List.mem_cons, List.not_mem_nil, or_false] at hb
      rcases hb with rfl | rfl
      · exact isSlugged_ofLabel x supply
      · exact isSlugged_fresh supply
    exact ⟨_, hslugged.ofLabel_text supply', beq_iff_name_eq.2 rfl⟩

/-- Two spellings of one name, with a wide blank between them. -/
theorem slug_normalises_osterreich :
    isBlank '\u2003' = true ∧ slug "Österreich" ≠ "" ∧ slug "_:ÖSTER-REICH!" ≠ "" ∧
      slug "Österreich\u2003_:ÖSTER-REICH!" = "osterreich_oster_reich" ∧
      ((ofLabel "_:Österreich" .counting).1 == (ofLabel "_:ÖSTER-REICH!" .counting).1) = false ∧
      ∃ again, ofLabel (ofLabel "Österreich" .counting).1.text .counting = (again, .counting) ∧
        (again == (ofLabel "Österreich" .counting).1) = true := by
  have hslugs : slug "Österreich" = "osterreich" ∧ slug "_:ÖSTER-REICH!" = "oster_reich" := by
    decide +kernel
  have hx : slug "Österreich" ≠ "" := by
    rw [hslugs.1]
    decide
  have hy : slug "_:ÖSTER-REICH!" ≠ "" := by
    rw [hslugs.2]
    decide
  have hblank : isBlank '\u2003' = true := by decide
  obtain ⟨-, -, hjoined, hsame, hback⟩ := slug_normalises "Österreich" "_:ÖSTER-REICH!"
  refine ⟨hblank, hx, hy, ?_, ?_, hback _ _ List.mem_cons_self _⟩
  · have h := hjoined '\u2003' (.inl hblank)
    rw [hslugs.1, hslugs.2] at h
    exact h
  · have hiff := hsame hx hy "_:Österreich" (by simp [spellings]) _ List.mem_cons_self
      .counting .counting
    rw [Bool.eq_false_iff, ne_eq, hiff, hslugs.1, hslugs.2]
    decide

end PressRegister.BlankNode
