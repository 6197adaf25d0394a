import PressRegister.Consult

/-!
# What steps that consult a store yield

A step yields a value if it ends with that value and without an error. What a step
is made of can be read off from what it yields, and a step never takes back a
random number that it drew.

## Main definitions

* `Consult.Yields`: a step ends with a value, from one desk to another.
* `Supply.Reaches`: one supply is what another becomes by drawing.
* `Consult.Draws`: all that a step does to the supply is to draw from it.

## Main results

* `Consult.yields_bind`: what two steps in a row yield.
* `Consult.Draws.bind`: two steps in a row draw what each of them draws.
-/

namespace PressRegister

/-! ### Values of computations that may fail -/

section Except

variable {α β : Type}

theorem bind_eq_ok {x : Except Error α} {f : α → Except Error β} {b : β} :
    (x >>= f) = .ok b ↔ ∃ a, x = .ok a ∧ f a = .ok b := by
  cases x with
  | error e => simp [bind, Except.bind]
  | ok a => simp [bind, Except.bind]

theorem map_eq_ok {x : Except Error α} {f : α → β} {b : β} :
    x.map f = .ok b ↔ ∃ a, x = .ok a ∧ b = f a := by
  cases x with
  | error e => simp [Except.map]
  | ok a => simp [Except.map, eq_comm]

theorem pure_eq_ok {a b : α} : (pure a : Except Error α) = .ok b ↔ b = a := by
  simp [pure, Except.pure, eq_comm]

theorem toOption_eq_some {x : Except Error α} {a : α} : x.toOption = some a ↔ x = .ok a := by
  cases x <;> simp [Except.toOption]

/-- Every value of a list of computations is the value of one of them. -/
theorem exists_of_mapM_eq_ok {f : α → Except Error β} {xs : List α} {ys : List β}
    (h : xs.mapM f = .ok ys) {y : β} (hy : y ∈ ys) : ∃ x ∈ xs, f x = .ok y := by
  induction xs generalizing ys with
  | nil =>
    cases h
    cases hy
  | cons x xs ih =>
    rw [List.mapM_cons] at h
    simp only [bind_eq_ok, pure_eq_ok] at h
    obtain ⟨z, hz, zs, hzs, rfl⟩ := h
    rcases List.mem_cons.1 hy with rfl | hy
    · exact ⟨x, List.mem_cons_self, hz⟩
    · obtain ⟨x', hx', hf⟩ := ih hzs hy
      exact ⟨x', List.mem_cons_of_mem _ hx', hf⟩

/-- Computations that can only give the values of a function give its values of a list. -/
theorem eq_map_of_mapM_eq_ok {f : α → Except Error β} {g : α → β} {xs : List α} {ys : List β}
    (hg : ∀ x y, f x = .ok y → y = g x) (h : xs.mapM f = .ok ys) : ys = xs.map g := by
  induction xs generalizing ys with
  | nil => exact pure_eq_ok.1 h
  | cons x xs ih =>
    rw [List.mapM_cons] at h
    simp only [bind_eq_ok, pure_eq_ok] at h
    obtain ⟨y, hy, rest, hrest, rfl⟩ := h
    rw [hg x y hy, ih hrest, List.map_cons]

/-- What steps that may fail preserve, a row of them preserves. -/
theorem foldlM_induction {P : β → Prop} {f : β → α → Except Error β} {xs : List α} {b b' : β}
    (hstep : ∀ b a b', P b → f b a = .ok b' → P b') (hb : P b)
    (h : xs.foldlM f b = .ok b') : P b' := by
  induction xs generalizing b with
  | nil =>
    obtain rfl := pure_eq_ok.1 h
    exact hb
  | cons a rest ih =>
    rw [List.foldlM_cons] at h
    obtain ⟨mid, hmid, hrest⟩ := bind_eq_ok.1 h
    exact ih (hstep b a mid hb hmid) hrest

/-- A check of all items of a list is a check of each. -/
theorem ok_of_forM {f : α → Except Error Unit} {xs : List α} (h : xs.forM f = .ok ()) {a : α}
    (ha : a ∈ xs) : f a = .ok () := by
  induction xs with
  | nil => cases ha
  | cons b rest ih =>
    have h : (f b >>= fun _ => rest.forM f) = .ok () := h
    obtain ⟨⟨⟩, hb, hrest⟩ := bind_eq_ok.1 h
    rcases List.mem_cons.1 ha with rfl | ha
    · exact hb
    · exact ih hrest ha

end Except

/-! ### Supplies -/

/-- A supply is what another one becomes when numbers are drawn from it. -/
def Supply.Reaches (before after : Supply) : Prop :=
  after.number = before.number ∧ before.used ≤ after.used

namespace Supply

theorem Reaches.refl (s : Supply) : s.Reaches s :=
  ⟨rfl, Nat.le_refl _⟩

theorem Reaches.trans {a b c : Supply} (hab : a.Reaches b) (hbc : b.Reaches c) : a.Reaches c :=
  ⟨hbc.1.trans hab.1, Nat.le_trans hab.2 hbc.2⟩

theorem reaches_next (s : Supply) : s.Reaches s.next.2 :=
  ⟨rfl, Nat.le_succ _⟩

end Supply

/-- A desk at which nothing was asked or drawn. -/
def Desk.clean : Desk := ⟨[], .counting⟩

namespace Consult

variable {α β : Type}

/-! ### Values of steps -/

/-- How a step ends: with a value or an error, and at which desk. -/
def outcome (x : Consult α) (before : Desk) : Except Error α × Desk :=
  x.run before

/-- A step ends with a value and without an error. -/
def Yields (x : Consult α) (before : Desk) (a : α) (after : Desk) : Prop :=
  x.outcome before = (.ok a, after)

/-- A step ends in one way. -/
theorem Yields.unique {x : Consult α} {before after after' : Desk} {a a' : α}
    (h : x.Yields before a after) (h' : x.Yields before a' after') : a = a' ∧ after = after' := by
  have heq : (Except.ok a, after) = ((Except.ok a', after') : Except Error α × Desk) :=
    h.symm.trans h'
  obtain ⟨ha, hafter⟩ := Prod.mk.inj heq
  exact ⟨Except.ok.inj ha, hafter⟩

/-- A step whose value passes a test yields such a value. -/
theorem exists_yields {x : Consult α} {before : Desk} {test : α → Bool}
    (h : (x.outcome before).1.toOption.any test = true) :
    ∃ a after, x.Yields before a after ∧ test a = true := by
  unfold Yields
  rcases hx : x.outcome before with ⟨e | a, after⟩
  all_goals rw [hx] at h
  · cases h
  · exact ⟨a, after, rfl, h⟩

theorem outcome_bind (x : Consult α) (f : α → Consult β) (before : Desk) :
    (x >>= f).outcome before = match x.outcome before with
      | (.ok a, mid) => (f a).outcome mid
      | (.error e, mid) => (.error e, mid) := by
  change (ExceptT.bindCont f (x.outcome before).1 : StateM Desk _) (x.outcome before).2 = _
  rcases x.outcome before with ⟨e | a, mid⟩ <;> rfl

variable {before after : Desk} {a b : α}

@[simp] theorem yields_pure :
    (pure a : Consult α).Yields before b after ↔ b = a ∧ after = before := by
  change (Except.ok a, before) = (Except.ok b, after) ↔ _
  rw [Prod.mk.injEq, Except.ok.injEq]
  exact and_congr eq_comm eq_comm

/-- Two steps in a row yield what the second one yields after the first. -/
@[simp] theorem yields_bind {x : Consult α} {f : α → Consult β} {b : β} :
    (x >>= f).Yields before b after ↔
      ∃ a mid, x.Yields before a mid ∧ (f a).Yields mid b after := by
  unfold Yields
  rw [outcome_bind]
  rcases x.outcome before with ⟨e | a, mid⟩
  · simp
  · simp only [Prod.mk.injEq, Except.ok.injEq]
    constructor
    · intro h
      exact ⟨a, mid, ⟨rfl, rfl⟩, h⟩
    · rintro ⟨_, _, ⟨rfl, rfl⟩, h⟩
      exact h

@[simp] theorem yields_map {x : Consult α} {f : α → β} {b : β} :
    (f <$> x).Yields before b after ↔ ∃ a, x.Yields before a after ∧ b = f a := by
  have hmap : (f <$> x) = x >>= fun a => pure (f a) := rfl
  rw [hmap, yields_bind]
  simp only [yields_pure]
  constructor
  · rintro ⟨a, mid, hx, rfl, rfl⟩
    exact ⟨a, hx, rfl⟩
  · rintro ⟨a, hx, rfl⟩
    exact ⟨a, after, hx, rfl, rfl⟩

@[simp] theorem yields_settle {x : Except Error α} :
    (settle x).Yields before a after ↔ x = .ok a ∧ after = before := by
  change (x, before) = (.ok a, after) ↔ _
  rw [Prod.mk.injEq]
  exact and_congr Iff.rfl eq_comm

@[simp] theorem not_yields_fail {e : Error} : ¬ (fail e : Consult α).Yields before a after := by
  simp [fail]

@[simp] theorem yields_draw {f : Supply → α × Supply} :
    (draw f).Yields before a after ↔
      a = (f before.supply).1 ∧ after = { before with supply := (f before.supply).2 } := by
  change (Except.ok (f before.supply).1, { before with supply := (f before.supply).2 }) =
    (.ok a, after) ↔ _
  rw [Prod.mk.injEq, Except.ok.injEq]
  exact and_congr eq_comm eq_comm

@[simp] theorem yields_tryDraw {f : Supply → Except Error (α × Supply)} :
    (tryDraw f).Yields before a after ↔
      ∃ supply, f before.supply = .ok (a, supply) ∧ after = { before with supply } := by
  unfold Yields
  cases hdrawn : f before.supply with
  | error e =>
    have houtcome : (tryDraw f).outcome before = (.error e, before) := by
      change tryDraw f before = _
      simp only [tryDraw, hdrawn]
    rw [houtcome]
    simp
  | ok drawn =>
    obtain ⟨value, supply⟩ := drawn
    have houtcome : (tryDraw f).outcome before = (.ok value, { before with supply }) := by
      change tryDraw f before = _
      simp only [tryDraw, hdrawn]
    rw [houtcome]
    simp only [Prod.mk.injEq, Except.ok.injEq]
    constructor
    · rintro ⟨rfl, rfl⟩
      exact ⟨supply, ⟨rfl, rfl⟩, rfl⟩
    · rintro ⟨_, ⟨rfl, rfl⟩, rfl⟩
      exact ⟨rfl, rfl⟩

@[simp] theorem yields_ask {d : Directory} {q : Question} {answer : Json} :
    (ask d q).Yields before answer after ↔
      d.answer q = .ok answer ∧ after = { before with asked := before.asked ++ [q] } := by
  change (d.answer q, { before with asked := before.asked ++ [q] }) = (.ok answer, after) ↔ _
  rw [Prod.mk.injEq]
  exact and_congr Iff.rfl eq_comm

/-! ### Draws of steps -/

/-- All that a step does to the supply is to draw from it. -/
def Draws (x : Consult α) : Prop :=
  ∀ before a after, x.Yields before a after → before.supply.Reaches after.supply

namespace Draws

theorem pure (a : α) : (pure a : Consult α).Draws := by
  rintro before b after h
  obtain ⟨-, rfl⟩ := yields_pure.1 h
  exact .refl _

theorem bind {x : Consult α} {f : α → Consult β} (hx : x.Draws) (hf : ∀ a, (f a).Draws) :
    (x >>= f).Draws := by
  rintro before b after h
  obtain ⟨a, mid, ha, hb⟩ := yields_bind.1 h
  exact (hx _ _ _ ha).trans (hf a _ _ _ hb)

theorem map {x : Consult α} (f : α → β) (hx : x.Draws) : (f <$> x).Draws := by
  rintro before b after h
  obtain ⟨a, ha, -⟩ := yields_map.1 h
  exact hx _ _ _ ha

theorem settle (x : Except Error α) : (Consult.settle x).Draws := by
  rintro before a after h
  obtain ⟨-, rfl⟩ := yields_settle.1 h
  exact .refl _

theorem fail (e : Error) : (Consult.fail e : Consult α).Draws :=
  settle _

theorem draw {f : Supply → α × Supply} (hf : ∀ s : Supply, s.Reaches (f s).2) :
    (Consult.draw f).Draws := by
  rintro before a after h
  obtain ⟨-, rfl⟩ := yields_draw.1 h
  exact hf _

theorem tryDraw {f : Supply → Except Error (α × Supply)}
    (hf : ∀ s a s', f s = .ok (a, s') → s.Reaches s') : (Consult.tryDraw f).Draws := by
  rintro before a after h
  obtain ⟨supply, hs, rfl⟩ := yields_tryDraw.1 h
  exact hf _ _ _ hs

theorem ask (d : Directory) (q : Question) : (Consult.ask d q).Draws := by
  rintro before a after h
  obtain ⟨-, rfl⟩ := yields_ask.1 h
  exact .refl _

end Draws

end Consult

end PressRegister
