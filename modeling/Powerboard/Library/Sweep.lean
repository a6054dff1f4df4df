import Mathlib.Tactic

/-!
# Sweeps over an array of slots

A loop visits the slots of an array in order, and the body for one slot may write any slot: those
the loop has visited, the one it is at, and those it has still to visit. What a slot satisfies
depends on which of the three it is. `Each`, `Between` and `At` say this before and after the loop,
at its head, and in its body; the rules below are what a write, the entry into the body, the way back
to the head and the end of the loop do to them.
-/

namespace Powerboard.Sweep

variable {α : Type} {n i j : ℕ} {v : Vector α n} {x : α}
  {P Q done done' here here' todo todo' : α → Prop}

/-- Every slot satisfies `P`. -/
def Each (P : α → Prop) (v : Vector α n) : Prop := ∀ j (hj : j < n), P v[j]

/-- The loop is at its head, with slot `i` next. -/
structure Between (done todo : α → Prop) (i : ℕ) (v : Vector α n) : Prop where
  before : ∀ j (hj : j < n), j < i → done v[j]
  behind : ∀ j (hj : j < n), i ≤ j → todo v[j]

/-- The loop is in its body, for slot `i`. -/
structure At (done here todo : α → Prop) (i : ℕ) (v : Vector α n) : Prop where
  before : ∀ j (hj : j < n), j < i → done v[j]
  current : ∀ hi : i < n, here v[i]
  behind : ∀ j (hj : j < n), i < j → todo v[j]

/-! ## All slots -/

lemma Each.mono (h : Each P v) (hPQ : ∀ x, P x → Q x) : Each Q v := fun j hj => hPQ _ (h j hj)

lemma each_setIfInBounds (h : Each P v) (hx : P x) : Each P (v.setIfInBounds i x) := by
  intro j hj
  rw [Vector.getElem_setIfInBounds]
  split
  · exact hx
  · exact h j hj

lemma each_replicate (hx : P x) : Each P (Vector.replicate n x) := by
  intro j hj
  rwa [Vector.getElem_replicate]

/-! ## The head of the loop -/

/-- The loop starts. -/
lemma Each.start (h : Each todo v) : Between done todo 0 v where
  before _ _ hlt := absurd hlt (Nat.not_lt_zero _)
  behind j hj _ := h j hj

/-- The loop has come to the end. -/
lemma Between.finish (h : Between done todo i v) (hi : n ≤ i) : Each done v :=
  fun j hj => h.before j hj (by omega)

/-- There is nothing to do for slot `i`. -/
lemma Between.skip (h : Between done todo i v) (hi : i < n) (hdone : done v[i]) :
    Between done todo (i + 1) v where
  before j hj hlt := by
    rcases Nat.lt_succ_iff_lt_or_eq.mp hlt with hlt | rfl
    · exact h.before j hj hlt
    · exact hdone
  behind j hj hle := h.behind j hj (by omega)

/-- The body begins with a write to slot `i`. -/
lemma Between.enter (h : Between done todo i v) (hx : here x) :
    At done here todo i (v.setIfInBounds i x) where
  before j hj hlt := by
    rw [Vector.getElem_setIfInBounds_ne hj (by omega)]
    exact h.before j hj hlt
  current hi := by rwa [Vector.getElem_setIfInBounds_self hi]
  behind j hj hlt := by
    rw [Vector.getElem_setIfInBounds_ne hj (by omega)]
    exact h.behind j hj hlt.le

/-! ## The body of the loop -/

/-- A write to any slot, by the body. -/
lemma At.setIfInBounds (h : At done here todo i v) (hdone : j < i → done x) (hhere : j = i → here x)
    (htodo : i < j → todo x) : At done here todo i (v.setIfInBounds j x) where
  before k hk hlt := by
    rw [Vector.getElem_setIfInBounds]
    split
    · exact hdone (by omega)
    · exact h.before k hk hlt
  current hi := by
    rw [Vector.getElem_setIfInBounds]
    split
    · next heq => exact hhere heq
    · exact h.current hi
  behind k hk hlt := by
    rw [Vector.getElem_setIfInBounds]
    split
    · exact htodo (by omega)
    · exact h.behind k hk hlt

/-- The body ends, and what is known of the slots changes with it. -/
lemma At.leave (h : At done here todo i v) (hi : i < n) (hdone : ∀ x, done x → done' x)
    (hhere : here v[i] → done' v[i]) : Between done' todo (i + 1) v where
  before j hj hlt := by
    rcases Nat.lt_succ_iff_lt_or_eq.mp hlt with hlt | rfl
    · exact hdone _ (h.before j hj hlt)
    · exact hhere (h.current hi)
  behind j hj hle := h.behind j hj (by omega)

end Powerboard.Sweep
