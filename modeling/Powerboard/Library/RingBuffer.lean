import Mathlib.Data.List.Basic
import Mathlib.Tactic

/-!
# Ring buffers

A ring of capacity `cap` is an array with a front index and a size; entry `j` of the queue it holds
is at the index `(front + j) % cap`. `window` is this queue as a list. Writing behind the last entry
appends to it, advancing the front removes its head.
-/

namespace Powerboard.RingBuffer

variable {α : Type} {cap : ℕ}

/-- The entries of the ring, oldest first. -/
def window (cap : ℕ) (buf : ℕ → α) (front size : ℕ) : List α :=
  (List.range size).map fun j => buf ((front + j) % cap)

@[simp] theorem window_zero (buf : ℕ → α) (front : ℕ) : window cap buf front 0 = [] := rfl

@[simp] theorem length_window (buf : ℕ → α) (front size : ℕ) :
    (window cap buf front size).length = size := by
  simp [window]

/-- Entry `j` of the queue. -/
theorem getElem?_window (buf : ℕ → α) (front : ℕ) {j size : ℕ} (hj : j < size) :
    (window cap buf front size)[j]? = some (buf ((front + j) % cap)) := by
  simp [window, hj]

/-- Two places of a ring that is not full are different. -/
theorem place_ne (front : ℕ) {j size : ℕ} (hj : j < size) (hsize : size < cap) :
    (front + j) % cap ≠ (front + size) % cap := by
  intro h
  have hmod : j ≡ size [MOD cap] := Nat.ModEq.add_left_cancel' front h
  have heq := Nat.ModEq.eq_of_lt_of_lt hmod (hj.trans hsize) hsize
  omega

/-- Writing behind the last entry of a ring that is not full appends to the queue. -/
theorem window_push (buf : ℕ → α) (front size : ℕ) (x : α) (hsize : size < cap) :
    window cap (Function.update buf ((front + size) % cap) x) front (size + 1) =
      window cap buf front size ++ [x] := by
  unfold window
  rw [List.range_succ, List.map_append, List.map_singleton, Function.update_self]
  congr 1
  apply List.map_congr_left
  intro j hj
  exact Function.update_of_ne (place_ne front (List.mem_range.mp hj) hsize) x buf

/-- The head of the queue is at the front index, and advancing the index removes it. -/
theorem window_pop (buf : ℕ → α) (front size : ℕ) :
    window cap buf front (size + 1) =
      buf (front % cap) :: window cap buf ((front + 1) % cap) size := by
  unfold window
  rw [List.range_succ_eq_map, List.map_cons, List.map_map, Nat.add_zero]
  congr 1
  apply List.map_congr_left
  intro j _
  show buf ((front + (j + 1)) % cap) = buf (((front + 1) % cap + j) % cap)
  rw [Nat.mod_add_mod, Nat.add_assoc, Nat.add_comm 1 j]

/-- A front index behind the end of the array is one at its beginning. -/
theorem window_mod (buf : ℕ → α) (front size : ℕ) :
    window cap buf (front % cap) size = window cap buf front size := by
  unfold window
  simp only [Nat.mod_add_mod]

/-- The tail index is the front index when the ring is empty or full, and only then. -/
theorem tail_eq_front_iff {front size : ℕ} (hfront : front < cap) (hsize : size ≤ cap) :
    (front + size) % cap = front ↔ size = 0 ∨ size = cap := by
  constructor
  · intro h
    by_contra hne
    have hpos : 0 < size := by omega
    apply place_ne front hpos (show size < cap by omega)
    rw [h, Nat.add_zero, Nat.mod_eq_of_lt hfront]
  · rintro (rfl | rfl)
    · rw [Nat.add_zero, Nat.mod_eq_of_lt hfront]
    · rw [Nat.add_mod_right, Nat.mod_eq_of_lt hfront]

end Powerboard.RingBuffer
