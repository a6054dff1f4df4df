import Mathlib.Data.List.Basic
import Mathlib.Tactic

/-!
# Every n-th element

What a counter lets through that counts to `n` and begins again, over arbitrary elements.
-/

namespace Powerboard.Sampling

variable {α β : Type} {n : ℕ} {l : List α}

/-- The elements at the places `n`, `2 n`, `3 n` and so on, counted from one. -/
def everyNth (n : ℕ) (l : List α) : List α :=
  (l.zipIdx 1).filterMap fun x => if n ∣ x.2 then some x.1 else none

@[simp] theorem everyNth_nil : everyNth n ([] : List α) = [] := rfl

/-- The next element is let through at a multiple of `n`. -/
theorem everyNth_append_singleton (l : List α) (a : α) :
    everyNth n (l ++ [a]) = everyNth n l ++ if n ∣ l.length + 1 then [a] else [] := by
  unfold everyNth
  rw [List.zipIdx_append, List.filterMap_append, List.zipIdx_singleton, Nat.add_comm 1]
  congr 1
  split <;> rename_i h <;> simp [h]

/-- A counter that stands at what has come since the last one reaches `n` with the next. -/
theorem mod_add_one_eq_iff (hn : 0 < n) (k : ℕ) : k % n + 1 = n ↔ n ∣ k + 1 := by
  obtain ⟨m, rfl⟩ : ∃ m, n = m + 1 := ⟨n - 1, by omega⟩
  rw [Nat.dvd_iff_mod_eq_zero, Nat.succ_mod_succ_eq_zero_iff]
  omega

/-- Else it goes on. -/
theorem add_one_mod_of_not_dvd (hn : 0 < n) {k : ℕ} (h : ¬ n ∣ k + 1) :
    (k + 1) % n = k % n + 1 := by
  have hne := mt (mod_add_one_eq_iff hn k).mp h
  have hlt := Nat.mod_lt k hn
  rw [← Nat.mod_add_mod]
  exact Nat.mod_eq_of_lt (by omega)

end Powerboard.Sampling
