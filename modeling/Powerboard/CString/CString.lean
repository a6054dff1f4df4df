import Powerboard.Library.Memory

/-!
# The string functions

`string.c`: filling and copying, which the firmware brings itself. A pointer is an address.
-/

namespace Powerboard.CString

open Memory

/-- `memset` -/
def memset (mem : Mem) (dst : ℤ) (val : UInt8) (len : ℕ) : Mem :=
  (List.range len).foldl (fun m (i : ℕ) => write m (dst + i) val) mem

/-- `memcpy`, byte by byte and forward -/
def memcpy (mem : Mem) (dst src : ℤ) (count : ℕ) : Mem :=
  (List.range count).foldl (fun m (i : ℕ) => write m (dst + i) (m (src + i))) mem

/-! ## Filling and copying -/

theorem memset_succ (mem : Mem) (dst : ℤ) (val : UInt8) (len : ℕ) :
    memset mem dst val (len + 1) = write (memset mem dst val len) (dst + len) val := by
  simp only [memset, List.range_succ, List.foldl_append, List.foldl_cons, List.foldl_nil]

theorem memcpy_succ (mem : Mem) (dst src : ℤ) (count : ℕ) :
    memcpy mem dst src (count + 1) =
      write (memcpy mem dst src count) (dst + count) (memcpy mem dst src count (src + count)) := by
  simp only [memcpy, List.range_succ, List.foldl_append, List.foldl_cons, List.foldl_nil]

theorem sameOutside_memset (mem : Mem) (dst : ℤ) (val : UInt8) (len : ℕ) :
    SameOutside dst len mem (memset mem dst val len) := by
  induction len with
  | zero => exact sameOutside_refl dst 0 mem
  | succ len ih =>
    rw [memset_succ]
    exact (ih.mono le_rfl (by push_cast; omega)).trans
      (sameOutside_write (by omega) (by push_cast; omega) _ _)

theorem memset_apply {mem : Mem} {dst : ℤ} {val : UInt8} {len k : ℕ} (h : k < len) :
    memset mem dst val len (dst + k) = val := by
  induction len with
  | zero => omega
  | succ len ih =>
    rw [memset_succ]
    by_cases hk : k = len
    · rw [hk, write_self]
    · rw [write_of_ne (by omega)]
      exact ih (by omega)

theorem sameOutside_memcpy (mem : Mem) (dst src : ℤ) (count : ℕ) :
    SameOutside dst count mem (memcpy mem dst src count) := by
  induction count with
  | zero => exact sameOutside_refl dst 0 mem
  | succ count ih =>
    rw [memcpy_succ]
    exact (ih.mono le_rfl (by push_cast; omega)).trans
      (sameOutside_write (by omega) (by push_cast; omega) _ _)

/-- The byte of the source that comes to place `k`: where the destination begins `n` bytes behind
the source, within what is copied, the first `n` bytes come again and again. -/
def sourceIndex (dst src : ℤ) (k : ℕ) : ℕ :=
  if src < dst then k % (dst - src).toNat else k

/-- Every byte that is copied, for sources and destinations that may overlap. -/
theorem memcpy_apply (mem : Mem) (dst src : ℤ) {count k : ℕ} (h : k < count) :
    memcpy mem dst src count (dst + k) = mem (src + sourceIndex dst src k) := by
  induction count generalizing k with
  | zero => omega
  | succ count ih =>
    rw [memcpy_succ]
    by_cases hk : k = count
    · subst hk
      rw [write_self]
      by_cases hlt : src < dst
      · -- the source byte is one of the source, or one that was copied before
        obtain ⟨n, hn⟩ : ∃ n : ℕ, dst = src + n := ⟨(dst - src).toNat, by omega⟩
        have hsub : (dst - src).toNat = n := by omega
        simp only [sourceIndex, hlt, if_true, hsub]
        by_cases hkn : k < n
        · rw [Nat.mod_eq_of_lt hkn, sameOutside_memcpy mem dst src k (src + k) (by omega)]
        · have hprev := ih (k := k - n) (by omega)
          have hplace : dst + ((k - n : ℕ) : ℤ) = src + k := by omega
          have hmod : k % n = (k - n) % n := Nat.mod_eq_sub_mod (by omega)
          simp only [sourceIndex, hlt, if_true, hsub] at hprev
          rw [← hplace, hprev, hmod]
      · rw [sameOutside_memcpy mem dst src k (src + k) (by omega), sourceIndex, if_neg hlt]
    · rw [write_of_ne (by omega)]
      exact ih (by omega)

/-- Where the destination is in front of the source or beside it, the copy is what the source
was. -/
theorem bytes_memcpy {mem : Mem} {dst src : ℤ} {count : ℕ}
    (h : dst ≤ src ∨ src + count ≤ dst) :
    bytes (memcpy mem dst src count) dst count = bytes mem src count := by
  refine List.map_congr_left fun k hk => ?_
  have hk := List.mem_range.mp hk
  rw [memcpy_apply mem dst src hk]
  by_cases hlt : src < dst
  · rw [sourceIndex, if_pos hlt, Nat.mod_eq_of_lt (by omega)]
  · rw [sourceIndex, if_neg hlt]

end Powerboard.CString
