import Mathlib.Data.UInt
import Mathlib.Logic.Function.Basic
import Mathlib.Tactic

/-!
# Byte memory

A memory of bytes, little-endian words in it, and what a write leaves alone. Addresses are integers,
so that the bytes before the null pointer have one.
-/

namespace Powerboard.Memory

abbrev Mem := ℤ → UInt8

/-- The `n` bytes from `a` on. -/
def bytes (m : Mem) (a : ℤ) (n : ℕ) : List UInt8 := (List.range n).map fun k : ℕ => m (a + k)

/-- The memories have the same bytes everywhere but in the `n` bytes from `a` on. -/
def SameOutside (a : ℤ) (n : ℕ) (m m' : Mem) : Prop := ∀ x, x < a ∨ a + n ≤ x → m' x = m x

/-- A little-endian word of 4 bytes -/
def word (m : Mem) (a : ℤ) : UInt32 :=
  UInt32.ofNat ((m a).toNat + (m (a + 1)).toNat * 256 + (m (a + 2)).toNat * 65536 +
    (m (a + 3)).toNat * 16777216)

def write (m : Mem) (a : ℤ) (v : UInt8) : Mem := Function.update m a v

def writeWord (m : Mem) (a : ℤ) (v : UInt32) : Mem :=
  let m := write m a (UInt8.ofNat (v.toNat % 256))
  let m := write m (a + 1) (UInt8.ofNat (v.toNat / 256 % 256))
  let m := write m (a + 2) (UInt8.ofNat (v.toNat / 65536 % 256))
  write m (a + 3) (UInt8.ofNat (v.toNat / 16777216 % 256))

@[simp] theorem write_self (m : Mem) (a : ℤ) (v : UInt8) : write m a v a = v := by
  rw [write, Function.update_self]

theorem write_of_ne {a x : ℤ} (h : x ≠ a) (m : Mem) (v : UInt8) : write m a v x = m x := by
  rw [write, Function.update_of_ne h]

theorem bytes_congr {m m' : Mem} {a : ℤ} {n : ℕ} (h : ∀ k : ℕ, k < n → m' (a + k) = m (a + k)) :
    bytes m' a n = bytes m a n :=
  List.map_congr_left fun k hk => h k (List.mem_range.mp hk)

theorem word_congr {m m' : Mem} {a : ℤ} (h : ∀ x, a ≤ x → x < a + 4 → m' x = m x) :
    word m' a = word m a := by
  simp only [word]
  rw [h a (by omega) (by omega), h (a + 1) (by omega) (by omega), h (a + 2) (by omega) (by omega),
    h (a + 3) (by omega) (by omega)]

/-- The word that was written is read. -/
theorem word_writeWord (m : Mem) (a : ℤ) (v : UInt32) : word (writeWord m a v) a = v := by
  have hne : ∀ i j : ℤ, i ≠ j → a + i ≠ a + j := fun i j h => by omega
  have h0 : writeWord m a v a = UInt8.ofNat (v.toNat % 256) := by
    simp only [writeWord]
    rw [write_of_ne (by omega), write_of_ne (by omega), write_of_ne (by omega), write_self]
  have h1 : writeWord m a v (a + 1) = UInt8.ofNat (v.toNat / 256 % 256) := by
    simp only [writeWord]
    rw [write_of_ne (by omega), write_of_ne (by omega), write_self]
  have h2 : writeWord m a v (a + 2) = UInt8.ofNat (v.toNat / 65536 % 256) := by
    simp only [writeWord]
    rw [write_of_ne (by omega), write_self]
  have h3 : writeWord m a v (a + 3) = UInt8.ofNat (v.toNat / 16777216 % 256) := by
    simp only [writeWord]
    rw [write_self]
  have hv := v.toNat_lt
  apply UInt32.toNat_inj.mp
  simp only [word, h0, h1, h2, h3, UInt8.toNat_ofNat', UInt32.toNat_ofNat']
  omega

/-! ## What stays the same -/

theorem sameOutside_refl (a : ℤ) (n : ℕ) (m : Mem) : SameOutside a n m m := fun _ _ => rfl

theorem SameOutside.trans {a : ℤ} {n : ℕ} {m m' m'' : Mem} (h : SameOutside a n m m')
    (h' : SameOutside a n m' m'') : SameOutside a n m m'' :=
  fun x hx => (h' x hx).trans (h x hx)

theorem SameOutside.mono {a b : ℤ} {n k : ℕ} {m m' : Mem} (h : SameOutside a n m m')
    (hb : b ≤ a) (hk : a + n ≤ b + k) : SameOutside b k m m' :=
  fun x hx => h x (by omega)

theorem sameOutside_write {a x : ℤ} {n : ℕ} (hx : a ≤ x) (hxn : x < a + n) (m : Mem) (v : UInt8) :
    SameOutside a n m (write m x v) :=
  fun y hy => write_of_ne (by omega) m v

theorem sameOutside_writeWord {a x : ℤ} {n : ℕ} (hx : a ≤ x) (hxn : x + 4 ≤ a + n) (m : Mem)
    (v : UInt32) : SameOutside a n m (writeWord m x v) := by
  intro y hy
  simp only [writeWord]
  rw [write_of_ne (by omega), write_of_ne (by omega), write_of_ne (by omega),
    write_of_ne (by omega)]

/-- Bytes beside those that were written. -/
theorem SameOutside.bytes_eq {a b : ℤ} {n k : ℕ} {m m' : Mem} (h : SameOutside a n m m')
    (hb : b + k ≤ a ∨ a + n ≤ b) : bytes m' b k = bytes m b k :=
  bytes_congr fun i hi => h (b + i) (by omega)

theorem SameOutside.word_eq {a b : ℤ} {n : ℕ} {m m' : Mem} (h : SameOutside a n m m')
    (hb : b + 4 ≤ a ∨ a + n ≤ b) : word m' b = word m b :=
  word_congr fun x _ _ => h x (by omega)

end Powerboard.Memory
