import Mathlib.Data.UInt
import Mathlib.Tactic

/-!
# Half-words and words in bytes

A memory of bytes holds a half-word or a word with its low byte first. `ofHalfWord` and `ofWord` are
its bytes, and `readHalfWord` and `readWord` read it at a place of a list.
-/

namespace Powerboard.Bytes

/-- The half-word of two bytes. -/
def halfWord (low high : UInt8) : UInt16 := low.toUInt16 + (high.toUInt16 <<< 8)

def ofHalfWord (w : UInt16) : List UInt8 := [w.toUInt8, (w >>> 8).toUInt8]

/-- Half-words, one behind the other. -/
def ofHalfWords (ws : List UInt16) : List UInt8 := ws.flatMap ofHalfWord

def ofWord (w : UInt32) : List UInt8 :=
  [w.toUInt8, (w >>> 8).toUInt8, (w >>> 16).toUInt8, (w >>> 24).toUInt8]

def readHalfWord (bytes : List UInt8) (i : ℕ) : UInt16 :=
  halfWord (bytes.getD i 0) (bytes.getD (i + 1) 0)

def readWord (bytes : List UInt8) (i : ℕ) : UInt32 :=
  (bytes.getD i 0).toUInt32 + (bytes.getD (i + 1) 0).toUInt32 <<< 8 +
    (bytes.getD (i + 2) 0).toUInt32 <<< 16 + (bytes.getD (i + 3) 0).toUInt32 <<< 24

/-! ## Half-words -/

theorem toNat_halfWord (low high : UInt8) :
    (halfWord low high).toNat = low.toNat + 256 * high.toNat := by
  have hlow := low.toNat_lt
  have hhigh := high.toNat_lt
  have hshift : (8 : UInt16).toNat % 16 = 8 := by decide
  simp only [halfWord, UInt16.toNat_add, UInt16.toNat_shiftLeft, UInt8.toNat_toUInt16,
    Nat.shiftLeft_eq, hshift]
  omega

theorem halfWord_low (low high : UInt8) : (halfWord low high).toUInt8 = low := by
  apply UInt8.toNat_inj.mp
  have hlow := low.toNat_lt
  rw [UInt16.toNat_toUInt8, toNat_halfWord]
  omega

theorem halfWord_high (low high : UInt8) : (halfWord low high >>> 8).toUInt8 = high := by
  apply UInt8.toNat_inj.mp
  have hlow := low.toNat_lt
  have hhigh := high.toNat_lt
  have hshift : (8 : UInt16).toNat % 16 = 8 := by decide
  rw [UInt16.toNat_toUInt8, UInt16.toNat_shiftRight, toNat_halfWord, hshift,
    Nat.shiftRight_eq_div_pow]
  omega

theorem halfWord_bytes (w : UInt16) : halfWord w.toUInt8 (w >>> 8).toUInt8 = w := by
  apply UInt16.toNat_inj.mp
  have hlt := w.toNat_lt
  have hshift : (8 : UInt16).toNat % 16 = 8 := by decide
  rw [toNat_halfWord, UInt16.toNat_toUInt8, UInt16.toNat_toUInt8, UInt16.toNat_shiftRight, hshift,
    Nat.shiftRight_eq_div_pow]
  omega

theorem readHalfWord_ofHalfWord (w : UInt16) (rest : List UInt8) :
    readHalfWord (ofHalfWord w ++ rest) 0 = w := halfWord_bytes w

theorem readHalfWord_ofHalfWords (ws : List UInt16) (i : ℕ) :
    readHalfWord (ofHalfWords ws) (2 * i) = ws.getD i 0 := by
  induction ws generalizing i with
  | nil => rfl
  | cons w ws ih =>
    cases i with
    | zero => exact readHalfWord_ofHalfWord w _
    | succ i =>
      rw [List.getD_cons_succ, ← ih i]
      rfl

/-! ## Words -/

/-- The word in front of these bytes. -/
theorem readWord_append (before : List UInt8) (w : UInt32) (rest : List UInt8) :
    readWord (before ++ (ofWord w ++ rest)) before.length = w := by
  have hbyte : ∀ k (hk : k < 4),
      (before ++ (ofWord w ++ rest)).getD (before.length + k) 0 = (ofWord w).getD k 0 := by
    intro k hk
    have hk' : k < (ofWord w).length := hk
    rw [List.getD_eq_getElem?_getD, List.getElem?_append_right (Nat.le_add_right _ _),
      Nat.add_sub_cancel_left, List.getElem?_append_left hk', List.getD_eq_getElem?_getD]
  have h0 := hbyte 0 (by omega)
  rw [Nat.add_zero] at h0
  rw [readWord, h0, hbyte 1 (by omega), hbyte 2 (by omega), hbyte 3 (by omega)]
  have hlt := w.toNat_lt
  apply UInt32.toNat_inj.mp
  simp only [ofWord, List.getD_cons_zero, List.getD_cons_succ, UInt32.toNat_add,
    UInt32.toNat_shiftLeft, UInt32.toNat_shiftRight, UInt8.toNat_toUInt32, UInt32.toNat_toUInt8,
    UInt32.reduceToNat, Nat.reduceMod, Nat.reducePow, Nat.shiftLeft_eq, Nat.shiftRight_eq_div_pow]
  omega

@[simp] theorem readWord_ofWord (w : UInt32) : readWord (ofWord w) 0 = w := by
  have h := readWord_append [] w []
  rwa [List.nil_append, List.append_nil] at h

end Powerboard.Bytes
