import Powerboard.Configuration.SaveTheorems

/-!
# Saving the configuration and losing the power

A power loss during a save leaves every variable with its stored, its new or its default value exactly
when it does not come between the record of a variable and the end of its data: there the record
already points to data that is not yet written.
-/

namespace Powerboard.Configuration

open Bytes Flash

variable {t : ConfigTable} {ram : Ram} {page : Page} {d : ConfigVariableDescriptor} {i k : ℕ}
  {saves : List Ram}

/-! ## Power losses -/

/-- Before the first operation nothing is changed. -/
lemma pageAfterCrash_zero : pageAfterCrash t saves ram 0 = pageAfter t saves := rfl

lemma pageAfterCrash_succ (h : configNeedsUpdate t (pageAfter t saves) ram = true) :
    pageAfterCrash t saves ram (k + 1) = crashedPage t ram (pageAfter t saves) k := by
  unfold pageAfterCrash crashedPage
  rw [configUpdateToFlash_of_needsUpdate h]

lemma pageAfterCrash_of_not_needsUpdate
    (h : configNeedsUpdate t (pageAfter t saves) ram = false) :
    pageAfterCrash t saves ram k = pageAfter t saves := by
  unfold pageAfterCrash configUpdateToFlash
  rw [h]
  simp [run]

lemma survivesCrash_iff : SurvivesCrash t saves ram k ↔ ∀ i d, t.descriptors[i]? = some d →
    Expected saves ram i d (t.readVariable (pageAfterCrash t saves ram k) i d) := by
  constructor
  · intro h i d hd
    obtain ⟨value, hvalue, hexpected⟩ := h i d hd
    rw [configReadFromFlash_getElem? _ hd, Option.some.injEq] at hvalue
    exact hvalue ▸ hexpected
  · intro h i d hd
    exact ⟨_, configReadFromFlash_getElem? _ hd, h i d hd⟩

/-- A power loss leaves every variable with its stored, its new or its default value exactly when it
does not come between the record of a variable and the end of its data, or what is there of the data
happens to be such a value. -/
theorem survivesCrash_iff_crashOutsideData (t : ConfigTable) (saves : List Ram) (ram : Ram) (k : ℕ) :
    SurvivesCrash t saves ram k ↔ CrashOutsideData t saves ram k := by
  rw [survivesCrash_iff]
  cases hneeds : configNeedsUpdate t (pageAfter t saves) ram with
  -- without an update the power loss does not come during a write
  | false =>
    constructor
    · intro _ htrue
      rw [hneeds] at htrue
      cases htrue
    · intro _ i d hd
      rw [pageAfterCrash_of_not_needsUpdate hneeds, readVariable_pageAfter saves hd]
      exact Or.inl rfl
  | true =>
    cases k with
    | zero =>
      constructor
      · intro _ _ i d n _ _ hk
        omega
      · intro _ i d hd
        rw [pageAfterCrash_zero, readVariable_pageAfter saves hd]
        exact Or.inl rfl
    | succ k =>
      rw [pageAfterCrash_succ hneeds]
      constructor
      · intro h _ i d n hd hn hk
        have hread := h i d hd
        rw [readVariable_after_crash hd, if_pos (by omega)] at hread
        rwa [show k - (recordOffset t i + sizeofRecord / 2) = n by omega] at hread
      · -- `k` half-words are written; what is behind the record of `i` is its data
        intro h i d hd
        rw [readVariable_after_crash hd]
        split
        · rename_i hrecord
          by_cases hn : k - (recordOffset t i + sizeofRecord / 2) < d.actualLen / 2
          · exact h hneeds i d _ hd hn (by omega)
          · rw [tornValue_of_complete d _ (Nat.le_of_not_lt hn)]
            exact Or.inr (Or.inl rfl)
        · exact Or.inr (Or.inr rfl)

/-! ## The power board -/

/-- `g_lowThresh` and `g_highThresh` of `powerCheck.c` at some place of the RAM, with descriptors at
some place of the program. -/
def powerboardTable : ConfigTable where
  descriptors := [voltageDescriptor 0x20000400 970, voltageDescriptor 0x20000404 1200]
  applicationConfigDescriptorsBegin := 0x08004000
  begin_pos := by decide
  end_le := by decide
  fits := by decide

/-- The two thresholds in the RAM. -/
def thresholds (low high : UInt32) : Ram := fun i k =>
  ((ofWord (if i = 0 then low else high))[k]?).getD 0

/-- A power loss in the first save, behind the record of `g_lowThresh`: the threshold is read as
0xffffffff. -/
theorem crash_behind_record :
    configReadFromFlash powerboardTable
        (pageAfterCrash powerboardTable [] (thresholds 1000 1300) 5) =
      [ofWord 0xffffffff, ofWord 1200] ∧
    ¬ SurvivesCrash powerboardTable [] (thresholds 1000 1300) 5 := by
  have hread : configReadFromFlash powerboardTable
      (pageAfterCrash powerboardTable [] (thresholds 1000 1300) 5) =
        [ofWord 0xffffffff, ofWord 1200] := by decide +kernel
  refine ⟨hread, fun h => ?_⟩
  obtain ⟨value, hvalue, hexpected⟩ := h 0 (voltageDescriptor 0x20000400 970) rfl
  rw [hread] at hvalue
  obtain rfl := Option.some.inj hvalue
  revert hexpected
  unfold Expected
  decide +kernel

end Powerboard.Configuration
