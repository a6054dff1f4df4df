import Powerboard.Configuration.CrashTheorems
import Powerboard.PowerCheck.Limits
import Powerboard.PowerCheck.PowerCheckTheorems
import Powerboard.Protocol.RoundTripTheorems

/-!
# What the thresholds are after power losses

A save is followed by its flash operations: `InUpdate` says how far they are. After a power loss a
threshold is the old one, the new one or its default, unless the record of the threshold is in the
page and its data is not.
-/

namespace Powerboard.PowerCheck

open Bytes Configuration GenericProtocol Machine Measuring

variable {l : Layout} {s u : Board} {a : BoardAction} {page : Page} {ram : Ram} {th : Threshold}

/-! ## Words -/

lemma valueIn_ramOf (l : Layout) (g : Globals) (others : Ram) (th : Threshold) :
    th.descriptor.valueIn (l.ramOf g others (l.index th)) = ofWord (g.threshold th) := by
  cases th with
  | low =>
    simp [ConfigVariableDescriptor.valueIn, Threshold.descriptor, voltageDescriptor,
      Layout.ramOf, ofWord, Globals.threshold, List.range_succ]
  | high =>
    simp [ConfigVariableDescriptor.valueIn, Threshold.descriptor, voltageDescriptor,
      Layout.ramOf, ofWord, Globals.threshold, List.range_succ, l.index_ne.symm]

lemma threshold_thresholdsIn (l : Layout) (ram : Ram) (th : Threshold) :
    (l.thresholdsIn ram).threshold th = l.wordIn ram th := by
  cases th <;> rfl

/-- A start reads what is stored. -/
lemma wordIn_ramAfterRead (l : Layout) (page : Page) (ram : Ram) (th : Threshold) :
    l.wordIn (ramAfterRead l.table page ram) th = l.stored page th := by
  rw [Layout.wordIn, valueIn_ramAfterRead page ram (l.descriptor th), Layout.stored]

lemma stored_erased (l : Layout) (th : Threshold) :
    l.stored (fun _ => erased) th = th.default := by
  rw [Layout.stored, readVariable_erased]
  exact readWord_ofWord _

/-- A completed save stores the value. -/
lemma stored_save (l : Layout) (page : Page) (ram : Ram) (th : Threshold) :
    l.stored (save l.table page ram) th = l.wordIn ram th := by
  rw [Layout.stored, readVariable_save page ram (l.descriptor th), Layout.wordIn]

/-- After a power loss in a save: the default value, or the value as far as it is programmed -/
lemma stored_crashedPage (l : Layout) (ram : Ram) (page : Page) (k : ℕ) (th : Threshold) :
    l.stored (crashedPage l.table ram page k) th =
      if recordOffset l.table (l.index th) + 4 ≤ k then
        readWord (th.descriptor.tornValue (ram (l.index th))
          (k - (recordOffset l.table (l.index th) + 4))) 0
      else th.default := by
  have hrecord : sizeofRecord / 2 = 4 := rfl
  rw [Layout.stored, readVariable_after_crash (l.descriptor th), hrecord]
  by_cases hk : recordOffset l.table (l.index th) + 4 ≤ k
  · rw [if_pos hk, if_pos hk]
  · rw [if_neg hk, if_neg hk]
    exact readWord_ofWord _

/-- The upper half-word is programmed last. Until then the value is far too large. -/
lemma le_readWord_tornValue (th : Threshold) (data : ℕ → UInt8) {n : ℕ} (hn : n < 2) :
    0xffff0000 ≤ (readWord (th.descriptor.tornValue data n) 0).toNat := by
  have hbytes : th.descriptor.tornValue data n =
      [if 0 < n then data 0 else 0xff, if 0 < n then data 1 else 0xff, 0xff, 0xff] := by
    have h1 : ¬ 1 < n := by omega
    simp [ConfigVariableDescriptor.tornValue, ConfigVariableDescriptor.valueIn,
      Threshold.descriptor, voltageDescriptor, List.range_succ, h1]
  rw [hbytes]
  generalize (if 0 < n then data 0 else 0xff) = b0
  generalize (if 0 < n then data 1 else 0xff) = b1
  have h0 := b0.toNat_lt
  have h1 := b1.toNat_lt
  simp only [readWord, List.getD_cons_zero, List.getD_cons_succ, UInt32.toNat_add,
    UInt32.toNat_shiftLeft, UInt8.toNat_toUInt32, UInt32.reduceToNat, UInt8.reduceToNat,
    Nat.reduceMod, Nat.reducePow, Nat.shiftLeft_eq, zero_add]
  omega

/-! ## A save, operation by operation -/

/-- The flash memory is so far in a save of the thresholds that it had `page` before it. -/
def InUpdate (l : Layout) (page : Page) (s : Board) : Prop :=
  ∃ ram k, (∀ th, l.wordIn ram th = s.thresholds.threshold th) ∧
    s.page = Flash.run erased page ((configUpdateToFlash l.table page ram).take k) ∧
    s.updating = (configUpdateToFlash l.table page ram).drop k

lemma inUpdate_update (l : Layout) (s : Board) (g : Globals) :
    InUpdate l s.page (s.update l g) := by
  refine ⟨l.ramOf g s.others, 0, fun th => ?_, rfl, rfl⟩
  rw [Layout.wordIn, valueIn_ramOf]
  exact readWord_ofWord _

/-- The next flash operation -/
lemma InUpdate.flash (h : InUpdate l page s) {operation : Flash.Operation ℕ UInt16}
    {rest : List (Flash.Operation ℕ UInt16)} (hnext : s.updating = operation :: rest) :
    InUpdate l page
      { s with page := Flash.apply erased s.page operation, updating := rest } := by
  obtain ⟨ram, k, hword, hpage, hupdating⟩ := h
  rw [hupdating] at hnext
  have hoperation : (configUpdateToFlash l.table page ram)[k]? = some operation := by
    rw [← List.head?_drop, hnext]
    rfl
  have hrest : (configUpdateToFlash l.table page ram).drop (k + 1) = rest := by
    rw [← List.tail_drop, hnext]
    rfl
  refine ⟨ram, k + 1, hword, ?_, hrest.symm⟩
  rw [List.take_add_one, hoperation, Flash.run, List.foldl_append, hpage]
  rfl

/-- A save is not begun, or its erasure is done and `k` half-words are programmed. -/
lemma InUpdate.page_cases (h : InUpdate l page s) :
    (s.page = page ∧ (s.updating = [] ∨ .erasePage ∈ s.updating)) ∨
    ∃ ram k, (∀ th, l.wordIn ram th = s.thresholds.threshold th) ∧
      s.page = crashedPage l.table ram page k ∧
      s.updating = Flash.programs ((blocks l.table ram).flatten.drop k) := by
  obtain ⟨ram, k, hword, hpage, hupdating⟩ := h
  cases hneeds : configNeedsUpdate l.table page ram with
  | true =>
    rw [configUpdateToFlash_of_needsUpdate hneeds] at hpage hupdating
    cases k with
    | zero => exact .inl ⟨hpage, .inr (by rw [hupdating]; exact List.mem_cons_self)⟩
    | succ k =>
      refine .inr ⟨ram, k, hword, hpage, ?_⟩
      rw [hupdating, List.drop_succ_cons, Flash.programs, Flash.programs, List.map_drop]
  | false =>
    have hnone : configUpdateToFlash l.table page ram = [] := by
      rw [configUpdateToFlash, hneeds]
      rfl
    rw [hnone, List.take_nil] at hpage
    rw [hnone, List.drop_nil] at hupdating
    exact .inl ⟨hpage, .inl hupdating⟩

/-- A completed save stores the thresholds. -/
lemma InUpdate.stored_of_complete (h : InUpdate l page s) (hrest : s.updating = [])
    (th : Threshold) : l.stored s.page th = s.thresholds.threshold th := by
  obtain ⟨ram, k, hword, hpage, hupdating⟩ := h
  rw [hupdating, List.drop_eq_nil_iff] at hrest
  rw [hpage, List.take_of_length_le hrest, ← hword th]
  exact stored_save l page ram th

/-! ## Pending data -/

lemma actualLen_descriptor (th : Threshold) : th.descriptor.actualLen / 2 = 2 := by
  simp [ConfigVariableDescriptor.actualLen, Threshold.descriptor, voltageDescriptor]

/-- A half-word of a threshold is still to be programmed exactly if its place was not reached. -/
lemma exists_program_iff (l : Layout) (ram : Ram) (k : ℕ) (th : Threshold) :
    (∃ j < 2, ∃ v, Flash.Operation.program (dataAddress l.table (l.index th) + 2 * j) v ∈
        Flash.programs ((blocks l.table ram).flatten.drop k)) ↔
      k < recordOffset l.table (l.index th) + 6 := by
  have hcell : ∀ j < 2, (blocks l.table ram).flatten[
      recordOffset l.table (l.index th) + (4 + j)]? =
        some (dataAddress l.table (l.index th) + 2 * j, halfWordAt (ram (l.index th)) j) :=
    fun j hj => cell_of_data (l.descriptor th) (by rwa [actualLen_descriptor])
  constructor
  · rintro ⟨j, hj, v, hmem⟩
    simp only [Flash.programs, List.mem_map, Flash.Operation.program.injEq] at hmem
    obtain ⟨⟨address, w⟩, hcellmem, rfl, -⟩ := hmem
    obtain ⟨m, hm⟩ := List.mem_iff_getElem?.mp hcellmem
    rw [List.getElem?_drop] at hm
    have hplace := Flash.place_unique nodup_blocks hm (hcell j hj)
    omega
  · intro hk
    have hlast := hcell 1 (by omega)
    have hplace : k + (recordOffset l.table (l.index th) + 5 - k) =
        recordOffset l.table (l.index th) + (4 + 1) := by omega
    rw [← hplace, ← List.getElem?_drop] at hlast
    have hmem := List.mem_of_getElem? hlast
    refine ⟨1, by omega, halfWordAt (ram (l.index th)) 1, ?_⟩
    exact List.mem_map_of_mem (f := fun cell : ℕ × UInt16 =>
      Flash.Operation.program cell.1 cell.2) hmem

/-- The data of a threshold is pending between its record and its last half-word. -/
lemma dataPending_iff {k : ℕ} (hpage : s.page = crashedPage l.table ram page k)
    (hupdating : s.updating = Flash.programs ((blocks l.table ram).flatten.drop k))
    (th : Threshold) :
    DataPending l s th ↔ recordOffset l.table (l.index th) + 4 ≤ k ∧
      k < recordOffset l.table (l.index th) + 6 := by
  have hrecord : sizeofRecord / 2 = 4 := rfl
  have herased : .erasePage ∉ s.updating := by
    rw [hupdating]
    exact Flash.erasePage_not_mem_programs _
  rw [← exists_program_iff l ram k th, DataPending, hpage,
    getRecordDataPtr_after_crash (l.descriptor th), hrecord, ← hupdating]
  by_cases hk : recordOffset l.table (l.index th) + 4 ≤ k
  · simp [herased, hk]
  · simp [hk]

/-- Unless its data is pending, a threshold is stored as before the save, by its default, or anew. -/
lemma InUpdate.stored_cases (h : InUpdate l page s) (hdata : ¬ DataPending l s th) :
    l.stored s.page th = l.stored page th ∨ l.stored s.page th = th.default ∨
      l.stored s.page th = s.thresholds.threshold th := by
  rcases h.page_cases with ⟨hpage, -⟩ | ⟨ram, k, hword, hpage, hupdating⟩
  · exact .inl (by rw [hpage])
  · rw [dataPending_iff hpage hupdating, not_and, not_lt] at hdata
    rw [hpage, stored_crashedPage]
    by_cases hk : recordOffset l.table (l.index th) + 4 ≤ k
    · right
      right
      have hcomplete := hdata hk
      rw [if_pos hk, tornValue_of_complete _ _ (by rw [actualLen_descriptor]; omega), ← hword th]
      rfl
    · exact .inr (.inl (by rw [if_neg hk]))

/-- When its data is pending, what is stored is far too large. -/
lemma InUpdate.le_stored (h : InUpdate l page s) (hdata : DataPending l s th) :
    0xffff0000 ≤ (l.stored s.page th).toNat := by
  rcases h.page_cases with ⟨-, hnone | herase⟩ | ⟨ram, k, -, hpage, hupdating⟩
  · obtain ⟨-, ptr, -, j, -, v, hmem⟩ := hdata
    rw [hnone] at hmem
    cases hmem
  · exact absurd herase hdata.1
  · obtain ⟨hk, hlt⟩ := (dataPending_iff hpage hupdating th).mp hdata
    rw [hpage, stored_crashedPage, if_pos hk]
    exact le_readWord_tornValue th _ (by omega)

/-! ## The steps of the board -/

/-- An endpoint saves other thresholds, or it changes nothing in the memory. -/
lemma callEndpoint_cases (l : Layout) (s : Board) (c : Command) :
    (∃ g : Globals, callEndpoint l s c = s.update l g ∧
      ∀ th : Threshold, g.threshold th = (th.setBy c).getD (s.thresholds.threshold th)) ∨
    ((∀ th : Threshold, th.setBy c = none) ∧ ∃ power sent, (power = s.power ∨ power = .switchedOff) ∧
      callEndpoint l s c = { s with power := power, sent := sent }) := by
  have hends : Threshold.endpoint .low = setLowerVoltageEndointAddress ∧
      Threshold.endpoint .high = setUpperVoltageEndointAddress := ⟨rfl, rfl⟩
  have hne : setUpperVoltageEndointAddress ≠ setLowerVoltageEndointAddress := by decide
  have hsame : ∃ power sent, (power = s.power ∨ power = .switchedOff) ∧
      s = { s with power := power, sent := sent } := ⟨s.power, s.sent, .inl rfl, rfl⟩
  unfold callEndpoint
  by_cases hlower : c.callback = setLowerVoltageEndointAddress
  · rw [if_pos hlower]
    by_cases hlen : c.packetLen = 2
    · left
      refine ⟨_, by simp only [setLowerVoltageEndoint, hlen, if_true]; rfl, fun th => ?_⟩
      cases th <;>
        simp [Threshold.setBy, hends, hlower, hlen, hne.symm, Globals.threshold]
    · right
      refine ⟨fun th => by simp [Threshold.setBy, hlen], ?_⟩
      simpa [setLowerVoltageEndoint, hlen] using hsame
  rw [if_neg hlower]
  by_cases hupper : c.callback = setUpperVoltageEndointAddress
  · rw [if_pos hupper]
    by_cases hlen : c.packetLen = 2
    · left
      refine ⟨_, by simp only [setUpperVoltageEndoint, hlen, if_true]; rfl, fun th => ?_⟩
      cases th <;> simp [Threshold.setBy, hends, hupper, hlen, hne, Globals.threshold]
    · right
      refine ⟨fun th => by simp [Threshold.setBy, hlen], ?_⟩
      simpa [setUpperVoltageEndoint, hlen] using hsame
  rw [if_neg hupper]
  right
  refine ⟨fun th => by cases th <;> simp [Threshold.setBy, hends, hlower, hupper], ?_⟩
  split_ifs
  · exact ⟨s.power, _, .inl rfl, rfl⟩
  · exact ⟨.switchedOff, s.sent, .inr rfl, rfl⟩
  · exact hsame
  · exact hsame

/-- The board after a start -/
def Board.started (l : Layout) (s : Board) (ram : Ram) : Board :=
  { s with
    power := .running
    thresholds := l.thresholdsIn (ramAfterRead l.table s.page ram)
    others := ramAfterRead l.table s.page ram
    updating := configUpdateToFlash l.table s.page (ramAfterRead l.table s.page ram) }

/-- What a step can do. -/
inductive Outcome (l : Layout) (s : Board) : BoardAction → Board → Prop
  | start (ram : Ram) (hoff : s.power = .off) : Outcome l s (.start ram) (s.started l ram)
  | flash {operation : Flash.Operation ℕ UInt16} {rest : List (Flash.Operation ℕ UInt16)}
      (hnext : s.updating = operation :: rest) :
      Outcome l s .flash
        { s with page := Flash.apply erased s.page operation, updating := rest }
  | powerLoss (hon : s.power ≠ .off) :
      Outcome l s .powerLoss { s with power := .off, updating := [] }
  | set {packet : Packet} {c : Command} {g : Globals} (hidle : s.Idle)
      (hc : commandOf packet = some c)
      (hg : ∀ th : Threshold, g.threshold th = (th.setBy c).getD (s.thresholds.threshold th)) :
      Outcome l s (.packet packet) ({ s with commands := s.commands ++ [c] }.update l g)
  | command {packet : Packet} {c : Command} {power : Power} {sent : List UInt8} (hidle : s.Idle)
      (hc : commandOf packet = some c) (hnone : ∀ th : Threshold, th.setBy c = none)
      (hpower : power ≠ .off) :
      Outcome l s (.packet packet)
        { s with commands := s.commands ++ [c], power := power, sent := sent }
  | noCommand {packet : Packet} (hidle : s.Idle) : Outcome l s (.packet packet) s
  | measurement (buf : List UInt8) {power : Power} (hidle : s.Idle) (hpower : power ≠ .off) :
      Outcome l s (.measurement buf) { s with power := power }

lemma boardStep_outcome {t : Board} (h : boardStep l s a = some t) : Outcome l s a t := by
  cases a with
  | start ram =>
    simp only [boardStep, Option.ite_none_right_eq_some, Option.some.injEq] at h
    obtain ⟨hoff, rfl⟩ := h
    exact .start ram hoff
  | flash =>
    cases hnext : s.updating with
    | nil => simp [boardStep, hnext] at h
    | cons operation rest =>
      simp only [boardStep, hnext, Option.some.injEq] at h
      rw [← h]
      exact .flash hnext
  | powerLoss =>
    simp only [boardStep, Option.ite_none_left_eq_some, Option.some.injEq] at h
    obtain ⟨hon, rfl⟩ := h
    exact .powerLoss hon
  | packet packet =>
    simp only [boardStep, Option.ite_none_right_eq_some] at h
    obtain ⟨hidle, h⟩ := h
    have hrunning := hidle.1
    cases hc : commandOf packet with
    | none =>
      simp only [hc, Option.some.injEq] at h
      rw [← h]
      exact .noCommand hidle
    | some c =>
      simp only [hc, Option.some.injEq] at h
      rcases callEndpoint_cases l { s with commands := s.commands ++ [c] } c with
        ⟨g, hcall, hg⟩ | ⟨hnone, power, sent, hpower, hcall⟩
      · rw [← h, hcall]
        exact .set hidle hc hg
      · rw [← h, hcall]
        refine .command hidle hc hnone ?_
        rcases hpower with rfl | rfl
        · simp [hrunning]
        · decide
  | measurement buf =>
    simp only [boardStep, Option.ite_none_right_eq_some] at h
    obtain ⟨hidle, h⟩ := h
    have hrunning := hidle.1
    cases hreaction : onNewPwrMeasurement s.thresholds buf with
    | switchAllOff =>
      simp only [hreaction, Option.some.injEq] at h
      rw [← h]
      exact .measurement buf hidle (by decide)
    | post color level =>
      simp only [hreaction, Option.some.injEq] at h
      rw [← h]
      have hon : s.power ≠ .off := by simp [hrunning]
      exact .measurement buf hidle hon

/-! ## What a run keeps of the thresholds -/

/-- While the board is off, what is stored is `Good`; while it is on, so is what it has in the RAM,
and a save of this has begun on a page that was `Old`. -/
def Keeps (Good Old : List Command → Threshold → UInt32 → Prop) (l : Layout) (s : Board) : Prop :=
  if s.power = .off then s.updating = [] ∧ ∀ th, Good s.commands th (l.stored s.page th)
  else
    (∀ th, Good s.commands th (s.thresholds.threshold th)) ∧
      ∃ page, InUpdate l page s ∧ ∀ th, Old s.commands th (l.stored page th)

section Keeps
variable {Good Old : List Command → Threshold → UInt32 → Prop} {t : Board}

lemma Keeps.of_on (hon : s.power ≠ .off)
    (hgood : ∀ th, Good s.commands th (s.thresholds.threshold th)) (hupdate : InUpdate l page s)
    (hold : ∀ th, Old s.commands th (l.stored page th)) : Keeps Good Old l s := by
  rw [Keeps, if_neg hon]
  exact ⟨hgood, page, hupdate, hold⟩

lemma Keeps.on (h : Keeps Good Old l s) (hon : s.power ≠ .off) :
    (∀ th, Good s.commands th (s.thresholds.threshold th)) ∧
      ∃ page, InUpdate l page s ∧ ∀ th, Old s.commands th (l.stored page th) := by
  rwa [Keeps, if_neg hon] at h

/-- A step keeps them if the value that a command sets is good, and what a power loss leaves. -/
lemma Keeps.step (h : Keeps Good Old l s)
    (hold : ∀ cs th w, Good cs th w → Old cs th w)
    (hmono : ∀ cs c th w, Old cs th w → Old (cs ++ [c]) th w)
    (hset : ∀ packet c, a = .packet packet → commandOf packet = some c → ∀ th w,
      Good s.commands th w → Good (s.commands ++ [c]) th ((th.setBy c).getD w))
    (hloss : a = .powerLoss → ∀ page, InUpdate l page s →
      (∀ th, Good s.commands th (s.thresholds.threshold th)) →
      (∀ th, Old s.commands th (l.stored page th)) → ∀ th, Good s.commands th (l.stored s.page th))
    (ht : boardStep l s a = some t) : Keeps Good Old l t := by
  cases boardStep_outcome ht with
  | start ram hoff =>
    rw [Keeps, if_pos hoff] at h
    have hword : ∀ th, (s.started l ram).thresholds.threshold th = l.stored s.page th := by
      intro th
      rw [Board.started, threshold_thresholdsIn, wordIn_ramAfterRead]
    have hupdate : InUpdate l s.page (s.started l ram) := by
      refine ⟨ramAfterRead l.table s.page ram, 0, fun th => ?_, rfl, rfl⟩
      rw [hword, wordIn_ramAfterRead]
    refine .of_on (by simp [Board.started]) (fun th => ?_) hupdate (fun th => hold _ th _ (h.2 th))
    rw [hword]
    exact h.2 th
  | flash hnext =>
    by_cases hoff : s.power = .off
    · rw [Keeps, if_pos hoff, hnext] at h
      cases h.1
    · obtain ⟨hgood, page, hupdate, hpage⟩ := h.on hoff
      exact .of_on hoff hgood (hupdate.flash hnext) hpage
  | powerLoss hon =>
    obtain ⟨hgood, page, hupdate, hpage⟩ := h.on hon
    rw [Keeps, if_pos rfl]
    exact ⟨rfl, hloss rfl page hupdate hgood hpage⟩
  | set hidle hc hg =>
    obtain ⟨hgood, page, hupdate, -⟩ := h.on (by simp [hidle.1])
    refine .of_on (by simp [Board.update, hidle.1]) (fun th => ?_) (inUpdate_update l _ _)
      (fun th => ?_)
    · have hkept := hset _ _ rfl hc th _ (hgood th)
      rw [← hg th] at hkept
      exact hkept
    · -- before this save, what was in the RAM was stored
      show Old _ th (l.stored s.page th)
      rw [hupdate.stored_of_complete hidle.2]
      exact hmono _ _ th _ (hold _ th _ (hgood th))
  | command hidle hc hnone hpower =>
    obtain ⟨hgood, page, hupdate, hpage⟩ := h.on (by simp [hidle.1])
    refine .of_on hpower (fun th => ?_) hupdate (fun th => hmono _ _ th _ (hpage th))
    have hkept := hset _ _ rfl hc th _ (hgood th)
    rwa [hnone th] at hkept
  | noCommand => exact h
  | measurement buf hidle hpower =>
    obtain ⟨hgood, page, hupdate, hpage⟩ := h.on (by simp [hidle.1])
    exact .of_on hpower hgood hupdate hpage

/-- A new board reads the default values. -/
lemma keeps_newBoard (l : Layout) (h : ∀ th : Threshold, Good [] th th.default) :
    Keeps Good Old l newBoard := by
  have hoff : newBoard.power = .off := rfl
  rw [Keeps, if_pos hoff]
  refine ⟨rfl, fun th => ?_⟩
  have hstored : l.stored newBoard.page th = th.default := stored_erased l th
  rw [hstored]
  exact h th

end Keeps

/-! ## Power losses -/

lemma Threshold.Genuine.append {commands : List Command} {w : UInt32}
    (h : th.Genuine commands w) (c : Command) : th.Genuine (commands ++ [c]) w := by
  refine h.imp id fun hmem => ?_
  rw [List.filterMap_append]
  exact List.mem_append_left _ hmem

/-- What a command sets is genuine. -/
lemma Threshold.Genuine.set {commands : List Command} {w : UInt32} (h : th.Genuine commands w)
    (c : Command) : th.Genuine (commands ++ [c]) ((th.setBy c).getD w) := by
  cases hset : th.setBy c with
  | none => exact h.append c
  | some v =>
    right
    rw [List.filterMap_append, List.filterMap_cons_some hset]
    exact List.mem_append_right _ List.mem_cons_self

/-- Default values and values of packets have 16 bits. -/
lemma Threshold.Genuine.lt {commands : List Command} {w : UInt32} (h : th.Genuine commands w) :
    w.toNat < 2 ^ 16 := by
  rcases h with rfl | hmem
  · cases th <;> decide
  · obtain ⟨c, -, hc⟩ := List.mem_filterMap.mp hmem
    simp only [Threshold.setBy, Option.ite_none_right_eq_some, Option.some.injEq] at hc
    rw [← hc.2, UInt16.toNat_toUInt32]
    exact UInt16.toNat_lt _

/-- Every save of the board returns. -/
theorem execConfigUpdateToFlash_layout (l : Layout) (page : Page) (ram : Ram) :
    execConfigUpdateToFlash l.table page ram = .done (configUpdateToFlash l.table page ram) :=
  execConfigUpdateToFlash_of_even l.even page ram

/-- In every run, a save has begun on some page while the board is on. -/
lemma exists_inUpdate {as : List BoardAction} (h : exec (boardStep l) newBoard as = some s)
    (hon : s.power ≠ .off) : ∃ page, InUpdate l page s := by
  have hreached : Keeps (fun _ _ _ => True) (fun _ _ _ => True) l s :=
    exec_induction (boardStep l) (fun u a w hu hw => hu.step (fun _ _ _ _ => trivial)
      (fun _ _ _ _ _ => trivial) (fun _ _ _ _ _ _ _ => trivial) (fun _ _ _ _ _ _ => trivial) hw)
      (keeps_newBoard l fun _ => trivial) h
  obtain ⟨-, page, hupdate, -⟩ := hreached.on hon
  exact ⟨page, hupdate⟩

/-- What a power loss leaves of a threshold whose data is pending. -/
lemma le_stored_of_powerLoss {as : List BoardAction} (h : exec (boardStep l) newBoard as = some s)
    (hdata : DataPending l s th) {t : Board} (hloss : boardStep l s .powerLoss = some t) :
    0xffff0000 ≤ (l.stored t.page th).toNat := by
  cases boardStep_outcome hloss with
  | powerLoss hon =>
    obtain ⟨page, hupdate⟩ := exists_inUpdate h hon
    exact hupdate.le_stored hdata

/-- Whatever sequence of starts, packets, measurements and power losses a board goes through, also
between any two flash operations of a save, the thresholds that the next start would read are default
values or values that were set, if and only if the power was never lost while the record of a
threshold was in the page and its data was not. When it is, the next start reads 0xffff0000 or
more. -/
theorem thresholds_genuine_iff (l : Layout) {as : List BoardAction}
    (h : exec (boardStep l) newBoard as = some s) :
    (StatesMeet (boardStep l) (fun u => u.power = .off → StoredGenuine l u) newBoard as ↔
      StepsMeet (boardStep l) (LosesOutsideData l) newBoard as) ∧
    ∀ th t, DataPending l s th → boardStep l s .powerLoss = some t →
      0xffff0000 ≤ (l.stored t.page th).toNat := by
  have hstart : Keeps (fun cs th => th.Genuine cs) (fun cs th => th.Genuine cs) l newBoard :=
    keeps_newBoard l fun _ => .inl rfl
  refine ⟨?_, fun th t hdata hloss => le_stored_of_powerLoss h hdata hloss⟩
  refine statesMeet_iff_stepsMeet (boardStep l) (Keeps (fun cs th => th.Genuine cs)
    (fun cs th => th.Genuine cs) l) ?_ ?_ ?_ hstart h
  · intro u hu hoff
    rw [Keeps, if_pos hoff] at hu
    exact hu.2
  · intro u a v hu hdata hv
    refine hu.step (fun _ _ _ hw => hw) (fun _ c _ _ hw => hw.append c)
      (fun _ c _ _ _ _ hw => hw.set c) (fun hloss page hupdate hgood hpage th => ?_) hv
    subst hloss
    rcases hupdate.stored_cases (hdata th) with hw | hw | hw
    · rw [hw]
      exact hpage th
    · exact .inl hw
    · rw [hw]
      exact hgood th
  · intro u a v hu hdata hv hgenuine
    cases boardStep_outcome hv with
    | powerLoss hon =>
      simp only [LosesOutsideData, not_forall, not_not] at hdata
      obtain ⟨th, hpending⟩ := hdata
      obtain ⟨-, page, hupdate, -⟩ := hu.on hon
      have hlarge := hupdate.le_stored hpending
      have hsmall := (hgenuine rfl th).lt
      have hsame : l.stored u.page th =
        l.stored { u with power := .off, updating := [] }.page th := rfl
      rw [hsame] at hlarge
      omega
    | _ => exact absurd trivial hdata

def powerboardIndex : Threshold → ℕ
  | .low => 0
  | .high => 1

lemma powerboardIndex_ne : powerboardIndex .low ≠ powerboardIndex .high := by decide

lemma powerboardTable_descriptor (th : Threshold) :
    powerboardTable.descriptors[powerboardIndex th]? = some th.descriptor := by
  cases th <;> rfl

lemma powerboardTable_even : powerboardTable.Even := by
  simp [ConfigTable.Even, powerboardTable, voltageDescriptor]

/-- The table of the power board -/
def powerboardLayout : Layout where
  table := powerboardTable
  even := powerboardTable_even
  index := powerboardIndex
  index_ne := powerboardIndex_ne
  descriptor := powerboardTable_descriptor

/-- The first start, which saves the default values -/
def firstStart : List BoardAction := .start (fun _ _ => 0) :: List.replicate 17 .flash

/-- A packet that sets the low threshold to 800 -/
def setLower800 : Packet := Packet.decode [2, 0, 0, 103, 0x20, 0x03]

/-- The power is lost behind the erasure and the first record of the save. -/
def lossBehindRecord : List BoardAction :=
  firstStart ++ .packet setLower800 :: List.replicate 5 .flash

/-- Then the data of the low threshold is pending. -/
lemma dataPending_lossBehindRecord :
    ∃ s, exec (boardStep powerboardLayout) newBoard lossBehindRecord = some s ∧
      DataPending powerboardLayout s .low := by
  have hmemory : (exec (boardStep powerboardLayout) newBoard lossBehindRecord).map (fun s =>
      (getRecordDataPtr s.page (powerboardTable.descriptorPtr 0), s.updating.head?,
        decide (.erasePage ∈ s.updating))) =
      some (.configMemory 0x0800FC18, some (.program 0x0800FC18 800), false) := by
    decide +kernel
  obtain ⟨s, hs, hview⟩ := Option.map_eq_some_iff.mp hmemory
  simp only [Prod.mk.injEq, decide_eq_false_iff_not] at hview
  obtain ⟨hptr, hnext, herase⟩ := hview
  exact ⟨s, hs, herase, _, hptr, 0, by decide, 800, List.mem_of_mem_head? hnext⟩

/-- The next start reads the low threshold with a value that was never set. -/
theorem thresholds_genuine_iff_lossBehindRecord :
    ∃ s t, exec (boardStep powerboardLayout) newBoard lossBehindRecord = some s ∧
      boardStep powerboardLayout s .powerLoss = some t ∧
      0xffff0000 ≤ (powerboardLayout.stored t.page .low).toNat ∧
      ¬ StatesMeet (boardStep powerboardLayout)
        (fun u => u.power = .off → StoredGenuine powerboardLayout u) newBoard
        (lossBehindRecord ++ [.powerLoss]) := by
  obtain ⟨s, hs, hdata⟩ := dataPending_lossBehindRecord
  have hloss : ((exec (boardStep powerboardLayout) newBoard lossBehindRecord).bind fun s =>
      boardStep powerboardLayout s .powerLoss).isSome := by decide +kernel
  rw [hs, Option.bind_some] at hloss
  obtain ⟨t, ht⟩ := Option.isSome_iff_exists.mp hloss
  have hrun : exec (boardStep powerboardLayout) newBoard (lossBehindRecord ++ [.powerLoss]) =
      some t :=
    (exec_append_eq_some _).mpr ⟨s, hs, (exec_cons_eq_some _).mpr ⟨t, ht, rfl⟩⟩
  refine ⟨s, t, hs, ht, (thresholds_genuine_iff powerboardLayout hs).2 .low t hdata ht, fun hall => ?_⟩
  have hloses := (thresholds_genuine_iff powerboardLayout hrun).1.mp hall
  exact hloses lossBehindRecord .powerLoss [] s rfl hs .low hdata

/-! ## Reading the limits back -/

lemma Threshold.lastSet_append (th : Threshold) (commands : List Command) (c : Command) :
    th.lastSet (commands ++ [c]) = (th.setBy c).getD (th.lastSet commands) := by
  rw [Threshold.lastSet, List.filterMap_append]
  cases hset : th.setBy c with
  | none => rw [List.filterMap_cons_none hset]; simp [Threshold.lastSet]
  | some v => rw [List.filterMap_cons_some hset]; simp

lemma Threshold.lastSet_genuine (th : Threshold) (commands : List Command) :
    th.Genuine commands (th.lastSet commands) := by
  rw [Threshold.lastSet]
  cases hlast : (commands.filterMap th.setBy).getLast? with
  | none => exact .inl rfl
  | some w => exact .inr (List.mem_of_getLast? hlast)

/-- With no power loss in a save, an idle board has the thresholds that were set last. -/
lemma thresholds_eq_lastSet {as : List BoardAction}
    (hlosses : StepsMeet (boardStep l) LosesAtRest newBoard as)
    (h : exec (boardStep l) newBoard as = some s) (hon : s.power ≠ .off) (th : Threshold) :
    s.thresholds.threshold th = th.lastSet s.commands := by
  have hstep : ∀ u a v, Keeps (fun cs th w => w = th.lastSet cs) (fun _ _ _ => True) l u →
      LosesAtRest u a → boardStep l u a = some v →
      Keeps (fun cs th w => w = th.lastSet cs) (fun _ _ _ => True) l v := by
    intro u a v hu hrest hv
    refine hu.step (fun _ _ _ _ => trivial) (fun _ _ _ _ _ => trivial)
      (fun _ c _ _ th w hw => by rw [hw, th.lastSet_append]) (fun hloss page hupdate hgood _ th => ?_)
      hv
    subst hloss
    rw [hupdate.stored_of_complete hrest]
    exact hgood th
  have hrun := exec_induction_of_steps (boardStep l) hstep (keeps_newBoard l fun _ => rfl) hlosses
  exact ((hrun as [] s (List.append_nil as).symm h).on hon).1 th

lemma rawDataAt_zero (w : UInt16) (rest : List UInt8) :
    rawDataAt (ofHalfWord w ++ rest) 0 = w := readHalfWord_ofHalfWord w rest

lemma rawDataAt_one (w v : UInt16) (rest : List UInt8) :
    rawDataAt (ofHalfWord w ++ (ofHalfWord v ++ rest)) 1 = v := readHalfWord_ofHalfWord v rest

/-- Truncating what fits changes nothing. -/
lemma toUInt16_toUInt32 {w : UInt32} (h : w.toNat < 2 ^ 16) : w.toUInt16.toUInt32 = w := by
  apply UInt32.toNat_inj.mp
  rw [UInt16.toNat_toUInt32, UInt32.toNat_toUInt16]
  exact Nat.mod_eq_of_lt h

/-- What was set is read back, through any starts and power losses outside of saves: the frame that an
idle board sends for a request of the limits is received by any receiver that can take it as one
packet of four bytes with the id 100, and these are the thresholds that were set last, or the default
values where none was. -/
theorem limits_read_back (l : Layout) {as : List BoardAction}
    (hlosses : StepsMeet (boardStep l) LosesAtRest newBoard as)
    (h : exec (boardStep l) newBoard as = some s) (hidle : s.Idle) (request : Packet)
    (hid : request.subProtocolID = 101) (hinterface : request.interface.toNat < phyInterfacesCount)
    (i_interface : UInt8) (host : Receiving Pattern ℕ) (hbuffer : host.buffer.isSome)
    (hmode : host.mode ≠ .receivedEscapeChar) (haccepted : host.world.accepted 0 = true) :
    ∃ t frame reply, boardStep l s (.packet request) = some t ∧ t.sent = s.sent ++ frame ∧
      posted (receiveIndication patternPool i_interface host frame).2 = [reply] ∧
      reply.subProtocolID = 100 ∧ reply.payloadLen = 4 ∧
      (rawDataAt reply.payload 0).toUInt32 = Threshold.low.lastSet s.commands ∧
      (rawDataAt reply.payload 1).toUInt32 = Threshold.high.lastSet s.commands := by
  have hon : s.power ≠ .off := by simp [hidle.1]
  have hlow : s.thresholds.lowThresh = Threshold.low.lastSet s.commands :=
    thresholds_eq_lastSet hlosses h hon .low
  have hhigh : s.thresholds.highThresh = Threshold.high.lastSet s.commands :=
    thresholds_eq_lastSet hlosses h hon .high
  have hcommand : commandOf request = some
      { callback := getLimitsEndointAddress
        payload := request.payload
        packetLen := request.payloadLen
        interface := request.interface } := by
    simp [commandOf, endpoints, hid]
  obtain ⟨t, ht, hsent⟩ : ∃ t, boardStep l s (.packet request) = some t ∧ t.sent = s.sent ++
      sendMessage (fun _ => .zeroed) request.interface 100 (limitsReply s.thresholds) :=
    ⟨_, by rw [boardStep, if_pos hidle, hcommand], rfl⟩
  rw [sendMessage_eq _ _ _ _ hinterface rfl] at hsent
  -- the frame is delivered to the receiver
  obtain ⟨buf, hbuf⟩ := Option.isSome_iff_exists.mp hbuffer
  have hbody := isFrameBody_frameBody 100 (limitsReply s.thresholds) (by simp [limitsReply,
    ofHalfWord])
  obtain ⟨reply, hreply⟩ := exists_delivered i_interface hbuf hmode hbody
  have hlen : reply.payloadLen.toNat = 4 := hreply.payloadLen
  have hmessage := hreply.message
  simp only [Packet.message, Prod.mk.injEq] at hmessage
  have hpayload : reply.payload = ofHalfWord s.thresholds.lowThresh.toUInt16 ++
      (ofHalfWord s.thresholds.highThresh.toUInt16 ++ []) := by
    rw [hmessage.2, limitsReply, List.append_nil]
  refine ⟨t, _, reply, ht, hsent, ?_, hmessage.1, UInt16.toNat_inj.mp hlen, ?_, ?_⟩
  · rw [hreply.posted, haccepted]
    rfl
  · rw [hpayload, rawDataAt_zero, ← hlow]
    exact toUInt16_toUInt32 (hlow ▸ (Threshold.low.lastSet_genuine s.commands).lt)
  · rw [hpayload, rawDataAt_one, ← hhigh]
    exact toUInt16_toUInt32 (hhigh ▸ (Threshold.high.lastSet_genuine s.commands).lt)

/-- The low threshold is set and saved, and the board is started once more. -/
def setAndRestart : List BoardAction :=
  firstStart ++ .packet setLower800 :: List.replicate 17 .flash ++
    [.powerLoss, .start fun _ _ => 0xff]

theorem limits_read_back_restart :
    ∃ s, exec (boardStep powerboardLayout) newBoard setAndRestart = some s ∧
      Threshold.low.lastSet s.commands = 800 ∧
      ∃ t frame reply,
        boardStep powerboardLayout s (.packet (Packet.decode [0, 0, 0, 101])) = some t ∧
        t.sent = s.sent ++ frame ∧
        posted (receiveIndication patternPool 0 (init patternPool 0 Pattern.unlimited) frame).2 =
          [reply] ∧
        reply.subProtocolID = 100 ∧ reply.payloadLen = 4 ∧
        (rawDataAt reply.payload 0).toUInt32 = Threshold.low.lastSet s.commands ∧
        (rawDataAt reply.payload 1).toUInt32 = Threshold.high.lastSet s.commands := by
  have hrun : (exec (boardStep powerboardLayout) newBoard setAndRestart).map (fun s =>
      (Threshold.low.lastSet s.commands, decide s.Idle)) = some (800, true) := by decide +kernel
  obtain ⟨s, hs, hview⟩ := Option.map_eq_some_iff.mp hrun
  simp only [Prod.mk.injEq, decide_eq_true_eq] at hview
  have hlosses : StepsMeet (boardStep powerboardLayout) LosesAtRest newBoard setAndRestart := by
    decide +kernel
  exact ⟨s, hs, hview.1, limits_read_back powerboardLayout hlosses hs hview.2 _ rfl (by decide) 0 _
    rfl (by decide) rfl⟩

/-! ## A torn low threshold -/

/-- One power loss at the wrong moment turns the board off for good: when the power is lost while the
record of the low threshold is in the page and its data is not, then, in every run that goes on from
there without another threshold being set and without a power loss in a save, through any number of
starts, each measurement that the board handles switches it off. -/
theorem torn_low_switches_off (l : Layout) {as bs : List BoardAction} {t v : Board}
    (h : exec (boardStep l) newBoard as = some s) (hdata : DataPending l s .low)
    (hloss : boardStep l s .powerLoss = some t)
    (hquiet : StepsMeet (boardStep l) (fun u a => LosesAtRest u a ∧ SetsNothing a) t bs)
    (hlater : exec (boardStep l) t bs = some v) (hidle : v.Idle) {buf : List UInt8}
    (hbuf : (systemPowerStateAt buf).batteryVoltcV.toNat < 0xffff0000) :
    boardStep l v (.measurement buf) = some { v with power := .switchedOff } := by
  -- what is known of the low threshold
  have hstep : ∀ u a w, Keeps (fun _ th x => th = .low → 0xffff0000 ≤ x.toNat)
      (fun _ _ _ => True) l u → LosesAtRest u a ∧ SetsNothing a → boardStep l u a = some w →
      Keeps (fun _ th x => th = .low → 0xffff0000 ≤ x.toNat) (fun _ _ _ => True) l w := by
    intro u a w hu hquiet hw
    refine hu.step (fun _ _ _ _ => trivial) (fun _ _ _ _ _ => trivial)
      (fun packet c ha hc th x hx => ?_) (fun ha page hupdate hgood _ th => ?_) hw
    · subst ha
      have hnone := hquiet.2
      simp only [SetsNothing, hc, Option.bind_some] at hnone
      cases th with
      | low => rwa [hnone.1]
      | high => rwa [hnone.2]
    · subst ha
      rw [hupdate.stored_of_complete hquiet.1]
      exact hgood th
  have hlarge := le_stored_of_powerLoss h hdata hloss
  have htorn : Keeps (fun _ th x => th = .low → 0xffff0000 ≤ x.toNat) (fun _ _ _ => True) l t := by
    cases boardStep_outcome hloss with
    | powerLoss hon =>
      have hoff : Board.power { s with power := .off, updating := [] } = .off := rfl
      rw [Keeps, if_pos hoff]
      refine ⟨rfl, fun th hth => ?_⟩
      rw [hth]
      exact hlarge
  have hrun := exec_induction_of_steps (boardStep l) hstep htorn hquiet
  have hlow := ((hrun bs [] v (List.append_nil bs).symm hlater).on (by simp [hidle.1])).1 .low rfl
  have hbelow : v.thresholds.lowThresh ≥ (systemPowerStateAt buf).batteryVoltcV := by
    rw [ge_iff_le, UInt32.le_iff_toNat_le]
    have hthreshold : (v.thresholds.threshold .low).toNat = v.thresholds.lowThresh.toNat := rfl
    omega
  simp only [boardStep, if_pos hidle, onNewPwrMeasurement, if_pos hbelow]

/-- The next start saves the torn threshold once more. -/
def startAgain : List BoardAction := .start (fun _ _ => 0) :: List.replicate 17 .flash

/-- 11 V are enough for the thresholds that were set. -/
theorem torn_low_switches_off_elevenVolts :
    ∃ s t v, exec (boardStep powerboardLayout) newBoard lossBehindRecord = some s ∧
      boardStep powerboardLayout s .powerLoss = some t ∧
      exec (boardStep powerboardLayout) t startAgain = some v ∧
      boardStep powerboardLayout v (.measurement (ofWord 1100)) =
        some { v with power := .switchedOff } := by
  obtain ⟨s, hs, hdata⟩ := dataPending_lossBehindRecord
  have hloss : ((exec (boardStep powerboardLayout) newBoard lossBehindRecord).bind fun s =>
      boardStep powerboardLayout s .powerLoss).map (fun t =>
        (decide (StepsMeet (boardStep powerboardLayout)
            (fun u a => LosesAtRest u a ∧ SetsNothing a) t startAgain),
          (exec (boardStep powerboardLayout) t startAgain).map fun v => decide v.Idle)) =
      some (true, some true) := by decide +kernel
  rw [hs] at hloss
  simp only [Option.bind_some, Option.map_eq_some_iff, Prod.mk.injEq, decide_eq_true_eq] at hloss
  obtain ⟨t, ht, hquiet, v, hv, hidle⟩ := hloss
  exact ⟨s, t, v, hs, ht, hv,
    torn_low_switches_off powerboardLayout hs hdata ht hquiet hv hidle (by decide)⟩

end Powerboard.PowerCheck
