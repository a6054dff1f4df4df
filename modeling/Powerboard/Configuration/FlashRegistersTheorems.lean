import Powerboard.Configuration.CrashTheorems
import Powerboard.Configuration.FlashRegisters
import Powerboard.Configuration.SaveTheorems

/-!
# The registers do what the operations say

In every run the controller allows all accesses of `config_updateToFlash`, what is in the page is what
the flash operations that are through have made of it, and at its end the controller is locked
(`registers_refine_saves`).
-/

namespace Powerboard.FlashRegisters

open Configuration Devices Machine

variable {cr : BitVec 32} {keyed : Bool} {page page' : Page} {c : Controller}
  {operation : Flash.Operation ℕ UInt16}

/-! ## Conditions -/

/-- The controller is not busy. -/
structure At (cr : BitVec 32) (keyed : Bool) (page : Page) (c : Controller) : Prop where
  cr : c.cr = cr
  keyed : c.keyed = keyed
  page : c.page = page
  busy : c.busy = none
  blocked : c.blocked = false

/-- The controller is busy with an operation, or through with it. -/
def Working (operation : Flash.Operation ℕ UInt16) (crBusy cr : BitVec 32) (page page' : Page)
    (c : Controller) : Prop :=
  (c.cr = crBusy ∧ c.keyed = false ∧ c.page = page ∧ c.busy = some operation ∧ c.blocked = false) ∨
    At cr false page' c

lemma stable_at : Stable controller (At cr keyed page) := by
  intro c d h hd
  simp [controller, complete, h.busy] at hd

/-- What an operation makes of the page. -/
lemma stable_working {crBusy : BitVec 32} (hcr : crBusy &&& ~~~flashCrStrt = cr)
    (hpage : ∀ c d : Controller, c.page = page → c.busy = some operation → complete c = some d →
      d.page = page') :
    Stable controller (Working operation crBusy cr page page') := by
  rintro c d (⟨hc, hkeyed, hp, hbusy, hblocked⟩ | hat) hd
  · right
    have hd' := hpage c d hp hbusy hd
    simp only [controller, complete, hbusy, Option.map_some, Option.some.injEq] at hd
    subst hd
    exact ⟨by rw [← hcr, ← hc], hkeyed, hd', rfl, hblocked⟩
  · exact .inr (stable_at c d hat hd)

/-! ## The functions -/

/-- `flash_wait_for_last_operation`, when nothing is running -/
lemma outline_begin {I Q : Controller → Prop} {bits : BitVec 32} {rest : List RegisterAccess}
    (hI : ∀ c : Controller, c.page = page → I c) (hstrt : (0 ||| bits) &&& flashCrStrt = 0)
    (hrest : Outline controller I (At bits false page) rest Q) :
    Outline controller I (At 0 false page) (.waitForLastOperation :: .setCr bits :: rest) Q := by
  refine .cons_of_done stable_at (fun c h => hI c h.page)
    (fun c h => ⟨c, by simp [controller, access, h.busy], h⟩) ?_
  refine .cons_of_done stable_at (fun c h => hI c h.page) (fun c h => ?_) hrest
  refine ⟨{ c with cr := bits }, ?_, ⟨rfl, h.keyed, h.page, h.busy, h.blocked⟩⟩
  have hzero : (0 : BitVec 32) ||| bits = bits := BitVec.zero_or
  rw [hzero] at hstrt
  simp [controller, access, writeCr, h.busy, h.cr, hstrt]

/-- The end of `flash_erase_page` and of `flash_program_half_word` -/
lemma outline_finish {I : Controller → Prop} {crBusy bits : BitVec 32}
    (hI : ∀ c : Controller, c.page = page ∨ c.page = page' → I c)
    (hstable : Stable controller (Working operation crBusy bits page page'))
    (hlock : bits &&& flashCrLock = 0) :
    Outline controller I (Working operation crBusy bits page page')
      [.waitForLastOperation, .clearEop, .clearCr bits] (At 0 false page') := by
  have hat : ∀ {cr : BitVec 32} (c : Controller), At cr false page' c → I c :=
    fun c h => hI c (.inr h.page)
  refine .cons (R := At bits false page') hstable (fun c h => ?_) (fun c _ => ?_)
    (fun c d h hdone => ?_) ?_
  · exact h.elim (fun hbusy => hI c (.inl hbusy.2.2.1)) (hat c)
  · simp only [controller, access]
    split <;> simp
  · rcases h with hbusy | hat
    · simp [controller, access, hbusy.2.2.2.1] at hdone
    · simp only [controller, access, hat.busy, ne_eq, not_true_eq_false, if_false,
        Access.done.injEq] at hdone
      exact hdone ▸ hat
  refine .cons_of_done (R := At bits false page') stable_at hat (fun c h => ?_) ?_
  · simp only [controller, access]
    split_ifs
    · exact ⟨_, rfl, ⟨h.cr, h.keyed, h.page, h.busy, h.blocked⟩⟩
    · exact ⟨c, rfl, h⟩
  refine .cons_of_done stable_at hat (fun c h => ?_) (.nil stable_at hat fun _ h => h)
  refine ⟨{ c with cr := 0 }, ?_, ⟨rfl, h.keyed, h.page, h.busy, h.blocked⟩⟩
  simp [controller, access, writeCr, h.busy, h.cr, hlock]

lemma outline_unlock {I : Controller → Prop} (hI : ∀ c : Controller, c.page = page → I c) :
    Outline controller I (At flashCrLock false page) flashUnlock (At 0 false page) := by
  have hlocked : flashCrLock ≠ 0#32 := by decide
  refine .cons_of_done (R := At flashCrLock false page) stable_at (fun c h => hI c h.page)
    (fun c h => ⟨c, ?_, h⟩) ?_
  · simp [controller, access, writeCr, h.busy, h.cr, hlocked]
  refine .cons_of_done (R := At flashCrLock true page) stable_at (fun c h => hI c h.page)
    (fun c h => ⟨{ c with keyed := true }, ?_, ⟨h.cr, rfl, h.page, h.busy, h.blocked⟩⟩) ?_
  · simp [controller, access, writeKeyr, h.blocked, h.cr, h.keyed, flashCrLock]
  refine .cons_of_done stable_at (fun c h => hI c h.page)
    (fun c h => ⟨{ c with keyed := false, cr := 0 }, ?_, ⟨rfl, rfl, h.page, h.busy, h.blocked⟩⟩)
    (.nil stable_at (fun c h => hI c h.page) fun _ h => h)
  simp [controller, access, writeKeyr, h.blocked, h.cr, h.keyed, flashCrLock]

lemma outline_lock {I : Controller → Prop} (hI : ∀ c : Controller, c.page = page → I c) :
    Outline controller I (At 0 false page) flashLock (At flashCrLock false page) := by
  refine .cons_of_done stable_at (fun c h => hI c h.page)
    (fun c h => ⟨{ c with cr := flashCrLock }, ?_, ⟨rfl, h.keyed, h.page, h.busy, h.blocked⟩⟩)
    (.nil stable_at (fun c h => hI c h.page) fun _ h => h)
  have hstrt : flashCrLock &&& flashCrStrt = 0 := by decide
  simp [controller, access, writeCr, h.busy, h.cr, hstrt]

lemma outline_erasePage {I : Controller → Prop}
    (hI : ∀ c : Controller, c.page = page ∨ (c.page = fun _ => erased) → I c) :
    Outline controller I (At 0 false page) (flashErasePage flashConfigROMBegin)
      (At 0 false fun _ => erased) := by
  have hbefore : ∀ c : Controller, c.page = page → I c := fun c h => hI c (.inl h)
  have hstable : Stable controller (Working .erasePage (flashCrPer ||| flashCrStrt) flashCrPer page
      fun _ => erased) := by
    refine stable_working (by decide) fun c d _ hbusy hd => ?_
    simp only [complete, hbusy, Option.map_some, Option.some.injEq] at hd
    rw [← hd]
  refine outline_begin hbefore (by decide) ?_
  refine .cons_of_done (R := fun c => At flashCrPer false page c ∧ c.ar = flashConfigROMBegin)
    stable_at (fun c h => hbefore c h.page) (fun c h => ?_) ?_
  · exact ⟨{ c with ar := flashConfigROMBegin }, by simp [controller, access, h.busy],
      ⟨h.cr, h.keyed, h.page, h.busy, h.blocked⟩, rfl⟩
  refine .cons_of_done (fun c d h hd => ?_) (fun c h => hbefore c h.1.page) (fun c h => ?_)
    (outline_finish hI hstable (by decide))
  · simp [controller, complete, h.1.busy] at hd
  · refine ⟨{ c with cr := flashCrPer ||| flashCrStrt, busy := some .erasePage }, ?_,
      .inl ⟨rfl, h.1.keyed, h.1.page, rfl, h.1.blocked⟩⟩
    have hlock : flashCrPer &&& flashCrLock = 0 := by decide
    have hstrt : ¬ (flashCrPer ||| flashCrStrt) &&& flashCrStrt = 0#32 := by decide
    have hin : InPage flashConfigROMBegin := by decide
    simp [controller, access, writeCr, h.1.busy, h.1.cr, h.2, hlock, hstrt, hin]

lemma outline_programHalfWord {I : Controller → Prop} {address : ℕ} {data : UInt16}
    (hin : InPage address) (herased : page address = erased)
    (hI : ∀ c : Controller, c.page = page ∨ c.page = Function.update page address data → I c) :
    Outline controller I (At 0 false page) (flashProgramHalfWord address data)
      (At 0 false (Function.update page address data)) := by
  have hbefore : ∀ c : Controller, c.page = page → I c := fun c h => hI c (.inl h)
  have hstable : Stable controller (Working (.program address data) flashCrPg flashCrPg page
      (Function.update page address data)) := by
    refine stable_working (by decide) fun c d hpage hbusy hd => ?_
    simp only [complete, hbusy, Option.map_some, Option.some.injEq] at hd
    rw [← hd, ← hpage]
  refine outline_begin hbefore (by decide) ?_
  refine .cons_of_done stable_at (fun c h => hbefore c h.page) (fun c h => ?_)
    (outline_finish hI hstable (by decide))
  refine ⟨{ c with busy := some (.program address data) }, ?_,
    .inl ⟨h.cr, h.keyed, h.page, rfl, h.blocked⟩⟩
  simp [controller, access, writeHalfWord, h.busy, h.cr, h.page, hin, herased]

/-! ## The operations of a save -/

/-- The operation can be made on this page. -/
def Fits (page : Page) : Flash.Operation ℕ UInt16 → Prop
  | .erasePage => True
  | .program address _ => InPage address ∧ page address = erased

/-- A call has the effect of its operation, and no other. -/
lemma outline_call (hfits : Fits page operation) :
    Outline controller
      (fun c => c.page = page ∨ c.page = Flash.apply erased page operation)
      (At 0 false page) (callAccesses operation)
      (At 0 false (Flash.apply erased page operation)) := by
  cases operation with
  | erasePage => exact outline_erasePage fun _ h => h
  | program address data =>
    obtain ⟨hin, herased⟩ := hfits
    rw [Flash.apply, if_pos herased]
    exact outline_programHalfWord hin herased fun _ h => h

/-- Operations that fit, one after the other -/
lemma outline_calls (operations : List (Flash.Operation ℕ UInt16)) (page : Page)
    (hfits : ∀ before operation rest, operations = before ++ operation :: rest →
      Fits (Flash.run erased page before) operation) :
    Outline controller (fun c => ∃ k, c.page = Flash.run erased page (operations.take k))
      (At 0 false page) (operations.flatMap callAccesses)
      (At 0 false (Flash.run erased page operations)) := by
  refine Outline.flatMap (P := fun before => At 0 false (Flash.run erased page before)) operations
    stable_at (fun c h => ⟨operations.length, by rw [List.take_length, h.page]⟩) ?_
  intro before operation rest heq
  have hrun : Flash.run erased page (before ++ [operation]) =
      Flash.apply erased (Flash.run erased page before) operation := by
    rw [Flash.run, List.foldl_append]
    rfl
  rw [hrun]
  refine (outline_call (hfits before operation rest heq)).weaken fun c h => ?_
  rcases h with h | h
  · exact ⟨before.length, by rw [h, heq, List.take_left]⟩
  · refine ⟨before.length + 1, ?_⟩
    have hsplit : operations = (before ++ [operation]) ++ rest := by
      rw [heq, List.append_assoc, List.singleton_append]
    have hlength : (before ++ [operation]).length = before.length + 1 := List.length_append
    rw [h, ← hrun, hsplit, List.take_left' hlength]

section Saves
variable {t : ConfigTable} {ram : Ram}

lemma dataAddress_le_end (t : ConfigTable) (i : ℕ) : dataAddress t i ≤ flashConfigROMEnd := by
  have hmono : dataAddress t i ≤ dataAddress t (i + t.descriptors.length) :=
    dataAddress_mono (Nat.le_add_right _ _)
  have hall : dataAddress t (i + t.descriptors.length) = flashConfigROMBegin +
      sizeofRecord * (t.descriptors.length + 1) +
        (t.descriptors.map ConfigVariableDescriptor.actualLen).sum := by
    rw [dataAddress, List.take_of_length_le (Nat.le_add_left _ _)]
  have hfits := t.fits
  have hbegin : flashConfigROMBegin ≤ flashConfigROMEnd := by decide
  omega

/-- What is programmed is in the page. -/
lemma inPage_of_mem_blocks {cell : ℕ × UInt16} (h : cell ∈ (blocks t ram).flatten) :
    InPage cell.1 := by
  obtain ⟨cells, hcells, hcell⟩ := List.mem_flatten.mp h
  obtain ⟨i, hi⟩ := List.mem_iff_getElem?.mp hcells
  obtain ⟨hlen, hplace⟩ := mem_blocks hi (List.mem_map_of_mem hcell)
  have hend := dataAddress_le_end t (i + 1)
  have hfirst : dataAddress t 0 = flashConfigROMBegin + sizeofRecord * (t.descriptors.length + 1) := by
    simp [dataAddress]
  have hmono : dataAddress t 0 ≤ dataAddress t i := dataAddress_mono (Nat.zero_le i)
  have hend0 := dataAddress_le_end t 0
  unfold InPage
  simp only [recordAddress, sizeofRecord] at hplace hfirst
  omega

/-- Every operation of a save fits where it is made: what is programmed is erased. -/
lemma fits_update (page : Page) {before rest : List (Flash.Operation ℕ UInt16)}
    (h : configUpdateToFlash t page ram = before ++ operation :: rest) :
    Fits (Flash.run erased page before) operation := by
  cases hneeds : configNeedsUpdate t page ram with
  | false =>
    simp [configUpdateToFlash, hneeds] at h
  | true =>
    rw [configUpdateToFlash_of_needsUpdate hneeds] at h
    cases before with
    | nil =>
      rw [List.nil_append, List.cons.injEq] at h
      rw [← h.1]
      trivial
    | cons first before =>
      rw [List.cons_append, List.cons.injEq] at h
      obtain ⟨rfl, h⟩ := h
      -- the operations before it are the erasure and the half-words before it
      have htake : .erasePage :: before =
          (Flash.Operation.erasePage :: Flash.programs (blocks t ram).flatten).take
            (before.length + 1) := by
        rw [h, List.take_succ_cons, List.take_left]
      have hget : (Flash.programs (blocks t ram).flatten)[before.length]? = some operation := by
        rw [h, List.getElem?_append_right le_rfl, Nat.sub_self]
        rfl
      rw [Flash.programs, List.getElem?_map, Option.map_eq_some_iff] at hget
      obtain ⟨cell, hcell, rfl⟩ := hget
      refine ⟨inPage_of_mem_blocks (List.mem_of_getElem? hcell), ?_⟩
      rw [htake, Flash.cell_after_crash nodup_blocks hcell, if_neg (lt_irrefl _)]

/-- `config_updateToFlash` -/
lemma outline_update (t : ConfigTable) (page : Page) (ram : Ram) :
    Outline controller
      (fun c => ∃ k, c.page = Flash.run erased page ((configUpdateToFlash t page ram).take k))
      (At flashCrLock false page) (configUpdateAccesses t page ram)
      (At flashCrLock false (save t page ram)) := by
  have hzero : ∀ c : Controller, c.page = page →
      ∃ k, c.page = Flash.run erased page ((configUpdateToFlash t page ram).take k) :=
    fun c h => ⟨0, h⟩
  have hall : ∀ c : Controller, c.page = save t page ram →
      ∃ k, c.page = Flash.run erased page ((configUpdateToFlash t page ram).take k) :=
    fun c h => ⟨_, by rw [List.take_length, h, save]⟩
  rw [configUpdateAccesses]
  split_ifs with hneeds
  · exact ((outline_unlock hzero).append (outline_calls _ page fun _ _ _ => fits_update page)).append
      (outline_lock hall)
  · rw [Bool.not_eq_true] at hneeds
    rw [save_of_not_needsUpdate hneeds]
    exact .nil stable_at (fun c h => hzero c h.page) fun _ h => h

end Saves

/-! ## The system -/

section System
variable {t : ConfigTable} {s u : System} {a : Action}

/-- The controller is locked and has what was saved, or it is in the outline of a save. -/
def Inv (t : ConfigTable) (page : Page) (s : System) : Prop :=
  (s.todo = [] ∧ At flashCrLock false (savedPage t page s.saves) s.controller) ∨
  ∃ before ram P, s.saves = before ++ [ram] ∧
    Outline controller
      (fun c => ∃ k, c.page = Flash.run erased (savedPage t page before)
        ((configUpdateToFlash t (savedPage t page before) ram).take k))
      P s.todo (At flashCrLock false (savedPage t page s.saves)) ∧
    P s.controller

lemma savedPage_append (t : ConfigTable) (page : Page) (saves : List Ram) (ram : Ram) :
    savedPage t page (saves ++ [ram]) = save t (savedPage t page saves) ram := by
  simp [savedPage]

lemma Inv.at_rest (h : Inv t page s) (hrest : s.todo = []) :
    At flashCrLock false (savedPage t page s.saves) s.controller := by
  rcases h with ⟨-, hat⟩ | ⟨before, ram, P, -, houtline, hP⟩
  · exact hat
  · rw [hrest] at houtline
    exact houtline.post hP

lemma Inv.step (h : Inv t page s) (hu : step t s a = some u) : Inv t page u := by
  cases a with
  | update ram =>
    simp only [FlashRegisters.step, Option.ite_none_right_eq_some, Option.some.injEq] at hu
    obtain ⟨hrest, rfl⟩ := hu
    have hat := h.at_rest hrest
    refine .inr ⟨s.saves, ram, _, rfl, ?_, hat⟩
    rw [savedPage_append, hat.page]
    exact outline_update t _ ram
  | turn turn =>
    simp only [FlashRegisters.step, Option.map_eq_some_iff] at hu
    obtain ⟨r, hr, rfl⟩ := hu
    rcases h with ⟨hrest, hat⟩ | ⟨before, ram, P, hsaves, houtline, hP⟩
    · cases turn <;> simp [Devices.step, hrest, controller, complete, hat.busy] at hr
    · obtain ⟨P', houtline', hP'⟩ := houtline.step (s := (s.controller, s.todo)) hP hr
      exact .inr ⟨before, ram, P', hsaves, houtline', hP'⟩

/-- The steps of the program and of the controller are steps of the system. -/
lemma exec_turns {turns : List Turn} {r : Controller × List RegisterAccess}
    (h : exec (Devices.step controller) (s.controller, s.todo) turns = some r) :
    exec (step t) s (turns.map .turn) = some { s with controller := r.1, todo := r.2 } := by
  induction turns generalizing s with
  | nil =>
    simp only [exec_nil, Option.some.injEq] at h
    rw [← h]
    rfl
  | cons turn turns ih =>
    obtain ⟨q, hq, hrest⟩ := (exec_cons_eq_some _).mp h
    refine (exec_cons_eq_some _).mpr ⟨{ s with controller := q.1, todo := q.2 }, ?_, ih hrest⟩
    simp [step, hq]

lemma complete_of_busy (h : c.busy = some operation) : ∃ d, complete c = some d ∧ d.busy = none := by
  rw [complete, h]
  exact ⟨_, rfl, rfl⟩

/-- The loop of `flash_wait_for_last_operation` waits for what the controller does. -/
lemma access_waits (c : Controller) (a : RegisterAccess) (h : controller.access c a = .again) :
    ∃ d, controller.tick c = some d ∧ controller.access d a ≠ .again := by
  cases a with
  | waitForLastOperation =>
    cases hbusy : c.busy with
    | none => simp [controller, access, hbusy] at h
    | some operation =>
      obtain ⟨d, hd, hidle⟩ := complete_of_busy hbusy
      exact ⟨d, hd, by simp [controller, access, hidle]⟩
  | setCr bits =>
    simp only [controller, access, writeCr] at h
    split_ifs at h
  | clearCr bits =>
    simp only [controller, access, writeCr] at h
    split_ifs at h
  | keyr key =>
    simp only [controller, access, writeKeyr] at h
    split_ifs at h
  | ar address =>
    simp only [controller, access] at h
    split_ifs at h
  | halfWord address data =>
    simp only [controller, access, writeHalfWord] at h
    split_ifs at h
  | clearEop =>
    simp only [controller, access] at h
    split_ifs at h

/-- The driver does what the flash operations say. However long erasing and programming take, and
whatever was in the page: the controller allows every access of every call of `config_updateToFlash`;
when none runs the controller is locked, and in the page is what the completed saves have left; while
one runs, what is in the page is at any time the page after some of its flash operations; and it can
always come to its end. -/
theorem registers_refine_saves (t : ConfigTable) (page : Page) {as : List Action}
    (h : exec (step t) (start page) as = some s) :
    ¬ Faults controller (s.controller, s.todo) ∧
    (s.todo = [] → s.controller.cr = flashCrLock ∧
      s.controller.page = savedPage t page s.saves) ∧
    (∀ before ram, s.saves = before ++ [ram] → ∃ k, s.controller.page =
      Flash.run erased (savedPage t page before)
        ((configUpdateToFlash t (savedPage t page before) ram).take k)) ∧
    ∃ (turns : List Turn) (u : System),
      exec (step t) s (turns.map .turn) = some u ∧ u.todo = [] := by
  have hstart : Inv t page (start page) := .inl ⟨rfl, rfl, rfl, rfl, rfl, rfl⟩
  have hinv : Inv t page s := exec_induction (step t) (fun _ _ _ hs hstep => hs.step hstep) hstart h
  refine ⟨?_, fun hrest => ⟨(hinv.at_rest hrest).cr, (hinv.at_rest hrest).page⟩, ?_, ?_⟩
  · rintro ⟨a, hhead, hfault⟩
    rcases hinv with ⟨hrest, -⟩ | ⟨before, ram, P, -, houtline, hP⟩
    · simp [hrest] at hhead
    · exact houtline.not_faults hP ⟨a, hhead, hfault⟩
  · intro before ram hsaves
    rcases hinv with ⟨-, hat⟩ | ⟨before', ram', P, hsaves', houtline, hP⟩
    · refine ⟨(configUpdateToFlash t (savedPage t page before) ram).length, ?_⟩
      rw [List.take_length, hat.page, hsaves, savedPage_append, save]
    · obtain ⟨rfl, hram⟩ := List.append_inj' (hsaves'.symm.trans hsaves) rfl
      obtain rfl : ram' = ram := List.singleton_inj.mp hram
      exact houtline.implies _ hP
  · rcases hinv with ⟨hrest, -⟩ | ⟨before, ram, P, -, houtline, hP⟩
    · exact ⟨[], s, rfl, hrest⟩
    · obtain ⟨turns, c, hc⟩ := houtline.completes access_waits hP
      exact ⟨turns, _, exec_turns hc, rfl⟩

/-- The turns of a call of `flash_program_half_word` -/
def programTurns : List Turn :=
  [.program, .program, .program, .device, .program, .program, .program]

/-- Those of a save of two thresholds. It waits for the erasure for two turns. -/
def saveTurns : List Turn :=
  List.replicate 9 .program ++ .device :: List.replicate 3 .program ++
    (List.replicate 16 programTurns).flatten ++ [.program]

def saveOnce : List Action := .update (thresholds 800 1200) :: saveTurns.map .turn

theorem registers_refine_saves_once :
    ∃ s, exec (step powerboardTable) (start fun _ => 0) saveOnce = some s ∧
      s.controller.cr = flashCrLock ∧
      s.controller.page = savedPage powerboardTable (fun _ => 0) s.saves := by
  have hrun : (exec (step powerboardTable) (start fun _ => 0) saveOnce).map (·.todo.isEmpty) =
      some true := by decide +kernel
  obtain ⟨s, hs, hrest⟩ := Option.map_eq_some_iff.mp hrun
  exact ⟨s, hs, (registers_refine_saves powerboardTable _ hs).2.1 (List.isEmpty_iff.mp hrest)⟩

end System

end Powerboard.FlashRegisters
