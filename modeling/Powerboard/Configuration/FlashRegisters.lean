import Powerboard.Configuration.Configuration
import Powerboard.Library.Devices

/-!
# The registers of the flash memory

`flash.c` and `flash_common_f01.c`: `config_updateToFlash` down to its accesses to the registers of
the flash controller. The controller is a device of its own: it is locked after reset, an erasure or a
programming takes it some time, and it does not allow accesses that would disturb a running one. Every
half-word of the data can be read, as it can with all variables at even addresses.
-/

namespace Powerboard.FlashRegisters

open Configuration Devices

/-! ## The controller -/

/-- `FLASH_CR_PG` -/
def flashCrPg : BitVec 32 := 1#32 <<< 0

/-- `FLASH_CR_PER` -/
def flashCrPer : BitVec 32 := 1#32 <<< 1

/-- `FLASH_CR_STRT` -/
def flashCrStrt : BitVec 32 := 1#32 <<< 6

/-- `FLASH_CR_LOCK` -/
def flashCrLock : BitVec 32 := 1#32 <<< 7

/-- `FLASH_SR_PGERR` -/
def flashSrPgerr : BitVec 32 := 1#32 <<< 2

/-- `FLASH_SR_EOP` -/
def flashSrEop : BitVec 32 := 1#32 <<< 5

/-- `FLASH_KEYR_KEY1` -/
def flashKeyrKey1 : BitVec 32 := 0x45670123#32

/-- `FLASH_KEYR_KEY2` -/
def flashKeyrKey2 : BitVec 32 := 0xcdef89ab#32

structure Controller where
  /-- `FLASH_CR` -/
  cr : BitVec 32
  /-- `FLASH_SR` without `FLASH_SR_BSY` -/
  sr : BitVec 32
  /-- `FLASH_AR` -/
  ar : ℕ
  /-- `FLASH_KEYR` got the first key -/
  keyed : Bool
  /-- `FLASH_KEYR` got a wrong key: it stays locked until the next reset -/
  blocked : Bool
  /-- what it is busy with -/
  busy : Option (Flash.Operation ℕ UInt16)
  /-- the configuration page -/
  page : Page

/-- A place in the configuration page -/
def InPage (address : ℕ) : Prop := flashConfigROMBegin ≤ address ∧ address < flashConfigROMEnd

instance : DecidablePred InPage := fun _ => inferInstanceAs (Decidable (_ ∧ _))

/-- A write to `FLASH_CR`. It has no effect while the controller is locked. What would erase anything
but the configuration page is not allowed. -/
def writeCr (c : Controller) (v : BitVec 32) : Access Controller :=
  if c.busy ≠ none then .fault
  else if c.cr &&& flashCrLock ≠ 0 then .done c
  else if v &&& flashCrStrt = 0 then .done { c with cr := v }
  else if v = flashCrPer ||| flashCrStrt ∧ InPage c.ar then
    .done { c with cr := v, busy := some .erasePage }
  else .fault

/-- A write to `FLASH_KEYR` -/
def writeKeyr (c : Controller) (key : BitVec 32) : Access Controller :=
  if c.blocked ∨ c.cr &&& flashCrLock = 0 then .fault
  else if c.keyed then
    if key = flashKeyrKey2 then .done { c with keyed := false, cr := c.cr &&& ~~~flashCrLock }
    else .done { c with blocked := true }
  else if key = flashKeyrKey1 then .done { c with keyed := true }
  else .done { c with blocked := true }

/-- A write to the flash memory. A half-word that is not erased cannot be programmed, but with 0. -/
def writeHalfWord (c : Controller) (address : ℕ) (data : UInt16) : Access Controller :=
  if c.busy ≠ none ∨ c.cr ≠ flashCrPg ∨ ¬ InPage address then .fault
  else if c.page address = erased ∨ data = 0 then
    .done { c with busy := some (.program address data) }
  else .done { c with sr := c.sr ||| flashSrPgerr }

/-- An access of the program -/
inductive RegisterAccess
  /-- `FLASH_CR |= bits` -/
  | setCr (bits : BitVec 32)
  /-- `FLASH_CR &= ~bits` -/
  | clearCr (bits : BitVec 32)
  /-- `FLASH_KEYR = key` -/
  | keyr (key : BitVec 32)
  /-- `FLASH_AR = address` -/
  | ar (address : ℕ)
  /-- `MMIO16(address) = data` -/
  | halfWord (address : ℕ) (data : UInt16)
  /-- a turn of the loop of `flash_wait_for_last_operation` -/
  | waitForLastOperation
  /-- `if (FLASH_SR & FLASH_SR_EOP) FLASH_SR |= FLASH_SR_EOP` -/
  | clearEop

/-- The flags of `FLASH_SR` are cleared by writing ones. -/
def access (c : Controller) : RegisterAccess → Access Controller
  | .setCr bits => writeCr c (c.cr ||| bits)
  | .clearCr bits => writeCr c (c.cr &&& ~~~bits)
  | .keyr key => writeKeyr c key
  | .ar address => if c.busy ≠ none then .fault else .done { c with ar := address }
  | .halfWord address data => writeHalfWord c address data
  | .waitForLastOperation => if c.busy ≠ none then .again else .done c
  | .clearEop =>
    if c.sr &&& flashSrEop ≠ 0 then .done { c with sr := c.sr &&& ~~~(c.sr ||| flashSrEop) }
    else .done c

/-- The controller is through with what it was busy with. -/
def complete (c : Controller) : Option Controller :=
  c.busy.map fun operation =>
    { c with
      page :=
        match operation with
        | .erasePage => fun _ => erased
        | .program address data => Function.update c.page address data
      busy := none
      cr := c.cr &&& ~~~flashCrStrt
      sr := c.sr ||| flashSrEop }

def controller : Device Controller RegisterAccess where
  access := access
  tick := complete

/-! ## The functions -/

/-- `flash_unlock` -/
def flashUnlock : List RegisterAccess :=
  [.setCr flashCrLock, .keyr flashKeyrKey1, .keyr flashKeyrKey2]

/-- `flash_lock` -/
def flashLock : List RegisterAccess := [.setCr flashCrLock]

/-- `flash_erase_page` -/
def flashErasePage (pageAddress : ℕ) : List RegisterAccess :=
  [.waitForLastOperation, .setCr flashCrPer, .ar pageAddress, .setCr flashCrStrt,
    .waitForLastOperation, .clearEop, .clearCr flashCrPer]

/-- `flash_program_half_word` -/
def flashProgramHalfWord (address : ℕ) (data : UInt16) : List RegisterAccess :=
  [.waitForLastOperation, .setCr flashCrPg, .halfWord address data, .waitForLastOperation,
    .clearEop, .clearCr flashCrPg]

/-- A call of `flash_erase_page` with `FLASH_CONFIG_START_ADDR`, or of `flash_program_half_word` -/
def callAccesses : Flash.Operation ℕ UInt16 → List RegisterAccess
  | .erasePage => flashErasePage flashConfigROMBegin
  | .program address data => flashProgramHalfWord address data

/-- `config_updateToFlash` -/
def configUpdateAccesses (t : ConfigTable) (page : Page) (ram : Ram) : List RegisterAccess :=
  if configNeedsUpdate t page ram then
    flashUnlock ++ (configUpdateToFlash t page ram).flatMap callAccesses ++ flashLock
  else []

/-! ## The system -/

structure System where
  controller : Controller
  /-- the accesses that the running `config_updateToFlash` has still to make -/
  todo : List RegisterAccess
  /-- what was in the RAM at each call of `config_updateToFlash` so far -/
  saves : List Ram

inductive Action
  /-- `config_updateToFlash` is called -/
  | update (ram : Ram)
  /-- the next access, or the controller is through -/
  | turn (turn : Turn)

def step (t : ConfigTable) (s : System) : Action → Option System
  | .update ram =>
    if s.todo = [] then
      some { s with
        todo := configUpdateAccesses t s.controller.page ram
        saves := s.saves ++ [ram] }
    else none
  | .turn turn =>
    (Devices.step controller (s.controller, s.todo) turn).map fun r =>
      { s with controller := r.1, todo := r.2 }

/-- After reset, with this in the page -/
def start (page : Page) : System where
  controller :=
    { cr := flashCrLock, sr := 0, ar := 0, keyed := false, blocked := false, busy := none
      page := page }
  todo := []
  saves := []

/-- The page after completed saves -/
def savedPage (t : ConfigTable) (page : Page) (saves : List Ram) : Page := saves.foldl (save t) page

end Powerboard.FlashRegisters
