import Powerboard.Configuration.Configuration
import Powerboard.Library.Machine
import Powerboard.PowerCheck.PowerCheck
import Powerboard.Protocol.Commands
import Powerboard.Protocol.Send

/-!
# The thresholds of the board

The two thresholds of `powerCheck.c` from one start of the board to the next: `configuration_init`
reads them from the flash memory, two endpoints set them and save them, a third one replies with them,
and each measurement is compared with the low one. Every flash operation of a save is a step, so that
the power can be lost between any two.
-/

namespace Powerboard.PowerCheck

open Bytes Configuration GenericProtocol Measuring

/-! ## The configuration variables -/

/-- `g_lowThresh` and `g_highThresh` -/
inductive Threshold
  | low
  | high
  deriving DecidableEq

def Globals.threshold (g : Globals) : Threshold → UInt32
  | .low => g.lowThresh
  | .high => g.highThresh

/-- Its default value -/
def Threshold.default (th : Threshold) : UInt32 := defaultThresholds.threshold th

/-- Its address, at some place of the RAM -/
def Threshold.dataPtr : Threshold → ℕ
  | low => 0x20000400
  | high => 0x20000404

/-- What `CONFIG_VARIABLE` makes of it. -/
def Threshold.descriptor (th : Threshold) : ConfigVariableDescriptor :=
  voltageDescriptor th.dataPtr th.default

/-- A table of descriptors with both, in the order the linker has put them. No variable is at an odd
address, so that every save returns. -/
structure Layout where
  table : ConfigTable
  even : table.Even
  index : Threshold → ℕ
  index_ne : index .low ≠ index .high
  descriptor : ∀ th, table.descriptors[index th]? = some th.descriptor

/-- The word that a variable of a table has in the RAM. -/
def Layout.wordIn (l : Layout) (ram : Ram) (th : Threshold) : UInt32 :=
  readWord (th.descriptor.valueIn (ram (l.index th))) 0

def Layout.thresholdsIn (l : Layout) (ram : Ram) : Globals :=
  { lowThresh := l.wordIn ram .low, highThresh := l.wordIn ram .high }

/-- The RAM with these thresholds, and with what else there is in it. -/
def Layout.ramOf (l : Layout) (g : Globals) (others : Ram) : Ram := fun i k =>
  if i = l.index .low then (ofWord g.lowThresh).getD k (others i k)
  else if i = l.index .high then (ofWord g.highThresh).getD k (others i k)
  else others i k

/-- The thresholds that `config_readFromFlash` would read from the page. -/
def Layout.stored (l : Layout) (page : Page) (th : Threshold) : UInt32 :=
  readWord (l.table.readVariable page (l.index th) th.descriptor) 0

/-! ## The endpoints -/

/-- The addresses of the endpoints -/
def masterOffAddress : ApplicationCallback := 1
def getLimitsEndointAddress : ApplicationCallback := 2
def setUpperVoltageEndointAddress : ApplicationCallback := 3
def setLowerVoltageEndointAddress : ApplicationCallback := 4

/-- The endpoints of `powerCheck.c` -/
def endpoints : List EndpointHandle :=
  [ { endpointIdentifier := 103, callback := setLowerVoltageEndointAddress },
    { endpointIdentifier := 102, callback := setUpperVoltageEndointAddress },
    { endpointIdentifier := 101, callback := getLimitsEndointAddress },
    { endpointIdentifier := 100, callback := masterOffAddress } ]

/-- The command in a packet, if there is an endpoint with its id: what the dispatcher calls. -/
def commandOf (packet : Packet) : Option Command :=
  (endpoints.find? fun iter => packet.subProtocolID = iter.endpointIdentifier).map fun iter =>
    { callback := iter.callback
      payload := packet.payload
      packetLen := packet.payloadLen
      interface := packet.interface }

/-- `reply` of `getLimitsEndoint`, whose elements are `uint16_t`. -/
def limitsReply (g : Globals) : List UInt8 :=
  ofHalfWord g.lowThresh.toUInt16 ++ ofHalfWord g.highThresh.toUInt16

/-! ## The board -/

inductive Power
  | off
  | running
  /-- in the endless loop of `switchAllOff`, with `PWR_ENABLE_PIN` low -/
  | switchedOff
  deriving DecidableEq

structure Board where
  /-- the configuration page of the flash memory -/
  page : Page
  power : Power
  thresholds : Globals
  /-- the other configuration variables, and what is around -/
  others : Ram
  /-- the flash operations that a running `config_updateToFlash` has still to make -/
  updating : List (Flash.Operation ℕ UInt16)
  /-- the calls of endpoints so far -/
  commands : List Command
  /-- the bytes sent so far -/
  sent : List UInt8

section Functions
variable (l : Layout) (s : Board)

/-- `config_updateToFlash` is called. -/
def Board.update (g : Globals) : Board :=
  { s with
    thresholds := g
    updating := configUpdateToFlash l.table s.page (l.ramOf g s.others) }

/-- The endpoint with this address -/
def callEndpoint (c : Command) : Board :=
  if c.callback = setLowerVoltageEndointAddress then
    let r := setLowerVoltageEndoint s.thresholds c.payload c.packetLen
    if r.2 then s.update l r.1 else s
  else if c.callback = setUpperVoltageEndointAddress then
    let r := setUpperVoltageEndoint s.thresholds c.payload c.packetLen
    if r.2 then s.update l r.1 else s
  else if c.callback = getLimitsEndointAddress then
    -- no frame is open when an endpoint is called
    { s with sent := s.sent ++
        sendMessage (fun _ => .zeroed) c.interface 100 (limitsReply s.thresholds) }
  else if c.callback = masterOffAddress then
    if c.packetLen > 0 ∧ c.payload.getD 0 0 ≠ 0 then { s with power := .switchedOff } else s
  else s

inductive BoardAction
  /-- the power comes on, with this in the RAM, and `configuration_init` runs -/
  | start (ram : Ram)
  /-- the next flash operation -/
  | flash
  | powerLoss
  /-- the dispatcher gets a packet -/
  | packet (packet : Packet)
  /-- `onNewPwrMeasurement` gets a message -/
  | measurement (buf : List UInt8)

/-- The main program is in its loop. -/
def Board.Idle : Prop := s.power = .running ∧ s.updating = []

instance : Decidable s.Idle := inferInstanceAs (Decidable (_ ∧ _))

def boardStep : BoardAction → Option Board
  | .start ram =>
    if s.power = .off then
      let ram := ramAfterRead l.table s.page ram
      some { s with
        power := .running
        thresholds := l.thresholdsIn ram
        others := ram
        updating := configUpdateToFlash l.table s.page ram }
    else none
  | .flash =>
    match s.updating with
    | [] => none
    | operation :: rest =>
      some { s with page := Flash.apply erased s.page operation, updating := rest }
  | .powerLoss =>
    if s.power = .off then none else some { s with power := .off, updating := [] }
  | .packet packet =>
    if s.Idle then
      match commandOf packet with
      | some c => some (callEndpoint l { s with commands := s.commands ++ [c] } c)
      | none => some s
    else none
  | .measurement buf =>
    if s.Idle then
      match onNewPwrMeasurement s.thresholds buf with
      | .switchAllOff => some { s with power := .switchedOff }
      | .post _ _ => some s
    else none

end Functions

/-- A board that was never started, with an erased page -/
def newBoard : Board where
  page := fun _ => erased
  power := .off
  thresholds := { lowThresh := 0, highThresh := 0 }
  others := fun _ _ => 0
  updating := []
  commands := []
  sent := []

/-! ## What should hold -/

/-- The endpoint that sets it -/
def Threshold.endpoint : Threshold → ApplicationCallback
  | .low => setLowerVoltageEndointAddress
  | .high => setUpperVoltageEndointAddress

/-- The value that a command gives the threshold -/
def Threshold.setBy (th : Threshold) (c : Command) : Option UInt32 :=
  if c.callback = th.endpoint ∧ c.packetLen = 2 then some (rawDataAt c.payload 0).toUInt32 else none

/-- The value that was set last, or the default -/
def Threshold.lastSet (th : Threshold) (commands : List Command) : UInt32 :=
  (commands.filterMap th.setBy).getLast?.getD th.default

/-- The default value, or one that was set. -/
def Threshold.Genuine (th : Threshold) (commands : List Command) (w : UInt32) : Prop :=
  w = th.default ∨ w ∈ commands.filterMap th.setBy

/-- The next start reads genuine thresholds. -/
def StoredGenuine (l : Layout) (s : Board) : Prop :=
  ∀ th : Threshold, th.Genuine s.commands (l.stored s.page th)

/-- The page is erased, the record of the threshold is complete, and its data is not. -/
def DataPending (l : Layout) (s : Board) (th : Threshold) : Prop :=
  .erasePage ∉ s.updating ∧
    ∃ ptr, getRecordDataPtr s.page (l.table.descriptorPtr (l.index th)) = .configMemory ptr ∧
      ∃ k < 2, ∃ v, .program (ptr + 2 * k) v ∈ s.updating

/-- The power is not lost while the data of a threshold is pending. -/
def LosesOutsideData (l : Layout) (s : Board) : BoardAction → Prop
  | .powerLoss => ∀ th, ¬ DataPending l s th
  | _ => True

/-- The power is not lost in a save. -/
def LosesAtRest (s : Board) : BoardAction → Prop
  | .powerLoss => s.updating = []
  | _ => True

/-- No threshold is set. -/
def SetsNothing : BoardAction → Prop
  | .packet packet =>
    (commandOf packet).bind Threshold.low.setBy = none ∧
      (commandOf packet).bind Threshold.high.setBy = none
  | _ => True

instance (s : Board) : ∀ a, Decidable (LosesAtRest s a)
  | .powerLoss => inferInstanceAs (Decidable (s.updating = []))
  | .start _ | .flash | .packet _ | .measurement _ => isTrue trivial

instance : ∀ a, Decidable (SetsNothing a)
  | .packet _ => inferInstanceAs (Decidable (_ ∧ _))
  | .start _ | .flash | .powerLoss | .measurement _ => isTrue trivial

end Powerboard.PowerCheck
