import Powerboard.MsgPump.Pump

/-!
# The buffer pools of the power board

The `MSG_PUMP_DECLARE_MESSAGE_BUFFER_POOL` lines of the firmware, each with the size of its message
type rounded up to a multiple of 4 and the number of its elements.
-/

namespace Powerboard.MsgPump

/-- `MSG_ID_GENERIC_PROTOCOL_PACKET_READY` -/
def msgIdGenericProtocolPacketReady : MsgId := -1

/-- `MSG_ID_RELATIVE_BATTERY_VOLTAGE` -/
def msgIdRelativeBatteryVoltage : MsgId := 0

/-- `MSG_ID_SYSTEM_POWER_STATE` -/
def msgIdSystemPowerState : MsgId := 1

/-- `MSG_ID_USER_MOTOR_SWITCH` -/
def msgIdUserMotorSwitch : MsgId := 2

/-- `MSG_ID_VOLTAGE_RAW` -/
def msgIdVoltageRaw : MsgId := 3

/-- `MSG_ID_VOLTAGE_CALIBRATION` -/
def msgIdVoltageCalibration : MsgId := 4

/-- `MSG_ID_SYSTEM_POWER_STATE_OUT` -/
def msgIdSystemPowerStateOut : MsgId := 5

/-- `MSG_ID_RELATIVE_BATTERY_VOLTAGE_OUT` -/
def msgIdRelativeBatteryVoltageOut : MsgId := 6

/-- The pool declared for messages of this size. -/
def declarePool (sizeofMessageType bufferSize : ℕ) (messageID : MsgId)
    (h : 0 < sizeofMessageType) : BufDescription :=
  { msgSize := (sizeofMessageType + 3) / 4 * 4
    msgAmount := bufferSize
    id := messageID
    msgSize_pos := by omega }

/-- The types of the messages -/
inductive MessageType
  | genericProtocollPacket
  | batteryVoltageLevel
  | systemPowerState
  | uint32
  | voltageMeasurementsRaw
  | relativeBatteryLevel

namespace MessageType

/-- Their sizes -/
def sizeof : MessageType → ℕ
  | genericProtocollPacket => 132
  | batteryVoltageLevel | uint32 => 4
  | systemPowerState => 20
  | voltageMeasurementsRaw => 200
  | relativeBatteryLevel => 1

lemma sizeof_pos (messageType : MessageType) : 0 < messageType.sizeof := by
  cases messageType <;> decide

/-- `MSG_PUMP_DECLARE_MESSAGE_BUFFER_POOL` -/
def pool (messageType : MessageType) (bufferSize : ℕ) (messageID : MsgId) : BufDescription :=
  declarePool messageType.sizeof bufferSize messageID messageType.sizeof_pos

end MessageType

/-- The section `.msgPumpDescriptions`. -/
def msgPumpDescriptions : List BufDescription :=
  [ MessageType.genericProtocollPacket.pool 20 msgIdGenericProtocolPacketReady,
    MessageType.batteryVoltageLevel.pool 2 msgIdRelativeBatteryVoltage,
    MessageType.systemPowerState.pool 2 msgIdSystemPowerState,
    MessageType.uint32.pool 2 msgIdUserMotorSwitch,
    MessageType.voltageMeasurementsRaw.pool 2 msgIdVoltageRaw,
    MessageType.voltageMeasurementsRaw.pool 1 msgIdVoltageCalibration,
    MessageType.systemPowerState.pool 2 msgIdSystemPowerStateOut,
    MessageType.relativeBatteryLevel.pool 2 msgIdRelativeBatteryVoltageOut ]

/-- `g_messageBuffers` of the power board. -/
def firmware : BufTable where
  messageBuffers id := msgPumpDescriptions.find? fun d => d.id = id
  id_eq := by
    intro id d h
    simpa using List.find?_some h
  id_range := by
    intro id d h
    have hid : d.id = id := by simpa using List.find?_some h
    have hall : ∀ d ∈ msgPumpDescriptions, systemFirstId ≤ d.id ∧ d.id < lastId := by decide
    rw [← hid]
    exact hall d (List.mem_of_find?_eq_some h)

end Powerboard.MsgPump
