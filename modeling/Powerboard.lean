import Powerboard.Library.Bytes
import Powerboard.Configuration.CrashTheorems
import Powerboard.Library.RingBuffer
import Powerboard.Measuring.CalibrationTheorems
import Powerboard.Measuring.RoundTheorems
import Powerboard.MsgPump.DeliveryTheorems
import Powerboard.MsgPump.QueueTheorems
import Powerboard.MsgPump.UnlockTheorems
import Powerboard.Protocol.FalseStartTheorems
import Powerboard.Protocol.ResyncTheorems
import Powerboard.Protocol.PacketBuffersTheorems
import Powerboard.Protocol.SendersTheorems
import Powerboard.Protocol.ChunksTheorems
import Powerboard.Protocol.MessageMap
import Powerboard.Protocol.MessageMapTheorems
import Powerboard.Library.Sweep
import Powerboard.SwTimer.ArmedTheorems
import Powerboard.SwTimer.NeverEarlyTheorems
import Powerboard.SwTimer.OneTimerTheorems
import Powerboard.SwTimer.IntervalTheorems
import Powerboard.SwTimer.HwTimer
import Powerboard.SwTimer.HwTimerTheorems
import Powerboard.Communication.Communication
import Powerboard.Communication.CommunicationTheorems
import Powerboard.Communication.Reception
import Powerboard.Communication.ReceptionTheorems
import Powerboard.MsgPump.Callbacks
import Powerboard.MsgPump.CallbacksTheorems
import Powerboard.MsgPump.IdTheorems
import Powerboard.MsgPump.NullTheorems
import Powerboard.Protocol.Dispatcher
import Powerboard.Protocol.MsgProxy
import Powerboard.Protocol.MsgProxyTheorems
import Powerboard.Protocol.Commands
import Powerboard.Protocol.CommandsTheorems
import Powerboard.Library.Checked
import Powerboard.Measuring.Exact
import Powerboard.Measuring.ExactTheorems
import Powerboard.PowerCheck.PowerCheck
import Powerboard.PowerCheck.PowerCheckTheorems
import Powerboard.PowerCheck.ExactTheorems
import Powerboard.PowerCheck.Distribution
import Powerboard.PowerCheck.DistributionTheorems
import Powerboard.Library.Calls
import Powerboard.Library.Registers
import Powerboard.GpioInterrupts.GpioInterrupts
import Powerboard.GpioInterrupts.GpioInterruptsTheorems
import Powerboard.Fifo.Fifo
import Powerboard.Fifo.FifoTheorems
import Powerboard.System.SystemTheorems
import Powerboard.MsgPump.MemoryTheorems
import Powerboard.Gpio.GpioTheorems
import Powerboard.MotorPwr.MotorPwrTheorems
import Powerboard.PowerCheck.Limits
import Powerboard.PowerCheck.LimitsTheorems
import Powerboard.Library.Devices
import Powerboard.Configuration.FlashRegisters
import Powerboard.Configuration.FlashRegistersTheorems
import Powerboard.Init.SystemInitializer
import Powerboard.Init.SystemInitializerTheorems
import Powerboard.Library.Sampling
import Powerboard.Application.Application
import Powerboard.Application.DeliveriesTheorems
import Powerboard.Application.ApplicationTheorems
import Powerboard.Application.RegistrationTheorems
import Powerboard.Application.RunTheorems
import Powerboard.Application.Measurements
import Powerboard.Application.ClientsTheorems
import Powerboard.Application.MeasurementsTheorems
import Powerboard.Application.ConversionsTheorems
import Powerboard.Application.PowerStatesTheorems
import Powerboard.Link.Link
import Powerboard.Link.FollowingTheorems
import Powerboard.Link.LinkTheorems
