import AnalogX.Foundations.Runs
import AnalogX.Foundations.Registers
import AnalogX.Foundations.Buffers
import AnalogX.Foundations.Numerals
import AnalogX.Foundations.Periodic
import AnalogX.Foundations.DeltaList
import AnalogX.Foundations.Ring
import AnalogX.Kernel.SystemTime
import AnalogX.Kernel.VirtualTimers
import AnalogX.Kernel.TimerService
import AnalogX.Kernel.ServiceTimes
import AnalogX.Kernel.Queues
import AnalogX.Kernel.Events
import AnalogX.Kernel.Scheduler
import AnalogX.Can.Frame
import AnalogX.Hal.CanTransmit
import AnalogX.Hal.SerialPort
import AnalogX.Hal.SharedConsole
import AnalogX.Hal.AdcDriver
import AnalogX.Firmware.State
import AnalogX.Firmware.Api
import AnalogX.Firmware.Logging
import AnalogX.Firmware.Dispatch
import AnalogX.Firmware.Serial
import AnalogX.Firmware.Timestamps
import AnalogX.Hal.Printf
import AnalogX.Hal.Format
import AnalogX.Firmware.Console
import AnalogX.Can.Worker
import AnalogX.Can.WorkerRuns
import AnalogX.Can.PayloadReads
import AnalogX.Can.ReceivePath
import AnalogX.Can.ReceiveEvents
import AnalogX.Adc.Timing
import AnalogX.Adc.CycleTimes
import AnalogX.Adc.Sampling
import AnalogX.Adc.DrivenSampling
import AnalogX.Adc.SensorFrame
import AnalogX.Adc.Rate
import AnalogX.Device.Model
import AnalogX.Device.Invariant
import AnalogX.Device.Components
import AnalogX.Device.SampleRate
import AnalogX.Device.Transmissions
import AnalogX.Device.MainLoop
import AnalogX.Device.Console
import AnalogX.Bus.Isolation
import AnalogX.Util.Numtoa
import AnalogX.Util.Decimals
