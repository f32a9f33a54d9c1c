import TelinkSdk.Nor.Memory
import TelinkSdk.Nor.Program
import TelinkSdk.Drivers.Flash
import TelinkSdk.Drivers.Nv
import TelinkSdk.Drivers.NvSector
import TelinkSdk.Drivers.NvSearch
import TelinkSdk.Drivers.NvModule
import TelinkSdk.Drivers.NvRead
import TelinkSdk.Nor.Triple
import TelinkSdk.Drivers.NvItem
import TelinkSdk.Drivers.NvRollover
import TelinkSdk.Drivers.NvWrite
import TelinkSdk.Drivers.NvCall
import TelinkSdk.Drivers.NvAtomicity
import TelinkSdk.Drivers.NvRefinement
import TelinkSdk.Drivers.NvDurability
import TelinkSdk.Drivers.NvGeometry
import TelinkSdk.Drivers.FrameCount
import TelinkSdk.Drivers.FrameCountRun
import TelinkSdk.Drivers.NvReset
import TelinkSdk.Drivers.NvConfined
import TelinkSdk.Drivers.NvIsolation
import TelinkSdk.Drivers.FactoryReset
import TelinkSdk.Ota.Client
import TelinkSdk.Ota.Session
import TelinkSdk.Ota.NewSlot
import TelinkSdk.Ota.BootSlot
import TelinkSdk.Ota.Server
import TelinkSdk.Ota.Transfer
import TelinkSdk.Ota.Independence
import TelinkSdk.Platform.FlashPage
import TelinkSdk.Mac.PibAccess
import TelinkSdk.Mac.SecTables
import TelinkSdk.Demo.AssociateDev
import TelinkSdk.Demo.AssociateCoor
import TelinkSdk.Os.Queue
import TelinkSdk.Os.BufferPool
import TelinkSdk.Os.TimerPass
import TelinkSdk.FlashProtect
import TelinkSdk.Nor.Page
import TelinkSdk.Mac.SecLists
import TelinkSdk.Mac.Phy
import TelinkSdk.Mac.RxOwnership
import TelinkSdk.Nor.Skips
import TelinkSdk.Drivers.NvTruth
import TelinkSdk.Drivers.NvSingle
import TelinkSdk.Drivers.Pm
import TelinkSdk.Drivers.NvChecksum
import TelinkSdk.Drivers.NvCompaction
import TelinkSdk.Drivers.NvLive
import TelinkSdk.Os.TimerData
import TelinkSdk.Os.TimerOnce
import TelinkSdk.Os.TimerClock
import TelinkSdk.Os.TimerDriven
import TelinkSdk.Os.TimerAccuracy
import TelinkSdk.Os.TimerRearm
import TelinkSdk.Drivers.PmNearest
import TelinkSdk.Drivers.PmSleep
import TelinkSdk.Hci.UsbCdc
import TelinkSdk.Hci.UsbCdcOrder
import TelinkSdk.Crc.Reflected
import TelinkSdk.Ota.CrcBitwise
import TelinkSdk.Os.BufferHistory
import TelinkSdk.Os.BufferSizes
import TelinkSdk.Drivers.FrameCountStatus
import TelinkSdk.Ota.Frame
import TelinkSdk.Ota.WriteFailure
import TelinkSdk.Ota.FrameBounds
import TelinkSdk.Ota.FileParse
import TelinkSdk.Common.List
import TelinkSdk.Common.String
import TelinkSdk.Mac.EnergyDetect
import TelinkSdk.Hci.UsbCdcReceive
import TelinkSdk.Hci.UsbCdcFrame
import TelinkSdk.Drivers.HwTimer
import TelinkSdk.Rings.Overwriting
import TelinkSdk.Drivers.Keyboard
import TelinkSdk.Os.QueueFree
import TelinkSdk.Mac.PibRange
import TelinkSdk.Nor.Words
import TelinkSdk.Drivers.FlashWords
import TelinkSdk.Drivers.NvIndexWords
import TelinkSdk.Transfers.Packets
import TelinkSdk.Usb.Descriptors
import TelinkSdk.Usb.Control
import TelinkSdk.Usb.ControlTransfer
import TelinkSdk.Drivers.KeyboardPins
import TelinkSdk.Demo.AppUi
import TelinkSdk.Demo.DeviceJoin
import TelinkSdk.Sorts.Insertion
import TelinkSdk.Drivers.Adc
import TelinkSdk.Common.Printf
import TelinkSdk.Platform.SharedFlash
import TelinkSdk.Mac.OnAir
import TelinkSdk.Rotations.RoundRobin
import TelinkSdk.Demo.CoorTraffic
import TelinkSdk.Os.BufferUsers
import TelinkSdk.Drivers.Uart
import TelinkSdk.Drivers.Gpio
import TelinkSdk.Drivers.GpioRegistry
import TelinkSdk.Hci.UartEcho
import TelinkSdk.Mac.Cca
import TelinkSdk.Platform.IeeeAddr
import TelinkSdk.Drivers.FlashStatus
import TelinkSdk.Platform.ProtectedStart
