import WheelBridge.Machine
import WheelBridge.Refinement
import WheelBridge.Measure
import WheelBridge.Channel
import WheelBridge.Merging
import WheelBridge.Framing
import WheelBridge.Ownership
import WheelBridge.Tally
import WheelBridge.Slots
import WheelBridge.Lanes
import WheelBridge.Pipe
import WheelBridge.Bytes
import WheelBridge.Conveyor
import WheelBridge.Meters
import WheelBridge.HexText
import WheelBridge.Utf16
import WheelBridge.RunLength
import WheelBridge.Throttle
import WheelBridge.Device
import WheelBridge.ReportFraming
import WheelBridge.InputMap
import WheelBridge.InputControls
import WheelBridge.AuthCache
import WheelBridge.Signer
import WheelBridge.SignSteps
import WheelBridge.AuthSystem
import WheelBridge.SignTrace
import WheelBridge.SignDiscipline
import WheelBridge.SignRuns
import WheelBridge.SignReturns
import WheelBridge.CachedPages
import WheelBridge.OwnBytes
import WheelBridge.AuthLedger
import WheelBridge.AuthFreshness
import WheelBridge.NonceRounds
import WheelBridge.SignerRouting
import WheelBridge.RefusedPages
import WheelBridge.Proxy
import WheelBridge.Bridge
import WheelBridge.BridgeSteps
import WheelBridge.AttachedInput
import WheelBridge.LinkSwitching
import WheelBridge.StaleTraffic
import WheelBridge.AwakeLink
import WheelBridge.HaltToggle
import WheelBridge.AnswerMatching
import WheelBridge.FfbDelivery
import WheelBridge.ControlPath
import WheelBridge.Ep0Steps
import WheelBridge.RevLights
import WheelBridge.LedIndex
import WheelBridge.Mirror
import WheelBridge.MirrorSteps
import WheelBridge.MirrorPath
import WheelBridge.Strings
import WheelBridge.HidInterfaces
import WheelBridge.ReportItems
import WheelBridge.ReportSummary
import WheelBridge.ReportScan
import WheelBridge.ReportTable
import WheelBridge.ReportSizes
import WheelBridge.GlobalStack
import WheelBridge.HidProbe
import WheelBridge.AuthReports
import WheelBridge.Hub
import WheelBridge.HubSteps
import WheelBridge.HubTable
import WheelBridge.HubHandover
import WheelBridge.HostTask
import WheelBridge.AddressLifecycle
import WheelBridge.UartLog
import WheelBridge.LogRecords
import WheelBridge.Profiles
import WheelBridge.PresentedDevice
import WheelBridge.ReportAnswers
import WheelBridge.ControlHandler
import WheelBridge.Relay
import WheelBridge.RelayBooks
import WheelBridge.RelayAccounts
import WheelBridge.RelayEp0
import WheelBridge.SessionSteps
import WheelBridge.SessionPace
import WheelBridge.PullUp
import WheelBridge.BridgeLines
import WheelBridge.LineAccounts
import WheelBridge.WheelRole
import WheelBridge.RoleViews
import WheelBridge.PortReset
import WheelBridge.PortSteps
import WheelBridge.LogText
import WheelBridge.Sampler
import WheelBridge.Monitor
import WheelBridge.If0Log
import WheelBridge.DeviceStrings
