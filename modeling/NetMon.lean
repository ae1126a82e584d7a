import NetMon.Lib.Machine
import NetMon.Lib.Bytes
import NetMon.Lib.Crc
import NetMon.Lib.OnesComplement
import NetMon.Lib.CStr
import NetMon.Lib.CNum
import NetMon.Lib.Columns
import NetMon.Lib.Inet
import NetMon.Lib.Tokens
import NetMon.Lib.DomainName
import NetMon.Lib.CJson
import NetMon.Lib.Decimal
import NetMon.Lib.CJsonPrint
import NetMon.Lib.CJsonParse
import NetMon.Lib.CJsonCut
import NetMon.Lib.ReadBack
import NetMon.Lib.CInt
import NetMon.Lib.Ring
import NetMon.Lib.BoundedQueue
import NetMon.Lib.RunningMax
import NetMon.Lib.RoundRobin
import NetMon.Lib.Lookup
import NetMon.Lib.RunLength
import NetMon.Lib.Shell
import NetMon.Lib.Printf
import NetMon.Lib.Scanf
import NetMon.Net.State
import NetMon.Net.Kernel
import NetMon.Net.Connections
import NetMon.Net.ProcNetDev
import NetMon.Core.Config
import NetMon.Core.ConfigMap
import NetMon.Core.ConfigFile
import NetMon.Core.ConfigLoad
import NetMon.Core.ConfigReload
import NetMon.Core.Comments
import NetMon.Core.Alerts
import NetMon.Core.AlertCounter
import NetMon.Core.Debounce
import NetMon.Core.AlertRuns
import NetMon.Core.Thresholds
import NetMon.Core.IgnoreList
import NetMon.Core.AlertLog
import NetMon.Core.Dismissal
import NetMon.Core.RingBuffer
import NetMon.Net.Collector
import NetMon.Net.Bounds
import NetMon.Net.Infra
import NetMon.Net.InfraPing
import NetMon.Net.WifiScan
import NetMon.Net.WifiBlocks
import NetMon.Net.WifiConnect
import NetMon.Net.Ping
import NetMon.Net.Checksum
import NetMon.Net.Discovery
import NetMon.Net.Dns
import NetMon.Net.Names
import NetMon.Net.TableGrowth
import NetMon.Net.Removed
import NetMon.Net.Checks
import NetMon.Net.Rates
import NetMon.Net.History
import NetMon.Net.HistoryRing
import NetMon.Net.Sampling
import NetMon.Net.Resets
import NetMon.Net.Baseline
import NetMon.Api.Config
import NetMon.Api.Json
import NetMon.Api.Http
import NetMon.Api.Reply
import NetMon.Api.Server
import NetMon.Api.Clients
import NetMon.Api.Routes
import NetMon.Satellite.Protocol
import NetMon.Satellite.Frame
import NetMon.Satellite.Data
import NetMon.Satellite.Gauges
import NetMon.Satellite.Receiver
import NetMon.Satellite.CrcErrors
import NetMon.Satellite.FrameBounds
import NetMon.Satellite.Link
import NetMon.Satellite.Stream
import NetMon.Satellite.Isolation
import NetMon.Satellite.Encoder
import NetMon.Satellite.Status
import NetMon.Satellite.Severity
import NetMon.Satellite.Fidelity
import NetMon.Satellite.Request
import NetMon.Satellite.Fetch
import NetMon.Satellite.SerialWrite
import NetMon.Satellite.Feeder
import NetMon.Satellite.ReplySize
import NetMon.Satellite.Parsed
import NetMon.Satellite.Poll
import NetMon.Satellite.Line
import NetMon.Satellite.System
import NetMon.Satellite.SystemStep
import NetMon.Satellite.SystemRuns
import NetMon.Ui.AlertScreen
import NetMon.Ui.Dashboard
import NetMon.Ui.Settings
import NetMon.Ui.Devices
import NetMon.Ui.Memory
import NetMon.Ui.Charts
import NetMon.Ui.Navigation
import NetMon.Ui.AlertRebuild
import NetMon.Ui.TrafficScreen
import NetMon.Ui.TrafficSelector
import NetMon.Core.ConfigTidy
import NetMon.Net.WifiManager
import NetMon.Ui.EditWidgets
import NetMon.Ui.WifiPanel
import NetMon.Ui.SettingsScreen
import NetMon.Ui.SettingsInvariant
import NetMon.Ui.SettingsRestart
