import SysNetMon.Agent
import SysNetMon.AgentCount
import SysNetMon.AgentLoop
import SysNetMon.AgentSession
import SysNetMon.AlertDelivery
import SysNetMon.AlertEdges
import SysNetMon.AlertGrammar
import SysNetMon.AlertUpload
import SysNetMon.ChartHistory
import SysNetMon.ChartTraces
import SysNetMon.Chat
import SysNetMon.CleanRuns
import SysNetMon.ClosedPage
import SysNetMon.ClosedSystem
import SysNetMon.ConnectorThreads
import SysNetMon.Consumer
import SysNetMon.CpuPercent
import SysNetMon.DashboardMetrics
import SysNetMon.DashboardRules
import SysNetMon.DashboardViews
import SysNetMon.Descriptors
import SysNetMon.HostMetrics
import SysNetMon.Hosts
import SysNetMon.LineFraming
import SysNetMon.LiveEvents
import SysNetMon.Locking
import SysNetMon.NumeralRange
import SysNetMon.Page
import SysNetMon.PageData
import SysNetMon.Participants
import SysNetMon.ProcFiles
import SysNetMon.ProcessSteps
import SysNetMon.Reconnect
import SysNetMon.SelectBound
import SysNetMon.SendCounts
import SysNetMon.SendLine
import SysNetMon.Senders
import SysNetMon.ServerLife
import SysNetMon.WireLines
