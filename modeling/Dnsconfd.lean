import Dnsconfd.Library.TransitionSystem
import Dnsconfd.Library.Tables
import Dnsconfd.Library.Streams
import Dnsconfd.Types
import Dnsconfd.Library.Strtol
import Dnsconfd.ServerTable
import Dnsconfd.UnboundManager.Selection
import Dnsconfd.UnboundManager.UsedServers
import Dnsconfd.UnboundManager.Zones
import Dnsconfd.Fsm.Context
import Dnsconfd.UnboundManager.Operations
import Dnsconfd.Fsm.EventLoop
import Dnsconfd.DbusServer.UpdateCall
import Dnsconfd.DbusServer.Daemon
import Dnsconfd.Fsm.Serials
import Dnsconfd.DbusServer.Acknowledgement
import Dnsconfd.DbusServer.Announcement
import Dnsconfd.DbusServer.Applied
import Dnsconfd.DbusServer.ResolvConf
import Dnsconfd.UnboundManager.Reconciliation
import Dnsconfd.DbusServer.CacheAgreement
import Dnsconfd.DbusServer.Reload
import Dnsconfd.UnboundManager.EffectiveCa
import Dnsconfd.DbusServer.CaStability
import Dnsconfd.Client.ServerUri
import Dnsconfd.Client.Update
import Dnsconfd.ConfigurationParsing.ConfigFile
import Dnsconfd.ConfigurationParsing.StaticServers
import Dnsconfd.ConfigurationParsing.GlobalOptions
import Dnsconfd.DbusServer.ServersWellFormed
import Dnsconfd.DbusServer.Resources
import Dnsconfd.ServiceManagement.StatusFile
import Dnsconfd.ServiceManagement.Monitors
import Dnsconfd.DbusServer.ExitCode
import Dnsconfd.DbusServer.SharedZones
import Dnsconfd.Library.Lines
import Dnsconfd.UnboundManager.FileStructure
import Dnsconfd.DbusServer.GeneratedFiles
import Dnsconfd.ServiceManagement.Helper
import Dnsconfd.Library.StableSort
import Dnsconfd.UnboundManager.IncrementalUpdate
import Dnsconfd.ServerGroups
import Dnsconfd.UnboundManager.ZoneAgreement
import Dnsconfd.UnboundManager.Confinement
import Dnsconfd.DbusServer.Duplicates
import Dnsconfd.UnboundManager.SearchDomains
import Dnsconfd.Library.Digits
import Dnsconfd.ReverseZones
import Dnsconfd.ConfigurationParsing.Reader
import Dnsconfd.ConfigurationParsing.Nodes
import Dnsconfd.ConfigurationParsing.Entries
import Dnsconfd.TextValues
import Dnsconfd.DbusServer.UpdateRejection
import Dnsconfd.ConfigurationParsing.OptionValues
import Dnsconfd.DbusServer.WirelessDemotion
import Dnsconfd.ConfigurationParsing.Termination
import Dnsconfd.Buffers
import Dnsconfd.Client.JsonUpdate
import Dnsconfd.ConfigurationParsing.TopLevel
import Dnsconfd.ConfigurationParsing.Includes
import Dnsconfd.Library.WorkQueue
import Dnsconfd.Client.UpdateProtocol
import Dnsconfd.DbusServer.Status
import Dnsconfd.DbusServer.Lifecycle
import Dnsconfd.ServiceManagement.Stop
import Dnsconfd.DbusServer.Changes
import Dnsconfd.Library.Heap
import Dnsconfd.Memory.Records
import Dnsconfd.Memory.Refinement
import Dnsconfd.Client.CommandLine
import Dnsconfd.Client.EndToEnd
import Dnsconfd.ServiceManagement.Start
import Dnsconfd.Library.Clauses
import Dnsconfd.DbusServer.UnboundConf
import Dnsconfd.DbusServer.IterationOrder
