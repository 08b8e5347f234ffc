import Dnsconfd.UnboundManager.Zones

/-!
# The context of the state machine

The states and events of `fsm.h`, the context `fsm_context_t` they act on, and what surrounds it:
the outcomes of the system calls and library calls made during one call of `state_transition`,
and the log of the daemon's effects on its environment.

During one call of `state_transition` each action runs at most once, so one record of outcomes
for each action describes every behaviour of the environment.  Commands of one `update` are
pairwise different, so their outcomes are a function of the command.
-/

namespace Dnsconfd

open Library

/-- `fsm_state_t`. -/
inductive FsmState where
  | starting
  | configuringDnsManager
  | submittingStartJob
  | waitingForStartJob
  | settingResolvConf
  | updatingDnsManager
  | running
  | revertingResolvConf
  | submittingStopJob
  | waitingStopJob
  | stopping
deriving DecidableEq

/-- `fsm_event_t`. -/
inductive FsmEvent where
  | none
  | update
  | kickoff
  | success
  | failure
  | reload
  | jobSuccess
  | jobFailure
  | stop
deriving DecidableEq

/-- The pointers of the context that the code dereferences without checking them. -/
inductive Resource where
  | domainTable
  | effectiveCa
  | resolvConfBackup
deriving DecidableEq

/-- What the daemon does to its environment.  The markers `transitionMade`, `startJobDone`,
`updateSucceeded`, `updateParsed` and `nullUse` only note a point of the code that has been passed:
the state has an action for the event, the start job was reported done, `update` returned 0 with the
given dynamic servers in use, an Update call passed parsing, and an unset resource was dereferenced.
Messages of `dnsconfd_log` are not effects; that a transition is being performed is also written for
events that are then refused. -/
inductive Effect where
  | transitionMade (state : FsmState) (event : FsmEvent)
  | monitorCreated
  | confWritten (lines : List ConfLine)
  | statusWritten (content : String)
  | controlWritten (command : String)
  | startJobDone
  | resolvConfOpened
  | resolvConfWritten (text : String)
  | revertExecuted
  | resolvConfRestored (text : String)
  | commandExecuted (command : UnboundCommand) (ok : Bool)
  | updateSucceeded (dynamicServers : List ServerUri)
  | serialSignal (serial : UInt32)
  | notified (state : String)
  | mainLoopQuit
  | updateParsed (servers : List ServerUri) (mode : Mode)
  | updateReplied (serial : UInt32) (message : String)
  | reloadReplied (message : String)
  | nullUse (resource : Resource)
deriving DecidableEq

/-- `fsm_context_t`, without the handles of GLib objects.  The lists and tables that are `NULL`
before they are first set are options; `expectedStatus` is that of the service management
context. -/
structure Context where
  currentState : FsmState
  currentDynamicServers : List ServerUri
  newDynamicServers : List ServerUri
  allServers : List ServerUri
  currentDomainToServers : Option ServerTable
  currentUnboundDomainToServers : Option ServerTable
  resolvConfBackup : Option String
  effectiveCa : Option String
  exitCode : ExitCode
  requestedConfigurationSerial : UInt32
  currentConfigurationSerial : UInt32
  resolutionMode : Mode
  expectedStatus : Option String

/-- The context that `dbus_server_run` starts with. -/
def Context.initial : Context where
  currentState := .starting
  currentDynamicServers := []
  newDynamicServers := []
  allServers := []
  currentDomainToServers := none
  currentUnboundDomainToServers := none
  resolvConfBackup := none
  effectiveCa := none
  exitCode := .ok
  requestedConfigurationSerial := 1
  currentConfigurationSerial := 1
  resolutionMode := .backup
  expectedStatus := none

/-! ## Outcomes of the environment -/

/-- Outcomes during `fsm_starting_event_kickoff`: of `g_file_monitor_file`, of the calls that
write `unbound.conf` in their order, of `access` on CA files, and the orders in which the table of
servers is visited for the CA and for the zones. -/
structure KickoffOutcome where
  monitorCreated : Bool
  confOpens : Bool
  listenWritten : Bool
  zonesWritten : Bool
  rpzWritten : Bool
  confClean : Bool
  confCloses : Bool
  readable : String → Bool
  caOrder : Enumeration ServerEntry
  zonesOrder : Enumeration ServerEntry

/-- Outcomes of the two files written by `set_service_status`. -/
structure ServiceOutcome where
  statusWritten : Bool
  controlWritten : Bool

/-- Outcomes during `write_resolv_conf`: what `g_file_get_contents` reads, and whether the file
opens, is written without error and closes. -/
structure ResolvConfOutcome where
  originalContent : Option String
  opens : Bool
  clean : Bool
  closes : Bool
  order : Enumeration ServerEntry

/-- Outcomes during `update`: of `access` on CA files and of the commands, and the orders of its
four iterations over tables. -/
structure UpdateOutcome where
  readable : String → Bool
  commandOk : UnboundCommand → Bool
  tableOrder : Enumeration ServerEntry
  caOrder : Enumeration ServerEntry
  addOrder : Enumeration ServerEntry
  removeOrder : Enumeration ServerEntry

/-- Outcomes during `revert_resolv_conf`. -/
structure RevertOutcome where
  opens : Bool
  printed : Bool
  closes : Bool

/-- Outcomes of everything that one call of `state_transition` may do. -/
structure Outcomes where
  kickoff : KickoffOutcome
  startJob : ServiceOutcome
  resolvConf : ResolvConfOutcome
  update : UpdateOutcome
  revert : RevertOutcome
  stopJob : ServiceOutcome

/-- Everything succeeds, every CA file is readable and resolv.conf is empty. -/
def Outcomes.allOk : Outcomes where
  kickoff := ⟨true, true, true, true, true, true, true, fun _ => true, .stored, .stored⟩
  startJob := ⟨true, true⟩
  resolvConf := ⟨some "", true, true, true, .stored⟩
  update := ⟨fun _ => true, fun _ => true, .stored, .stored, .stored, .stored⟩
  revert := ⟨true, true, true⟩
  stopJob := ⟨true, true⟩

end Dnsconfd
