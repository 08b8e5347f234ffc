import Dnsconfd.DbusServer.Status
import Dnsconfd.Library.Heap

/-!
# The daemon with its server records on the heap

Servers are allocated one by one and shared by pointers: the list of all servers and the table of
servers point to the records of the configuration and of the last Update, while the table kept for
the cache has copies of its own.  Here the daemon is modelled with these pointers.  Every function
that allocates, releases or hands over records is translated with what it does to them; what merely
reads records is taken from the model of values, applied to the records that the pointers lead to,
and notes the use of all of them.  Between the inputs that the daemon of values takes there can be
Status calls: they change nothing, but they read the records.

A record is a unit here: the strings and lists in it are allocated and released together with it.
-/

namespace Dnsconfd

open Library

instance : Inhabited ServerUri := ⟨.initial⟩

/-- A table of pointers to servers. -/
abbrev RecordTable := Table String (List Addr)

/-- `g_list_sort` on pointers: it rearranges them and knows the records through the comparison
only. -/
structure RecordSort (p : Platform) where
  sort : (Addr → Addr → Int32) → List Addr → List Addr
  sort_perm : ∀ compare as, (sort compare as).Perm as
  map_sort : ∀ (value : Addr → ServerUri) compare as,
    (sort (fun a b => compare (value a) (value b)) as).map value =
      p.gListSort compare (as.map value)

/-- Sorting by insertion. -/
def RecordSort.insertion : RecordSort .plain where
  sort compare as := as.insertionSort fun a b => compare a b ≤ 0
  sort_perm _ as := List.perm_insertionSort _ as
  map_sort value _ as := List.map_insertionSort _ _ value as fun _ _ _ _ => Iff.rfl

/-- The fields of `fsm_context_t` other than pointers to servers. -/
structure Fields where
  currentState : FsmState
  resolvConfBackup : Option String
  effectiveCa : Option String
  exitCode : ExitCode
  requestedConfigurationSerial : UInt32
  currentConfigurationSerial : UInt32
  resolutionMode : Mode
  expectedStatus : Option String

/-- The fields of a context other than its servers. -/
def Context.fields (ctx : Context) : Fields where
  currentState := ctx.currentState
  resolvConfBackup := ctx.resolvConfBackup
  effectiveCa := ctx.effectiveCa
  exitCode := ctx.exitCode
  requestedConfigurationSerial := ctx.requestedConfigurationSerial
  currentConfigurationSerial := ctx.currentConfigurationSerial
  resolutionMode := ctx.resolutionMode
  expectedStatus := ctx.expectedStatus

/-- `fsm_context_t` with its pointers to servers, among them those of the configuration, and the
heap that they lead to. -/
structure Memory where
  heap : Heap ServerUri
  staticServers : List Addr
  currentDynamicServers : List Addr
  newDynamicServers : List Addr
  allServers : List Addr
  currentDomainToServers : Option RecordTable
  currentUnboundDomainToServers : Option RecordTable
  fields : Fields

/-- The pointers in a table that may be missing. -/
def tableAddrs (table : Option RecordTable) : List Addr :=
  table.elim [] Heap.addrs

namespace Memory

/-- When the main loop starts, the static servers have been read from the configuration. -/
def initial (config : Config) : Memory where
  heap := Heap.empty.allocAll config.staticServers
  staticServers := Heap.empty.fresh (α := ServerUri) config.staticServers.length
  currentDynamicServers := []
  newDynamicServers := []
  allServers := []
  currentDomainToServers := none
  currentUnboundDomainToServers := none
  fields := Context.initial.fields

/-- All pointers to servers. -/
def pointers (m : Memory) : List Addr :=
  m.staticServers ++ m.currentDynamicServers ++ m.newDynamicServers ++ m.allServers ++
    tableAddrs m.currentDomainToServers ++ tableAddrs m.currentUnboundDomainToServers

/-- The context that is found by following the pointers. -/
def deref (m : Memory) : Context where
  currentState := m.fields.currentState
  currentDynamicServers := m.heap.values m.currentDynamicServers
  newDynamicServers := m.heap.values m.newDynamicServers
  allServers := m.heap.values m.allServers
  currentDomainToServers := m.currentDomainToServers.map m.heap.readTable
  currentUnboundDomainToServers := m.currentUnboundDomainToServers.map m.heap.readTable
  resolvConfBackup := m.fields.resolvConfBackup
  effectiveCa := m.fields.effectiveCa
  exitCode := m.fields.exitCode
  requestedConfigurationSerial := m.fields.requestedConfigurationSerial
  currentConfigurationSerial := m.fields.currentConfigurationSerial
  resolutionMode := m.fields.resolutionMode
  expectedStatus := m.fields.expectedStatus

/-- Note that the records are read. -/
def touch (m : Memory) : Memory :=
  { m with heap := m.heap.touch m.pointers }

end Memory

/-- What an action leaves: the memory, its effects and the event for the next iteration. -/
structure MemoryResult where
  memory : Memory
  effects : List Effect
  event : FsmEvent

/-- The same result in another state. -/
def MemoryResult.enter (r : MemoryResult) (state : FsmState) : MemoryResult :=
  { r with memory := { r.memory with fields := { r.memory.fields with currentState := state } } }

/-! ## The table of servers -/

/-- `append_server`. -/
def appendRecord (hashTable : RecordTable) (domain : String) (server : Addr) : RecordTable :=
  match hashTable.lookup domain with
  | some serverSublist => hashTable.insert domain (serverSublist ++ [server])
  | none => hashTable.insert domain [server]

/-- The loops over the routing domains and over the networks of the record at an address. -/
def appendRecordDomains (heap : Heap ServerUri) (hashTable : RecordTable) (server : Addr) :
    Option RecordTable :=
  (heap.value server).networks.foldlM (fun t network =>
    (networkAddressToReverseDns network).map fun domain => appendRecord t domain server)
    ((heap.value server).routingDomains.foldl (fun t domain => appendRecord t domain server)
      hashTable)

/-- `server_list_to_hash_table`: the lists of the table point to the records of the given list. -/
def recordListToHashTable {p : Platform} (s : RecordSort p) (heap : Heap ServerUri)
    (serverList : List Addr) : Option RecordTable :=
  (serverList.foldlM (appendRecordDomains heap) ∅).map
    (Table.mapValues fun _ servers =>
      s.sort (fun a b => compareServers (heap.value a) (heap.value b)) servers)

/-! ## Actions -/

/-- The three ways in which `update` returns: 0 with the table now in use, 1, and -1. -/
inductive RecordUpdate where
  | done (result : RecordTable)
  | reload
  | error

namespace Memory

/-- `set_dynamic_servers`: the records of the last Update but one are released.  The list of all
servers and the table of servers still point to them. -/
def setDynamicServers (m : Memory) : Memory :=
  { m with
    heap := m.heap.freeAll m.currentDynamicServers
    currentDynamicServers := m.newDynamicServers
    newDynamicServers := [] }

/-- `update_context`; the list and the table that it replaces are released without the records. -/
def updateContext {p : Platform} (s : RecordSort p) (m : Memory) : Memory :=
  let allServers := m.staticServers ++ m.currentDynamicServers
  { m with
    heap := m.heap.touch allServers
    allServers := allServers
    currentDomainToServers := recordListToHashTable s m.heap allServers
    fields := { m.fields with
      requestedConfigurationSerial := nextSerial m.fields.requestedConfigurationSerial } }

/-- An action that reads the records and leaves them and the pointers as they are. -/
def reading (m : Memory) (action : Context → ActionResult) : MemoryResult :=
  let r := action m.deref
  ⟨{ m.touch with fields := r.ctx.fields }, r.effects, r.event⟩

/-- `fsm_starting_event_kickoff`. -/
def fsmStartingEventKickoff (p : Platform) (s : RecordSort p) (config : Config)
    (o : KickoffOutcome) (m : Memory) : MemoryResult :=
  (m.updateContext s).reading fun ctx =>
    if !o.monitorCreated then ⟨ctx, [], .failure⟩
    else
      let r := writeConfiguration p config o ctx
      ⟨r.ctx, .monitorCreated :: r.effects, if r.error.isSome then .failure else .success⟩

/-- `update`: the used servers are copied for the new table, which is released unless it is
returned. -/
def update (p : Platform) (config : Config) (o : UpdateOutcome) (m : Memory) :
    RecordUpdate × List Effect × Heap ServerUri :=
  match m.currentDomainToServers with
  | none => (.error, [.nullUse .domainTable], m.heap)
  | some table =>
    let (heap, new) := (m.heap.touch (Heap.addrs table)).collectFresh
      (usedServersOf m.fields.resolutionMode) (o.tableOrder.visit (m.heap.readTable table).entries)
    let discarded := heap.freeAll (Heap.addrs new)
    match getEffectiveCa o.caOrder o.readable (some (heap.readTable new)) m.fields.resolutionMode
        config with
    | none => (.error, [], discarded)
    | some newEffectiveCa =>
      match m.fields.effectiveCa with
      | none => (.error, [.nullUse .effectiveCa], discarded)
      | some effectiveCa =>
        if newEffectiveCa ≠ effectiveCa then (.reload, [], discarded)
        else
          let heap :=
            heap.touch (Heap.addrs new ++ tableAddrs m.currentUnboundDomainToServers)
          match applyUpdate p o (m.currentUnboundDomainToServers.map heap.readTable)
              (heap.readTable new) with
          | (.done _, effects) => (.done new, effects, heap)
          | (_, effects) => (.error, effects, heap.freeAll (Heap.addrs new))

/-- `update_dns_manager`: the table that is replaced is released with its copies. -/
def updateDnsManager (p : Platform) (config : Config) (o : UpdateOutcome) (m : Memory) :
    MemoryResult :=
  match m.update p config o with
  | (.done result, effects, heap) =>
    ⟨{ m with
        heap := heap.freeAll (tableAddrs m.currentUnboundDomainToServers)
        currentUnboundDomainToServers := some result
        fields := { m.fields with
          currentConfigurationSerial := m.fields.requestedConfigurationSerial } },
      effects ++ [.updateSucceeded (heap.values m.currentDynamicServers), .notified "READY=1\n",
        .serialSignal m.fields.requestedConfigurationSerial], .success⟩
  | (.reload, effects, heap) => ⟨{ m with heap := heap }, effects, .reload⟩
  | (.error, effects, heap) => ⟨{ m with heap := heap }, effects, .failure⟩

/-! ## Transitions -/

/-- The nested switches of `state_transition`.  The events listed here handle records; whatever
else the machine does with a context reads them at most. -/
def transitionAction (p : Platform) (s : RecordSort p) (config : Config) (o : Outcomes)
    (m : Memory) (event : FsmEvent) : Option MemoryResult :=
  match m.fields.currentState, event with
  | .starting, .update => some ⟨m.setDynamicServers.updateContext s, [], .none⟩
  | .starting, .kickoff =>
    some ((m.fsmStartingEventKickoff p s config o.kickoff).enter .configuringDnsManager)
  | .waitingForStartJob, .update => some ⟨m.setDynamicServers.updateContext s, [], .none⟩
  | .waitingForStartJob, .reload =>
    some ((m.fsmStartingEventKickoff p s config o.kickoff).enter .configuringDnsManager)
  | .settingResolvConf, .success =>
    some ((m.updateDnsManager p config o.update).enter .updatingDnsManager)
  | .updatingDnsManager, .reload =>
    let r := (m.fsmStartingEventKickoff p s config o.kickoff).enter .configuringDnsManager
    some { r with effects := .notified "RELOADING=1\n" :: r.effects }
  | .running, .update =>
    some (((m.setDynamicServers.updateContext s).reading
      (setResolvConf p config o.resolvConf)).enter .settingResolvConf)
  | .running, .reload =>
    let r := (m.fsmStartingEventKickoff p s config o.kickoff).enter .configuringDnsManager
    some { r with effects := .notified "RELOADING=1\n" :: r.effects }
  | _, _ =>
    (Dnsconfd.transitionAction p config o m.deref event).map fun r => m.reading fun _ => r

end Memory

/-- The machine between two iterations. -/
structure MemoryMachine where
  memory : Memory
  event : FsmEvent
  log : List Effect

/-- One iteration of the loop of `state_transition`. -/
def MemoryMachine.transition (p : Platform) (s : RecordSort p) (config : Config) (o : Outcomes)
    (m : MemoryMachine) : Option MemoryMachine :=
  (m.memory.transitionAction p s config o m.event).map fun r =>
    ⟨r.memory, r.event,
      m.log ++ .transitionMade m.memory.fields.currentState m.event :: r.effects⟩

/-- The test of the loop: there is an event. -/
def MemoryMachine.hasEvent (m : MemoryMachine) : Bool :=
  m.event ≠ .none

/-- `state_transition`. -/
def MemoryMachine.stateTransition (p : Platform) (s : RecordSort p) (config : Config)
    (o : Outcomes) (m : MemoryMachine) : Halt MemoryMachine :=
  (doWhile (MemoryMachine.transition p s config o) MemoryMachine.hasEvent maxIterations m).getD
    ⟨false, m⟩

/-! ## Handlers -/

/-- The daemon between two events. -/
structure MemoryDaemon where
  memory : Memory
  log : List Effect

/-- The loop of `handle_update_call` over the dictionaries.  The record of a dictionary that is
invalid or skipped is released, and with an invalid one all records parsed before it. -/
def parseRecords (p : Platform) (isWireless : String → Bool) :
    List VariantDict → Heap ServerUri → List Addr →
      Heap ServerUri × Except ParseError (List Addr)
  | [], heap, parsedServers => (heap, .ok parsedServers)
  | dict :: dicts, heap, parsedServers =>
    let curServer := heap.next
    let heap := heap.alloc .initial
    match parseServerDict p dict with
    | .error error => ((heap.free curServer).freeAll parsedServers, .error error)
    | .ok server =>
      let heap := (heap.write curServer server).touch (curServer :: parsedServers)
      if isDuplicate (heap.values parsedServers) (heap.value curServer) then
        parseRecords p isWireless dicts (heap.free curServer) parsedServers
      else
        parseRecords p isWireless dicts
          (heap.write curServer (lowerWireless isWireless (heap.value curServer)))
          (parsedServers ++ [curServer])

namespace MemoryDaemon

/-- The daemon when its main loop starts. -/
def initial (config : Config) : MemoryDaemon where
  memory := .initial config
  log := []

/-- Handling of an event whose refusal is fatal. -/
def dispatch (p : Platform) (s : RecordSort p) (config : Config) (o : Outcomes) (event : FsmEvent)
    (d : MemoryDaemon) : MemoryDaemon :=
  let r := MemoryMachine.stateTransition p s config o ⟨d.memory, event, d.log⟩
  if r.accepted then ⟨r.state.memory, r.state.log⟩
  else ⟨{ r.state.memory with fields := { r.state.memory.fields with exitCode := .fsmFailure } },
    r.state.log ++ [.mainLoopQuit]⟩

/-- `handle_update_call`.  What `new_dynamic_servers` pointed to before is forgotten. -/
def handleUpdateCall (p : Platform) (s : RecordSort p) (config : Config) (o : Outcomes)
    (isWireless : String → Bool) (servers : List VariantDict) (mode : UInt32) (d : MemoryDaemon) :
    MemoryDaemon :=
  match Mode.ofUInt32 mode with
  | none => ⟨d.memory, d.log ++ [.updateReplied 0 ParseError.invalidMode.text]⟩
  | some mode =>
    match parseRecords p isWireless servers d.memory.heap [] with
    | (heap, .error error) =>
      ⟨{ d.memory with heap := heap }, d.log ++ [.updateReplied 0 error.text]⟩
    | (heap, .ok parsedServers) =>
      let memory := { d.memory with
        heap := heap
        newDynamicServers := parsedServers
        fields := { d.memory.fields with resolutionMode := mode } }
      let d := dispatch p s config o .update
        ⟨memory, d.log ++ [.updateParsed (heap.values parsedServers) mode]⟩
      ⟨d.memory, d.log ++
        [.updateReplied d.memory.fields.requestedConfigurationSerial "Update accepted"]⟩

/-- The response of the daemon to one input. -/
def step (p : Platform) (s : RecordSort p) (config : Config) (d : MemoryDaemon) (i : Input) :
    MemoryDaemon :=
  match i.event with
  | .updateCall servers mode =>
    handleUpdateCall p s config i.outcomes i.isWireless servers mode d
  | .reloadCall =>
    let d := dispatch p s config i.outcomes .reload d
    ⟨d.memory, d.log ++ [.reloadReplied "Reload accepted"]⟩
  | .nameAcquired => dispatch p s config i.outcomes .kickoff d
  | .nameLost =>
    ⟨{ d.memory with fields := { d.memory.fields with exitCode := .dbusFailure } },
      d.log ++ [.mainLoopQuit]⟩
  | .sigterm => dispatch p s config i.outcomes .stop d
  | .jobFinished result =>
    let r := MemoryMachine.stateTransition p s config i.outcomes
      ⟨d.memory, jobEvent result, d.log⟩
    ⟨r.state.memory, r.state.log⟩

/-- `handle_status_call`: the records in the list of all servers and in the table kept for the cache
are read. -/
def handleStatusCall (net : Inet) (order : Enumeration ServerEntry) (d : MemoryDaemon) :
    MemoryDaemon × Json :=
  let used := d.memory.allServers ++ tableAddrs d.memory.currentUnboundDomainToServers
  (⟨{ d.memory with heap := d.memory.heap.touch used }, d.log⟩,
    configToJson net order d.memory.deref)

end MemoryDaemon

/-- What the main loop dispatches: an input of the daemon of values, or a Status call, with the order
in which the table kept for the cache is read for the reply. -/
inductive Request where
  | input (i : Input)
  | statusCall (order : Enumeration ServerEntry)

/-- The input in a request. -/
def Request.asInput : Request → Option Input
  | input i => some i
  | statusCall _ => none

/-- The daemon and its replies to Status calls. -/
structure MemoryProcess where
  daemon : MemoryDaemon
  replies : List Json

/-- The response of the process to one request. -/
def MemoryProcess.step (p : Platform) (s : RecordSort p) (config : Config) (q : MemoryProcess) :
    Request → MemoryProcess
  | .input i => ⟨q.daemon.step p s config i, q.replies⟩
  | .statusCall order =>
    let (daemon, reply) := q.daemon.handleStatusCall p.inet order
    ⟨daemon, q.replies ++ [reply]⟩

/-- The daemon with its records as a transition system. -/
def memoryDaemon (p : Platform) (s : RecordSort p) (config : Config) :
    System MemoryProcess Request where
  init := ⟨.initial config, []⟩
  step := MemoryProcess.step p s config

/-! ## The end of the process -/

/-- `clean_context`: the two lists of dynamic servers and the copies of the cache's table are
released; the list of all servers and the table of servers are released without their records. -/
def Memory.cleanContext (m : Memory) : Heap ServerUri :=
  ((m.heap.freeAll m.currentDynamicServers).freeAll m.newDynamicServers).freeAll
    (tableAddrs m.currentUnboundDomainToServers)

/-- The records after `clean_context` and, in `main`, `config_cleanup`, which releases the static
servers. -/
def Memory.cleanup (m : Memory) : Heap ServerUri :=
  m.cleanContext.freeAll m.staticServers

end Dnsconfd
