import Dnsconfd.DbusServer.Changes
import Dnsconfd.DbusServer.Lifecycle
import Dnsconfd.Memory.Records

/-!
# Records are used only while they are allocated

The daemon with its records on the heap does what the daemon of values does, and in no run does it
use or release a record that is not allocated, Status calls included (`memoryDaemon_refines`).  The invariant `Mirrors`
says who owns a record: the configuration, one of the two lists of dynamic servers, or the table of
copies kept for the cache, each record exactly once, and nobody for the records that have been
forgotten.  The list of all servers and the table of servers own nothing; they are in step with
their owners (`Shares`) except inside an Update, between `set_dynamic_servers` and
`update_context`, where nothing looks at them.

When the process ends, what is still allocated are the forgotten records: those of an Update that
was accepted but not taken over, and overwritten by the next one (`cleanup_leaves_forgotten`).
-/

namespace Dnsconfd

open Library

variable {p : Platform} {config : Config}

/-! ## Tables of pointers -/

section Tables

variable {heap : Heap ServerUri}

/-- Reading the table after `append_server`. -/
lemma readTable_appendRecord (t : RecordTable) (domain : String) (server : Addr) :
    heap.readTable (appendRecord t domain server) =
      appendServer (heap.readTable t) domain (heap.value server) := by
  have hlookup : (heap.readTable t).lookup domain = (t.lookup domain).map heap.values :=
    Table.lookup_mapValues _ t domain
  unfold appendRecord appendServer
  rw [hlookup]
  cases t.lookup domain with
  | none => exact Heap.readTable_insert heap t domain [server]
  | some servers =>
    refine (Heap.readTable_insert heap t domain (servers ++ [server])).trans ?_
    rw [Heap.values_append]
    rfl

lemma addrs_appendRecord (t : RecordTable) (domain : String) (server : Addr) :
    Heap.addrs (appendRecord t domain server) ⊆ server :: Heap.addrs t := by
  intro a ha
  unfold appendRecord at ha
  cases hlookup : t.lookup domain with
  | none =>
    rw [hlookup] at ha
    exact Heap.addrs_insert_subset t domain [server] ha
  | some servers =>
    rw [hlookup] at ha
    have hold : servers ⊆ Heap.addrs t := fun b hb =>
      List.mem_flatMap.mpr ⟨⟨domain, servers⟩, AList.mem_lookup_iff.mp hlookup, hb⟩
    rcases List.mem_append.mp (Heap.addrs_insert_subset t domain _ ha) with hmem | hmem
    · rcases List.mem_append.mp hmem with hmem | hmem
      · exact List.mem_cons_of_mem _ (hold hmem)
      · exact List.mem_cons.mpr (Or.inl (List.mem_singleton.mp hmem))
    · exact List.mem_cons_of_mem _ hmem

/-- Reading the table after the loops over the domains of a server. -/
lemma readTable_appendRecordDomains (t : RecordTable) (server : Addr) :
    (appendRecordDomains heap t server).map heap.readTable =
      appendNetworks (heap.value server)
        (appendRoutingDomains (heap.value server) (heap.readTable t)) := by
  have hrouting : ∀ (domains : List String) (t : RecordTable),
      heap.readTable (domains.foldl (fun t domain => appendRecord t domain server) t) =
        domains.foldl (fun t domain => appendServer t domain (heap.value server))
          (heap.readTable t) := by
    intro domains
    induction domains with
    | nil => exact fun _ => rfl
    | cons domain domains ih =>
      intro t
      rw [List.foldl_cons, List.foldl_cons, ih, readTable_appendRecord]
  have hnetworks : ∀ (networks : List NetworkAddress) (t : RecordTable),
      (networks.foldlM (fun t network => (networkAddressToReverseDns network).map fun domain =>
        appendRecord t domain server) t).map heap.readTable =
      networks.foldlM (fun t network => (networkAddressToReverseDns network).map fun domain =>
        appendServer t domain (heap.value server)) (heap.readTable t) := by
    intro networks
    induction networks with
    | nil => exact fun _ => rfl
    | cons network networks ih =>
      intro t
      rw [List.foldlM_cons, List.foldlM_cons]
      cases networkAddressToReverseDns network with
      | none => rfl
      | some domain =>
        refine (ih (appendRecord t domain server)).trans ?_
        rw [readTable_appendRecord]
        rfl
  unfold appendRecordDomains appendNetworks appendRoutingDomains
  rw [hnetworks, hrouting]

/-- The loops over the domains of a server enter no other pointer. -/
lemma addrs_appendRecordDomains {t t' : RecordTable} {server : Addr}
    (h : appendRecordDomains heap t server = some t') :
    Heap.addrs t' ⊆ server :: Heap.addrs t := by
  have hstep : ∀ (t₁ : RecordTable) (domain : String),
      Heap.addrs t₁ ⊆ server :: Heap.addrs t →
      Heap.addrs (appendRecord t₁ domain server) ⊆ server :: Heap.addrs t :=
    fun t₁ domain h₁ => List.Subset.trans (addrs_appendRecord t₁ domain server)
      (List.cons_subset.mpr ⟨List.mem_cons_self, h₁⟩)
  have hrouting : ∀ (domains : List String) (t₁ : RecordTable),
      Heap.addrs t₁ ⊆ server :: Heap.addrs t →
      Heap.addrs (domains.foldl (fun t domain => appendRecord t domain server) t₁) ⊆
        server :: Heap.addrs t := by
    intro domains
    induction domains with
    | nil => exact fun _ h₁ => h₁
    | cons domain domains ih => exact fun t₁ h₁ => ih _ (hstep t₁ domain h₁)
  refine foldlM_invariant (P := fun t₁ => Heap.addrs t₁ ⊆ server :: Heap.addrs t)
    (fun network _ t₁ t₂ h₁ h₂ => ?_) (hrouting _ t (List.subset_cons_self _ _)) h
  obtain ⟨domain, -, rfl⟩ := Option.map_eq_some_iff.mp h₂
  exact hstep t₁ domain h₁

/-- Read back, the table of pointers is the table of the records. -/
lemma readTable_recordListToHashTable (s : RecordSort p) (serverList : List Addr) :
    (recordListToHashTable s heap serverList).map heap.readTable =
      serverListToHashTable p (heap.values serverList) := by
  have hloop : ∀ (list : List Addr) (t : RecordTable),
      (list.foldlM (appendRecordDomains heap) t).map heap.readTable =
        (list.map heap.value).foldlM
          (fun t server => appendNetworks server (appendRoutingDomains server t))
          (heap.readTable t) := by
    intro list
    induction list with
    | nil => exact fun _ => rfl
    | cons server list ih =>
      intro t
      have hserver := @readTable_appendRecordDomains heap t server
      rw [List.foldlM_cons, List.map_cons, List.foldlM_cons, ← hserver]
      cases appendRecordDomains heap t server with
      | none => rfl
      | some t' => exact ih t'
  have hsorted : ∀ t : RecordTable,
      heap.readTable (t.mapValues fun _ servers =>
        s.sort (fun a b => compareServers (heap.value a) (heap.value b)) servers) =
      (heap.readTable t).mapValues fun _ servers => p.gListSort compareServers servers := by
    intro t
    refine AList.ext ?_
    change (t.entries.map _).map _ = (t.entries.map _).map _
    rw [List.map_map, List.map_map]
    refine List.map_congr_left fun e _ => ?_
    exact congrArg (Sigma.mk e.1) (s.map_sort heap.value compareServers e.2)
  unfold recordListToHashTable serverListToHashTable
  rw [Heap.values, ← show heap.readTable (∅ : RecordTable) = ∅ from rfl, ← hloop, Option.map_map,
    Option.map_map]
  exact congrArg (fun g => Option.map g _) (funext hsorted)

/-- The table points to records of the list only. -/
lemma addrs_recordListToHashTable {s : RecordSort p} {serverList : List Addr} {t : RecordTable}
    (h : recordListToHashTable s heap serverList = some t) : Heap.addrs t ⊆ serverList := by
  obtain ⟨t', ht', rfl⟩ := Option.map_eq_some_iff.mp h
  have hfilled : Heap.addrs t' ⊆ serverList := by
    refine foldlM_invariant (P := fun t₁ => Heap.addrs t₁ ⊆ serverList)
      (fun server hserver t₁ t₂ h₁ h₂ => ?_) (by simp [Heap.addrs]) ht'
    exact List.Subset.trans (addrs_appendRecordDomains h₂) (List.cons_subset.mpr ⟨hserver, h₁⟩)
  intro a ha
  obtain ⟨e, he, hmem⟩ := List.mem_flatMap.mp ha
  obtain ⟨e', he', rfl⟩ := List.mem_map.mp he
  exact hfilled (List.mem_flatMap.mpr ⟨e', he', (s.sort_perm _ _).mem_iff.mp hmem⟩)

end Tables

/-! ## Who owns which record -/

/-- The pointers whose records the daemon has to release. -/
def Memory.owned (m : Memory) : List Addr :=
  m.staticServers ++ (m.currentDynamicServers ++ (m.newDynamicServers ++
    tableAddrs m.currentUnboundDomainToServers))

/-- The memory holds the context, and every allocated record has one owner or is among those that
nothing points to, `lost`, which have the values `forgotten`. -/
structure Mirrors (config : Config) (forgotten : List ServerUri) (lost : List Addr) (m : Memory)
    (ctx : Context) : Prop where
  fields : m.fields = ctx.fields
  static : m.heap.values m.staticServers = config.staticServers
  current : m.heap.values m.currentDynamicServers = ctx.currentDynamicServers
  new : m.heap.values m.newDynamicServers = ctx.newDynamicServers
  unbound : m.currentUnboundDomainToServers.map m.heap.readTable =
    ctx.currentUnboundDomainToServers
  forgotten : m.heap.values lost = forgotten
  owns : m.heap.Owns (m.owned ++ lost)

/-- The list of all servers and the table of servers hold those of the context, and they point to
static servers and to the servers of the last Update. -/
structure Shares (m : Memory) (ctx : Context) : Prop where
  all : m.heap.values m.allServers = ctx.allServers
  table : m.currentDomainToServers.map m.heap.readTable = ctx.currentDomainToServers
  subset : m.allServers ++ tableAddrs m.currentDomainToServers ⊆
    m.staticServers ++ m.currentDynamicServers

section Owners

variable {forgotten : List ServerUri} {lost : List Addr} {m : Memory} {ctx : Context}

/-- Reading a table that may be missing, after an operation that keeps its records. -/
lemma map_readTable_of_keeps {h h' : Heap ServerUri} {table : Option RecordTable}
    (hk : h.Keeps h' (tableAddrs table)) : table.map h'.readTable = table.map h.readTable := by
  cases table with
  | none => rfl
  | some t => exact congrArg some (Heap.Keeps.readTable hk)

lemma Shares.subset_owned (h : Shares m ctx) :
    m.allServers ++ tableAddrs m.currentDomainToServers ⊆ m.owned := by
  intro a ha
  rcases List.mem_append.mp (h.subset ha) with hmem | hmem <;> simp [Memory.owned, hmem]

/-- The list and the table stay in step as long as the records they share are kept. -/
lemma Shares.frame (hs : Shares m ctx) {m' : Memory} {ctx' : Context}
    (hkeeps : m.heap.Keeps m'.heap (m.staticServers ++ m.currentDynamicServers))
    (howners : m'.staticServers ++ m'.currentDynamicServers =
      m.staticServers ++ m.currentDynamicServers)
    (hall : m'.allServers = m.allServers)
    (htable : m'.currentDomainToServers = m.currentDomainToServers)
    (hctx : ctx'.allServers = ctx.allServers ∧
      ctx'.currentDomainToServers = ctx.currentDomainToServers) : Shares m' ctx' := by
  obtain ⟨hlist, hpointers⟩ := List.append_subset.mp hs.subset
  refine ⟨?_, ?_, ?_⟩
  · rw [hall, hctx.1]
    exact (hkeeps.subset hlist).values.trans hs.all
  · rw [htable, hctx.2]
    exact (map_readTable_of_keeps (hkeeps.subset hpointers)).trans hs.table
  · rw [hall, htable, howners]
    exact hs.subset

/-- At rest every pointer leads to a record, which can be read. -/
lemma Mirrors.touch_pointers (h : Mirrors config forgotten lost m ctx) (hs : Shares m ctx)
    {as : List Addr} (has : as ⊆ m.pointers) : { m with heap := m.heap.touch as } = m := by
  have hsub : m.pointers ⊆ m.owned ++ lost := by
    intro a ha
    refine List.mem_append_left _ ?_
    have hshared : a ∈ m.allServers ∨ a ∈ tableAddrs m.currentDomainToServers → a ∈ m.owned :=
      fun hmem => hs.subset_owned (List.mem_append.mpr hmem)
    simp only [Memory.pointers, List.mem_append] at ha
    simp only [Memory.owned, List.mem_append] at hshared ⊢
    tauto
  rw [h.owns.touch (List.Subset.trans has hsub)]

/-- Following the pointers gives the context. -/
lemma Mirrors.deref (h : Mirrors config forgotten lost m ctx) (hs : Shares m ctx) :
    m.deref = ctx := by
  have hfields := h.fields
  unfold Memory.deref
  rw [h.current, h.new, h.unbound, hs.all, hs.table, hfields]
  rfl

/-- `set_dynamic_servers` releases the records that it replaces. -/
lemma Mirrors.setDynamicServers (h : Mirrors config forgotten lost m ctx) :
    Mirrors config forgotten lost m.setDynamicServers (Dnsconfd.setDynamicServers ctx) := by
  have hperm : (m.owned ++ lost).Perm
      (m.currentDynamicServers ++ (m.setDynamicServers.owned ++ lost)) := by
    rw [← List.append_assoc]
    refine List.Perm.append_right lost ?_
    exact (List.perm_append_comm_assoc _ _ _).trans (by simp [Memory.owned, Memory.setDynamicServers])
  have howns := h.owns.perm hperm
  have hkeeps := howns.freeAll_keeps
  have hsub : ∀ {as : List Addr}, as ⊆ m.setDynamicServers.owned ++ lost →
      m.setDynamicServers.heap.values as = m.heap.values as :=
    fun has => (hkeeps.subset has).values
  have hold : tableAddrs m.currentUnboundDomainToServers ⊆ m.setDynamicServers.owned ++ lost := by
    intro a ha
    simp [Memory.owned, Memory.setDynamicServers, ha]
  refine ⟨h.fields, ?_, ?_, rfl, ?_, ?_, howns.freeAll⟩
  · exact (hsub fun a ha => by simp_all [Memory.owned, Memory.setDynamicServers]).trans h.static
  · exact (hsub fun a ha => by simp_all [Memory.owned, Memory.setDynamicServers]).trans h.new
  · exact (map_readTable_of_keeps (hkeeps.subset hold)).trans h.unbound
  · exact (hsub (List.subset_append_right _ _)).trans h.forgotten

/-- `update_context` brings the list of all servers and the table of servers back in step. -/
lemma Mirrors.updateContext (h : Mirrors config forgotten lost m ctx) (s : RecordSort p) :
    Mirrors config forgotten lost (m.updateContext s) (Dnsconfd.updateContext p config ctx) ∧
      Shares (m.updateContext s) (Dnsconfd.updateContext p config ctx) := by
  have hsub : m.staticServers ++ m.currentDynamicServers ⊆ m.owned ++ lost := by
    intro a ha
    rcases List.mem_append.mp ha with hmem | hmem <;> simp [Memory.owned, hmem]
  have hheap : (m.updateContext s).heap = m.heap := h.owns.touch hsub
  have hvalues : m.heap.values (m.staticServers ++ m.currentDynamicServers) =
      config.staticServers ++ ctx.currentDynamicServers := by
    rw [Heap.values_append, h.static, h.current]
  have hfields : (m.updateContext s).fields = (Dnsconfd.updateContext p config ctx).fields := by
    unfold Memory.updateContext
    rw [h.fields]
    rfl
  refine ⟨⟨hfields, ?_, ?_, ?_, ?_, ?_, ?_⟩, ⟨?_, ?_, ?_⟩⟩
  · rw [hheap]; exact h.static
  · rw [hheap]; exact h.current
  · rw [hheap]; exact h.new
  · rw [hheap]; exact h.unbound
  · rw [hheap]; exact h.forgotten
  · rw [hheap]; exact h.owns
  · rw [hheap]; exact hvalues
  · rw [hheap]
    refine (readTable_recordListToHashTable s _).trans ?_
    rw [hvalues]
    rfl
  · refine List.append_subset.mpr ⟨List.Subset.refl _, ?_⟩
    cases htable : recordListToHashTable s m.heap (m.staticServers ++ m.currentDynamicServers) with
    | none => simp [Memory.updateContext, htable, tableAddrs]
    | some t =>
      have haddrs := addrs_recordListToHashTable htable
      simpa [Memory.updateContext, htable, tableAddrs] using haddrs

end Owners

/-! ## Actions -/

/-- The servers of two contexts are the same. -/
structure SameServers (ctx ctx' : Context) : Prop where
  current : ctx'.currentDynamicServers = ctx.currentDynamicServers
  new : ctx'.newDynamicServers = ctx.newDynamicServers
  all : ctx'.allServers = ctx.allServers
  table : ctx'.currentDomainToServers = ctx.currentDomainToServers
  unbound : ctx'.currentUnboundDomainToServers = ctx.currentUnboundDomainToServers

/-- The memory represents the context. -/
def Represents (config : Config) (forgotten : List ServerUri) (m : Memory) (ctx : Context) : Prop :=
  ∃ lost, Mirrors config forgotten lost m ctx ∧ Shares m ctx

/-- An action on the memory does what the action on the context does. -/
structure ActsAs (config : Config) (forgotten : List ServerUri) (r : MemoryResult)
    (r' : ActionResult) : Prop where
  memory : Represents config forgotten r.memory r'.ctx
  effects : r.effects = r'.effects
  event : r.event = r'.event

section Actions

variable {forgotten : List ServerUri} {m : Memory} {ctx : Context}

lemma Represents.fields (h : Represents config forgotten m ctx) : m.fields = ctx.fields := by
  obtain ⟨_, hm, -⟩ := h
  exact hm.fields

lemma Represents.currentState (h : Represents config forgotten m ctx) :
    m.fields.currentState = ctx.currentState :=
  congrArg Fields.currentState h.fields

lemma Represents.deref (h : Represents config forgotten m ctx) : m.deref = ctx := by
  obtain ⟨_, hm, hs⟩ := h
  exact hm.deref hs

/-- Only fields other than pointers change. -/
lemma Represents.setFields (h : Represents config forgotten m ctx) {ctx' : Context}
    (hsame : SameServers ctx ctx') :
    Represents config forgotten { m with fields := ctx'.fields } ctx' := by
  obtain ⟨lost, hm, hs⟩ := h
  refine ⟨lost, ⟨rfl, hm.static, ?_, ?_, ?_, hm.forgotten, hm.owns⟩, ⟨?_, ?_, hs.subset⟩⟩
  · exact hm.current.trans hsame.current.symm
  · exact hm.new.trans hsame.new.symm
  · exact hm.unbound.trans hsame.unbound.symm
  · exact hs.all.trans hsame.all.symm
  · exact hs.table.trans hsame.table.symm

/-- An action that reads the records. -/
lemma Represents.reading (h : Represents config forgotten m ctx) {action : Context → ActionResult}
    (hsame : SameServers ctx (action ctx).ctx) :
    ActsAs config forgotten (m.reading action) (action ctx) := by
  have htouch : m.touch = m := by
    obtain ⟨_, hm, hs⟩ := h
    exact hm.touch_pointers hs (List.Subset.refl _)
  unfold Memory.reading
  rw [htouch, h.deref]
  exact ⟨h.setFields hsame, rfl, rfl⟩

lemma ActsAs.enter {r : MemoryResult} {r' : ActionResult} (h : ActsAs config forgotten r r')
    (state : FsmState) : ActsAs config forgotten (r.enter state) (r'.enter state) := by
  have hfields : ({ r.memory.fields with currentState := state } : Fields) =
      (r'.enter state).ctx.fields := by
    rw [h.memory.fields]
    rfl
  have hsame : SameServers r'.ctx (r'.enter state).ctx := ⟨rfl, rfl, rfl, rfl, rfl⟩
  have hmemory := h.memory.setFields hsame
  rw [← hfields] at hmemory
  exact ⟨hmemory, h.effects, h.event⟩

/-- Taking the servers of an Update over. -/
lemma Represents.takeServers (h : Represents config forgotten m ctx) (s : RecordSort p) :
    Represents config forgotten (m.setDynamicServers.updateContext s)
      (updateContext p config (setDynamicServers ctx)) := by
  obtain ⟨lost, hm, -⟩ := h
  exact ⟨lost, hm.setDynamicServers.updateContext s⟩

/-- `fsm_starting_event_kickoff`. -/
lemma Represents.kickoff (h : Represents config forgotten m ctx) (s : RecordSort p)
    (o : KickoffOutcome) :
    ActsAs config forgotten (m.fsmStartingEventKickoff p s config o)
      (fsmStartingEventKickoff p config o ctx) := by
  obtain ⟨lost, hm, -⟩ := h
  have hctx := fsmStartingEventKickoff_ctx p config o ctx
  have hupdated : Represents config forgotten _ (updateContext p config ctx) :=
    ⟨lost, hm.updateContext s⟩
  refine hupdated.reading ?_
  change SameServers _ (fsmStartingEventKickoff p config o ctx).ctx
  rw [hctx]
  exact ⟨rfl, rfl, rfl, rfl, rfl⟩

/-- What `update` leaves of the heap: the copies of a table that is returned are new records, and
otherwise all copies have been released. -/
inductive Updates (m : Memory) (lost : List Addr) :
    RecordUpdate × List Effect × Heap ServerUri → UpdateResult × List Effect → Prop where
  | done {new : RecordTable} {heap : Heap ServerUri} {effects : List Effect}
      (howns : heap.Owns (Heap.addrs new ++ (m.owned ++ lost)))
      (hkeeps : m.heap.Keeps heap (m.owned ++ lost)) :
      Updates m lost (.done new, effects, heap) (.done (heap.readTable new), effects)
  | reload {heap : Heap ServerUri} {effects : List Effect} (howns : heap.Owns (m.owned ++ lost))
      (hkeeps : m.heap.Keeps heap (m.owned ++ lost)) :
      Updates m lost (.reload, effects, heap) (.reload, effects)
  | error {heap : Heap ServerUri} {effects : List Effect} {text : Option String}
      (howns : heap.Owns (m.owned ++ lost)) (hkeeps : m.heap.Keeps heap (m.owned ++ lost)) :
      Updates m lost (.error, effects, heap) (.error text, effects)

/-- `update`. -/
lemma Mirrors.update {lost : List Addr} (hm : Mirrors config forgotten lost m ctx)
    (hs : Shares m ctx) (o : UpdateOutcome) :
    Updates m lost (m.update p config o) (Dnsconfd.update p config o ctx) := by
  unfold Memory.update Dnsconfd.update
  have hmode : m.fields.resolutionMode = ctx.resolutionMode := by rw [hm.fields]; rfl
  have hca : m.fields.effectiveCa = ctx.effectiveCa := by rw [hm.fields]; rfl
  rw [hmode, hca]
  cases htable : m.currentDomainToServers with
  | none =>
    have hnone : ctx.currentDomainToServers = none := by rw [← hs.table, htable]; rfl
    rw [hnone]
    exact .error hm.owns (Heap.Keeps.refl _ _)
  | some table =>
    have hsome : ctx.currentDomainToServers = some (m.heap.readTable table) := by
      rw [← hs.table, htable]
      rfl
    have hsub : Heap.addrs table ⊆ m.owned ++ lost := fun a ha =>
      List.mem_append_left _ (hs.subset_owned (List.mem_append_right _ (by rw [htable]; exact ha)))
    rw [hsome]
    dsimp only
    rw [hm.owns.touch hsub]
    -- the copies are new records; read back, they are the used servers
    obtain ⟨howns, hkeeps, hread⟩ := hm.owns.collectFresh (usedServersOf ctx.resolutionMode)
      (Table.nodupKeys_visit o.tableOrder (m.heap.readTable table))
    generalize Heap.collectFresh (usedServersOf ctx.resolutionMode)
      (o.tableOrder.visit (m.heap.readTable table).entries) m.heap = copied at howns hkeeps hread ⊢
    obtain ⟨heap, new⟩ := copied
    dsimp only at howns hkeeps hread ⊢
    change heap.readTable new =
      usedServersTable o.tableOrder (m.heap.readTable table) ctx.resolutionMode at hread
    rw [← hread]
    have hdiscarded : m.heap.Keeps (heap.freeAll (Heap.addrs new)) (m.owned ++ lost) :=
      hkeeps.trans howns.freeAll_keeps
    cases getEffectiveCa o.caOrder o.readable (some (heap.readTable new)) ctx.resolutionMode
        config with
    | none => exact .error howns.freeAll hdiscarded
    | some newEffectiveCa =>
      cases ctx.effectiveCa with
      | none => exact .error howns.freeAll hdiscarded
      | some effectiveCa =>
        dsimp only
        by_cases hdiffers : newEffectiveCa ≠ effectiveCa
        · rw [if_pos hdiffers, if_pos hdiffers]
          exact .reload howns.freeAll hdiscarded
        rw [if_neg hdiffers, if_neg hdiffers]
        have hunbound : tableAddrs m.currentUnboundDomainToServers ⊆ m.owned ++ lost := by
          intro a ha
          simp [Memory.owned, ha]
        have hused : Heap.addrs new ++ tableAddrs m.currentUnboundDomainToServers ⊆
            Heap.addrs new ++ (m.owned ++ lost) :=
          List.append_subset.mpr ⟨List.subset_append_left _ _,
            List.Subset.trans hunbound (List.subset_append_right _ _)⟩
        have hold : m.currentUnboundDomainToServers.map heap.readTable =
            ctx.currentUnboundDomainToServers :=
          (map_readTable_of_keeps (hkeeps.subset hunbound)).trans hm.unbound
        rw [howns.touch hused, hold]
        cases happly : applyUpdate p o ctx.currentUnboundDomainToServers
            (heap.readTable new) with
        | mk result effects =>
          cases result with
          | done result =>
            rw [(applyUpdate_done happly).1]
            exact .done howns hkeeps
          | reload =>
            unfold applyUpdate at happly
            dsimp only at happly
            split_ifs at happly <;> cases happly
          | error text => exact .error howns.freeAll hdiscarded

/-- An operation that only changes the heap and keeps all records with an owner. -/
lemma Mirrors.setHeap {lost : List Addr} (hm : Mirrors config forgotten lost m ctx)
    (hs : Shares m ctx) {heap : Heap ServerUri} (howns : heap.Owns (m.owned ++ lost))
    (hkeeps : m.heap.Keeps heap (m.owned ++ lost)) :
    Mirrors config forgotten lost { m with heap := heap } ctx ∧
      Shares { m with heap := heap } ctx := by
  have hsub : ∀ {as : List Addr}, (∀ a ∈ as, a ∈ m.owned ++ lost) → m.heap.Keeps heap as :=
    fun has => hkeeps.subset has
  have hunbound : m.heap.Keeps heap (tableAddrs m.currentUnboundDomainToServers) :=
    hsub fun a ha => by simp [Memory.owned, ha]
  refine ⟨⟨hm.fields, ?_, ?_, ?_, ?_, ?_, howns⟩, ?_⟩
  · exact (hsub fun a ha => by simp [Memory.owned, ha]).values.trans hm.static
  · exact (hsub fun a ha => by simp [Memory.owned, ha]).values.trans hm.current
  · exact (hsub fun a ha => by simp [Memory.owned, ha]).values.trans hm.new
  · exact (map_readTable_of_keeps hunbound).trans hm.unbound
  · exact (hsub fun a ha => List.mem_append_right _ ha).values.trans hm.forgotten
  · refine hs.frame (hsub fun a ha => ?_) rfl rfl rfl ⟨rfl, rfl⟩
    rcases List.mem_append.mp ha with hmem | hmem <;> simp [Memory.owned, hmem]

/-- `update_dns_manager`. -/
lemma Represents.updateDnsManager (h : Represents config forgotten m ctx) (o : UpdateOutcome) :
    ActsAs config forgotten (m.updateDnsManager p config o)
      (updateDnsManager p config o ctx) := by
  obtain ⟨lost, hm, hs⟩ := h
  have hupdate := hm.update (p := p) hs o
  unfold Memory.updateDnsManager Dnsconfd.updateDnsManager
  generalize m.update p config o = r at hupdate ⊢
  generalize Dnsconfd.update p config o ctx = r' at hupdate ⊢
  cases hupdate with
  | reload howns hkeeps => exact ⟨⟨lost, hm.setHeap hs howns hkeeps⟩, rfl, rfl⟩
  | error howns hkeeps => exact ⟨⟨lost, hm.setHeap hs howns hkeeps⟩, rfl, rfl⟩
  | @done new heap effects howns hkeeps =>
    dsimp only
    -- the copies replace those of the old table, which is released
    have hperm : (Heap.addrs new ++ (m.owned ++ lost)).Perm
        (tableAddrs m.currentUnboundDomainToServers ++ ((m.staticServers ++
          (m.currentDynamicServers ++ (m.newDynamicServers ++ Heap.addrs new))) ++ lost)) := by
      unfold Memory.owned
      grind
    have hfreed := (howns.perm hperm).freeAll
    have hkept := (howns.perm hperm).freeAll_keeps
    have hsub : ∀ {as : List Addr},
        as ⊆ m.staticServers ++ (m.currentDynamicServers ++ (m.newDynamicServers ++ lost)) →
        m.heap.Keeps (heap.freeAll (tableAddrs m.currentUnboundDomainToServers)) as := by
      intro as has
      refine (hkeeps.subset fun a ha => ?_).trans (hkept.subset fun a ha => ?_)
      · have hmem := has ha
        simp only [Memory.owned, List.mem_append] at hmem ⊢
        tauto
      · have hmem := has ha
        simp only [List.mem_append] at hmem ⊢
        tauto
    have hcurrent : heap.values m.currentDynamicServers = ctx.currentDynamicServers :=
      (hkeeps.subset fun a ha => by simp [Memory.owned, ha]).values.trans hm.current
    have hnew : (heap.freeAll (tableAddrs m.currentUnboundDomainToServers)).readTable new =
        heap.readTable new :=
      Heap.Keeps.readTable (hkept.subset fun a ha => by simp [ha])
    refine ⟨⟨lost, ⟨?_, ?_, ?_, ?_, ?_, ?_, hfreed⟩, ?_⟩, ?_, rfl⟩
    · rw [hm.fields]
      rfl
    · exact (hsub fun a ha => by simp [ha]).values.trans hm.static
    · exact (hsub fun a ha => by simp [ha]).values.trans hm.current
    · exact (hsub fun a ha => by simp [ha]).values.trans hm.new
    · exact congrArg some hnew
    · exact (hsub fun a ha => by simp [ha]).values.trans hm.forgotten
    · refine hs.frame (hsub fun a ha => ?_) rfl rfl rfl ⟨rfl, rfl⟩
      rcases List.mem_append.mp ha with hmem | hmem <;> simp [hmem]
    · rw [hcurrent, hm.fields]
      rfl

end Actions

/-! ## Iterations and runs -/

/-- The states and events whose actions handle records. -/
def handlesRecords : FsmState → FsmEvent → Bool
  | .starting, .update => true
  | .starting, .kickoff => true
  | .waitingForStartJob, .update => true
  | .waitingForStartJob, .reload => true
  | .settingResolvConf, .success => true
  | .updatingDnsManager, .reload => true
  | .running, .update => true
  | .running, .reload => true
  | _, _ => false

/-- All other actions leave the servers of the context alone. -/
lemma Edge.sameServers {o : Outcomes} {ctx : Context} {event : FsmEvent} {r : ActionResult}
    (h : Edge p config o ctx event r) (hrest : handlesRecords ctx.currentState event = false) :
    SameServers ctx r.ctx := by
  cases h with
  | refresh hs => rcases hs with hs | hs <;> simp [handlesRecords, hs] at hrest
  | @kickoff event _ hs _ =>
    exfalso
    revert hs hrest
    cases ctx.currentState <;> cases event <;> simp [isKickoff, handlesRecords]
  | updateRunning hs | resolvConfSet hs => simp [handlesRecords, hs] at hrest
  | ignored | abandon | startJobSubmitted | updated | stopJobSubmitted | quit =>
    exact ⟨rfl, rfl, rfl, rfl, rfl⟩
  | startJob | startJobDone | stopRunning | stopJob =>
    constructor <;> simp [ActionResult.enter, submitStopJob]
  | startJobFailed | resolvConfFailed | updateFailed =>
    constructor <;> simp [ActionResult.enter, submitStopJob, setExitCode_eq]

section Iterations

variable {forgotten : List ServerUri} {m : Memory} {ctx : Context}

/-- An action that does not handle records. -/
lemma Memory.transitionAction_of_not_handlesRecords (s : RecordSort p) (o : Outcomes)
    {event : FsmEvent} (h : handlesRecords m.fields.currentState event = false) :
    m.transitionAction p s config o event =
      (Dnsconfd.transitionAction p config o m.deref event).map fun r => m.reading fun _ => r := by
  unfold Memory.transitionAction
  split <;> simp_all [handlesRecords]

/-- An iteration on the memory does what the iteration on the context does, and refuses the same
events. -/
lemma Represents.transitionAction (h : Represents config forgotten m ctx) (s : RecordSort p)
    (o : Outcomes) (event : FsmEvent) :
    Option.Rel (ActsAs config forgotten) (m.transitionAction p s config o event)
      (transitionAction p config o ctx event) := by
  have hstate := h.currentState
  cases hrecords : handlesRecords ctx.currentState event with
  | false =>
    rw [Memory.transitionAction_of_not_handlesRecords s o (hstate ▸ hrecords), h.deref]
    cases haction : Dnsconfd.transitionAction p config o ctx event with
    | none => exact .none
    | some r =>
      have hsame := (edge_of_transitionAction haction).sameServers hrecords
      exact .some (@Represents.reading _ _ _ _ h (fun _ => r) hsame)
  | true =>
    have hkickoff := (h.kickoff s o.kickoff).enter .configuringDnsManager
    unfold Memory.transitionAction Dnsconfd.transitionAction
    rw [hstate]
    cases hs : ctx.currentState <;> cases event <;> rw [hs] at hrecords <;>
      first | exact absurd hrecords (by decide) | dsimp only
    case starting.update | waitingForStartJob.update => exact .some ⟨h.takeServers s, rfl, rfl⟩
    case starting.kickoff | waitingForStartJob.reload => exact .some hkickoff
    case settingResolvConf.success => exact .some ((h.updateDnsManager o.update).enter _)
    case updatingDnsManager.reload | running.reload =>
      exact .some ⟨hkickoff.memory, congrArg (List.cons _) hkickoff.effects, hkickoff.event⟩
    case running.update =>
      have hsame : SameServers (updateContext p config (setDynamicServers ctx))
          (setResolvConf p config o.resolvConf
            (updateContext p config (setDynamicServers ctx))).ctx := by
        rw [setResolvConf_ctx]
        exact ⟨rfl, rfl, rfl, rfl, rfl⟩
      exact .some (((h.takeServers s).reading hsame).enter _)

/-- The machine on the memory is where the machine on the context is. -/
structure RunsAs (config : Config) (forgotten : List ServerUri) (m : MemoryMachine)
    (m' : Machine) : Prop where
  memory : Represents config forgotten m.memory m'.ctx
  event : m.event = m'.event
  log : m.log = m'.log

/-- One iteration. -/
lemma RunsAs.transition {m : MemoryMachine} {m' : Machine} (h : RunsAs config forgotten m m')
    (s : RecordSort p) (o : Outcomes) :
    Option.Rel (RunsAs config forgotten) (m.transition p s config o) (transition p config o m') := by
  have haction := h.memory.transitionAction s o m'.event
  unfold MemoryMachine.transition Dnsconfd.transition
  rw [h.event, h.log, h.memory.currentState]
  refine optionRel_map haction fun r r' _ hacts => ⟨hacts.memory, hacts.event, ?_⟩
  dsimp only
  rw [hacts.effects]

/-- `state_transition`. -/
lemma RunsAs.stateTransition {m : MemoryMachine} {m' : Machine} (h : RunsAs config forgotten m m')
    (s : RecordSort p) (o : Outcomes) :
    (m.stateTransition p s config o).accepted =
        (stateTransition p config o m'.ctx m'.event m'.log).accepted ∧
      RunsAs config forgotten (m.stateTransition p s config o).state
        (stateTransition p config o m'.ctx m'.event m'.log).state := by
  have hloop : Option.Rel
      (fun r r' => r.accepted = r'.accepted ∧ RunsAs config forgotten r.state r'.state)
      (doWhile (MemoryMachine.transition p s config o) MemoryMachine.hasEvent maxIterations m)
      (doWhile (Dnsconfd.transition p config o) Machine.hasEvent maxIterations m') := by
    refine doWhile_rel (fun n n' hn => ?_) (fun n n' hn => hn.transition s o) maxIterations m m' h
    rw [MemoryMachine.hasEvent, Machine.hasEvent, hn.event]
  have heq := stateTransitionLoop_eq p config o m'.ctx m'.event m'.log
  unfold stateTransitionLoop at heq
  rw [heq] at hloop
  unfold MemoryMachine.stateTransition
  generalize doWhile (MemoryMachine.transition p s config o) MemoryMachine.hasEvent maxIterations m
    = r at hloop ⊢
  cases hloop with
  | some hend => exact hend

end Iterations

/-! ## Decoding an Update -/

/-- What the loop over the dictionaries leaves: the records of the parsed servers besides those
that there were, or these alone. -/
inductive Parses (heap : Heap ServerUri) (rest : List Addr) :
    Heap ServerUri × Except ParseError (List Addr) → Except ParseError (List ServerUri) →
      Prop where
  | ok {heap' : Heap ServerUri} {parsedServers : List Addr}
      (howns : heap'.Owns (parsedServers ++ rest)) (hkeeps : heap.Keeps heap' rest) :
      Parses heap rest (heap', .ok parsedServers) (.ok (heap'.values parsedServers))
  | error {heap' : Heap ServerUri} {error : ParseError} (howns : heap'.Owns rest)
      (hkeeps : heap.Keeps heap' rest) : Parses heap rest (heap', .error error) (.error error)

/-- What a loop leaves, from an earlier heap. -/
lemma Parses.of_keeps {heap₁ heap₂ : Heap ServerUri} {rest : List Addr}
    {r : Heap ServerUri × Except ParseError (List Addr)} {r' : Except ParseError (List ServerUri)}
    (h : Parses heap₂ rest r r') (hkeeps : heap₁.Keeps heap₂ rest) : Parses heap₁ rest r r' := by
  cases h with
  | ok howns hkeeps' => exact .ok howns (hkeeps.trans hkeeps')
  | error howns hkeeps' => exact .error howns (hkeeps.trans hkeeps')

/-- Every record that the loop allocates is parsed or released. -/
lemma parseRecords_parses (isWireless : String → Bool) {rest : List Addr}
    (dicts : List VariantDict) {heap : Heap ServerUri} {parsedServers : List Addr}
    (ho : heap.Owns (parsedServers ++ rest)) :
    Parses heap rest (parseRecords p isWireless dicts heap parsedServers)
      (parseServers p isWireless dicts (heap.values parsedServers)) := by
  induction dicts generalizing heap parsedServers with
  | nil => exact .ok ho (Heap.Keeps.refl _ _)
  | cons dict dicts ih =>
    have hsub : rest ⊆ parsedServers ++ rest := List.subset_append_right _ _
    have halloc := ho.alloc ServerUri.initial
    have hkeeps := ho.alloc_keeps ServerUri.initial
    unfold parseRecords parseServers
    cases parseServerDict p dict with
    | error error =>
      refine .error halloc.free.freeAll ?_
      exact (hkeeps.subset hsub).trans
        ((halloc.free_keeps.subset hsub).trans halloc.free.freeAll_keeps)
    | ok server =>
      have hwrite := halloc.write server
      have hkeeps₁ : heap.Keeps ((heap.alloc .initial).write heap.next server)
          (parsedServers ++ rest) := hkeeps.trans (halloc.write_keeps server)
      have htouch : heap.next :: parsedServers ⊆ heap.next :: (parsedServers ++ rest) :=
        List.cons_subset_cons _ (List.subset_append_left _ _)
      have hserver : ((heap.alloc .initial).write heap.next server).value heap.next = server := by
        rw [Heap.value, halloc.read_write_self]
        rfl
      have hparsed : ((heap.alloc .initial).write heap.next server).values parsedServers =
          heap.values parsedServers := (hkeeps₁.subset (List.subset_append_left _ _)).values
      change Parses heap rest _ (if isDuplicate (heap.values parsedServers) server then _ else _)
      dsimp only
      rw [hwrite.touch htouch, hserver, hparsed]
      by_cases hduplicate : isDuplicate (heap.values parsedServers) server = true
      · rw [if_pos hduplicate, if_pos hduplicate]
        have hkeeps₂ := hkeeps₁.trans hwrite.free_keeps
        have hrest := ih hwrite.free
        rw [(hkeeps₂.subset (List.subset_append_left _ _)).values] at hrest
        exact hrest.of_keeps (hkeeps₂.subset hsub)
      · rw [if_neg hduplicate, if_neg hduplicate]
        have hkeeps₂ := hkeeps₁.trans (hwrite.write_keeps (lowerWireless isWireless server))
        have hperm : (heap.next :: (parsedServers ++ rest)).Perm
            ((parsedServers ++ [heap.next]) ++ rest) := by
          rw [List.append_assoc]
          exact List.perm_middle.symm
        have hrest := ih ((hwrite.write (lowerWireless isWireless server)).perm hperm)
        rw [Heap.values_append, (hkeeps₂.subset (List.subset_append_left _ _)).values] at hrest
        have hlast : (((heap.alloc .initial).write heap.next server).write heap.next
            (lowerWireless isWireless server)).values [heap.next] =
              [lowerWireless isWireless server] := by
          rw [Heap.values, List.map_singleton, Heap.value, hwrite.read_write_self]
          rfl
        rw [hlast] at hrest
        exact hrest.of_keeps (hkeeps₂.subset hsub)

/-! ## Runs -/

/-- The servers that nothing points to any more once an input has been handled: those of an Update
that was not taken over before the next one. -/
def overwritten (p : Platform) (d : Daemon) (i : Input) : List ServerUri :=
  if i.decodes p then d.ctx.newDynamicServers else []

/-- Only an Update that passes parsing makes servers forgotten. -/
lemma append_overwritten {i : Input} (hi : i.decodes p = false) {forgotten : List ServerUri}
    {d : Daemon} : forgotten ++ overwritten p d i = forgotten := by
  rw [overwritten, hi]
  exact List.append_nil forgotten

/-- The servers that are forgotten during a run. -/
def forgottenServers (p : Platform) (config : Config) : Daemon → List Input → List ServerUri
  | _, [] => []
  | d, i :: is => overwritten p d i ++ forgottenServers p config (d.step p config i) is

/-- What the daemon of values has to reply to the Status calls of a run. -/
def statusReplies (p : Platform) (config : Config) : Daemon → List Request → List Json
  | _, [] => []
  | d, .input i :: rs => statusReplies p config (d.step p config i) rs
  | d, .statusCall order :: rs => configToJson p.inet order d.ctx :: statusReplies p config d rs

/-- The daemon on the memory is where the daemon of values is. -/
structure Executes (config : Config) (forgotten : List ServerUri) (d : MemoryDaemon)
    (d' : Daemon) : Prop where
  memory : Represents config forgotten d.memory d'.ctx
  log : d.log = d'.log

section Runs

variable {forgotten : List ServerUri} {d : MemoryDaemon} {d' : Daemon}

/-- Only the exit code and the log change. -/
lemma Executes.quit (h : Executes config forgotten d d') (code : ExitCode) :
    Executes config forgotten
      ⟨{ d.memory with fields := { d.memory.fields with exitCode := code } },
        d.log ++ [.mainLoopQuit]⟩
      ⟨{ d'.ctx with exitCode := code }, d'.log ++ [.mainLoopQuit]⟩ := by
  have hsame : SameServers d'.ctx { d'.ctx with exitCode := code } := ⟨rfl, rfl, rfl, rfl, rfl⟩
  have hmemory := h.memory.setFields hsame
  have hfields : ({ d.memory.fields with exitCode := code } : Fields) =
      ({ d'.ctx with exitCode := code } : Context).fields := by
    rw [h.memory.fields]
    rfl
  rw [← hfields] at hmemory
  exact ⟨hmemory, congrArg (· ++ _) h.log⟩

/-- Handling of an event whose refusal is fatal. -/
lemma Executes.dispatch (h : Executes config forgotten d d') (s : RecordSort p) (o : Outcomes)
    (event : FsmEvent) :
    Executes config forgotten (d.dispatch p s config o event) (dispatch p config o event d') := by
  have hrun : RunsAs config forgotten ⟨d.memory, event, d.log⟩ ⟨d'.ctx, event, d'.log⟩ :=
    ⟨h.memory, rfl, h.log⟩
  obtain ⟨haccepted, hend⟩ := hrun.stateTransition s o
  unfold MemoryDaemon.dispatch Dnsconfd.dispatch
  dsimp only at haccepted hend ⊢
  rw [haccepted]
  split_ifs
  · exact ⟨hend.memory, hend.log⟩
  · exact @Executes.quit _ _ ⟨_, _⟩ ⟨_, _⟩ ⟨hend.memory, hend.log⟩ .fsmFailure

/-- The servers parsed from an Update call take the place of those that were waiting to be taken
over, which are forgotten. -/
lemma Mirrors.receive {lost : List Addr} {m : Memory} {ctx : Context}
    (hm : Mirrors config forgotten lost m ctx) (hs : Shares m ctx) {heap : Heap ServerUri}
    {parsedServers : List Addr} (howns : heap.Owns (parsedServers ++ (m.owned ++ lost)))
    (hkeeps : m.heap.Keeps heap (m.owned ++ lost)) (mode : Mode) :
    Represents config (forgotten ++ ctx.newDynamicServers)
      { m with
        heap := heap
        newDynamicServers := parsedServers
        fields := { m.fields with resolutionMode := mode } }
      { ctx with
        newDynamicServers := heap.values parsedServers
        resolutionMode := mode } := by
  have hperm : (parsedServers ++ (m.owned ++ lost)).Perm
      ((m.staticServers ++ (m.currentDynamicServers ++ (parsedServers ++
        tableAddrs m.currentUnboundDomainToServers))) ++ (lost ++ m.newDynamicServers)) := by
    unfold Memory.owned
    grind
  have hsub : ∀ {as : List Addr}, (∀ a ∈ as, a ∈ m.owned ++ lost) → m.heap.Keeps heap as :=
    fun has => hkeeps.subset has
  have hunbound : m.heap.Keeps heap (tableAddrs m.currentUnboundDomainToServers) :=
    hsub fun a ha => by simp [Memory.owned, ha]
  have hlost : heap.values (lost ++ m.newDynamicServers) = forgotten ++ ctx.newDynamicServers := by
    have hkept : m.heap.Keeps heap (lost ++ m.newDynamicServers) := hsub fun a ha => by
      rcases List.mem_append.mp ha with hmem | hmem <;> simp [Memory.owned, hmem]
    rw [hkept.values, Heap.values_append, hm.forgotten, hm.new]
  refine ⟨lost ++ m.newDynamicServers, ⟨?_, ?_, ?_, rfl, ?_, hlost, howns.perm hperm⟩, ?_⟩
  · rw [hm.fields]
    rfl
  · exact (hsub fun a ha => by simp [Memory.owned, ha]).values.trans hm.static
  · exact (hsub fun a ha => by simp [Memory.owned, ha]).values.trans hm.current
  · exact (map_readTable_of_keeps hunbound).trans hm.unbound
  · refine hs.frame (hsub fun a ha => ?_) rfl rfl rfl ⟨rfl, rfl⟩
    rcases List.mem_append.mp ha with hmem | hmem <;> simp [Memory.owned, hmem]

/-- An Update call. -/
lemma Executes.handleUpdateCall (h : Executes config forgotten d d') (s : RecordSort p)
    (o : Outcomes) (isWireless : String → Bool) (servers : List VariantDict) (mode : UInt32) :
    Executes config
      (forgotten ++ overwritten p d' ⟨.updateCall servers mode, o, isWireless⟩)
      (d.handleUpdateCall p s config o isWireless servers mode)
      (handleUpdateCall p config o isWireless servers mode d') := by
  obtain ⟨⟨lost, hm, hs⟩, hlog⟩ := h
  have hparses : Parses d.memory.heap (d.memory.owned ++ lost)
      (parseRecords p isWireless servers d.memory.heap []) (parseServers p isWireless servers []) :=
    parseRecords_parses isWireless servers hm.owns
  have hrejected : ∀ {error : ParseError},
      decodeUpdateCall p isWireless servers mode = .error error →
      forgotten ++ overwritten p d' ⟨.updateCall servers mode, o, isWireless⟩ = forgotten := by
    intro error herror
    exact append_overwritten (by simp [Input.decodes, herror, Except.isOk, Except.toBool])
  unfold MemoryDaemon.handleUpdateCall Dnsconfd.handleUpdateCall
  cases hmode : Mode.ofUInt32 mode with
  | none =>
    have herror : decodeUpdateCall p isWireless servers mode = .error .invalidMode := by
      rw [decodeUpdateCall, hmode]
    rw [hrejected herror, herror]
    exact ⟨⟨lost, hm, hs⟩, congrArg (· ++ _) hlog⟩
  | some mode' =>
    cases hresult : parseServers p isWireless servers [] with
    | error error =>
      have herror : decodeUpdateCall p isWireless servers mode = .error error := by
        rw [decodeUpdateCall, hmode, hresult]
      rw [hresult] at hparses
      rw [hrejected herror, herror]
      generalize parseRecords p isWireless servers d.memory.heap [] = parsed at hparses ⊢
      cases hparses with
      | error howns hkeeps =>
        exact ⟨⟨lost, hm.setHeap hs howns hkeeps⟩, congrArg (· ++ _) hlog⟩
    | ok result =>
      have hok : decodeUpdateCall p isWireless servers mode = .ok (result, mode') := by
        rw [decodeUpdateCall, hmode, hresult]
      have hforgotten : overwritten p d' ⟨.updateCall servers mode, o, isWireless⟩ =
          d'.ctx.newDynamicServers := by
        simp [overwritten, Input.decodes, hok, Except.isOk, Except.toBool]
      rw [hresult] at hparses
      rw [hforgotten, hok]
      generalize parseRecords p isWireless servers d.memory.heap [] = parsed at hparses ⊢
      cases hparses with
      | ok howns hkeeps =>
        have hreceived := hm.receive hs howns hkeeps mode'
        have hdispatched := @Executes.dispatch _ _ _ ⟨_, d.log ++ [_]⟩ (d'.receive _ mode')
          ⟨hreceived, congrArg (· ++ _) hlog⟩ s o .update
        refine ⟨hdispatched.memory, ?_⟩
        have hserial := congrArg Fields.requestedConfigurationSerial hdispatched.memory.fields
        exact congrArg₂ (fun log serial => log ++ [.updateReplied serial "Update accepted"])
          hdispatched.log hserial

/-- The response to one input. -/
lemma Executes.step (h : Executes config forgotten d d') (s : RecordSort p) (i : Input) :
    Executes config (forgotten ++ overwritten p d' i) (d.step p s config i)
      (d'.step p config i) := by
  obtain ⟨event, o, isWireless⟩ := i
  cases event with
  | updateCall servers mode => exact h.handleUpdateCall s o isWireless servers mode
  | reloadCall =>
    have hdispatched := h.dispatch s o .reload
    rw [append_overwritten rfl]
    exact ⟨hdispatched.memory, congrArg (· ++ _) hdispatched.log⟩
  | nameAcquired =>
    rw [append_overwritten rfl]
    exact h.dispatch s o .kickoff
  | nameLost =>
    rw [append_overwritten rfl]
    exact h.quit .dbusFailure
  | sigterm =>
    rw [append_overwritten rfl]
    exact h.dispatch s o .stop
  | jobFinished result =>
    have hrun : RunsAs config forgotten ⟨d.memory, jobEvent result, d.log⟩
        ⟨d'.ctx, jobEvent result, d'.log⟩ := ⟨h.memory, rfl, h.log⟩
    have hend := (hrun.stateTransition s o).2
    rw [append_overwritten rfl]
    exact ⟨hend.memory, hend.log⟩

/-- A Status call is answered from the context, and it changes nothing. -/
lemma Executes.handleStatusCall (h : Executes config forgotten d d') (net : Inet)
    (order : Enumeration ServerEntry) :
    d.handleStatusCall net order = (d, configToJson net order d'.ctx) := by
  obtain ⟨_, hm, hs⟩ := h.memory
  have hused : d.memory.allServers ++ tableAddrs d.memory.currentUnboundDomainToServers ⊆
      d.memory.pointers := by
    intro a ha
    simp only [Memory.pointers, List.mem_append] at ha ⊢
    tauto
  unfold MemoryDaemon.handleStatusCall
  dsimp only
  rw [hm.touch_pointers hs hused, h.memory.deref]

/-- A whole run. -/
lemma Executes.runFrom (h : Executes config forgotten d d') (s : RecordSort p) (replies : List Json)
    (rs : List Request) :
    let q := (memoryDaemon p s config).runFrom ⟨d, replies⟩ rs
    Executes config (forgotten ++ forgottenServers p config d' (rs.filterMap Request.asInput))
        q.daemon ((daemon p config).runFrom d' (rs.filterMap Request.asInput)) ∧
      q.replies = replies ++ statusReplies p config d' rs := by
  induction rs generalizing forgotten d d' replies with
  | nil =>
    rw [List.filterMap_nil, forgottenServers, List.append_nil, statusReplies, List.append_nil]
    exact ⟨h, rfl⟩
  | cons r rs ih =>
    cases r with
    | input i =>
      have hrest := ih (h.step s i) replies
      rw [List.append_assoc] at hrest
      exact hrest
    | statusCall order =>
      have hrest := ih h (replies ++ [configToJson p.inet order d'.ctx])
      have hstep : (memoryDaemon p s config).step ⟨d, replies⟩ (.statusCall order) =
          ⟨d, replies ++ [configToJson p.inet order d'.ctx]⟩ := by
        change MemoryProcess.step p s config ⟨d, replies⟩ (.statusCall order) = _
        rw [MemoryProcess.step, h.handleStatusCall]
      rw [List.append_assoc, ← hstep] at hrest
      exact hrest

end Runs

/-- The daemons correspond when their main loops start. -/
lemma executes_initial (config : Config) :
    Executes config [] (.initial config) .initial := by
  have howns := Heap.Owns.empty.allocAll config.staticServers
  have hvalues := Heap.Owns.empty.values_allocAll config.staticServers
  refine ⟨⟨[], ⟨rfl, hvalues, rfl, rfl, rfl, rfl, ?_⟩, ⟨rfl, rfl, ?_⟩⟩, rfl⟩
  · simpa [MemoryDaemon.initial, Memory.initial, Memory.owned, tableAddrs] using howns
  · simp [MemoryDaemon.initial, Memory.initial, tableAddrs]

/-- The daemon with its records on the heap refines the daemon of values: in every run, whatever the
inputs and the outcomes of system calls and wherever Status is called between them, no record is used
or released that is not allocated, and what is found by following the pointers, what is replied to
the Status calls, as well as everything that is done, is what the daemon of values has and does. -/
theorem memoryDaemon_refines (p : Platform) (s : RecordSort p) (config : Config)
    (rs : List Request) :
    let q := (memoryDaemon p s config).run rs
    let d := (daemon p config).run (rs.filterMap Request.asInput)
    q.daemon.memory.heap.misused = false ∧ q.daemon.memory.deref = d.ctx ∧ q.daemon.log = d.log ∧
      q.replies = statusReplies p config .initial rs := by
  obtain ⟨hrun, hreplies⟩ := (executes_initial config).runFrom s [] rs
  obtain ⟨_, hm, -⟩ := hrun.memory
  exact ⟨hm.owns.used, hrun.memory.deref, hrun.log, hreplies⟩

/-! ## The end of the process -/

/-- `clean_context` and `config_cleanup` release every record that has an owner. -/
lemma Mirrors.cleanup {forgotten : List ServerUri} {lost : List Addr} {m : Memory} {ctx : Context}
    (h : Mirrors config forgotten lost m ctx) :
    m.cleanup.Owns lost ∧ m.cleanup.values lost = forgotten := by
  have hperm : (m.owned ++ lost).Perm (m.currentDynamicServers ++ (m.newDynamicServers ++
      (tableAddrs m.currentUnboundDomainToServers ++ (m.staticServers ++ lost)))) := by
    unfold Memory.owned
    grind
  have h₀ := h.owns.perm hperm
  have h₁ := h₀.freeAll
  have h₂ := h₁.freeAll
  have h₃ := h₂.freeAll
  have hkeeps : m.heap.Keeps m.cleanup lost := by
    refine (h₀.freeAll_keeps.subset fun a ha => ?_).trans
      ((h₁.freeAll_keeps.subset fun a ha => ?_).trans
        ((h₂.freeAll_keeps.subset (List.subset_append_right _ _)).trans h₃.freeAll_keeps))
    · simp [ha]
    · simp [ha]
  exact ⟨h₃.freeAll, hkeeps.values.trans h.forgotten⟩

/-- When the process ends after any run, releasing what is left is safe, and the records that remain
allocated are exactly those that were forgotten. -/
theorem cleanup_leaves_forgotten (p : Platform) (s : RecordSort p) (config : Config)
    (rs : List Request) :
    let cleaned := ((memoryDaemon p s config).run rs).daemon.memory.cleanup
    ∃ lost, cleaned.Owns lost ∧ cleaned.values lost =
      forgottenServers p config .initial (rs.filterMap Request.asInput) := by
  obtain ⟨lost, hm, -⟩ := ((executes_initial config).runFrom s [] rs).1.memory
  exact ⟨lost, hm.cleanup⟩

/-! ## When nothing is forgotten -/

/-- Whether an Update is taken over, and that nothing else touches the servers waiting for it. -/
lemma Edge.newDynamicServers {o : Outcomes} {ctx : Context} {event : FsmEvent} {r : ActionResult}
    (h : Edge p config o ctx event r) :
    r.ctx.newDynamicServers = [] ∨ ctx.currentState.isLive = false ∨
      (event ≠ .update ∧ r.ctx.newDynamicServers = ctx.newDynamicServers) := by
  cases h with
  | refresh hs => exact Or.inl rfl
  | updateRunning hs => exact Or.inl (by simp [ActionResult.enter, updateContext, setDynamicServers])
  | @ignored event hs =>
    right
    revert hs
    cases ctx.currentState <;> cases event <;> simp [isIgnored, FsmState.isLive]
  | @kickoff event n hs hn =>
    refine Or.inr (Or.inr ⟨?_, by simp [updateContext]⟩)
    rintro rfl
    revert hs
    cases ctx.currentState <;> simp [isKickoff]
  | resolvConfSet hs =>
    refine Or.inr (Or.inr ⟨by simp, ?_⟩)
    rcases updateDnsManager_cases p config o.update ctx with ⟨_, _, -, h⟩ | ⟨_, _, _, -, h⟩ <;>
      simp [ActionResult.enter, h]
  | @abandon event hs =>
    refine Or.inr (Or.inr ⟨?_, rfl⟩)
    rintro rfl
    revert hs
    cases ctx.currentState <;> simp [isAbandon]
  | @stopJob event hs =>
    refine Or.inr (Or.inr ⟨?_, by simp [ActionResult.enter, submitStopJob]⟩)
    rintro rfl
    revert hs
    cases ctx.currentState <;> simp [isStopJob]
  | startJobSubmitted | updated | stopJobSubmitted | quit => exact Or.inr (Or.inr ⟨by simp, rfl⟩)
  | startJob | startJobDone | stopRunning =>
    exact Or.inr (Or.inr ⟨by simp, by simp [ActionResult.enter]⟩)
  | startJobFailed | resolvConfFailed | updateFailed =>
    exact Or.inr (Or.inr ⟨by simp, by simp [ActionResult.enter, submitStopJob, setExitCode_eq]⟩)

/-- Before the daemon starts to stop, no servers are waiting to be taken over unless an Update is
at hand. -/
def TakesOver (a : Moment) : Prop :=
  (a.ctx.currentState.isLive = true → a.event ≠ .update → a.ctx.newDynamicServers = []) ∧
    RestsOrProceeds a

/-- The invariant is preserved by every small step. -/
lemma TakesOver.micro {ok : Machine → Prop} {a b : Moment} (h : TakesOver a)
    (hstep : Micro p config ok a b) : TakesOver b := by
  refine ⟨?_, restsOrProceeds_micro h.2 hstep⟩
  -- a refused event leaves the servers alone, and an Update is refused only when it is too late
  have hrefused : ∀ {o : Outcomes} {ctx : Context} {event : FsmEvent} {log : List Effect}
      {answering : Bool}, TakesOver ⟨⟨ctx, event, log⟩, answering⟩ →
      transitionAction p config o ctx event = none → ctx.currentState.isLive = true →
      ctx.newDynamicServers = [] := by
    intro o ctx event log answering ht hnone hlive
    by_cases hevent : event = .update
    · subst hevent
      have hresting : ctx.currentState.isResting = true := by
        refine ht.2.resolve_right ?_
        change ¬ isExpected ctx.currentState .update = true
        cases ctx.currentState <;> simp [isExpected]
      rw [not_live_of_refused_update hresting hnone] at hlive
      cases hlive
    · exact ht.1 hlive hevent
  cases hstep with
  | edge hok hedge =>
    intro hlive _
    have hbefore := hedge.isLive_of_isLive hlive
    rcases hedge.newDynamicServers with hnil | hlate | ⟨hevent, hsame⟩
    · exact hnil
    · rw [hbefore] at hlate
      cases hlate
    · exact hsame.trans (h.1 hbefore hevent)
  | receive he hu => exact fun hlive _ => h.1 hlive (by simp)
  | parsed servers mode => exact fun _ hevent => absurd rfl hevent
  | @refused o ctx event log answering hnone =>
    have hnew : ctx.currentState.isLive = true → ctx.newDynamicServers = [] := hrefused h hnone
    exact fun hlive _ => hnew hlive
  | skipped hnone => exact fun hlive _ => hrefused h hnone hlive
  | replied => exact h.1
  | rejected error => exact h.1
  | reloadReplied => exact h.1
  | nameLost => exact h.1

/-- No Update is forgotten that arrives before the daemon starts to stop. -/
lemma forgottenServers_eq_nil {d : Daemon} (hd : TakesOver d.moment) {is : List Input}
    (his : (daemon p config).Meets
      (fun d i => i.decodes p = true → d.ctx.currentState.isLive = true) d is) :
    forgottenServers p config d is = [] := by
  induction is generalizing d with
  | nil => rfl
  | cons i is ih =>
    have hstep : TakesOver (d.step p config i).moment :=
      invariant_of_step (fun _ _ ht hmicro => ht.micro hmicro) hd i
    have hnone : overwritten p d i = [] := by
      unfold overwritten
      split_ifs with hdecodes
      · exact hd.1 (his.1 hdecodes) (by simp [Daemon.moment])
      · rfl
    rw [forgottenServers, hnone, ih hstep his.2]
    rfl

/-- If every Update that passes parsing arrives before the daemon starts to stop, then no record is
left when the process ends. -/
theorem cleanup_leaves_nothing (p : Platform) (s : RecordSort p) (config : Config)
    (rs : List Request)
    (hrs : (daemon p config).Meets
      (fun d i => i.decodes p = true → d.ctx.currentState.isLive = true) .initial
      (rs.filterMap Request.asInput)) :
    ((memoryDaemon p s config).run rs).daemon.memory.cleanup.Owns [] := by
  obtain ⟨lost, hm, -⟩ := ((executes_initial config).runFrom s [] rs).1.memory
  obtain ⟨howns, hvalues⟩ := hm.cleanup
  have hnone := @forgottenServers_eq_nil p config .initial ⟨fun _ _ => rfl, Or.inl rfl⟩ _ hrs
  rw [List.nil_append, hnone] at hvalues
  rw [List.map_eq_nil_iff.mp hvalues] at howns
  exact howns

/-- Two Updates, of which the second one replaces the records of the first, with a Status call after
each of them, and a stop. -/
theorem cleanup_leaves_nothing_updates :
    let rs := [Request.input (.ok .nameAcquired), .input (.ok (.jobFinished "done")),
      .input (.ok (.updateCall [[("address", .byteString [192, 0, 2, 1])]] 0)), .statusCall .stored,
      .input (.ok (.updateCall [[("address", .byteString [192, 0, 2, 2])]] 0)), .statusCall .stored,
      .input (.ok .sigterm)]
    ((memoryDaemon .plain .insertion .plain).run rs).daemon.memory.cleanup.Owns [] :=
  cleanup_leaves_nothing .plain .insertion .plain _ (by decide)

/-- Of two Updates that arrive while the cache is being stopped, the first one is forgotten. -/
example : (forgottenServers .plain .plain .initial
    [.ok .nameAcquired, .ok (.jobFinished "done"), .ok .sigterm,
      .ok (.updateCall [[("address", .byteString [192, 0, 2, 1])]] 0),
      .ok (.updateCall [] 0)]).length = 1 := by
  decide

end Dnsconfd
