import Dnsconfd.ServerTable

/-!
# Choosing servers and the certification authority

`get_used_servers` takes the leading servers of a domain's list that rank with the first one and
drops those that the resolution mode does not admit; `get_effective_ca` chooses the file with
which the cache verifies TLS servers, from the servers of a table or else from the
configuration.
-/

namespace Dnsconfd

open Library

/-- The test for servers that can not be used globally: a server bound to an interface is not
used for the root domain unless the mode is backup, and not at all if it is exclusive. -/
def skippedInMode (mode : Mode) (domain : String) (server : ServerUri) : Bool :=
  server.interface ≠ "" &&
    ((Mode.backup.toNat < mode.toNat && domain = ".") || mode = .exclusive)

/-! ## The servers used for a domain -/

/-- The loop of `get_used_servers`: it ends at the first server that ranks below the first one
and prepends those that the mode admits. -/
def usedServersLoop (maxPriority : Int32) (maxProtocol : DnsProtocol) (dnssec : UInt8)
    (mode : Mode) (domain : String) : List ServerUri → List ServerUri → List ServerUri
  | [], usedServers => usedServers
  | curServer :: servers, usedServers =>
    if curServer.priority < maxPriority || curServer.protocol.toNat < maxProtocol.toNat ||
        curServer.dnssec ≠ dnssec then usedServers
    else if skippedInMode mode domain curServer then
      usedServersLoop maxPriority maxProtocol dnssec mode domain servers usedServers
    else
      usedServersLoop maxPriority maxProtocol dnssec mode domain servers
        (curServer :: usedServers)

/-- `get_used_servers`.  The code dereferences the head of the list; no list of a table of
servers is empty, and an empty one gives no servers here. -/
def getUsedServers (servers : List ServerUri) (mode : Mode) (domain : String) : List ServerUri :=
  match servers with
  | [] => []
  | first :: _ =>
    usedServersLoop first.priority first.protocol first.dnssec mode domain servers []

/-- The servers selected before a given point stay selected. -/
lemma mem_usedServersLoop {maxPriority : Int32} {maxProtocol : DnsProtocol} {dnssec : UInt8}
    {mode : Mode} {domain : String} {servers used : List ServerUri} {s : ServerUri}
    (hs : s ∈ usedServersLoop maxPriority maxProtocol dnssec mode domain servers used) :
    s ∈ used ∨ (s ∈ servers ∧ skippedInMode mode domain s = false) := by
  induction servers generalizing used with
  | nil => exact Or.inl hs
  | cons c servers ih =>
    unfold usedServersLoop at hs
    split at hs
    · exact Or.inl hs
    · split at hs
      · rcases ih hs with h | ⟨h, hskip⟩
        · exact Or.inl h
        · exact Or.inr ⟨List.mem_cons_of_mem _ h, hskip⟩
      · rename_i hskip
        rcases ih hs with h | ⟨h, hskip'⟩
        · rcases List.mem_cons.mp h with rfl | h
          · exact Or.inr ⟨List.mem_cons_self, by simpa using hskip⟩
          · exact Or.inl h
        · exact Or.inr ⟨List.mem_cons_of_mem _ h, hskip'⟩

/-- A used server is one of the domain's servers and admitted by the mode. -/
lemma mem_getUsedServers {servers : List ServerUri} {mode : Mode} {domain : String}
    {s : ServerUri} (hs : s ∈ getUsedServers servers mode domain) :
    s ∈ servers ∧ skippedInMode mode domain s = false := by
  unfold getUsedServers at hs
  split at hs
  · simp at hs
  · rcases mem_usedServersLoop hs with h | h
    · simp at h
    · exact h

/-! ## The effective CA -/

/-- The state of `effective_ca_from_uris`: the CA chosen so far and the priority of the server
it was taken from. -/
abbrev CaChoice := Option (String × Int32)

/-- The test `effective_ca == NULL || cur_server->priority < highest_prio`. -/
def betterCa (best : CaChoice) (curServer : ServerUri) : Bool :=
  match best with
  | none => true
  | some (_, highestPrio) => curServer.priority < highestPrio

/-- The inner loop of `effective_ca_from_uris`, over the servers of one domain. -/
def effectiveCaLoop (mode : Mode) (key : String) : List ServerUri → CaChoice → CaChoice
  | [], best => best
  | curServer :: servers, best =>
    match curServer.certificationAuthority with
    | none => effectiveCaLoop mode key servers best
    | some ca =>
      if skippedInMode mode key curServer then effectiveCaLoop mode key servers best
      else if betterCa best curServer && curServer.protocol = .tls then
        effectiveCaLoop mode key servers (some (ca, curServer.priority))
      else effectiveCaLoop mode key servers best

/-- `effective_ca_from_uris`. -/
def effectiveCaFromUris (order : Enumeration ServerEntry) (domainToServers : ServerTable)
    (mode : Mode) : Option String :=
  ((order.visit domainToServers.entries).foldl
    (fun best entry => effectiveCaLoop mode entry.1 entry.2 best) none).map Prod.fst

/-- `effective_ca_from_config`: the first of the configured files that can be read. -/
def effectiveCaFromConfig (readable : String → Bool) (config : Config) : Option String :=
  ((config.certificationAuthority.toList.splitOn ' ').map String.ofList).find? readable

/-- `get_effective_ca`. -/
def getEffectiveCa (order : Enumeration ServerEntry) (readable : String → Bool)
    (domainToServers : Option ServerTable) (mode : Mode) (config : Config) : Option String :=
  match domainToServers.bind fun table => effectiveCaFromUris order table mode with
  | some ca => some ca
  | none => effectiveCaFromConfig readable config

end Dnsconfd
