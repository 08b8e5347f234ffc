import Dnsconfd.UnboundManager.Selection

/-!
# Zones of the cache

The cache learns its forward zones in two ways: from the file `/run/dnsconfd/unbound.conf`,
whose lines `generate_forward_zones` writes, and from `unbound-control` commands, which
`get_forward_add_command` and `remove_domain` build.  This file has both renderings and, above
them, what they mean for the cache: a map `Zones` from domains to the state of their zone, which
a restart replaces by what the file says and which a command changes at one domain.
-/

namespace Dnsconfd

open Library

/-! ## Addresses of servers as the cache reads them -/

/-- The token after `forward-addr:` that `server_to_unbound_string` writes for a server. -/
def serverToUnboundString (net : Inet) (server : ServerUri) : String :=
  let address := (ipToStr net server.address).getD ""
  let port := server.address.port
  if server.protocol = .tls then
    address ++ (if port ≠ 0 then "@" ++ toString port.toNat else "@853") ++
      (match server.name with
        | some name => "#" ++ name
        | none => "")
  else if port ≠ 0 then address ++ "@" ++ toString port.toNat
  else address

/-- The argument that `get_forward_add_command` builds for a server. -/
def serverArg (net : Inet) (server : ServerUri) : String :=
  let addressBuffer := (ipToStr net server.address).getD ""
  let port := server.address.port
  if server.protocol = .tls then
    let withPort :=
      if port ≠ 0 then addressBuffer ++ ("@" ++ toString port.toNat) else addressBuffer ++ "@853"
    match server.name with
    | some name => withPort ++ ("#" ++ name)
    | none => withPort
  else if port ≠ 0 then addressBuffer ++ ("@" ++ toString port.toNat)
  else addressBuffer

/-- The two copies of the rendering of a server agree. -/
lemma serverArg_eq (net : Inet) (server : ServerUri) :
    serverArg net server = serverToUnboundString net server := by
  unfold serverArg serverToUnboundString
  by_cases htls : server.protocol = .tls
  · by_cases hport : server.address.port = 0
    · cases server.name <;> simp [htls, hport, String.append_assoc]
    · cases server.name <;> simp [htls, hport, String.append_assoc]
  · by_cases hport : server.address.port = 0
    · simp [htls, hport]
    · simp [htls, hport, String.append_assoc]

/-! ## The configuration file -/

/-- A line of `unbound.conf` as `write_configuration` prints it. -/
inductive ConfLine where
  | server
  | moduleConfig (modules : String)
  | interface (address : String)
  | doNotQueryAddress
  | tlsCertBundle (path : String)
  | forwardZone
  | name (domain : String)
  | forwardAddr (token : String)
  | forwardAddrQuoted (token : String)
  | forwardTlsUpstream (tls : Bool)
  | rpz
  | master (address : String)
  | allowNotify (address : String)
  | zonefile (path : String)
deriving DecidableEq

/-- The text of a line, without its newline. -/
def ConfLine.text : ConfLine → String
  | server => "server:"
  | moduleConfig modules => "\tmodule-config: \"" ++ modules ++ "\""
  | interface address => "\tinterface: " ++ address
  | doNotQueryAddress => "\tdo-not-query-address: 127.0.0.1/8"
  | tlsCertBundle path => "\ttls-cert-bundle: " ++ path
  | forwardZone => "forward-zone:"
  | name domain => "\tname: \"" ++ domain ++ "\""
  | forwardAddr token => "\tforward-addr: " ++ token
  | forwardAddrQuoted token => "\tforward-addr: \"" ++ token ++ "\""
  | forwardTlsUpstream tls => "\tforward-tls-upstream: " ++ (if tls then "yes" else "no")
  | rpz => "rpz:"
  | master address => "\tmaster: " ++ address
  | allowNotify address => "\tallow-notify: " ++ address
  | zonefile path => "\tzonefile: \"" ++ path ++ "\""

/-- The lines of one zone with its used servers.  The flag `tls` is set by any of the servers and
cleared again after the zone. -/
def forwardZoneLines (net : Inet) (domain : String) (usedServers : List ServerUri) :
    List ConfLine :=
  [.forwardZone, .name domain] ++
    usedServers.map (fun server => .forwardAddr (serverToUnboundString net server)) ++
    [.forwardTlsUpstream (usedServers.any fun server => server.protocol = .tls)]

/-- The zone written when no server resolves the root domain. -/
def defaultZoneLines : List ConfLine :=
  [.forwardZone, .name ".", .forwardAddrQuoted "127.0.0.1"]

/-- One iteration of `generate_forward_zones`: a domain without used servers is skipped. -/
def zoneEntryLines (net : Inet) (mode : Mode) (entry : ServerEntry) : List ConfLine :=
  match getUsedServers entry.2 mode entry.1 with
  | [] => []
  | usedServers => forwardZoneLines net entry.1 usedServers

/-- The flag `root_present` after one iteration of `generate_forward_zones`. -/
def rootPresent (mode : Mode) (entry : ServerEntry) : Bool :=
  !(getUsedServers entry.2 mode entry.1).isEmpty && entry.1 = "."

/-- `generate_forward_zones`. -/
def generateForwardZones (net : Inet) (order : Enumeration ServerEntry)
    (domainToServers : ServerTable) (mode : Mode) : List ConfLine :=
  let visited := order.visit domainToServers.entries
  visited.flatMap (zoneEntryLines net mode) ++
    (if visited.any (rootPresent mode) then [] else defaultZoneLines)

/-- `generate_rpz_zones`. -/
def generateRpzZones (rpzZones : List RpzZone) : List ConfLine :=
  rpzZones.flatMap fun zone =>
    [.rpz, .name zone.name] ++
      (match zone.master with
        | some master => [.master master, .allowNotify master]
        | none => []) ++
      (match zone.zonefile with
        | some zonefile => [.zonefile zonefile]
        | none => [])

/-! ## Commands -/

/-- The `unbound-control` commands that the daemon executes. -/
inductive UnboundCommand where
  | forwardAdd (insecure tls : Bool) (domain : String) (addresses : List String)
  | forwardRemove (domain : String)
  | flushZone (domain : String)
deriving DecidableEq

/-- The argument vector of a command. -/
def UnboundCommand.argv : UnboundCommand → List String
  | forwardAdd insecure tls domain addresses =>
    ["unbound-control", "forward_add"] ++
      (match insecure, tls with
        | false, false => []
        | true, false => ["+i"]
        | false, true => ["+t"]
        | true, true => ["+it"]) ++
      [domain] ++ addresses
  | forwardRemove domain => ["unbound-control", "forward_remove", "+i", domain]
  | flushZone domain => ["unbound-control", "flush_zone", domain]

/-- `get_forward_add_command`; the flags are those of the first server.  The code is never called
with an empty list. -/
def getForwardAddCommand (net : Inet) (domain : String) (servers : List ServerUri) :
    UnboundCommand :=
  match servers with
  | [] => .forwardAdd false false domain []
  | curServer :: _ =>
    .forwardAdd (curServer.dnssec = 0) (curServer.protocol = .tls) domain
      (servers.map (serverArg net))

/-- `add_domain`: the commands it executes. -/
def addDomain (net : Inet) (domain : String) (servers : List ServerUri) : List UnboundCommand :=
  [getForwardAddCommand net domain servers, .flushZone domain]

/-- `remove_domain`: the commands it executes. -/
def removeDomain (domain : String) : List UnboundCommand :=
  [if domain ≠ "." then .forwardRemove domain else .forwardAdd false false "." ["127.0.0.1"],
    .flushZone domain]

/-! ## What the cache makes of files and commands -/

/-- The state of one zone in the cache. -/
structure ZoneState where
  addresses : List String
  tls : Bool
  insecure : Bool
deriving DecidableEq

/-- Where and how the queries of a zone are forwarded. -/
def ZoneState.forwarding (zone : ZoneState) : List String × Bool :=
  (zone.addresses, zone.tls)

/-- The forward zones of the cache. -/
abbrev Zones := String → Option ZoneState

/-- The zone of the root domain when no server resolves it. -/
def loopbackZone : ZoneState where
  addresses := ["127.0.0.1"]
  tls := false
  insecure := false

/-- What is known of a clause whose header has not been reached yet, reading backwards. -/
structure PendingClause where
  name : Option String
  addresses : List String
  tls : Bool

/-- Nothing is known. -/
def PendingClause.empty : PendingClause where
  name := none
  addresses := []
  tls := false

/-- Read one line, given what the lines below it say. -/
def loadLine (line : ConfLine) (below : PendingClause × List (String × ZoneState)) :
    PendingClause × List (String × ZoneState) :=
  match line with
  | .forwardZone =>
    (.empty, match below.1.name with
      | some domain => (domain, ⟨below.1.addresses, below.1.tls, false⟩) :: below.2
      | none => below.2)
  | .server | .rpz => (.empty, below.2)
  | .name domain => ({ below.1 with name := some domain }, below.2)
  | .forwardAddr token | .forwardAddrQuoted token =>
    ({ below.1 with addresses := token :: below.1.addresses }, below.2)
  | .forwardTlsUpstream tls => ({ below.1 with tls := tls }, below.2)
  | _ => below

/-- The forward zones that a file describes, in order. -/
def loadClauses (lines : List ConfLine) : PendingClause × List (String × ZoneState) :=
  lines.foldr loadLine (.empty, [])

/-- The zones of a cache that has just started with the given file. -/
def loadZones (lines : List ConfLine) : Zones :=
  fun domain => (loadClauses lines).2.lookup domain

/-- The effect of a command on the zones of the cache. -/
def UnboundCommand.apply : UnboundCommand → Zones → Zones
  | forwardAdd insecure tls domain addresses, zones =>
    Function.update zones domain (some ⟨addresses, tls, insecure⟩)
  | forwardRemove domain, zones => Function.update zones domain none
  | flushZone _, zones => zones

end Dnsconfd
