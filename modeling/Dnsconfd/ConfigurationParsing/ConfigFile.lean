import Dnsconfd.ConfigurationParsing.RawConfig
import Dnsconfd.Library.Streams
import Dnsconfd.WellFormed

/-!
# The configuration file

`config_file.c` reads YAML through the events of libyaml.  A file is the list of its events; a call
of `yaml_parser_parse` that fails is an event of its own, and the texts of scalars are the C strings
that the code sees.  The parsers of the file, of its static servers, of its response policy zones
and of the lists inside them are loops over one stream, each leaving the rest to the one that
called it.  Allocations are assumed to succeed.
-/

namespace Dnsconfd.ConfigFile

open Library

/-! ## Events and lists of scalars -/

/-- What a call of `yaml_parser_parse` gives; the types of events that no parser looks at are
`other`. -/
inductive YamlEvent where
  | failure
  | scalar (value : String)
  | sequenceStart
  | sequenceEnd
  | mappingStart
  | mappingEnd
  | streamEnd
  | other
deriving DecidableEq

/-- How an iteration over events ends. -/
abbrev EventTurn (σ ε : Type) := Option (Turn σ ε YamlEvent)

/-- What a parser of a part of the stream returns: nothing if it waits for ever, or else an error,
or a result and the rest of the stream. -/
abbrev Parsed (σ ε : Type) := Option (Except ε (σ × List YamlEvent))

/-- The body of the loops that read a list of scalars: each one is converted and appended, and the
first end of a sequence ends the list. -/
def scalarsBody {α : Type} (convert : String → Option α) (destList : List α) (event : YamlEvent)
    (rest : List YamlEvent) : EventTurn (List α) Unit :=
  match event with
  | .failure => some (.failed ())
  | .scalar value =>
    match convert value with
    | none => some (.failed ())
    | some a => some (.continued (destList ++ [a]) rest)
  | .sequenceEnd => some (.finished destList rest)
  | _ => some (.continued destList rest)

/-- `parse_domains`: the texts are stored as they are. -/
def parseDomains (events : List YamlEvent) (destList : List String) : Parsed (List String) Unit :=
  readAll (scalarsBody some) events destList

/-- `parse_networks`. -/
def parseNetworks (net : Inet) (events : List YamlEvent) (destList : List NetworkAddress) :
    Parsed (List NetworkAddress) Unit :=
  readAll (scalarsBody (networkAddressFromString net)) events destList

/-- `parse_include_list`; it fails only if the parser of YAML does. -/
def parseIncludeList (events : List YamlEvent) (includePaths : List String) :
    Parsed (List String) Unit :=
  readAll (scalarsBody some) events includePaths

/-! ## Static servers -/

/-- A server while its fields are read.  The port is kept apart because the memory of a
`sockaddr_storage` has one also before the family is known. -/
structure ServerDraft where
  server : ServerUri
  port : UInt16

/-- The zeroed server with `dnssec` set. -/
def ServerDraft.initial : ServerDraft where
  server := .initial
  port := 0

/-- `parse_protocol_string`. -/
def parseProtocolString (str : String) : DnsProtocol :=
  if str = "dns+udp" then .udp
  else if str = "dns+tcp" then .tcp
  else if str = "dns+tls" then .tls
  else .protocolsEnd

/-- `parse_priority_str`. -/
def parsePriorityStr (str : String) : Option Int32 :=
  let (tempLong, endChar) := strtol str.toList
  if tempLong < -2147483648 ∨ 2147483647 < tempLong ∨ endChar ≠ [] then none
  else some (Int32.ofInt tempLong)

/-- `parse_port_str`. -/
def parsePortStr (str : String) : Option UInt16 :=
  let (tempLong, endChar) := strtol str.toList
  if tempLong < 0 ∨ 65535 < tempLong ∨ endChar ≠ [] then none
  else some (UInt16.ofNat tempLong.toNat)

/-- The scalar fields of a server; an unknown protocol is an error without a text. -/
def storeServerField (net : Inet) (currentKey value : String) (draft : ServerDraft) :
    Except (Option String) ServerDraft :=
  if currentKey = "name" then
    .ok { draft with server := { draft.server with name := some value } }
  else if currentKey = "protocol" then
    if parseProtocolString value = .protocolsEnd then .error none
    else .ok { draft with server := { draft.server with protocol := parseProtocolString value } }
  else if currentKey = "address" then
    match parseIpStr net value draft.port with
    | none => .error (some "Failed to parse address in static_servers")
    | some address => .ok { draft with server := { draft.server with address := address } }
  else if currentKey = "port" then
    match parsePortStr value with
    | none => .error (some "Failed to parse port in static_servers")
    | some port =>
      .ok ⟨{ draft.server with address := draft.server.address.withPort port }, port⟩
  else if currentKey = "dnssec" then
    if value ≠ "1" ∧ value ≠ "yes" then
      .ok { draft with server := { draft.server with dnssec := 0 } }
    else .ok draft
  else if currentKey = "priority" then
    match parsePriorityStr value with
    | none => .error (some "Failed to parse priority in static_servers")
    | some priority => .ok { draft with server := { draft.server with priority := priority } }
  else .error (some "Unrecognized field in static_servers")

/-- What `parse_static_servers` keeps between events.  A key is expected exactly if there is no
current one. -/
structure StaticServersState where
  staticServers : List ServerUri
  currentServer : Option ServerDraft
  currentKey : Option String

/-- Go on with another current server behind its current key. -/
def StaticServersState.stored (s : StaticServersState) (draft : ServerDraft) : StaticServersState :=
  { s with currentServer := some draft, currentKey := none }

/-- The fields of a server whose value is a list. -/
def readServerList (net : Inet) (s : StaticServersState) (draft : ServerDraft) (currentKey : String)
    (rest : List YamlEvent) : EventTurn StaticServersState (Option String) :=
  if currentKey = "routing_domains" then
    Turn.afterRead (fun _ => some "Failed to parse routing_domains in static_servers")
      (fun domains =>
        s.stored { draft with server := { draft.server with routingDomains := domains } })
      (parseDomains rest draft.server.routingDomains)
  else if currentKey = "search_domains" then
    Turn.afterRead (fun _ => some "Failed to parse search_domains in static_servers")
      (fun domains =>
        s.stored { draft with server := { draft.server with searchDomains := domains } })
      (parseDomains rest draft.server.searchDomains)
  else if currentKey = "networks" then
    Turn.afterRead (fun _ => some "Failed to parse networks in static_servers")
      (fun networks =>
        s.stored { draft with server := { draft.server with networks := networks } })
      (parseNetworks net rest draft.server.networks)
  else some (.failed (some "Unrecognized sequence in static_servers"))

/-- The defaults that the end of a mapping fills in. -/
def ServerDraft.complete (draft : ServerDraft) : ServerUri :=
  { draft.server with
    routingDomains :=
      if draft.server.routingDomains = [] then ["."] else draft.server.routingDomains
    address :=
      setDefaultPort draft.server.address (if draft.server.protocol ≠ .tls then 53 else 853) }

/-- The body of the loop of `parse_static_servers`. -/
def staticServersBody (net : Inet) (s : StaticServersState) (event : YamlEvent)
    (rest : List YamlEvent) : EventTurn StaticServersState (Option String) :=
  match event with
  | .failure => some (.failed (some "Failed to parse configuration YAML"))
  | .sequenceStart =>
    match s.currentServer, s.currentKey with
    | some draft, some key => readServerList net s draft key rest
    | _, _ => some (.failed (some "Badly formatted static_servers"))
  | .mappingStart =>
    match s.currentServer with
    | some _ => some (.failed (some "Badly formatted static_servers"))
    | none => some (.continued { s with currentServer := some .initial } rest)
  | .mappingEnd =>
    match s.currentServer with
    | none => some (.continued s rest)
    | some draft =>
      if draft.server.address = .unspec then
        some (.failed (some "Server in static_servers does not have address set"))
      else
        some (.continued
          { s with staticServers := s.staticServers ++ [draft.complete], currentServer := none }
          rest)
  | .scalar value =>
    match s.currentKey with
    | none => some (.continued { s with currentKey := some value } rest)
    | some key =>
      match s.currentServer with
      | none => some (.continued { s with currentKey := none } rest)
      | some draft =>
        match storeServerField net key value draft with
        | .error error => some (.failed error)
        | .ok draft => some (.continued (s.stored draft) rest)
  | .sequenceEnd => some (.finished s rest)
  | _ => some (.continued s rest)

/-- `parse_static_servers`: it appends to the static servers there are already. -/
def parseStaticServers (net : Inet) (events : List YamlEvent) (staticServers : List ServerUri) :
    Parsed StaticServersState (Option String) :=
  readAll (staticServersBody net) events ⟨staticServers, none, none⟩

/-! ## Response policy zones -/

/-- A zone while its fields are read. -/
structure RpzDraft where
  name : Option String
  master : Option String
  zonefile : Option String

/-- The fields of a zone. -/
def storeRpzField (currentKey value : String) (draft : RpzDraft) :
    Except (Option String) RpzDraft :=
  if currentKey = "name" then .ok { draft with name := some value }
  else if currentKey = "master" then .ok { draft with master := some value }
  else if currentKey = "zonefile" then .ok { draft with zonefile := some value }
  else .error (some "Unrecognized field in rpz")

/-- The zone at the end of its mapping. -/
def RpzDraft.complete (draft : RpzDraft) : Except (Option String) RpzZone :=
  match draft.name with
  | none => .error (some "RPZ zone does not have name set")
  | some name =>
    if draft.master = none ∧ draft.zonefile = none then
      .error (some "RPZ zone must have master, zonefile, or both")
    else .ok ⟨name, draft.master, draft.zonefile⟩

/-- What `parse_rpz_zones` keeps between events. -/
structure RpzZonesState where
  rpzZones : List RpzZone
  currentZone : Option RpzDraft
  currentKey : Option String

/-- The body of the loop of `parse_rpz_zones`. -/
def rpzZonesBody (s : RpzZonesState) (event : YamlEvent) (rest : List YamlEvent) :
    EventTurn RpzZonesState (Option String) :=
  match event with
  | .failure => some (.failed (some "Failed to parse RPZ configuration YAML"))
  | .mappingStart =>
    match s.currentZone with
    | some _ => some (.failed (some "Badly formatted rpz"))
    | none => some (.continued { s with currentZone := some ⟨none, none, none⟩ } rest)
  | .mappingEnd =>
    match s.currentZone with
    | none => some (.continued s rest)
    | some draft =>
      match draft.complete with
      | .error error => some (.failed error)
      | .ok zone =>
        some (.continued { s with rpzZones := s.rpzZones ++ [zone], currentZone := none } rest)
  | .scalar value =>
    match s.currentKey with
    | none => some (.continued { s with currentKey := some value } rest)
    | some key =>
      match s.currentZone with
      | none => some (.continued { s with currentKey := none } rest)
      | some draft =>
        match storeRpzField key value draft with
        | .error error => some (.failed error)
        | .ok draft =>
          some (.continued { s with currentZone := some draft, currentKey := none } rest)
  | .sequenceEnd => some (.finished s rest)
  | _ => some (.continued s rest)

/-- `parse_rpz_zones`. -/
def parseRpzZones (events : List YamlEvent) (rpzZones : List RpzZone) :
    Parsed RpzZonesState (Option String) :=
  readAll rpzZonesBody events ⟨rpzZones, none, none⟩

/-! ## One file -/

/-- The table of `duplicating_options`. -/
def duplicatingOptionsTable : List (String × StringOption) :=
  [("file_log", .fileLog), ("resolv_conf_path", .resolvConfPath),
    ("resolver_options", .resolverOptions), ("certification_authority", .certificationAuthority)]

/-- `duplicating_options`. -/
def duplicatingOptions (key value : String) (config : RawConfig) :
    Except (Option String) RawConfig :=
  match duplicatingOptionsTable.lookup key with
  | some option => .ok (config.setString option value)
  | none => .error (some "Unrecognized option present in configuration YAML")

/-- What `parse_single_config_file` keeps between events. -/
structure FileState where
  config : RawConfig
  includePaths : List String
  currentKey : Option String
  depth : ℕ

/-- The scalar options of a file.  The result of `parse_log_level` is compared as an unsigned number,
so a level that is not known is not an error and leaves the option unset. -/
def storeOption (net : Inet) (currentKey value : String) (s : FileState) :
    Except (Option String) FileState :=
  if currentKey = "log_level" then
    .ok { s with config := { s.config with logLevel := parseLogLevel value } }
  else if currentKey = "stderr_log" then
    .ok { s with config := s.config.setBoolean .stderrLog (parseBoolean value) }
  else if currentKey = "syslog_log" then
    .ok { s with config := s.config.setBoolean .syslogLog (parseBoolean value) }
  else if currentKey = "listen_address" then
    match parseIpStr net value s.config.listenAddress.port with
    | none => .error (some "Failed to parse listen address in configuration")
    | some address => .ok { s with config := { s.config with listenAddress := address } }
  else if currentKey = "prioritize_wire" then
    .ok { s with config := s.config.setBoolean .prioritizeWire (parseBoolean value) }
  else if currentKey = "dnssec_enabled" then
    .ok { s with config := s.config.setBoolean .dnssecEnabled (parseBoolean value) }
  else if currentKey = "include" then .ok { s with includePaths := s.includePaths ++ [value] }
  else
    match duplicatingOptions currentKey value s.config with
    | .error error => .error error
    | .ok config => .ok { s with config := config }

/-- The options of a file whose value is a list. -/
def readOptionList (net : Inet) (s : FileState) (currentKey : String) (rest : List YamlEvent) :
    EventTurn FileState (Option String) :=
  if currentKey = "static_servers" then
    Turn.afterRead id
      (fun parsed =>
        { s with config := { s.config with staticServers := parsed.staticServers },
                 currentKey := none })
      (parseStaticServers net rest s.config.staticServers)
  else if currentKey = "rpz" then
    Turn.afterRead id
      (fun parsed =>
        { s with config := { s.config with rpzZones := parsed.rpzZones }, currentKey := none })
      (parseRpzZones rest s.config.rpzZones)
  else if currentKey = "include" then
    Turn.afterRead (fun _ => some "Failed to parse include list YAML")
      (fun paths => { s with includePaths := paths, currentKey := none })
      (parseIncludeList rest s.includePaths)
  else some (.continued s rest)

/-- The body of the loop of `parse_single_config_file`. -/
def fileBody (net : Inet) (s : FileState) (event : YamlEvent) (rest : List YamlEvent) :
    EventTurn FileState (Option String) :=
  match event with
  | .failure => some (.failed (some "Failed parse configuration YAML"))
  | .mappingStart =>
    if 1 < s.depth + 1 then some (.failed (some "Badly formatted YAML"))
    else some (.continued { s with depth := s.depth + 1 } rest)
  | .sequenceStart =>
    match s.currentKey with
    | none => some (.continued s rest)
    | some key => readOptionList net s key rest
  | .scalar value =>
    match s.currentKey with
    | none => some (.continued { s with currentKey := some value } rest)
    | some key =>
      match storeOption net key value s with
      | .error error => some (.failed error)
      | .ok s => some (.continued { s with currentKey := none } rest)
  | .streamEnd => some (.finished s rest)
  | _ => some (.continued s rest)

/-! ## Files and the files they include -/

/-- What `glob` returns. -/
inductive GlobResult where
  | noMatch
  | failed
  | paths (pathv : List String)

/-- The file system as the configuration sees it: the events of a file that can be opened, what
`stat` finds (whether it is a directory), and `glob`. -/
structure Files where
  events : String → Option (List YamlEvent)
  stat : String → Option Bool
  glob : String → GlobResult

/-- `parse_single_config_file`. -/
def parseSingleConfigFile (net : Inet) (files : Files) (path : String) (config : RawConfig) :
    Parsed FileState (Option String) :=
  match files.events path with
  | none => some (.error (some "Failed to open configuration file"))
  | some events => readAll (fileBody net) events ⟨config, [], none, 0⟩

/-- `make_dir_glob_pattern`. -/
def makeDirGlobPattern (dirPath : String) : String :=
  if dirPath.toList.getLast? = some '/' then dirPath ++ "*.conf" else dirPath ++ "/*.conf"

/-- The paths that a pattern adds to those to be parsed. -/
def expandGlob (result : GlobResult) (filesToParse : List String) :
    Except String (List String) :=
  match result with
  | .noMatch => .ok filesToParse
  | .failed => .error "Failed to expand include path"
  | .paths pathv => .ok (filesToParse ++ pathv)

/-- `resolve_include_path`. -/
def resolveIncludePath (files : Files) (includePath : String) (filesToParse : List String) :
    Except String (List String) :=
  if files.stat includePath = some true then
    expandGlob (files.glob (makeDirGlobPattern includePath)) filesToParse
  else if includePath.toList.any fun c => c = '*' || c = '?' || c = '[' then
    expandGlob (files.glob includePath) filesToParse
  else if files.stat includePath = none then .ok filesToParse
  else .ok (filesToParse ++ [includePath])

/-- `MAX_INCLUDE_FILES`. -/
def maxIncludeFiles : ℕ := 1000

/-- The loop of `parse_config_file` with `remaining` files to go before there are too many. -/
def parseFiles (net : Inet) (files : Files) :
    ℕ → List String → RawConfig → Option (Except (Option String) RawConfig)
  | _, [], config => some (.ok config)
  | 0, _ :: _, _ => some (.error (some "Too many configuration files included, possible cycle"))
  | remaining + 1, currentFile :: filesToParse, config =>
    match parseSingleConfigFile net files currentFile config with
    | none => none
    | some (.error fileError) =>
      -- the first file's own error is reported, an included one's is not
      some (.error (if remaining + 1 = maxIncludeFiles then fileError
        else some "Error while processing included configuration file"))
    | some (.ok (parsed, _)) =>
      match parsed.includePaths.foldlM (fun acc path => resolveIncludePath files path acc)
          filesToParse with
      | .error error => some (.error (some error))
      | .ok filesToParse => parseFiles net files remaining filesToParse parsed.config

/-- `parse_config_file`. -/
def parseConfigFile (net : Inet) (files : Files) (path : String) (config : RawConfig) :
    Option (Except (Option String) RawConfig) :=
  parseFiles net files maxIncludeFiles [path] config

end Dnsconfd.ConfigFile
