import Dnsconfd.Client.JsonUpdate

/-!
# The command line of an Update

`dnsconfd update` takes servers as URIs, or as one JSON text after `--json`, and a mode.  Both of its
parsers work item by item on a record that is filled in the course of it: `parse_query` on the server,
`parse_update_command_opt` on the options.  Here they are described as a whole.

A URI is accepted exactly if each of its parts is admissible by itself, and what it says about one
property of the server does not depend on where the other properties stand: of the items with the same
key the last one counts, domains and networks are collected in order, and `dnssec` can only be turned
off (`server_uri_iff`).  On the command line `--json` applies to what stands behind it: a JSON text
takes the place of the URIs before it, and the mode is the last one that is not `backup`
(`update_command_iff`).
-/

namespace Dnsconfd

open Library

/-! ## Queries -/

/-- The number that `strtol` reads fits an `int`, and there is nothing behind it. -/
def IsIntText (value : String) : Prop :=
  (strtol value.toList).2 = [] ∧ -2147483648 ≤ (strtol value.toList).1 ∧
    (strtol value.toList).1 ≤ 2147483647

instance (value : String) : Decidable (IsIntText value) :=
  inferInstanceAs (Decidable (_ ∧ _))

/-- An item of a query that `parse_query` accepts. -/
structure AdmissibleItem (net : Inet) (item : String × Option String) : Prop where
  value : item.2.isSome = true
  priority : item.1 = "priority" → ∀ text ∈ item.2, IsIntText text
  interface : item.1 = "interface" → ∀ text ∈ item.2, text.utf8ByteSize < ifNamSiz
  network : item.1 = "network" → ∀ text ∈ item.2, (networkAddressFromString net text).isSome = true

/-- The values of a key, in order. -/
def queryValues (key : String) (items : List (String × Option String)) : List String :=
  items.filterMap fun item => if item.1 = key then item.2 else none

@[simp]
lemma queryValues_append (key : String) (l l' : List (String × Option String)) :
    queryValues key (l ++ l') = queryValues key l ++ queryValues key l' :=
  List.filterMap_append

/-- A server with what a query says about it. -/
def ServerUri.withQuery (net : Inet) (items : List (String × Option String)) (uri : ServerUri) :
    ServerUri where
  address := uri.address
  priority := ((queryValues "priority" items).getLast?.map fun text =>
    Int32.ofInt (strtol text.toList).1).getD uri.priority
  interface := (queryValues "interface" items).getLast?.getD uri.interface
  dnssec := if (queryValues "dnssec" items).any fun text => text.toList.head? = some '0' then 0
    else uri.dnssec
  protocol := uri.protocol
  certificationAuthority := (queryValues "ca" items).getLast?.or uri.certificationAuthority
  name := (queryValues "name" items).getLast?.or uri.name
  routingDomains := uri.routingDomains ++ queryValues "domain" items
  searchDomains := uri.searchDomains ++ queryValues "search" items
  networks := uri.networks ++ (queryValues "network" items).filterMap (networkAddressFromString net)

lemma ServerUri.withQuery_nil (net : Inet) (uri : ServerUri) : uri.withQuery net [] = uri := by
  simp [ServerUri.withQuery, queryValues]

/-- Items may be taken over one after the other. -/
lemma ServerUri.withQuery_append (net : Inet) (l l' : List (String × Option String))
    (uri : ServerUri) : uri.withQuery net (l ++ l') = (uri.withQuery net l).withQuery net l' := by
  have hlast : ∀ {α : Type} (key : String) (f : String → α) (a : α),
      ((queryValues key (l ++ l')).getLast?.map f).getD a =
        ((queryValues key l').getLast?.map f).getD (((queryValues key l).getLast?.map f).getD a) := by
    intro α key f a
    rw [queryValues_append, List.getLast?_append]
    cases (queryValues key l').getLast? <;> rfl
  have hor : ∀ (key : String) (a : Option String), (queryValues key (l ++ l')).getLast?.or a =
      (queryValues key l').getLast?.or ((queryValues key l).getLast?.or a) := by
    intro key a
    rw [queryValues_append, List.getLast?_append, Option.or_assoc]
  simp only [ServerUri.withQuery, ServerUri.mk.injEq]
  refine ⟨trivial, hlast _ _ _, ?_, ?_, trivial, hor _ _, hor _ _, ?_, ?_, ?_⟩
  · rw [queryValues_append, List.getLast?_append]
    cases (queryValues "interface" l').getLast? <;> rfl
  · rw [queryValues_append, List.any_append]
    cases (queryValues "dnssec" l').any fun text => text.toList.head? = some '0' <;> simp
  · rw [queryValues_append, List.append_assoc]
  · rw [queryValues_append, List.append_assoc]
  · rw [queryValues_append, List.filterMap_append, List.append_assoc]

/-- What an item with a value asks for. -/
lemma admissibleItem_some_iff {net : Inet} {key text : String} :
    AdmissibleItem net (key, some text) ↔ (key = "priority" → IsIntText text) ∧
      (key = "interface" → text.utf8ByteSize < ifNamSiz) ∧
      (key = "network" → (networkAddressFromString net text).isSome = true) := by
  constructor
  · intro h
    exact ⟨fun hkey => h.priority hkey text rfl, fun hkey => h.interface hkey text rfl,
      fun hkey => h.network hkey text rfl⟩
  · rintro ⟨hpriority, hinterface, hnetwork⟩
    refine ⟨rfl, fun hkey text' htext => ?_, fun hkey text' htext => ?_, fun hkey text' htext => ?_⟩
    · obtain rfl := Option.some.inj htext
      exact hpriority hkey
    · obtain rfl := Option.some.inj htext
      exact hinterface hkey
    · obtain rfl := Option.some.inj htext
      exact hnetwork hkey

/-- Items of most kinds are taken over as they are, those of an unknown kind without effect. -/
lemma parseQueryItem_free {net : Inet} {uri : ServerUri} {key text : String}
    (hpriority : key ≠ "priority") (hinterface : key ≠ "interface") (hnetwork : key ≠ "network") :
    parseQueryItem net uri (key, some text) = some (uri.withQuery net [(key, some text)]) := by
  by_cases hdomain : key = "domain"
  · subst hdomain
    simp [parseQueryItem, ServerUri.withQuery, queryValues]
  by_cases hsearch : key = "search"
  · subst hsearch
    simp [parseQueryItem, ServerUri.withQuery, queryValues]
  by_cases hdnssec : key = "dnssec"
  · subst hdnssec
    by_cases hzero : text.toList.head? = some '0' <;>
      simp [parseQueryItem, ServerUri.withQuery, queryValues, hzero]
  by_cases hca : key = "ca"
  · subst hca
    simp [parseQueryItem, ServerUri.withQuery, queryValues]
  by_cases hname : key = "name"
  · subst hname
    simp [parseQueryItem, ServerUri.withQuery, queryValues]
  simp [parseQueryItem, ServerUri.withQuery, queryValues, hpriority, hdomain, hsearch, hinterface,
    hdnssec, hca, hname, hnetwork]

lemma parseQueryItem_if_priority {net : Inet} {uri : ServerUri} {text : String} :
    parseQueryItem net uri ("priority", some text) =
      if IsIntText text then some (uri.withQuery net [("priority", some text)]) else none := by
  by_cases hint : IsIntText text
  · obtain ⟨hend, hlow, hhigh⟩ := hint
    have hrange : ¬ ((strtol text.toList).1 < -2147483648 ∨ 2147483647 < (strtol text.toList).1) := by
      omega
    simp [parseQueryItem, storePriority, ServerUri.withQuery, queryValues, IsIntText, hend, hlow,
      hhigh, hrange]
  · rw [if_neg hint]
    by_cases hend : (strtol text.toList).2 = []
    · have hrange : (strtol text.toList).1 < -2147483648 ∨ 2147483647 < (strtol text.toList).1 := by
        by_contra hrange
        exact hint ⟨hend, by omega, by omega⟩
      simp [parseQueryItem, storePriority, hend, hrange]
    · simp [parseQueryItem, hend]

lemma parseQueryItem_if_interface {net : Inet} {uri : ServerUri} {text : String} :
    parseQueryItem net uri ("interface", some text) =
      if text.utf8ByteSize < ifNamSiz then some (uri.withQuery net [("interface", some text)])
      else none := by
  by_cases hsize : text.utf8ByteSize < ifNamSiz <;>
    simp [parseQueryItem, storeInterface, ServerUri.withQuery, queryValues, hsize]

lemma parseQueryItem_if_network {net : Inet} {uri : ServerUri} {text : String} :
    parseQueryItem net uri ("network", some text) =
      if (networkAddressFromString net text).isSome then
        some (uri.withQuery net [("network", some text)])
      else none := by
  cases hnetwork : networkAddressFromString net text <;>
    simp [parseQueryItem, storeNetwork, ServerUri.withQuery, queryValues, hnetwork]

/-- One iteration of `parse_query`. -/
lemma parseQueryItem_iff {net : Inet} {uri uri' : ServerUri} {item : String × Option String} :
    parseQueryItem net uri item = some uri' ↔
      AdmissibleItem net item ∧ uri' = uri.withQuery net [item] := by
  obtain ⟨key, value⟩ := item
  cases value with
  | none =>
    refine iff_of_false (by simp [parseQueryItem]) ?_
    rintro ⟨h, -⟩
    cases h.value
  | some text =>
    rw [admissibleItem_some_iff, eq_comm (a := uri')]
    by_cases hpriority : key = "priority"
    · subst hpriority
      simp [parseQueryItem_if_priority]
    by_cases hinterface : key = "interface"
    · subst hinterface
      simp [parseQueryItem_if_interface]
    by_cases hnetwork : key = "network"
    · subst hnetwork
      simp [parseQueryItem_if_network]
    simp [parseQueryItem_free hpriority hinterface hnetwork, hpriority, hinterface, hnetwork]

/-- `parse_query`, from the items on. -/
lemma foldlM_parseQueryItem_iff {net : Inet} {items : List (String × Option String)}
    {uri uri' : ServerUri} :
    items.foldlM (parseQueryItem net) uri = some uri' ↔
      (∀ item ∈ items, AdmissibleItem net item) ∧ uri' = uri.withQuery net items := by
  induction items generalizing uri with
  | nil =>
    rw [List.foldlM_nil, ServerUri.withQuery_nil]
    simp [eq_comm]
  | cons item items ih =>
    have happend : uri.withQuery net (item :: items) =
        (uri.withQuery net [item]).withQuery net items :=
      ServerUri.withQuery_append net [item] items uri
    rw [List.foldlM_cons, happend, List.forall_mem_cons]
    constructor
    · intro h
      obtain ⟨next, hitem, hrest⟩ := Option.bind_eq_some_iff.mp h
      obtain ⟨hadmissible, rfl⟩ := parseQueryItem_iff.mp hitem
      obtain ⟨hall, rfl⟩ := ih.mp hrest
      exact ⟨⟨hadmissible, hall⟩, rfl⟩
    · rintro ⟨⟨hadmissible, hall⟩, rfl⟩
      exact Option.bind_eq_some_iff.mpr
        ⟨_, parseQueryItem_iff.mpr ⟨hadmissible, rfl⟩, ih.mpr ⟨hall, rfl⟩⟩

/-! ## URIs -/

/-- The protocol that a scheme stands for; without one it is the default. -/
def schemeProtocol (scheme : String) : DnsProtocol :=
  if scheme = "" then .udp else protocolFromNstring scheme

/-- The number that is read from the text of a port. -/
def portNumber (portText : String) : ℤ :=
  (strtol portText.toList).1

/-- The parts of a URI that `server_uri_t_init_from_string` accepts, for the address that its host
is and the items of its query. -/
structure AdmissibleUri (lib : TextLibraries) (net : Inet) (parsedUri : ParsedUri) (address : SockAddr)
    (items : List (String × Option String)) : Prop where
  scheme : schemeProtocol parsedUri.scheme ≠ .protocolsEnd
  hostLength : parsedUri.hostText.utf8ByteSize ≤ inet6AddrStrLen
  host : parseIpStr net parsedUri.hostText 0 = some address
  port : parsedUri.portText ≠ "" →
    0 ≤ portNumber parsedUri.portText ∧ portNumber parsedUri.portText ≤ 65535
  query : (if parsedUri.query = "" then some [] else lib.uriDissectQuery parsedUri.query) = some items
  item : ∀ item ∈ items, AdmissibleItem net item

/-- The server that such a URI describes. -/
def ParsedUri.server (net : Inet) (parsedUri : ParsedUri) (address : SockAddr)
    (items : List (String × Option String)) : ServerUri :=
  ServerUri.withQuery net items
    { ServerUri.initial with
      protocol := schemeProtocol parsedUri.scheme
      address := if parsedUri.portText = "" then address
        else address.withPort (UInt16.ofNat (portNumber parsedUri.portText).toNat) }

lemma initScheme_iff {parsedUri : ParsedUri} {uri : ServerUri} :
    initScheme parsedUri = some uri ↔ schemeProtocol parsedUri.scheme ≠ .protocolsEnd ∧
      uri = { ServerUri.initial with protocol := schemeProtocol parsedUri.scheme } := by
  unfold initScheme schemeProtocol
  split_ifs with hnone hend
  · simp [eq_comm, ServerUri.initial]
  · simp [hend]
  · simp [hend, eq_comm]

lemma initHost_iff {net : Inet} {parsedUri : ParsedUri} {uri uri' : ServerUri} :
    initHost net parsedUri uri = some uri' ↔
      parsedUri.hostText.utf8ByteSize ≤ inet6AddrStrLen ∧
      ∃ address, parseIpStr net parsedUri.hostText uri.address.port = some address ∧
        uri' = { uri with address := address } := by
  unfold initHost
  split_ifs with hlength
  · simp [hlength]
  · simp [Nat.le_of_not_lt hlength, eq_comm]

lemma initPort_iff {parsedUri : ParsedUri} {uri uri' : ServerUri} :
    initPort parsedUri uri = some uri' ↔
      (parsedUri.portText ≠ "" →
        0 ≤ portNumber parsedUri.portText ∧ portNumber parsedUri.portText ≤ 65535) ∧
      uri' = { uri with
        address := if parsedUri.portText = "" then uri.address
          else uri.address.withPort (UInt16.ofNat (portNumber parsedUri.portText).toNat) } := by
  unfold initPort storePort
  by_cases hport : parsedUri.portText = ""
  · simp only [hport, if_true, ne_eq, not_true_eq_false, false_implies, true_and, Option.some.injEq]
    exact eq_comm
  · rw [if_neg hport, if_neg hport]
    change (if portNumber parsedUri.portText < 0 ∨ 65535 < portNumber parsedUri.portText then none
      else some _) = some uri' ↔ _
    split_ifs with hrange
    · simp only [false_iff, not_and]
      intro h
      have hbounds := h hport
      omega
    · simp only [Option.some.injEq, eq_comm (a := uri')]
      exact ⟨fun h => ⟨fun _ => by omega, h⟩, fun h => h.2⟩

/-- A URI is accepted exactly if all of its parts are admissible, each by itself, and the server is
then the one that the parts describe: the protocol is that of the scheme, the address the host, and of
the items of the query with the same key the last one counts, except for domains and networks, which
are collected, and `dnssec`, which can only be turned off. -/
theorem server_uri_iff (lib : TextLibraries) (net : Inet) (text : String) (uri : ServerUri) :
    serverUriInitFromString lib net text = some uri ↔
      ∃ parsedUri address items, lib.uriParseSingleUri text = some parsedUri ∧
        AdmissibleUri lib net parsedUri address items ∧ uri = parsedUri.server net address items := by
  have hquery : ∀ {parsedUri : ParsedUri} {start : ServerUri},
      (if parsedUri.query = "" then some start else parseQuery lib net parsedUri.query start) =
        some uri ↔ ∃ items, (if parsedUri.query = "" then some [] else
          lib.uriDissectQuery parsedUri.query) = some items ∧
        (∀ item ∈ items, AdmissibleItem net item) ∧ uri = start.withQuery net items := by
    intro parsedUri start
    split_ifs with hnone
    · simp [ServerUri.withQuery_nil, eq_comm]
    · simp only [parseQuery, Option.bind_eq_bind, Option.bind_eq_some_iff,
        foldlM_parseQueryItem_iff]
  simp only [serverUriInitFromString, Option.bind_eq_bind, Option.bind_eq_some_iff, initScheme_iff,
    initHost_iff, initPort_iff, hquery]
  constructor
  · rintro ⟨parsedUri, hparsed, _, ⟨hscheme, rfl⟩, _, ⟨hlength, address, haddress, rfl⟩, _,
      ⟨hport, rfl⟩, items, hitems, hadmissible, rfl⟩
    exact ⟨parsedUri, address, items, hparsed,
      ⟨hscheme, hlength, haddress, hport, hitems, hadmissible⟩, rfl⟩
  · rintro ⟨parsedUri, address, items, hparsed, h, rfl⟩
    exact ⟨parsedUri, hparsed, _, ⟨h.scheme, rfl⟩, _, ⟨h.hostLength, address, h.host, rfl⟩, _,
      ⟨h.port, rfl⟩, items, h.query, h.item, rfl⟩

/-! ## The options -/

/-- The option `--json`. -/
def UpdateOption.isJson : UpdateOption → Bool
  | .json => true
  | _ => false

/-- The text of an argument that is not an option. -/
def UpdateOption.argument : UpdateOption → Option String
  | .arg text => some text
  | _ => none

/-- A mode other than `backup`. -/
def UpdateOption.restrictingMode : UpdateOption → Option Mode
  | .mode text =>
    if sameIgnoringCase text "backup" then none
    else if sameIgnoringCase text "prefer" then some .prefer
    else if sameIgnoringCase text "exclusive" then some .exclusive
    else none
  | _ => none

/-- A mode that there is. -/
def isModeName (text : String) : Bool :=
  sameIgnoringCase text "backup" || sameIgnoringCase text "prefer" ||
    sameIgnoringCase text "exclusive"

/-- The arguments before `--json`. -/
def uriArguments (options : List UpdateOption) : List String :=
  (options.takeWhile fun option => !option.isJson).filterMap UpdateOption.argument

/-- The arguments after `--json`. -/
def jsonArguments (options : List UpdateOption) : List String :=
  (options.dropWhile fun option => !option.isJson).filterMap UpdateOption.argument

/-- The options that `parse_update_command` accepts. -/
structure AdmissibleOptions (lib : TextLibraries) (net : Inet) (options : List UpdateOption) :
    Prop where
  mode : ∀ text, .mode text ∈ options → isModeName text = true
  uri : ∀ text ∈ uriArguments options, (serverUriInitFromString lib net text).isSome = true
  json : ∀ text ∈ jsonArguments options, serverUriListFromJson lib net text ≠ []
  jsonOnce : (jsonArguments options).length ≤ 1

/-- What the options ask for. -/
def requestedUpdate (lib : TextLibraries) (net : Inet) (options : List UpdateOption) :
    UpdateCommand where
  mode := (options.filterMap UpdateOption.restrictingMode).getLast?.getD .backup
  json := options.any UpdateOption.isJson
  serversUris :=
    match jsonArguments options with
    | [] => (uriArguments options).filterMap (serverUriInitFromString lib net)
    | text :: _ => serverUriListFromJson lib net text
  parsedAsJson := !(jsonArguments options).isEmpty

section Options

variable {lib : TextLibraries} {net : Inet} {options : List UpdateOption}

/-- An argument goes to the URIs until `--json` is given. -/
lemma arguments_concat (options : List UpdateOption) (option : UpdateOption) :
    uriArguments (options ++ [option]) =
        (if options.any UpdateOption.isJson then uriArguments options
          else uriArguments options ++ option.argument.toList) ∧
      jsonArguments (options ++ [option]) =
        (if options.any UpdateOption.isJson then jsonArguments options ++ option.argument.toList
          else jsonArguments options) := by
  have hargument : [option].filterMap UpdateOption.argument = option.argument.toList := by
    cases option <;> rfl
  induction options with
  | nil => cases option <;> exact ⟨rfl, rfl⟩
  | cons first options ih =>
    cases first with
    | json =>
      refine ⟨rfl, ?_⟩
      change (options ++ [option]).filterMap UpdateOption.argument =
        options.filterMap UpdateOption.argument ++ option.argument.toList
      rw [List.filterMap_append, hargument]
    | mode text => exact ih
    | arg text =>
      refine ⟨?_, ih.2⟩
      change text :: uriArguments (options ++ [option]) = if options.any UpdateOption.isJson then
        text :: uriArguments options else text :: (uriArguments options ++ option.argument.toList)
      rw [ih.1, apply_ite (List.cons text)]

/-- An option that is no argument. -/
lemma arguments_concat_of_none {option : UpdateOption} (h : option.argument = none) :
    uriArguments (options ++ [option]) = uriArguments options ∧
      jsonArguments (options ++ [option]) = jsonArguments options := by
  obtain ⟨huri, hjson⟩ := arguments_concat options option
  rw [h] at huri hjson
  simpa using And.intro huri hjson

/-- Without `--json` there is no JSON text. -/
lemma jsonArguments_of_not_any (h : options.any UpdateOption.isJson = false) :
    jsonArguments options = [] := by
  have hall : ∀ option ∈ options, (!option.isJson) = true := by simpa using h
  rw [jsonArguments, List.dropWhile_eq_nil_iff.mpr hall]
  rfl

/-- Options that are accepted are accepted up to each of them. -/
lemma AdmissibleOptions.of_concat {option : UpdateOption}
    (h : AdmissibleOptions lib net (options ++ [option])) : AdmissibleOptions lib net options := by
  obtain ⟨huri, hjson⟩ := arguments_concat options option
  have hurimem : ∀ text ∈ uriArguments options, text ∈ uriArguments (options ++ [option]) := by
    intro text hmem
    rw [huri]
    split_ifs
    · exact hmem
    · exact List.mem_append_left _ hmem
  have hsublist : (jsonArguments options).Sublist (jsonArguments (options ++ [option])) := by
    rw [hjson]
    split_ifs
    · exact List.sublist_append_left _ _
    · exact List.Sublist.refl _
  exact ⟨fun text hmem => h.mode text (List.mem_append_left _ hmem),
    fun text hmem => h.uri text (hurimem text hmem),
    fun text hmem => h.json text (hsublist.subset hmem), hsublist.length_le.trans h.jsonOnce⟩

/-- An option that is no argument is accepted unless it is a mode that there is not. -/
lemma admissibleOptions_concat_of_none (h : AdmissibleOptions lib net options)
    {option : UpdateOption} (hargument : option.argument = none) :
    AdmissibleOptions lib net (options ++ [option]) ↔
      ∀ text, option = .mode text → isModeName text = true := by
  obtain ⟨huri, hjson⟩ := @arguments_concat_of_none options option hargument
  constructor
  · rintro h' text rfl
    exact h'.mode text (by simp)
  · intro hmode
    refine ⟨fun text hmem => ?_, huri ▸ h.uri, hjson ▸ h.json, hjson ▸ h.jsonOnce⟩
    rcases List.mem_append.mp hmem with hmem | hmem
    · exact h.mode text hmem
    · exact hmode text (List.mem_singleton.mp hmem).symm

/-- What such an option changes. -/
lemma requestedUpdate_concat_of_none {option : UpdateOption} (hargument : option.argument = none) :
    requestedUpdate lib net (options ++ [option]) =
      { requestedUpdate lib net options with
        mode := option.restrictingMode.getD (requestedUpdate lib net options).mode
        json := (requestedUpdate lib net options).json || option.isJson } := by
  obtain ⟨huri, hjson⟩ := @arguments_concat_of_none options option hargument
  have hmode : ((options ++ [option]).filterMap UpdateOption.restrictingMode).getLast?.getD .backup =
      option.restrictingMode.getD
        ((options.filterMap UpdateOption.restrictingMode).getLast?.getD .backup) := by
    cases hrestricting : option.restrictingMode <;>
      simp [List.filterMap_append, hrestricting]
  simp only [requestedUpdate, huri, hjson, hmode, List.any_append, List.any_cons, List.any_nil,
    Bool.or_false]

/-- An argument before `--json`. -/
lemma parseUpdateCommandOpt_uri (h : AdmissibleOptions lib net options)
    (hany : options.any UpdateOption.isJson = false) {text : String} {command : UpdateCommand} :
    parseUpdateCommandOpt lib net (requestedUpdate lib net options) (.arg text) = .ok command ↔
      AdmissibleOptions lib net (options ++ [.arg text]) ∧
        command = requestedUpdate lib net (options ++ [.arg text]) := by
  obtain ⟨huri, hjson⟩ := arguments_concat options (.arg text)
  have hnone := jsonArguments_of_not_any hany
  rw [hany, if_neg Bool.false_ne_true] at huri hjson
  rw [hnone] at hjson
  cases hserver : serverUriInitFromString lib net text with
  | none =>
    refine iff_of_false ?_ ?_
    · simp [parseUpdateCommandOpt, requestedUpdate, hnone, hany, hserver]
    rintro ⟨h', -⟩
    have hsome := h'.uri text (by rw [huri]; simp [UpdateOption.argument])
    rw [hserver] at hsome
    cases hsome
  | some newServer =>
    have hadmissible : AdmissibleOptions lib net (options ++ [.arg text]) := by
      refine ⟨fun t ht => h.mode t (by simpa using ht), fun t ht => ?_, by simp [hjson],
        by simp [hjson]⟩
      rw [huri] at ht
      rcases List.mem_append.mp ht with ht | ht
      · exact h.uri t ht
      · obtain rfl : t = text := by simpa [UpdateOption.argument] using ht
        rw [hserver]
        rfl
    have hrequested : requestedUpdate lib net (options ++ [.arg text]) =
        { requestedUpdate lib net options with
          serversUris := (requestedUpdate lib net options).serversUris ++ [newServer] } := by
      simp [requestedUpdate, huri, hjson, hnone, UpdateOption.restrictingMode, UpdateOption.isJson,
        UpdateOption.argument, hserver]
    have hopt : parseUpdateCommandOpt lib net (requestedUpdate lib net options) (.arg text) =
        .ok { requestedUpdate lib net options with
          serversUris := (requestedUpdate lib net options).serversUris ++ [newServer] } := by
      simp [parseUpdateCommandOpt, requestedUpdate, hnone, hany, hserver]
    rw [hrequested, hopt]
    simp only [hadmissible, true_and, Except.ok.injEq]
    exact eq_comm

/-- An argument after `--json`. -/
lemma parseUpdateCommandOpt_jsonText (h : AdmissibleOptions lib net options)
    (hany : options.any UpdateOption.isJson = true) {text : String} {command : UpdateCommand} :
    parseUpdateCommandOpt lib net (requestedUpdate lib net options) (.arg text) = .ok command ↔
      AdmissibleOptions lib net (options ++ [.arg text]) ∧
        command = requestedUpdate lib net (options ++ [.arg text]) := by
  obtain ⟨huri, hjson⟩ := arguments_concat options (.arg text)
  rw [hany, if_pos rfl] at huri hjson
  cases hbefore : jsonArguments options with
  | cons first rest =>
    refine iff_of_false (by simp [parseUpdateCommandOpt, requestedUpdate, hbefore]) ?_
    rintro ⟨h', -⟩
    have honce := h'.jsonOnce
    rw [hjson, hbefore] at honce
    simp [UpdateOption.argument] at honce
  | nil =>
    rw [hbefore] at hjson
    have hopt : parseUpdateCommandOpt lib net (requestedUpdate lib net options) (.arg text) =
        if serverUriListFromJson lib net text = [] then .error "Servers JSON is badly formed"
        else .ok { requestedUpdate lib net options with
          serversUris := serverUriListFromJson lib net text, parsedAsJson := true } := by
      simp [parseUpdateCommandOpt, requestedUpdate, hbefore, hany]
    rw [hopt]
    by_cases hempty : serverUriListFromJson lib net text = []
    · refine iff_of_false (by simp [hempty]) ?_
      rintro ⟨h', -⟩
      exact h'.json text (by rw [hjson]; simp [UpdateOption.argument]) hempty
    · have hadmissible : AdmissibleOptions lib net (options ++ [.arg text]) := by
        refine ⟨fun t ht => h.mode t (by simpa using ht), huri ▸ h.uri, fun t ht => ?_,
          by simp [hjson, UpdateOption.argument]⟩
        obtain rfl : t = text := by simpa [hjson, UpdateOption.argument] using ht
        exact hempty
      have hrequested : requestedUpdate lib net (options ++ [.arg text]) =
          { requestedUpdate lib net options with
            serversUris := serverUriListFromJson lib net text, parsedAsJson := true } := by
        simp [requestedUpdate, hjson, UpdateOption.restrictingMode, UpdateOption.isJson,
          UpdateOption.argument]
      rw [hrequested, if_neg hempty]
      simp only [hadmissible, true_and, Except.ok.injEq]
      exact eq_comm

/-- One call of `parse_update_command_opt`. -/
lemma parseUpdateCommandOpt_iff (h : AdmissibleOptions lib net options) {option : UpdateOption}
    {command : UpdateCommand} :
    parseUpdateCommandOpt lib net (requestedUpdate lib net options) option = .ok command ↔
      AdmissibleOptions lib net (options ++ [option]) ∧
        command = requestedUpdate lib net (options ++ [option]) := by
  cases option with
  | json =>
    rw [admissibleOptions_concat_of_none h rfl, requestedUpdate_concat_of_none rfl,
      eq_comm (a := command)]
    simp [parseUpdateCommandOpt, UpdateOption.restrictingMode, UpdateOption.isJson]
  | mode text =>
    rw [admissibleOptions_concat_of_none h rfl, requestedUpdate_concat_of_none rfl,
      eq_comm (a := command)]
    simp only [parseUpdateCommandOpt, UpdateOption.restrictingMode, UpdateOption.isJson,
      UpdateOption.mode.injEq, forall_eq', isModeName, Bool.or_false]
    split_ifs <;> simp_all
  | arg text =>
    cases hany : options.any UpdateOption.isJson with
    | false => exact parseUpdateCommandOpt_uri h hany
    | true => exact parseUpdateCommandOpt_jsonText h hany

end Options

/-- A command line is accepted exactly if its modes are known, every argument before `--json` is a
URI of a server, and there is at most one argument after `--json`, which is a JSON text of servers.
The servers are then those of the JSON text, if there is one, even if there are URIs before it, and
otherwise those of the URIs; and the mode is the last one that is not `backup`. -/
theorem update_command_iff (lib : TextLibraries) (net : Inet) (options : List UpdateOption)
    (command : UpdateCommand) :
    parseUpdateCommand lib net options = .ok command ↔
      AdmissibleOptions lib net options ∧ command = requestedUpdate lib net options := by
  induction options using List.reverseRecOn generalizing command with
  | nil =>
    have hadmissible : AdmissibleOptions lib net [] :=
      ⟨by simp, by simp [uriArguments], by simp [jsonArguments], by simp [jsonArguments]⟩
    simp only [hadmissible, true_and]
    exact ⟨fun h => (Except.ok.inj h).symm, fun h => congrArg Except.ok h.symm⟩
  | append_singleton options option ih =>
    have hconcat : parseUpdateCommand lib net (options ++ [option]) =
        parseUpdateCommand lib net options >>= fun before =>
          parseUpdateCommandOpt lib net before option := by
      simp only [parseUpdateCommand, List.foldlM_append, List.foldlM_cons, List.foldlM_nil,
        bind_pure]
    rw [hconcat]
    constructor
    · intro h
      obtain ⟨before, hbefore, hoption⟩ := ok_of_bind h
      obtain ⟨hadmissible, rfl⟩ := (ih before).mp hbefore
      exact (parseUpdateCommandOpt_iff hadmissible).mp hoption
    · rintro ⟨hadmissible, rfl⟩
      rw [(ih _).mpr ⟨hadmissible.of_concat, rfl⟩]
      exact (parseUpdateCommandOpt_iff hadmissible.of_concat).mpr ⟨hadmissible, rfl⟩

end Dnsconfd
