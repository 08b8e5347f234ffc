import Dnsconfd.ConfigurationParsing.StaticServers

/-!
# Configuration files as documents

A configuration file is usually a mapping of options, some with a text as their value and some with
a list.  This file describes such documents and the events they have, and computes what the parsers
make of them: a text is stored under its option, static servers are read field by field
(`serverOfMapping`), and the first error ends everything.
-/

namespace Dnsconfd.ConfigFile

open Library

/-! ## Documents -/

/-- A value in the mapping of a server. -/
inductive YamlValue where
  | scalar (value : String)
  | sequence (values : List String)

/-- The mapping of a server. -/
abbrev YamlMapping := List (String × YamlValue)

/-- An option of a file: one with a text, or the static servers. -/
inductive ConfigEntry where
  | option (key value : String)
  | staticServers (servers : List YamlMapping)

/-- The events of a value. -/
def YamlValue.events : YamlValue → List YamlEvent
  | scalar value => [.scalar value]
  | sequence values => .sequenceStart :: (values.map .scalar ++ [.sequenceEnd])

/-- The events of the fields of a mapping. -/
def fieldEvents (mapping : YamlMapping) : List YamlEvent :=
  mapping.flatMap fun field => .scalar field.1 :: field.2.events

/-- The events of the mapping of a server. -/
def mappingEvents (mapping : YamlMapping) : List YamlEvent :=
  .mappingStart :: (fieldEvents mapping ++ [.mappingEnd])

/-- The events of an option. -/
def ConfigEntry.events : ConfigEntry → List YamlEvent
  | option key value => [.scalar key, .scalar value]
  | staticServers servers =>
    .scalar "static_servers" :: .sequenceStart :: (servers.flatMap mappingEvents ++ [.sequenceEnd])

/-- The events of a file with the given options, from the start of the stream to its end. -/
def documentEvents (entries : List ConfigEntry) : List YamlEvent :=
  .other :: .other :: .mappingStart ::
    (entries.flatMap ConfigEntry.events ++ [.mappingEnd, .other, .streamEnd])

/-! ## Static servers of a document -/

/-- A list stored into a server. -/
def storeServerList (net : Inet) (key : String) (values : List String) (draft : ServerDraft) :
    Except (Option String) ServerDraft :=
  if key = "routing_domains" then
    .ok { draft with
      server := { draft.server with routingDomains := draft.server.routingDomains ++ values } }
  else if key = "search_domains" then
    .ok { draft with
      server := { draft.server with searchDomains := draft.server.searchDomains ++ values } }
  else if key = "networks" then
    match values.mapM (networkAddressFromString net) with
    | none => .error (some "Failed to parse networks in static_servers")
    | some networks =>
      .ok { draft with server := { draft.server with networks := draft.server.networks ++ networks } }
  else .error (some "Unrecognized sequence in static_servers")

/-- A field stored into a server. -/
def storeField (net : Inet) (draft : ServerDraft) (field : String × YamlValue) :
    Except (Option String) ServerDraft :=
  match field.2 with
  | .scalar value => storeServerField net field.1 value draft
  | .sequence values => storeServerList net field.1 values draft

/-- The server of a mapping. -/
def serverOfMapping (net : Inet) (mapping : YamlMapping) : Except (Option String) ServerUri :=
  match mapping.foldlM (storeField net) .initial with
  | .error error => .error error
  | .ok draft =>
    if draft.server.address = .unspec then
      .error (some "Server in static_servers does not have address set")
    else .ok draft.complete

/-- Scalars up to the end of their sequence. -/
lemma readAll_scalars {α : Type} (convert : String → Option α) (values : List String) (l : List α)
    (rest : List YamlEvent) :
    readAll (scalarsBody convert) (values.map .scalar ++ .sequenceEnd :: rest) l =
      match values.mapM convert with
      | none => some (.error ())
      | some converted => some (.ok (l ++ converted, rest)) := by
  induction values generalizing l with
  | nil =>
    rw [List.map_nil, List.nil_append, readAll_cons (consumes_scalarsBody convert)]
    simp [scalarsBody]
  | cons value values ih =>
    rw [List.map_cons, List.cons_append, readAll_cons (consumes_scalarsBody convert)]
    cases hvalue : convert value with
    | none => simp [scalarsBody, hvalue, List.mapM_cons]
    | some a =>
      simp only [scalarsBody, hvalue, ih]
      cases hvalues : values.mapM convert with
      | none => simp [List.mapM_cons, hvalue, hvalues]
      | some converted => simp [List.mapM_cons, hvalue, hvalues]

/-- A list in the mapping of a server. -/
lemma readServerList_scalars (net : Inet) (s : StaticServersState) (draft : ServerDraft)
    (key : String) (values : List String) (rest : List YamlEvent) :
    readServerList net s draft key (values.map .scalar ++ .sequenceEnd :: rest) =
      match storeServerList net key values draft with
      | .error error => some (.failed error)
      | .ok draft => some (.continued (s.stored draft) rest) := by
  have hmapM : values.mapM (some : String → Option String) = some values := by
    induction values with
    | nil => rfl
    | cons value values ih => simp [List.mapM_cons, ih]
  unfold readServerList storeServerList parseDomains parseNetworks
  simp only [readAll_scalars, hmapM]
  by_cases hrouting : key = "routing_domains"
  · simp [hrouting, Turn.afterRead]
  by_cases hsearch : key = "search_domains"
  · simp [hsearch, Turn.afterRead]
  by_cases hnetworks : key = "networks"
  · subst hnetworks
    cases values.mapM (networkAddressFromString net) <;> simp [Turn.afterRead]
  · simp [hrouting, hsearch, hnetworks]

/-- A field in the mapping of a server. -/
lemma readAll_field (net : Inet) (servers : List ServerUri) (draft : ServerDraft)
    (field : String × YamlValue) (rest : List YamlEvent) :
    readAll (staticServersBody net) (.scalar field.1 :: (field.2.events ++ rest))
        ⟨servers, some draft, none⟩ =
      match storeField net draft field with
      | .error error => some (.error error)
      | .ok draft => readAll (staticServersBody net) rest ⟨servers, some draft, none⟩ := by
  have hconsumes := consumes_staticServersBody net
  obtain ⟨key, value⟩ := field
  rw [readAll_cons hconsumes]
  cases value with
  | scalar value =>
    simp only [staticServersBody, YamlValue.events, List.cons_append, List.nil_append, storeField]
    rw [readAll_cons hconsumes]
    cases hstore : storeServerField net key value draft <;>
      simp [staticServersBody, hstore, StaticServersState.stored]
  | sequence values =>
    simp only [staticServersBody, YamlValue.events, List.cons_append, List.append_assoc,
      List.nil_append, storeField]
    rw [readAll_cons hconsumes]
    simp only [staticServersBody, readServerList_scalars]
    cases hstore : storeServerList net key values draft <;>
      simp [StaticServersState.stored]

/-- The fields in the mapping of a server. -/
lemma readAll_fields (net : Inet) (servers : List ServerUri) (mapping : YamlMapping)
    (draft : ServerDraft) (rest : List YamlEvent) :
    readAll (staticServersBody net) (fieldEvents mapping ++ rest) ⟨servers, some draft, none⟩ =
      match mapping.foldlM (storeField net) draft with
      | .error error => some (.error error)
      | .ok draft => readAll (staticServersBody net) rest ⟨servers, some draft, none⟩ := by
  induction mapping generalizing draft with
  | nil => rfl
  | cons field mapping ih =>
    have hevents : fieldEvents (field :: mapping) ++ rest =
        .scalar field.1 :: (field.2.events ++ (fieldEvents mapping ++ rest)) := by
      simp [fieldEvents]
    rw [hevents, readAll_field, List.foldlM_cons]
    cases hstore : storeField net draft field with
    | error error => rfl
    | ok draft' => exact ih draft'

/-- The mapping of a server. -/
lemma readAll_mapping (net : Inet) (servers : List ServerUri) (mapping : YamlMapping)
    (rest : List YamlEvent) :
    readAll (staticServersBody net) (mappingEvents mapping ++ rest) ⟨servers, none, none⟩ =
      match serverOfMapping net mapping with
      | .error error => some (.error error)
      | .ok server => readAll (staticServersBody net) rest ⟨servers ++ [server], none, none⟩ := by
  have hconsumes := consumes_staticServersBody net
  rw [mappingEvents, List.cons_append, readAll_cons hconsumes]
  simp only [staticServersBody, List.append_assoc, List.cons_append, List.nil_append]
  rw [readAll_fields, serverOfMapping]
  cases mapping.foldlM (storeField net) .initial with
  | error error => rfl
  | ok draft =>
    dsimp only
    rw [readAll_cons hconsumes]
    by_cases haddress : draft.server.address = .unspec
    · simp [staticServersBody, haddress]
    · simp [staticServersBody, haddress]

/-- The static servers of a document. -/
theorem parseStaticServers_mappings (net : Inet) (mappings : List YamlMapping)
    (servers : List ServerUri) (rest : List YamlEvent) :
    parseStaticServers net (mappings.flatMap mappingEvents ++ .sequenceEnd :: rest) servers =
      match mappings.mapM (serverOfMapping net) with
      | .error error => some (.error error)
      | .ok parsed => some (.ok (⟨servers ++ parsed, none, none⟩, rest)) := by
  unfold parseStaticServers
  induction mappings generalizing servers with
  | nil =>
    rw [List.flatMap_nil, List.nil_append, readAll_cons (consumes_staticServersBody net)]
    simp [staticServersBody, pure, Except.pure]
  | cons mapping mappings ih =>
    rw [List.flatMap_cons, List.append_assoc, readAll_mapping, List.mapM_cons]
    cases hserver : serverOfMapping net mapping with
    | error error => rfl
    | ok server =>
      simp only [ih]
      cases hparsed : mappings.mapM (serverOfMapping net) with
      | error error => rfl
      | ok parsed => simp [bind, Except.bind, pure, Except.pure]

/-! ## Whole files -/

/-- An option stored into a configuration. -/
def storeEntry (net : Inet) (s : FileState) : ConfigEntry → Except (Option String) FileState
  | .option key value => storeOption net key value s
  | .staticServers servers =>
    match servers.mapM (serverOfMapping net) with
    | .error error => .error error
    | .ok parsed =>
      .ok { s with
        config := { s.config with staticServers := s.config.staticServers ++ parsed } }

/-- Storing an option does not depend on the current key. -/
lemma storeOption_currentKey (net : Inet) (key value : String) (s : FileState)
    (current : Option String) :
    storeOption net key value { s with currentKey := current } =
      (storeOption net key value s).map fun s' => { s' with currentKey := current } := by
  unfold storeOption
  split_ifs
  any_goals rfl
  · cases parseIpStr net value s.config.listenAddress.port <;> rfl
  · cases duplicatingOptions key value s.config <;> rfl

/-- Storing an option leaves the current key alone. -/
lemma currentKey_of_storeOption {net : Inet} {key value : String} {s s' : FileState}
    (h : storeOption net key value s = .ok s') : s'.currentKey = s.currentKey := by
  rcases storeOption_cases h with ⟨-, rfl⟩ | ⟨o, -, rfl⟩ | ⟨-, _, -, rfl⟩ | ⟨-, rfl⟩ | ⟨o, -, rfl⟩
  all_goals rfl

/-- An option of a file. -/
lemma readAll_entry (net : Inet) (entry : ConfigEntry) (s : FileState) (hs : s.currentKey = none)
    (rest : List YamlEvent) :
    readAll (fileBody net) (entry.events ++ rest) s =
      match storeEntry net s entry with
      | .error error => some (.error error)
      | .ok s => readAll (fileBody net) rest s := by
  have hconsumes := consumes_fileBody net
  cases entry with
  | option key value =>
    simp only [ConfigEntry.events, List.cons_append, List.nil_append, storeEntry]
    rw [readAll_cons hconsumes]
    simp only [fileBody, hs]
    rw [readAll_cons hconsumes]
    simp only [fileBody, storeOption_currentKey]
    cases hstore : storeOption net key value s with
    | error error => rfl
    | ok s' =>
      have hkey : s'.currentKey = none := (currentKey_of_storeOption hstore).trans hs
      simp only [Except.map]
      rw [← hkey]
  | staticServers servers =>
    simp only [ConfigEntry.events, List.cons_append, List.append_assoc, List.nil_append, storeEntry]
    rw [readAll_cons hconsumes]
    simp only [fileBody, hs]
    rw [readAll_cons hconsumes]
    simp only [fileBody, readOptionList, if_true, parseStaticServers_mappings]
    cases servers.mapM (serverOfMapping net) with
    | error error => rfl
    | ok parsed => simp only [Turn.afterRead]

/-- Storing an entry leaves the current key alone. -/
lemma currentKey_of_storeEntry {net : Inet} {entry : ConfigEntry} {s s' : FileState}
    (h : storeEntry net s entry = .ok s') : s'.currentKey = s.currentKey := by
  cases entry with
  | option key value => exact currentKey_of_storeOption h
  | staticServers servers =>
    simp only [storeEntry] at h
    split at h
    · cases h
    · cases h
      rfl

/-- A file that is a document: its options are stored one after the other. -/
theorem readAll_document (net : Inet) (entries : List ConfigEntry) (config : RawConfig) :
    readAll (fileBody net) (documentEvents entries) ⟨config, [], none, 0⟩ =
      match entries.foldlM (storeEntry net) ⟨config, [], none, 1⟩ with
      | .error error => some (.error error)
      | .ok s => some (.ok (s, [])) := by
  have hconsumes := consumes_fileBody net
  have hentries : ∀ (entries : List ConfigEntry) (s : FileState), s.currentKey = none →
      readAll (fileBody net)
          (entries.flatMap ConfigEntry.events ++ [.mappingEnd, .other, .streamEnd]) s =
        match entries.foldlM (storeEntry net) s with
        | .error error => some (.error error)
        | .ok s => some (.ok (s, [])) := by
    intro entries
    induction entries with
    | nil =>
      intro s hs
      rw [List.flatMap_nil, List.nil_append]
      rw [readAll_cons hconsumes]
      simp only [fileBody]
      rw [readAll_cons hconsumes]
      simp only [fileBody]
      rw [readAll_cons hconsumes]
      rfl
    | cons entry entries ih =>
      intro s hs
      rw [List.flatMap_cons, List.append_assoc, readAll_entry net entry s hs, List.foldlM_cons]
      cases hstore : storeEntry net s entry with
      | error error => rfl
      | ok s' => exact ih s' ((currentKey_of_storeEntry hstore).trans hs)
  unfold documentEvents
  rw [readAll_cons hconsumes]
  simp only [fileBody]
  rw [readAll_cons hconsumes]
  simp only [fileBody]
  rw [readAll_cons hconsumes]
  simp only [fileBody]
  exact hentries entries _ rfl

/-- Only the option `include` names files to be included. -/
lemma includePaths_of_foldlM {net : Inet} {entries : List ConfigEntry}
    (hinclude : ∀ value, .option "include" value ∉ entries) {s s' : FileState}
    (h : entries.foldlM (storeEntry net) s = .ok s') : s'.includePaths = s.includePaths := by
  induction entries generalizing s with
  | nil =>
    obtain rfl : s = s' := Except.ok.inj h
    rfl
  | cons entry entries ih =>
    rw [List.foldlM_cons] at h
    obtain ⟨s₁, hentry, hrest⟩ := ok_of_bind h
    have hfirst : s₁.includePaths = s.includePaths := by
      cases entry with
      | option key value =>
        rcases storeOption_cases hentry with ⟨-, rfl⟩ | ⟨o, -, rfl⟩ | ⟨-, _, -, rfl⟩ |
          ⟨rfl, -⟩ | ⟨o, -, rfl⟩
        · rfl
        · rfl
        · rfl
        · exact absurd List.mem_cons_self (hinclude value)
        · rfl
      | staticServers servers =>
        simp only [storeEntry] at hentry
        split at hentry
        · cases hentry
        · cases hentry
          rfl
    have hothers := fun value hmem => hinclude value (List.mem_cons_of_mem entry hmem)
    rw [ih hothers hrest, hfirst]

/-- A configuration file that is a document and includes no other file. -/
theorem parseConfigFile_document {net : Inet} {files : Files} {path : String}
    {entries : List ConfigEntry} (hevents : files.events path = some (documentEvents entries))
    (hinclude : ∀ value, .option "include" value ∉ entries) (config : RawConfig) :
    parseConfigFile net files path config =
      match entries.foldlM (storeEntry net) ⟨config, [], none, 1⟩ with
      | .error error => some (.error error)
      | .ok s => some (.ok s.config) := by
  have hfile : parseSingleConfigFile net files path config =
      readAll (fileBody net) (documentEvents entries) ⟨config, [], none, 0⟩ := by
    rw [parseSingleConfigFile, hevents]
  change parseFiles net files (999 + 1) [path] config = _
  rw [parseFiles, hfile, readAll_document]
  cases hfold : entries.foldlM (storeEntry net) ⟨config, [], none, 1⟩ with
  | error error => rfl
  | ok s =>
    have hpaths : s.includePaths = [] := includePaths_of_foldlM hinclude hfold
    simp only [hpaths, List.foldlM_nil]
    rfl

end Dnsconfd.ConfigFile
