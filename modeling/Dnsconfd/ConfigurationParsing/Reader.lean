import Dnsconfd.ConfigurationParsing.Documents

/-!
# Reading a file event by event

The parsers of the configuration file are loops inside of loops, and each of them takes its events
from the same stream.  This file puts them side by side as one machine that takes one event at a
time and knows in which of the loops it is, with the variables of that loop and of those around it.
What the machine comes to is what `parse_single_config_file` returns
(`parseSingleConfigFile_eq_run`), and between two events one can ask it for the configuration.
-/

namespace Dnsconfd.ConfigFile

open Library

/-! ## The machine -/

/-- Where the reader of a file is between two events: in the loop of the file itself, in one of the
loops inside of it, or behind the end of the stream.  While a list of a server is read, the server
has the part of it that was read already. -/
inductive Reader where
  | file (s : FileState)
  | servers (s : FileState) (state : StaticServersState)
  | serverList (s : FileState) (state : StaticServersState) (draft : ServerDraft) (key : String)
  | zones (s : FileState) (state : RpzZonesState)
  | includes (s : FileState) (paths : List String)
  | done (s : FileState)

/-- The fields of a server that are lists. -/
def serverLists : List String :=
  ["routing_domains", "search_domains", "networks"]

/-- The state of the file behind its static servers. -/
def FileState.withServers (s : FileState) (servers : List ServerUri) : FileState :=
  { s with config := { s.config with staticServers := servers }, currentKey := none }

/-- The state of the file behind its response policy zones. -/
def FileState.withZones (s : FileState) (zones : List RpzZone) : FileState :=
  { s with config := { s.config with rpzZones := zones }, currentKey := none }

/-- The state of the file behind a list of paths. -/
def FileState.withPaths (s : FileState) (paths : List String) : FileState :=
  { s with includePaths := paths, currentKey := none }

/-- The reader behind an iteration that has read one event. -/
def readerOf {σ : Type} (goOn finish : σ → Reader) :
    EventTurn σ (Option String) → Except (Option String) Reader
  | none => .error none
  | some (.failed error) => .error error
  | some (.finished s _) => .ok (finish s)
  | some (.continued s _) => .ok (goOn s)

/-- One event.  Only the start of a sequence can enter a loop; every other event is handled by the
loop that the reader is in. -/
def Reader.step (net : Inet) : Reader → YamlEvent → Except (Option String) Reader
  | .file s, .sequenceStart =>
    if s.currentKey = some "static_servers" then
      .ok (.servers s ⟨s.config.staticServers, none, none⟩)
    else if s.currentKey = some "rpz" then .ok (.zones s ⟨s.config.rpzZones, none, none⟩)
    else if s.currentKey = some "include" then .ok (.includes s s.includePaths)
    else .ok (.file s)
  | .file s, event => readerOf .file .done (fileBody net s event [])
  | .servers s state, .sequenceStart =>
    match state.currentServer, state.currentKey with
    | some draft, some key =>
      if key ∈ serverLists then .ok (.serverList s state draft key)
      else .error (some "Unrecognized sequence in static_servers")
    | _, _ => .error (some "Badly formatted static_servers")
  | .servers s state, event =>
    readerOf (.servers s) (fun parsed => .file (s.withServers parsed.staticServers))
      (staticServersBody net state event [])
  | .serverList s state draft key, .scalar value =>
    match storeServerList net key [value] draft with
    | .error error => .error error
    | .ok draft => .ok (.serverList s state draft key)
  | .serverList s state draft _, .sequenceEnd => .ok (.servers s (state.stored draft))
  | .serverList _ _ _ key, .failure =>
    .error (some ("Failed to parse " ++ key ++ " in static_servers"))
  | .serverList s state draft key, _ => .ok (.serverList s state draft key)
  | .zones s state, event =>
    readerOf (.zones s) (fun parsed => .file (s.withZones parsed.rpzZones))
      (rpzZonesBody state event [])
  | .includes _ _, .failure => .error (some "Failed to parse include list YAML")
  | .includes s paths, .scalar value => .ok (.includes s (paths ++ [value]))
  | .includes s paths, .sequenceEnd => .ok (.file (s.withPaths paths))
  | .includes s paths, _ => .ok (.includes s paths)
  | .done s, _ => .ok (.done s)

/-- A run over events. -/
def Reader.run (net : Inet) : Reader → List YamlEvent → Except (Option String) Reader
  | r, [] => .ok r
  | r, event :: events =>
    match r.step net event with
    | .error error => .error error
    | .ok r => run net r events

/-- What a run has come to: an error, the end of the stream, or nothing yet. -/
def outcome : Except (Option String) Reader → Option (Except (Option String) FileState)
  | .error error => some (.error error)
  | .ok (.done s) => some (.ok s)
  | .ok _ => none

namespace Reader

variable {net : Inet} {r r' r'' : Reader} {event : YamlEvent} {events : List YamlEvent}

lemma run_cons_eq_ok_iff :
    r.run net (event :: events) = .ok r'' ↔
      ∃ r', r.step net event = .ok r' ∧ r'.run net events = .ok r'' := by
  rw [run]
  cases hstep : r.step net event with
  | error error => simp
  | ok r₁ => simp

/-- Runs compose. -/
lemma run_append_eq_ok_iff {events' : List YamlEvent} :
    r.run net (events ++ events') = .ok r'' ↔
      ∃ r', r.run net events = .ok r' ∧ r'.run net events' = .ok r'' := by
  induction events generalizing r with
  | nil => simp [run]
  | cons event events ih =>
    simp only [List.cons_append, run_cons_eq_ok_iff, ih]
    constructor
    · rintro ⟨r₁, hstep, r', hrun, hrest⟩
      exact ⟨r', ⟨r₁, hstep, hrun⟩, hrest⟩
    · rintro ⟨r', ⟨r₁, hstep, hrun⟩, hrest⟩
      exact ⟨r₁, hstep, r', hrun, hrest⟩

lemma run_singleton : r.run net [event] = r.step net event := by
  rw [run]
  cases r.step net event <;> rfl

/-- Behind the end of the stream nothing is read. -/
lemma run_done (s : FileState) (events : List YamlEvent) :
    (Reader.done s).run net events = .ok (.done s) := by
  induction events with
  | nil => rfl
  | cons event events ih =>
    rw [run]
    exact ih

end Reader

/-! ## The machine and the loops -/

section Loops

variable (net : Inet)

/-- The reader in the mode of a list of scalars does what the loop over them does. -/
lemma outcome_run_scalars {α : Type} (convert : String → Option α) (mode back : List α → Reader)
    {onError : Option String} (hmode : ∀ l, outcome (.ok (mode l)) = none)
    (hfailure : ∀ l, (mode l).step net .failure = .error onError)
    (hscalar : ∀ l value, (mode l).step net (.scalar value) =
      match convert value with
      | none => .error onError
      | some a => .ok (mode (l ++ [a])))
    (hend : ∀ l, (mode l).step net .sequenceEnd = .ok (back l))
    (hother : ∀ l event, event ≠ .failure → (∀ value, event ≠ .scalar value) →
      event ≠ .sequenceEnd → (mode l).step net event = .ok (mode l))
    (events : List YamlEvent) (l : List α) :
    outcome ((mode l).run net events) =
      behind (fun _ => .error onError) (fun l rest => outcome ((back l).run net rest))
        (readAll (scalarsBody convert) events l) := by
  refine eq_behind_readAll (consumes_scalarsBody convert)
    (fun l events => outcome ((mode l).run net events)) hmode ?_ events l
  intro l event rest
  cases event with
  | failure =>
    simp only [Reader.run, hfailure]
    rfl
  | scalar value =>
    simp only [Reader.run, hscalar, scalarsBody]
    cases convert value <;> rfl
  | sequenceEnd =>
    simp only [Reader.run, hend]
    rfl
  | sequenceStart | mappingStart | mappingEnd | streamEnd | other =>
    simp only [Reader.run]
    rw [hother l _ (by simp) (by simp) (by simp)]
    rfl

/-- A list of a server, given by how the list is a part of the server. -/
lemma outcome_run_storedList {α : Type} (convert : String → Option α) (store : List α → ServerDraft)
    (s : FileState) (state : StaticServersState) (key : String)
    (hstore : ∀ l value, storeServerList net key [value] (store l) =
      match convert value with
      | none => .error (some ("Failed to parse " ++ key ++ " in static_servers"))
      | some a => .ok (store (l ++ [a])))
    (events : List YamlEvent) (l : List α) :
    outcome ((Reader.serverList s state (store l) key).run net events) =
      behind (fun _ => .error (some ("Failed to parse " ++ key ++ " in static_servers")))
        (fun l rest => outcome ((Reader.servers s (state.stored (store l))).run net rest))
        (readAll (scalarsBody convert) events l) := by
  refine outcome_run_scalars net convert (fun l => .serverList s state (store l) key)
    (fun l => .servers s (state.stored (store l))) (fun _ => rfl) (fun _ => rfl) ?_ (fun _ => rfl)
    ?_ events l
  · intro l value
    rw [Reader.step, hstore]
    cases convert value <;> rfl
  · intro l event hfailure hscalar hend
    cases event <;> simp_all [Reader.step]

/-- A list of a server. -/
lemma outcome_run_serverList (s : FileState) (state : StaticServersState) (draft : ServerDraft)
    {key : String} (hkey : key ∈ serverLists) {onOk : StaticServersState → List YamlEvent → _}
    (rest : List YamlEvent) :
    outcome ((Reader.serverList s state draft key).run net rest) =
      Turn.behind .error onOk (fun state rest => outcome ((Reader.servers s state).run net rest))
        (readServerList net state draft key rest) := by
  have hkeys : key = "routing_domains" ∨ key = "search_domains" ∨ key = "networks" := by
    simpa [serverLists] using hkey
  rcases hkeys with rfl | rfl | rfl
  · rw [readServerList, if_pos rfl, Turn.behind_afterRead]
    exact outcome_run_storedList net some
      (fun l => { draft with server := { draft.server with routingDomains := l } }) s state _
      (fun _ _ => rfl) rest draft.server.routingDomains
  · rw [readServerList, if_neg (by decide), if_pos rfl, Turn.behind_afterRead]
    exact outcome_run_storedList net some
      (fun l => { draft with server := { draft.server with searchDomains := l } }) s state _
      (fun _ _ => rfl) rest draft.server.searchDomains
  · rw [readServerList, if_neg (by decide), if_neg (by decide), if_pos rfl, Turn.behind_afterRead]
    refine outcome_run_storedList net (networkAddressFromString net)
      (fun l => { draft with server := { draft.server with networks := l } }) s state _
      ?_ rest draft.server.networks
    intro l value
    cases hvalue : networkAddressFromString net value <;>
      simp [storeServerList, List.mapM_cons, hvalue]

/-- An iteration that reads one event. -/
lemma outcome_run_readerOf {σ : Type} {goOn finish : σ → Reader} {turn : Turn σ (Option String) _}
    {turn' : EventTurn σ (Option String)} {rest : List YamlEvent} {r : Reader} {event : YamlEvent}
    (hstep : r.step net event = readerOf goOn finish (some turn))
    (hturn : turn' = some (turn.withRest rest)) :
    outcome (r.run net (event :: rest)) =
      Turn.behind .error (fun s rest => outcome ((finish s).run net rest))
        (fun s rest => outcome ((goOn s).run net rest)) turn' := by
  rw [Reader.run, hstep, hturn]
  cases turn <;> rfl

/-- Every event but the start of a sequence is one iteration over static servers. -/
lemma staticServersBody_rest (state : StaticServersState) {event : YamlEvent}
    (hevent : event ≠ .sequenceStart) :
    ∃ turn, staticServersBody net state event [] = some turn ∧
      ∀ rest, staticServersBody net state event rest = some (turn.withRest rest) := by
  cases event with
  | sequenceStart => exact absurd rfl hevent
  | failure | sequenceEnd | streamEnd | other => exact ⟨_, rfl, fun _ => rfl⟩
  | mappingStart =>
    simp only [staticServersBody]
    cases state.currentServer <;> exact ⟨_, rfl, fun _ => rfl⟩
  | mappingEnd =>
    simp only [staticServersBody]
    cases state.currentServer with
    | none => exact ⟨_, rfl, fun _ => rfl⟩
    | some draft =>
      dsimp only
      split_ifs <;> exact ⟨_, rfl, fun _ => rfl⟩
  | scalar value =>
    simp only [staticServersBody]
    cases state.currentKey with
    | none => exact ⟨_, rfl, fun _ => rfl⟩
    | some key =>
      cases state.currentServer with
      | none => exact ⟨_, rfl, fun _ => rfl⟩
      | some draft =>
        dsimp only
        cases storeServerField net key value draft <;> exact ⟨_, rfl, fun _ => rfl⟩

/-- The loop over static servers. -/
lemma outcome_run_servers (s : FileState) (events : List YamlEvent) (state : StaticServersState) :
    outcome ((Reader.servers s state).run net events) =
      behind .error
        (fun parsed rest => outcome ((Reader.file (s.withServers parsed.staticServers)).run net rest))
        (readAll (staticServersBody net) events state) := by
  refine eq_behind_readAll (consumes_staticServersBody net)
    (fun state events => outcome ((Reader.servers s state).run net events)) (fun _ => rfl) ?_
    events state
  intro state event rest
  by_cases hevent : event = .sequenceStart
  · subst hevent
    rw [Reader.run, Reader.step, staticServersBody]
    rcases Option.eq_none_or_eq_some state.currentServer with hserver | ⟨draft, hserver⟩
    · rw [hserver]
      rfl
    rcases Option.eq_none_or_eq_some state.currentKey with hkey | ⟨key, hkey⟩
    · rw [hserver, hkey]
      rfl
    rw [hserver, hkey]
    dsimp only
    by_cases hlist : key ∈ serverLists
    · rw [if_pos hlist]
      exact outcome_run_serverList net s state draft hlist rest
    · have hnone : readServerList net state draft key rest =
          some (.failed (some "Unrecognized sequence in static_servers")) := by
        simp only [serverLists, List.mem_cons, List.not_mem_nil, or_false, not_or] at hlist
        rw [readServerList, if_neg hlist.1, if_neg hlist.2.1, if_neg hlist.2.2]
      rw [if_neg hlist, hnone]
      rfl
  · obtain ⟨turn, hturn, hrest⟩ := staticServersBody_rest net state hevent
    have hstep : (Reader.servers s state).step net event = readerOf (.servers s)
        (fun parsed => .file (s.withServers parsed.staticServers)) (some turn) := by
      rw [← hturn]
      cases event <;> first | exact absurd rfl hevent | rfl
    exact outcome_run_readerOf net hstep (hrest rest)

/-- Every event is one iteration over zones. -/
lemma rpzZonesBody_rest (state : RpzZonesState) (event : YamlEvent) :
    ∃ turn, rpzZonesBody state event [] = some turn ∧
      ∀ rest, rpzZonesBody state event rest = some (turn.withRest rest) := by
  cases event with
  | failure | sequenceStart | sequenceEnd | streamEnd | other => exact ⟨_, rfl, fun _ => rfl⟩
  | mappingStart =>
    simp only [rpzZonesBody]
    cases state.currentZone <;> exact ⟨_, rfl, fun _ => rfl⟩
  | mappingEnd =>
    simp only [rpzZonesBody]
    cases state.currentZone with
    | none => exact ⟨_, rfl, fun _ => rfl⟩
    | some draft =>
      dsimp only
      cases draft.complete <;> exact ⟨_, rfl, fun _ => rfl⟩
  | scalar value =>
    simp only [rpzZonesBody]
    cases state.currentKey with
    | none => exact ⟨_, rfl, fun _ => rfl⟩
    | some key =>
      cases state.currentZone with
      | none => exact ⟨_, rfl, fun _ => rfl⟩
      | some draft =>
        dsimp only
        cases storeRpzField key value draft <;> exact ⟨_, rfl, fun _ => rfl⟩

/-- The loop over zones. -/
lemma outcome_run_zones (s : FileState) (events : List YamlEvent) (state : RpzZonesState) :
    outcome ((Reader.zones s state).run net events) =
      behind .error
        (fun parsed rest => outcome ((Reader.file (s.withZones parsed.rpzZones)).run net rest))
        (readAll rpzZonesBody events state) := by
  refine eq_behind_readAll consumes_rpzZonesBody
    (fun state events => outcome ((Reader.zones s state).run net events)) (fun _ => rfl) ?_
    events state
  intro state event rest
  obtain ⟨turn, hturn, hrest⟩ := rpzZonesBody_rest state event
  have hstep : (Reader.zones s state).step net event = readerOf (.zones s)
      (fun parsed => .file (s.withZones parsed.rpzZones)) (some turn) := by
    rw [← hturn]
    rfl
  exact outcome_run_readerOf net hstep (hrest rest)

/-- Every event but the start of a sequence is one iteration over a file. -/
lemma fileBody_rest (s : FileState) {event : YamlEvent} (hevent : event ≠ .sequenceStart) :
    ∃ turn, fileBody net s event [] = some turn ∧
      ∀ rest, fileBody net s event rest = some (turn.withRest rest) := by
  cases event with
  | sequenceStart => exact absurd rfl hevent
  | failure | sequenceEnd | mappingEnd | streamEnd | other => exact ⟨_, rfl, fun _ => rfl⟩
  | mappingStart =>
    simp only [fileBody]
    split_ifs <;> exact ⟨_, rfl, fun _ => rfl⟩
  | scalar value =>
    simp only [fileBody]
    cases s.currentKey with
    | none => exact ⟨_, rfl, fun _ => rfl⟩
    | some key =>
      dsimp only
      cases storeOption net key value s <;> exact ⟨_, rfl, fun _ => rfl⟩

/-- The loop over a file. -/
theorem outcome_run_file (events : List YamlEvent) (s : FileState) :
    outcome ((Reader.file s).run net events) =
      behind .error (fun s _ => some (.ok s)) (readAll (fileBody net) events s) := by
  refine eq_behind_readAll (consumes_fileBody net)
    (fun s events => outcome ((Reader.file s).run net events)) (fun _ => rfl) ?_ events s
  intro s event rest
  by_cases hevent : event = .sequenceStart
  · subst hevent
    rw [Reader.run, Reader.step, fileBody]
    rcases Option.eq_none_or_eq_some s.currentKey with hkey | ⟨key, hkey⟩
    · simp only [hkey, reduceCtorEq, if_false]
      rfl
    simp only [hkey, Option.some.injEq]
    by_cases hservers : key = "static_servers"
    · rw [if_pos hservers, readOptionList, if_pos hservers, Turn.behind_afterRead]
      exact outcome_run_servers net s rest _
    by_cases hzones : key = "rpz"
    · rw [if_neg hservers, if_pos hzones, readOptionList, if_neg hservers, if_pos hzones,
        Turn.behind_afterRead]
      exact outcome_run_zones net s rest _
    by_cases hinclude : key = "include"
    · rw [if_neg hservers, if_neg hzones, if_pos hinclude, readOptionList, if_neg hservers,
        if_neg hzones, if_pos hinclude, Turn.behind_afterRead]
      refine outcome_run_scalars net some (.includes s) (fun paths => .file (s.withPaths paths))
        (fun _ => rfl) (fun _ => rfl) (fun _ _ => rfl) (fun _ => rfl) ?_ rest s.includePaths
      intro l event hfailure hscalar hend
      cases event <;> simp_all [Reader.step]
    · rw [if_neg hservers, if_neg hzones, if_neg hinclude, readOptionList, if_neg hservers,
        if_neg hzones, if_neg hinclude]
      rfl
  · obtain ⟨turn, hturn, hrest⟩ := fileBody_rest net s hevent
    have hstep : (Reader.file s).step net event = readerOf .file .done (some turn) := by
      rw [← hturn]
      cases event <;> first | exact absurd rfl hevent | rfl
    rw [outcome_run_readerOf net hstep (hrest rest)]
    simp only [Reader.run_done]
    rfl

end Loops

/-- `parse_single_config_file` returns what the reader comes to. -/
theorem parseSingleConfigFile_eq_run (net : Inet) {files : Files} {path : String}
    {events : List YamlEvent} (hfile : files.events path = some events) (config : RawConfig) :
    (parseSingleConfigFile net files path config).map (Except.map Prod.fst) =
      outcome ((Reader.file ⟨config, [], none, 0⟩).run net events) := by
  rw [outcome_run_file, parseSingleConfigFile, hfile]
  dsimp only
  rcases readAll (fileBody net) events ⟨config, [], none, 0⟩ with _ | error | ⟨s, rest⟩
  · rfl
  · rfl
  · rfl

/-! ## What an event can do -/

/-- What one event can do to the reader, up to the values that are stored into a server or zone. -/
inductive Reader.Move (net : Inet) : Reader → YamlEvent → Reader → Prop
  | enterServers {s} (hkey : s.currentKey = some "static_servers") :
    Move net (.file s) .sequenceStart (.servers s ⟨s.config.staticServers, none, none⟩)
  | enterZones {s} (hkey : s.currentKey = some "rpz") :
    Move net (.file s) .sequenceStart (.zones s ⟨s.config.rpzZones, none, none⟩)
  | enterIncludes {s} (hkey : s.currentKey = some "include") :
    Move net (.file s) .sequenceStart (.includes s s.includePaths)
  | skipSequence {s} (hservers : s.currentKey ≠ some "static_servers")
    (hzones : s.currentKey ≠ some "rpz") : Move net (.file s) .sequenceStart (.file s)
  | fileMapping {s} (hdepth : s.depth = 0) :
    Move net (.file s) .mappingStart (.file { s with depth := 1 })
  | fileKey {s value} (hkey : s.currentKey = none) :
    Move net (.file s) (.scalar value) (.file { s with currentKey := some value })
  | fileOption {s key value stored} (hkey : s.currentKey = some key)
    (hstore : storeOption net key value s = .ok stored) :
    Move net (.file s) (.scalar value) (.file { stored with currentKey := none })
  | fileOther {s event} (hevent : event = .sequenceEnd ∨ event = .mappingEnd ∨ event = .other) :
    Move net (.file s) event (.file s)
  | finish {s} : Move net (.file s) .streamEnd (.done s)
  | enterList {s state draft key} (hserver : state.currentServer = some draft) :
    Move net (.servers s state) .sequenceStart (.serverList s state draft key)
  | leaveServers {s state} :
    Move net (.servers s state) .sequenceEnd (.file (s.withServers state.staticServers))
  | serverStart {s state} (hserver : state.currentServer = none) :
    Move net (.servers s state) .mappingStart
      (.servers s { state with currentServer := some .initial })
  | serverEnd {s state draft} (hserver : state.currentServer = some draft) :
    Move net (.servers s state) .mappingEnd
      (.servers s { state with staticServers := state.staticServers ++ [draft.complete],
                               currentServer := none })
  | serverScalar {s state value server key}
    (hserver : server.isSome = state.currentServer.isSome) :
    Move net (.servers s state) (.scalar value)
      (.servers s { state with currentServer := server, currentKey := key })
  | serversOther {s state event} (hevent : event = .streamEnd ∨ event = .other ∨
      (event = .mappingEnd ∧ state.currentServer = none)) :
    Move net (.servers s state) event (.servers s state)
  | leaveList {s state draft key} :
    Move net (.serverList s state draft key) .sequenceEnd (.servers s (state.stored draft))
  | listOther {s state draft draft' key event} (hevent : event ≠ .sequenceEnd) :
    Move net (.serverList s state draft key) event (.serverList s state draft' key)
  | leaveZones {s state} :
    Move net (.zones s state) .sequenceEnd (.file (s.withZones state.rpzZones))
  | zoneStart {s state draft} (hzone : state.currentZone = none) :
    Move net (.zones s state) .mappingStart (.zones s { state with currentZone := some draft })
  | zoneEnd {s state draft zone} (hzone : state.currentZone = some draft)
    (hcomplete : draft.complete = .ok zone) :
    Move net (.zones s state) .mappingEnd
      (.zones s { state with rpzZones := state.rpzZones ++ [zone], currentZone := none })
  | zoneScalar {s state value zone key} (hzone : zone.isSome = state.currentZone.isSome) :
    Move net (.zones s state) (.scalar value)
      (.zones s { state with currentZone := zone, currentKey := key })
  | zonesOther {s state event} (hevent : event = .sequenceStart ∨ event = .streamEnd ∨
      event = .other ∨ (event = .mappingEnd ∧ state.currentZone = none)) :
    Move net (.zones s state) event (.zones s state)
  | leaveIncludes {s paths} :
    Move net (.includes s paths) .sequenceEnd (.file (s.withPaths paths))
  | includesOther {s paths paths' event} (hevent : event ≠ .sequenceEnd) :
    Move net (.includes s paths) event (.includes s paths')
  | stay {s event} : Move net (.done s) event (.done s)

namespace Reader

variable {net : Inet} {r' : Reader} {event : YamlEvent}

lemma move_file {s : FileState} (h : (Reader.file s).step net event = .ok r') :
    Move net (.file s) event r' := by
  cases event with
  | failure => cases h
  | sequenceStart =>
    rw [step] at h
    split_ifs at h with hservers hzones hinclude
    · exact Except.ok.inj h ▸ .enterServers hservers
    · exact Except.ok.inj h ▸ .enterZones hzones
    · exact Except.ok.inj h ▸ .enterIncludes hinclude
    · exact Except.ok.inj h ▸ .skipSequence hservers hzones
  | mappingStart =>
    simp only [step, fileBody] at h
    split_ifs at h with hdepth
    · cases h
    · have hzero : s.depth = 0 := by omega
      rw [hzero] at h
      exact Except.ok.inj h ▸ .fileMapping hzero
  | scalar value =>
    simp only [step, fileBody] at h
    rcases Option.eq_none_or_eq_some s.currentKey with hkey | ⟨key, hkey⟩
    · rw [hkey] at h
      exact Except.ok.inj h ▸ .fileKey hkey
    · rw [hkey] at h
      dsimp only at h
      cases hstore : storeOption net key value s with
      | error error =>
        rw [hstore] at h
        cases h
      | ok stored =>
        rw [hstore] at h
        exact Except.ok.inj h ▸ .fileOption hkey hstore
  | streamEnd => exact Except.ok.inj h ▸ .finish
  | sequenceEnd | mappingEnd | other => exact Except.ok.inj h ▸ .fileOther (by simp)

lemma move_servers {s : FileState} {state : StaticServersState}
    (h : (Reader.servers s state).step net event = .ok r') :
    Move net (.servers s state) event r' := by
  rcases Option.eq_none_or_eq_some state.currentServer with hserver | ⟨draft, hserver⟩
  · -- between two servers
    cases event with
    | failure => cases h
    | sequenceStart =>
      simp only [step, hserver] at h
      cases h
    | mappingStart =>
      simp only [step, staticServersBody, hserver] at h
      exact Except.ok.inj h ▸ .serverStart hserver
    | mappingEnd =>
      simp only [step, staticServersBody, hserver] at h
      exact Except.ok.inj h ▸ .serversOther (Or.inr (Or.inr ⟨rfl, hserver⟩))
    | scalar value =>
      simp only [step, staticServersBody] at h
      cases hkey : state.currentKey <;> simp only [hkey, hserver] at h <;>
        exact Except.ok.inj h ▸ .serverScalar (by simp [hserver])
    | sequenceEnd => exact Except.ok.inj h ▸ .leaveServers
    | streamEnd | other => exact Except.ok.inj h ▸ .serversOther (by simp)
  · -- inside of a server
    cases event with
    | failure => cases h
    | sequenceStart =>
      simp only [step, hserver] at h
      cases hkey : state.currentKey with
      | none =>
        simp only [hkey] at h
        cases h
      | some key =>
        simp only [hkey] at h
        split_ifs at h
        exact Except.ok.inj h ▸ .enterList hserver
    | mappingStart =>
      simp only [step, staticServersBody, hserver] at h
      cases h
    | mappingEnd =>
      simp only [step, staticServersBody, hserver] at h
      split_ifs at h
      · cases h
      · exact Except.ok.inj h ▸ .serverEnd hserver
    | scalar value =>
      simp only [step, staticServersBody] at h
      cases hkey : state.currentKey with
      | none =>
        simp only [hkey] at h
        exact Except.ok.inj h ▸ .serverScalar (by simp [hserver])
      | some key =>
        simp only [hkey, hserver] at h
        cases hstore : storeServerField net key value draft with
        | error error =>
          rw [hstore] at h
          cases h
        | ok draft' =>
          rw [hstore] at h
          exact Except.ok.inj h ▸ .serverScalar (by simp [hserver])
    | sequenceEnd => exact Except.ok.inj h ▸ .leaveServers
    | streamEnd | other => exact Except.ok.inj h ▸ .serversOther (by simp)

lemma move_serverList {s : FileState} {state : StaticServersState} {draft : ServerDraft}
    {key : String} (h : (Reader.serverList s state draft key).step net event = .ok r') :
    Move net (.serverList s state draft key) event r' := by
  cases event with
  | failure => cases h
  | scalar value =>
    rw [step] at h
    cases hstore : storeServerList net key [value] draft with
    | error error =>
      rw [hstore] at h
      cases h
    | ok draft' =>
      rw [hstore] at h
      exact Except.ok.inj h ▸ .listOther (by simp)
  | sequenceEnd => exact Except.ok.inj h ▸ .leaveList
  | sequenceStart | mappingStart | mappingEnd | streamEnd | other =>
    exact Except.ok.inj h ▸ .listOther (by simp)

lemma move_zones {s : FileState} {state : RpzZonesState}
    (h : (Reader.zones s state).step net event = .ok r') : Move net (.zones s state) event r' := by
  rcases Option.eq_none_or_eq_some state.currentZone with hzone | ⟨draft, hzone⟩
  · -- between two zones
    cases event with
    | failure => cases h
    | mappingStart =>
      simp only [step, rpzZonesBody, hzone] at h
      exact Except.ok.inj h ▸ .zoneStart hzone
    | mappingEnd =>
      simp only [step, rpzZonesBody, hzone] at h
      exact Except.ok.inj h ▸ .zonesOther (Or.inr (Or.inr (Or.inr ⟨rfl, hzone⟩)))
    | scalar value =>
      simp only [step, rpzZonesBody] at h
      cases hkey : state.currentKey <;> simp only [hkey, hzone] at h <;>
        exact Except.ok.inj h ▸ .zoneScalar (by simp [hzone])
    | sequenceEnd => exact Except.ok.inj h ▸ .leaveZones
    | sequenceStart | streamEnd | other => exact Except.ok.inj h ▸ .zonesOther (by simp)
  · -- inside of a zone
    cases event with
    | failure => cases h
    | mappingStart =>
      simp only [step, rpzZonesBody, hzone] at h
      cases h
    | mappingEnd =>
      simp only [step, rpzZonesBody, hzone] at h
      cases hcomplete : draft.complete with
      | error error =>
        rw [hcomplete] at h
        cases h
      | ok zone =>
        rw [hcomplete] at h
        exact Except.ok.inj h ▸ .zoneEnd hzone hcomplete
    | scalar value =>
      simp only [step, rpzZonesBody] at h
      cases hkey : state.currentKey with
      | none =>
        simp only [hkey] at h
        exact Except.ok.inj h ▸ .zoneScalar (by simp [hzone])
      | some key =>
        simp only [hkey, hzone] at h
        cases hstore : storeRpzField key value draft with
        | error error =>
          rw [hstore] at h
          cases h
        | ok draft' =>
          rw [hstore] at h
          exact Except.ok.inj h ▸ .zoneScalar (by simp [hzone])
    | sequenceEnd => exact Except.ok.inj h ▸ .leaveZones
    | sequenceStart | streamEnd | other => exact Except.ok.inj h ▸ .zonesOther (by simp)

/-- Every event that is not an error is one of the moves. -/
theorem move_of_step {r : Reader} (h : r.step net event = .ok r') : Move net r event r' := by
  cases r with
  | file s => exact move_file h
  | servers s state => exact move_servers h
  | serverList s state draft key => exact move_serverList h
  | zones s state => exact move_zones h
  | includes s paths =>
    cases event with
    | failure => cases h
    | sequenceEnd => exact Except.ok.inj h ▸ .leaveIncludes
    | scalar | sequenceStart | mappingStart | mappingEnd | streamEnd | other =>
      exact Except.ok.inj h ▸ .includesOther (by simp)
  | done s => exact Except.ok.inj h ▸ .stay

end Reader

end Dnsconfd.ConfigFile
