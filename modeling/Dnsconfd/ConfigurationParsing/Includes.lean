import Dnsconfd.ConfigurationParsing.Termination
import Dnsconfd.Library.WorkQueue

/-!
# Included files

`parse_config_file` keeps the files that are still to be parsed in a queue.  Each file is parsed into
the one configuration, and the files that it includes are appended to the queue.  The includes may
form a cycle; after `MAX_INCLUDE_FILES` files there is an error.

What a file does to the configuration is the same wherever in the queue it is: it appends its own
servers and zones and sets its own options (`parseSingleConfigFile_from`).  So the files form a tree
that can be described without the configuration, and the loop is a work queue over it
(`parseFiles_eq_workQueue`).
-/

namespace Dnsconfd.ConfigFile

open Library

/-! ## What a file sets -/

namespace Reader

/-- The option that an event sets: in the loop of the file a scalar is the value of the current
key. -/
def setting : Reader → YamlEvent → Option (String × String)
  | .file s, .scalar value => s.currentKey.map fun key => (key, value)
  | _, _ => none

/-- The options that a run sets, with their texts. -/
def settings (net : Inet) : Reader → List YamlEvent → List (String × String)
  | _, [] => []
  | r, event :: events =>
    (r.setting event).toList ++
      match r.step net event with
      | .error _ => []
      | .ok r => settings net r events

/-- The state of the loop of the file, also while another loop is running. -/
def fileState : Reader → FileState
  | .file s => s
  | .servers s _ => s
  | .serverList s _ _ _ => s
  | .zones s _ => s
  | .includes s _ => s
  | .done s => s

end Reader

section OptionsSet

variable {net : Inet}

/-- An event sets what it says. -/
lemma Reader.optionsSet_step {r r' : Reader} {event : YamlEvent} (h : r.step net event = .ok r') :
    OptionsSet net (fun key => lastSet (settingFor key) (r.setting event).toList)
      r.fileState.config r'.fileState.config := by
  have hsame : r.setting event = none → r'.fileState.config.string = r.fileState.config.string →
      r'.fileState.config.boolean = r.fileState.config.boolean →
      r'.fileState.config.logLevel = r.fileState.config.logLevel →
      r'.fileState.config.listenAddress = r.fileState.config.listenAddress →
      OptionsSet net (fun key => lastSet (settingFor key) (r.setting event).toList)
        r.fileState.config r'.fileState.config := fun hsetting =>
    OptionsSet.of_none fun key => by rw [hsetting]; rfl
  cases move_of_step h with
  | fileOption hkey hstore =>
    refine (optionsSet_storeOption hstore).congr fun key => ?_
    rw [setting, hkey]
    rfl
  | fileKey hkey =>
    exact hsame (by rw [setting, hkey]; rfl) rfl rfl rfl rfl
  | fileOther hevent =>
    refine hsame ?_ rfl rfl rfl rfl
    rcases hevent with rfl | rfl | rfl <;> rfl
  | _ => exact hsame rfl rfl rfl rfl rfl

/-- A run sets the options to the last texts that it gives them. -/
theorem Reader.optionsSet_run {r r' : Reader} {events : List YamlEvent}
    (h : r.run net events = .ok r') :
    OptionsSet net (fun key => lastSet (settingFor key) (r.settings net events))
      r.fileState.config r'.fileState.config := by
  induction events generalizing r with
  | nil =>
    rw [run, Except.ok.injEq] at h
    subst h
    exact OptionsSet.of_none (fun _ => rfl) rfl rfl rfl rfl
  | cons event events ih =>
    obtain ⟨r₁, hstep, hrest⟩ := run_cons_eq_ok_iff.mp h
    refine ((optionsSet_step hstep).trans (ih hrest)).congr fun key => ?_
    rw [settings, hstep, lastSet_append]

end OptionsSet

/-! ## A file does the same to every configuration -/

/-- Two results with the same error or with related values. -/
inductive SameOutcome {ε α β : Type} (R : α → β → Prop) : Except ε α → Except ε β → Prop
  | error {e : ε} : SameOutcome R (.error e) (.error e)
  | ok {a : α} {b : β} (h : R a b) : SameOutcome R (.ok a) (.ok b)

lemma SameOutcome.of_ok {ε α β : Type} {R : α → β → Prop} {a : α} {x : Except ε β}
    (h : SameOutcome R (.ok a) x) : ∃ b, x = .ok b ∧ R a b := by
  cases h with
  | ok h => exact ⟨_, rfl, h⟩

lemma SameOutcome.eq_ok {ε α β : Type} {R : α → β → Prop} {b : β} {x : Except ε α}
    (h : SameOutcome R x (.ok b)) : ∃ a, x = .ok a ∧ R a b := by
  cases h with
  | ok h => exact ⟨_, rfl, h⟩

/-- The second state is the first one with the lists of a configuration in front of its own. -/
structure FileState.From (config : RawConfig) (s s' : FileState) : Prop where
  staticServers : s'.config.staticServers = config.staticServers ++ s.config.staticServers
  rpzZones : s'.config.rpzZones = config.rpzZones ++ s.config.rpzZones
  includePaths : s'.includePaths = s.includePaths
  currentKey : s'.currentKey = s.currentKey
  depth : s'.depth = s.depth

/-- The same for readers. -/
inductive Reader.From (config : RawConfig) : Reader → Reader → Prop
  | file {s s'} (h : s.From config s') : From config (.file s) (.file s')
  | servers {s s' state state'} (h : s.From config s')
    (hlist : state'.staticServers = config.staticServers ++ state.staticServers)
    (hserver : state'.currentServer = state.currentServer)
    (hkey : state'.currentKey = state.currentKey) :
    From config (.servers s state) (.servers s' state')
  | serverList {s s' state state' draft key} (h : s.From config s')
    (hlist : state'.staticServers = config.staticServers ++ state.staticServers) :
    From config (.serverList s state draft key) (.serverList s' state' draft key)
  | zones {s s' state state'} (h : s.From config s')
    (hlist : state'.rpzZones = config.rpzZones ++ state.rpzZones)
    (hzone : state'.currentZone = state.currentZone) (hkey : state'.currentKey = state.currentKey) :
    From config (.zones s state) (.zones s' state')
  | includes {s s' paths} (h : s.From config s') :
    From config (.includes s paths) (.includes s' paths)
  | done {s s'} (h : s.From config s') : From config (.done s) (.done s')

section From

variable {net : Inet} {config : RawConfig} {s s' : FileState} {r r' : Reader}

/-- Whether a text is an address does not depend on the port. -/
lemma parseIpStr_eq_none_iff (text : String) (port port' : UInt16) :
    parseIpStr net text port = none ↔ parseIpStr net text port' = none := by
  unfold parseIpStr
  cases net.pton4 text with
  | some a => simp
  | none => cases net.pton6 text <;> simp

lemma FileState.From.storeOption (h : s.From config s') (key value : String) :
    SameOutcome (FileState.From config) (storeOption net key value s)
      (storeOption net key value s') := by
  obtain ⟨hservers, hzones, hpaths, hkey, hdepth⟩ := h
  unfold ConfigFile.storeOption
  split_ifs
  · exact .ok ⟨hservers, hzones, hpaths, hkey, hdepth⟩
  · exact .ok ⟨hservers, hzones, hpaths, hkey, hdepth⟩
  · exact .ok ⟨hservers, hzones, hpaths, hkey, hdepth⟩
  · have hnone := @parseIpStr_eq_none_iff net value s.config.listenAddress.port
      s'.config.listenAddress.port
    cases haddress : parseIpStr net value s.config.listenAddress.port with
    | none =>
      rw [hnone.mp haddress]
      exact .error
    | some address =>
      cases haddress' : parseIpStr net value s'.config.listenAddress.port with
      | none => simp [hnone.mpr haddress'] at haddress
      | some address' => exact .ok ⟨hservers, hzones, hpaths, hkey, hdepth⟩
  · exact .ok ⟨hservers, hzones, hpaths, hkey, hdepth⟩
  · exact .ok ⟨hservers, hzones, hpaths, hkey, hdepth⟩
  · exact .ok ⟨hservers, hzones, congrArg (· ++ [value]) hpaths, hkey, hdepth⟩
  · unfold duplicatingOptions
    cases duplicatingOptionsTable.lookup key with
    | none => exact .error
    | some option => exact .ok ⟨hservers, hzones, hpaths, hkey, hdepth⟩

namespace Reader

lemma From.step_file (h : s.From config s') (event : YamlEvent) :
    SameOutcome (From config) ((Reader.file s).step net event) ((Reader.file s').step net event) := by
  cases event with
  | failure => exact .error
  | sequenceStart =>
    rw [step, step, h.currentKey]
    split_ifs
    · exact .ok (.servers h h.staticServers rfl rfl)
    · exact .ok (.zones h h.rpzZones rfl rfl)
    · rw [h.includePaths]
      exact .ok (.includes h)
    · exact .ok (.file h)
  | mappingStart =>
    simp only [step, fileBody, h.depth]
    split_ifs
    · exact .error
    · exact .ok (.file ⟨h.staticServers, h.rpzZones, h.includePaths, h.currentKey, rfl⟩)
  | scalar value =>
    simp only [step, fileBody, h.currentKey]
    cases s.currentKey with
    | none => exact .ok (.file ⟨h.staticServers, h.rpzZones, h.includePaths, rfl, h.depth⟩)
    | some key =>
      have hstore := @FileState.From.storeOption net config s s' h key value
      dsimp only
      revert hstore
      generalize storeOption net key value s = result
      generalize storeOption net key value s' = result'
      rintro (_ | hstored)
      · exact .error
      · exact .ok (.file ⟨hstored.staticServers, hstored.rpzZones, hstored.includePaths, rfl,
          hstored.depth⟩)
  | streamEnd => exact .ok (.done h)
  | sequenceEnd | mappingEnd | other => exact .ok (.file h)

lemma From.step_servers {state state' : StaticServersState} (h : s.From config s')
    (hlist : state'.staticServers = config.staticServers ++ state.staticServers)
    (hserver : state'.currentServer = state.currentServer)
    (hkey : state'.currentKey = state.currentKey) (event : YamlEvent) :
    SameOutcome (From config) ((Reader.servers s state).step net event)
      ((Reader.servers s' state').step net event) := by
  cases event with
  | failure => exact .error
  | sequenceStart =>
    rw [step, step, hserver, hkey]
    cases state.currentServer with
    | none => exact .error
    | some draft =>
      cases state.currentKey with
      | none => exact .error
      | some key =>
        dsimp only
        split_ifs
        · exact .ok (.serverList h hlist)
        · exact .error
  | mappingStart =>
    simp only [step, staticServersBody, hserver]
    cases state.currentServer with
    | none => exact .ok (.servers h hlist rfl hkey)
    | some draft => exact .error
  | mappingEnd =>
    simp only [step, staticServersBody, hserver]
    cases hcurrent : state.currentServer with
    | none => exact .ok (.servers h hlist hserver hkey)
    | some draft =>
      dsimp only
      split_ifs
      · exact .error
      · refine .ok (.servers h ?_ rfl hkey)
        rw [hlist, List.append_assoc]
  | scalar value =>
    simp only [step, staticServersBody, hserver, hkey]
    cases state.currentKey with
    | none => exact .ok (.servers h hlist rfl rfl)
    | some key =>
      dsimp only
      cases state.currentServer with
      | none => exact .ok (.servers h hlist rfl rfl)
      | some draft =>
        dsimp only
        cases storeServerField net key value draft with
        | error error => exact .error
        | ok draft => exact .ok (.servers h hlist rfl rfl)
  | sequenceEnd => exact .ok (.file ⟨hlist, h.rpzZones, h.includePaths, rfl, h.depth⟩)
  | streamEnd | other => exact .ok (.servers h hlist hserver hkey)

lemma From.step_serverList {state state' : StaticServersState} {draft : ServerDraft} {key : String}
    (h : s.From config s')
    (hlist : state'.staticServers = config.staticServers ++ state.staticServers) (event : YamlEvent) :
    SameOutcome (From config) ((Reader.serverList s state draft key).step net event)
      ((Reader.serverList s' state' draft key).step net event) := by
  cases event with
  | failure => exact .error
  | scalar value =>
    rw [step, step]
    cases storeServerList net key [value] draft with
    | error error => exact .error
    | ok draft => exact .ok (.serverList h hlist)
  | sequenceEnd => exact .ok (.servers h hlist rfl rfl)
  | sequenceStart | mappingStart | mappingEnd | streamEnd | other => exact .ok (.serverList h hlist)

lemma From.step_zones {state state' : RpzZonesState} (h : s.From config s')
    (hlist : state'.rpzZones = config.rpzZones ++ state.rpzZones)
    (hzone : state'.currentZone = state.currentZone) (hkey : state'.currentKey = state.currentKey)
    (event : YamlEvent) :
    SameOutcome (From config) ((Reader.zones s state).step net event)
      ((Reader.zones s' state').step net event) := by
  cases event with
  | failure => exact .error
  | mappingStart =>
    simp only [step, rpzZonesBody, hzone]
    cases state.currentZone with
    | none => exact .ok (.zones h hlist rfl hkey)
    | some draft => exact .error
  | mappingEnd =>
    simp only [step, rpzZonesBody, hzone]
    cases hcurrent : state.currentZone with
    | none => exact .ok (.zones h hlist hzone hkey)
    | some draft =>
      dsimp only
      cases draft.complete with
      | error error => exact .error
      | ok zone =>
        refine .ok (.zones h ?_ rfl hkey)
        rw [hlist, List.append_assoc]
  | scalar value =>
    simp only [step, rpzZonesBody, hzone, hkey]
    cases state.currentKey with
    | none => exact .ok (.zones h hlist rfl rfl)
    | some key =>
      dsimp only
      cases state.currentZone with
      | none => exact .ok (.zones h hlist rfl rfl)
      | some draft =>
        dsimp only
        cases storeRpzField key value draft with
        | error error => exact .error
        | ok draft => exact .ok (.zones h hlist rfl rfl)
  | sequenceEnd => exact .ok (.file ⟨h.staticServers, hlist, h.includePaths, rfl, h.depth⟩)
  | sequenceStart | streamEnd | other => exact .ok (.zones h hlist hzone hkey)

lemma From.step_includes {paths : List String} (h : s.From config s') (event : YamlEvent) :
    SameOutcome (From config) ((Reader.includes s paths).step net event)
      ((Reader.includes s' paths).step net event) := by
  cases event with
  | failure => exact .error
  | scalar value => exact .ok (.includes h)
  | sequenceEnd => exact .ok (.file ⟨h.staticServers, h.rpzZones, rfl, rfl, h.depth⟩)
  | sequenceStart | mappingStart | mappingEnd | streamEnd | other => exact .ok (.includes h)

/-- An event does the same in both readers. -/
lemma From.step (h : From config r r') (event : YamlEvent) :
    SameOutcome (From config) (r.step net event) (r'.step net event) := by
  cases h with
  | file h => exact step_file h event
  | servers h hlist hserver hkey => exact step_servers h hlist hserver hkey event
  | serverList h hlist => exact step_serverList h hlist event
  | zones h hlist hzone hkey => exact step_zones h hlist hzone hkey event
  | includes h => exact step_includes h event
  | done h => exact .ok (.done h)

lemma From.setting (h : From config r r') (event : YamlEvent) : r'.setting event = r.setting event := by
  cases h with
  | file h => cases event <;> simp [Reader.setting, h.currentKey]
  | servers | serverList | zones | includes | done => rfl

/-- A run does the same from both readers, and it sets the same options. -/
lemma From.run (h : From config r r') (events : List YamlEvent) :
    SameOutcome (From config) (r.run net events) (r'.run net events) ∧
      r'.settings net events = r.settings net events := by
  induction events generalizing r r' with
  | nil => exact ⟨.ok h, rfl⟩
  | cons event events ih =>
    have hstep := @From.step net config r r' h event
    rw [Reader.run, Reader.run, settings, settings, h.setting event]
    revert hstep
    generalize r.step net event = result
    generalize r'.step net event = result'
    rintro (_ | hnext)
    · exact ⟨.error, rfl⟩
    · obtain ⟨hrun, hsettings⟩ := ih hnext
      exact ⟨hrun, congrArg (_ ++ ·) hsettings⟩

end Reader

end From

/-! ## The tree of files -/

/-- The paths that a pattern stands for, unless `glob` fails. -/
def GlobResult.found : GlobResult → Option (List String)
  | .noMatch => some []
  | .failed => none
  | .paths pathv => some pathv

/-- The files that an entry of an include list stands for: those with the suffix `.conf` of a
directory, those that match a pattern, or the file itself.  A file that does not exist stands for
nothing. -/
def Files.expand (files : Files) (entry : String) : Option (List String) :=
  if files.stat entry = some true then (files.glob (makeDirGlobPattern entry)).found
  else if entry.toList.any fun c => c = '*' || c = '?' || c = '[' then (files.glob entry).found
  else if files.stat entry = none then some []
  else some [entry]

/-- What a file is parsed to by itself. -/
def ownState (net : Inet) (files : Files) (path : String) : Option FileState :=
  match parseSingleConfigFile net files path .empty with
  | some (.ok (s, _)) => some s
  | _ => none

/-- The static servers of a file. -/
def ownServers (net : Inet) (files : Files) (path : String) : List ServerUri :=
  ((ownState net files path).map fun s => s.config.staticServers).getD []

/-- The response policy zones of a file. -/
def ownZones (net : Inet) (files : Files) (path : String) : List RpzZone :=
  ((ownState net files path).map fun s => s.config.rpzZones).getD []

/-- The text that a file gives to a key, the last one if there are several. -/
def ownText (net : Inet) (files : Files) (path key : String) : Option String :=
  (files.events path).bind fun events =>
    lastSet (settingFor key) ((Reader.file ⟨.empty, [], none, 0⟩).settings net events)

/-- The files that a file includes, in the order of its entries; none if the file is not accepted or
one of its entries cannot be expanded. -/
def includedFiles (net : Inet) (files : Files) (path : String) : Option (List String) :=
  (ownState net files path).bind fun s => (s.includePaths.mapM files.expand).map List.flatten

/-- The files in the first `d` levels of the tree of includes below the given one. -/
def includeTree (net : Inet) (files : Files) (d : ℕ) (root : String) : List String :=
  levels (fun path => (includedFiles net files path).getD []) d [root]

/-- The files for which `parse_single_config_file` is called, in this order, by the loop of
`parse_config_file`. -/
def parsedFiles (net : Inet) (files : Files) : ℕ → List String → RawConfig → List String
  | _, [], _ => []
  | 0, _ :: _, _ => []
  | remaining + 1, currentFile :: filesToParse, config =>
    currentFile ::
      match parseSingleConfigFile net files currentFile config with
      | some (.ok (parsed, _)) =>
        match parsed.includePaths.foldlM (fun acc path => resolveIncludePath files path acc)
            filesToParse with
        | .error _ => []
        | .ok filesToParse => parsedFiles net files remaining filesToParse parsed.config
      | _ => []

section Tree

variable {net : Inet} {files : Files} {path : String} {config result : RawConfig}

lemma resolveIncludePath_eq (files : Files) (entry : String) (filesToParse : List String) :
    resolveIncludePath files entry filesToParse =
      match files.expand entry with
      | none => .error "Failed to expand include path"
      | some paths => .ok (filesToParse ++ paths) := by
  have hglob : ∀ found : GlobResult, expandGlob found filesToParse =
      match found.found with
      | none => .error "Failed to expand include path"
      | some paths => .ok (filesToParse ++ paths) := by
    intro found
    cases found with
    | noMatch => exact congrArg Except.ok (List.append_nil _).symm
    | failed | paths => rfl
  unfold resolveIncludePath Files.expand
  split_ifs
  · exact hglob _
  · exact hglob _
  · exact congrArg Except.ok (List.append_nil _).symm
  · rfl

/-- The entries of a file are expanded one after the other behind the files that are waiting. -/
lemma foldlM_resolveIncludePath (files : Files) (entries filesToParse : List String) :
    entries.foldlM (fun acc entry => resolveIncludePath files entry acc) filesToParse =
      match entries.mapM files.expand with
      | none => .error "Failed to expand include path"
      | some paths => .ok (filesToParse ++ paths.flatten) := by
  induction entries generalizing filesToParse with
  | nil => exact congrArg Except.ok (List.append_nil _).symm
  | cons entry entries ih =>
    rw [List.foldlM_cons, resolveIncludePath_eq, List.mapM_cons]
    cases files.expand entry with
    | none => rfl
    | some paths =>
      refine (ih (filesToParse ++ paths)).trans ?_
      cases entries.mapM files.expand with
      | none => rfl
      | some rest => exact congrArg Except.ok (List.append_assoc _ _ _)

/-- A file is accepted with the state in which the reader is done. -/
lemma accepted_iff_run {s : FileState} :
    (∃ rest, parseSingleConfigFile net files path config = some (.ok (s, rest))) ↔
      ∃ events, files.events path = some events ∧
        (Reader.file ⟨config, [], none, 0⟩).run net events = .ok (.done s) := by
  constructor
  · rintro ⟨rest, h⟩
    cases hevents : files.events path with
    | none => simp [parseSingleConfigFile, hevents] at h
    | some events => exact ⟨events, rfl, run_of_parseSingleConfigFile hevents h⟩
  · rintro ⟨events, hevents, hrun⟩
    have hparsed := parseSingleConfigFile_eq_run net hevents config
    rw [hrun, outcome, Option.map_eq_some_iff] at hparsed
    obtain ⟨_ | ⟨s', rest⟩, hparsed, hstate⟩ := hparsed
    · cases hstate
    · obtain rfl : s' = s := Except.ok.inj hstate
      exact ⟨rest, hparsed⟩

lemma ownState_eq_some_iff {s : FileState} :
    ownState net files path = some s ↔
      ∃ rest, parseSingleConfigFile net files path .empty = some (.ok (s, rest)) := by
  unfold ownState
  rcases parseSingleConfigFile net files path .empty with _ | error | ⟨s', rest⟩
  · simp
  · simp
  · simp

/-- The reader of a file that is started with a configuration instead of an empty one. -/
lemma from_run_file (net : Inet) (config : RawConfig) (events : List YamlEvent) :
    SameOutcome (Reader.From config) ((Reader.file ⟨.empty, [], none, 0⟩).run net events)
        ((Reader.file ⟨config, [], none, 0⟩).run net events) ∧
      (Reader.file ⟨config, [], none, 0⟩).settings net events =
        (Reader.file ⟨.empty, [], none, 0⟩).settings net events := by
  have hstart : (⟨.empty, [], none, 0⟩ : FileState).From config ⟨config, [], none, 0⟩ :=
    ⟨(List.append_nil _).symm, (List.append_nil _).symm, rfl, rfl, rfl⟩
  exact (Reader.From.file hstart).run events

/-- What a file does to a configuration is to append its own servers and zones and to set its own
options. -/
theorem parseSingleConfigFile_from {s' : FileState} {rest : List YamlEvent}
    (h : parseSingleConfigFile net files path config = some (.ok (s', rest))) :
    ∃ s, ownState net files path = some s ∧ s.From config s' ∧
      OptionsSet net (ownText net files path) config s'.config := by
  obtain ⟨events, hevents, hrun'⟩ := accepted_iff_run.mp ⟨rest, h⟩
  obtain ⟨hsame, hsettings⟩ := from_run_file net config events
  have hoptions := Reader.optionsSet_run hrun'
  rw [hsettings] at hoptions
  rw [hrun'] at hsame
  obtain ⟨r, hrun, hfrom⟩ := hsame.eq_ok
  cases hfrom with
  | done hfrom =>
    have haccepted := accepted_iff_run.mpr ⟨events, hevents, hrun⟩
    refine ⟨_, ownState_eq_some_iff.mpr haccepted, hfrom, hoptions.congr fun key => ?_⟩
    rw [ownText, hevents, Option.bind_some]

/-- Whether a file is accepted does not depend on the configuration. -/
lemma accepted_of_ownState {s : FileState} (h : ownState net files path = some s)
    (config : RawConfig) :
    ∃ s' rest, parseSingleConfigFile net files path config = some (.ok (s', rest)) := by
  obtain ⟨events, hevents, hrun⟩ := accepted_iff_run.mp (ownState_eq_some_iff.mp h)
  obtain ⟨hsame, -⟩ := from_run_file net config events
  rw [hrun] at hsame
  obtain ⟨r', hrun', hfrom⟩ := hsame.of_ok
  cases hfrom with
  | @done _ s' _ => exact ⟨s', accepted_iff_run.mpr ⟨events, hevents, hrun'⟩⟩

end Tree

/-! ## The queue of files -/

/-- Why the loop over the files stops before its queue is empty. -/
inductive FileFailure where
  | waits
  | parsing (error : Option String)
  | expanding

/-- The work on one file: it is parsed into the configuration, and its entries are expanded. -/
def visitFile (net : Inet) (files : Files) (config : RawConfig) (path : String) :
    Except FileFailure (RawConfig × List String) :=
  match parseSingleConfigFile net files path config with
  | none => .error .waits
  | some (.error error) => .error (.parsing error)
  | some (.ok (s, _)) =>
    match s.includePaths.mapM files.expand with
    | none => .error .expanding
    | some paths => .ok (s.config, paths.flatten)

/-- What the loop over the files returns; the error of a file is reported as it is if the file is the
first one. -/
def filesOutcome (remaining : ℕ) :
    List String × QueueEnd RawConfig FileFailure → Option (Except (Option String) RawConfig)
  | (_, .emptied config) => some (.ok config)
  | (_, .exceeded) => some (.error (some "Too many configuration files included, possible cycle"))
  | (_, .failed .waits) => none
  | (parsed, .failed (.parsing error)) =>
    some (.error (if remaining + 1 = maxIncludeFiles + parsed.length then error
      else some "Error while processing included configuration file"))
  | (_, .failed .expanding) => some (.error (some "Failed to expand include path"))

lemma filesOutcome_cons (remaining : ℕ) (path : String)
    (visited : List String × QueueEnd RawConfig FileFailure) :
    filesOutcome (remaining + 1) (path :: visited.1, visited.2) = filesOutcome remaining visited := by
  obtain ⟨parsed, _ | _ | _ | error | _⟩ := visited
  · rfl
  · rfl
  · rfl
  · simp only [filesOutcome, List.length_cons, ← Nat.add_assoc, Nat.add_right_cancel_iff]
  · rfl

/-- The loop of `parse_config_file` is a work queue. -/
theorem parseFiles_eq_workQueue (net : Inet) (files : Files) (remaining : ℕ)
    (filesToParse : List String) (config : RawConfig) :
    parseFiles net files remaining filesToParse config =
        filesOutcome remaining (workQueue (visitFile net files) remaining filesToParse config) ∧
      parsedFiles net files remaining filesToParse config =
        (workQueue (visitFile net files) remaining filesToParse config).1 := by
  induction remaining generalizing filesToParse config with
  | zero => cases filesToParse <;> exact ⟨rfl, rfl⟩
  | succ remaining ih =>
    cases filesToParse with
    | nil => exact ⟨rfl, rfl⟩
    | cons currentFile filesToParse =>
      rw [parseFiles, parsedFiles, workQueue, visitFile]
      rcases parseSingleConfigFile net files currentFile config with _ | error | ⟨s, rest⟩
      · exact ⟨rfl, rfl⟩
      · refine ⟨?_, rfl⟩
        simp only [filesOutcome, List.length_singleton, Nat.add_right_cancel_iff]
      · simp only [foldlM_resolveIncludePath]
        cases s.includePaths.mapM files.expand with
        | none => exact ⟨rfl, rfl⟩
        | some paths =>
          obtain ⟨hresult, hparsed⟩ := ih (filesToParse ++ paths.flatten) s.config
          dsimp only
          rw [filesOutcome_cons, hparsed]
          exact ⟨hresult, rfl⟩

/-- The configuration behind some files: each option has the value from the last file that sets it,
and the servers and zones of the files are appended one file after the other. -/
structure Merged (net : Inet) (files : Files) (paths : List String) (config result : RawConfig) :
    Prop where
  options : OptionsSet net (fun key => lastSet (fun path => ownText net files path key) paths) config
    result
  staticServers : result.staticServers =
    config.staticServers ++ paths.flatMap (ownServers net files)
  rpzZones : result.rpzZones = config.rpzZones ++ paths.flatMap (ownZones net files)

section Queue

variable {net : Inet} {files : Files} {path : String} {paths : List String}
  {config config₁ result : RawConfig}

/-- What a file includes does not depend on the configuration that it is parsed into. -/
lemma visitFile_includes (config : RawConfig) (path : String) :
    (visitFile net files config path).toOption.map Prod.snd = includedFiles net files path := by
  rw [visitFile, includedFiles]
  cases hown : ownState net files path with
  | none =>
    rcases hparsed : parseSingleConfigFile net files path config with _ | error | ⟨s', rest⟩
    · rfl
    · rfl
    · obtain ⟨s, hown', -⟩ := parseSingleConfigFile_from hparsed
      simp [hown] at hown'
  | some s =>
    obtain ⟨s', rest, hparsed⟩ := accepted_of_ownState hown config
    obtain ⟨s₁, hown', hfrom, -⟩ := parseSingleConfigFile_from hparsed
    obtain rfl := Option.some.inj (hown.symm.trans hown')
    rw [hparsed, Option.bind_some, ← hfrom.includePaths]
    dsimp only
    cases s'.includePaths.mapM files.expand <;> rfl

lemma merged_nil (net : Inet) (files : Files) (config : RawConfig) :
    Merged net files [] config config where
  options := .of_none (fun _ => rfl) rfl rfl rfl rfl
  staticServers := (List.append_nil _).symm
  rpzZones := (List.append_nil _).symm

/-- One file in front of others. -/
lemma Merged.cons {next : List String} (hvisit : visitFile net files config path = .ok (config₁, next))
    (h : Merged net files paths config₁ result) : Merged net files (path :: paths) config result := by
  rw [visitFile] at hvisit
  rcases hparsed : parseSingleConfigFile net files path config with _ | error | ⟨s', rest⟩
  · rw [hparsed] at hvisit
    cases hvisit
  · rw [hparsed] at hvisit
    cases hvisit
  · obtain ⟨s, hown, hfrom, hoptions⟩ := parseSingleConfigFile_from hparsed
    obtain rfl : s'.config = config₁ := by
      rw [hparsed] at hvisit
      dsimp only at hvisit
      split at hvisit
      · cases hvisit
      · exact (Prod.mk.inj (Except.ok.inj hvisit)).1
    refine ⟨hoptions.trans h.options, ?_, ?_⟩
    · rw [h.staticServers, hfrom.staticServers, List.flatMap_cons, ownServers, hown,
        List.append_assoc]
      rfl
    · rw [h.rpzZones, hfrom.rpzZones, List.flatMap_cons, ownZones, hown, List.append_assoc]
      rfl

/-- Files that are parsed one after the other are merged. -/
theorem merged_of_foldlM
    (h : paths.foldlM (fun c path => (visitFile net files c path).map Prod.fst) config =
      .ok result) : Merged net files paths config result := by
  induction paths generalizing config with
  | nil =>
    obtain rfl : config = result := Except.ok.inj h
    exact merged_nil net files config
  | cons path paths ih =>
    rw [List.foldlM_cons] at h
    cases hvisit : visitFile net files config path with
    | error error =>
      rw [hvisit] at h
      cases h
    | ok visited =>
      rw [hvisit] at h
      exact Merged.cons hvisit (ih h)

/-- The loop ends with success exactly if the queue runs empty. -/
lemma filesOutcome_eq_ok_iff {remaining : ℕ}
    {visited : List String × QueueEnd RawConfig FileFailure} :
    filesOutcome remaining visited = some (.ok result) ↔ visited.2 = .emptied result := by
  obtain ⟨parsed, _ | _ | _ | error | _⟩ := visited <;> simp [filesOutcome]

/-- Parsing what libyaml delivers comes to an end. -/
lemma parseSingleConfigFile_ne_none
    (hfiles : ∀ path events, files.events path = some events → Delivered events)
    (path : String) (config : RawConfig) : parseSingleConfigFile net files path config ≠ none := by
  intro hnone
  cases hevents : files.events path with
  | none => simp [parseSingleConfigFile, hevents] at hnone
  | some events =>
    have houtcome := parseSingleConfigFile_eq_run net hevents config
    rw [hnone] at houtcome
    exact Reader.outcome_ne_none (hfiles path events hevents) _ houtcome.symm

/-- So does the loop over the files. -/
lemma filesOutcome_ne_none
    (hfiles : ∀ path events, files.events path = some events → Delivered events) (remaining : ℕ)
    (filesToParse : List String) (config : RawConfig) :
    filesOutcome remaining (workQueue (visitFile net files) remaining filesToParse config) ≠ none := by
  intro hnone
  have hwaits : (workQueue (visitFile net files) remaining filesToParse config).2 =
      .failed .waits := by
    revert hnone
    generalize workQueue (visitFile net files) remaining filesToParse config = visited
    obtain ⟨parsed, _ | _ | _ | error | _⟩ := visited <;> simp [filesOutcome]
  obtain ⟨config', path, hvisit⟩ := visit_of_failed hwaits
  rw [visitFile] at hvisit
  rcases hparsed : parseSingleConfigFile net files path config' with _ | error | ⟨s, rest⟩
  · exact parseSingleConfigFile_ne_none hfiles path config' hparsed
  · rw [hparsed] at hvisit
    cases hvisit
  · rw [hparsed] at hvisit
    dsimp only at hvisit
    split at hvisit <;> cases hvisit

end Queue

/-- `parse_config_file` returns, after at most `MAX_INCLUDE_FILES` files, which it has parsed in the
order of the levels of the tree of includes.  It succeeds exactly if the tree has no more files than
that, and each of them is accepted and has entries that can be expanded.  Then all files of the tree
have been parsed and merged in this order. -/
theorem includes_breadth_first {net : Inet} {files : Files}
    (hfiles : ∀ path events, files.events path = some events → Delivered events)
    (root : String) (config : RawConfig) :
    (∃ result, parseConfigFile net files root config = some result) ∧
      (parsedFiles net files maxIncludeFiles [root] config).length ≤ maxIncludeFiles ∧
      (∃ d, parsedFiles net files maxIncludeFiles [root] config <+: includeTree net files d root) ∧
      ((∃ result, parseConfigFile net files root config = some (.ok result)) ↔
        (∀ d, (includeTree net files d root).length ≤ maxIncludeFiles) ∧
          ∀ d, ∀ path ∈ includeTree net files d root, includedFiles net files path ≠ none) ∧
      ∀ result, parseConfigFile net files root config = some (.ok result) →
        ∃ d₀, (∀ d ≥ d₀, includeTree net files d root =
            parsedFiles net files maxIncludeFiles [root] config) ∧
          Merged net files (includeTree net files d₀ root) config result := by
  obtain ⟨hresult, hparsed⟩ := parseFiles_eq_workQueue net files maxIncludeFiles [root] config
  have hincludes := @visitFile_includes net files
  rw [parseConfigFile, hresult, hparsed]
  refine ⟨?_, length_visited_le hincludes _ _ _, ⟨maxIncludeFiles, ?_⟩, ?_, fun result hok => ?_⟩
  · exact Option.ne_none_iff_exists'.mp (filesOutcome_ne_none hfiles maxIncludeFiles [root] config)
  · exact visited_prefix_levels hincludes (le_refl _) [root] config
  · simp only [filesOutcome_eq_ok_iff]
    exact workQueue_emptied_iff hincludes maxIncludeFiles [root] config
  · have hemptied := filesOutcome_eq_ok_iff.mp hok
    have hlevels : ∀ d ≥ maxIncludeFiles, includeTree net files d root =
        (workQueue (visitFile net files) maxIncludeFiles [root] config).1 := fun d hd =>
      (visited_eq_levels hincludes hd hemptied).symm
    refine ⟨maxIncludeFiles, hlevels, merged_of_foldlM ?_⟩
    rw [hlevels maxIncludeFiles (le_refl _)]
    exact foldlM_of_emptied hemptied

/-- A file that includes a directory with two files and a file that does not exist; the first file
of the directory includes another one. -/
def nestedFiles : Files where
  events path :=
    if path = "dnsconfd.conf" then
      some (streamEvents [.mapping [(.scalar "include",
        .sequence [.scalar "conf.d", .scalar "missing.conf"]), (.scalar "log_level", .scalar "info")]])
    else if path = "conf.d/a.conf" then
      some (streamEvents [.mapping [(.scalar "include", .scalar "last.conf")]])
    else if path = "conf.d/b.conf" then
      some (streamEvents [.mapping [(.scalar "log_level", .scalar "err")]])
    else if path = "last.conf" then
      some (streamEvents [.mapping [(.scalar "log_level", .scalar "debug")]])
    else none
  stat path :=
    if path = "conf.d" then some true else if path = "last.conf" then some false else none
  glob pattern :=
    if pattern = "conf.d/*.conf" then .paths ["conf.d/a.conf", "conf.d/b.conf"] else .noMatch

/-- The file that is included by an included file is parsed last, and its level counts. -/
theorem includes_breadth_first_nested :
    ∃ result, parseConfigFile .documentation nestedFiles "dnsconfd.conf" .empty =
        some (.ok result) ∧ result.logLevel = 7 ∧
      ∃ d, Merged .documentation nestedFiles (includeTree .documentation nestedFiles d "dnsconfd.conf")
          .empty result ∧
        includeTree .documentation nestedFiles d "dnsconfd.conf" =
          ["dnsconfd.conf", "conf.d/a.conf", "conf.d/b.conf", "last.conf"] := by
  have hfiles : ∀ path events, nestedFiles.events path = some events → Delivered events := by
    intro path events hevents
    simp only [nestedFiles] at hevents
    split_ifs at hevents <;> exact Option.some.inj hevents ▸ delivered_streamEvents _
  obtain ⟨result, hok, hlevel⟩ : ∃ result, parseConfigFile .documentation nestedFiles "dnsconfd.conf"
      .empty = some (.ok result) ∧ result.logLevel = 7 := ⟨_, rfl, rfl⟩
  obtain ⟨d, htree, hmerged⟩ :=
    (includes_breadth_first hfiles "dnsconfd.conf" .empty).2.2.2.2 result hok
  exact ⟨result, hok, hlevel, d, hmerged, (htree d (le_refl d)).trans rfl⟩

end Dnsconfd.ConfigFile
