import Dnsconfd.ConfigurationParsing.GlobalOptions

/-!
# The same value from every source

The log level and the address to listen on can be given on the command line, in the environment and
in the configuration file, and each of the three parsers checks the value itself.  This file compares
them: the option is given as one text in one source, everything else that the three sources say stays
the same, and what matters is the configuration that comes out of `parse_configuration`.

The parser of the file compares the log level as an unsigned number, so that a level that is not
known is no error there; it is stored as -1 and later taken for an option that is not set.  The
sources agree about exactly the levels that are known, and about all addresses
(`option_values_agree_iff`).
-/

namespace Dnsconfd

open Library ConfigFile

/-! ## An option in one of the sources -/

/-- The sources of the configuration. -/
inductive Source where
  | commandLine
  | environment
  | configFile

/-- The options whose values all sources check. -/
inductive CheckedOption where
  | logLevel
  | listenAddress

namespace CheckedOption

/-- The option on the command line. -/
def commandLineOption : CheckedOption → String → CommandLineOption
  | logLevel, value => .logLevel value
  | listenAddress, value => .listenAddress value

/-- The variable of the option. -/
def variableName : CheckedOption → String
  | logLevel => "LOG_LEVEL"
  | listenAddress => "LISTEN_ADDRESS"

/-- The key of the option in the file. -/
def fileKey : CheckedOption → String
  | logLevel => "log_level"
  | listenAddress => "listen_address"

end CheckedOption

/-- What the three sources say; the file has a document of the given options. -/
structure SourceTexts where
  options : List CommandLineOption
  getenv : String → Option String
  entries : List ConfigEntry

namespace SourceTexts

/-- The files of a system on which every path leads to the file. -/
def files (texts : SourceTexts) : Files where
  events _ := some (documentEvents texts.entries)
  stat _ := none
  glob _ := .noMatch

/-- The configuration that comes out. -/
def parse (net : Inet) (texts : SourceTexts) : Option (Except (Option String) RawConfig) :=
  parseConfiguration net texts.files texts.getenv texts.options

/-- An option given in addition in one of the sources. -/
def giving (texts : SourceTexts) (option : CheckedOption) (value : String) : Source → SourceTexts
  | .commandLine =>
    { texts with options := texts.options ++ [option.commandLineOption value] }
  | .environment =>
    { texts with
      getenv := fun name => if name = option.variableName then some value else texts.getenv name }
  | .configFile => { texts with entries := texts.entries ++ [.option option.fileKey value] }

/-- The sources say nothing about the options that are compared. -/
structure Silent (texts : SourceTexts) : Prop where
  options : ∀ option value, CheckedOption.commandLineOption option value ∉ texts.options
  getenv : ∀ option, texts.getenv (CheckedOption.variableName option) = none
  entries : ∀ option value, .option (CheckedOption.fileKey option) value ∉ texts.entries
  noInclude : ∀ value, .option "include" value ∉ texts.entries

end SourceTexts

/-- The program ends with an error. -/
def IsRejected (result : Option (Except (Option String) RawConfig)) : Prop :=
  ∃ error, result = some (.error error)

/-- The sources agree: all of them reject the value, or all of them lead to one configuration. -/
def Agree (results : Source → Option (Except (Option String) RawConfig)) : Prop :=
  (∀ source, IsRejected (results source)) ∨ ∃ config, ∀ source, results source = some (.ok config)

/-- The values of both options are treated alike by all sources, and a value that the function for
it does not know is rejected by all of them. -/
structure ValuesAgree (net : Inet) (texts : SourceTexts) (value : String) : Prop where
  logLevel : Agree fun source => (texts.giving .logLevel value source).parse net
  unknownLevel : parseLogLevel value < 0 →
    ∀ source, IsRejected ((texts.giving .logLevel value source).parse net)
  listenAddress : Agree fun source => (texts.giving .listenAddress value source).parse net
  unknownAddress : parseIpStr net value 0 = none →
    ∀ source, IsRejected ((texts.giving .listenAddress value source).parse net)

/-! ## From the sources to the configuration -/

/-- The configuration made of what the sources have been parsed into. -/
def combine (net : Inet) (commandLine environment file : RawConfig) : RawConfig :=
  (mergeConfigs ((mergeConfigs commandLine environment).defaultString .configFile
    "/etc/dnsconfd/dnsconfd.conf") file).withDefaults net

section Level

variable {net : Inet} {level : Int8}

lemma defaultString_level (config : RawConfig) (option : StringOption) (value : String) :
    ({ config with logLevel := level }).defaultString option value =
      { config.defaultString option value with logLevel := level } := rfl

lemma defaultBoolean_level (config : RawConfig) (option : BooleanOption) (value : ConfigBoolean) :
    ({ config with logLevel := level }).defaultBoolean option value =
      { config.defaultBoolean option value with logLevel := level } := rfl

lemma defaultListenAddress_level (config : RawConfig) :
    ({ config with logLevel := level }).defaultListenAddress net =
      { config.defaultListenAddress net with logLevel := level } := rfl

/-- The log level goes through the defaults alone. -/
lemma withDefaults_level (config : RawConfig) :
    ({ config with logLevel := level }).withDefaults net =
      { config.withDefaults net with logLevel := if level < 0 then 6 else level } := by
  have hlevel : ∀ c : RawConfig, c.defaultLogLevel =
      { c with logLevel := if c.logLevel < 0 then 6 else c.logLevel } := fun _ => rfl
  simp only [RawConfig.withDefaults, hlevel, defaultString_level, defaultBoolean_level,
    defaultListenAddress_level]

/-- A level that is set wins over the one of the other configuration. -/
lemma mergeConfigs_level_left (a b : RawConfig) (h : ¬ level < 0) :
    mergeConfigs { a with logLevel := level } b =
      { mergeConfigs a b with logLevel := level } := by
  simp only [mergeConfigs, if_neg h]

/-- A configuration without a level takes the one of the other. -/
lemma mergeConfigs_level_right {a : RawConfig} (b : RawConfig) (h : a.logLevel < 0) :
    mergeConfigs a { b with logLevel := level } =
      { mergeConfigs a b with logLevel := level } := by
  simp only [mergeConfigs, if_pos h]

end Level

section Address

variable {net : Inet} {address : SockAddr}

lemma defaultString_address (config : RawConfig) (option : StringOption) (value : String) :
    ({ config with listenAddress := address }).defaultString option value =
      { config.defaultString option value with listenAddress := address } := rfl

lemma defaultBoolean_address (config : RawConfig) (option : BooleanOption)
    (value : ConfigBoolean) :
    ({ config with listenAddress := address }).defaultBoolean option value =
      { config.defaultBoolean option value with listenAddress := address } := rfl

lemma defaultLogLevel_address (config : RawConfig) :
    ({ config with listenAddress := address }).defaultLogLevel =
      { config.defaultLogLevel with listenAddress := address } := rfl

/-- An address that is set goes through the defaults alone. -/
lemma withDefaults_address (config : RawConfig) (h : address ≠ .unspec) :
    ({ config with listenAddress := address }).withDefaults net =
      { config.withDefaults net with listenAddress := address } := by
  have haddress : ∀ c : RawConfig,
      ({ c with listenAddress := address }).defaultListenAddress net =
        { c.defaultListenAddress net with listenAddress := address } := by
    intro c
    simp only [RawConfig.defaultListenAddress, if_neg h]
  simp only [RawConfig.withDefaults, defaultLogLevel_address, defaultString_address,
    defaultBoolean_address, haddress]

/-- An address that is set wins over the one of the other configuration. -/
lemma mergeConfigs_address_left (a b : RawConfig) (h : address ≠ .unspec) :
    mergeConfigs { a with listenAddress := address } b =
      { mergeConfigs a b with listenAddress := address } := by
  simp only [mergeConfigs, if_neg h]

/-- A configuration without an address takes the one of the other. -/
lemma mergeConfigs_address_right {a : RawConfig} (b : RawConfig) (h : a.listenAddress = .unspec) :
    mergeConfigs a { b with listenAddress := address } =
      { mergeConfigs a b with listenAddress := address } := by
  simp only [mergeConfigs, if_pos h]

end Address

/-- Neither of the options that are compared is set. -/
structure RawConfig.Unset (config : RawConfig) : Prop where
  logLevel : config.logLevel < 0
  listenAddress : config.listenAddress = .unspec

lemma unset_of_settings {config : RawConfig} (hlevel : config.settings.logLevel = none)
    (haddress : config.settings.listenAddress = none) : config.Unset := by
  constructor
  · by_contra h
    simp [RawConfig.settings, levelValue, h] at hlevel
  · cases h : config.listenAddress with
    | unspec => rfl
    | inet a port => simp [RawConfig.settings, SockAddr.value, h] at haddress
    | inet6 a port => simp [RawConfig.settings, SockAddr.value, h] at haddress

lemma RawConfig.Unset.merge {a b : RawConfig} (ha : a.Unset) (hb : b.Unset) :
    ((mergeConfigs a b).defaultString .configFile "/etc/dnsconfd/dnsconfd.conf").Unset := by
  constructor
  · simpa [RawConfig.defaultString, mergeConfigs, ha.logLevel] using hb.logLevel
  · simpa [RawConfig.defaultString, mergeConfigs, ha.listenAddress] using hb.listenAddress

section Combine

variable {net : Inet} {commandLine environment file : RawConfig} {level : Int8} {address : SockAddr}

/-- A level comes out the same whichever source sets it. -/
lemma combine_level (hcommandLine : commandLine.Unset) (henvironment : environment.Unset)
    (h : ¬ level < 0) :
    combine net { commandLine with logLevel := level } environment file =
        { combine net commandLine environment file with logLevel := level } ∧
      combine net commandLine { environment with logLevel := level } file =
        { combine net commandLine environment file with logLevel := level } ∧
      combine net commandLine environment { file with logLevel := level } =
        { combine net commandLine environment file with logLevel := level } := by
  have houter := hcommandLine.merge henvironment
  refine ⟨?_, ?_, ?_⟩
  · rw [combine, mergeConfigs_level_left _ _ h, defaultString_level, mergeConfigs_level_left _ _ h,
      withDefaults_level, if_neg h, combine]
  · rw [combine, mergeConfigs_level_right _ hcommandLine.logLevel, defaultString_level,
      mergeConfigs_level_left _ _ h, withDefaults_level, if_neg h, combine]
  · rw [combine, mergeConfigs_level_right _ houter.logLevel, withDefaults_level, if_neg h, combine]

/-- An address comes out the same whichever source sets it. -/
lemma combine_address (hcommandLine : commandLine.Unset) (henvironment : environment.Unset)
    (h : address ≠ .unspec) :
    combine net { commandLine with listenAddress := address } environment file =
        { combine net commandLine environment file with listenAddress := address } ∧
      combine net commandLine { environment with listenAddress := address } file =
        { combine net commandLine environment file with listenAddress := address } ∧
      combine net commandLine environment { file with listenAddress := address } =
        { combine net commandLine environment file with listenAddress := address } := by
  have houter := hcommandLine.merge henvironment
  refine ⟨?_, ?_, ?_⟩
  · rw [combine, mergeConfigs_address_left _ _ h, defaultString_address,
      mergeConfigs_address_left _ _ h, withDefaults_address _ h, combine]
  · rw [combine, mergeConfigs_address_right _ hcommandLine.listenAddress, defaultString_address,
      mergeConfigs_address_left _ _ h, withDefaults_address _ h, combine]
  · rw [combine, mergeConfigs_address_right _ houter.listenAddress, withDefaults_address _ h,
      combine]

end Combine

/-! ## Each source by itself -/

/-- The configuration file of a system with one file, from an empty configuration. -/
lemma parseConfigFile_texts (net : Inet) (texts : SourceTexts)
    (hinclude : ∀ value, .option "include" value ∉ texts.entries) (path : String) :
    parseConfigFile net texts.files path .empty =
      match texts.entries.foldlM (storeEntry net) ⟨.empty, [], none, 1⟩ with
      | .error error => some (.error error)
      | .ok s => some (.ok s.config) :=
  @parseConfigFile_document net texts.files path texts.entries rfl hinclude .empty

lemma parseOuterSources_of_ok {net : Inet} {texts : SourceTexts} {commandLine environment : RawConfig}
    (hcommandLine : argpParse net texts.options .empty = .ok commandLine)
    (henvironment : parseEnvironmentVariables net texts.getenv .empty = .ok environment) :
    parseOuterSources net texts.getenv texts.options =
      .ok ((mergeConfigs commandLine environment).defaultString .configFile
        "/etc/dnsconfd/dnsconfd.conf") := by
  simp only [parseOuterSources, hcommandLine, henvironment]
  rfl

/-- The sources are accepted exactly if each of them is, and the configurations that they have been
parsed into are combined. -/
lemma parse_of_ok {net : Inet} {texts : SourceTexts}
    (hinclude : ∀ value, .option "include" value ∉ texts.entries)
    {commandLine environment : RawConfig} {s : FileState}
    (hcommandLine : argpParse net texts.options .empty = .ok commandLine)
    (henvironment : parseEnvironmentVariables net texts.getenv .empty = .ok environment)
    (hfile : texts.entries.foldlM (storeEntry net) ⟨.empty, [], none, 1⟩ = .ok s) :
    texts.parse net = some (.ok (combine net commandLine environment s.config)) := by
  rw [SourceTexts.parse, parseConfiguration, parseOuterSources_of_ok hcommandLine henvironment]
  dsimp only
  rw [parseConfigFile_texts net texts hinclude, hfile]
  rfl

/-- If one of the sources is rejected, so is everything. -/
lemma isRejected_of_error {net : Inet} {texts : SourceTexts}
    (hinclude : ∀ value, .option "include" value ∉ texts.entries)
    {commandLine environment : RawConfig}
    (h : (∃ error, argpParse net texts.options .empty = .error error) ∨
      (argpParse net texts.options .empty = .ok commandLine ∧
        ∃ error, parseEnvironmentVariables net texts.getenv .empty = .error error) ∨
      (argpParse net texts.options .empty = .ok commandLine ∧
        parseEnvironmentVariables net texts.getenv .empty = .ok environment ∧
        ∃ error, texts.entries.foldlM (storeEntry net) ⟨.empty, [], none, 1⟩ = .error error)) :
    IsRejected (texts.parse net) := by
  rcases h with ⟨error, hcommandLine⟩ | ⟨hcommandLine, error, henvironment⟩ |
    ⟨hcommandLine, henvironment, error, hfile⟩
  · refine ⟨error, ?_⟩
    simp only [SourceTexts.parse, parseConfiguration, parseOuterSources, hcommandLine]
    rfl
  · refine ⟨error, ?_⟩
    simp only [SourceTexts.parse, parseConfiguration, parseOuterSources, hcommandLine, henvironment]
    rfl
  · refine ⟨error, ?_⟩
    rw [SourceTexts.parse, parseConfiguration, parseOuterSources_of_ok hcommandLine henvironment]
    dsimp only
    rw [parseConfigFile_texts net texts hinclude, hfile]

/-- No element gives a value. -/
lemma lastSet_eq_none {α β : Type} {f : α → Option β} {l : List α} (h : ∀ a ∈ l, f a = none) :
    lastSet f l = none := by
  induction l with
  | nil => rfl
  | cons a l ih =>
    rw [lastSet, ih fun b hb => h b (List.mem_cons_of_mem a hb), h a List.mem_cons_self]
    rfl

section Silent

variable {net : Inet} {texts : SourceTexts}

/-- The environment without the two options: only the tables are read. -/
lemma parseEnvironmentVariables_eq (getenv : String → Option String) :
    parseEnvironmentVariables net getenv .empty = (do
      let config ← parseLogLevelVariable getenv
        { RawConfig.empty with
          string := fun o => getenv o.variableName
          boolean := fun o => ((getenv o.variableName).map parseBoolean).getD .unset }
      parseListenAddressVariable net getenv config) := by
  simp only [parseEnvironmentVariables, foldl_storeStringVariable,
    foldl_storeBooleanVariable getenv { RawConfig.empty with
      string := fun o => getenv o.variableName } fun _ => rfl]

/-- Sources that say nothing about the options are parsed into configurations without them. -/
lemma SourceTexts.Silent.unset (h : texts.Silent) {commandLine environment : RawConfig}
    {s : FileState} (hcommandLine : argpParse net texts.options .empty = .ok commandLine)
    (henvironment : parseEnvironmentVariables net texts.getenv .empty = .ok environment)
    (hfile : texts.entries.foldlM (storeEntry net) ⟨.empty, [], none, 1⟩ = .ok s) :
    commandLine.Unset ∧ environment.Unset ∧ s.config.Unset := by
  refine ⟨?_, ?_, ?_⟩
  · have hsettings := (settings_argpParse hcommandLine).1
    apply unset_of_settings
    · rw [hsettings]
      refine lastSet_eq_none fun option hoption => ?_
      cases option with
      | logLevel arg => exact absurd hoption (h.options .logLevel arg)
      | _ => rfl
    · rw [hsettings]
      refine lastSet_eq_none fun option hoption => ?_
      cases option with
      | listenAddress arg => exact absurd hoption (h.options .listenAddress arg)
      | _ => rfl
  · have hsettings := (settings_parseEnvironmentVariables henvironment).1
    have hlevel : texts.getenv "LOG_LEVEL" = none := h.getenv .logLevel
    have haddress : texts.getenv "LISTEN_ADDRESS" = none := h.getenv .listenAddress
    apply unset_of_settings
    · rw [hsettings]
      simp [environmentSettings, hlevel]
    · rw [hsettings]
      simp [environmentSettings, haddress]
  · have hparsed : parseConfigFile net texts.files "" .empty = some (.ok s.config) := by
      rw [parseConfigFile_texts net texts h.noInclude, hfile]
    have hsettings : s.config.settings = documentSettings net texts.entries :=
      settings_of_document rfl h.noInclude hparsed
    have hkey : ∀ option entry, entry ∈ texts.entries →
        entryFor (some (CheckedOption.fileKey option)) entry = none := by
      intro option entry hentry
      cases entry with
      | staticServers servers => rfl
      | option key value =>
        refine entryFor_of_ne ?_ value
        rintro ⟨rfl⟩
        exact h.entries option value hentry
    apply unset_of_settings
    · rw [hsettings]
      have hlast : lastSet (fun e => (entryFor (some "log_level") e).map fun value =>
          levelValue (parseLogLevel value)) texts.entries = none := by
        refine lastSet_eq_none fun entry hentry => ?_
        rw [show entryFor (some "log_level") entry = none from hkey .logLevel entry hentry]
        rfl
      simp only [documentSettings, hlast, Option.join_none]
    · rw [hsettings]
      refine lastSet_eq_none fun entry hentry => ?_
      rw [show entryFor (some "listen_address") entry = none from hkey .listenAddress entry hentry]
      rfl

/-- Sources that are accepted have been parsed one by one. -/
lemma sources_of_parse (h : texts.Silent) {base : RawConfig}
    (hbase : texts.parse net = some (.ok base)) :
    ∃ commandLine environment s, argpParse net texts.options .empty = .ok commandLine ∧
      parseEnvironmentVariables net texts.getenv .empty = .ok environment ∧
      texts.entries.foldlM (storeEntry net) ⟨.empty, [], none, 1⟩ = .ok s ∧
      base = combine net commandLine environment s.config := by
  obtain ⟨config, file, houter, -, hfile, -⟩ := parseConfiguration_ok hbase
  obtain ⟨commandLine, hcommandLine, h₁⟩ := ok_of_bind houter
  obtain ⟨environment, henvironment, -⟩ := ok_of_bind h₁
  rw [parseConfigFile_texts net texts h.noInclude] at hfile
  cases hfold : texts.entries.foldlM (storeEntry net) ⟨.empty, [], none, 1⟩ with
  | error error =>
    rw [hfold] at hfile
    cases hfile
  | ok s =>
    refine ⟨commandLine, environment, s, hcommandLine, henvironment, rfl, ?_⟩
    have hparse := parse_of_ok h.noInclude hcommandLine henvironment hfold
    exact Except.ok.inj (Option.some.inj (hbase.symm.trans hparse))

variable {option : CheckedOption} {value : String} {commandLine environment : RawConfig}
  {s : FileState}

/-- The option at the end of the command line. -/
lemma argpParse_giving (hcommandLine : argpParse net texts.options .empty = .ok commandLine) :
    argpParse net (texts.giving option value .commandLine).options .empty =
      parseGlobalOpt net commandLine (option.commandLineOption value) := by
  simp only [argpParse, SourceTexts.giving, List.foldlM_append, List.foldlM_cons, List.foldlM_nil]
  rw [argpParse] at hcommandLine
  rw [hcommandLine]
  cases hstep : parseGlobalOpt net commandLine (option.commandLineOption value) with
  | error error => simp [bind, Except.bind, hstep]
  | ok config => simp [bind, Except.bind, hstep, pure, Except.pure]

/-- The option at the end of the file. -/
lemma foldlM_giving
    (hfile : texts.entries.foldlM (storeEntry net) ⟨.empty, [], none, 1⟩ = .ok s) :
    (texts.giving option value .configFile).entries.foldlM (storeEntry net)
        ⟨.empty, [], none, 1⟩ = storeOption net option.fileKey value s := by
  simp only [SourceTexts.giving, List.foldlM_append, hfile, List.foldlM_cons, List.foldlM_nil]
  cases hstep : storeOption net option.fileKey value s with
  | error error => simp [bind, Except.bind, storeEntry, hstep]
  | ok s' => simp [bind, Except.bind, storeEntry, hstep, pure, Except.pure]

lemma getenv_giving (name : String) :
    (texts.giving option value .environment).getenv name =
      if name = option.variableName then some value else texts.getenv name := rfl

/-- The option in the environment: the tables are read as before. -/
lemma parseEnvironmentVariables_giving (h : texts.Silent)
    (henvironment : parseEnvironmentVariables net texts.getenv .empty = .ok environment) :
    parseEnvironmentVariables net (texts.giving option value .environment).getenv .empty =
      (do
        let config ← parseLogLevelVariable (texts.giving option value .environment).getenv
          environment
        parseListenAddressVariable net (texts.giving option value .environment).getenv config) := by
  have hstring : ∀ o : StringOption,
      (texts.giving option value .environment).getenv o.variableName =
        texts.getenv o.variableName := by
    intro o
    refine if_neg ?_
    cases o <;> cases option <;> decide
  have hboolean : ∀ o : BooleanOption,
      (texts.giving option value .environment).getenv o.variableName =
        texts.getenv o.variableName := by
    intro o
    refine if_neg ?_
    cases o <;> cases option <;> decide
  have hlevel : texts.getenv "LOG_LEVEL" = none := h.getenv .logLevel
  have haddress : texts.getenv "LISTEN_ADDRESS" = none := h.getenv .listenAddress
  rw [parseEnvironmentVariables_eq] at henvironment ⊢
  simp only [parseLogLevelVariable, parseListenAddressVariable, hlevel, haddress] at henvironment
  obtain rfl := Except.ok.inj henvironment
  simp only [hstring, hboolean]

/-- The option at hand includes no file. -/
lemma noInclude_giving (h : texts.Silent) (source : Source) :
    ∀ value', .option "include" value' ∉ (texts.giving option value source).entries := by
  intro value' hmem
  cases source with
  | commandLine => exact h.noInclude value' hmem
  | environment => exact h.noInclude value' hmem
  | configFile =>
    rcases List.mem_append.mp hmem with hmem | hmem
    · exact h.noInclude value' hmem
    · cases option <;> simp [CheckedOption.fileKey] at hmem

/-- What comes out if the option is accepted in one of the sources. -/
lemma parse_giving_of_ok (h : texts.Silent)
    (hcommandLine : argpParse net texts.options .empty = .ok commandLine)
    (henvironment : parseEnvironmentVariables net texts.getenv .empty = .ok environment)
    (hfile : texts.entries.foldlM (storeEntry net) ⟨.empty, [], none, 1⟩ = .ok s) :
    (∀ config, parseGlobalOpt net commandLine (option.commandLineOption value) = .ok config →
      (texts.giving option value .commandLine).parse net =
        some (.ok (combine net config environment s.config))) ∧
    (∀ config, parseEnvironmentVariables net (texts.giving option value .environment).getenv
        .empty = .ok config →
      (texts.giving option value .environment).parse net =
        some (.ok (combine net commandLine config s.config))) ∧
    ∀ s', storeOption net option.fileKey value s = .ok s' →
      (texts.giving option value .configFile).parse net =
        some (.ok (combine net commandLine environment s'.config)) := by
  refine ⟨fun config hconfig => ?_, fun config hconfig => ?_, fun s' hs' => ?_⟩
  · rw [← argpParse_giving hcommandLine] at hconfig
    exact parse_of_ok (noInclude_giving h .commandLine) hconfig henvironment hfile
  · exact parse_of_ok (noInclude_giving h .environment) hcommandLine hconfig hfile
  · rw [← foldlM_giving hfile] at hs'
    exact parse_of_ok (noInclude_giving h .configFile) hcommandLine henvironment hs'

/-- What comes out if the option is rejected in one of the sources. -/
lemma isRejected_giving (h : texts.Silent)
    (hcommandLine : argpParse net texts.options .empty = .ok commandLine)
    (henvironment : parseEnvironmentVariables net texts.getenv .empty = .ok environment)
    (hfile : texts.entries.foldlM (storeEntry net) ⟨.empty, [], none, 1⟩ = .ok s) :
    ((∃ error, parseGlobalOpt net commandLine (option.commandLineOption value) = .error error) →
      IsRejected ((texts.giving option value .commandLine).parse net)) ∧
    ((∃ error, parseEnvironmentVariables net (texts.giving option value .environment).getenv
        .empty = .error error) →
      IsRejected ((texts.giving option value .environment).parse net)) ∧
    ((∃ error, storeOption net option.fileKey value s = .error error) →
      IsRejected ((texts.giving option value .configFile).parse net)) := by
  refine ⟨?_, ?_, ?_⟩
  · rintro ⟨error, herror⟩
    rw [← argpParse_giving hcommandLine] at herror
    exact @isRejected_of_error net _ (noInclude_giving h .commandLine) commandLine environment
      (Or.inl ⟨error, herror⟩)
  · rintro ⟨error, herror⟩
    exact @isRejected_of_error net _ (noInclude_giving h .environment) commandLine environment
      (Or.inr (Or.inl ⟨hcommandLine, error, herror⟩))
  · rintro ⟨error, herror⟩
    rw [← foldlM_giving hfile] at herror
    exact isRejected_of_error (noInclude_giving h .configFile)
      (Or.inr (Or.inr ⟨hcommandLine, henvironment, error, herror⟩))

/-- The log level in the environment. -/
lemma environment_logLevel (h : texts.Silent)
    (henvironment : parseEnvironmentVariables net texts.getenv .empty = .ok environment) :
    parseEnvironmentVariables net (texts.giving .logLevel value .environment).getenv .empty =
      if parseLogLevel value < 0 then
        .error (some "Failed to parse log level in environment variables")
      else .ok { environment with logLevel := parseLogLevel value } := by
  have hgiven : (texts.giving .logLevel value .environment).getenv "LOG_LEVEL" = some value := by
    rw [getenv_giving, CheckedOption.variableName, if_pos rfl]
  have hother : (texts.giving .logLevel value .environment).getenv "LISTEN_ADDRESS" = none := by
    rw [getenv_giving, CheckedOption.variableName, if_neg (by decide)]
    exact h.getenv .listenAddress
  rw [parseEnvironmentVariables_giving h henvironment]
  simp only [parseLogLevelVariable, parseListenAddressVariable, hgiven, hother]
  split_ifs <;> rfl

/-- The address in the environment. -/
lemma environment_listenAddress (h : texts.Silent)
    (henvironment : parseEnvironmentVariables net texts.getenv .empty = .ok environment) :
    parseEnvironmentVariables net (texts.giving .listenAddress value .environment).getenv .empty =
      match parseIpStr net value environment.listenAddress.port with
      | none => .error (some "Failed to parse listen address from environmental variables")
      | some address => .ok { environment with listenAddress := address } := by
  have hgiven : (texts.giving .listenAddress value .environment).getenv "LISTEN_ADDRESS" =
      some value := by
    rw [getenv_giving, CheckedOption.variableName, if_pos rfl]
  have hother : (texts.giving .listenAddress value .environment).getenv "LOG_LEVEL" = none := by
    rw [getenv_giving, CheckedOption.variableName, if_neg (by decide)]
    exact h.getenv .logLevel
  rw [parseEnvironmentVariables_giving h henvironment]
  cases haddress : parseIpStr net value environment.listenAddress.port <;>
    simp only [parseLogLevelVariable, parseListenAddressVariable, hgiven, hother, haddress, bind,
      Except.bind]

/-- The results with a known log level. -/
lemma parse_giving_knownLevel (h : texts.Silent) {base : RawConfig}
    (hbase : texts.parse net = some (.ok base)) (hlevel : ¬ parseLogLevel value < 0)
    (source : Source) :
    (texts.giving .logLevel value source).parse net =
      some (.ok { base with logLevel := parseLogLevel value }) := by
  obtain ⟨commandLine, environment, s, hcommandLine, henvironment, hfile, rfl⟩ :=
    sources_of_parse h hbase
  obtain ⟨hunset, hunset', -⟩ := h.unset hcommandLine henvironment hfile
  obtain ⟨hfirst, hsecond, hthird⟩ :=
    @parse_giving_of_ok net texts .logLevel value _ _ _ h hcommandLine henvironment hfile
  obtain ⟨hcombine, hcombine', hcombine''⟩ :=
    @combine_level net commandLine environment s.config _ hunset hunset' hlevel
  cases source with
  | commandLine => rw [hfirst _ (if_neg hlevel), hcombine]
  | environment =>
    have hconfig := @environment_logLevel net texts value _ h henvironment
    rw [if_neg hlevel] at hconfig
    rw [hsecond _ hconfig, hcombine']
  | configFile => rw [hthird _ rfl, hcombine'']

/-- The file takes a level that is not known for none, and the other sources reject it. -/
lemma parse_giving_unknownLevel (h : texts.Silent) {base : RawConfig}
    (hbase : texts.parse net = some (.ok base)) (hlevel : parseLogLevel value < 0) :
    IsRejected ((texts.giving .logLevel value .commandLine).parse net) ∧
      ¬ IsRejected ((texts.giving .logLevel value .configFile).parse net) := by
  obtain ⟨commandLine, environment, s, hcommandLine, henvironment, hfile, rfl⟩ :=
    sources_of_parse h hbase
  obtain ⟨hrejected, -, -⟩ :=
    @isRejected_giving net texts .logLevel value _ _ _ h hcommandLine henvironment hfile
  obtain ⟨-, -, haccepted⟩ :=
    @parse_giving_of_ok net texts .logLevel value _ _ _ h hcommandLine henvironment hfile
  refine ⟨hrejected ⟨_, if_pos hlevel⟩, ?_⟩
  rintro ⟨error, herror⟩
  rw [haccepted _ rfl] at herror
  cases herror

/-- The results with an address that is known. -/
lemma parse_giving_knownAddress (h : texts.Silent) {base : RawConfig}
    (hbase : texts.parse net = some (.ok base)) {address : SockAddr}
    (haddress : parseIpStr net value 0 = some address) (source : Source) :
    (texts.giving .listenAddress value source).parse net =
      some (.ok { base with listenAddress := address }) := by
  obtain ⟨commandLine, environment, s, hcommandLine, henvironment, hfile, rfl⟩ :=
    sources_of_parse h hbase
  obtain ⟨hunset, hunset', hunset''⟩ := h.unset hcommandLine henvironment hfile
  obtain ⟨hfirst, hsecond, hthird⟩ :=
    @parse_giving_of_ok net texts .listenAddress value _ _ _ h hcommandLine henvironment hfile
  have hset : address ≠ .unspec := by
    rcases parseIpStr_cases haddress with ⟨a, rfl⟩ | ⟨a, rfl⟩ <;> simp
  obtain ⟨hcombine, hcombine', hcombine''⟩ :=
    @combine_address net commandLine environment s.config _ hunset hunset' hset
  cases source with
  | commandLine =>
    rw [hfirst { commandLine with listenAddress := address } ?_, hcombine]
    simp [CheckedOption.commandLineOption, parseGlobalOpt, hunset.listenAddress, SockAddr.port,
      haddress]
  | environment =>
    have hconfig := @environment_listenAddress net texts value _ h henvironment
    simp only [hunset'.listenAddress, SockAddr.port, haddress] at hconfig
    rw [hsecond _ hconfig, hcombine']
  | configFile =>
    rw [hthird { s with config := { s.config with listenAddress := address } } ?_, hcombine'']
    simp [CheckedOption.fileKey, storeOption, hunset''.listenAddress, SockAddr.port, haddress]

/-- An address that is not known is rejected by all sources. -/
lemma parse_giving_unknownAddress (h : texts.Silent) {base : RawConfig}
    (hbase : texts.parse net = some (.ok base)) (haddress : parseIpStr net value 0 = none)
    (source : Source) : IsRejected ((texts.giving .listenAddress value source).parse net) := by
  obtain ⟨commandLine, environment, s, hcommandLine, henvironment, hfile, rfl⟩ :=
    sources_of_parse h hbase
  obtain ⟨hunset, hunset', hunset''⟩ := h.unset hcommandLine henvironment hfile
  obtain ⟨hfirst, hsecond, hthird⟩ :=
    @isRejected_giving net texts .listenAddress value _ _ _ h hcommandLine henvironment hfile
  cases source with
  | commandLine =>
    refine hfirst ⟨some ("Invalid listen address: " ++ value), ?_⟩
    simp [CheckedOption.commandLineOption, parseGlobalOpt, hunset.listenAddress, SockAddr.port,
      haddress]
  | environment =>
    have hconfig := @environment_listenAddress net texts value _ h henvironment
    simp only [hunset'.listenAddress, SockAddr.port, haddress] at hconfig
    exact hsecond ⟨_, hconfig⟩
  | configFile =>
    refine hthird ⟨some "Failed to parse listen address in configuration", ?_⟩
    simp [CheckedOption.fileKey, storeOption, hunset''.listenAddress, SockAddr.port, haddress]

/-- As an address every text is treated alike. -/
lemma agree_listenAddress (h : texts.Silent) {base : RawConfig}
    (hbase : texts.parse net = some (.ok base)) :
    Agree fun source => (texts.giving .listenAddress value source).parse net := by
  cases haddress : parseIpStr net value 0 with
  | none => exact Or.inl fun source => parse_giving_unknownAddress h hbase haddress source
  | some address =>
    exact Or.inr ⟨_, fun source => parse_giving_knownAddress h hbase haddress source⟩

end Silent

/-! ## The result -/

/-- Values from all sources.  Let the sources say nothing else about the log level and the address,
and let them be accepted as they are.  Then a text that is given in addition as one of the two is
treated alike by all sources, and rejected by all if it is not known, exactly if the text is a known
log level; as an address every text is treated alike, and rejected by all if it is not known. -/
theorem option_values_agree_iff {net : Inet} {texts : SourceTexts} (h : texts.Silent)
    {base : RawConfig} (hbase : texts.parse net = some (.ok base)) (value : String) :
    (ValuesAgree net texts value ↔ 0 ≤ parseLogLevel value) ∧
      Agree (fun source => (texts.giving .listenAddress value source).parse net) ∧
      (parseIpStr net value 0 = none →
        ∀ source, IsRejected ((texts.giving .listenAddress value source).parse net)) := by
  have haddress := @agree_listenAddress net texts value h base hbase
  have hunknown := @parse_giving_unknownAddress net texts value h base hbase
  refine ⟨⟨fun hagree => ?_, fun hlevel => ?_⟩, haddress, hunknown⟩
  · by_contra hlevel
    have hunknown : parseLogLevel value < 0 := Int8.not_le.mp hlevel
    exact (parse_giving_unknownLevel h hbase hunknown).2 (hagree.unknownLevel hunknown .configFile)
  · have hknown : ¬ parseLogLevel value < 0 := Int8.not_lt.mpr hlevel
    have hagree : Agree fun source => (texts.giving .logLevel value source).parse net :=
      Or.inr ⟨_, fun source => parse_giving_knownLevel h hbase hknown source⟩
    exact ⟨hagree, fun hunknown => absurd hunknown hknown, haddress, hunknown⟩

/-- Sources in which nothing is given. -/
def SourceTexts.nothing : SourceTexts where
  options := []
  getenv _ := none
  entries := []

lemma silent_nothing : SourceTexts.nothing.Silent :=
  ⟨fun _ _ => List.not_mem_nil, fun _ => rfl, fun _ _ => List.not_mem_nil,
    fun _ => List.not_mem_nil⟩

/-- All sources take `DEBUG` for the same level. -/
theorem option_values_agree_debug :
    SourceTexts.nothing.Silent ∧ ValuesAgree .loopback .nothing "DEBUG" := by
  refine ⟨silent_nothing, ?_⟩
  exact (option_values_agree_iff silent_nothing rfl "DEBUG").1.mpr (by decide)

/-- A misspelled level is rejected on the command line and accepted in the file, where it means
nothing. -/
theorem option_values_disagree :
    IsRejected ((SourceTexts.nothing.giving .logLevel "dbg" .commandLine).parse .loopback) ∧
      (∃ config, (SourceTexts.nothing.giving .logLevel "dbg" .configFile).parse .loopback =
        some (.ok config) ∧ config.logLevel = 6) ∧
      ¬ ValuesAgree .loopback .nothing "dbg" := by
  obtain ⟨hrejected, haccepted⟩ :=
    @parse_giving_unknownLevel .loopback .nothing "dbg" silent_nothing _ rfl (by decide)
  refine ⟨hrejected, ⟨_, rfl, rfl⟩, fun hagree => ?_⟩
  exact haccepted (hagree.unknownLevel (by decide) .configFile)

end Dnsconfd
