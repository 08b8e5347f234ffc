import Dnsconfd.ConfigurationParsing.Documents

/-!
# Where the configuration comes from

`parse_configuration` reads the command line, the environment and the configuration file, each into
a configuration in which nothing is set, merges them in this order of precedence and fills in the
defaults.  Which file is read is itself an option of the first two sources.

The model of argp is the list of options that it hands to `parse_global_opt`, in their order.  What
each source sets is described without reference to how it is parsed: `commandLineSettings` by the
last occurrence of each option, `environmentSettings` by the variables, and, for a file that
consists of scalar options, `documentSettings` by the last line of each.
-/

namespace Dnsconfd

open Library

/-! ## The command line -/

/-- What argp hands to `parse_global_opt`: options with a text, pairs of options that switch a
boolean on and off, and the argument that names a command, of which only matters here whether its
own parser accepts what follows. -/
inductive CommandLineOption where
  | logLevel (arg : String)
  | boolean (option : BooleanOption) (value : Bool)
  | string (option : StringOption) (arg : String)
  | listenAddress (arg : String)
  | command (accepted : Bool)

/-- The stored form of a boolean option. -/
def ConfigBoolean.ofBool (value : Bool) : ConfigBoolean :=
  if value then .true else .false

/-- `parse_global_opt`; `argp_error` ends the program. -/
def parseGlobalOpt (net : Inet) (config : RawConfig) :
    CommandLineOption → Except (Option String) RawConfig
  | .logLevel arg =>
    if parseLogLevel arg < 0 then .error (some ("Invalid log level: " ++ arg))
    else .ok { config with logLevel := parseLogLevel arg }
  | .boolean option value => .ok (config.setBoolean option (.ofBool value))
  | .string option arg => .ok (config.setString option arg)
  | .listenAddress arg =>
    match parseIpStr net arg config.listenAddress.port with
    | none => .error (some ("Invalid listen address: " ++ arg))
    | some address => .ok { config with listenAddress := address }
  | .command accepted => if accepted then .ok config else .error none

/-- `argp_parse`. -/
def argpParse (net : Inet) (options : List CommandLineOption) (config : RawConfig) :
    Except (Option String) RawConfig :=
  options.foldlM (parseGlobalOpt net) config

/-! ## The environment -/

/-- The variables of the options whose value is a text. -/
def stringOptions : List (String × StringOption) :=
  [("FILE_LOG", .fileLog), ("RESOLV_CONF_PATH", .resolvConfPath),
    ("RESOLVER_OPTIONS", .resolverOptions), ("CERTIFICATION_AUTHORITY", .certificationAuthority),
    ("CONFIG_FILE", .configFile)]

/-- The variables of the options whose value is a boolean. -/
def booleanOptions : List (String × BooleanOption) :=
  [("STDERR_LOG", .stderrLog), ("SYSLOG_LOG", .syslogLog), ("PRIORITIZE_WIRE", .prioritizeWire),
    ("DNSSEC_ENABLED", .dnssecEnabled)]

/-- The body of the loop over the first table. -/
def storeStringVariable (getenv : String → Option String) (config : RawConfig)
    (row : String × StringOption) : RawConfig :=
  match getenv row.1 with
  | some value => config.setString row.2 value
  | none => config

/-- The body of the loop over the second table. -/
def storeBooleanVariable (getenv : String → Option String) (config : RawConfig)
    (row : String × BooleanOption) : RawConfig :=
  match getenv row.1 with
  | some value => config.setBoolean row.2 (parseBoolean value)
  | none => config

/-- The variable with the log level. -/
def parseLogLevelVariable (getenv : String → Option String) (config : RawConfig) :
    Except (Option String) RawConfig :=
  match getenv "LOG_LEVEL" with
  | none => .ok config
  | some value =>
    if parseLogLevel value < 0 then
      .error (some "Failed to parse log level in environment variables")
    else .ok { config with logLevel := parseLogLevel value }

/-- The variable with the address. -/
def parseListenAddressVariable (net : Inet) (getenv : String → Option String)
    (config : RawConfig) : Except (Option String) RawConfig :=
  match getenv "LISTEN_ADDRESS" with
  | none => .ok config
  | some value =>
    match parseIpStr net value config.listenAddress.port with
    | none => .error (some "Failed to parse listen address from environmental variables")
    | some address => .ok { config with listenAddress := address }

/-- `parse_environment_variables`. -/
def parseEnvironmentVariables (net : Inet) (getenv : String → Option String)
    (config : RawConfig) : Except (Option String) RawConfig := do
  let config := stringOptions.foldl (storeStringVariable getenv) config
  let config := booleanOptions.foldl (storeBooleanVariable getenv) config
  let config ← parseLogLevelVariable getenv config
  parseListenAddressVariable net getenv config

/-! ## Everything together -/

/-- Give a text to an option that has none. -/
def RawConfig.defaultString (config : RawConfig) (option : StringOption) (value : String) :
    RawConfig :=
  { config with
    string := Function.update config.string option (some ((config.string option).getD value)) }

/-- Give a value to a boolean option that has none. -/
def RawConfig.defaultBoolean (config : RawConfig) (option : BooleanOption) (value : ConfigBoolean) :
    RawConfig :=
  { config with
    boolean := Function.update config.boolean option
      (if config.boolean option = .unset then value else config.boolean option) }

/-- The address 127.0.0.1 for a configuration without one. -/
def RawConfig.defaultListenAddress (net : Inet) (config : RawConfig) : RawConfig :=
  { config with
    listenAddress :=
      if config.listenAddress = .unspec then
        .inet ((net.pton4 "127.0.0.1").getD (.replicate 4 0)) 0
      else config.listenAddress }

/-- The level `LOG_INFO` for a configuration without one. -/
def RawConfig.defaultLogLevel (config : RawConfig) : RawConfig :=
  { config with logLevel := if config.logLevel < 0 then 6 else config.logLevel }

/-- The defaults at the end of `parse_configuration`. -/
def RawConfig.withDefaults (net : Inet) (config : RawConfig) : RawConfig :=
  let config := config.defaultLogLevel
  let config := config.defaultBoolean .stderrLog .true
  let config := config.defaultBoolean .syslogLog .false
  let config := config.defaultString .resolvConfPath "/etc/resolv.conf"
  let config := config.defaultListenAddress net
  let config := config.defaultBoolean .prioritizeWire .true
  let config := config.defaultBoolean .dnssecEnabled .false
  let config := config.defaultString .resolverOptions "edns0 trust-ad"
  config.defaultString .certificationAuthority
    ("/etc/pki/dns/extracted/pem/tls-ca-bundle.pem " ++
      "/etc/pki/ca-trust/extracted/pem/tls-ca-bundle.pem")

/-- The command line and the environment, merged, with the path of the configuration file. -/
def parseOuterSources (net : Inet) (getenv : String → Option String)
    (options : List CommandLineOption) : Except (Option String) RawConfig := do
  let config ← argpParse net options .empty
  let tempConfig ← parseEnvironmentVariables net getenv .empty
  return (mergeConfigs config tempConfig).defaultString .configFile "/etc/dnsconfd/dnsconfd.conf"

/-- `parse_configuration`: nothing if the parser of the file waits for ever, an error with the text
that is printed, or the configuration. -/
def parseConfiguration (net : Inet) (files : ConfigFile.Files) (getenv : String → Option String)
    (options : List CommandLineOption) : Option (Except (Option String) RawConfig) :=
  match parseOuterSources net getenv options with
  | .error error => some (.error error)
  | .ok config =>
    match ConfigFile.parseConfigFile net files ((config.string .configFile).getD "") .empty with
    | none => none
    | some (.error error) => some (.error error)
    | some (.ok tempConfig) => some (.ok ((mergeConfigs config tempConfig).withDefaults net))

/-! ## What the sources set -/

/-- The value that the last element gives of those that give one. -/
def lastSet {α β : Type} (f : α → Option β) : List α → Option β
  | [] => none
  | a :: l => (lastSet f l).or (f a)

lemma lastSet_append {α β : Type} (f : α → Option β) (l l' : List α) :
    lastSet f (l ++ l') = (lastSet f l').or (lastSet f l) := by
  induction l with
  | nil => exact Option.or_none.symm
  | cons a l ih => rw [List.cons_append, lastSet, ih, lastSet, Option.or_assoc]

/-- If every step overwrites a value or leaves it alone, the last one that overwrites it counts; the
steps are known to preserve `P`. -/
lemma lastSet_of_foldlM {σ ε α β : Type} {step : σ → α → Except ε σ} {P : σ → Prop}
    {g : σ → Option β} {f : α → Option β}
    (hP : ∀ s a s', P s → step s a = .ok s' → P s')
    (hstep : ∀ s a s', P s → step s a = .ok s' → g s' = (f a).or (g s))
    {l : List α} {s s' : σ} (hs : P s) (h : l.foldlM step s = .ok s') :
    P s' ∧ g s' = (lastSet f l).or (g s) := by
  induction l generalizing s with
  | nil =>
    obtain rfl : s = s' := Except.ok.inj h
    exact ⟨hs, rfl⟩
  | cons a l ih =>
    rw [List.foldlM_cons] at h
    cases ha : step s a with
    | error error => rw [ha] at h; cases h
    | ok s₁ =>
      rw [ha] at h
      obtain ⟨hs', hrest⟩ := ih (hP s a s₁ hs ha) h
      refine ⟨hs', ?_⟩
      rw [hrest, hstep s a s₁ hs ha, lastSet, Option.or_assoc]

namespace CommandLineOption

/-- The text that an occurrence gives to an option. -/
def stringFor (option : StringOption) : CommandLineOption → Option String
  | string o arg => if o = option then some arg else none
  | _ => none

/-- The boolean that an occurrence gives to an option. -/
def booleanFor (option : BooleanOption) : CommandLineOption → Option Bool
  | boolean o value => if o = option then some value else none
  | _ => none

/-- The address that an occurrence gives. -/
def addressIn (net : Inet) : CommandLineOption → Option SockAddr
  | listenAddress arg => parseIpStr net arg 0
  | _ => none

/-- The level that an occurrence gives. -/
def levelIn : CommandLineOption → Option Int8
  | logLevel arg => levelValue (parseLogLevel arg)
  | _ => none

end CommandLineOption

/-- What the command line sets: every option by its last occurrence. -/
def commandLineSettings (net : Inet) (options : List CommandLineOption) : Settings where
  string option := lastSet (CommandLineOption.stringFor option) options
  boolean option := lastSet (CommandLineOption.booleanFor option) options
  listenAddress := lastSet (CommandLineOption.addressIn net) options
  logLevel := lastSet CommandLineOption.levelIn options

/-- The variable of an option whose value is a text. -/
def StringOption.variableName : StringOption → String
  | fileLog => "FILE_LOG"
  | resolvConfPath => "RESOLV_CONF_PATH"
  | resolverOptions => "RESOLVER_OPTIONS"
  | configFile => "CONFIG_FILE"
  | certificationAuthority => "CERTIFICATION_AUTHORITY"

/-- The variable of an option whose value is a boolean. -/
def BooleanOption.variableName : BooleanOption → String
  | stderrLog => "STDERR_LOG"
  | syslogLog => "SYSLOG_LOG"
  | prioritizeWire => "PRIORITIZE_WIRE"
  | dnssecEnabled => "DNSSEC_ENABLED"

/-- The texts that mean that a boolean option is on. -/
def isAffirmative (value : String) : Bool :=
  value = "yes" || value = "1"

/-- What the environment sets. -/
def environmentSettings (net : Inet) (getenv : String → Option String) : Settings where
  string option := getenv option.variableName
  boolean option := (getenv option.variableName).map isAffirmative
  listenAddress := (getenv "LISTEN_ADDRESS").bind fun value => parseIpStr net value 0
  logLevel := (getenv "LOG_LEVEL").bind fun value => levelValue (parseLogLevel value)

/-- The defaults as they are documented. -/
def documentedDefaults : Settings where
  string
    | .fileLog => none
    | .resolvConfPath => some "/etc/resolv.conf"
    | .resolverOptions => some "edns0 trust-ad"
    | .configFile => some "/etc/dnsconfd/dnsconfd.conf"
    | .certificationAuthority => some ("/etc/pki/dns/extracted/pem/tls-ca-bundle.pem " ++
        "/etc/pki/ca-trust/extracted/pem/tls-ca-bundle.pem")
  boolean
    | .stderrLog => some true
    | .syslogLog => some false
    | .prioritizeWire => some true
    | .dnssecEnabled => some false
  listenAddress := some (.inet loopbackAddress 0)
  logLevel := some 6

@[simp] lemma value_parseBoolean (value : String) :
    (parseBoolean value).value = some (isAffirmative value) := by
  unfold parseBoolean isAffirmative
  by_cases hyes : value = "yes"
  · simp [hyes, ConfigBoolean.value]
  · by_cases hone : value = "1" <;> simp [hyes, hone, ConfigBoolean.value]

@[simp] lemma value_ofBool (value : Bool) : (ConfigBoolean.ofBool value).value = some value := by
  cases value <;> rfl

lemma setString_string (config : RawConfig) (o option : StringOption) (value : String) :
    (config.setString o value).string option =
      (if o = option then some value else none).or (config.string option) := by
  by_cases h : o = option
  · subst h
    simp [RawConfig.setString]
  · simp [RawConfig.setString, h, Function.update_of_ne (Ne.symm h)]

lemma setBoolean_boolean (config : RawConfig) (o option : BooleanOption) (value : ConfigBoolean) :
    (config.setBoolean o value).boolean option =
      if o = option then value else config.boolean option := by
  by_cases h : o = option
  · subst h
    simp [RawConfig.setBoolean]
  · simp [RawConfig.setBoolean, h, Function.update_of_ne (Ne.symm h)]

/-- An address that is read is one that is set. -/
lemma value_of_parseIpStr {net : Inet} {text : String} {port : UInt16} {address : SockAddr}
    (h : parseIpStr net text port = some address) :
    address.value = some address ∧ address.port = port := by
  rcases parseIpStr_cases h with ⟨a, rfl⟩ | ⟨a, rfl⟩
  · exact ⟨rfl, rfl⟩
  · exact ⟨rfl, rfl⟩

/-- An option of the command line that is accepted changes one setting and neither servers nor
zones; the address it stores has no port. -/
lemma parseGlobalOpt_cases {net : Inet} {config config' : RawConfig} {a : CommandLineOption}
    (h : parseGlobalOpt net config a = .ok config') :
    (∃ arg, a = .logLevel arg ∧ ¬ parseLogLevel arg < 0 ∧
      config' = { config with logLevel := parseLogLevel arg }) ∨
    (∃ option value, a = .boolean option value ∧
      config' = config.setBoolean option (.ofBool value)) ∨
    (∃ option arg, a = .string option arg ∧ config' = config.setString option arg) ∨
    (∃ arg address, a = .listenAddress arg ∧
      parseIpStr net arg config.listenAddress.port = some address ∧
      config' = { config with listenAddress := address }) ∨
    ((∃ accepted, a = .command accepted) ∧ config' = config) := by
  cases a with
  | logLevel arg =>
    simp only [parseGlobalOpt] at h
    split at h
    · cases h
    · rename_i hlevel
      exact Or.inl ⟨arg, rfl, hlevel, (Except.ok.inj h).symm⟩
  | boolean option value => exact Or.inr (Or.inl ⟨option, value, rfl, (Except.ok.inj h).symm⟩)
  | string option arg =>
    exact Or.inr (Or.inr (Or.inl ⟨option, arg, rfl, (Except.ok.inj h).symm⟩))
  | listenAddress arg =>
    simp only [parseGlobalOpt] at h
    split at h
    · cases h
    · rename_i address haddress
      exact Or.inr (Or.inr (Or.inr (Or.inl
        ⟨arg, address, rfl, haddress, (Except.ok.inj h).symm⟩)))
  | command accepted =>
    simp only [parseGlobalOpt] at h
    split at h
    · exact Or.inr (Or.inr (Or.inr (Or.inr ⟨⟨accepted, rfl⟩, (Except.ok.inj h).symm⟩)))
    · cases h

lemma neg_one_le_parseLogLevel (arg : String) : -1 ≤ parseLogLevel arg := by
  unfold parseLogLevel
  split_ifs <;> decide

/-- What parsing an option preserves: there are no servers and zones, the level is one or unset, and
the address has no port. -/
structure Unfilled (config : RawConfig) : Prop where
  staticServers : config.staticServers = []
  rpzZones : config.rpzZones = []
  logLevel : -1 ≤ config.logLevel
  port : config.listenAddress.port = 0

lemma unfilled_empty : Unfilled .empty :=
  ⟨rfl, rfl, by decide, rfl⟩

lemma Unfilled.parseGlobalOpt {net : Inet} {config config' : RawConfig} {a : CommandLineOption}
    (h : Unfilled config) (hstep : parseGlobalOpt net config a = .ok config') :
    Unfilled config' := by
  rcases parseGlobalOpt_cases hstep with ⟨arg, -, -, rfl⟩ | ⟨option, value, -, rfl⟩ |
    ⟨option, arg, -, rfl⟩ | ⟨arg, address, -, haddress, rfl⟩ | ⟨-, rfl⟩
  · exact ⟨h.staticServers, h.rpzZones, neg_one_le_parseLogLevel arg, h.port⟩
  · exact ⟨h.staticServers, h.rpzZones, h.logLevel, h.port⟩
  · exact ⟨h.staticServers, h.rpzZones, h.logLevel, h.port⟩
  · exact ⟨h.staticServers, h.rpzZones, h.logLevel,
      (value_of_parseIpStr haddress).2.trans h.port⟩
  · exact h

/-- What an accepted option of the command line leaves of the settings. -/
lemma settings_parseGlobalOpt {net : Inet} {config config' : RawConfig} {a : CommandLineOption}
    (h : Unfilled config) (hstep : parseGlobalOpt net config a = .ok config') :
    (∀ option, config'.settings.string option =
      (a.stringFor option).or (config.settings.string option)) ∧
    (∀ option, config'.settings.boolean option =
      (a.booleanFor option).or (config.settings.boolean option)) ∧
    config'.settings.listenAddress = (a.addressIn net).or config.settings.listenAddress ∧
    config'.settings.logLevel = a.levelIn.or config.settings.logLevel := by
  rcases parseGlobalOpt_cases hstep with ⟨arg, rfl, hlevel, rfl⟩ | ⟨o, value, rfl, rfl⟩ |
    ⟨o, arg, rfl, rfl⟩ | ⟨arg, address, rfl, haddress, rfl⟩ | ⟨⟨accepted, rfl⟩, rfl⟩
  · refine ⟨fun _ => rfl, fun _ => rfl, rfl, ?_⟩
    simp [RawConfig.settings, CommandLineOption.levelIn, levelValue, hlevel]
  · refine ⟨fun _ => rfl, fun option => ?_, rfl, rfl⟩
    simp only [RawConfig.settings, setBoolean_boolean, CommandLineOption.booleanFor]
    by_cases ho : o = option <;> simp [ho]
  · exact ⟨fun option => setString_string config o option arg, fun _ => rfl, rfl, rfl⟩
  · refine ⟨fun _ => rfl, fun _ => rfl, ?_, rfl⟩
    rw [h.port] at haddress
    simp [RawConfig.settings, CommandLineOption.addressIn, haddress,
      (value_of_parseIpStr haddress).1]
  · exact ⟨fun _ => rfl, fun _ => rfl, rfl, rfl⟩

/-- The command line is parsed into what it sets. -/
theorem settings_argpParse {net : Inet} {options : List CommandLineOption} {config : RawConfig}
    (h : argpParse net options .empty = .ok config) :
    config.settings = commandLineSettings net options ∧ Unfilled config := by
  have hP : ∀ c a c', Unfilled c → parseGlobalOpt net c a = .ok c' → Unfilled c' :=
    fun _ _ _ hc hstep => hc.parseGlobalOpt hstep
  have hstring : ∀ option, config.settings.string option =
      (lastSet (CommandLineOption.stringFor option) options).or none := fun option =>
    (lastSet_of_foldlM (g := fun c => c.settings.string option) hP
      (fun _ _ _ hc hstep => (settings_parseGlobalOpt hc hstep).1 option) unfilled_empty h).2
  have hboolean : ∀ option, config.settings.boolean option =
      (lastSet (CommandLineOption.booleanFor option) options).or none := fun option =>
    (lastSet_of_foldlM (g := fun c => c.settings.boolean option) hP
      (fun _ _ _ hc hstep => (settings_parseGlobalOpt hc hstep).2.1 option) unfilled_empty h).2
  have haddress : config.settings.listenAddress =
      (lastSet (CommandLineOption.addressIn net) options).or none :=
    (lastSet_of_foldlM (g := fun c => c.settings.listenAddress) hP
      (fun _ _ _ hc hstep => (settings_parseGlobalOpt hc hstep).2.2.1) unfilled_empty h).2
  have hlevel := lastSet_of_foldlM (g := fun c => c.settings.logLevel) hP
    (fun _ _ _ hc hstep => (settings_parseGlobalOpt hc hstep).2.2.2) unfilled_empty h
  refine ⟨Settings.ext (funext fun option => ?_) (funext fun option => ?_) ?_ ?_, hlevel.1⟩
  · exact (hstring option).trans Option.or_none
  · exact (hboolean option).trans Option.or_none
  · exact haddress.trans Option.or_none
  · exact hlevel.2.trans Option.or_none

/-- One row of the first table. -/
lemma storeStringVariable_eq (getenv : String → Option String) (config : RawConfig) (key : String)
    (o : StringOption) :
    storeStringVariable getenv config (key, o) =
      { config with
        string := Function.update config.string o ((getenv key).or (config.string o)) } := by
  unfold storeStringVariable
  cases getenv key with
  | none => simp
  | some value => rfl

/-- One row of the second table. -/
lemma storeBooleanVariable_eq (getenv : String → Option String) (config : RawConfig) (key : String)
    (o : BooleanOption) :
    storeBooleanVariable getenv config (key, o) =
      { config with
        boolean := Function.update config.boolean o
          (((getenv key).map parseBoolean).getD (config.boolean o)) } := by
  unfold storeBooleanVariable
  cases getenv key with
  | none => simp
  | some value => rfl

/-- The loop over the first table reads each option from its own variable. -/
lemma foldl_storeStringVariable (getenv : String → Option String) :
    stringOptions.foldl (storeStringVariable getenv) .empty =
      { RawConfig.empty with string := fun o => getenv o.variableName } := by
  simp only [stringOptions, List.foldl_cons, List.foldl_nil, storeStringVariable_eq]
  congr 1
  funext o
  cases o <;> simp [Function.update, StringOption.variableName, RawConfig.empty]

/-- The loop over the second table reads each option from its own variable. -/
lemma foldl_storeBooleanVariable (getenv : String → Option String) (config : RawConfig)
    (hunset : ∀ o, config.boolean o = .unset) :
    booleanOptions.foldl (storeBooleanVariable getenv) config =
      { config with boolean := fun o => ((getenv o.variableName).map parseBoolean).getD .unset } := by
  simp only [booleanOptions, List.foldl_cons, List.foldl_nil, storeBooleanVariable_eq]
  congr 1
  funext o
  cases o <;> simp [Function.update, BooleanOption.variableName, hunset]

/-- The variable with the log level, if it is accepted. -/
lemma parseLogLevelVariable_ok {getenv : String → Option String} {config config' : RawConfig}
    (hunset : config.logLevel = -1) (h : parseLogLevelVariable getenv config = .ok config') :
    ∃ level, config' = { config with logLevel := level } ∧ -1 ≤ level ∧
      levelValue level = (getenv "LOG_LEVEL").bind fun value => levelValue (parseLogLevel value) := by
  unfold parseLogLevelVariable at h
  cases hvalue : getenv "LOG_LEVEL" with
  | none =>
    rw [hvalue] at h
    refine ⟨-1, ?_, by decide, rfl⟩
    rw [← hunset]
    exact (Except.ok.inj h).symm
  | some value =>
    simp only [hvalue] at h
    split at h
    · cases h
    · exact ⟨parseLogLevel value, (Except.ok.inj h).symm, neg_one_le_parseLogLevel value, rfl⟩

/-- The variable with the address, if it is accepted. -/
lemma parseListenAddressVariable_ok {net : Inet} {getenv : String → Option String}
    {config config' : RawConfig} (hunset : config.listenAddress = .unspec)
    (h : parseListenAddressVariable net getenv config = .ok config') :
    ∃ address, config' = { config with listenAddress := address } ∧ address.port = 0 ∧
      address.value = (getenv "LISTEN_ADDRESS").bind fun value => parseIpStr net value 0 := by
  unfold parseListenAddressVariable at h
  cases hvalue : getenv "LISTEN_ADDRESS" with
  | none =>
    rw [hvalue] at h
    refine ⟨.unspec, ?_, rfl, rfl⟩
    rw [← hunset]
    exact (Except.ok.inj h).symm
  | some value =>
    simp only [hvalue, hunset, SockAddr.port] at h
    split at h
    · cases h
    · rename_i address haddress
      obtain ⟨hset, hport⟩ := value_of_parseIpStr haddress
      exact ⟨address, (Except.ok.inj h).symm, hport, by rw [hset, ← haddress]; rfl⟩

/-- The environment is parsed into what it sets. -/
theorem settings_parseEnvironmentVariables {net : Inet} {getenv : String → Option String}
    {config : RawConfig} (h : parseEnvironmentVariables net getenv .empty = .ok config) :
    config.settings = environmentSettings net getenv ∧ Unfilled config := by
  have hboolean : ∀ v : Option String,
      ((v.map parseBoolean).getD .unset).value = v.map isAffirmative := by
    intro v
    cases v with
    | none => rfl
    | some value => simp
  simp only [parseEnvironmentVariables, foldl_storeStringVariable,
    foldl_storeBooleanVariable getenv { RawConfig.empty with
      string := fun o => getenv o.variableName } fun _ => rfl] at h
  -- the two tables are read; what is left are the level and the address
  obtain ⟨config₁, hlevel, haddress⟩ := ok_of_bind h
  obtain ⟨level, rfl, hmin, hlevel⟩ := parseLogLevelVariable_ok rfl hlevel
  obtain ⟨address, rfl, hport, haddress⟩ := parseListenAddressVariable_ok rfl haddress
  refine ⟨Settings.ext rfl (funext fun o => ?_) ?_ ?_, ⟨rfl, rfl, hmin, hport⟩⟩
  · exact hboolean _
  · exact haddress
  · exact hlevel

/-! ## What a file sets -/

open ConfigFile in
/-- The text that an entry of a file gives to a key. -/
def entryFor (key : Option String) : ConfigEntry → Option String
  | .option k value => if key = some k then some value else none
  | .staticServers _ => none

open ConfigFile in
/-- What a file sets that is a document: every option by its last line.  A level that is not known
sets nothing. -/
def documentSettings (net : Inet) (entries : List ConfigEntry) : Settings where
  string o := lastSet (entryFor (stringKey o)) entries
  boolean o := lastSet (fun e => (entryFor (some (booleanKey o)) e).map isAffirmative) entries
  listenAddress := lastSet (fun e => (entryFor (some "listen_address") e).bind fun value =>
    parseIpStr net value 0) entries
  logLevel := (lastSet (fun e => (entryFor (some "log_level") e).map fun value =>
    levelValue (parseLogLevel value)) entries).join

open ConfigFile in
lemma entryFor_of_ne {key : Option String} {k : String} (h : key ≠ some k) (value : String) :
    entryFor key (.option k value) = none :=
  if_neg h

open ConfigFile in
/-- Options have keys of their own. -/
lemma booleanKey_inj {a b : BooleanOption} : some (booleanKey a) = some (booleanKey b) ↔ b = a := by
  cases a <;> cases b <;> decide

open ConfigFile in
lemma stringKey_inj {a b : StringOption} {key : String} (h : stringKey b = some key) :
    stringKey a = some key ↔ b = a := by
  rw [← h]
  cases b with
  | configFile => cases h
  | _ => cases a <;> decide

namespace ConfigFile

/-- The text that is given to a key by a setting. -/
def settingFor (key : String) (setting : String × String) : Option String :=
  if key = setting.1 then some setting.2 else none

/-- The options of a configuration behind those of another one, where `text` says what the keys have
been set to in between. -/
structure OptionsSet (net : Inet) (text : String → Option String) (config result : RawConfig) :
    Prop where
  string : ∀ option, result.string option = ((stringKey option).bind text).or (config.string option)
  boolean : ∀ option, result.boolean option =
    ((text (booleanKey option)).map parseBoolean).getD (config.boolean option)
  logLevel : result.logLevel = ((text "log_level").map parseLogLevel).getD config.logLevel
  listenAddress : (text "listen_address" = none ∧ result.listenAddress = config.listenAddress) ∨
    ∃ value, text "listen_address" = some value ∧
      parseIpStr net value config.listenAddress.port = some result.listenAddress

section OptionsSet

variable {net : Inet} {text text' : String → Option String} {config config₁ result : RawConfig}

lemma OptionsSet.of_none (htext : ∀ key, text key = none) (hstring : result.string = config.string)
    (hboolean : result.boolean = config.boolean) (hlevel : result.logLevel = config.logLevel)
    (haddress : result.listenAddress = config.listenAddress) : OptionsSet net text config result where
  string option := by
    rw [hstring]
    cases stringKey option with
    | none => rfl
    | some key => rw [Option.bind_some, htext, Option.none_or]
  boolean option := by rw [htext, hboolean]; rfl
  logLevel := by rw [htext, hlevel]; rfl
  listenAddress := Or.inl ⟨htext _, haddress⟩

/-- The port of the address is that of the address before. -/
lemma OptionsSet.port (h : OptionsSet net text config result) :
    result.listenAddress.port = config.listenAddress.port := by
  rcases h.listenAddress with ⟨-, hsame⟩ | ⟨value, -, hparse⟩
  · rw [hsame]
  · rcases parseIpStr_cases hparse with ⟨a, ha⟩ | ⟨a, ha⟩ <;> rw [ha] <;> rfl

/-- What is set later wins. -/
lemma OptionsSet.trans (h : OptionsSet net text config config₁)
    (h' : OptionsSet net text' config₁ result) :
    OptionsSet net (fun key => (text' key).or (text key)) config result where
  string option := by
    rw [h'.string, h.string]
    cases stringKey option with
    | none => rfl
    | some key => rw [Option.bind_some, Option.bind_some, Option.bind_some, Option.or_assoc]
  boolean option := by
    rw [h'.boolean, h.boolean]
    cases text' (booleanKey option) <;> rfl
  logLevel := by
    rw [h'.logLevel, h.logLevel]
    cases text' "log_level" <;> rfl
  listenAddress := by
    rcases h'.listenAddress with ⟨hnone, hsame⟩ | ⟨value, hsome, hparse⟩
    · rw [hnone, hsame, Option.none_or]
      exact h.listenAddress
    · rw [h.port] at hparse
      exact Or.inr ⟨value, by rw [hsome, Option.some_or], hparse⟩

lemma OptionsSet.congr (h : OptionsSet net text config result) (htext : ∀ key, text key = text' key) :
    OptionsSet net text' config result :=
  (funext htext : text = text') ▸ h

/-- Storing an option sets it, and nothing else. -/
lemma optionsSet_storeOption {key value : String} {s s' : FileState}
    (h : storeOption net key value s = .ok s') :
    OptionsSet net (fun k => settingFor k (key, value)) s.config s'.config := by
  have hother : ∀ {k : String}, k ≠ key → settingFor k (key, value) = none := fun hk => if_neg hk
  -- another key than that of the option leaves its value alone
  have hkept : ∀ {α : Type} {k : String} (f : String → α) (d : α), k ≠ key →
      d = ((settingFor k (key, value)).map f).getD d := by
    intro α k f d hk
    rw [hother hk]
    rfl
  have hstring : ∀ (o : StringOption) (d : Option String), stringKey o ≠ some key →
      d = ((stringKey o).bind fun k => settingFor k (key, value)).or d := by
    intro o d hne
    cases ho : stringKey o with
    | none => rfl
    | some k =>
      have hk : k ≠ key := fun hsame => hne (ho.trans (congrArg some hsame))
      rw [Option.bind_some, hother hk, Option.none_or]
  rcases storeOption_cases h with ⟨rfl, rfl⟩ | ⟨b, rfl, rfl⟩ | ⟨rfl, address, haddress, rfl⟩ |
    ⟨rfl, rfl⟩ | ⟨o, hkey, rfl⟩
  · exact ⟨fun o => hstring o _ (by cases o <;> decide), fun o => hkept _ _ (by cases o <;> decide),
      rfl, Or.inl ⟨hother (by decide), rfl⟩⟩
  · refine ⟨fun o => hstring o _ (by cases o <;> cases b <;> decide), fun o => ?_,
      hkept _ _ (by cases b <;> decide), Or.inl ⟨hother (by cases b <;> decide), rfl⟩⟩
    rw [setBoolean_boolean, settingFor]
    by_cases ho : b = o
    · rw [ho, if_pos rfl, if_pos rfl]
      rfl
    · rw [if_neg ho, if_neg fun hsame => ho (booleanKey_inj.mp (congrArg some hsame))]
      rfl
  · exact ⟨fun o => hstring o _ (by cases o <;> decide), fun o => hkept _ _ (by cases o <;> decide),
      hkept _ _ (by decide), Or.inr ⟨value, if_pos rfl, haddress⟩⟩
  · exact ⟨fun o => hstring o _ (by cases o <;> decide), fun o => hkept _ _ (by cases o <;> decide),
      hkept _ _ (by decide), Or.inl ⟨hother (by decide), rfl⟩⟩
  · have hne : ∀ {k}, stringKey o ≠ some k → k ≠ key := fun hk hsame => hk (hsame ▸ hkey)
    refine ⟨fun o' => ?_, fun b => hkept _ _ (hne (by cases o <;> cases b <;> decide)),
      hkept _ _ (hne (by cases o <;> decide)), Or.inl ⟨hother (hne (by cases o <;> decide)), rfl⟩⟩
    rw [setString_string]
    by_cases ho : o = o'
    · rw [← ho, hkey, Option.bind_some, settingFor, if_pos rfl, if_pos rfl, Option.some_or]
    · rw [if_neg ho]
      exact hstring o' _ fun hkey' => ho ((stringKey_inj hkey).mp hkey')

end OptionsSet

end ConfigFile

open ConfigFile in
lemma entryFor_option (key : Option String) (k value : String) :
    entryFor key (.option k value) = key.bind fun key => settingFor key (k, value) := by
  cases key with
  | none => rfl
  | some key => simp only [entryFor, settingFor, Option.some.injEq, Option.bind_some]

open ConfigFile in
/-- What storing an entry leaves of the settings; the address and the level are described by the
texts they come from. -/
lemma settings_storeEntry {net : Inet} {s s' : FileState} {entry : ConfigEntry}
    (hport : s.config.listenAddress.port = 0) (h : storeEntry net s entry = .ok s') :
    s'.config.listenAddress.port = 0 ∧
    (∀ o, s'.config.settings.string o =
      (entryFor (stringKey o) entry).or (s.config.settings.string o)) ∧
    (∀ o, s'.config.settings.boolean o =
      ((entryFor (some (booleanKey o)) entry).map isAffirmative).or
        (s.config.settings.boolean o)) ∧
    s'.config.settings.listenAddress =
      ((entryFor (some "listen_address") entry).bind fun value => parseIpStr net value 0).or
        s.config.settings.listenAddress ∧
    some s'.config.settings.logLevel =
      ((entryFor (some "log_level") entry).map fun value => levelValue (parseLogLevel value)).or
        (some s.config.settings.logLevel) := by
  cases entry with
  | staticServers servers =>
    simp only [storeEntry] at h
    split at h
    · cases h
    · cases h
      exact ⟨hport, fun _ => rfl, fun _ => rfl, rfl, rfl⟩
  | option key value =>
    have hset := optionsSet_storeOption h
    simp only [entryFor_option, Option.bind_some, RawConfig.settings]
    refine ⟨hset.port.trans hport, hset.string, fun o => ?_, ?_, ?_⟩
    · rw [hset.boolean]
      cases settingFor (booleanKey o) (key, value) <;> simp
    · rcases hset.listenAddress with ⟨hnone, hsame⟩ | ⟨text, hsome, hparse⟩
      · rw [hnone, hsame, Option.bind_none, Option.none_or]
      · rw [hport] at hparse
        rw [hsome, Option.bind_some, hparse, Option.some_or]
        exact (value_of_parseIpStr hparse).1
    · rw [hset.logLevel]
      cases settingFor "log_level" (key, value) <;> rfl

open ConfigFile in
/-- A file that is a document and includes no other sets what its lines say. -/
theorem settings_of_document {net : Inet} {files : Files} {path : String}
    {entries : List ConfigEntry} {file : RawConfig}
    (hevents : files.events path = some (documentEvents entries))
    (hinclude : ∀ value, .option "include" value ∉ entries)
    (h : parseConfigFile net files path .empty = some (.ok file)) :
    file.settings = documentSettings net entries := by
  rw [parseConfigFile_document hevents hinclude] at h
  cases hfold : entries.foldlM (storeEntry net) ⟨.empty, [], none, 1⟩ with
  | error error => rw [hfold] at h; cases h
  | ok s =>
    rw [hfold] at h
    obtain rfl : s.config = file := Except.ok.inj (Option.some.inj h)
    have hP : ∀ s entry s', s.config.listenAddress.port = 0 → storeEntry net s entry = .ok s' →
        s'.config.listenAddress.port = 0 :=
      fun _ _ _ hs hstep => (settings_storeEntry hs hstep).1
    have hstring : ∀ o, s.config.settings.string o =
        (lastSet (entryFor (stringKey o)) entries).or none := fun o =>
      (lastSet_of_foldlM (g := fun s => s.config.settings.string o) hP
        (fun _ _ _ hs hstep => (settings_storeEntry hs hstep).2.1 o) rfl hfold).2
    have hboolean : ∀ o, s.config.settings.boolean o = (lastSet (fun e =>
        (entryFor (some (booleanKey o)) e).map isAffirmative) entries).or none := fun o =>
      (lastSet_of_foldlM (g := fun s => s.config.settings.boolean o) hP
        (fun _ _ _ hs hstep => (settings_storeEntry hs hstep).2.2.1 o) rfl hfold).2
    have haddress : s.config.settings.listenAddress = (lastSet (fun e =>
        (entryFor (some "listen_address") e).bind fun value => parseIpStr net value 0)
        entries).or none :=
      (lastSet_of_foldlM (g := fun s => s.config.settings.listenAddress) hP
        (fun _ _ _ hs hstep => (settings_storeEntry hs hstep).2.2.2.1) rfl hfold).2
    have hlevel : some s.config.settings.logLevel = (lastSet (fun e =>
        (entryFor (some "log_level") e).map fun value => levelValue (parseLogLevel value))
        entries).or (some none) :=
      (lastSet_of_foldlM (g := fun s => some s.config.settings.logLevel) hP
        (fun _ _ _ hs hstep => (settings_storeEntry hs hstep).2.2.2.2) rfl hfold).2
    refine Settings.ext (funext fun o => ?_) (funext fun o => ?_) ?_ ?_
    · exact (hstring o).trans Option.or_none
    · exact (hboolean o).trans Option.or_none
    · exact haddress.trans Option.or_none
    · simp only [documentSettings]
      cases hlast : lastSet (fun e => (entryFor (some "log_level") e).map fun value =>
          levelValue (parseLogLevel value)) entries with
      | none =>
        rw [hlast] at hlevel
        exact Option.some.inj hlevel
      | some level =>
        rw [hlast] at hlevel
        exact Option.some.inj hlevel

/-! ## Precedence -/

/-- The defaults go to the options that no source has set. -/
lemma settings_withDefaults {net : Inet} {config : RawConfig}
    (hnet : net.pton4 "127.0.0.1" = some #v[127, 0, 0, 1])
    (hfile : config.string .configFile ≠ none) :
    (config.withDefaults net).settings = config.settings.or documentedDefaults := by
  refine Settings.ext (funext fun o => ?_) (funext fun o => ?_) ?_ ?_
  · obtain ⟨path, hpath⟩ := Option.ne_none_iff_exists'.mp hfile
    cases o with
    | fileLog => exact (Option.or_none).symm
    | configFile =>
      change config.string .configFile = (config.string .configFile).or _
      rw [hpath]
      rfl
    | resolvConfPath =>
      change some ((config.string .resolvConfPath).getD _) = (config.string .resolvConfPath).or _
      cases config.string .resolvConfPath <;> rfl
    | resolverOptions =>
      change some ((config.string .resolverOptions).getD _) = (config.string .resolverOptions).or _
      cases config.string .resolverOptions <;> rfl
    | certificationAuthority =>
      change some ((config.string .certificationAuthority).getD _) =
        (config.string .certificationAuthority).or _
      cases config.string .certificationAuthority <;> rfl
  · have hvalue : ∀ (b : ConfigBoolean) (value : Bool),
        (if b = .unset then ConfigBoolean.ofBool value else b).value = b.value.or (some value) := by
      intro b value
      cases b <;> cases value <;> rfl
    cases o with
    | stderrLog => exact hvalue _ true
    | syslogLog => exact hvalue _ false
    | prioritizeWire => exact hvalue _ true
    | dnssecEnabled => exact hvalue _ false
  · change SockAddr.value (if config.listenAddress = .unspec then _ else config.listenAddress) =
      config.listenAddress.value.or _
    rw [hnet]
    cases config.listenAddress <;> rfl
  · change levelValue (if config.logLevel < 0 then 6 else config.logLevel) =
      (levelValue config.logLevel).or _
    by_cases h : config.logLevel < 0
    · simp [levelValue, h, documentedDefaults]
    · simp [levelValue, h]

/-- What the two outer sources set. -/
def outerSettings (net : Inet) (getenv : String → Option String)
    (options : List CommandLineOption) : Settings :=
  (commandLineSettings net options).or (environmentSettings net getenv)

/-- The file that is read. -/
def configFilePath (net : Inet) (getenv : String → Option String)
    (options : List CommandLineOption) : String :=
  ((outerSettings net getenv options).string .configFile).getD "/etc/dnsconfd/dnsconfd.conf"

/-- The path of the file is a setting as well, with its default. -/
def pathSettings (net : Inet) (getenv : String → Option String)
    (options : List CommandLineOption) : Settings where
  string option := if option = .configFile then configFilePath net getenv options else none
  boolean _ := none
  listenAddress := none
  logLevel := none

/-- The command line and the environment give what they set, and the path of the file. -/
lemma parseOuterSources_ok {net : Inet} {getenv : String → Option String}
    {options : List CommandLineOption} {config : RawConfig}
    (h : parseOuterSources net getenv options = .ok config) :
    config.settings =
        (pathSettings net getenv options).or (outerSettings net getenv options) ∧
      config.staticServers = [] ∧ config.rpzZones = [] := by
  obtain ⟨commandLine, hcommandLine, h⟩ := ok_of_bind h
  obtain ⟨environment, henvironment, h⟩ := ok_of_bind h
  obtain rfl := Except.ok.inj h
  obtain ⟨hset₁, hempty₁⟩ := settings_argpParse hcommandLine
  obtain ⟨hset₂, hempty₂⟩ := settings_parseEnvironmentVariables henvironment
  have hmerge : (mergeConfigs commandLine environment).settings =
      outerSettings net getenv options := by
    rw [settings_mergeConfigs, hset₁, hset₂, outerSettings]
  refine ⟨?_, ?_, ?_⟩
  · have hstring : ∀ o, ((mergeConfigs commandLine environment).defaultString .configFile
        "/etc/dnsconfd/dnsconfd.conf").settings.string o =
        ((pathSettings net getenv options).string o).or
          ((mergeConfigs commandLine environment).settings.string o) := by
      intro o
      by_cases ho : o = .configFile
      · subst ho
        simp only [pathSettings, if_pos, configFilePath, Option.some_or, ← hmerge]
        rfl
      · simp only [pathSettings, if_neg ho, Option.none_or]
        exact Function.update_of_ne ho _ _
    rw [← hmerge]
    exact Settings.ext (funext hstring) rfl rfl rfl
  · simp [RawConfig.defaultString, mergeConfigs, hempty₁.staticServers, hempty₂.staticServers]
  · simp [RawConfig.defaultString, mergeConfigs, hempty₁.rpzZones, hempty₂.rpzZones]

/-- A file that does not set its own path does not feel that the path has been filled in early. -/
lemma or_pathSettings {net : Inet} {getenv : String → Option String}
    {options : List CommandLineOption} {file : Settings} (h : file.string .configFile = none) :
    (((pathSettings net getenv options).or (outerSettings net getenv options)).or file).or
        documentedDefaults =
      ((outerSettings net getenv options).or file).or documentedDefaults := by
  refine Settings.ext (funext fun o => ?_) rfl rfl rfl
  by_cases ho : o = .configFile
  · subst ho
    simp only [Settings.or, pathSettings, if_pos, Option.some_or, h, Option.or_none]
    rw [configFilePath]
    cases (outerSettings net getenv options).string .configFile <;> rfl
  · simp only [Settings.or, pathSettings, if_neg ho, Option.none_or]

open ConfigFile in
/-- An accepted configuration consists of what its three sources set and of the defaults. -/
lemma parseConfiguration_ok {net : Inet} {files : Files} {getenv : String → Option String}
    {options : List CommandLineOption} {result : RawConfig}
    (h : parseConfiguration net files getenv options = some (.ok result)) :
    ∃ config file, parseOuterSources net getenv options = .ok config ∧
      config.string .configFile = some (configFilePath net getenv options) ∧
      parseConfigFile net files (configFilePath net getenv options) .empty = some (.ok file) ∧
      result = (mergeConfigs config file).withDefaults net := by
  unfold parseConfiguration at h
  cases houter : parseOuterSources net getenv options with
  | error error => rw [houter] at h; cases h
  | ok config =>
    have hpath : config.string .configFile = some (configFilePath net getenv options) :=
      congrArg (fun settings => settings.string .configFile) (parseOuterSources_ok houter).1
    simp only [houter, hpath, Option.getD_some] at h
    split at h
    · cases h
    · cases h
    · rename_i file hfile
      exact ⟨config, file, rfl, hpath, hfile, (Except.ok.inj (Option.some.inj h)).symm⟩

/-- Servers and zones come from the file alone. -/
lemma lists_of_parseConfiguration {net : Inet} {getenv : String → Option String}
    {options : List CommandLineOption} {config : RawConfig}
    (houter : parseOuterSources net getenv options = .ok config) (file : RawConfig) :
    ((mergeConfigs config file).withDefaults net).staticServers = file.staticServers ∧
      ((mergeConfigs config file).withDefaults net).rpzZones = file.rpzZones := by
  obtain ⟨-, hservers, hzones⟩ := parseOuterSources_ok houter
  constructor
  · change (if config.staticServers = [] then file.staticServers else config.staticServers) = _
    rw [if_pos hservers]
  · change (if config.rpzZones = [] then file.rpzZones else config.rpzZones) = _
    rw [if_pos hzones]

/-- With the defaults there is an address to listen on. -/
lemma isIp_listenAddress_withDefaults {net : Inet} {address : Vector UInt8 4}
    (hnet : net.pton4 "127.0.0.1" = some address) (config : RawConfig) :
    (config.withDefaults net).listenAddress.isIp = true := by
  change SockAddr.isIp (if config.listenAddress = .unspec then _ else config.listenAddress) = true
  rw [hnet]
  cases config.listenAddress <;> rfl

open ConfigFile in
/-- Precedence of the sources.  Whenever a configuration is accepted, each of its options has the
value that the first of command line, environment and configuration file sets, or else the
documented default; the file is the one that command line or environment name, does not set its own
path, and gives servers and zones.  Options do not influence each other, and a file that is a
document sets what its lines say.  `merge_configs` itself is a left-biased and associative merge,
for which a configuration with nothing set is neutral. -/
theorem parseConfiguration_precedence (net : Inet)
    (hnet : net.pton4 "127.0.0.1" = some #v[127, 0, 0, 1]) :
    (∀ files getenv options result,
      parseConfiguration net files getenv options = some (.ok result) →
      ∃ file, parseConfigFile net files (configFilePath net getenv options) .empty =
          some (.ok file) ∧
        result.settings =
          (((commandLineSettings net options).or (environmentSettings net getenv)).or
            file.settings).or documentedDefaults ∧
        file.settings.string .configFile = none ∧
        result.staticServers = file.staticServers ∧ result.rpzZones = file.rpzZones ∧
        ∀ entries,
          files.events (configFilePath net getenv options) = some (documentEvents entries) →
          (∀ value, .option "include" value ∉ entries) →
          file.settings = documentSettings net entries) ∧
    (∀ a b, (mergeConfigs a b).settings = a.settings.or b.settings) ∧
    (∀ a b c, mergeConfigs (mergeConfigs a b) c = mergeConfigs a (mergeConfigs b c)) ∧
    (∀ a, mergeConfigs .empty a = a) ∧
    ∀ a : RawConfig, -1 ≤ a.logLevel → mergeConfigs a .empty = a := by
  refine ⟨?_, settings_mergeConfigs, mergeConfigs_assoc, mergeConfigs_empty_left,
    fun a ha => mergeConfigs_empty_right ha⟩
  intro files getenv options result h
  obtain ⟨config, file, houter, hpath, hfile, rfl⟩ := parseConfiguration_ok h
  have hset := (parseOuterSources_ok houter).1
  obtain ⟨hstatic, hzones⟩ := lists_of_parseConfiguration houter file
  have hown : file.string .configFile = none := configFile_of_parseConfigFile rfl hfile
  have hfilled : (mergeConfigs config file).string .configFile ≠ none := by
    simp [mergeConfigs, hpath]
  refine ⟨file, hfile, ?_, hown, hstatic, hzones, ?_⟩
  · rw [settings_withDefaults hnet hfilled, settings_mergeConfigs, hset, or_pathSettings hown,
      outerSettings]
  · intro entries hevents hinclude
    exact settings_of_document hevents hinclude hfile

/-- A converter of addresses that knows the loopback address only. -/
def Inet.loopback : Inet where
  pton4 text := if text = "127.0.0.1" then some loopbackAddress else none
  ntop4 _ := "127.0.0.1"
  pton6 _ := none
  ntop6 _ := "::"

open ConfigFile in
/-- Files with the default configuration file alone. -/
def ConfigFile.Files.single (entries : List ConfigEntry) : Files where
  events path :=
    if path = "/etc/dnsconfd/dnsconfd.conf" then some (documentEvents entries) else none
  stat _ := none
  glob _ := .noMatch

/-- The file asks for `ndots:2` and no messages on the standard error, the environment for such
messages and the command line for validation: each option comes from its own source. -/
theorem parseConfiguration_precedence_single :
    ∃ result, parseConfiguration .loopback
        (.single [.option "resolver_options" "ndots:2", .option "stderr_log" "no"])
        (fun name => if name = "STDERR_LOG" then some "yes" else none)
        [.boolean .dnssecEnabled true] = some (.ok result) ∧
      result.settings.boolean .stderrLog = some true ∧
      result.settings.boolean .dnssecEnabled = some true ∧
      result.settings.string .resolverOptions = some "ndots:2" ∧
      result.settings.string .resolvConfPath = some "/etc/resolv.conf" := by
  obtain ⟨result, hresult⟩ : ∃ result, parseConfiguration .loopback
      (.single [.option "resolver_options" "ndots:2", .option "stderr_log" "no"])
      (fun name => if name = "STDERR_LOG" then some "yes" else none)
      [.boolean .dnssecEnabled true] = some (.ok result) := ⟨_, rfl⟩
  obtain ⟨file, hfile, hset, -, -, -, hdocument⟩ :=
    (parseConfiguration_precedence .loopback rfl).1 _ _ _ _ hresult
  refine ⟨result, hresult, ?_⟩
  rw [hset, hdocument _ rfl (by simp)]
  decide

end Dnsconfd
