import Dnsconfd.Types
import Mathlib.Logic.Function.Basic

/-!
# Configurations under construction

`dnsconfd_config_t` as the three sources of the configuration fill it in: the command line, the
environment and the configuration file.  Every option has a value that says that it is not set:
`NULL` for a text, `CONFIG_BOOLEAN_UNSET` for a boolean, a negative number for the log level and no
address family for the address.  The options of one kind are handled alike everywhere, so they are
kept as a function of the option.

`merge_configs` fills the gaps of one configuration from another.  What that is meant to be is said
by `Settings`: a source sets some options and leaves others alone, and the first of two sources wins
option by option.  `settings_mergeConfigs` is the refinement: read through their encodings, merged
configurations are merged settings.
-/

namespace Dnsconfd

/-- The options whose value is a text. -/
inductive StringOption where
  | fileLog
  | resolvConfPath
  | resolverOptions
  | configFile
  | certificationAuthority
deriving DecidableEq

/-- The options whose value is a boolean. -/
inductive BooleanOption where
  | stderrLog
  | syslogLog
  | prioritizeWire
  | dnssecEnabled
deriving DecidableEq

/-- `config_boolean_t`. -/
inductive ConfigBoolean where
  | unset
  | true
  | false
deriving DecidableEq

/-- `dnsconfd_config_t`, without the command and its options. -/
@[ext] structure RawConfig where
  string : StringOption → Option String
  boolean : BooleanOption → ConfigBoolean
  staticServers : List ServerUri
  rpzZones : List RpzZone
  listenAddress : SockAddr
  logLevel : Int8

/-- A configuration in which nothing is set. -/
def RawConfig.empty : RawConfig where
  string := fun _ => none
  boolean := fun _ => .unset
  staticServers := []
  rpzZones := []
  listenAddress := .unspec
  logLevel := -1

/-- Set an option whose value is a text. -/
def RawConfig.setString (config : RawConfig) (option : StringOption) (value : String) : RawConfig :=
  { config with string := Function.update config.string option (some value) }

/-- Set an option whose value is a boolean. -/
def RawConfig.setBoolean (config : RawConfig) (option : BooleanOption) (value : ConfigBoolean) :
    RawConfig :=
  { config with boolean := Function.update config.boolean option value }

/-- `parse_boolean`. -/
def parseBoolean (str : String) : ConfigBoolean :=
  if str = "yes" ∨ str = "1" then .true else .false

/-- `strcasecmp`, as the test for equality. -/
def sameIgnoringCase (a b : String) : Bool :=
  a.toList.map Char.toLower = b.toList.map Char.toLower

/-- `parse_log_level`: the levels of syslog, or -1. -/
def parseLogLevel (arg : String) : Int8 :=
  if sameIgnoringCase arg "debug" then 7
  else if sameIgnoringCase arg "info" then 6
  else if sameIgnoringCase arg "notice" then 5
  else if sameIgnoringCase arg "warning" then 4
  else if sameIgnoringCase arg "err" || sameIgnoringCase arg "error" then 3
  else if sameIgnoringCase arg "crit" then 2
  else if sameIgnoringCase arg "alert" then 1
  else if sameIgnoringCase arg "emerg" then 0
  else -1

/-- The part of a complete configuration that the daemon reads. -/
def RawConfig.toConfig (config : RawConfig) : Config where
  resolverOptions := config.string .resolverOptions
  certificationAuthority := (config.string .certificationAuthority).getD ""
  staticServers := config.staticServers
  rpzZones := config.rpzZones
  listenAddress := config.listenAddress
  dnssecEnabled := config.boolean .dnssecEnabled = .true

/-! ## Merging -/

/-- `merge_configs`: what the first configuration does not set is taken from the second. -/
def mergeConfigs (highPrio lowPrio : RawConfig) : RawConfig where
  string option :=
    match highPrio.string option with
    | none => lowPrio.string option
    | some value => some value
  boolean option :=
    if highPrio.boolean option = .unset then lowPrio.boolean option else highPrio.boolean option
  staticServers := if highPrio.staticServers = [] then lowPrio.staticServers else highPrio.staticServers
  rpzZones := if highPrio.rpzZones = [] then lowPrio.rpzZones else highPrio.rpzZones
  listenAddress :=
    if highPrio.listenAddress = .unspec then lowPrio.listenAddress else highPrio.listenAddress
  logLevel := if highPrio.logLevel < 0 then lowPrio.logLevel else highPrio.logLevel

/-- Merging is associative. -/
theorem mergeConfigs_assoc (a b c : RawConfig) :
    mergeConfigs (mergeConfigs a b) c = mergeConfigs a (mergeConfigs b c) := by
  ext1
  · funext option
    simp only [mergeConfigs]
    cases a.string option <;> rfl
  · funext option
    simp only [mergeConfigs]
    by_cases h : a.boolean option = .unset <;> simp [h]
  · simp only [mergeConfigs]
    by_cases h : a.staticServers = [] <;> simp [h]
  · simp only [mergeConfigs]
    by_cases h : a.rpzZones = [] <;> simp [h]
  · simp only [mergeConfigs]
    by_cases h : a.listenAddress = .unspec <;> simp [h]
  · simp only [mergeConfigs]
    by_cases h : a.logLevel < 0 <;> simp [h]

/-- The configuration in which nothing is set takes everything from the other one. -/
theorem mergeConfigs_empty_left (a : RawConfig) : mergeConfigs .empty a = a := by
  rfl

/-- The configuration in which nothing is set adds nothing; of the negative levels only -1 is ever
stored. -/
theorem mergeConfigs_empty_right {a : RawConfig} (h : -1 ≤ a.logLevel) :
    mergeConfigs a .empty = a := by
  ext1
  · funext option
    simp only [mergeConfigs, RawConfig.empty]
    cases a.string option <;> rfl
  · funext option
    simp only [mergeConfigs, RawConfig.empty]
    split <;> simp_all
  · simp only [mergeConfigs, RawConfig.empty]
    split <;> simp_all
  · simp only [mergeConfigs, RawConfig.empty]
    split <;> simp_all
  · simp only [mergeConfigs, RawConfig.empty]
    split <;> simp_all
  · simp only [mergeConfigs, RawConfig.empty]
    split
    · rename_i hneg
      rw [Int8.le_iff_toInt_le] at h
      rw [Int8.lt_iff_toInt_lt] at hneg
      rw [← Int8.toInt_inj]
      simp only [Int8.reduceToInt, Int8.toInt_zero] at h hneg ⊢
      omega
    · rfl

/-! ## Settings -/

/-- What a source of the configuration sets, without encodings. -/
@[ext] structure Settings where
  string : StringOption → Option String
  boolean : BooleanOption → Option Bool
  listenAddress : Option SockAddr
  logLevel : Option Int8

/-- Option by option the first source that sets it. -/
def Settings.or (first second : Settings) : Settings where
  string option := (first.string option).or (second.string option)
  boolean option := (first.boolean option).or (second.boolean option)
  listenAddress := first.listenAddress.or second.listenAddress
  logLevel := first.logLevel.or second.logLevel

/-- The value of a boolean option that is set. -/
def ConfigBoolean.value : ConfigBoolean → Option Bool
  | unset => none
  | true => some Bool.true
  | false => some Bool.false

/-- The address that is set. -/
def SockAddr.value : SockAddr → Option SockAddr
  | unspec => none
  | address => some address

/-- The level that is set. -/
def levelValue (level : Int8) : Option Int8 :=
  if level < 0 then none else some level

/-- What a configuration sets. -/
def RawConfig.settings (config : RawConfig) : Settings where
  string := config.string
  boolean option := (config.boolean option).value
  listenAddress := config.listenAddress.value
  logLevel := levelValue config.logLevel

/-- `merge_configs` gives precedence to the settings of the first configuration. -/
theorem settings_mergeConfigs (a b : RawConfig) :
    (mergeConfigs a b).settings = a.settings.or b.settings := by
  ext1
  · funext option
    simp only [RawConfig.settings, mergeConfigs, Settings.or]
    cases a.string option <;> rfl
  · funext option
    simp only [RawConfig.settings, mergeConfigs, Settings.or]
    cases a.boolean option <;> rfl
  · simp only [RawConfig.settings, mergeConfigs, Settings.or]
    cases a.listenAddress <;> rfl
  · simp only [RawConfig.settings, mergeConfigs, Settings.or, levelValue]
    by_cases h : a.logLevel < 0 <;> simp [h]

end Dnsconfd
