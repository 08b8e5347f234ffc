import Dnsconfd.ConfigurationParsing.GlobalOptions
import Dnsconfd.DbusServer.Daemon
import Dnsconfd.DbusServer.Duplicates

/-!
# Wireless interfaces and the option about them

According to its manual page the daemon lowers the priority of servers on wireless interfaces if the
option `prioritize_wire` is set.  The option is parsed, merged and given a default, but
`handle_update_call` never reads it: the priority is lowered whatever the option says.

What the option asks for is said by `Demoted` for one server, and by `ObeysOption` for two runs
that differ in nothing but the interfaces that are wireless: every Update is stored as asked for, and
without the option the two runs are one.  This is so exactly if the option is set or no server can be
lowered (`wireless_demotion_iff`).
-/

namespace Dnsconfd

open Library

/-! ## What the option asks for -/

/-- How a server of an Update call is to be stored: its priority is lowered by 10, but not below the
least `int`, if the option is set and the interface is wireless.  Nothing else changes. -/
structure Demoted (config : RawConfig) (isWireless : String → Bool) (given stored : ServerUri) :
    Prop where
  others : { stored with priority := given.priority } = given
  priority : stored.priority.toInt =
    if config.boolean .prioritizeWire = .true ∧ isWireless given.interface = true then
      max (given.priority.toInt - 10) Int32.minValue.toInt
    else given.priority.toInt

/-- The servers of an Update call as they are given, without those that are dropped because their
address is on another interface already.  A call that is rejected has none. -/
def givenServers (p : Platform) : DaemonEvent → List ServerUri
  | .updateCall servers mode =>
    match Mode.ofUInt32 mode, servers.mapM (parseServerDict p) with
    | some _, .ok decoded => keptServers decoded
    | _, _ => []
  | _ => []

/-- Two inputs that differ at most in the interfaces that are wireless. -/
def SameApartFromWireless (i j : Input) : Prop :=
  i.event = j.event ∧ i.outcomes = j.outcomes

/-- The option is obeyed by two runs: what an Update stores for the state machine is what the option
asks for, and if the option is not set the runs do not differ. -/
structure ObeysOption (p : Platform) (config : RawConfig) (is js : List Input) : Prop where
  stored : ∀ i ∈ is ++ js, ∀ d : Daemon, ∀ m ∈ d.arrival p i, m.event = .update →
    List.Forall₂ (Demoted config i.isWireless) (givenServers p i.event) m.ctx.newDynamicServers
  sameRun : config.boolean .prioritizeWire ≠ .true →
    (daemon p config.toConfig).run is = (daemon p config.toConfig).run js

/-! ## What the daemon does -/

/-- The priority is lowered without wrapping around. -/
lemma toInt_lowered (priority : Int32) :
    (Int32.ofInt (max (priority.toInt - 10) (-2147483648))).toInt =
      max (priority.toInt - 10) Int32.minValue.toInt := by
  have hlow : Int32.minValue.toInt = -2147483648 := by decide
  have hhigh : priority.toInt < 2147483648 := priority.toInt_lt
  rw [hlow]
  apply Int32.toInt_ofInt_of_le
  · omega
  · omega

/-- Lowering changes every priority but the least one. -/
lemma toInt_lowered_eq_iff (priority : Int32) :
    max (priority.toInt - 10) Int32.minValue.toInt = priority.toInt ↔
      priority = Int32.minValue := by
  have hmin : Int32.minValue.toInt ≤ priority.toInt := priority.minValue_le_toInt
  rw [← Int32.toInt_inj]
  omega

/-- A server is stored as the option asks for exactly if the option is set, or the server is not on a
wireless interface, or its priority can not be lowered. -/
lemma demoted_lowerWireless_iff {config : RawConfig} {isWireless : String → Bool}
    {server : ServerUri} :
    Demoted config isWireless server (lowerWireless isWireless server) ↔
      config.boolean .prioritizeWire = .true ∨
        (isWireless server.interface = true → server.priority = Int32.minValue) := by
  have hothers : { lowerWireless isWireless server with priority := server.priority } = server := by
    unfold lowerWireless
    split_ifs <;> rfl
  by_cases hwireless : isWireless server.interface = true
  · have hpriority : (lowerWireless isWireless server).priority.toInt =
        max (server.priority.toInt - 10) Int32.minValue.toInt := by
      rw [lowerWireless, if_pos hwireless]
      exact toInt_lowered server.priority
    by_cases hoption : config.boolean .prioritizeWire = .true
    · refine iff_of_true ⟨hothers, ?_⟩ (Or.inl hoption)
      rw [hpriority, if_pos ⟨hoption, hwireless⟩]
    · have hkept : Demoted config isWireless server (lowerWireless isWireless server) ↔
          max (server.priority.toInt - 10) Int32.minValue.toInt = server.priority.toInt := by
        refine ⟨fun h => ?_, fun h => ⟨hothers, ?_⟩⟩
        · have hstored := h.priority
          rwa [hpriority, if_neg (fun hboth => hoption hboth.1)] at hstored
        · rw [hpriority, if_neg (fun hboth => hoption hboth.1), h]
      rw [hkept, toInt_lowered_eq_iff]
      simp [hoption, hwireless]
  · refine iff_of_true ⟨hothers, ?_⟩ (Or.inr fun h => absurd h hwireless)
    rw [lowerWireless, if_neg hwireless, if_neg fun hboth => hwireless hboth.2]

/-- A server that can not be lowered is stored as it is. -/
lemma lowerWireless_eq_self {isWireless : String → Bool} {server : ServerUri}
    (h : isWireless server.interface = true → server.priority = Int32.minValue) :
    lowerWireless isWireless server = server := by
  unfold lowerWireless
  split_ifs with hwireless
  · have hleast : Int32.ofInt (max (server.priority.toInt - 10) (-2147483648)) =
        server.priority := by
      rw [h hwireless]
      decide
    rw [hleast]
  · rfl

/-- An Update call stores the servers that are kept, with the priorities of wireless interfaces
lowered. -/
lemma decodeUpdateCall_eq (p : Platform) (isWireless : String → Bool) (servers : List VariantDict)
    (mode : UInt32) :
    decodeUpdateCall p isWireless servers mode =
      match Mode.ofUInt32 mode with
      | none => .error .invalidMode
      | some mode => (servers.mapM (parseServerDict p)).map fun decoded =>
          ((keptServers decoded).map (lowerWireless isWireless), mode) := by
  unfold decodeUpdateCall
  cases Mode.ofUInt32 mode with
  | none => rfl
  | some mode =>
    dsimp only
    rw [parseServers_eq]
    cases servers.mapM (parseServerDict p) with
    | error error => rfl
    | ok decoded =>
      simp only [Except.map, admitServers_eq]

/-- The servers with which an Update enters the state machine. -/
lemma newDynamicServers_of_arrival {p : Platform} {d : Daemon} {i : Input} {m : Machine}
    (hm : m ∈ d.arrival p i) (hupdate : m.event = .update) :
    m.ctx.newDynamicServers = (givenServers p i.event).map (lowerWireless i.isWireless) := by
  obtain ⟨event, o, isWireless⟩ := i
  cases event with
  | updateCall servers mode =>
    simp only [Daemon.arrival, decodeUpdateCall_eq] at hm
    simp only [givenServers]
    cases hmode : Mode.ofUInt32 mode with
    | none => simp [hmode] at hm
    | some mode' =>
      cases hdecoded : servers.mapM (parseServerDict p) with
      | error error => simp [hmode, hdecoded, Except.map] at hm
      | ok decoded =>
        simp only [hmode, hdecoded, Except.map, Option.mem_some_iff] at hm
        rw [← hm]
        rfl
  | nameLost => cases hm
  | reloadCall | nameAcquired | sigterm =>
    obtain rfl := Option.mem_some_iff.mp hm
    cases hupdate
  | jobFinished result =>
    obtain rfl := Option.mem_some_iff.mp hm
    exact absurd hupdate (jobEvent_isExternal result).2

/-- An Update of which a server is given is decoded. -/
lemma exists_arrival {p : Platform} {i : Input} {server : ServerUri}
    (h : server ∈ givenServers p i.event) (d : Daemon) :
    ∃ m ∈ d.arrival p i, m.event = .update := by
  obtain ⟨event, o, isWireless⟩ := i
  cases event with
  | updateCall servers mode =>
    simp only [Daemon.arrival, decodeUpdateCall_eq]
    simp only [givenServers] at h
    cases hmode : Mode.ofUInt32 mode with
    | none => simp [hmode] at h
    | some mode' =>
      cases hdecoded : servers.mapM (parseServerDict p) with
      | error error => simp [hmode, hdecoded] at h
      | ok decoded => exact ⟨_, rfl, rfl⟩
  | nameLost | reloadCall | nameAcquired | sigterm | jobFinished _ => cases h

/-- No server that an input gives can be lowered. -/
def NothingToLower (p : Platform) (i : Input) : Prop :=
  ∀ s ∈ givenServers p i.event, i.isWireless s.interface = true → s.priority = Int32.minValue

instance (p : Platform) (i : Input) : Decidable (NothingToLower p i) :=
  inferInstanceAs (Decidable (∀ s ∈ givenServers p i.event, _))

/-- An Update is stored as the option asks for exactly if the option is set or nothing can be
lowered. -/
lemma stored_iff {p : Platform} {config : RawConfig} {i : Input} :
    (∀ d : Daemon, ∀ m ∈ d.arrival p i, m.event = .update →
      List.Forall₂ (Demoted config i.isWireless) (givenServers p i.event)
        m.ctx.newDynamicServers) ↔
    config.boolean .prioritizeWire = .true ∨ NothingToLower p i := by
  have hall : List.Forall₂ (Demoted config i.isWireless) (givenServers p i.event)
      ((givenServers p i.event).map (lowerWireless i.isWireless)) ↔
      config.boolean .prioritizeWire = .true ∨ NothingToLower p i := by
    rw [List.forall₂_map_right_iff, List.forall₂_same]
    simp only [demoted_lowerWireless_iff]
    constructor
    · intro h
      by_contra hnot
      rw [not_or] at hnot
      exact hnot.2 fun s hs => (h s hs).resolve_left hnot.1
    · rintro (hoption | hnothing) s hs
      · exact Or.inl hoption
      · exact Or.inr (hnothing s hs)
  constructor
  · intro h
    cases hgiven : givenServers p i.event with
    | nil => exact Or.inr (by simp [NothingToLower, hgiven])
    | cons server servers =>
      obtain ⟨m, hm, hupdate⟩ := exists_arrival (hgiven ▸ List.mem_cons_self) Daemon.initial
      have hstored := h .initial m hm hupdate
      rw [newDynamicServers_of_arrival hm hupdate] at hstored
      exact hall.mp hstored
  · intro h d m hm hupdate
    rw [newDynamicServers_of_arrival hm hupdate]
    exact hall.mpr h

/-- If nothing can be lowered, it does not matter which interfaces are wireless. -/
lemma step_eq_of_nothingToLower {p : Platform} {config : Config} {i j : Input}
    (h : SameApartFromWireless i j) (hi : NothingToLower p i) (hj : NothingToLower p j)
    (d : Daemon) : d.step p config i = d.step p config j := by
  obtain ⟨event, o, isWireless⟩ := i
  obtain ⟨event', o', isWireless'⟩ := j
  obtain ⟨rfl, rfl⟩ : event = event' ∧ o = o' := h
  cases event with
  | updateCall servers mode =>
    have hdecode : decodeUpdateCall p isWireless servers mode =
        decodeUpdateCall p isWireless' servers mode := by
      rw [decodeUpdateCall_eq, decodeUpdateCall_eq]
      simp only [NothingToLower, givenServers] at hi hj
      cases hmode : Mode.ofUInt32 mode with
      | none => rfl
      | some mode' =>
        cases hdecoded : servers.mapM (parseServerDict p) with
        | error error => rfl
        | ok decoded =>
          simp only [hmode, hdecoded] at hi hj
          have hsame : (keptServers decoded).map (lowerWireless isWireless) =
              (keptServers decoded).map (lowerWireless isWireless') :=
            List.map_congr_left fun s hs => by
              rw [lowerWireless_eq_self (hi s hs), lowerWireless_eq_self (hj s hs)]
          simp only [Except.map, hsame]
    simp only [Daemon.step, handleUpdateCall, hdecode]
  | reloadCall | nameAcquired | nameLost | sigterm | jobFinished _ => rfl

/-! ## The result -/

/-- Two inputs are related as the inputs of two runs are if nothing in the runs can be lowered. -/
lemma forall₂_nothingToLower {p : Platform} {is js : List Input}
    (h : List.Forall₂ SameApartFromWireless is js) (hall : ∀ i ∈ is ++ js, NothingToLower p i) :
    List.Forall₂ (fun i j => SameApartFromWireless i j ∧ NothingToLower p i ∧ NothingToLower p j)
      is js := by
  induction h with
  | nil => exact .nil
  | cons hij _ ih =>
    refine .cons ⟨hij, hall _ (by simp), hall _ (by simp)⟩ (ih fun k hk => hall k ?_)
    rcases List.mem_append.mp hk with hk | hk
    · simp [hk]
    · simp [hk]

/-- Wireless demotion and its option.  Two runs that differ at most in which interfaces are wireless
obey the option exactly if the option is set, or every server on a wireless interface has the least
priority already. -/
theorem wireless_demotion_iff (p : Platform) (config : RawConfig) {is js : List Input}
    (h : List.Forall₂ SameApartFromWireless is js) :
    ObeysOption p config is js ↔
      config.boolean .prioritizeWire = .true ∨ ∀ i ∈ is ++ js, NothingToLower p i := by
  constructor
  · intro hobeys
    by_contra hnot
    rw [not_or] at hnot
    exact hnot.2 fun i hi => (stored_iff.mp (hobeys.stored i hi)).resolve_left hnot.1
  · intro hcondition
    refine ⟨fun i hi => stored_iff.mpr ?_, fun hoption => ?_⟩
    · exact hcondition.imp_right fun hall => hall i hi
    · have hall := hcondition.resolve_left hoption
      exact (daemon p config.toConfig).runFrom_congr
        (fun d _ _ hij => step_eq_of_nothingToLower hij.1 hij.2.1 hij.2.2 d)
        (forall₂_nothingToLower h hall) _

/-- An Update call with a server on `wlan0`, on a host that has the given wireless interfaces. -/
def wirelessUpdate (isWireless : String → Bool) : Input where
  event := .updateCall
    [[("address", .byteString [192, 0, 2, 1]), ("interface", .string "wlan0")]] 0
  outcomes := .allOk
  isWireless := isWireless

/-- Without an option the default is to lower priorities, and this is what happens. -/
theorem wireless_demotion_default :
    ∃ raw, parseConfiguration .loopback (.single []) (fun _ => none) [] = some (.ok raw) ∧
      List.Forall₂ SameApartFromWireless [wirelessUpdate fun _ => true]
        [wirelessUpdate fun _ => false] ∧
      ObeysOption ⟨.loopback, some, fun _ servers => servers⟩ raw
        [wirelessUpdate fun _ => true] [wirelessUpdate fun _ => false] := by
  have hsame : List.Forall₂ SameApartFromWireless [wirelessUpdate fun _ => true]
      [wirelessUpdate fun _ => false] := .cons ⟨rfl, rfl⟩ .nil
  refine ⟨_, rfl, hsame, ?_⟩
  apply (wireless_demotion_iff _ _ hsame).mpr
  exact Or.inl rfl

/-- With the option turned off on the command line, the priority is lowered all the same. -/
theorem wireless_demoted_against_option :
    ∃ raw, parseConfiguration .loopback (.single []) (fun _ => none)
        [.boolean .prioritizeWire false] = some (.ok raw) ∧
      raw.boolean .prioritizeWire = .false ∧
      ((daemon ⟨.loopback, some, fun _ servers => servers⟩ raw.toConfig).run
        [wirelessUpdate fun _ => true]).ctx.allServers.map ServerUri.priority = [-10] ∧
      ((daemon ⟨.loopback, some, fun _ servers => servers⟩ raw.toConfig).run
        [wirelessUpdate fun _ => false]).ctx.allServers.map ServerUri.priority = [0] ∧
      ¬ ObeysOption ⟨.loopback, some, fun _ servers => servers⟩ raw
        [wirelessUpdate fun _ => true] [wirelessUpdate fun _ => false] := by
  refine ⟨_, rfl, by decide, by decide, by decide, fun hobeys => ?_⟩
  have hsame := congrArg (fun d : Daemon => d.ctx.allServers.map ServerUri.priority)
    (hobeys.sameRun (by decide))
  exact absurd hsame (by decide)

end Dnsconfd
