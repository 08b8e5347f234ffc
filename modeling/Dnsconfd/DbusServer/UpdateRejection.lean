import Dnsconfd.DbusServer.Acknowledgement
import Dnsconfd.TextValues

/-!
# Rejected Update calls

An Update call is rejected as a whole or not at all, and the serial 0 in the reply tells which.  The
dictionaries that are rejected are compared with those that do not describe a server, where the name of
a protocol has to be one of the documented names and a network has to have the length of its prefix.
The daemon accepts more: the last letter of a protocol does not matter, and a length that is missing is
taken for 0.  A call is answered as it should be exactly if it has no such text in it or is invalid for
another reason as well (`updateCall_rejected_iff`).
-/

namespace Dnsconfd

open Library

variable {p : Platform} {config : Config}

/-! ## Dictionaries that are accepted by mistake -/

/-- No text in the dictionary is a near miss of a protocol, or a network without the length of its
prefix. -/
structure DictTextsExact (net : Inet) (dict : VariantDict) : Prop where
  protocol : ∀ text, dictString dict "protocol" = some text → isNearProtocol text = false
  networks : ∀ networks text, dictStringArray dict "networks" = some networks → text ∈ networks →
    ¬ LacksLength net text

/-- A dictionary that is invalid for the daemon is invalid. -/
lemma InvalidDict.documented {dict : VariantDict} (h : InvalidDict (.parsed p.inet) p dict) :
    InvalidDict (.documented p.inet) p dict := by
  cases h with
  | missingAddress hs hb => exact .missingAddress hs hb
  | badAddressText hs h4 h6 => exact .badAddressText hs h4 h6
  | badAddressBytes hs hb h4 h16 => exact .badAddressBytes hs hb h4 h16
  | badPort hv h => exact .badPort hv h
  | badProtocol hv h => exact .badProtocol hv fun _ hname => h _ (documented_protocol_iff.mp hname).2
  | badInterface hv h => exact .badInterface hv h
  | badDomain hk hv hd h => exact .badDomain hk hv hd h
  | badNetwork hv ht h => exact .badNetwork hv ht fun _ hread => h _ (documented_network_iff.mp hread).2

/-- The dictionaries that are invalid are those that the daemon rejects and those with a text that is
read too generously. -/
lemma invalidDict_documented_iff {dict : VariantDict} :
    InvalidDict (.documented p.inet) p dict ↔
      InvalidDict (.parsed p.inet) p dict ∨ ¬ DictTextsExact p.inet dict := by
  constructor
  · intro h
    by_cases hexact : DictTextsExact p.inet dict
    swap
    · exact Or.inr hexact
    refine Or.inl ?_
    cases h with
    | missingAddress hs hb => exact .missingAddress hs hb
    | badAddressText hs h4 h6 => exact .badAddressText hs h4 h6
    | badAddressBytes hs hb h4 h16 => exact .badAddressBytes hs hb h4 h16
    | badPort hv h => exact .badPort hv h
    | badProtocol hv h =>
      exact .badProtocol hv fun _ hread =>
        h _ (documented_protocol_iff.mpr ⟨hexact.protocol _ hv, hread⟩)
    | badInterface hv h => exact .badInterface hv h
    | badDomain hk hv hd h => exact .badDomain hk hv hd h
    | badNetwork hv ht h =>
      exact .badNetwork hv ht fun _ hread =>
        h _ (documented_network_iff.mpr ⟨hexact.networks _ _ hv ht, hread⟩)
  · rintro (h | hexact)
    · exact h.documented
    by_contra hvalid
    refine hexact ⟨fun text hv => ?_, fun networks text hv ht hlength => ?_⟩
    · rw [← Bool.not_eq_true]
      intro hnear
      refine hvalid (.badProtocol hv fun protocol hname => ?_)
      rw [(documented_protocol_iff.mp hname).1] at hnear
      cases hnear
    · exact hvalid (.badNetwork hv ht fun network hread =>
        (documented_network_iff.mp hread).1 hlength)

/-! ## The reply -/

/-- The decoding of a call fails exactly for a mode above 2 or a dictionary that is invalid for the
daemon. -/
lemma fails_decodeUpdateCall {isWireless : String → Bool} {servers : List VariantDict}
    {mode : UInt32} :
    Fails (decodeUpdateCall p isWireless servers mode) ↔
      2 < mode ∨ ∃ dict ∈ servers, InvalidDict (.parsed p.inet) p dict := by
  rw [← Mode.ofUInt32_eq_none_iff, ← @fails_parseServers p isWireless servers []]
  unfold decodeUpdateCall
  cases Mode.ofUInt32 mode with
  | none => simp
  | some m => cases parseServers p isWireless servers [] <;> simp

/-- Every Update call is answered in every reachable state, with serial 0 exactly if its decoding
fails, and then nothing but the reply happens. -/
lemma updateCall_replied (is : List Input) (o : Outcomes) (isWireless : String → Bool)
    (servers : List VariantDict) (mode : UInt32) :
    let before := (daemon p config).run is
    let after := before.step p config ⟨.updateCall servers mode, o, isWireless⟩
    ∃ serial message, after.log.getLast? = some (.updateReplied serial message) ∧
      (serial = 0 ↔ Fails (decodeUpdateCall p isWireless servers mode)) ∧
      (serial = 0 → after.ctx = before.ctx ∧
        after.log = before.log ++ [.updateReplied 0 message]) := by
  intro before after
  have hafter : SerialsNonzero after.moment := by
    have hrun := @serialsNonzero_run p config (is ++ [⟨.updateCall servers mode, o, isWireless⟩])
    rwa [System.run_append] at hrun
  have hstep : after = handleUpdateCall p config o isWireless servers mode before := rfl
  cases hdec : decodeUpdateCall p isWireless servers mode with
  | error error =>
    have heq : after = ⟨before.ctx, before.log ++ [.updateReplied 0 error.text]⟩ := by
      rw [hstep, handleUpdateCall, hdec]
    refine ⟨0, error.text, ?_, ?_, ?_⟩
    · rw [heq]
      simp
    · simp
    · intro _
      rw [heq]
      exact ⟨rfl, rfl⟩
  | ok update =>
    obtain ⟨parsedServers, m⟩ := update
    have heq : after = (dispatch p config o .update (before.receive parsedServers m)).accept := by
      rw [hstep, handleUpdateCall, hdec]
    refine ⟨after.ctx.requestedConfigurationSerial, "Update accepted", ?_, ?_, ?_⟩
    · rw [heq]
      simp [Daemon.accept]
    · exact ⟨fun h => absurd h hafter.1, fun h => absurd h (by simp)⟩
    · intro h
      exact absurd h hafter.1

/-- Rejection is atomic and recognisable.  In every reachable state every Update call is answered.  The
serial in the reply is 0 exactly if the mode exceeds 2 or one of the dictionaries is invalid, if and only
if no dictionary has a protocol that differs from a name in the last letter only or a network without
the length of its prefix, or the call is invalid also if these texts are admitted.  If the serial is 0
the context is exactly as before and nothing but the reply happens; and no serial of a reachable state
is ever 0. -/
theorem updateCall_rejected_iff (p : Platform) (config : Config) (is : List Input) (o : Outcomes)
    (isWireless : String → Bool) (servers : List VariantDict) (mode : UInt32) :
    let before := (daemon p config).run is
    let after := before.step p config ⟨.updateCall servers mode, o, isWireless⟩
    (∃ serial message, after.log.getLast? = some (.updateReplied serial message) ∧
      ((serial = 0 ↔ 2 < mode ∨ ∃ dict ∈ servers, InvalidDict (.documented p.inet) p dict) ↔
        (∀ dict ∈ servers, DictTextsExact p.inet dict) ∨ 2 < mode ∨
          ∃ dict ∈ servers, InvalidDict (.lenient p.inet) p dict) ∧
      (serial = 0 → after.ctx = before.ctx ∧
        after.log = before.log ++ [.updateReplied 0 message])) ∧
    before.ctx.requestedConfigurationSerial ≠ 0 ∧ before.ctx.currentConfigurationSerial ≠ 0 := by
  intro before after
  refine ⟨?_, serialsNonzero_run is⟩
  obtain ⟨serial, message, hreply, hserial, hatomic⟩ :=
    @updateCall_replied p config is o isWireless servers mode
  refine ⟨serial, message, hreply, ?_, hatomic⟩
  rw [hserial, fails_decodeUpdateCall, lenient_eq_parsed]
  simp only [invalidDict_documented_iff]
  constructor
  · intro hsame
    by_cases hexact : ∀ dict ∈ servers, DictTextsExact p.inet dict
    · exact Or.inl hexact
    · push Not at hexact
      obtain ⟨dict, hdict, hgenerous⟩ := hexact
      exact Or.inr (hsame.mpr (Or.inr ⟨dict, hdict, Or.inr hgenerous⟩))
  · intro hcondition
    constructor
    · rintro (hmode | ⟨dict, hdict, hinvalid⟩)
      · exact Or.inl hmode
      · exact Or.inr ⟨dict, hdict, Or.inl hinvalid⟩
    · rintro (hmode | ⟨dict, hdict, hinvalid | hgenerous⟩)
      · exact Or.inl hmode
      · exact Or.inr ⟨dict, hdict, hinvalid⟩
      · rcases hcondition with hexact | hrejected
        · exact absurd (hexact dict hdict) hgenerous
        · exact hrejected

/-- A server with a misspelled protocol, and one with a network that has no length. -/
def generousDicts : List VariantDict :=
  [[("address", .byteString [192, 0, 2, 1]), ("protocol", .string "dns+tlx")],
    [("address", .byteString [192, 0, 2, 1]), ("networks", .stringArray ["192.0.2.1/"])]]

/-- Either of the two is accepted, by a daemon that has just been started. -/
theorem updateCall_accepts_generously :
    let p : Platform := { Platform.plain with inet := .documentation }
    ∀ dict ∈ generousDicts, InvalidDict (.documented p.inet) p dict ∧
      ∃ serial message,
        (((daemon p .plain).run []).step p .plain (.ok (.updateCall [dict] 0))).log.getLast? =
          some (.updateReplied serial message) ∧ serial ≠ 0 := by
  intro p dict hdict
  simp only [generousDicts, List.mem_cons, List.not_mem_nil, or_false] at hdict
  rcases hdict with rfl | rfl
  · refine ⟨invalidDict_documented_iff.mpr (Or.inr fun hexact => ?_), _, _, rfl, by decide⟩
    exact absurd (hexact.protocol "dns+tlx" rfl) (by decide)
  · refine ⟨invalidDict_documented_iff.mpr (Or.inr fun hexact => ?_), _, _, rfl, by decide⟩
    refine hexact.networks ["192.0.2.1/"] "192.0.2.1/" rfl List.mem_cons_self ?_
    exact ⟨"192.0.2.1", rfl, by decide, by decide, by decide⟩

end Dnsconfd
