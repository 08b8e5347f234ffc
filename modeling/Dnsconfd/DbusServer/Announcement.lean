import Dnsconfd.DbusServer.Acknowledgement

/-!
# Announced serials

After an accepted Update the client waits for a signal with exactly the serial of the reply.  The
signal is emitted if the serial does not advance again before the configuration is applied, that
is, if no kickoff intervenes; `announced_of_no_kickoff` is the property under this condition, and
`announcement_skipped` is a run in which a reload skips the serial.
-/

namespace Dnsconfd

open Library

/-- What the log tells about Updates and announcements: whether an Update has been decoded since the
last announcement, the serials announced since an Update was last decoded, and the serial with
which an Update was last accepted. -/
structure Ledger where
  awaiting : Bool
  announced : List UInt32
  accepted : Option UInt32

/-- The entry that one effect makes. -/
def Ledger.note (l : Ledger) : Effect → Ledger
  | .updateParsed _ _ => { l with awaiting := true, announced := [] }
  | .serialSignal serial => { l with awaiting := false, announced := l.announced ++ [serial] }
  | .updateReplied serial message =>
    if message = "Update accepted" then { l with accepted := some serial } else l
  | _ => l

/-- The ledger of a log. -/
def ledger (log : List Effect) : Ledger :=
  log.foldl Ledger.note ⟨false, [], none⟩

/-- Quiet effects make no entry. -/
lemma ledger_append_quiet {log l : List Effect} {state : FsmState} {event : FsmEvent}
    (hquiet : ∀ e ∈ l, e.isQuiet = true) :
    ledger (log ++ .transitionMade state event :: l) = ledger log := by
  rw [ledger, List.foldl_append, List.foldl_cons]
  refine foldl_eq_self (fun e he l => ?_) _
  have hq := hquiet e he
  cases e <;> first | rfl | cases hq

/-- The entries when a configuration is applied. -/
lemma ledger_append_applied {log commands : List Effect} {state : FsmState} {event : FsmEvent}
    {D : List ServerUri} {text : String} {serial : UInt32}
    (hquiet : ∀ e ∈ commands, e.isQuiet = true) :
    ledger (log ++ .transitionMade state event ::
      (commands ++ [.updateSucceeded D, .notified text, .serialSignal serial])) =
      { ledger log with
        awaiting := false
        announced := (ledger log).announced ++ [serial] } := by
  have hcommands := @ledger_append_quiet log commands state event hquiet
  rw [← List.cons_append, ← List.append_assoc, ledger, List.foldl_append, ← ledger, hcommands]
  rfl

/-- One further effect. -/
lemma ledger_append_singleton (log : List Effect) (e : Effect) :
    ledger (log ++ [e]) = (ledger log).note e := by
  rw [ledger, List.foldl_append]
  rfl

/-- No error text is the text of an accepted call. -/
lemma text_ne_accepted (error : ParseError) : error.text ≠ "Update accepted" := by
  cases error <;> decide

/-- The condition under which announcements reach the client: no kickoff while an Update has not
been announced yet. -/
def NoKickoffAwaited (m : Machine) : Prop :=
  isKickoff m.ctx.currentState m.event = true → (ledger m.log).awaiting = false

instance : DecidablePred NoKickoffAwaited :=
  fun _ => inferInstanceAs (Decidable (_ → _))

/-- The invariant: while an Update is awaited, the requested serial is the one of its reply; after
that, the serial of the reply has been announced. -/
structure Announcing (a : Moment) : Prop where
  update : a.event = .update → a.answering = true ∧ (ledger a.log).awaiting = true
  awaited : a.answering = false → (ledger a.log).awaiting = true →
    (ledger a.log).accepted = some a.ctx.requestedConfigurationSerial
  settled : a.answering = false → (ledger a.log).awaiting = false →
    ∀ s, (ledger a.log).accepted = some s → s ∈ (ledger a.log).announced
  inCall : a.answering = true → (ledger a.log).awaiting = false →
    a.ctx.requestedConfigurationSerial ∈ (ledger a.log).announced ∧
      ((a.ctx.currentState = .updatingDnsManager ∧ a.event = .success) ∨
        (a.ctx.currentState = .running ∧ a.event = .none))
  running : (a.ctx.currentState = .running ∧ a.event ≠ .update) ∨
    (a.ctx.currentState = .updatingDnsManager ∧ a.event = .success) →
      (ledger a.log).awaiting = false

variable {p : Platform} {config : Config}

/-- The invariant is preserved by every iteration that meets the condition. -/
lemma Announcing.edge {o : Outcomes} {ctx : Context} {event : FsmEvent} {log : List Effect}
    {answering : Bool} {r : ActionResult} (h : Announcing ⟨⟨ctx, event, log⟩, answering⟩)
    (hok : NoKickoffAwaited ⟨ctx, event, log⟩) (hedge : Edge p config o ctx event r) :
    Announcing ⟨⟨r.ctx, r.event,
      log ++ .transitionMade ctx.currentState event :: r.effects⟩, answering⟩ := by
  have hupdate : r.event ≠ .update := hedge.event_ne_update
  cases hedge.serialChange with
  | takeover hs hreq hcur hdyn hstate hquiet =>
    have hevent : event = .update := by
      revert hs
      cases ctx.currentState <;> cases event <;> simp [isTakeover]
    obtain ⟨hans, hawait⟩ := h.update hevent
    simp only at hans hawait
    constructor <;> simp only [ledger_append_quiet hquiet, hans, hawait]
    · exact fun h => absurd h hupdate
    · exact fun h => absurd h (by simp)
    · exact fun h => absurd h (by simp)
    · exact fun _ h => absurd h (by simp)
    · rintro (⟨hrun, -⟩ | ⟨hupd, -⟩)
      · exact absurd hrun hstate.1
      · exact absurd hupd hstate.2
  | kickoff hs hreq hcur hdyn hstate hquiet =>
    have hawait : (ledger log).awaiting = false := hok hs
    have hans : answering = false := by
      by_contra hans
      obtain ⟨-, ⟨hst, he⟩ | ⟨hst, he⟩⟩ := h.inCall (by simpa using hans) hawait
      · simp only at hst he
        rw [hst, he] at hs
        cases hs
      · simp only at hst he
        rw [hst, he] at hs
        cases hs
    have hsettled := h.settled hans hawait
    constructor <;> simp only [ledger_append_quiet hquiet, hans, hawait]
    · exact fun h => absurd h hupdate
    · exact fun _ h => absurd h (by simp)
    · exact fun _ _ => hsettled
    · exact fun h => absurd h (by simp)
    · exact fun _ => trivial
  | applied hs hevent hreq hcur hdyn hstate hquiet heffects =>
    rw [heffects]
    constructor <;> simp only [ledger_append_applied hquiet]
    · exact fun h => absurd h hupdate
    · exact fun _ h => absurd h (by simp)
    · intro hans _ s hacc
      by_cases hawait : (ledger log).awaiting = true
      · have hreq' := h.awaited hans hawait
        simp only at hreq'
        rw [hreq'] at hacc
        rw [Option.some.inj hacc]
        simp
      · exact List.mem_append_left _ (h.settled hans (by simpa using hawait) s hacc)
    · intro _ _
      refine ⟨?_, Or.inl ⟨hstate, hevent⟩⟩
      rw [hreq]
      simp
    · exact fun _ => trivial
  | quiet hs hreq hcur hdyn hrunning hupdating hquiet =>
    constructor <;> simp only [ledger_append_quiet hquiet, hreq]
    · exact fun h => absurd h hupdate
    · exact h.awaited
    · exact h.settled
    · intro hans hawait
      obtain ⟨hmem, ⟨hst, he⟩ | ⟨hst, he⟩⟩ := h.inCall hans hawait
      · simp only at hst he
        subst he
        rw [hedge.eq_of_updated hst]
        exact ⟨hmem, Or.inr ⟨rfl, rfl⟩⟩
      · simp only at hst he
        subst he
        cases hedge <;> simp_all [isKickoff, isIgnored, isAbandon, isStopJob]
    · rintro (⟨hrun, -⟩ | ⟨hupd, he⟩)
      · exact h.running (Or.inr (hrunning hrun))
      · exact absurd he (hupdating hupd)

/-- The invariant holds when the machine comes to rest, unless it leaves an Update behind in the
state RUNNING or a success behind in the state UPDATING_DNS_MANAGER. -/
lemma Announcing.rest {ctx ctx' : Context} {event : FsmEvent} {log log' : List Effect}
    {answering : Bool} (h : Announcing ⟨⟨ctx, event, log⟩, answering⟩)
    (hstate : ctx'.currentState = ctx.currentState)
    (hreq : ctx'.requestedConfigurationSerial = ctx.requestedConfigurationSerial)
    (hledger : ledger log' = ledger log)
    (hupdate : event = .update → ctx.currentState ≠ .running)
    (hsuccess : event = .success → ctx.currentState ≠ .updatingDnsManager) :
    Announcing ⟨⟨ctx', .none, log'⟩, answering⟩ := by
  constructor <;> simp only [hledger, hstate, hreq]
  · exact fun h => absurd h (by simp)
  · exact h.awaited
  · exact h.settled
  · intro hans hawait
    obtain ⟨hmem, ⟨hst, he⟩ | ⟨hst, -⟩⟩ := h.inCall hans hawait
    · exact absurd hst (hsuccess he)
    · exact ⟨hmem, Or.inr ⟨hst, trivial⟩⟩
  · rintro (⟨hst, -⟩ | ⟨-, he⟩)
    · exact h.running (Or.inl ⟨hst, fun he => hupdate he hst⟩)
    · cases he

/-- An Update is not refused in the state RUNNING, nor a success in the state
UPDATING_DNS_MANAGER. -/
lemma ne_of_refused {o : Outcomes} {ctx : Context} {event : FsmEvent}
    (h : transitionAction p config o ctx event = none) :
    (event = .update → ctx.currentState ≠ .running) ∧
      (event = .success → ctx.currentState ≠ .updatingDnsManager) := by
  constructor
  · rintro rfl hs
    simp [transitionAction, hs] at h
  · rintro rfl hs
    simp [transitionAction, hs] at h

/-- The invariant is preserved by every small step whose iteration meets the condition. -/
lemma Announcing.micro {a b : Moment} (h : Announcing a)
    (hstep : Micro p config NoKickoffAwaited a b) : Announcing b := by
  cases hstep with
  | edge hok hedge => exact h.edge hok hedge
  | receive he hu =>
    refine ⟨fun h => absurd h hu, h.awaited, h.settled, fun h => absurd h (by simp), ?_⟩
    rintro (⟨hs, -⟩ | ⟨-, he'⟩)
    · exact h.running (Or.inl ⟨hs, by simp⟩)
    · simp only at he'
      rw [he'] at he
      cases he
  | parsed servers mode =>
    constructor <;> simp only [ledger_append_singleton, Ledger.note]
    · exact fun _ => ⟨trivial, trivial⟩
    · exact fun h => absurd h (by simp)
    · exact fun h => absurd h (by simp)
    · exact fun _ h => absurd h (by simp)
    · rintro (⟨-, he⟩ | ⟨-, he⟩)
      · exact absurd rfl he
      · cases he
  | refused hrefused =>
    obtain ⟨hupdate, hsuccess⟩ := ne_of_refused hrefused
    exact h.rest rfl rfl (ledger_append_singleton _ _) hupdate hsuccess
  | skipped hrefused =>
    obtain ⟨hupdate, hsuccess⟩ := ne_of_refused hrefused
    exact h.rest rfl rfl rfl hupdate hsuccess
  | @replied ctx log =>
    constructor <;> simp only [ledger_append_singleton, Ledger.note, if_true]
    · exact fun h => absurd h (by simp)
    · exact fun _ _ => trivial
    · rintro - hawait s hs
      rw [← Option.some.inj hs]
      exact (h.inCall rfl hawait).1
    · exact fun h => absurd h (by simp)
    · exact h.running
  | rejected error =>
    refine h.rest rfl rfl ?_ (by simp) (by simp)
    rw [ledger_append_singleton, Ledger.note, if_neg (text_ne_accepted error)]
  | reloadReplied => exact h.rest rfl rfl (ledger_append_singleton _ _) (by simp) (by simp)
  | nameLost => exact h.rest rfl rfl (ledger_append_singleton _ _) (by simp) (by simp)

/-- The serial of the applied Update is announced, in every run in which no kickoff takes place
while an Update that was accepted has not been announced: whenever the machine rests in the state
RUNNING, a signal with the serial of the last accepted Update has been emitted since that Update
was accepted. -/
theorem announced_of_no_kickoff (is : List Input) (hok : RunMeets p config NoKickoffAwaited is)
    (hrunning : ((daemon p config).run is).ctx.currentState = .running) (serial : UInt32)
    (hserial : (ledger ((daemon p config).run is).log).accepted = some serial) :
    serial ∈ (ledger ((daemon p config).run is).log).announced := by
  have hinit : Announcing Daemon.initial.moment := by
    constructor <;> simp [Daemon.initial, Daemon.moment, Context.initial, ledger]
  have hrun : Announcing ((daemon p config).run is).moment :=
    invariant_of_micro (fun _ _ h hstep => h.micro hstep) hinit hok
  have hawait : (ledger ((daemon p config).run is).log).awaiting = false :=
    hrun.running (Or.inl ⟨hrunning, by simp [Daemon.moment]⟩)
  exact hrun.settled rfl hawait serial hserial

/-- An Update while the daemon is running is announced. -/
theorem announced_of_no_kickoff_running :
    let is := [Input.ok .nameAcquired, .ok (.jobFinished "done"),
      .ok (.updateCall [[("address", .byteString [192, 0, 2, 1])]] 0)]
    let d := (daemon .plain .plain).run is
    RunMeets .plain .plain NoKickoffAwaited is ∧ d.ctx.currentState = .running ∧
      (ledger d.log).accepted = some 3 ∧ 3 ∈ (ledger d.log).announced :=
  ⟨by decide, by decide, by decide,
    announced_of_no_kickoff _ (by decide) (by decide) 3 (by decide)⟩

/-- An Update while the start job is pending, followed by a Reload: the Update is answered with
serial 3, the reload advances the serial, and once the cache has started only serial 4 is
announced. -/
theorem announcement_skipped :
    let d := (daemon .plain .plain).run [.ok .nameAcquired,
      .ok (.updateCall [[("address", .byteString [192, 0, 2, 1])]] 0), .ok .reloadCall,
      .ok (.jobFinished "done")]
    d.ctx.currentState = .running ∧ (ledger d.log).accepted = some 3 ∧
      (ledger d.log).announced = [4] := by
  refine ⟨by decide, by decide, by decide⟩

end Dnsconfd
