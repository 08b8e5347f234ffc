import Dnsconfd.DbusServer.Daemon

/-!
# Giving resolv.conf back

The daemon replaces the content of resolv.conf and is to restore it before it stops.  Whether it
still has to is a question to the log: `held` is true between the moment `write_resolv_conf` opens
the file and the execution of `revert_resolv_conf`.

Five edges of the state machine lead towards the stop without a revert.  They are harmless before
resolv.conf was first written, but after a reload they can be taken while it is held
(`isUnreverted`, `resolvConf_not_given_back`); in a run that never does so, resolv.conf has been
given back whenever the machine is in the state STOPPING (`resolvConf_given_back`).
-/

namespace Dnsconfd

open Library

/-! ## Holding resolv.conf -/

/-- Whether resolv.conf is held after one further effect. -/
def heldStep (held : Bool) : Effect → Bool
  | .resolvConfOpened => true
  | .revertExecuted => false
  | _ => held

/-- Since it was last opened for writing, resolv.conf has not been reverted. -/
def held (log : List Effect) : Bool :=
  log.foldl heldStep false

/-- resolv.conf was never opened for writing, or `revert_resolv_conf` was executed after that. -/
def GivenBack (log : List Effect) : Prop :=
  .resolvConfOpened ∉ log ∨
    ∃ before after, log = before ++ .revertExecuted :: after ∧ .resolvConfOpened ∉ after

/-- One further effect. -/
lemma held_append_singleton (log : List Effect) (e : Effect) :
    held (log ++ [e]) = heldStep (held log) e := by
  rw [held, List.foldl_append]
  rfl

/-- How a list splits at an element when its last element is known. -/
lemma split_concat {α : Type} {l before after : List α} {e x : α}
    (h : l ++ [e] = before ++ x :: after) :
    (e = x ∧ after = []) ∨ ∃ after', after = after' ++ [e] ∧ l = before ++ x :: after' := by
  rcases List.eq_nil_or_concat after with rfl | ⟨after', e', rfl⟩
  · obtain ⟨-, hlast⟩ := List.append_inj' h rfl
    exact Or.inl ⟨List.singleton_inj.mp hlast, rfl⟩
  · rw [List.concat_eq_append, ← List.cons_append, ← List.append_assoc] at h
    obtain ⟨hinit, hlast⟩ := List.append_inj' h rfl
    rw [List.concat_eq_append, ← List.singleton_inj.mp hlast]
    exact Or.inr ⟨after', rfl, hinit⟩

/-- resolv.conf has been given back exactly if it is not held. -/
theorem held_eq_false_iff (log : List Effect) : held log = false ↔ GivenBack log := by
  induction log using List.reverseRecOn with
  | nil => exact ⟨fun _ => Or.inl (by simp), fun _ => rfl⟩
  | append_singleton log e ih =>
    rw [held_append_singleton]
    by_cases hopen : e = .resolvConfOpened
    · subst hopen
      refine ⟨fun h => absurd h (by simp [heldStep]), ?_⟩
      rintro (h | ⟨before, after, heq, hafter⟩)
      · exact absurd (by simp) h
      · -- the last effect is the opening, so it stands after the revert
        rcases split_concat heq with ⟨h, -⟩ | ⟨after', rfl, -⟩
        · cases h
        · exact absurd (by simp) hafter
    by_cases hrevert : e = .revertExecuted
    · subst hrevert
      exact ⟨fun _ => Or.inr ⟨log, [], by simp, by simp⟩, fun _ => rfl⟩
    have hstep : heldStep (held log) e = held log := by
      cases e <;> first | rfl | exact absurd rfl hopen | exact absurd rfl hrevert
    have hmem : ∀ l, .resolvConfOpened ∈ l ++ [e] ↔ .resolvConfOpened ∈ l := by
      intro l
      simp [Ne.symm hopen]
    rw [hstep, ih]
    constructor
    · rintro (h | ⟨before, after, rfl, hafter⟩)
      · exact Or.inl (by rwa [hmem])
      · exact Or.inr ⟨before, after ++ [e], by simp, by rwa [hmem]⟩
    · rintro (h | ⟨before, after, heq, hafter⟩)
      · exact Or.inl (by rwa [hmem] at h)
      · rcases split_concat heq with ⟨h, -⟩ | ⟨after', rfl, rfl⟩
        · exact absurd h hrevert
        · exact Or.inr ⟨before, after', rfl, by rwa [hmem] at hafter⟩

/-- Effects that neither open nor revert resolv.conf. -/
def Effect.isNeutral : Effect → Bool
  | .resolvConfOpened => false
  | .revertExecuted => false
  | _ => true

/-- Neutral effects change nothing. -/
lemma held_append {log l : List Effect} (h : ∀ e ∈ l, e.isNeutral = true) :
    held (log ++ l) = held log := by
  rw [held, List.foldl_append]
  refine foldl_eq_self (fun e he b => ?_) _
  have hneutral := h e he
  cases e <;> first | rfl | cases hneutral

/-- After a revert resolv.conf is not held. -/
lemma held_append_revert (log : List Effect) (o : RevertOutcome) (ctx : Context)
    (state : FsmState) (event : FsmEvent) :
    held (log ++ .transitionMade state event :: (revertResolvConf o ctx).effects) =
      false := by
  obtain ⟨rest, heffects, hrest⟩ := revertResolvConf_effects o ctx
  have hneutral : ∀ e ∈ rest, e.isNeutral = true := by
    intro e he
    rcases hrest e he with ⟨text, rfl, -⟩ | ⟨rfl, -⟩ <;> rfl
  rw [heffects, List.append_cons, List.append_cons, held_append hneutral, held_append_singleton]
  rfl

/-! ## The condition and the invariant -/

/-- The edges that lead towards the stop and do not revert resolv.conf. -/
def isUnreverted : FsmState → FsmEvent → Bool
  | .configuringDnsManager, .failure => true
  | .submittingStartJob, .failure => true
  | .waitingForStartJob, .jobFailure => true
  | .waitingForStartJob, .stop => true
  | .settingResolvConf, .failure => true
  | _, _ => false

/-- The condition: such an edge is not taken while resolv.conf is held. -/
def RevertsHeld (m : Machine) : Prop :=
  isUnreverted m.ctx.currentState m.event = true → held m.log = false

instance : DecidablePred RevertsHeld :=
  fun _ => inferInstanceAs (Decidable (_ → _))

/-- The states in which resolv.conf must not be held: the first one and those on the way to the
stop. -/
def FsmState.isReverted : FsmState → Bool
  | .starting => true
  | .revertingResolvConf => true
  | .submittingStopJob => true
  | .waitingStopJob => true
  | .stopping => true
  | _ => false

/-- The invariant. -/
def HeldOnlyLive (a : Moment) : Prop :=
  a.ctx.currentState.isReverted = true → held a.log = false

variable {p : Platform} {config : Config}

/-- The invariant is preserved by every iteration that meets the condition. -/
lemma HeldOnlyLive.edge {o : Outcomes} {ctx : Context} {event : FsmEvent} {log : List Effect}
    {r : ActionResult} (h : ctx.currentState.isReverted = true → held log = false)
    (hok : RevertsHeld ⟨ctx, event, log⟩) (hedge : Edge p config o ctx event r)
    (hr : r.ctx.currentState.isReverted = true) :
    held (log ++ .transitionMade ctx.currentState event :: r.effects) = false := by
  -- it is enough that the effects are neutral and that resolv.conf was not held before
  have hneutral : (∀ e ∈ r.effects, e.isNeutral = true) →
      (isUnreverted ctx.currentState event = true ∨ ctx.currentState.isReverted = true) →
      held (log ++ .transitionMade ctx.currentState event :: r.effects) = false := by
    intro hl hbefore
    rw [held_append fun e he => ?_]
    · rcases hbefore with hbefore | hbefore
      · exact hok hbefore
      · exact h hbefore
    · rcases List.mem_cons.mp he with rfl | he
      · rfl
      · exact hl e he
  have hservice : ∀ {status command : String} {o : ServiceOutcome} {ctx : Context},
      ∀ e ∈ (setServiceStatus status command o ctx).effects, e.isNeutral = true := by
    intro status command o ctx e he
    rcases mem_setServiceStatus_effects he with rfl | rfl <;> rfl
  cases hedge with
  | refresh hs =>
    refine hneutral (by simp) (Or.inr ?_)
    simpa [updateContext, setDynamicServers] using hr
  | kickoff hs hn => cases hr
  | ignored hs => exact hneutral (by simp) (Or.inr hr)
  | abandon hs =>
    refine hneutral (by simp) ?_
    revert hs
    cases ctx.currentState <;> cases event <;>
      simp [isAbandon, isUnreverted, FsmState.isReverted]
  | startJob hs => cases hr
  | startJobSubmitted hs => cases hr
  | startJobDone hs => cases hr
  | startJobFailed hs => exact hneutral (by simp) (Or.inl (by rw [hs]; rfl))
  | updateRunning hs => cases hr
  | resolvConfSet hs => cases hr
  | resolvConfFailed hs => exact hneutral hservice (Or.inl (by rw [hs]; rfl))
  | updated hs => cases hr
  | updateFailed hs => exact held_append_revert _ _ _ _ _
  | stopRunning hs => exact held_append_revert _ _ _ _ _
  | stopJob hs =>
    refine hneutral hservice ?_
    revert hs
    cases ctx.currentState <;> cases event <;>
      simp [isStopJob, isUnreverted, FsmState.isReverted]
  | stopJobSubmitted hs => exact hneutral (by simp) (Or.inr (by rw [hs]; rfl))
  | quit hs => exact hneutral (by simp [Effect.isNeutral]) (Or.inr (by rw [hs]; rfl))

/-- The invariant is preserved by every small step whose iteration meets the condition. -/
lemma HeldOnlyLive.micro {a b : Moment} (h : HeldOnlyLive a)
    (hstep : Micro p config RevertsHeld a b) : HeldOnlyLive b := by
  cases hstep with
  | edge hok hedge => exact fun hr => HeldOnlyLive.edge h hok hedge hr
  | receive he hu => exact h
  | skipped hrefused => exact h
  | parsed servers mode | refused hrefused | replied | rejected error | reloadReplied
  | nameLost =>
    intro hr
    rw [held_append (by simp [Effect.isNeutral])]
    exact h hr

/-- resolv.conf is given back, in every run in which none of the edges without a revert is taken
while it is held: whenever the machine is in the state STOPPING, either `write_resolv_conf` never
opened resolv.conf, or `revert_resolv_conf` was executed after the last time it did. -/
theorem resolvConf_given_back (is : List Input) (hok : RunMeets p config RevertsHeld is)
    (hstopping : ((daemon p config).run is).ctx.currentState = .stopping) :
    GivenBack ((daemon p config).run is).log := by
  have hrun : HeldOnlyLive ((daemon p config).run is).moment :=
    invariant_of_micro (fun _ _ h hstep => h.micro hstep) (fun _ => rfl) hok
  have hreverted : ((daemon p config).run is).ctx.currentState.isReverted = true := by
    rw [hstopping]
    rfl
  exact (held_eq_false_iff _).mp (hrun hreverted)

/-- A daemon that is stopped while it is running. -/
theorem resolvConf_given_back_running :
    let is := [Input.ok .nameAcquired, .ok (.jobFinished "done"), .ok .sigterm,
      .ok (.jobFinished "done")]
    RunMeets .plain .plain RevertsHeld is ∧
      ((daemon .plain .plain).run is).ctx.currentState = .stopping ∧
      GivenBack ((daemon .plain .plain).run is).log :=
  ⟨by decide, by decide, resolvConf_given_back _ (by decide) (by decide)⟩

/-- A daemon that is stopped while it waits for the cache to restart after a Reload: resolv.conf
was opened, and it is never reverted. -/
theorem resolvConf_not_given_back :
    let d := (daemon .plain .plain).run [.ok .nameAcquired, .ok (.jobFinished "done"),
      .ok .reloadCall, .ok .sigterm, .ok (.jobFinished "done")]
    d.ctx.currentState = .stopping ∧ .mainLoopQuit ∈ d.log ∧ .resolvConfOpened ∈ d.log ∧
      .revertExecuted ∉ d.log ∧ ¬ GivenBack d.log := by
  refine ⟨by decide, by decide, by decide, by decide, ?_⟩
  rw [← held_eq_false_iff]
  decide

end Dnsconfd
