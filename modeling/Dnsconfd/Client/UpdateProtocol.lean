import Dnsconfd.DbusServer.Acknowledgement

/-!
# Waiting for an Update

`dnsconfd update` subscribes to the daemon's signals, calls Update, asks for the current serial and,
unless it is the one of the reply, waits for a signal that carries it, for five seconds at most.
The daemon and any number of such clients are put together on a bus that delivers what the daemon
sends to a client in the order in which it is sent, while everything else may happen in any order:
the daemon handles other events between the calls of a client, signals arrive before replies, and
calls may fail.

Signals are queued when they arrive and dispatched by the main loop, once the client has entered it.
A client that reports success has been answered with its serial and has seen it announced
(`succeeded_of_announced`).  Nothing is missed between the reply, the question for the serial and the
waiting: while a client waits for a serial that has been announced, the signal is on its way, queued,
or has been passed to the handler (`announced_reaches_handler`).

What the handler finds in a signal is left open.  `on_properties_changed` has `g_variant_get` store an
iterator into a pointer to a variant and iterates over it as one, and it has no argument for the last
part of its format string, so that C does not say what it reads; it is assumed to find either the serial
of the signal or nothing.
-/

namespace Dnsconfd

open Library

variable {p : Platform} {config : Config}

/-! ## The client -/

/-- What the daemon sends to a client: a PropertiesChanged signal with a serial, the reply to its
Update call, and the reply to its question for the current serial. -/
inductive BusMessage where
  | signal (serial : UInt32)
  | updateReply (serial : UInt32)
  | propertyReply (serial : UInt32)
deriving DecidableEq

/-- The message is a signal. -/
def BusMessage.isSignal : BusMessage → Bool
  | signal _ => true
  | _ => false

/-- Where `cli_update_command` is: before its subscription, in one of its two synchronous calls,
which the daemon may have handled already, in the main loop of `wait_for_serial`, or at its end. -/
inductive ClientPhase where
  | idle
  | calling (handled : Bool)
  | getting (serial : UInt32) (handled : Bool)
  | waiting (serial : UInt32)
  | succeeded (serial : UInt32)
  | failed
deriving DecidableEq

/-- A client: where it is, what is on its way to it, the signals that it has received but not
dispatched, and those in which its handler has not found the serial. -/
structure UpdateClient where
  phase : ClientPhase
  inbox : List BusMessage
  queued : List UInt32
  overlooked : List UInt32

/-- A client that has not been started. -/
def UpdateClient.initial : UpdateClient where
  phase := .idle
  inbox := []
  queued := []
  overlooked := []

/-- The client is subscribed to the signals of the daemon. -/
def ClientPhase.isSubscribed : ClientPhase → Bool
  | .calling _ => true
  | .getting _ _ => true
  | .waiting _ => true
  | _ => false

namespace UpdateClient

/-- The daemon sends messages to a client that is subscribed. -/
def send (client : UpdateClient) (messages : List BusMessage) : UpdateClient :=
  if client.phase.isSubscribed then { client with inbox := client.inbox ++ messages } else client

/-- The client receives a message: a signal is queued, and a reply ends one of its calls. -/
def receive (client : UpdateClient) : BusMessage → UpdateClient
  | .signal serial => { client with queued := client.queued ++ [serial] }
  | .updateReply serial =>
    match client.phase with
    | .calling _ =>
      { client with phase := if serial = 0 then .failed else .getting serial false }
    | _ => client
  | .propertyReply serial =>
    match client.phase with
    | .getting expected _ =>
      { client with phase := if serial = expected then .succeeded expected else .waiting expected }
    | _ => client

/-- The next message is delivered. -/
def deliver (client : UpdateClient) : UpdateClient :=
  match client.inbox with
  | [] => client
  | message :: rest => receive { client with inbox := rest } message

/-- The main loop dispatches the next signal: `on_properties_changed`, which may have found the serial
of the signal or not. -/
def dispatch (client : UpdateClient) (found : Bool) : UpdateClient :=
  match client.phase, client.queued with
  | .waiting expected, serial :: rest =>
    if !found then { client with queued := rest, overlooked := client.overlooked ++ [serial] }
    else if serial = expected then { client with phase := .succeeded expected, queued := rest }
    else { client with queued := rest }
  | _, _ => client

/-- A synchronous call fails: that of Update ends the command, the question for the serial is given
up, and a reply that is still on its way is dropped. -/
def callFails (client : UpdateClient) : UpdateClient :=
  match client.phase with
  | .calling _ => { client with phase := .failed }
  | .getting serial _ =>
    { client with phase := .waiting serial, inbox := client.inbox.filter BusMessage.isSignal }
  | _ => client

/-- `on_timeout`. -/
def timeout (client : UpdateClient) : UpdateClient :=
  match client.phase with
  | .waiting _ => { client with phase := .failed }
  | _ => client

end UpdateClient

/-! ## The bus -/

/-- The serials that are announced by some effects. -/
def signalsOf (effects : List Effect) : List UInt32 :=
  effects.filterMap fun
    | .serialSignal serial => some serial
    | _ => none

/-- The serial of the reply that ends a log. -/
def replySerial (log : List Effect) : UInt32 :=
  match log.getLast? with
  | some (.updateReplied serial _) => serial
  | _ => 0

/-- The daemon and its clients. -/
structure Bus where
  daemon : Daemon
  clients : ℕ → UpdateClient

/-- What can happen: the daemon handles an input of anyone else, a client is started, the daemon
handles one of its calls, a message to it is delivered, its main loop dispatches a signal, one of its
calls fails, its timeout expires. -/
inductive BusEvent where
  | input (i : Input)
  | subscribe (client : ℕ)
  | handleUpdate (client : ℕ) (servers : List VariantDict) (mode : UInt32) (outcomes : Outcomes)
      (isWireless : String → Bool)
  | handleGet (client : ℕ)
  | deliver (client : ℕ)
  | dispatch (client : ℕ) (found : Bool)
  | callFails (client : ℕ)
  | timeout (client : ℕ)

namespace Bus

/-- The daemon reaches another state and has sent the signals in between to all subscribers. -/
def advance (bus : Bus) (daemon : Daemon) : Bus where
  daemon := daemon
  clients k := (bus.clients k).send ((signalsOf (newEffects bus.daemon daemon)).map .signal)

/-- Change one client. -/
def modify (bus : Bus) (client : ℕ) (f : UpdateClient → UpdateClient) : Bus :=
  { bus with clients := Function.update bus.clients client (f (bus.clients client)) }

/-- The response to one event; an event that is not due changes nothing. -/
def step (p : Platform) (config : Config) (bus : Bus) : BusEvent → Bus
  | .input i => bus.advance (bus.daemon.step p config i)
  | .subscribe k =>
    if (bus.clients k).phase = .idle then
      bus.modify k fun _ => { UpdateClient.initial with phase := .calling false }
    else bus
  | .handleUpdate k servers mode outcomes isWireless =>
    if (bus.clients k).phase = .calling false then
      let daemon := bus.daemon.step p config ⟨.updateCall servers mode, outcomes, isWireless⟩
      (bus.advance daemon).modify k fun client =>
        { client.send [.updateReply (replySerial daemon.log)] with phase := .calling true }
    else bus
  | .handleGet k =>
    match (bus.clients k).phase with
    | .getting serial false =>
      bus.modify k fun client =>
        { client.send [.propertyReply bus.daemon.ctx.currentConfigurationSerial] with
          phase := .getting serial true }
    | _ => bus
  | .deliver k => bus.modify k UpdateClient.deliver
  | .dispatch k found => bus.modify k fun client => client.dispatch found
  | .callFails k => bus.modify k UpdateClient.callFails
  | .timeout k => bus.modify k UpdateClient.timeout

/-- The daemon when its main loop starts, and no clients. -/
def initial : Bus where
  daemon := .initial
  clients _ := .initial

end Bus

/-- The daemon and its clients as a transition system. -/
def bus (p : Platform) (config : Config) : System Bus BusEvent where
  init := .initial
  step := Bus.step p config

/-! ## What the daemon announces -/

/-- The last of several serials, or the one before them. -/
def lastSerial (serial : UInt32) (serials : List UInt32) : UInt32 :=
  serials.foldl (fun _ next => next) serial

lemma lastSerial_append (serial : UInt32) (l₁ l₂ : List UInt32) :
    lastSerial serial (l₁ ++ l₂) = lastSerial (lastSerial serial l₁) l₂ :=
  List.foldl_append

lemma lastSerial_eq_or_mem (serial : UInt32) (l : List UInt32) :
    lastSerial serial l = serial ∨ lastSerial serial l ∈ l := by
  induction l generalizing serial with
  | nil => exact Or.inl rfl
  | cons next l ih => exact Or.inr (List.mem_cons.mpr (ih next))

lemma signalsOf_append (l₁ l₂ : List Effect) :
    signalsOf (l₁ ++ l₂) = signalsOf l₁ ++ signalsOf l₂ :=
  List.filterMap_append

lemma mem_signalsOf {serial : UInt32} {effects : List Effect} :
    serial ∈ signalsOf effects ↔ .serialSignal serial ∈ effects := by
  unfold signalsOf
  rw [List.mem_filterMap]
  constructor
  · rintro ⟨e, he, hserial⟩
    cases e <;> cases hserial
    exact he
  · exact fun h => ⟨_, h, rfl⟩

/-- Effects that are not signals announce nothing. -/
lemma signalsOf_eq_nil {effects : List Effect} (h : ∀ t, .serialSignal t ∉ effects) :
    signalsOf effects = [] :=
  List.eq_nil_iff_forall_not_mem.mpr fun t ht => h t (mem_signalsOf.mp ht)

/-- Since some earlier state, the current serial has been announced whenever it changed. -/
def Announces (base : Daemon) (a : Moment) : Prop :=
  ∃ new, a.log = base.log ++ new ∧
    a.ctx.currentConfigurationSerial =
      lastSerial base.ctx.currentConfigurationSerial (signalsOf new)

/-- Whatever else is logged, the current serial stays the last one announced. -/
lemma Announces.extend {base : Daemon} {a b : Moment} (ha : Announces base a) {l : List Effect}
    (hlog : b.log = a.log ++ l)
    (hcurrent : b.ctx.currentConfigurationSerial =
      lastSerial a.ctx.currentConfigurationSerial (signalsOf l)) : Announces base b := by
  obtain ⟨new, hnew, hlast⟩ := ha
  refine ⟨new ++ l, by rw [hlog, hnew, List.append_assoc], ?_⟩
  rw [hcurrent, hlast, signalsOf_append, lastSerial_append]

/-- Every small step keeps this. -/
lemma Announces.micro {base : Daemon} {ok : Machine → Prop} {a b : Moment}
    (ha : Announces base a) (hstep : Micro p config ok a b) : Announces base b := by
  rcases hstep.edge_or_aside with ⟨o, r, hedge, rfl⟩ | haside
  · refine ha.extend rfl ?_
    have hsilent : ∀ l : List Effect, (∀ e ∈ l, e.isQuiet = true) → signalsOf l = [] :=
      fun l hl => signalsOf_eq_nil fun t ht => by simpa [Effect.isQuiet] using hl _ ht
    change r.ctx.currentConfigurationSerial = lastSerial _ (signalsOf r.effects)
    cases hedge.serialChange with
    | takeover _ _ hcur _ _ hquiet => rw [hsilent _ hquiet]; exact hcur
    | kickoff _ _ hcur _ _ hquiet => rw [hsilent _ hquiet]; exact hcur
    | quiet _ _ hcur _ _ _ hquiet => rw [hsilent _ hquiet]; exact hcur
    | applied _ _ _ hcur _ _ hquiet heffects =>
      rw [heffects, signalsOf_append, hsilent _ hquiet]
      exact hcur
  · obtain ⟨l, hlog, hl⟩ := haside.effects
    refine ha.extend hlog ?_
    rw [signalsOf_eq_nil fun t => serialSignal_not_mem_of_isAside hl, haside.current]
    rfl

/-- What one input adds to the log of the daemon, and how the current serial follows from it. -/
lemma announces_step (d : Daemon) (i : Input) :
    (d.step p config i).log = d.log ++ newEffects d (d.step p config i) ∧
      (d.step p config i).ctx.currentConfigurationSerial =
        lastSerial d.ctx.currentConfigurationSerial
          (signalsOf (newEffects d (d.step p config i))) := by
  have hstart : Announces d d.moment := ⟨[], by simp [Daemon.moment], rfl⟩
  obtain ⟨new, hlog, hcurrent⟩ :=
    invariant_of_step (fun _ _ ha hstep => Announces.micro ha hstep) hstart i
  have hnew : newEffects d (d.step p config i) = new := newEffects_eq hlog
  rw [hnew]
  exact ⟨hlog, hcurrent⟩

/-- An Update call ends with its reply. -/
lemma handleUpdate_replies (d : Daemon) (servers : List VariantDict) (mode : UInt32) (o : Outcomes)
    (isWireless : String → Bool) :
    let d' := d.step p config ⟨.updateCall servers mode, o, isWireless⟩
    ∃ text, .updateReplied (replySerial d'.log) text ∈ newEffects d d' := by
  intro d'
  have hmem : ∀ {l : List Effect} {serial : UInt32} {text : String}, d.log <+: l →
      d'.log = l ++ [.updateReplied serial text] →
      .updateReplied (replySerial d'.log) text ∈ newEffects d d' := by
    intro l serial text hpre hlog
    obtain ⟨new, rfl⟩ := hpre
    have hnew : newEffects d d' = new ++ [.updateReplied serial text] :=
      newEffects_eq (by rw [hlog, List.append_assoc])
    rw [hnew, hlog, replySerial, List.getLast?_concat]
    simp
  cases hdecode : decodeUpdateCall p isWireless servers mode with
  | error error =>
    have hd' : d' = ⟨d.ctx, d.log ++ [.updateReplied 0 error.text]⟩ := by
      change handleUpdateCall p config o isWireless servers mode d = _
      rw [handleUpdateCall, hdecode]
    exact ⟨error.text, hmem List.prefix_rfl (by rw [hd'])⟩
  | ok update =>
    obtain ⟨parsedServers, mode'⟩ := update
    have hd' : d' = (dispatch p config o .update (d.receive parsedServers mode')).accept := by
      change handleUpdateCall p config o isWireless servers mode d = _
      rw [handleUpdateCall, hdecode]
    have hgrows : d.log <+: (dispatch p config o .update (d.receive parsedServers mode')).log := by
      have hsteps := @micro_dispatch p config (fun _ => True) o (d.receive parsedServers mode')
        .update true (loopMeets_of_forall (fun _ => trivial) _ _)
      exact invariant_of_steps (J := fun a => d.log <+: a.log)
        (fun _ _ ha hstep => ha.trans hstep.log_grows) (List.prefix_append _ _) hsteps
    exact ⟨_, hmem hgrows (by rw [hd']; rfl)⟩

/-! ## What a client knows -/

section Consistent

variable (mayFail : Prop) (answered : UInt32 → Prop)

/-- The daemon has answered the client's Update with a serial. -/
structure Replied (new : List Effect) (serial : UInt32) : Prop where
  ne_zero : serial ≠ 0
  answered : answered serial
  logged : ∃ text, .updateReplied serial text ∈ new

/-- A client that subscribed when the current serial was `c`, after the effects `new` and with the
current serial `current`: every signal since then has been dispatched, is queued or is on its way,
in this order, and a client that waits for the current serial has been sent a signal with it.
`mayFail` tells whether the question for the serial may have failed, and `answered` which serials the
client's call may have been answered with. -/
inductive Consistent (c : UInt32) (new : List Effect) (current : UInt32) : UpdateClient → Prop where
  | calling {signals queued : List UInt32} (hsignals : signalsOf new = queued ++ signals) :
      Consistent c new current ⟨.calling false, signals.map .signal, queued, []⟩
  | answered {before after queued : List UInt32} {serial : UInt32}
      (hsignals : signalsOf new = queued ++ (before ++ after))
      (hreplied : serial ≠ 0 → Replied answered new serial) :
      Consistent c new current
        ⟨.calling true, before.map .signal ++ .updateReply serial :: after.map .signal, queued, []⟩
  | getting {signals queued : List UInt32} {serial : UInt32}
      (hsignals : signalsOf new = queued ++ signals) (hreplied : Replied answered new serial) :
      Consistent c new current ⟨.getting serial false, signals.map .signal, queued, []⟩
  | told {before after queued : List UInt32} {serial found : UInt32}
      (hsignals : signalsOf new = queued ++ (before ++ after))
      (hreplied : Replied answered new serial) (hfound : found = c ∨ found ∈ signalsOf new)
      (hcurrent : current = lastSerial found after) :
      Consistent c new current
        ⟨.getting serial true, before.map .signal ++ .propertyReply found :: after.map .signal,
          queued, []⟩
  | waiting {dispatched signals queued overlooked : List UInt32} {serial : UInt32}
      (hsignals : signalsOf new = dispatched ++ (queued ++ signals))
      (hdispatched : serial ∈ dispatched → serial ∈ overlooked)
      (hreplied : Replied answered new serial)
      (hcurrent : mayFail ∨ (current = serial → serial ∈ signalsOf new)) :
      Consistent c new current ⟨.waiting serial, signals.map .signal, queued, overlooked⟩
  | succeeded {serial : UInt32} {inbox : List BusMessage} {queued overlooked : List UInt32}
      (hreplied : Replied answered new serial) (hobserved : serial = c ∨ serial ∈ signalsOf new) :
      Consistent c new current ⟨.succeeded serial, inbox, queued, overlooked⟩
  | failed {inbox : List BusMessage} {queued overlooked : List UInt32} :
      Consistent c new current ⟨.failed, inbox, queued, overlooked⟩

end Consistent

lemma Replied.mono {answered : UInt32 → Prop} {new : List Effect} {serial : UInt32}
    (h : Replied answered new serial) (l : List Effect) : Replied answered (new ++ l) serial := by
  obtain ⟨hne, hanswered, text, hmem⟩ := h
  exact ⟨hne, hanswered, text, List.mem_append_left _ hmem⟩

namespace Consistent

variable {mayFail : Prop} {answered : UInt32 → Prop} {c current : UInt32} {new : List Effect}
  {client : UpdateClient}

/-- The daemon does something and sends the signals. -/
lemma send (h : Consistent mayFail answered c new current client) (l : List Effect) :
    Consistent mayFail answered c (new ++ l) (lastSerial current (signalsOf l))
      (client.send ((signalsOf l).map .signal)) := by
  have hmore : ∀ {front back : List UInt32}, signalsOf new = front ++ back →
      signalsOf (new ++ l) = front ++ (back ++ signalsOf l) := by
    intro front back hsignals
    rw [signalsOf_append, hsignals, List.append_assoc]
  have hkept : ∀ {serial : UInt32}, serial ∈ signalsOf new → serial ∈ signalsOf (new ++ l) := by
    intro serial hserial
    rw [signalsOf_append]
    exact List.mem_append_left _ hserial
  cases h with
  | calling hsignals =>
    have hnext := @Consistent.calling mayFail answered c _ (lastSerial current (signalsOf l)) _ _
      (hmore hsignals)
    rwa [List.map_append] at hnext
  | @answered before after queued serial hsignals hreplied =>
    have hsplit : signalsOf (new ++ l) = queued ++ (before ++ (after ++ signalsOf l)) := by
      rw [hmore hsignals, List.append_assoc]
    have hnext := @Consistent.answered mayFail answered c _ (lastSerial current (signalsOf l)) _ _ _ _
      hsplit fun hne => (hreplied hne).mono l
    simpa [UpdateClient.send, ClientPhase.isSubscribed] using hnext
  | getting hsignals hreplied =>
    have hnext := @Consistent.getting mayFail answered c _ (lastSerial current (signalsOf l)) _ _ _
      (hmore hsignals) (hreplied.mono l)
    rwa [List.map_append] at hnext
  | @told before after queued serial found hsignals hreplied hfound hcurrent =>
    have hsplit : signalsOf (new ++ l) = queued ++ (before ++ (after ++ signalsOf l)) := by
      rw [hmore hsignals, List.append_assoc]
    have hlast : lastSerial current (signalsOf l) = lastSerial found (after ++ signalsOf l) := by
      rw [lastSerial_append, ← hcurrent]
    have hnext := @Consistent.told mayFail answered _ _ _ _ _ _ _ _ hsplit (hreplied.mono l)
      (hfound.imp_right hkept) hlast
    simpa [UpdateClient.send, ClientPhase.isSubscribed] using hnext
  | @waiting dispatched signals queued overlooked serial hsignals hdispatched hreplied hcurrent =>
    have hsplit : signalsOf (new ++ l) = dispatched ++ (queued ++ (signals ++ signalsOf l)) := by
      rw [hmore hsignals, List.append_assoc]
    have hlast : mayFail ∨
        (lastSerial current (signalsOf l) = serial → serial ∈ signalsOf (new ++ l)) := by
      refine hcurrent.imp_right fun hcurrent heq => ?_
      rcases lastSerial_eq_or_mem current (signalsOf l) with hsame | hmem
      · exact hkept (hcurrent (hsame.symm.trans heq))
      · rw [signalsOf_append, ← heq]
        exact List.mem_append_right _ hmem
    have hnext := Consistent.waiting (c := c) hsplit hdispatched (hreplied.mono l) hlast
    rwa [List.map_append] at hnext
  | succeeded hreplied hobserved =>
    exact .succeeded (hreplied.mono l) (hobserved.imp_right hkept)
  | failed => exact .failed

/-- A message is delivered. -/
lemma deliver (h : Consistent mayFail answered c new current client) :
    Consistent mayFail answered c new current client.deliver := by
  have hqueue : ∀ {queued rest : List UInt32} {next : UInt32},
      queued ++ next :: rest = (queued ++ [next]) ++ rest := by
    intro queued rest next
    rw [List.append_assoc]
    rfl
  cases h with
  | @calling signals queued hsignals =>
    cases signals with
    | nil => exact .calling hsignals
    | cons next rest => exact .calling (hsignals.trans hqueue)
  | @answered before after queued serial hsignals hreplied =>
    cases before with
    | nil =>
      change Consistent mayFail answered c new current
        ⟨if serial = 0 then .failed else .getting serial false, after.map .signal, queued, []⟩
      split_ifs with hzero
      · exact .failed
      · exact .getting hsignals (hreplied hzero)
    | cons next before => exact .answered (hsignals.trans hqueue) hreplied
  | @getting signals queued serial hsignals hreplied =>
    cases signals with
    | nil => exact .getting hsignals hreplied
    | cons next rest => exact .getting (hsignals.trans hqueue) hreplied
  | @told before after queued serial found hsignals hreplied hfound hcurrent =>
    cases before with
    | nil =>
      change Consistent mayFail answered c new current
        ⟨if found = serial then .succeeded serial else .waiting serial, after.map .signal, queued, []⟩
      split_ifs with heq
      · exact .succeeded hreplied (heq ▸ hfound)
      · -- what has changed since the question was answered has been announced
        refine @Consistent.waiting _ _ _ _ _ [] _ _ _ _ hsignals (by simp) hreplied
          (Or.inr fun hserial => ?_)
        have hmem := (lastSerial_eq_or_mem found after).resolve_left
          (by rw [← hcurrent, hserial]; exact Ne.symm heq)
        rw [← hcurrent, hserial] at hmem
        rw [hsignals]
        exact List.mem_append_right _ hmem
    | cons next before => exact .told (hsignals.trans hqueue) hreplied hfound hcurrent
  | @waiting dispatched signals queued overlooked serial hsignals hdispatched hreplied hcurrent =>
    cases signals with
    | nil => exact .waiting hsignals hdispatched hreplied hcurrent
    | cons next rest =>
      refine .waiting ?_ hdispatched hreplied hcurrent
      rw [hsignals, hqueue]
  | succeeded hreplied hobserved =>
    rename_i serial inbox queued overlooked
    cases inbox with
    | nil => exact .succeeded hreplied hobserved
    | cons message rest => cases message <;> exact .succeeded hreplied hobserved
  | failed =>
    rename_i inbox queued overlooked
    cases inbox with
    | nil => exact .failed
    | cons message rest => cases message <;> exact .failed

/-- The main loop dispatches a signal. -/
lemma dispatch (h : Consistent mayFail answered c new current client) (found : Bool) :
    Consistent mayFail answered c new current (client.dispatch found) := by
  cases h with
  | calling hsignals => exact .calling hsignals
  | answered hsignals hreplied => exact .answered hsignals hreplied
  | getting hsignals hreplied => exact .getting hsignals hreplied
  | told hsignals hreplied hfound hcurrent => exact .told hsignals hreplied hfound hcurrent
  | @waiting dispatched signals queued overlooked serial hsignals hdispatched hreplied hcurrent =>
    cases queued with
    | nil => exact .waiting hsignals hdispatched hreplied hcurrent
    | cons next rest =>
      have hsplit : signalsOf new = (dispatched ++ [next]) ++ (rest ++ signals) := by
        rw [hsignals, List.append_assoc]
        rfl
      change Consistent mayFail answered c new current
        (if !found then ⟨.waiting serial, signals.map .signal, rest, overlooked ++ [next]⟩
          else if next = serial then ⟨.succeeded serial, signals.map .signal, rest, overlooked⟩
          else ⟨.waiting serial, signals.map .signal, rest, overlooked⟩)
      split_ifs with hfound heq
      · refine .waiting hsplit (fun hmem => ?_) hreplied hcurrent
        rcases List.mem_append.mp hmem with hmem | hmem
        · exact List.mem_append_left _ (hdispatched hmem)
        · exact List.mem_append_right _ hmem
      · refine .succeeded hreplied (Or.inr ?_)
        rw [hsplit, heq]
        simp
      · refine .waiting hsplit (fun hmem => ?_) hreplied hcurrent
        rcases List.mem_append.mp hmem with hmem | hmem
        · exact hdispatched hmem
        · exact absurd (List.mem_singleton.mp hmem).symm heq
  | succeeded hreplied hobserved => exact .succeeded hreplied hobserved
  | failed => exact .failed

lemma filter_isSignal_map (signals : List UInt32) :
    (signals.map BusMessage.signal).filter BusMessage.isSignal = signals.map .signal :=
  List.filter_eq_self.mpr fun message hmem => by
    obtain ⟨serial, -, rfl⟩ := List.mem_map.mp hmem
    rfl

/-- A call fails. -/
lemma callFails (h : Consistent mayFail answered c new current client) (hfail : mayFail) :
    Consistent mayFail answered c new current client.callFails := by
  cases h with
  | calling | answered => exact .failed
  | @getting signals queued serial hsignals hreplied =>
    have hnext := @Consistent.waiting _ _ c _ current [] _ _ [] _ hsignals (by simp) hreplied
      (Or.inl hfail)
    rwa [← filter_isSignal_map signals] at hnext
  | @told before after queued serial found hsignals hreplied hfound hcurrent =>
    have hnext := @Consistent.waiting _ _ c _ current [] _ _ [] _ hsignals (by simp) hreplied
      (Or.inl hfail)
    have hinbox : (before.map BusMessage.signal ++ BusMessage.propertyReply found ::
        after.map BusMessage.signal).filter BusMessage.isSignal = (before ++ after).map .signal := by
      rw [List.map_append, List.filter_append, filter_isSignal_map]
      exact congrArg _ (filter_isSignal_map after)
    rwa [← hinbox] at hnext
  | waiting hsignals hdispatched hreplied hcurrent =>
    exact .waiting hsignals hdispatched hreplied hcurrent
  | succeeded hreplied hobserved => exact .succeeded hreplied hobserved
  | failed => exact .failed

/-- The timeout expires. -/
lemma timeout (h : Consistent mayFail answered c new current client) :
    Consistent mayFail answered c new current client.timeout := by
  cases h with
  | calling hsignals => exact .calling hsignals
  | answered hsignals hreplied => exact .answered hsignals hreplied
  | getting hsignals hreplied => exact .getting hsignals hreplied
  | told hsignals hreplied hfound hcurrent => exact .told hsignals hreplied hfound hcurrent
  | waiting => exact .failed
  | succeeded hreplied hobserved => exact .succeeded hreplied hobserved
  | failed => exact .failed

/-- The daemon has answered the Update call. -/
lemma reply (h : Consistent mayFail answered c new current client)
    (hphase : client.phase = .calling false) {serial : UInt32} (hanswered : answered serial)
    (hlogged : ∃ text, .updateReplied serial text ∈ new) :
    Consistent mayFail answered c new current
      { client.send [.updateReply serial] with phase := .calling true } := by
  cases h with
  | @calling signals queued hsignals =>
    refine @Consistent.answered _ _ _ _ _ signals [] _ _ ?_ fun hne => ⟨hne, hanswered, hlogged⟩
    rw [List.append_nil]
    exact hsignals
  | _ => cases hphase

/-- The daemon has told the client the current serial. -/
lemma tell (h : Consistent mayFail answered c new current client) {serial : UInt32}
    (hphase : client.phase = .getting serial false)
    (hcurrent : current = lastSerial c (signalsOf new)) :
    Consistent mayFail answered c new current
      { client.send [.propertyReply current] with phase := .getting serial true } := by
  cases h with
  | @getting signals queued serial' hsignals hreplied =>
    obtain rfl : serial' = serial := by
      injection hphase
    refine @Consistent.told _ _ _ _ _ signals [] _ _ _ ?_ hreplied ?_ rfl
    · rw [List.append_nil]
      exact hsignals
    · rw [hcurrent]
      exact lastSerial_eq_or_mem c (signalsOf new)
  | _ => cases hphase

end Consistent

/-! ## Runs of the bus -/

/-- Since some earlier state of the bus, the client `k` has been consistent with the daemon. -/
def KeepsUp (mayFail : Prop) (answered : UInt32 → Prop) (base : Daemon) (k : ℕ) (b : Bus) : Prop :=
  ∃ new, b.daemon.log = base.log ++ new ∧
    b.daemon.ctx.currentConfigurationSerial =
      lastSerial base.ctx.currentConfigurationSerial (signalsOf new) ∧
    Consistent mayFail answered base.ctx.currentConfigurationSerial new
      b.daemon.ctx.currentConfigurationSerial (b.clients k)

/-- In the state `b` the daemon handles the call of the client `k`, with the given serial in the
reply. -/
def Answers (p : Platform) (config : Config) (k : ℕ) (serial : UInt32) (b : Bus) (e : BusEvent) :
    Prop :=
  (∃ servers mode o isWireless, e = .handleUpdate k servers mode o isWireless) ∧
    (b.clients k).phase = .calling false ∧ replySerial (b.step p config e).daemon.log = serial

section KeepsUp

variable {mayFail : Prop} {answered : UInt32 → Prop} {base : Daemon} {k : ℕ} {b : Bus}

/-- The daemon handles an input and sends the signals. -/
lemma KeepsUp.advance (h : KeepsUp mayFail answered base k b) (i : Input) :
    KeepsUp mayFail answered base k (b.advance (b.daemon.step p config i)) := by
  obtain ⟨new, hlog, hcurrent, hclient⟩ := h
  obtain ⟨hgrown, hnext⟩ := @announces_step p config b.daemon i
  refine ⟨new ++ newEffects b.daemon (b.daemon.step p config i), ?_, ?_, ?_⟩
  · rw [← List.append_assoc, ← hlog]
    exact hgrown
  · rw [signalsOf_append, lastSerial_append, ← hcurrent]
    exact hnext
  · have hsent := hclient.send (newEffects b.daemon (b.daemon.step p config i))
    rw [← hnext] at hsent
    exact hsent

/-- Something happens to a client. -/
lemma KeepsUp.modify (h : KeepsUp mayFail answered base k b) {j : ℕ}
    {f : UpdateClient → UpdateClient}
    (hf : j = k → ∀ new, b.daemon.log = base.log ++ new →
      b.daemon.ctx.currentConfigurationSerial =
        lastSerial base.ctx.currentConfigurationSerial (signalsOf new) →
      Consistent mayFail answered base.ctx.currentConfigurationSerial new
        b.daemon.ctx.currentConfigurationSerial (b.clients k) →
      Consistent mayFail answered base.ctx.currentConfigurationSerial new
        b.daemon.ctx.currentConfigurationSerial (f (b.clients k))) :
    KeepsUp mayFail answered base k (b.modify j f) := by
  obtain ⟨new, hlog, hcurrent, hclient⟩ := h
  refine ⟨new, hlog, hcurrent, ?_⟩
  change Consistent _ _ _ _ _ (Function.update b.clients j (f (b.clients j)) k)
  by_cases hjk : j = k
  · subst hjk
    rw [Function.update_self]
    exact hf rfl new hlog hcurrent hclient
  · rw [Function.update_of_ne (Ne.symm hjk)]
    exact hclient

/-- A client that is consistent has been started. -/
lemma KeepsUp.phase_ne_idle (h : KeepsUp mayFail answered base k b) :
    (b.clients k).phase ≠ .idle := by
  obtain ⟨_, -, -, hclient⟩ := h
  intro hidle
  generalize b.clients k = client at hclient hidle
  cases hclient <;> cases hidle

/-- Whatever happens on the bus, the client stays consistent with the daemon. -/
lemma KeepsUp.step (h : KeepsUp mayFail answered base k b) (e : BusEvent)
    (hfail : e = .callFails k → mayFail)
    (hanswered : ∀ serial, Answers p config k serial b e → answered serial) :
    KeepsUp mayFail answered base k (b.step p config e) := by
  cases e with
  | input i => exact h.advance i
  | subscribe j =>
    dsimp only [Bus.step]
    split_ifs with hidle
    · refine h.modify fun hjk => ?_
      subst hjk
      exact absurd hidle h.phase_ne_idle
    · exact h
  | handleUpdate j servers mode o isWireless =>
    dsimp only [Bus.step]
    split_ifs with hphase
    · refine (h.advance ⟨.updateCall servers mode, o, isWireless⟩).modify ?_
      rintro rfl new hlog - hclient
      refine hclient.reply ?_ ?_ ?_
      · change ((b.clients j).send _).phase = .calling false
        rw [UpdateClient.send]
        split_ifs <;> exact hphase
      · refine hanswered _ ⟨⟨servers, mode, o, isWireless, rfl⟩, hphase, ?_⟩
        dsimp only [Bus.step]
        rw [if_pos hphase]
        rfl
      · obtain ⟨text, hmem⟩ :=
          @handleUpdate_replies p config b.daemon servers mode o isWireless
        refine ⟨text, ?_⟩
        obtain ⟨before, hbefore, -, -⟩ := h
        have hgrown := (@announces_step p config b.daemon
          ⟨.updateCall servers mode, o, isWireless⟩).1
        have hnew : new = before ++ newEffects b.daemon
            (b.daemon.step p config ⟨.updateCall servers mode, o, isWireless⟩) := by
          refine @List.append_cancel_left _ base.log _ _ ?_
          rw [← hlog, ← List.append_assoc, ← hbefore]
          exact hgrown
        rw [hnew]
        exact List.mem_append_right _ hmem
    · exact h
  | handleGet j =>
    dsimp only [Bus.step]
    split
    · rename_i serial hphase
      refine h.modify ?_
      rintro rfl new - hcurrent hclient
      exact hclient.tell hphase hcurrent
    · exact h
  | deliver j => exact h.modify fun _ _ _ _ hclient => hclient.deliver
  | dispatch j found => exact h.modify fun _ _ _ _ hclient => hclient.dispatch found
  | callFails j =>
    refine h.modify ?_
    rintro rfl new - - hclient
    exact hclient.callFails (hfail rfl)
  | timeout j => exact h.modify fun _ _ _ _ hclient => hclient.timeout

end KeepsUp

/-- The serials with which the call of the client `k` is answered in a run. -/
def AnsweredIn (p : Platform) (config : Config) (b : Bus) (k : ℕ) (es : List BusEvent)
    (serial : UInt32) : Prop :=
  ∃ before e, (bus p config).Passes b es before e ∧ Answers p config k serial before e

/-- A client stays consistent with the daemon after it has subscribed. -/
lemma keepsUp_run (b : Bus) {k : ℕ} (hidle : (b.clients k).phase = .idle) {mayFail : Prop}
    (es : List BusEvent) (hfail : ∀ e ∈ es, e = .callFails k → mayFail) :
    KeepsUp mayFail (AnsweredIn p config (b.step p config (.subscribe k)) k es) b.daemon k
      ((bus p config).runFrom (b.step p config (.subscribe k)) es) := by
  have hstart : KeepsUp mayFail (AnsweredIn p config (b.step p config (.subscribe k)) k es) b.daemon k
      (b.step p config (.subscribe k)) := by
    have hcalling : Bus.step p config b (.subscribe k) =
        b.modify k fun _ => { UpdateClient.initial with phase := .calling false } := if_pos hidle
    have hclient : (Bus.step p config b (.subscribe k)).clients k =
        { UpdateClient.initial with phase := .calling false } := by
      rw [hcalling]
      exact Function.update_self _ _ _
    have hdaemon : (Bus.step p config b (.subscribe k)).daemon = b.daemon := by
      rw [hcalling]
      rfl
    refine ⟨[], by rw [hdaemon, List.append_nil], by rw [hdaemon]; rfl, ?_⟩
    rw [hclient]
    exact @Consistent.calling _ _ _ _ _ [] _ rfl
  have hmeets := (bus p config).meets_passes (b.step p config (.subscribe k)) es
  refine (bus p config).invariant_of_meets (fun b' e hb hpass => hb.step e ?_ ?_) hstart hmeets
  · obtain ⟨es₁, es₂, rfl, -⟩ := hpass
    exact hfail e (List.mem_append_right _ List.mem_cons_self)
  · exact fun serial hanswers => ⟨b', e, hpass, hanswers⟩

/-- A client that reports success has not been misled, whatever happened on the bus since it
subscribed: the daemon has handled its call and answered it with the serial, and the serial was the
current one when the client subscribed or has been announced since. -/
theorem succeeded_of_announced (p : Platform) (config : Config) (b : Bus) (k : ℕ)
    (hidle : (b.clients k).phase = .idle) (es : List BusEvent) (serial : UInt32) :
    let later := (bus p config).runFrom (b.step p config (.subscribe k)) es
    (later.clients k).phase = .succeeded serial →
    serial ≠ 0 ∧ AnsweredIn p config (b.step p config (.subscribe k)) k es serial ∧
      (∃ text, .updateReplied serial text ∈ newEffects b.daemon later.daemon) ∧
      (b.daemon.ctx.currentConfigurationSerial = serial ∨
        .serialSignal serial ∈ newEffects b.daemon later.daemon) := by
  intro later hphase
  obtain ⟨new, hlog, -, hclient⟩ : KeepsUp True _ b.daemon k later :=
    keepsUp_run b hidle es fun _ _ _ => trivial
  rw [newEffects_eq hlog]
  generalize later.clients k = client at hclient hphase
  cases hclient with
  | succeeded hreplied hobserved =>
    obtain rfl := ClientPhase.succeeded.inj hphase
    exact ⟨hreplied.ne_zero, hreplied.answered, hreplied.logged,
      hobserved.imp Eq.symm mem_signalsOf.mp⟩
  | _ => cases hphase

/-- A client whose Update is applied while the daemon is running. -/
theorem succeeded_of_announced_running :
    let b := (bus .plain .plain).run
      [.input (.ok .nameAcquired), .input (.ok (.jobFinished "done"))]
    let es : List BusEvent :=
      [.handleUpdate 0 [[("address", .byteString [192, 0, 2, 1])]] 0 .allOk fun _ => false,
        .deliver 0, .deliver 0, .handleGet 0, .deliver 0]
    let later := (bus .plain .plain).runFrom (b.step .plain .plain (.subscribe 0)) es
    (b.clients 0).phase = .idle ∧ (later.clients 0).phase = .succeeded 3 ∧ (3 : UInt32) ≠ 0 ∧
      AnsweredIn .plain .plain (b.step .plain .plain (.subscribe 0)) 0 es 3 ∧
      (∃ text, .updateReplied 3 text ∈ newEffects b.daemon later.daemon) ∧
      (b.daemon.ctx.currentConfigurationSerial = 3 ∨
        .serialSignal 3 ∈ newEffects b.daemon later.daemon) :=
  ⟨by decide, by decide, succeeded_of_announced .plain .plain _ 0 (by decide) _ 3 (by decide)⟩

/-- No announcement is lost on its way to a client: if all its calls are answered and it waits for a
serial that has been announced since it subscribed, or that is the current one, then the signal with
this serial is on its way to the client, is queued by its main loop, or has been passed to its handler,
which has not found the serial in it. -/
theorem announced_reaches_handler (p : Platform) (config : Config) (b : Bus) (k : ℕ)
    (hidle : (b.clients k).phase = .idle) (es : List BusEvent)
    (hcalls : ∀ e ∈ es, e ≠ .callFails k) (serial : UInt32) :
    let later := (bus p config).runFrom (b.step p config (.subscribe k)) es
    (later.clients k).phase = .waiting serial →
    .serialSignal serial ∈ newEffects b.daemon later.daemon ∨
      later.daemon.ctx.currentConfigurationSerial = serial →
    .signal serial ∈ (later.clients k).inbox ∨ serial ∈ (later.clients k).queued ∨
      serial ∈ (later.clients k).overlooked := by
  intro later hphase hannounced
  obtain ⟨new, hlog, -, hclient⟩ : KeepsUp False _ b.daemon k later :=
    keepsUp_run b hidle es fun e he hfails => hcalls e he hfails
  rw [newEffects_eq hlog] at hannounced
  generalize later.clients k = client at hclient hphase ⊢
  cases hclient with
  | @waiting dispatched signals queued overlooked serial' hsignals hdispatched hreplied hcurrent =>
    obtain rfl := ClientPhase.waiting.inj hphase
    have hmem : serial' ∈ signalsOf new := by
      rcases hannounced with hsignal | hserial
      · exact mem_signalsOf.mpr hsignal
      · exact hcurrent.resolve_left id hserial
    rw [hsignals, List.mem_append, List.mem_append] at hmem
    rcases hmem with hmem | hmem | hmem
    · exact Or.inr (Or.inr (hdispatched hmem))
    · exact Or.inr (Or.inl hmem)
    · exact Or.inl (List.mem_map_of_mem hmem)
  | _ => cases hphase

/-- A client whose Update is taken over before the cache has been started, and applied while the client
waits. -/
theorem announced_reaches_handler_starting :
    let b := (bus .plain .plain).run [.input (.ok .nameAcquired)]
    let later := (bus .plain .plain).runFrom (b.step .plain .plain (.subscribe 0))
      [.handleUpdate 0 [[("address", .byteString [192, 0, 2, 1])]] 0 .allOk fun _ => false,
        .deliver 0, .handleGet 0, .deliver 0, .input (.ok (.jobFinished "done")), .deliver 0]
    (later.clients 0).phase = .waiting 3 ∧ later.daemon.ctx.currentConfigurationSerial = 3 ∧
      (.signal 3 ∈ (later.clients 0).inbox ∨ 3 ∈ (later.clients 0).queued ∨
        3 ∈ (later.clients 0).overlooked) := by
  refine ⟨by decide, by decide, ?_⟩
  exact announced_reaches_handler .plain .plain _ 0 (by decide) _ (by simp) 3 (by decide)
    (Or.inr (by decide))

/-! ## Distinct serials -/

/-- The reply to an Update call that passes parsing carries the requested serial. -/
lemma replySerial_step {d : Daemon} {servers : List VariantDict} {mode : UInt32} {o : Outcomes}
    {isWireless : String → Bool} {result : List ServerUri × Mode}
    (hdecode : decodeUpdateCall p isWireless servers mode = .ok result) :
    let d' := d.step p config ⟨.updateCall servers mode, o, isWireless⟩
    d' = (dispatch p config o .update (d.receive result.1 result.2)).accept ∧
      replySerial d'.log = d'.ctx.requestedConfigurationSerial := by
  intro d'
  have hd' : d' = (dispatch p config o .update (d.receive result.1 result.2)).accept := by
    change handleUpdateCall p config o isWireless servers mode d = _
    rw [handleUpdateCall, hdecode]
  refine ⟨hd', ?_⟩
  rw [hd', replySerial, Daemon.accept, List.getLast?_concat]

/-- Two Updates are never acknowledged with the same serial, if the later one is taken over and the
serial does not run through its whole cycle in between, whatever happens between the calls. -/
theorem acknowledged_serials_distinct (p : Platform) (config : Config) (is js : List Input)
    (o₁ o₂ : Outcomes) (isWireless₁ isWireless₂ : String → Bool)
    (servers₁ servers₂ : List VariantDict) (mode₁ mode₂ : UInt32)
    (result₁ result₂ : List ServerUri × Mode)
    (hdecode₁ : decodeUpdateCall p isWireless₁ servers₁ mode₁ = .ok result₁)
    (hdecode₂ : decodeUpdateCall p isWireless₂ servers₂ mode₂ = .ok result₂) :
    let first := ((daemon p config).run is).step p config
      ⟨.updateCall servers₁ mode₁, o₁, isWireless₁⟩
    let between := (daemon p config).runFrom first js
    let second := between.step p config ⟨.updateCall servers₂ mode₂, o₂, isWireless₂⟩
    isTakeover between.ctx.currentState .update = true →
    advancesIn (newEffects first second) < 2 ^ 32 - 1 →
    replySerial first.log ≠ replySerial second.log := by
  intro first between second htake hcycle
  have hreply₁ : replySerial first.log = first.ctx.requestedConfigurationSerial :=
    (replySerial_step hdecode₁).2
  obtain ⟨hsecond, hreply₂⟩ :
      second = (dispatch p config o₂ .update (between.receive result₂.1 result₂.2)).accept ∧
        replySerial second.log = second.ctx.requestedConfigurationSerial :=
    replySerial_step hdecode₂
  obtain ⟨new₀, hlog₀, hafter⟩ := @afterReply_run p config _ first rfl js
  obtain ⟨new₁, hlog₁, hcall⟩ := @duringCall_dispatch p config _ o₂ result₂.1
    result₂.2 htake
  have htaken : 0 < advancesIn new₁ := by
    rcases hcall.taken with ⟨h, -⟩ | ⟨-, hpos, -⟩
    · cases h
    · exact hpos
  have hnew : newEffects first second = (new₀ ++ new₁) ++
      [.updateReplied second.ctx.requestedConfigurationSerial "Update accepted"] := by
    refine newEffects_eq ?_
    rw [← List.append_assoc, ← List.append_assoc, ← hlog₀, hsecond]
    exact congrArg (· ++ _) hlog₁
  have hcount : advancesIn (newEffects first second) = advancesIn new₀ + advancesIn new₁ := by
    rw [hnew]
    simp [Effect.isAdvance]
  have hserial : second.ctx.requestedConfigurationSerial =
      nextSerial^[advancesIn new₁ + advancesIn new₀] first.ctx.requestedConfigurationSerial := by
    rw [Function.iterate_add_apply, ← hafter.requested, hsecond]
    exact hcall.requested
  have hnonzero : first.ctx.requestedConfigurationSerial ≠ 0 := by
    have hrun := @serialsNonzero_run p config
      (is ++ [⟨.updateCall servers₁ mode₁, o₁, isWireless₁⟩])
    rw [System.run_append] at hrun
    exact hrun.1
  rw [hreply₁, hreply₂, hserial]
  exact (iterate_nextSerial_ne hnonzero (by omega) (by omega)).symm

/-- Two Updates in a row while the daemon is running. -/
theorem acknowledged_serials_distinct_running :
    let is := [Input.ok .nameAcquired, .ok (.jobFinished "done")]
    let first := ((daemon .plain .plain).run is).step .plain .plain (.ok (.updateCall [] 0))
    let second := first.step .plain .plain (.ok (.updateCall [] 1))
    replySerial first.log ≠ replySerial second.log :=
  acknowledged_serials_distinct .plain .plain _ [] .allOk .allOk (fun _ => false) (fun _ => false)
    [] [] 0 1 ([], .backup) ([], .prefer) rfl rfl (by decide) (by decide)

end Dnsconfd
