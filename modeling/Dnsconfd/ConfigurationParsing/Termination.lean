import Dnsconfd.ConfigurationParsing.Entries
import Dnsconfd.ConfigurationParsing.GlobalOptions

/-!
# The loops over events stop

The loops inside of the loop over a file have no test for the end of the stream.  Each of them stops
at the end of a sequence only, and one that asks for an event after the end of the stream is given
empty events for ever.  They rely on the end of a sequence still being ahead whenever they are
entered, although an inner loop may stop at the end of a nested sequence and leave the stream at
another depth.

Let the stream be one that libyaml can deliver: every start has its end, the last event is the end of
the stream, or the parser fails somewhere before that.  Then no loop asks for more than that
(`event_loops_stop`).
-/

namespace Dnsconfd.ConfigFile

open Library

/-! ## What libyaml delivers -/

/-- The events that libyaml delivers, up to the end of the stream or to the first failure. -/
inductive Delivered : List YamlEvent → Prop
  | complete {events : List YamlEvent} (h : Balanced events) : Delivered (events ++ [.streamEnd])
  | failed {events rest : List YamlEvent} (h : Balanced (events ++ rest)) :
    Delivered (events ++ [.failure])

/-- The events of documents are balanced. -/
lemma balanced_documents (documents : List YamlNode) :
    Balanced (documents.flatMap fun root => .other :: (root.events ++ [.other])) := by
  induction documents with
  | nil => exact .nil
  | cons root documents ih =>
    have hroot : Balanced (root.events ++ [.other]) := (Balanced.node root).append (.other .nil)
    exact (Balanced.other hroot).append ih

/-- A stream of documents is one that libyaml can deliver. -/
lemma delivered_streamEvents (documents : List YamlNode) : Delivered (streamEvents documents) :=
  .complete (.other (balanced_documents documents))

/-! ## The reader comes to an end -/

namespace Reader

variable {net : Inet} {r r' : Reader} {s : FileState} {events : List YamlEvent}

/-- A failure is an error of whatever loop meets it. -/
lemma step_failure (h : ∀ s, r ≠ .done s) : ∃ error, r.step net .failure = .error error := by
  cases r with
  | file | servers | serverList | zones | includes => exact ⟨_, rfl⟩
  | done s => exact absurd rfl (h s)

/-- Only the end of the stream ends the reading. -/
lemma ne_done_of_run (h : r.run net events = .ok r') (hr : ∀ s, r ≠ .done s)
    (hevents : .streamEnd ∉ events) (s : FileState) : r' ≠ .done s := by
  induction events generalizing r with
  | nil =>
    rw [run, Except.ok.injEq] at h
    exact h ▸ hr s
  | cons event events ih =>
    obtain ⟨r₁, hstep, hrest⟩ := run_cons_eq_ok_iff.mp h
    rw [List.mem_cons, not_or] at hevents
    refine ih hrest (fun s' hdone => ?_) hevents.2
    rw [hdone] at hstep
    cases move_of_step hstep with
    | finish => exact hevents.1 rfl
    | stay => exact hr s' rfl

/-- An error stays one, whatever comes behind. -/
lemma run_append_of_error {error : Option String} (h : r.run net events = .error error)
    (rest : List YamlEvent) : r.run net (events ++ rest) = .error error := by
  induction events generalizing r with
  | nil => cases h
  | cons event events ih =>
    rw [List.cons_append, run]
    rw [run] at h
    cases hstep : r.step net event with
    | error error' =>
      rw [hstep] at h
      exact h
    | ok r₁ =>
      rw [hstep] at h
      exact ih h

/-- A run goes on where its first part has come to. -/
lemma run_append_of_ok (h : r.run net events = .ok r') (rest : List YamlEvent) :
    r.run net (events ++ rest) = r'.run net rest := by
  induction events generalizing r with
  | nil =>
    rw [run, Except.ok.injEq] at h
    rw [h, List.nil_append]
  | cons event events ih =>
    obtain ⟨r₁, hstep, hrest⟩ := run_cons_eq_ok_iff.mp h
    rw [List.cons_append, run, hstep]
    exact ih hrest

/-- The reader of a file comes to an end with what libyaml delivers. -/
theorem outcome_ne_none (hevents : Delivered events) (s : FileState) :
    outcome ((Reader.file s).run net events) ≠ none := by
  cases hevents with
  | @complete events hbalanced =>
    cases hrun : (Reader.file s).run net events with
    | error error =>
      rw [run_append_of_error hrun]
      simp [outcome]
    | ok r =>
      -- all loops have been left, so the loop of the file meets the end of the stream
      have hwithin : r.Within [] := (within_nil_iff.mpr ⟨s, rfl⟩).balanced hbalanced hrun
      obtain ⟨s', rfl⟩ := within_nil_iff.mp hwithin
      rw [run_append_of_ok hrun]
      exact Option.some_ne_none (Except.ok s')
  | @failed events rest hbalanced =>
    have hend : .streamEnd ∉ events := fun hmem =>
      (hbalanced.ne_of_mem (List.mem_append_left rest hmem)).1 rfl
    cases hrun : (Reader.file s).run net events with
    | error error =>
      rw [run_append_of_error hrun]
      simp [outcome]
    | ok r =>
      have hdone := ne_done_of_run hrun (fun s' => by simp) hend
      obtain ⟨error, herror⟩ := @step_failure net r hdone
      rw [run_append_of_ok hrun, run_singleton, herror]
      simp [outcome]

end Reader

/-! ## The result -/

/-- No loop over the events of a file asks for an event that is not there.  `file` is about the loop
of the file, which also leaves nothing of a stream that it accepts; the others are about the loops
that it calls and those that these call, wherever in the stream they are entered. -/
structure LoopsStop (net : Inet) (events : List YamlEvent) (start : FileState) : Prop where
  file : (∃ error, readAll (fileBody net) events start = some (.error error)) ∨
    ∃ s, readAll (fileBody net) events start = some (.ok (s, []))
  servers : ∀ before rest s, events = before ++ .sequenceStart :: rest →
    (Reader.file start).run net before = .ok (.file s) →
    s.currentKey = some "static_servers" →
    parseStaticServers net rest s.config.staticServers ≠ none
  zones : ∀ before rest s, events = before ++ .sequenceStart :: rest →
    (Reader.file start).run net before = .ok (.file s) → s.currentKey = some "rpz" →
    parseRpzZones rest s.config.rpzZones ≠ none
  includes : ∀ before rest s, events = before ++ .sequenceStart :: rest →
    (Reader.file start).run net before = .ok (.file s) → s.currentKey = some "include" →
    parseIncludeList rest s.includePaths ≠ none
  lists : ∀ before rest s state draft key, events = before ++ .sequenceStart :: rest →
    (Reader.file start).run net before = .ok (.servers s state) →
    state.currentServer = some draft → state.currentKey = some key →
    readServerList net state draft key rest ≠ none

section Stop

variable {net : Inet} {events : List YamlEvent} {start : FileState}

/-- A run that comes to an end does so from every point on. -/
lemma outcome_behind_ne_none (h : outcome ((Reader.file start).run net events) ≠ none)
    {before rest : List YamlEvent} (hsplit : events = before ++ rest) {r : Reader}
    (hrun : (Reader.file start).run net before = .ok r) : outcome (r.run net rest) ≠ none := by
  rwa [hsplit, Reader.run_append_of_ok hrun] at h

/-- If a run comes to an end behind a loop, the loop does. -/
lemma ne_none_of_behind {σ ε β : Type} {onError : ε → β}
    {onOk : σ → List YamlEvent → Option β} {result : Parsed σ ε}
    (h : behind onError onOk result ≠ none) : result ≠ none := by
  rintro rfl
  exact h rfl

/-- What the loop of a file leaves is behind the end of the stream. -/
lemma rest_eq_nil {s : FileState} {rest : List YamlEvent} (hevents : Delivered events)
    (h : readAll (fileBody net) events start = some (.ok (s, rest))) : rest = [] := by
  obtain ⟨s₁, event, rest₁, hlast, hsuffix⟩ := finished_of_readAll (follows_fileBody net) h
  obtain ⟨-, rfl, rfl⟩ := fileBody_finished hlast
  cases hevents with
  | @complete events hbalanced =>
    rcases List.eq_nil_or_concat rest with rfl | ⟨rest', last, rfl⟩
    · rfl
    · -- otherwise the end of the stream is among the balanced events
      rw [List.concat_eq_append, ← List.cons_append] at hsuffix
      obtain ⟨before, hbefore⟩ := hsuffix
      rw [← List.append_assoc] at hbefore
      have hinside : before ++ .streamEnd :: rest' = events := List.append_inj_left' hbefore rfl
      have hmem : .streamEnd ∈ events := by simp [← hinside]
      exact absurd rfl (hbalanced.ne_of_mem hmem).1
  | @failed events rest hbalanced =>
    have hmem : .streamEnd ∈ events ++ [.failure] := hsuffix.subset List.mem_cons_self
    have hevents : YamlEvent.streamEnd ∈ events := by simpa using hmem
    exact absurd rfl (hbalanced.ne_of_mem (List.mem_append_left rest hevents)).1

end Stop

/-- The loops stop.  Over a stream that libyaml can deliver the loop of a file ends with an error or
having taken the last event, and every loop inside of it returns. -/
theorem event_loops_stop (net : Inet) {events : List YamlEvent} (hevents : Delivered events)
    (start : FileState) : LoopsStop net events start := by
  have hend : outcome ((Reader.file start).run net events) ≠ none :=
    Reader.outcome_ne_none hevents start
  constructor
  · rw [outcome_run_file] at hend
    rcases hread : readAll (fileBody net) events start with _ | error | ⟨s, rest⟩
    · rw [hread] at hend
      exact absurd rfl hend
    · exact Or.inl ⟨error, rfl⟩
    · rw [rest_eq_nil hevents hread]
      exact Or.inr ⟨s, rfl⟩
  · intro before rest s hsplit hrun hkey
    have hloop := outcome_behind_ne_none hend hsplit hrun
    rw [Reader.run, Reader.step, if_pos hkey] at hloop
    dsimp only at hloop
    rw [outcome_run_servers] at hloop
    exact ne_none_of_behind hloop
  · intro before rest s hsplit hrun hkey
    have hloop := outcome_behind_ne_none hend hsplit hrun
    rw [Reader.run, Reader.step, if_neg (by simp [hkey]), if_pos hkey] at hloop
    dsimp only at hloop
    rw [outcome_run_zones] at hloop
    exact ne_none_of_behind hloop
  · intro before rest s hsplit hrun hkey
    have hloop := outcome_behind_ne_none hend hsplit hrun
    rw [outcome_run_file, readAll_cons (consumes_fileBody net)] at hloop
    intro hnone
    apply hloop
    simp only [fileBody, hkey, readOptionList, hnone]
    rfl
  · intro before rest s state draft key hsplit hrun hserver hkey
    have hloop := outcome_behind_ne_none hend hsplit hrun
    rw [outcome_run_servers, readAll_cons (consumes_staticServersBody net)] at hloop
    intro hnone
    apply hloop
    simp only [staticServersBody, hserver, hkey, hnone]
    rfl

/-- A list inside of the list of paths: the loop over the paths stops at the end of the inner one, and
the file is read to its end. -/
theorem event_loops_stop_nested :
    Delivered (streamEvents [.mapping
      [(.scalar "include", .sequence [.sequence [.scalar "a"], .scalar "include"]),
        (.scalar "b", .reference)]]) ∧
      LoopsStop .loopback (streamEvents [.mapping
        [(.scalar "include", .sequence [.sequence [.scalar "a"], .scalar "include"]),
          (.scalar "b", .reference)]]) ⟨.empty, [], none, 0⟩ :=
  ⟨delivered_streamEvents _, event_loops_stop .loopback (delivered_streamEvents _) _⟩

end Dnsconfd.ConfigFile
