import Dnsconfd.ConfigurationParsing.Termination

/-!
# Keys and values of a configuration file

The loop of a file tells keys from values by whether there is a current key.  It takes a scalar for a
key or for a value in turn, wherever in the document the scalar is: an alias is skipped, so that the
next key becomes a value, and the scalars of a list that the loop does not expect are read one by
one.  A document that is read out of step in this way can still be accepted.

For the documents that are accepted this file says exactly which ones are read in step
(`top_level_in_step_iff`): each key is a scalar, and its value is a scalar or a list that the loop
hands over to another one which reads it to its end (`FieldsInStep`).
-/

namespace Dnsconfd.ConfigFile

open Library

/-! ## In step -/

/-- The loop that the list under a key is read by. -/
def listLoop (key : String) : Option Loop :=
  if key = "static_servers" then some .servers
  else if key = "rpz" then some .zones
  else if key = "include" then some .includes
  else none

/-- The events of a file before the first key of its document. -/
def documentStart : List YamlEvent :=
  [.other, .other, .mappingStart]

/-- The document is read in step.  A scalar that the loop of the file takes for a key is a key of the
document, a scalar that it stores as the value of a key is the value of that key in the document, and
every key of the document has been applied to its value or is one of those whose values are lists. -/
structure TopLevelInStep (net : Inet) (start : FileState) (fields : List (YamlNode × YamlNode)) :
    Prop where
  keys : ∀ before value rest s,
    streamEvents [.mapping fields] = before ++ .scalar value :: rest →
    (Reader.file start).run net before = .ok (.file s) → s.currentKey = none →
    ∃ fields₁ node fields₂, fields = fields₁ ++ (.scalar value, node) :: fields₂ ∧
      before = documentStart ++ fieldsEvents fields₁
  values : ∀ before value rest s key,
    streamEvents [.mapping fields] = before ++ .scalar value :: rest →
    (Reader.file start).run net before = .ok (.file s) → s.currentKey = some key →
    ∃ fields₁ fields₂, fields = fields₁ ++ (.scalar key, .scalar value) :: fields₂ ∧
      before = documentStart ++ (fieldsEvents fields₁ ++ [.scalar key])
  applied : ∀ fields₁ key value fields₂, fields = fields₁ ++ (key, value) :: fields₂ →
    ∃ k, key = .scalar k ∧ (listLoop k ≠ none ∨ ∃ text s, value = .scalar text ∧
      (Reader.file start).run net (documentStart ++ (fieldsEvents fields₁ ++ [.scalar k])) =
        .ok (.file s) ∧ s.currentKey = some k)

/-- The same for a reader that is in front of the first of the given fields. -/
structure InStep (net : Inet) (r : Reader) (fields : List (YamlNode × YamlNode)) : Prop where
  keys : ∀ before value rest s, fieldsEvents fields = before ++ .scalar value :: rest →
    r.run net before = .ok (.file s) → s.currentKey = none →
    ∃ fields₁ node fields₂, fields = fields₁ ++ (.scalar value, node) :: fields₂ ∧
      before = fieldsEvents fields₁
  values : ∀ before value rest s key, fieldsEvents fields = before ++ .scalar value :: rest →
    r.run net before = .ok (.file s) → s.currentKey = some key →
    ∃ fields₁ fields₂, fields = fields₁ ++ (.scalar key, .scalar value) :: fields₂ ∧
      before = fieldsEvents fields₁ ++ [.scalar key]
  applied : ∀ fields₁ key value fields₂, fields = fields₁ ++ (key, value) :: fields₂ →
    ∃ k, key = .scalar k ∧ (listLoop k ≠ none ∨ ∃ text s, value = .scalar text ∧
      r.run net (fieldsEvents fields₁ ++ [.scalar k]) = .ok (.file s) ∧ s.currentKey = some k)

/-- The same for one field. -/
structure HeadInStep (net : Inet) (r : Reader) (key value : YamlNode) : Prop where
  keys : ∀ before text rest s, key.events ++ value.events = before ++ .scalar text :: rest →
    r.run net before = .ok (.file s) → s.currentKey = none → before = [] ∧ key = .scalar text
  values : ∀ before text rest s k, key.events ++ value.events = before ++ .scalar text :: rest →
    r.run net before = .ok (.file s) → s.currentKey = some k →
    before = [.scalar k] ∧ key = .scalar k ∧ value = .scalar text
  applied : ∃ k, key = .scalar k ∧ (listLoop k ≠ none ∨ ∃ text s, value = .scalar text ∧
    r.run net [.scalar k] = .ok (.file s) ∧ s.currentKey = some k)

/-! ## One field after the other -/

lemma events_ne_nil (node : YamlNode) : node.events ≠ [] := by
  cases node <;> simp [YamlNode.events]

lemma fieldsEvents_cons (key value : YamlNode) (fields : List (YamlNode × YamlNode)) :
    fieldsEvents ((key, value) :: fields) = (key.events ++ value.events) ++ fieldsEvents fields := by
  rw [fieldsEvents, List.append_assoc]

section Fields

variable {net : Inet} {r r₁ : Reader} {key value : YamlNode} {fields : List (YamlNode × YamlNode)}

/-- A scalar in a field or behind it. -/
lemma scalar_position {l before rest rest' : List YamlEvent} {text : String}
    (h : l ++ rest' = before ++ .scalar text :: rest) :
    (∃ rest'', l = before ++ .scalar text :: rest'') ∨
      ∃ before', before = l ++ before' ∧ rest' = before' ++ .scalar text :: rest := by
  rcases List.append_eq_append_iff.mp h with ⟨before', hbefore, hrest⟩ | ⟨middle, hl, hrest⟩
  · exact Or.inr ⟨before', hbefore, hrest⟩
  · rcases middle with _ | ⟨event, middle⟩
    · refine Or.inr ⟨[], ?_, hrest.symm⟩
      rw [hl, List.append_nil, List.append_nil]
    · rw [List.cons_append, List.cons.injEq] at hrest
      exact Or.inl ⟨middle, by rw [hl, hrest.1]⟩

lemma fieldsEvents_of_head {before rest : List YamlEvent} {text : String}
    (fields : List (YamlNode × YamlNode))
    (h : key.events ++ value.events = before ++ .scalar text :: rest) :
    fieldsEvents ((key, value) :: fields) =
      before ++ .scalar text :: (rest ++ fieldsEvents fields) := by
  rw [fieldsEvents_cons, h, List.append_assoc, List.cons_append]

lemma fieldsEvents_of_tail {before rest : List YamlEvent} {text : String} (key value : YamlNode)
    (h : fieldsEvents fields = before ++ .scalar text :: rest) :
    fieldsEvents ((key, value) :: fields) =
      ((key.events ++ value.events) ++ before) ++ .scalar text :: rest := by
  rw [fieldsEvents_cons, h, List.append_assoc (key.events ++ value.events)]

lemma InStep.head (h : InStep net r ((key, value) :: fields)) : HeadInStep net r key value := by
  -- a field before the position would be longer than what is before the position
  have hlonger : ∀ {before rest : List YamlEvent} {text : String}
      {fields₁ : List (YamlNode × YamlNode)} {l : List YamlEvent},
      key.events ++ value.events = before ++ .scalar text :: rest →
      before = fieldsEvents ((key, value) :: fields₁) ++ l → False := by
    intro before rest text fields₁ l hevents hbefore
    have hlength := congrArg List.length hevents
    rw [hbefore, fieldsEvents_cons] at hlength
    simp only [List.length_append, List.length_cons] at hlength
    omega
  refine ⟨fun before text rest s hevents hrun hnone => ?_,
    fun before text rest s k hevents hrun hsome => ?_, ?_⟩
  · have hall := fieldsEvents_of_head fields hevents
    obtain ⟨_ | ⟨field, fields₁⟩, node, fields₂, hfields, hbefore⟩ :=
      h.keys before text _ s hall hrun hnone
    · obtain ⟨hkey, -⟩ := Prod.mk.inj (List.cons.inj hfields).1
      exact ⟨hbefore.trans rfl, hkey⟩
    · rw [← (List.cons.inj hfields).1] at hbefore
      exact (hlonger hevents (hbefore.trans (List.append_nil _).symm)).elim
  · have hall := fieldsEvents_of_head fields hevents
    obtain ⟨_ | ⟨field, fields₁⟩, fields₂, hfields, hbefore⟩ :=
      h.values before text _ s k hall hrun hsome
    · obtain ⟨hkey, hvalue⟩ := Prod.mk.inj (List.cons.inj hfields).1
      exact ⟨hbefore.trans rfl, hkey, hvalue⟩
    · rw [← (List.cons.inj hfields).1] at hbefore
      exact (hlonger hevents hbefore).elim
  · exact h.applied [] key value fields rfl

lemma InStep.tail (h : InStep net r ((key, value) :: fields))
    (hrun : r.run net (key.events ++ value.events) = .ok r₁) : InStep net r₁ fields := by
  have hcontinue : ∀ {before : List YamlEvent} {r' : Reader}, r₁.run net before = .ok r' →
      r.run net ((key.events ++ value.events) ++ before) = .ok r' := fun hbefore =>
    Reader.run_append_eq_ok_iff.mpr ⟨r₁, hrun, hbefore⟩
  have hpositive : 0 < key.events.length ∧ 0 < value.events.length :=
    ⟨List.length_pos_of_ne_nil (events_ne_nil key), List.length_pos_of_ne_nil (events_ne_nil value)⟩
  refine ⟨fun before text rest s hevents hbefore hnone => ?_,
    fun before text rest s k hevents hbefore hsome => ?_,
    fun fields₁ key' value' fields₂ hfields => ?_⟩
  · have hall := fieldsEvents_of_tail key value hevents
    obtain ⟨_ | ⟨field, fields₁⟩, node, fields₂, hfields, hposition⟩ :=
      h.keys _ text rest s hall (hcontinue hbefore) hnone
    · have hlength := congrArg List.length hposition
      simp only [fieldsEvents, List.length_append, List.length_nil] at hlength
      omega
    · obtain ⟨rfl, hrest⟩ := List.cons.inj hfields
      rw [fieldsEvents_cons] at hposition
      exact ⟨fields₁, node, fields₂, hrest, List.append_cancel_left hposition⟩
  · have hall := fieldsEvents_of_tail key value hevents
    obtain ⟨_ | ⟨field, fields₁⟩, fields₂, hfields, hposition⟩ :=
      h.values _ text rest s k hall (hcontinue hbefore) hsome
    · have hlength := congrArg List.length hposition
      simp only [fieldsEvents, List.length_append, List.length_nil, List.length_singleton] at hlength
      omega
    · obtain ⟨rfl, hrest⟩ := List.cons.inj hfields
      rw [fieldsEvents_cons, List.append_assoc (key.events ++ value.events)] at hposition
      exact ⟨fields₁, fields₂, hrest, List.append_cancel_left hposition⟩
  · obtain ⟨k, hkey, happlied⟩ :=
      h.applied ((key, value) :: fields₁) key' value' fields₂ (by rw [hfields, List.cons_append])
    refine ⟨k, hkey, happlied.imp_right ?_⟩
    rintro ⟨text, s, hvalue, hbefore, hsome⟩
    rw [fieldsEvents_cons, List.append_assoc (key.events ++ value.events),
      Reader.run_append_of_ok hrun] at hbefore
    exact ⟨text, s, hvalue, hbefore, hsome⟩

/-- Fields are read in step exactly if the first one is and the others behind it are. -/
lemma inStep_cons_iff (hrun : r.run net (key.events ++ value.events) = .ok r₁) :
    InStep net r ((key, value) :: fields) ↔ HeadInStep net r key value ∧ InStep net r₁ fields := by
  refine ⟨fun h => ⟨h.head, h.tail hrun⟩, fun ⟨hhead, htail⟩ => ⟨?_, ?_, ?_⟩⟩
  · intro before text rest s hevents hbefore hnone
    rw [fieldsEvents_cons] at hevents
    rcases scalar_position hevents with ⟨rest', hinside⟩ | ⟨before', rfl, hbehind⟩
    · obtain ⟨rfl, rfl⟩ := hhead.keys before text rest' s hinside hbefore hnone
      exact ⟨[], value, fields, rfl, rfl⟩
    · rw [Reader.run_append_of_ok hrun] at hbefore
      obtain ⟨fields₁, node, fields₂, rfl, rfl⟩ := htail.keys before' text rest s hbehind hbefore hnone
      exact ⟨(key, value) :: fields₁, node, fields₂, rfl, (fieldsEvents_cons _ _ _).symm⟩
  · intro before text rest s k hevents hbefore hsome
    rw [fieldsEvents_cons] at hevents
    rcases scalar_position hevents with ⟨rest', hinside⟩ | ⟨before', rfl, hbehind⟩
    · obtain ⟨rfl, rfl, rfl⟩ := hhead.values before text rest' s k hinside hbefore hsome
      exact ⟨[], fields, rfl, rfl⟩
    · rw [Reader.run_append_of_ok hrun] at hbefore
      obtain ⟨fields₁, fields₂, rfl, rfl⟩ := htail.values before' text rest s k hbehind hbefore hsome
      refine ⟨(key, value) :: fields₁, fields₂, rfl, ?_⟩
      rw [fieldsEvents_cons, List.append_assoc (key.events ++ value.events)]
  · rintro (_ | ⟨field, fields₁⟩) key' value' fields₂ hfields
    · obtain ⟨rfl, rfl⟩ := Prod.mk.inj (List.cons.inj hfields).1
      exact hhead.applied
    · obtain ⟨rfl, hrest⟩ := List.cons.inj hfields
      obtain ⟨k, hkey, happlied⟩ := htail.applied fields₁ key' value' fields₂ hrest
      refine ⟨k, hkey, happlied.imp_right ?_⟩
      rintro ⟨text, s, hvalue, hbefore, hsome⟩
      refine ⟨text, s, hvalue, ?_, hsome⟩
      rw [fieldsEvents_cons, List.append_assoc (key.events ++ value.events),
        Reader.run_append_of_ok hrun]
      exact hbefore

lemma inStep_nil (net : Inet) (r : Reader) : InStep net r [] := by
  refine ⟨fun before text rest s hevents => ?_, fun before text rest s k hevents => ?_,
    fun fields₁ key value fields₂ hfields => ?_⟩
  · simp [fieldsEvents] at hevents
  · simp [fieldsEvents] at hevents
  · simp at hfields

end Fields

/-! ## Where the loops over lists end -/

/-- The events behind the point where all of the given loops have been left, the innermost first.
The loops end at the first end of a sequence that they see; only the loop over static servers reads
the lists inside of a server by another loop. -/
def afterLoops : List Loop → List YamlEvent → List YamlEvent
  | [], events => events
  | _ :: _, [] => []
  | _ :: loops, .sequenceEnd :: events => afterLoops loops events
  | [.servers], .sequenceStart :: events => afterLoops [.serverList, .servers] events
  | loops, _ :: events => afterLoops loops events

@[simp] lemma afterLoops_nil (events : List YamlEvent) : afterLoops [] events = events := by
  cases events <;> rfl

namespace Reader

variable {net : Inet} {r r' : Reader} {loops : List Loop} {events : List YamlEvent}

/-- If the reader is in the loop of the file, it expects a key. -/
def ExpectsKey (r : Reader) : Prop :=
  ∀ s, r = .file s → s.currentKey = none

/-- An event in a loop; where the last loop is left, a key is expected. -/
lemma afterLoops_step {loop : Loop} {event : YamlEvent} (hloops : r.loops = some (loop :: loops))
    (h : r.step net event = .ok r') :
    ∃ loops', r'.loops = some loops' ∧ r'.ExpectsKey ∧ r'.depth = r.depth ∧
      ∀ events, afterLoops (loop :: loops) (event :: events) = afterLoops loops' events := by
  have hmove := move_of_step h
  cases hmove with
  | enterServers | enterZones | enterIncludes | skipSequence | fileMapping | fileKey | fileOption
  | fileOther | finish | stay => cases hloops
  | enterList =>
    obtain ⟨rfl, rfl⟩ := List.cons.inj (Option.some.inj hloops)
    exact ⟨_, rfl, fun s hs => (by cases hs), rfl, fun _ => rfl⟩
  | leaveServers | leaveZones | leaveIncludes =>
    obtain ⟨rfl, rfl⟩ := List.cons.inj (Option.some.inj hloops)
    refine ⟨[], rfl, fun s hs => ?_, rfl, fun _ => rfl⟩
    rw [← Reader.file.inj hs]
    rfl
  | leaveList =>
    obtain ⟨rfl, rfl⟩ := List.cons.inj (Option.some.inj hloops)
    exact ⟨_, rfl, fun s hs => (by cases hs), rfl, fun _ => rfl⟩
  | serverStart | serverEnd | serverScalar | zoneStart | zoneEnd | zoneScalar =>
    obtain ⟨rfl, rfl⟩ := List.cons.inj (Option.some.inj hloops)
    exact ⟨_, rfl, fun s hs => (by cases hs), rfl, fun _ => rfl⟩
  | serversOther hevent =>
    obtain ⟨rfl, rfl⟩ := List.cons.inj (Option.some.inj hloops)
    refine ⟨_, rfl, fun s hs => (by cases hs), rfl, fun _ => ?_⟩
    rcases hevent with rfl | rfl | ⟨rfl, -⟩ <;> rfl
  | zonesOther hevent =>
    obtain ⟨rfl, rfl⟩ := List.cons.inj (Option.some.inj hloops)
    refine ⟨_, rfl, fun s hs => (by cases hs), rfl, fun _ => ?_⟩
    rcases hevent with rfl | rfl | rfl | ⟨rfl, -⟩ <;> rfl
  | listOther hevent | includesOther hevent =>
    obtain ⟨rfl, rfl⟩ := List.cons.inj (Option.some.inj hloops)
    refine ⟨_, rfl, fun s hs => (by cases hs), rfl, fun _ => ?_⟩
    cases event <;> first | rfl | exact absurd rfl hevent

/-- Where the reader is back in the loop of the file, it is behind the loops. -/
lemma suffix_afterLoops {s : FileState} {before : List YamlEvent} (hloops : r.loops = some loops)
    (h : r.run net before = .ok (.file s)) (rest : List YamlEvent) :
    rest <:+ afterLoops loops (before ++ rest) := by
  induction before generalizing r loops with
  | nil =>
    rw [run, Except.ok.injEq] at h
    subst h
    obtain rfl := Option.some.inj hloops
    rw [List.nil_append, afterLoops_nil]
  | cons event before ih =>
    obtain ⟨r₁, hstep, hrun⟩ := run_cons_eq_ok_iff.mp h
    cases loops with
    | nil =>
      rw [afterLoops_nil]
      exact List.suffix_append _ rest
    | cons loop loops =>
      obtain ⟨loops', hloops', -, -, hafter⟩ := afterLoops_step hloops hstep
      rw [List.cons_append, hafter]
      exact ih hloops' hrun

/-- In the document, where a key is expected, only a scalar makes a difference. -/
lemma step_file_of_expectsKey {s : FileState} {event : YamlEvent} (hkey : s.currentKey = none)
    (hdepth : s.depth = 1) (hscalar : ∀ value, event ≠ .scalar value) (hend : event ≠ .streamEnd)
    (h : (Reader.file s).step net event = .ok r') : r' = .file s := by
  cases move_of_step h with
  | enterServers hsome | enterZones hsome | enterIncludes hsome => simp [hkey] at hsome
  | skipSequence => rfl
  | fileMapping hzero => omega
  | fileKey | fileOption => exact absurd rfl (hscalar _)
  | fileOther => rfl
  | finish => exact absurd rfl hend

/-- The reader in a loop, or in the loop of the file where it expects a key, stays like this if there
is no scalar behind the loop. -/
lemma expectsKey_run (hloops : r.loops = some loops) (hkey : r.ExpectsKey) (hdepth : r.depth = 1)
    (hend : .streamEnd ∉ events) (hscalar : ∀ value, .scalar value ∉ afterLoops loops events)
    (h : r.run net events = .ok r') : r'.ExpectsKey ∧ r'.depth = 1 := by
  induction events generalizing r loops with
  | nil =>
    rw [run, Except.ok.injEq] at h
    exact h ▸ ⟨hkey, hdepth⟩
  | cons event events ih =>
    obtain ⟨r₁, hstep, hrun⟩ := run_cons_eq_ok_iff.mp h
    rw [List.mem_cons, not_or] at hend
    cases loops with
    | nil =>
      obtain ⟨s, rfl⟩ := within_nil_iff.mp ⟨[], hloops, List.suffix_refl []⟩
      simp only [afterLoops_nil, List.mem_cons, not_or] at hscalar
      have hother : ∀ value, event ≠ .scalar value := fun value => Ne.symm (hscalar value).1
      obtain rfl := step_file_of_expectsKey (hkey s rfl) hdepth hother (Ne.symm hend.1) hstep
      refine ih hloops hkey hdepth hend.2 (fun value => ?_) hrun
      rw [afterLoops_nil]
      exact (hscalar value).2
    | cons loop loops =>
      obtain ⟨loops', hloops', hkey', hdepth', hafter⟩ := afterLoops_step hloops hstep
      rw [hafter] at hscalar
      exact ih hloops' hkey' (hdepth'.trans hdepth) hend.2 hscalar hrun

/-- Otherwise the first such scalar is taken for a key. -/
lemma exists_scalar_run (hloops : r.loops = some loops) (hkey : r.ExpectsKey) (hdepth : r.depth = 1)
    (hend : .streamEnd ∉ events) {text : String} (hscalar : .scalar text ∈ afterLoops loops events)
    (h : r.run net events = .ok r') :
    ∃ before value rest s, events = before ++ .scalar value :: rest ∧
      r.run net before = .ok (.file s) ∧ s.currentKey = none := by
  induction events generalizing r loops with
  | nil => cases loops <;> cases hscalar
  | cons event events ih =>
    obtain ⟨r₁, hstep, hrun⟩ := run_cons_eq_ok_iff.mp h
    rw [List.mem_cons, not_or] at hend
    have hbehind : (∃ before value rest s, events = before ++ .scalar value :: rest ∧
        r₁.run net before = .ok (.file s) ∧ s.currentKey = none) →
        ∃ before value rest s, event :: events = before ++ .scalar value :: rest ∧
          r.run net before = .ok (.file s) ∧ s.currentKey = none := by
      rintro ⟨before, value, rest, s, rfl, hbefore, hnone⟩
      exact ⟨event :: before, value, rest, s, rfl, run_cons_eq_ok_iff.mpr ⟨r₁, hstep, hbefore⟩,
        hnone⟩
    cases loops with
    | nil =>
      obtain ⟨s, rfl⟩ := within_nil_iff.mp ⟨[], hloops, List.suffix_refl []⟩
      by_cases hother : ∀ value, event ≠ .scalar value
      · obtain rfl := step_file_of_expectsKey (hkey s rfl) hdepth hother (Ne.symm hend.1) hstep
        have hmem : .scalar text ∈ afterLoops [] events := by
          rw [afterLoops_nil] at hscalar ⊢
          exact (List.mem_cons.mp hscalar).resolve_left fun hevent => hother text hevent.symm
        exact hbehind (ih hloops hkey hdepth hend.2 hmem hrun)
      · push Not at hother
        obtain ⟨value, rfl⟩ := hother
        exact ⟨[], value, events, s, rfl, rfl, hkey s rfl⟩
    | cons loop loops =>
      obtain ⟨loops', hloops', hkey', hdepth', hafter⟩ := afterLoops_step hloops hstep
      rw [hafter] at hscalar
      exact hbehind (ih hloops' hkey' (hdepth'.trans hdepth) hend.2 hscalar hrun)

end Reader

/-! ## The fields that are read in step -/

/-- Every key is a scalar, and its value is a scalar or a list which the loop over it reads to the
last scalar.  A list key may also have an alias for its value, if no other key comes behind it. -/
def FieldsInStep : List (YamlNode × YamlNode) → Prop
  | [] => True
  | (.scalar _, .scalar _) :: fields => FieldsInStep fields
  | (.scalar key, .sequence items) :: fields =>
    (∃ loop, listLoop key = some loop ∧
      ∀ value, .scalar value ∉ afterLoops [loop] (itemsEvents items ++ [.sequenceEnd])) ∧
      FieldsInStep fields
  | (.scalar key, .reference) :: fields => listLoop key ≠ none ∧ fields = []
  | _ :: _ => False

section Heads

variable {net : Inet} {s : FileState} {r : Reader} {k : String}

lemma run_key (hkey : s.currentKey = none) (events : List YamlEvent) :
    (Reader.file s).run net (.scalar k :: events) =
      (Reader.file { s with currentKey := some k }).run net events := by
  have hstep : (Reader.file s).step net (.scalar k) =
      .ok (.file { s with currentKey := some k }) := by
    simp [Reader.step, fileBody, hkey, readerOf]
  rw [Reader.run, hstep]

/-- A field whose key is a scalar: no scalar of its value is taken for anything else. -/
lemma headInStep_scalar_iff {value : YamlNode} (hkey : s.currentKey = none) :
    HeadInStep net (.file s) (.scalar k) value ↔
      (∀ before text rest t, value.events = before ++ .scalar text :: rest →
        (Reader.file { s with currentKey := some k }).run net before = .ok (.file t) →
        t.currentKey = some k ∧ before = [] ∧ value = .scalar text) ∧
      (listLoop k ≠ none ∨ ∃ text, value = .scalar text) := by
  constructor
  · intro h
    refine ⟨fun before text rest t hevents hrun => ?_, ?_⟩
    · have hall : (YamlNode.scalar k).events ++ value.events =
          (.scalar k :: before) ++ .scalar text :: rest := by rw [hevents]; rfl
      rw [← run_key hkey] at hrun
      cases hcurrent : t.currentKey with
      | none => exact absurd (h.keys _ text rest t hall hrun hcurrent).1 (List.cons_ne_nil _ _)
      | some k' =>
        obtain ⟨hbefore, -, hvalue⟩ := h.values _ text rest t k' hall hrun hcurrent
        obtain ⟨hk, hnil⟩ := List.cons.inj hbefore
        rw [YamlEvent.scalar.inj hk]
        exact ⟨rfl, hnil, hvalue⟩
    · obtain ⟨k', hk, happlied⟩ := h.applied
      rw [YamlNode.scalar.inj hk]
      exact happlied.imp_right fun ⟨text, _, hvalue, _⟩ => ⟨text, hvalue⟩
  · rintro ⟨hscalars, happlied⟩
    -- a scalar of the field is its key, or it is in the value
    have hposition : ∀ {before rest : List YamlEvent} {text : String} {t : FileState},
        (YamlNode.scalar k).events ++ value.events = before ++ .scalar text :: rest →
        (Reader.file s).run net before = .ok (.file t) →
        (before = [] ∧ text = k ∧ t = s) ∨
          (before = [.scalar k] ∧ t.currentKey = some k ∧ value = .scalar text) := by
      intro before rest text t hevents hrun
      rcases before with _ | ⟨event, before⟩
      · rw [Reader.run, Except.ok.injEq] at hrun
        exact Or.inl ⟨rfl, (YamlEvent.scalar.inj (List.cons.inj hevents).1).symm,
          (Reader.file.inj hrun).symm⟩
      · obtain ⟨hevent, hevents⟩ := List.cons.inj hevents
        rw [← hevent, run_key hkey] at hrun
        obtain ⟨hcurrent, rfl, hvalue⟩ := hscalars before text rest t hevents hrun
        exact Or.inr ⟨by rw [← hevent], hcurrent, hvalue⟩
    refine ⟨fun before text rest t hevents hrun hnone => ?_,
      fun before text rest t k' hevents hrun hsome => ?_, k, rfl, happlied.imp_right ?_⟩
    · rcases hposition hevents hrun with ⟨hbefore, htext, -⟩ | ⟨-, hcurrent, -⟩
      · exact ⟨hbefore, by rw [htext]⟩
      · simp [hcurrent] at hnone
    · rcases hposition hevents hrun with ⟨-, -, rfl⟩ | ⟨hbefore, hcurrent, hvalue⟩
      · simp [hkey] at hsome
      · obtain rfl := Option.some.inj (hcurrent.symm.trans hsome)
        exact ⟨hbefore, rfl, hvalue⟩
    · rintro ⟨text, hvalue⟩
      exact ⟨text, _, hvalue, run_key hkey [], rfl⟩

/-- A scalar is the value of its key. -/
lemma headInStep_option (hkey : s.currentKey = none) (text : String) :
    HeadInStep net (.file s) (.scalar k) (.scalar text) := by
  refine (headInStep_scalar_iff hkey).mpr ⟨fun before text' rest t hevents hrun => ?_,
    Or.inr ⟨text, rfl⟩⟩
  rcases before with _ | ⟨event, before⟩
  · rw [Reader.run, Except.ok.injEq, Reader.file.injEq] at hrun
    rw [YamlEvent.scalar.inj (List.cons.inj hevents).1, ← hrun]
    exact ⟨rfl, rfl, rfl⟩
  · have hrest := (List.cons.inj hevents).2
    simp at hrest

/-- Behind a scalar value a key is expected. -/
lemma run_option (hkey : s.currentKey = none) {text : String}
    (h : (Reader.file s).run net [.scalar k, .scalar text] = .ok r) :
    ∃ s₁, r = .file s₁ ∧ s₁.currentKey = none ∧ s₁.depth = s.depth := by
  rw [run_key hkey, Reader.run_singleton] at h
  cases Reader.move_of_step h with
  | fileKey hnone => cases hnone
  | fileOption hsome hstore => exact ⟨_, rfl, rfl, (Reader.storeOption_frame hstore).2.2⟩
  | fileOther hevent => simp at hevent

/-- An alias is skipped. -/
lemma headInStep_reference_iff (hkey : s.currentKey = none) :
    HeadInStep net (.file s) (.scalar k) .reference ↔ listLoop k ≠ none := by
  rw [headInStep_scalar_iff hkey]
  have hnone : ∀ before text rest, YamlNode.reference.events ≠ before ++ .scalar text :: rest := by
    intro before text rest hevents
    have hmem : YamlEvent.scalar text ∈ YamlNode.reference.events := by
      rw [hevents]
      exact List.mem_append_right before List.mem_cons_self
    simp [YamlNode.events] at hmem
  constructor
  · rintro ⟨-, hloop | ⟨text, htext⟩⟩
    · exact hloop
    · cases htext
  · exact fun hloop => ⟨fun before text rest t hevents => absurd hevents (hnone before text rest),
      Or.inl hloop⟩

/-- The key in front of an alias takes the next scalar for its value. -/
lemma inStep_behind_reference_iff {fields : List (YamlNode × YamlNode)} (hkey : s.currentKey = some k) :
    InStep net (.file s) fields ↔ fields = [] := by
  refine ⟨fun h => ?_, fun h => h ▸ inStep_nil net _⟩
  rcases fields with _ | ⟨⟨key, value⟩, fields⟩
  · rfl
  · obtain ⟨k', rfl, -⟩ := h.head.applied
    obtain ⟨fields₁, fields₂, -, hbefore⟩ :=
      h.values [] k' (value.events ++ fieldsEvents fields) s k rfl rfl hkey
    simp at hbefore

/-- The list under a list key enters its loop. -/
lemma run_sequence_of_listLoop {loop : Loop} (hkey : s.currentKey = some k)
    (hloop : listLoop k = some loop) :
    ∃ r : Reader, r.loops = some [loop] ∧ r.ExpectsKey ∧ r.depth = s.depth ∧
      ∀ events, (Reader.file s).run net (.sequenceStart :: events) = r.run net events := by
  rw [listLoop] at hloop
  split_ifs at hloop with hservers hzones hincludes
  · obtain rfl := Option.some.inj hloop
    refine ⟨.servers s ⟨s.config.staticServers, none, none⟩, rfl, fun t ht => (by cases ht), rfl,
      fun events => ?_⟩
    rw [Reader.run, Reader.step, if_pos (hkey.trans (congrArg some hservers))]
  · obtain rfl := Option.some.inj hloop
    refine ⟨.zones s ⟨s.config.rpzZones, none, none⟩, rfl, fun t ht => (by cases ht), rfl,
      fun events => ?_⟩
    rw [Reader.run, Reader.step, hkey, hzones]
    rfl
  · obtain rfl := Option.some.inj hloop
    refine ⟨.includes s s.includePaths, rfl, fun t ht => (by cases ht), rfl, fun events => ?_⟩
    rw [Reader.run, Reader.step, hkey, hincludes]
    rfl

lemma streamEnd_not_mem_items (items : List YamlNode) :
    .streamEnd ∉ itemsEvents items ++ [.sequenceEnd] := by
  intro hmem
  rcases List.mem_append.mp hmem with hmem | hmem
  · exact ((Balanced.items items).ne_of_mem hmem).1 rfl
  · simp at hmem

/-- A list is read in step if the loop over it reads all of its scalars. -/
lemma headInStep_sequence_iff {items : List YamlNode} (hkey : s.currentKey = none)
    (hdepth : s.depth = 1)
    (h : (Reader.file s).run net (.scalar k :: (YamlNode.sequence items).events) = .ok r) :
    HeadInStep net (.file s) (.scalar k) (.sequence items) ↔ ∃ loop, listLoop k = some loop ∧
      ∀ value, .scalar value ∉ afterLoops [loop] (itemsEvents items ++ [.sequenceEnd]) := by
  rw [headInStep_scalar_iff hkey]
  cases hloop : listLoop k with
  | none => simp
  | some loop =>
    obtain ⟨r₂, hloops, hexpects, hdepth₂, henter⟩ :=
      @run_sequence_of_listLoop net { s with currentKey := some k } k loop rfl hloop
    rw [run_key hkey, YamlNode.events, henter] at h
    constructor
    · rintro ⟨hscalars, -⟩
      refine ⟨loop, rfl, fun value hmem => ?_⟩
      obtain ⟨before, text, rest, t, hevents, hrun, -⟩ := Reader.exists_scalar_run hloops hexpects
        (hdepth₂.trans hdepth) (streamEnd_not_mem_items items) hmem h
      have hnil := (hscalars (.sequenceStart :: before) text rest t
        (by rw [YamlNode.events, hevents, List.cons_append]) (by rw [henter, hrun])).2.1
      exact absurd hnil (List.cons_ne_nil _ _)
    · rintro ⟨loop', hsome, hnone⟩
      obtain rfl := Option.some.inj hsome
      refine ⟨fun before text rest t hevents hrun => ?_, Or.inl (by simp)⟩
      rw [YamlNode.events] at hevents
      rcases before with _ | ⟨event, before⟩
      · cases (List.cons.inj hevents).1
      · obtain ⟨rfl, hitems⟩ := List.cons.inj hevents
        replace hitems : itemsEvents items ++ [.sequenceEnd] = before ++ .scalar text :: rest := hitems
        rw [henter] at hrun
        have hsuffix := Reader.suffix_afterLoops hloops hrun (.scalar text :: rest)
        rw [← hitems] at hsuffix
        exact absurd (hsuffix.mem List.mem_cons_self) (hnone text)

/-- Behind such a list a key is expected. -/
lemma run_list {items : List YamlNode} {loop : Loop} (hkey : s.currentKey = none)
    (hdepth : s.depth = 1) (hloop : listLoop k = some loop)
    (hscalar : ∀ value, .scalar value ∉ afterLoops [loop] (itemsEvents items ++ [.sequenceEnd]))
    (h : (Reader.file s).run net (.scalar k :: (YamlNode.sequence items).events) = .ok r) :
    ∃ s₁, r = .file s₁ ∧ s₁.currentKey = none ∧ s₁.depth = 1 := by
  rw [run_key hkey] at h
  obtain ⟨s₁, rfl⟩ := Reader.within_nil_iff.mp
    (Reader.Within.node (.sequence items) (Reader.within_nil_iff.mpr ⟨_, rfl⟩) h)
  obtain ⟨r₂, hloops, hexpects, hdepth₂, henter⟩ :=
    @run_sequence_of_listLoop net { s with currentKey := some k } k loop rfl hloop
  rw [YamlNode.events, henter] at h
  obtain ⟨hexpects₁, hdepth₁⟩ := Reader.expectsKey_run hloops hexpects (hdepth₂.trans hdepth)
    (streamEnd_not_mem_items items) hscalar h
  exact ⟨s₁, rfl, hexpects₁ s₁ rfl, hdepth₁⟩

/-- A mapping inside of the document is an error. -/
lemma run_mapping_ne_ok {fields : List (YamlNode × YamlNode)} (hdepth : s.depth = 1) :
    (Reader.file s).run net (YamlNode.mapping fields).events ≠ .ok r := by
  intro h
  rw [YamlNode.events] at h
  obtain ⟨r₁, hstep, -⟩ := Reader.run_cons_eq_ok_iff.mp h
  cases Reader.move_of_step hstep with
  | fileMapping hzero => omega
  | fileOther hevent => simp at hevent

end Heads

/-- From a reader that expects a key, the fields of an accepted document are read in step exactly if
they are of the form above.  Behind each field that is, a key is expected again. -/
theorem inStep_iff {net : Inet} {s : FileState} {r : Reader} {fields : List (YamlNode × YamlNode)}
    (hkey : s.currentKey = none) (hdepth : s.depth = 1)
    (h : (Reader.file s).run net (fieldsEvents fields) = .ok r) :
    InStep net (.file s) fields ↔ FieldsInStep fields := by
  induction fields generalizing s with
  | nil => exact ⟨fun _ => trivial, fun _ => inStep_nil net _⟩
  | cons field fields ih =>
    obtain ⟨key, value⟩ := field
    rw [fieldsEvents_cons] at h
    obtain ⟨r₁, hfield, hrest⟩ := Reader.run_append_eq_ok_iff.mp h
    rw [inStep_cons_iff hfield]
    have hscalarKey : HeadInStep net (.file s) key value → ∃ k, key = .scalar k := fun hhead =>
      hhead.applied.imp fun _ => And.left
    cases key with
    | reference | sequence | mapping =>
      refine ⟨fun ⟨hhead, _⟩ => ?_, fun hfields => (by simp [FieldsInStep] at hfields)⟩
      obtain ⟨k, hk⟩ := hscalarKey hhead
      cases hk
    | scalar k =>
      cases value with
      | scalar text =>
        obtain ⟨s₁, rfl, hkey₁, hdepth₁⟩ := run_option hkey hfield
        rw [FieldsInStep, ih hkey₁ (hdepth₁.trans hdepth) hrest]
        exact and_iff_right (headInStep_option hkey text)
      | reference =>
        have hskip : r₁ = .file { s with currentKey := some k } := by
          rw [YamlNode.events, List.singleton_append, run_key hkey] at hfield
          exact (Except.ok.inj hfield).symm
        rw [FieldsInStep, headInStep_reference_iff hkey, hskip,
          @inStep_behind_reference_iff net _ k fields rfl]
      | sequence items =>
        rw [FieldsInStep, headInStep_sequence_iff hkey hdepth hfield]
        refine and_congr_right ?_
        rintro ⟨loop, hloop, hscalar⟩
        obtain ⟨s₁, rfl, hkey₁, hdepth₁⟩ := run_list hkey hdepth hloop hscalar hfield
        exact ih hkey₁ hdepth₁ hrest
      | mapping fields' =>
        rw [YamlNode.events, List.singleton_append, run_key hkey] at hfield
        exact absurd hfield (run_mapping_ne_ok hdepth)

/-! ## The document -/

lemma streamEvents_mapping (fields : List (YamlNode × YamlNode)) :
    streamEvents [.mapping fields] =
      documentStart ++ (fieldsEvents fields ++ [.mappingEnd, .other, .streamEnd]) := by
  simp [streamEvents, documentStart, YamlNode.events]

/-- The scalars of a document are those of its fields. -/
lemma scalar_of_document {fields : List (YamlNode × YamlNode)} {before rest : List YamlEvent}
    {text : String} (h : streamEvents [.mapping fields] = before ++ .scalar text :: rest) :
    ∃ before' rest', before = documentStart ++ before' ∧
      fieldsEvents fields = before' ++ .scalar text :: rest' := by
  rw [streamEvents_mapping] at h
  rcases scalar_position h with ⟨rest', hstart⟩ | ⟨before', rfl, hfields⟩
  · have hmem : YamlEvent.scalar text ∈ documentStart := by
      rw [hstart]
      exact List.mem_append_right before List.mem_cons_self
    simp [documentStart] at hmem
  · rcases scalar_position hfields with ⟨rest', hinside⟩ | ⟨before'', -, hend⟩
    · exact ⟨before', rest', rfl, hinside⟩
    · have hmem : YamlEvent.scalar text ∈ [.mappingEnd, .other, .streamEnd] := by
        rw [hend]
        exact List.mem_append_right before'' List.mem_cons_self
      simp at hmem

lemma run_documentStart (net : Inet) (config : RawConfig) (events : List YamlEvent) :
    (Reader.file ⟨config, [], none, 0⟩).run net (documentStart ++ events) =
      (Reader.file ⟨config, [], none, 1⟩).run net events :=
  Reader.run_append_of_ok rfl events

/-- The first key is expected behind the start of the document. -/
lemma topLevelInStep_iff {net : Inet} {config : RawConfig} {fields : List (YamlNode × YamlNode)} :
    TopLevelInStep net ⟨config, [], none, 0⟩ fields ↔
      InStep net (.file ⟨config, [], none, 1⟩) fields := by
  have hdocument : ∀ {before rest : List YamlEvent} {text : String},
      fieldsEvents fields = before ++ .scalar text :: rest →
      ∃ rest', streamEvents [.mapping fields] = (documentStart ++ before) ++ .scalar text :: rest' := by
    intro before rest text hevents
    refine ⟨rest ++ [.mappingEnd, .other, .streamEnd], ?_⟩
    rw [streamEvents_mapping, hevents, List.append_assoc, List.append_assoc, List.cons_append]
  constructor
  · intro h
    refine ⟨fun before text rest t hevents hrun hnone => ?_,
      fun before text rest t k hevents hrun hsome => ?_,
      fun fields₁ key value fields₂ hfields => ?_⟩
    · obtain ⟨rest', hall⟩ := hdocument hevents
      rw [← run_documentStart] at hrun
      obtain ⟨fields₁, node, fields₂, hfields, hbefore⟩ := h.keys _ text rest' t hall hrun hnone
      exact ⟨fields₁, node, fields₂, hfields, List.append_cancel_left hbefore⟩
    · obtain ⟨rest', hall⟩ := hdocument hevents
      rw [← run_documentStart] at hrun
      obtain ⟨fields₁, fields₂, hfields, hbefore⟩ := h.values _ text rest' t k hall hrun hsome
      exact ⟨fields₁, fields₂, hfields, List.append_cancel_left hbefore⟩
    · simpa only [run_documentStart] using h.applied fields₁ key value fields₂ hfields
  · intro h
    refine ⟨fun before text rest t hevents hrun hnone => ?_,
      fun before text rest t k hevents hrun hsome => ?_,
      fun fields₁ key value fields₂ hfields => ?_⟩
    · obtain ⟨before', rest', rfl, hinside⟩ := scalar_of_document hevents
      rw [run_documentStart] at hrun
      obtain ⟨fields₁, node, fields₂, hfields, rfl⟩ := h.keys before' text rest' t hinside hrun hnone
      exact ⟨fields₁, node, fields₂, hfields, rfl⟩
    · obtain ⟨before', rest', rfl, hinside⟩ := scalar_of_document hevents
      rw [run_documentStart] at hrun
      obtain ⟨fields₁, fields₂, hfields, rfl⟩ := h.values before' text rest' t k hinside hrun hsome
      exact ⟨fields₁, fields₂, hfields, rfl⟩
    · simpa only [run_documentStart] using h.applied fields₁ key value fields₂ hfields

/-- The keys and the values of a document that is accepted are read as such exactly if every key is a
scalar whose value is a scalar or a list for the loop under it. -/
theorem top_level_in_step_iff {net : Inet} {files : Files} {path : String} {config : RawConfig}
    {fields : List (YamlNode × YamlNode)} {s : FileState} {rest : List YamlEvent}
    (hfile : files.events path = some (streamEvents [.mapping fields]))
    (haccepted : parseSingleConfigFile net files path config = some (.ok (s, rest))) :
    TopLevelInStep net ⟨config, [], none, 0⟩ fields ↔ FieldsInStep fields := by
  have hrun := run_of_parseSingleConfigFile hfile haccepted
  rw [streamEvents_mapping, run_documentStart] at hrun
  obtain ⟨r, hfields, -⟩ := Reader.run_append_eq_ok_iff.mp hrun
  rw [topLevelInStep_iff]
  exact inStep_iff rfl rfl hfields

/-- A document with two options and a list of files to include between them. -/
def optionsDocument (fileLog : YamlNode) : List (YamlNode × YamlNode) :=
  [(.scalar "include", .sequence [.scalar "conf.d"]), (.scalar "file_log", fileLog),
    (.scalar "log_level", .scalar "debug")]

/-- With scalars as values the document is read in step. -/
theorem top_level_in_step_options :
    ∃ s, parseSingleConfigFile .documentation
        (.ofDocuments [.mapping (optionsDocument (.scalar "dnsconfd.log"))]) "dnsconfd.conf" .empty =
          some (.ok (s, [])) ∧
      s.config.string .fileLog = some "dnsconfd.log" ∧ s.config.logLevel = 7 ∧
      TopLevelInStep .documentation ⟨.empty, [], none, 0⟩
        (optionsDocument (.scalar "dnsconfd.log")) := by
  obtain ⟨s, haccepted, hlog, hlevel⟩ : ∃ s, parseSingleConfigFile .documentation
      (.ofDocuments [.mapping (optionsDocument (.scalar "dnsconfd.log"))]) "dnsconfd.conf" .empty =
        some (.ok (s, [])) ∧
      s.config.string .fileLog = some "dnsconfd.log" ∧ s.config.logLevel = 7 := ⟨_, rfl, rfl, rfl⟩
  refine ⟨s, haccepted, hlog, hlevel, (top_level_in_step_iff rfl haccepted).mpr ?_⟩
  refine ⟨⟨.includes, rfl, fun value hmem => ?_⟩, trivial⟩
  simp [itemsEvents, YamlNode.events, afterLoops] at hmem

/-- With an alias as the value of `file_log` the next key becomes the name of the log file.  The level
of the log is not set, and the file is accepted. -/
theorem key_taken_for_value :
    ∃ s, parseSingleConfigFile .documentation
        (.ofDocuments [.mapping (optionsDocument .reference)]) "dnsconfd.conf" .empty =
          some (.ok (s, [])) ∧
      s.config.string .fileLog = some "log_level" ∧ s.config.logLevel = -1 ∧
      ¬ TopLevelInStep .documentation ⟨.empty, [], none, 0⟩ (optionsDocument .reference) := by
  refine ⟨_, rfl, rfl, rfl, fun h => ?_⟩
  obtain ⟨k, hk, hloop | ⟨text, _, hvalue, -⟩⟩ :=
    h.applied [(.scalar "include", .sequence [.scalar "conf.d"])] (.scalar "file_log") .reference
      [(.scalar "log_level", .scalar "debug")] rfl
  · rw [← YamlNode.scalar.inj hk] at hloop
    exact hloop rfl
  · cases hvalue

end Dnsconfd.ConfigFile
