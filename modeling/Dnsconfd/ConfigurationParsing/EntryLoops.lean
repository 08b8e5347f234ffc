import Dnsconfd.ConfigurationParsing.Nodes

/-!
# The loops over entries

The static servers and the response policy zones of a file are read by two loops that have much in
common.  This file follows the two lists of the configuration event by event and says what the loops
do with arbitrary nodes: between two entries (`Idle`) an item leaves them where they are or ends
them, and what becomes of an entry that is being read (`Reads`) can be told from its events alone
(`entryStep`): it is appended at the end of a mapping, or cut off at the end of a sequence.
-/

namespace Dnsconfd.ConfigFile

open Library

/-! ## The configuration between two events -/

namespace Reader

/-- The static servers of the configuration; the loops append to the list itself. -/
def staticServers : Reader → List ServerUri
  | .file s => s.config.staticServers
  | .servers _ state => state.staticServers
  | .serverList _ state _ _ => state.staticServers
  | .zones s _ => s.config.staticServers
  | .includes s _ => s.config.staticServers
  | .done s => s.config.staticServers

/-- The response policy zones of the configuration. -/
def rpzZones : Reader → List RpzZone
  | .file s => s.config.rpzZones
  | .servers s _ => s.config.rpzZones
  | .serverList s _ _ _ => s.config.rpzZones
  | .zones _ state => state.rpzZones
  | .includes s _ => s.config.rpzZones
  | .done s => s.config.rpzZones

/-- The number of mappings that were opened in the loop of the file. -/
def depth : Reader → ℕ
  | .file s => s.depth
  | .servers s _ => s.depth
  | .serverList s _ _ _ => s.depth
  | .zones s _ => s.depth
  | .includes s _ => s.depth
  | .done s => s.depth

variable {net : Inet} {r r' : Reader} {event : YamlEvent} {events : List YamlEvent}

/-- A scalar option of a file changes neither list, and it opens no mapping. -/
lemma storeOption_frame {key value : String} {s s' : FileState}
    (h : storeOption net key value s = .ok s') :
    s'.config.staticServers = s.config.staticServers ∧ s'.config.rpzZones = s.config.rpzZones ∧
      s'.depth = s.depth := by
  rcases storeOption_cases h with ⟨-, rfl⟩ | ⟨o, -, rfl⟩ | ⟨-, _, -, rfl⟩ | ⟨-, rfl⟩ | ⟨o, -, rfl⟩
  all_goals exact ⟨rfl, rfl, rfl⟩

/-- A mapping that was opened is counted for ever. -/
lemma depth_step (h : r.step net event = .ok r') : r.depth ≤ r'.depth := by
  cases move_of_step h with
  | fileMapping hdepth => exact hdepth.le.trans (Nat.zero_le _)
  | fileOption hkey hstore => exact (storeOption_frame hstore).2.2.ge
  | _ => exact le_refl _

/-- An event appends one server at most. -/
lemma staticServers_step (h : r.step net event = .ok r') :
    r'.staticServers = r.staticServers ∨ ∃ server, r'.staticServers = r.staticServers ++ [server] := by
  cases move_of_step h with
  | fileOption hkey hstore => exact Or.inl (storeOption_frame hstore).1
  | serverEnd hserver => exact Or.inr ⟨_, rfl⟩
  | _ => exact Or.inl rfl

/-- An event appends one zone at most, and only a complete one. -/
lemma rpzZones_step (h : r.step net event = .ok r') :
    r'.rpzZones = r.rpzZones ∨ ∃ draft zone, RpzDraft.complete draft = .ok zone ∧
      r'.rpzZones = r.rpzZones ++ [zone] := by
  cases move_of_step h with
  | fileOption hkey hstore => exact Or.inl (storeOption_frame hstore).2.1
  | zoneEnd hzone hcomplete => exact Or.inr ⟨_, _, hcomplete, rfl⟩
  | _ => exact Or.inl rfl

/-- **Run rule.**  A preorder that every event respects is respected by a run. -/
lemma run_rule {R : Reader → Reader → Prop} (hrefl : ∀ r, R r r)
    (htrans : ∀ {r₁ r₂ r₃}, R r₁ r₂ → R r₂ r₃ → R r₁ r₃)
    (hstep : ∀ {r event r'}, r.step net event = .ok r' → R r r')
    (h : r.run net events = .ok r') : R r r' := by
  induction events generalizing r with
  | nil =>
    rw [run, Except.ok.injEq] at h
    exact h ▸ hrefl r
  | cons event events ih =>
    obtain ⟨r₁, hfirst, hrest⟩ := run_cons_eq_ok_iff.mp h
    exact htrans (hstep hfirst) (ih hrest)

lemma depth_run (h : r.run net events = .ok r') : r.depth ≤ r'.depth :=
  run_rule (R := fun r r' => r.depth ≤ r'.depth) (fun _ => le_refl _) le_trans depth_step h

end Reader

/-- What `parse_rpz_zones` requires of a zone that it appends; a name it has by its type. -/
def HasSource (zone : RpzZone) : Prop :=
  zone.master ≠ none ∨ zone.zonefile ≠ none

lemma hasSource_of_complete {draft : RpzDraft} {zone : RpzZone} (h : draft.complete = .ok zone) :
    HasSource zone := by
  unfold RpzDraft.complete at h
  split at h
  · cases h
  · split_ifs at h with hsource
    obtain rfl := Except.ok.inj h
    exact not_and_or.mp hsource

/-- Whatever is read, the zones that are appended have a source. -/
theorem rpzZones_run {net : Inet} {r r' : Reader} {events : List YamlEvent}
    (h : r.run net events = .ok r') :
    ∃ zones, r'.rpzZones = r.rpzZones ++ zones ∧ ∀ zone ∈ zones, HasSource zone := by
  refine Reader.run_rule (R := fun r r' => ∃ zones, r'.rpzZones = r.rpzZones ++ zones ∧
    ∀ zone ∈ zones, HasSource zone) ?_ ?_ ?_ h
  · exact fun r => ⟨[], (List.append_nil _).symm, fun _ hzone => absurd hzone List.not_mem_nil⟩
  · rintro r₁ r₂ r₃ ⟨zones, h₂, hzones⟩ ⟨zones', h₃, hzones'⟩
    refine ⟨zones ++ zones', by rw [h₃, h₂, List.append_assoc], fun zone hzone => ?_⟩
    rcases List.mem_append.mp hzone with hzone | hzone
    · exact hzones zone hzone
    · exact hzones' zone hzone
  · intro r event r' hstep
    rcases Reader.rpzZones_step hstep with hsame | ⟨draft, zone, hcomplete, happended⟩
    · exact ⟨[], by rw [hsame, List.append_nil], fun _ hzone => absurd hzone List.not_mem_nil⟩
    · refine ⟨[zone], happended, fun zone' hzone => ?_⟩
      rw [List.mem_singleton.mp hzone]
      exact hasSource_of_complete hcomplete

/-! ## The two loops over entries -/

/-- What becomes of the entry that is being read. -/
inductive EntryFate where
  | reading (inList : Bool)
  | appended
  | cut

/-- What an event means for the entry that is being read, seen from the events alone.  If the entry
can have lists, a sequence in it is one, and the first end of a sequence ends it, whatever is nested.
Outside of a list the end of a mapping appends the entry, and the end of a sequence cuts it off. -/
def entryStep (lists inList : Bool) : YamlEvent → EntryFate
  | .sequenceStart => .reading (inList || lists)
  | .sequenceEnd => if inList then .reading false else .cut
  | .mappingEnd => if inList then .reading true else .appended
  | _ => .reading inList

lemma event_of_appended {lists inList : Bool} {event : YamlEvent}
    (h : entryStep lists inList event = .appended) : event = .mappingEnd := by
  cases event <;> cases inList <;> first | rfl | cases h

lemma event_of_cut {lists inList : Bool} {event : YamlEvent}
    (h : entryStep lists inList event = .cut) : event = .sequenceEnd := by
  cases event <;> cases inList <;> first | rfl | cases h

/-- The entry with these events behind its start is appended and not cut off. -/
def entryKept (lists : Bool) : Bool → List YamlEvent → Bool
  | _, [] => false
  | inList, event :: events =>
    match entryStep lists inList event with
    | .reading inList => entryKept lists inList events
    | .appended => true
    | .cut => false

/-- What the loops over static servers and over zones have in common.  Between entries the loop is
idle.  An entry is read outside or inside of a list, and every event does with it what it means for
the entry (`entryStep`). -/
structure EntryLoop (net : Inet) (β : Type) where
  key : String
  list : Reader → List β
  reading : Reader → Bool
  lists : Bool
  Idle : Reader → Prop
  Reads : Bool → Reader → Prop
  start : ∀ {s : FileState} {r : Reader}, s.currentKey = some key →
    (Reader.file s).step net .sequenceStart = .ok r → Idle r
  item : ∀ {r r' : Reader} (node : YamlNode), Idle r → r.run net node.events = .ok r' →
    Idle r' ∨ ∃ s, r' = .file s
  entryStart : ∀ {r r' : Reader}, Idle r → r.step net .mappingStart = .ok r' →
    Reads false r' ∧ list r' = list r
  entryEvent : ∀ {r r' : Reader} {inList : Bool} {event : YamlEvent}, Reads inList r →
    r.step net event = .ok r' →
    match entryStep lists inList event with
    | .reading inList => Reads inList r' ∧ list r' = list r
    | .appended => reading r' = false ∧ ∃ entry, list r' = list r ++ [entry]
    | .cut => reading r' = false
  reading_of_idle : ∀ {r : Reader}, Idle r → reading r = false
  reading_of_reads : ∀ {r : Reader} {inList : Bool}, Reads inList r → reading r = true
  list_prefix : ∀ {r r' : Reader} {event : YamlEvent}, r.step net event = .ok r' →
    list r <+: list r'

section Servers

variable {net : Inet} {r r' : Reader} {s : FileState} {state : StaticServersState}

/-- Whether there is a current server. -/
def Reader.readsServer : Reader → Bool
  | .servers _ state => state.currentServer.isSome
  | .serverList _ _ _ _ => true
  | _ => false

/-- The loop over static servers between two of them. -/
def Reader.BetweenServers (r : Reader) : Prop :=
  ∃ s state, r = .servers s state ∧ state.currentServer = none

/-- The loop over static servers inside of one, outside or inside of a list. -/
def Reader.InServer (inList : Bool) (r : Reader) : Prop :=
  match inList with
  | false => ∃ s state draft, r = .servers s state ∧ state.currentServer = some draft
  | true => ∃ s state draft key, r = .serverList s state draft key

/-- An event in the mapping of a server. -/
lemma Reader.InServer.event {inList : Bool} {event : YamlEvent} (hr : r.InServer inList)
    (h : r.step net event = .ok r') :
    match entryStep true inList event with
    | .reading inList => r'.InServer inList ∧ r'.staticServers = r.staticServers
    | .appended =>
      r'.readsServer = false ∧ ∃ server, r'.staticServers = r.staticServers ++ [server]
    | .cut => r'.readsServer = false := by
  cases inList with
  | true =>
    obtain ⟨s, state, draft, key, rfl⟩ := hr
    cases move_of_step h with
    | leaveList => exact ⟨⟨s, _, draft, rfl, rfl⟩, rfl⟩
    | listOther hevent =>
      cases event with
      | sequenceEnd => exact absurd rfl hevent
      | failure | scalar | sequenceStart | mappingStart | mappingEnd | streamEnd | other =>
        exact ⟨⟨s, state, _, key, rfl⟩, rfl⟩
  | false =>
    obtain ⟨s, state, draft, rfl, hserver⟩ := hr
    cases move_of_step h with
    | enterList => exact ⟨⟨s, state, _, _, rfl⟩, rfl⟩
    | leaveServers => rfl
    | serverStart hnone =>
      -- a mapping cannot begin inside of another one
      rw [hserver] at hnone
      cases hnone
    | serverEnd => exact ⟨rfl, _, rfl⟩
    | @serverScalar _ _ _ server key hsome =>
      rw [hserver, Option.isSome_some] at hsome
      obtain ⟨draft', rfl⟩ := Option.isSome_iff_exists.mp hsome
      exact ⟨⟨s, _, draft', rfl, rfl⟩, rfl⟩
    | serversOther hevent =>
      rcases hevent with rfl | rfl | ⟨rfl, hnone⟩
      · exact ⟨⟨s, state, draft, rfl, hserver⟩, rfl⟩
      · exact ⟨⟨s, state, draft, rfl, hserver⟩, rfl⟩
      · rw [hserver] at hnone
        cases hnone

/-- An item of the sequence of static servers. -/
lemma Reader.BetweenServers.item (node : YamlNode) (hr : r.BetweenServers)
    (h : r.run net node.events = .ok r') : r'.BetweenServers ∨ ∃ s, r' = .file s := by
  obtain ⟨s, state, rfl, hserver⟩ := hr
  cases node with
  | scalar value =>
    rw [YamlNode.events, run_singleton] at h
    cases move_of_step h with
    | @serverScalar _ _ _ server key hsome =>
      rw [hserver, Option.isSome_none] at hsome
      exact Or.inl ⟨s, _, rfl, Option.not_isSome_iff_eq_none.mp (by simp [hsome])⟩
    | serversOther hevent => simp at hevent
  | reference =>
    rw [YamlNode.events, run_singleton] at h
    cases move_of_step h with
    | serversOther => exact Or.inl ⟨s, state, rfl, hserver⟩
  | sequence items =>
    obtain ⟨r₁, r₂, hstart, -, -⟩ := run_sequence_iff.mp h
    cases move_of_step hstart with
    | enterList hsome =>
      rw [hserver] at hsome
      cases hsome
    | serversOther hevent => simp at hevent
  | mapping fields =>
    obtain ⟨r₁, r₂, hstart, hfields, hend⟩ := run_mapping_iff.mp h
    have hr₂ : r₂.Within [.servers] := Within.items
      (Within.step ⟨_, rfl, List.suffix_refl _⟩ hstart rfl) hfields
    rcases hr₂.cons_cases with hr₂ | hr₂
    · -- the end of a mapping leaves no server behind, whether it ends one or not
      cases r₂ with
      | servers s₂ state₂ =>
        cases move_of_step hend with
        | serverEnd => exact Or.inl ⟨s₂, _, rfl, rfl⟩
        | serversOther hevent => exact Or.inl ⟨s₂, state₂, rfl, by simpa using hevent⟩
      | file | serverList | zones | includes | done => cases hr₂
    · obtain ⟨s₂, rfl⟩ := within_nil_iff.mp hr₂
      cases move_of_step hend with
      | fileOther => exact Or.inr ⟨s₂, rfl⟩

/-- The loop over static servers; a server can have lists. -/
def serverLoop (net : Inet) : EntryLoop net ServerUri where
  key := "static_servers"
  list := Reader.staticServers
  reading := Reader.readsServer
  lists := true
  Idle := Reader.BetweenServers
  Reads := Reader.InServer
  start {s r} hkey h := by
    rw [Reader.step, if_pos hkey] at h
    exact Except.ok.inj h ▸ ⟨s, _, rfl, rfl⟩
  item node hr h := hr.item node h
  entryStart {r r'} hr h := by
    obtain ⟨s, state, rfl, hserver⟩ := hr
    cases Reader.move_of_step h with
    | serverStart => exact ⟨⟨s, _, .initial, rfl, rfl⟩, rfl⟩
    | serversOther hevent => simp at hevent
  entryEvent hr h := hr.event h
  reading_of_idle {r} hr := by
    obtain ⟨s, state, rfl, hserver⟩ := hr
    rw [Reader.readsServer, hserver, Option.isSome_none]
  reading_of_reads {r inList} hr := by
    cases inList with
    | true =>
      obtain ⟨s, state, draft, key, rfl⟩ := hr
      rfl
    | false =>
      obtain ⟨s, state, draft, rfl, hserver⟩ := hr
      rw [Reader.readsServer, hserver, Option.isSome_some]
  list_prefix h := by
    rcases Reader.staticServers_step h with hsame | ⟨server, happended⟩
    · rw [hsame]
    · rw [happended]
      exact List.prefix_append _ _

end Servers

section Zones

variable {net : Inet} {r r' : Reader} {s : FileState} {state : RpzZonesState}

/-- Whether there is a current zone. -/
def Reader.readsZone : Reader → Bool
  | .zones _ state => state.currentZone.isSome
  | _ => false

/-- The loop over zones between two of them. -/
def Reader.BetweenZones (r : Reader) : Prop :=
  ∃ s state, r = .zones s state ∧ state.currentZone = none

/-- The loop over zones inside of one, which is never inside of a list. -/
def Reader.InZone (inList : Bool) (r : Reader) : Prop :=
  inList = false ∧ ∃ s state draft, r = .zones s state ∧ state.currentZone = some draft

/-- An event in the mapping of a zone. -/
lemma Reader.InZone.event {inList : Bool} {event : YamlEvent} (hr : r.InZone inList)
    (h : r.step net event = .ok r') :
    match entryStep false inList event with
    | .reading inList => r'.InZone inList ∧ r'.rpzZones = r.rpzZones
    | .appended => r'.readsZone = false ∧ ∃ zone, r'.rpzZones = r.rpzZones ++ [zone]
    | .cut => r'.readsZone = false := by
  obtain ⟨rfl, s, state, draft, rfl, hzone⟩ := hr
  cases move_of_step h with
  | leaveZones => rfl
  | zoneStart hnone =>
    rw [hzone] at hnone
    cases hnone
  | zoneEnd => exact ⟨rfl, _, rfl⟩
  | @zoneScalar _ _ _ zone key hsome =>
    rw [hzone, Option.isSome_some] at hsome
    obtain ⟨draft', rfl⟩ := Option.isSome_iff_exists.mp hsome
    exact ⟨⟨rfl, s, _, draft', rfl, rfl⟩, rfl⟩
  | zonesOther hevent =>
    rcases hevent with rfl | rfl | rfl | ⟨rfl, hnone⟩
    · exact ⟨⟨rfl, s, state, draft, rfl, hzone⟩, rfl⟩
    · exact ⟨⟨rfl, s, state, draft, rfl, hzone⟩, rfl⟩
    · exact ⟨⟨rfl, s, state, draft, rfl, hzone⟩, rfl⟩
    · rw [hzone] at hnone
      cases hnone

/-- A sequence that the loop over zones meets ends it. -/
lemma run_zones_sequence {items : List YamlNode}
    (h : (Reader.zones s state).run net (YamlNode.sequence items).events = .ok r') :
    ∃ s, r' = .file s := by
  obtain ⟨r₁, r₂, hstart, hitems, hend⟩ := run_sequence_iff.mp h
  have hr₁ : r₁.Within [.zones] := by
    cases Reader.move_of_step hstart with
    | zonesOther => exact ⟨_, rfl, List.suffix_refl _⟩
  exact Reader.within_nil_iff.mp ((hr₁.items hitems).sequenceEnd hend)

/-- An item of the sequence of zones. -/
lemma Reader.BetweenZones.item (node : YamlNode) (hr : r.BetweenZones)
    (h : r.run net node.events = .ok r') : r'.BetweenZones ∨ ∃ s, r' = .file s := by
  obtain ⟨s, state, rfl, hzone⟩ := hr
  cases node with
  | scalar value =>
    rw [YamlNode.events, run_singleton] at h
    cases move_of_step h with
    | @zoneScalar _ _ _ zone key hsome =>
      rw [hzone, Option.isSome_none] at hsome
      exact Or.inl ⟨s, _, rfl, Option.not_isSome_iff_eq_none.mp (by simp [hsome])⟩
    | zonesOther hevent => simp at hevent
  | reference =>
    rw [YamlNode.events, run_singleton] at h
    cases move_of_step h with
    | zonesOther => exact Or.inl ⟨s, state, rfl, hzone⟩
  | sequence items => exact Or.inr (run_zones_sequence h)
  | mapping fields =>
    obtain ⟨r₁, r₂, hstart, hfields, hend⟩ := run_mapping_iff.mp h
    have hr₂ : r₂.Within [.zones] := Within.items
      (Within.step ⟨_, rfl, List.suffix_refl _⟩ hstart rfl) hfields
    rcases hr₂.cons_cases with hr₂ | hr₂
    · cases r₂ with
      | zones s₂ state₂ =>
        cases move_of_step hend with
        | zoneEnd => exact Or.inl ⟨s₂, _, rfl, rfl⟩
        | zonesOther hevent => exact Or.inl ⟨s₂, state₂, rfl, by simpa using hevent⟩
      | file | servers | serverList | includes | done => cases hr₂
    · obtain ⟨s₂, rfl⟩ := within_nil_iff.mp hr₂
      cases move_of_step hend with
      | fileOther => exact Or.inr ⟨s₂, rfl⟩

/-- The loop over zones; a zone has no lists. -/
def zoneLoop (net : Inet) : EntryLoop net RpzZone where
  key := "rpz"
  list := Reader.rpzZones
  reading := Reader.readsZone
  lists := false
  Idle := Reader.BetweenZones
  Reads := Reader.InZone
  start {s r} hkey h := by
    rw [Reader.step, if_neg (by simp [hkey]), if_pos hkey] at h
    exact Except.ok.inj h ▸ ⟨s, _, rfl, rfl⟩
  item node hr h := hr.item node h
  entryStart {r r'} hr h := by
    obtain ⟨s, state, rfl, hzone⟩ := hr
    cases Reader.move_of_step h with
    | zoneStart => exact ⟨⟨rfl, s, _, _, rfl, rfl⟩, rfl⟩
    | zonesOther hevent => simp at hevent
  entryEvent hr h := hr.event h
  reading_of_idle {r} hr := by
    obtain ⟨s, state, rfl, hzone⟩ := hr
    rw [Reader.readsZone, hzone, Option.isSome_none]
  reading_of_reads {r inList} hr := by
    obtain ⟨-, s, state, draft, rfl, hzone⟩ := hr
    rw [Reader.readsZone, hzone, Option.isSome_some]
  list_prefix h := by
    rcases Reader.rpzZones_step h with hsame | ⟨draft, zone, -, happended⟩
    · rw [hsame]
    · rw [happended]
      exact List.prefix_append _ _

end Zones

end Dnsconfd.ConfigFile
