import Dnsconfd.ConfigurationParsing.EntryLoops

/-!
# The entries of a configuration file

The static servers and the response policy zones of a file are the mappings in the sequences under
two keys of the document.  Their loops end at the first end of a sequence, also if this is one
inside of an entry: then the entry that is being read is forgotten, the rest of it is read as a part
of the file, and the file is accepted.  For the files that are accepted, this file says exactly which
entries are lost (`entries_appended_iff`).  It is none of the zones without a list and none of the
servers without a list inside of a list (`entryKept_of_sequenceDepth_le`).
-/

namespace Dnsconfd.ConfigFile

open Library

/-! ## Positions in a stream -/

/-- The events of a file with the given documents. -/
def streamEvents (documents : List YamlNode) : List YamlEvent :=
  .other :: (documents.flatMap (fun root => .other :: (root.events ++ [.other])) ++ [.streamEnd])

/-- A mapping that is an item of the sequence under a key of a document of the stream. -/
structure EntryPosition (key : String) (documents : List YamlNode) where
  documentsBefore : List YamlNode
  documentsAfter : List YamlNode
  fieldsBefore : List (YamlNode × YamlNode)
  fieldsAfter : List (YamlNode × YamlNode)
  itemsBefore : List YamlNode
  itemsAfter : List YamlNode
  entry : List (YamlNode × YamlNode)
  documents_eq : documents = documentsBefore ++ .mapping (fieldsBefore ++
    (.scalar key, .sequence (itemsBefore ++ .mapping entry :: itemsAfter)) :: fieldsAfter) ::
      documentsAfter

namespace EntryPosition

variable {key : String} {documents : List YamlNode} (p : EntryPosition key documents)

/-- The events before the entry. -/
def before : List YamlEvent :=
  .other :: (p.documentsBefore.flatMap (fun root => .other :: (root.events ++ [.other])) ++
    .other :: .mappingStart :: (fieldsEvents p.fieldsBefore ++
      .scalar key :: .sequenceStart :: itemsEvents p.itemsBefore))

end EntryPosition

/-- The events of an entry behind its start. -/
def entryEvents (entry : List (YamlNode × YamlNode)) : List YamlEvent :=
  fieldsEvents entry ++ [.mappingEnd]

lemma EntryPosition.events_prefix {key : String} {documents : List YamlNode}
    (p : EntryPosition key documents) :
    p.before ++ .mappingStart :: entryEvents p.entry <+: streamEvents documents := by
  have hstream := congrArg streamEvents p.documents_eq
  rw [hstream, streamEvents, entryEvents, before]
  simp only [List.flatMap_append, List.flatMap_cons, YamlNode.events, fieldsEvents_append,
    fieldsEvents, itemsEvents_append, itemsEvents, List.cons_append, List.append_assoc,
    List.nil_append]
  simp only [List.cons_prefix_cons, List.prefix_append_right_inj, true_and, List.nil_prefix]

/-- The mappings among the items of a sequence. -/
def mappingsOf (items : List YamlNode) : List (List (YamlNode × YamlNode)) :=
  items.filterMap fun
    | .mapping entry => some entry
    | _ => none

/-- The entries in the value of a field, if the field has the given key. -/
def entriesOfField (key : String) : YamlNode × YamlNode → List (List (YamlNode × YamlNode))
  | (.scalar name, .sequence items) => if name = key then mappingsOf items else []
  | _ => []

/-- The entries under a key of the documents. -/
def entriesUnder (key : String) (documents : List YamlNode) : List (List (YamlNode × YamlNode)) :=
  documents.flatMap fun
    | .mapping fields => fields.flatMap (entriesOfField key)
    | _ => []

lemma mem_entriesOfField_iff {key : String} {field : YamlNode × YamlNode}
    {entry : List (YamlNode × YamlNode)} :
    entry ∈ entriesOfField key field ↔
      ∃ items, field = (.scalar key, .sequence items) ∧ .mapping entry ∈ items := by
  have hmappings : ∀ items, entry ∈ mappingsOf items ↔ .mapping entry ∈ items := by
    intro items
    rw [mappingsOf, List.mem_filterMap]
    constructor
    · rintro ⟨item, hitem, hentry⟩
      cases item with
      | mapping fields => exact Option.some.inj hentry ▸ hitem
      | scalar | reference | sequence => cases hentry
    · exact fun hentry => ⟨_, hentry, rfl⟩
  constructor
  · intro h
    unfold entriesOfField at h
    split at h
    · rename_i name items
      split_ifs at h with hname
      · exact ⟨items, by rw [hname], (hmappings items).mp h⟩
      · cases h
    · cases h
  · rintro ⟨items, rfl, hentry⟩
    rw [entriesOfField, if_pos rfl]
    exact (hmappings items).mpr hentry

/-- The entries under a key are those that have a position. -/
lemma mem_entriesUnder_iff {key : String} {documents : List YamlNode}
    {entry : List (YamlNode × YamlNode)} :
    entry ∈ entriesUnder key documents ↔ ∃ p : EntryPosition key documents, p.entry = entry := by
  constructor
  · intro h
    obtain ⟨root, hroot, hinRoot⟩ := List.mem_flatMap.mp h
    obtain ⟨documentsBefore, documentsAfter, rfl⟩ := List.append_of_mem hroot
    cases root with
    | scalar | reference | sequence => cases hinRoot
    | mapping fields =>
      obtain ⟨field, hfield, hinField⟩ := List.mem_flatMap.mp hinRoot
      obtain ⟨fieldsBefore, fieldsAfter, rfl⟩ := List.append_of_mem hfield
      obtain ⟨items, rfl, hentry⟩ := mem_entriesOfField_iff.mp hinField
      obtain ⟨itemsBefore, itemsAfter, rfl⟩ := List.append_of_mem hentry
      exact ⟨⟨documentsBefore, documentsAfter, fieldsBefore, fieldsAfter, itemsBefore, itemsAfter,
        entry, rfl⟩, rfl⟩
  · rintro ⟨p, rfl⟩
    have hdocuments := congrArg (entriesUnder key) p.documents_eq
    rw [hdocuments]
    refine List.mem_flatMap.mpr ⟨_, List.mem_append_right _ List.mem_cons_self, ?_⟩
    refine List.mem_flatMap.mpr ⟨_, List.mem_append_right _ List.mem_cons_self, ?_⟩
    exact mem_entriesOfField_iff.mpr ⟨_, rfl, List.mem_append_right _ List.mem_cons_self⟩

/-! ## Reading to a position -/

/-- The loop of a file inside of the mapping of a document. -/
def Reader.InDocument (r : Reader) : Prop :=
  (∃ s, r = .file s) ∧ 1 ≤ r.depth

namespace Reader.InDocument

variable {net : Inet} {r r' : Reader}

/-- A mapping inside of a document is not accepted by the loop of the file. -/
lemma not_mappingStart (hr : r.InDocument) (h : r.step net .mappingStart = .ok r') : False := by
  obtain ⟨⟨s, rfl⟩, hdepth⟩ := hr
  cases move_of_step h with
  | fileMapping hzero => exact absurd hzero (Nat.one_le_iff_ne_zero.mp hdepth)
  | fileOther hevent => simp at hevent

lemma node (node : YamlNode) (hr : r.InDocument) (h : r.run net node.events = .ok r') :
    r'.InDocument := by
  obtain ⟨hfile, hdepth⟩ := hr
  exact ⟨within_nil_iff.mp (Within.node node (within_nil_iff.mpr hfile) h),
    hdepth.trans (depth_run h)⟩

end Reader.InDocument

namespace EntryLoop

variable {net : Inet} {β : Type} (L : EntryLoop net β)

/-- Where the reader is between the items under the key of a loop: in the loop, or in the loop of
the file if that did not take the key for one or if the loop has ended. -/
def AtItem (r : Reader) : Prop :=
  (L.Idle r ∨ ∃ s, r = .file s) ∧ 1 ≤ r.depth

variable {L} {r r' : Reader}

lemma AtItem.item (node : YamlNode) (hr : L.AtItem r) (h : r.run net node.events = .ok r') :
    L.AtItem r' := by
  obtain ⟨hidle | hfile, hdepth⟩ := hr
  · exact ⟨L.item node hidle h, hdepth.trans (Reader.depth_run h)⟩
  · obtain ⟨hfile', hdepth'⟩ := Reader.InDocument.node node ⟨hfile, hdepth⟩ h
    exact ⟨Or.inr hfile', hdepth'⟩

/-- The key of a loop and the start of the sequence under it. -/
lemma atItem_of_key {r₁ r₂ : Reader} (hr : r.InDocument)
    (hkey : r.step net (.scalar L.key) = .ok r₁) (hstart : r₁.step net .sequenceStart = .ok r₂) :
    L.AtItem r₂ := by
  have hdepth : 1 ≤ r₂.depth :=
    hr.2.trans ((Reader.depth_step hkey).trans (Reader.depth_step hstart))
  refine ⟨?_, hdepth⟩
  obtain ⟨⟨s, rfl⟩, -⟩ := hr
  cases Reader.move_of_step hkey with
  | fileKey hnone => exact Or.inl (L.start rfl hstart)
  | fileOption hsome hstore =>
    -- the key is the value of another one, and no loop is entered
    cases Reader.move_of_step hstart with
    | enterServers hkey' | enterZones hkey' | enterIncludes hkey' => cases hkey'
    | skipSequence => exact Or.inr ⟨_, rfl⟩
    | fileOther hevent => simp at hevent
  | fileOther hevent => simp at hevent

/-- The documents before one leave the reader in the loop of the file. -/
lemma file_of_documents {documents : List YamlNode} (hr : ∃ s, r = .file s)
    (h : r.run net (documents.flatMap fun root => .other :: (root.events ++ [.other])) = .ok r') :
    ∃ s, r' = .file s := by
  induction documents generalizing r with
  | nil =>
    rw [List.flatMap_nil, Reader.run, Except.ok.injEq] at h
    exact h ▸ hr
  | cons root documents ih =>
    rw [List.flatMap_cons, Reader.run_append_eq_ok_iff] at h
    obtain ⟨r₃, hroot, hrest⟩ := h
    simp only [Reader.run_cons_eq_ok_iff, Reader.run_append_eq_ok_iff, Reader.run_singleton] at hroot
    obtain ⟨r₁, hfirst, r₂, hnode, hlast⟩ := hroot
    have hr₁ := (Reader.within_nil_iff.mpr hr).step hfirst rfl
    have hr₃ := (hr₁.node root hnode).step hlast rfl
    exact ih (Reader.within_nil_iff.mp hr₃) hrest

/-- Before an entry that is not rejected the loop over the entries is idle. -/
theorem idle_of_position {documents : List YamlNode} (p : EntryPosition L.key documents)
    {s : FileState} (h : (Reader.file s).run net p.before = .ok r)
    (hstart : r.step net .mappingStart = .ok r') : L.Idle r := by
  simp only [EntryPosition.before, Reader.run_cons_eq_ok_iff, Reader.run_append_eq_ok_iff] at h
  obtain ⟨r₁, hstream, r₂, hdocuments, r₃, hdocument, r₄, hroot, r₅, hfields, r₆, hkey, r₇,
    hsequence, hitems⟩ := h
  have hr₁ : r₁.Within [] :=
    Reader.Within.step (Reader.within_nil_iff.mpr ⟨s, rfl⟩) hstream rfl
  have hr₂ := file_of_documents (Reader.within_nil_iff.mp hr₁) hdocuments
  have hr₃ := Reader.within_nil_iff.mp
    ((Reader.within_nil_iff.mpr hr₂).step hdocument rfl)
  have hr₄ : r₄.InDocument := by
    obtain ⟨s₃, rfl⟩ := hr₃
    cases Reader.move_of_step hroot with
    | fileMapping => exact ⟨⟨_, rfl⟩, le_refl 1⟩
    | fileOther hevent => simp at hevent
  rw [fieldsEvents_eq] at hfields
  have hr₅ : r₅.InDocument :=
    run_items_rule (P := Reader.InDocument) (fun node _ _ _ hr h => hr.node node h) hr₄ hfields
  have hr₇ : L.AtItem r₇ := atItem_of_key hr₅ hkey hsequence
  have hr : L.AtItem r :=
    run_items_rule (P := L.AtItem) (fun node _ _ _ hr h => hr.item node h) hr₇ hitems
  obtain ⟨hidle | hfile, hdepth⟩ := hr
  · exact hidle
  · exact (Reader.InDocument.not_mappingStart ⟨hfile, hdepth⟩ hstart).elim

/-- The list only grows. -/
lemma list_run {events : List YamlEvent} (h : r.run net events = .ok r') :
    L.list r <+: L.list r' :=
  Reader.run_rule (R := fun r r' => L.list r <+: L.list r') (fun _ => List.prefix_rfl)
    List.IsPrefix.trans L.list_prefix h

end EntryLoop

/-! ## Entries that are appended -/

/-- A list of the configuration when some events have been read, and whether an entry is being read
then. -/
def Reader.observe {β : Type} (list : Reader → List β) (reading : Reader → Bool) (net : Inet)
    (r : Reader) (events : List YamlEvent) : Option (List β × Bool) :=
  match r.run net events with
  | .error _ => none
  | .ok r => some (list r, reading r)

/-- The entry that is being read is appended: it is being read, and the list is `l`, up to the end of
a mapping, behind which the list is `l'`. -/
def EntryAppended {β : Type} (after : List YamlEvent → Option (List β × Bool))
    (events : List YamlEvent) (l l' : List β) : Prop :=
  ∃ inside, inside ++ [.mappingEnd] <+: events ∧
    (∀ front, front <+: inside → after front = some (l, true)) ∧
    after (inside ++ [.mappingEnd]) = some (l', false)

/-- All entries under a key are appended to a list: each has its place in the list as it is in the
end, the places are in the order of the document, and what is begun with the start of the entry is
appended in its place before the entry is over. -/
def EntriesAppended {β : Type} (key : String) (after : List YamlEvent → Option (List β × Bool))
    (documents : List YamlNode) (final : List β) : Prop :=
  ∃ place : EntryPosition key documents → ℕ,
    (∀ p q, p.before.length < q.before.length → place p < place q) ∧
    ∀ p, place p < final.length ∧ after p.before = some (final.take (place p), false) ∧
      EntryAppended (fun events => after (p.before ++ .mappingStart :: events))
        (entryEvents p.entry) (final.take (place p)) (final.take (place p + 1))

/-- The end of a mapping appends the entry at once, or the entry goes on behind the next event. -/
lemma entryAppended_cons_iff {β : Type} {after : List YamlEvent → Option (List β × Bool)}
    {event : YamlEvent} {events : List YamlEvent} {l l' : List β} :
    EntryAppended after (event :: events) l l' ↔ after [] = some (l, true) ∧
      ((event = .mappingEnd ∧ after [event] = some (l', false)) ∨
        EntryAppended (fun events => after (event :: events)) events l l') := by
  constructor
  · rintro ⟨inside, hinside, hreading, happended⟩
    refine ⟨hreading [] List.nil_prefix, ?_⟩
    cases inside with
    | nil =>
      obtain ⟨rfl, -⟩ := List.cons_prefix_cons.mp hinside
      exact Or.inl ⟨rfl, happended⟩
    | cons first inside =>
      obtain ⟨rfl, hrest⟩ := List.cons_prefix_cons.mp hinside
      refine Or.inr ⟨inside, hrest, fun front hfront => ?_, happended⟩
      exact hreading (first :: front) (List.cons_prefix_cons.mpr ⟨rfl, hfront⟩)
  · rintro ⟨hnil, ⟨rfl, happended⟩ | ⟨inside, hinside, hreading, happended⟩⟩
    · refine ⟨[], List.cons_prefix_cons.mpr ⟨rfl, List.nil_prefix⟩, fun front hfront => ?_, happended⟩
      rw [List.prefix_nil.mp hfront]
      exact hnil
    · refine ⟨event :: inside, List.cons_prefix_cons.mpr ⟨rfl, hinside⟩, fun front hfront => ?_,
        happended⟩
      cases front with
      | nil => exact hnil
      | cons first front =>
        obtain ⟨rfl, hrest⟩ := List.cons_prefix_cons.mp hfront
        exact hreading front hrest

namespace EntryLoop

variable {net : Inet} {β : Type} {L : EntryLoop net β} {r r' : Reader}

/-- What is seen of the loop. -/
abbrev observe (L : EntryLoop net β) (r : Reader) (events : List YamlEvent) :
    Option (List β × Bool) :=
  r.observe L.list L.reading net events

lemma observe_append {events : List YamlEvent} (h : r.run net events = .ok r')
    (events' : List YamlEvent) : L.observe r (events ++ events') = L.observe r' events' := by
  have hrun : r.run net (events ++ events') = r'.run net events' := by
    induction events generalizing r with
    | nil =>
      rw [Reader.run, Except.ok.injEq] at h
      rw [h, List.nil_append]
    | cons event events ih =>
      obtain ⟨r₁, hstep, hrest⟩ := Reader.run_cons_eq_ok_iff.mp h
      rw [List.cons_append, Reader.run, hstep]
      exact ih hrest
  rw [observe, Reader.observe, hrun]
  rfl

/-- The entry that is being read is appended exactly if its events keep it. -/
theorem entryKept_iff {events : List YamlEvent} {inList : Bool} (hr : L.Reads inList r)
    (h : r.run net events = .ok r') :
    entryKept L.lists inList events = true ↔
      ∃ entry, EntryAppended (L.observe r) events (L.list r) (L.list r ++ [entry]) := by
  induction events generalizing r inList with
  | nil =>
    refine ⟨fun hkept => absurd hkept Bool.false_ne_true, ?_⟩
    rintro ⟨entry, inside, hinside, -⟩
    have hlength := hinside.length_le
    rw [List.length_append, List.length_singleton, List.length_nil] at hlength
    omega
  | cons event events ih =>
    obtain ⟨r₁, hstep, hrest⟩ := Reader.run_cons_eq_ok_iff.mp h
    have hnow : L.observe r [] = some (L.list r, true) := by
      rw [← L.reading_of_reads hr]
      rfl
    have hnext : (fun events => L.observe r (event :: events)) = L.observe r₁ :=
      funext fun events' => observe_append (Reader.run_singleton.trans hstep) events'
    have hnext' : L.observe r [event] = some (L.list r₁, L.reading r₁) := congrFun hnext []
    have hevent := L.entryEvent hr hstep
    simp only [entryAppended_cons_iff, hnow, hnext, hnext', true_and, entryKept]
    cases hfate : entryStep L.lists inList event with
    | reading inList' =>
      rw [hfate] at hevent
      obtain ⟨hr₁, hlist⟩ := hevent
      rw [ih hr₁ hrest, hlist]
      refine ⟨fun ⟨entry, hentry⟩ => ⟨entry, Or.inr hentry⟩, ?_⟩
      rintro ⟨entry, ⟨-, hsome⟩ | hentry⟩
      · have hreading := (Prod.mk.inj (Option.some.inj hsome)).2
        rw [L.reading_of_reads hr₁] at hreading
        exact absurd hreading.symm Bool.false_ne_true
      · exact ⟨entry, hentry⟩
    | appended =>
      rw [hfate] at hevent
      obtain ⟨hreading, entry, hlist⟩ := hevent
      refine ⟨fun _ => ⟨entry, Or.inl ⟨event_of_appended hfate, ?_⟩⟩, fun _ => rfl⟩
      rw [hreading, hlist]
    | cut =>
      rw [hfate] at hevent
      refine ⟨fun hkept => absurd hkept Bool.false_ne_true, ?_⟩
      rintro ⟨entry, ⟨rfl, -⟩ | ⟨inside, -, hreading, -⟩⟩
      · exact absurd (event_of_cut hfate) (by simp)
      · -- behind a cut there is no entry that could be appended
        have hnothing := hreading [] List.nil_prefix
        rw [observe, Reader.observe, Reader.run, Option.some.injEq, Prod.mk.injEq, hevent] at hnothing
        exact absurd hnothing.2 Bool.false_ne_true

/-- Fewer events have been read with a list that is the beginning of the later one. -/
lemma observe_of_prefix {events events' : List YamlEvent} (hearlier : events <+: events')
    (h : r.run net events' = .ok r') :
    ∃ l reading, L.observe r events = some (l, reading) ∧ l <+: L.list r' := by
  obtain ⟨rest, rfl⟩ := hearlier
  obtain ⟨r₁, hevents, hrest⟩ := Reader.run_append_eq_ok_iff.mp h
  refine ⟨L.list r₁, L.reading r₁, ?_, list_run hrest⟩
  rw [observe, Reader.observe, hevents]

section Positions

variable {s : FileState} {documents : List YamlNode}

/-- At a position of a file that is read to its end, the loop begins to read an entry. -/
lemma reads_of_position (p : EntryPosition L.key documents)
    (h : (Reader.file s).run net (streamEvents documents) = .ok r) :
    ∃ r₁ r₂, L.Reads false r₁ ∧ r₁.run net (entryEvents p.entry) = .ok r₂ ∧
      L.list r₂ <+: L.list r ∧ L.observe (.file s) p.before = some (L.list r₁, false) ∧
      (fun events => L.observe (.file s) (p.before ++ .mappingStart :: events)) = L.observe r₁ := by
  obtain ⟨rest, hrest⟩ := p.events_prefix
  rw [← hrest] at h
  obtain ⟨r₂, hentry, hafter⟩ := Reader.run_append_eq_ok_iff.mp h
  obtain ⟨r₀, hbefore, hmapping⟩ := Reader.run_append_eq_ok_iff.mp hentry
  obtain ⟨r₁, hstart, hevents⟩ := Reader.run_cons_eq_ok_iff.mp hmapping
  have hidle := idle_of_position p hbefore hstart
  obtain ⟨hreads, hlist⟩ := L.entryStart hidle hstart
  refine ⟨r₁, r₂, hreads, hevents, list_run hafter, ?_, funext fun events => ?_⟩
  · rw [observe, Reader.observe, hbefore, hlist, ← L.reading_of_idle hidle]
  · have hskip := observe_append (L := L) hbefore (.mappingStart :: events)
    exact hskip.trans (observe_append (Reader.run_singleton.trans hstart) events)

/-- An entry that its events keep has the place in the list that is next when it begins. -/
lemma entryAppended_of_kept (p : EntryPosition L.key documents)
    (h : (Reader.file s).run net (streamEvents documents) = .ok r)
    (hkept : entryKept L.lists false (entryEvents p.entry) = true) :
    ∃ l entry, l ++ [entry] <+: L.list r ∧ L.observe (.file s) p.before = some (l, false) ∧
      EntryAppended (fun events => L.observe (.file s) (p.before ++ .mappingStart :: events))
        (entryEvents p.entry) l (l ++ [entry]) := by
  obtain ⟨r₁, r₂, hreads, hevents, hfinal, hbefore, hafter⟩ := reads_of_position p h
  obtain ⟨entry, hentry⟩ := (entryKept_iff hreads hevents).mp hkept
  refine ⟨L.list r₁, entry, ?_, hbefore, hafter ▸ hentry⟩
  obtain ⟨inside, hinside, -, happended⟩ := hentry
  obtain ⟨l, reading, hl, hlist⟩ := observe_of_prefix (L := L) hinside hevents
  rw [(Prod.mk.inj (Option.some.inj (happended.symm.trans hl))).1]
  exact hlist.trans hfinal

/-- An entry has been appended before a later one begins. -/
lemma appended_before {p q : EntryPosition L.key documents} {l l' m : List β}
    (h : (Reader.file s).run net (streamEvents documents) = .ok r)
    (hpq : p.before.length < q.before.length)
    (hp : EntryAppended (fun events => L.observe (.file s) (p.before ++ .mappingStart :: events))
      (entryEvents p.entry) l l')
    (hq : L.observe (.file s) q.before = some (m, false)) : l' <+: m := by
  obtain ⟨inside, hinside, hreading, happended⟩ := hp
  obtain ⟨rest, hrest⟩ := hinside
  have hpStream : p.before ++ .mappingStart :: (inside ++ [.mappingEnd]) <+:
      streamEvents documents := by
    refine List.IsPrefix.trans ⟨rest, ?_⟩ p.events_prefix
    rw [List.append_assoc, List.cons_append, hrest]
  have hqStream : q.before <+: streamEvents documents :=
    (List.prefix_append _ _).trans q.events_prefix
  rcases le_or_gt (p.before ++ YamlEvent.mappingStart :: (inside ++ [.mappingEnd])).length
    q.before.length with hle | hlt
  · have hearlier := List.prefix_of_prefix_length_le hpStream hqStream hle
    obtain ⟨rest', hrest'⟩ := hqStream
    rw [← hrest'] at h
    obtain ⟨r₁, hrun, -⟩ := Reader.run_append_eq_ok_iff.mp h
    obtain ⟨l₁, reading, hl₁, hlist⟩ := observe_of_prefix (L := L) hearlier hrun
    rw [observe, Reader.observe, hrun, Option.some.injEq, Prod.mk.injEq] at hq
    rw [(Prod.mk.inj (Option.some.inj (happended.symm.trans hl₁))).1, ← hq.1]
    exact hlist
  · -- the later entry cannot begin while the earlier one is being read
    exfalso
    have hstart : p.before ++ [.mappingStart] <+: q.before := by
      refine List.prefix_of_prefix_length_le (List.IsPrefix.trans ?_ hpStream) hqStream ?_
      · exact ⟨inside ++ [.mappingEnd], by simp⟩
      · rw [List.length_append]
        exact hpq
    obtain ⟨front, hfront⟩ := hstart
    have hinside : front <+: inside := by
      have hearlier : q.before <+: p.before ++ .mappingStart :: inside := by
        refine List.prefix_of_prefix_length_le hqStream (List.IsPrefix.trans ?_ hpStream) ?_
        · exact ⟨[.mappingEnd], by simp⟩
        · simp only [List.length_append, List.length_cons, List.length_nil] at hlt ⊢
          omega
      rw [← hfront, List.append_assoc, List.prefix_append_right_inj] at hearlier
      exact (List.cons_prefix_cons.mp hearlier).2
    have hbusy := hreading front hinside
    rw [List.append_assoc, List.singleton_append] at hfront
    dsimp only at hbusy
    rw [hfront, hq] at hbusy
    cases (Prod.mk.inj (Option.some.inj hbusy)).2

/-- In a file that is read to its end, the entries under a key are appended exactly if the events of
each of them keep it. -/
theorem entriesAppended_iff
    (h : (Reader.file s).run net (streamEvents documents) = .ok r) :
    EntriesAppended L.key (L.observe (.file s)) documents (L.list r) ↔
      ∀ entry ∈ entriesUnder L.key documents, entryKept L.lists false (entryEvents entry) = true := by
  constructor
  · rintro ⟨place, -, hplace⟩ entry hentry
    obtain ⟨p, rfl⟩ := mem_entriesUnder_iff.mp hentry
    obtain ⟨hlt, hbefore, happended⟩ := hplace p
    obtain ⟨r₁, r₂, hreads, hevents, -, hbefore', hafter⟩ := reads_of_position p h
    have hlist := (Prod.mk.inj (Option.some.inj (hbefore.symm.trans hbefore'))).1
    rw [hafter, List.take_succ_eq_append_getElem hlt, hlist] at happended
    exact (entryKept_iff hreads hevents).mpr ⟨_, happended⟩
  · intro hkept
    have hentries : ∀ p : EntryPosition L.key documents, _ := fun p =>
      entryAppended_of_kept p h (hkept p.entry (mem_entriesUnder_iff.mpr ⟨p, rfl⟩))
    choose l entry hfinal hbefore happended using hentries
    refine ⟨fun p => (l p).length, fun p q hpq => ?_, fun p => ?_⟩
    · have hlength := (appended_before h hpq (happended p) (hbefore q)).length_le
      rwa [List.length_append, List.length_singleton] at hlength
    · have hlength := (hfinal p).length_le
      have htake := List.prefix_iff_eq_take.mp ((List.prefix_append (l p) _).trans (hfinal p))
      have htake' := List.prefix_iff_eq_take.mp (hfinal p)
      rw [List.length_append, List.length_singleton] at hlength htake'
      rw [← htake, ← htake']
      exact ⟨hlength, hbefore p, happended p⟩

end Positions

end EntryLoop

/-! ## Well-shaped entries -/

section WellShaped

variable {lists : Bool}

lemma mapping_events_append (fields : List (YamlNode × YamlNode)) (rest : List YamlEvent) :
    (YamlNode.mapping fields).events ++ rest =
      .mappingStart :: (itemsEvents (fieldNodes fields) ++ .mappingEnd :: rest) := by
  simp [YamlNode.events, fieldsEvents_eq]

/-- A node without sequences leaves the list that it is in open. -/
lemma entryKept_inList (node : YamlNode) (hdepth : node.sequenceDepth = 0)
    (rest : List YamlEvent) :
    entryKept lists true (node.events ++ rest) = entryKept lists true rest := by
  induction node using YamlNode.induct generalizing rest with
  | hscalar value => rfl
  | hreference => rfl
  | hsequence items ih => simp [YamlNode.sequenceDepth] at hdepth
  | hmapping fields ih =>
    rw [sequenceDepth_mapping, ← Nat.le_zero, itemsDepth_le_iff] at hdepth
    rw [mapping_events_append]
    refine itemsEvents_rule (P := fun events => entryKept lists true events =
      entryKept lists true rest) (fun node hnode rest' hrest' => ?_) rfl
    exact (ih node hnode (Nat.le_zero.mp (hdepth node hnode)) rest').trans hrest'

/-- A node outside of lists, with no sequences but the lists that the entry can have, leaves the
entry to what follows. -/
lemma entryKept_append (node : YamlNode) (hdepth : node.sequenceDepth ≤ lists.toNat)
    {rest : List YamlEvent} (hrest : entryKept lists false rest = true) :
    entryKept lists false (node.events ++ rest) = true := by
  induction node using YamlNode.induct generalizing rest with
  | hscalar value => exact hrest
  | hreference => exact hrest
  | hsequence items ih =>
    rw [YamlNode.sequenceDepth] at hdepth
    have hlists : lists = true := by
      cases lists with
      | false => exact absurd hdepth (Nat.not_succ_le_zero _)
      | true => rfl
    subst hlists
    have hflat := itemsDepth_le_iff.mp (Nat.le_of_succ_le_succ hdepth)
    have hevents : (YamlNode.sequence items).events ++ rest =
        .sequenceStart :: (itemsEvents items ++ .sequenceEnd :: rest) := by
      simp [YamlNode.events]
    rw [hevents]
    refine itemsEvents_rule (P := fun events => entryKept true true events = true)
      (fun item hitem rest' hrest' => ?_) hrest
    rwa [entryKept_inList item (Nat.le_zero.mp (hflat item hitem))]
  | hmapping fields ih =>
    rw [sequenceDepth_mapping, itemsDepth_le_iff] at hdepth
    rw [mapping_events_append]
    exact itemsEvents_rule (P := fun events => entryKept lists false events = true)
      (fun node hnode rest' hrest' => ih node hnode (hdepth node hnode) hrest') rfl

/-- An entry with no sequences but the lists that it can have is kept. -/
theorem entryKept_of_sequenceDepth_le {entry : List (YamlNode × YamlNode)}
    (hdepth : (YamlNode.mapping entry).sequenceDepth ≤ lists.toNat) :
    entryKept lists false (entryEvents entry) = true := by
  rw [sequenceDepth_mapping, itemsDepth_le_iff] at hdepth
  rw [entryEvents, fieldsEvents_eq]
  exact itemsEvents_rule (P := fun events => entryKept lists false events = true)
    (fun node hnode rest hrest => entryKept_append node (hdepth node hnode) hrest) rfl

end WellShaped

/-! ## The result -/

/-- A file that is accepted has been read to its end. -/
lemma run_of_parseSingleConfigFile {net : Inet} {files : Files} {path : String}
    {config : RawConfig} {events rest : List YamlEvent} {s : FileState}
    (hfile : files.events path = some events)
    (h : parseSingleConfigFile net files path config = some (.ok (s, rest))) :
    (Reader.file ⟨config, [], none, 0⟩).run net events = .ok (.done s) := by
  have hrun := parseSingleConfigFile_eq_run net hfile config
  rw [h] at hrun
  cases hresult : (Reader.file ⟨config, [], none, 0⟩).run net events with
  | error error =>
    rw [hresult] at hrun
    cases hrun
  | ok r =>
    rw [hresult] at hrun
    cases r with
    | done s' =>
      obtain rfl := Except.ok.inj (Option.some.inj hrun)
      rfl
    | file | servers | serverList | zones | includes => cases hrun

/-- In a file that is accepted, every static server and every response policy zone of its documents
has been appended, in their order and one for each mapping, and every zone that was appended has a
source, exactly if the events of each server and of each zone keep it. -/
theorem entries_appended_iff {net : Inet} {files : Files} {path : String} {config : RawConfig}
    {documents : List YamlNode} {s : FileState} {rest : List YamlEvent}
    (hfile : files.events path = some (streamEvents documents))
    (haccepted : parseSingleConfigFile net files path config = some (.ok (s, rest))) :
    (EntriesAppended "static_servers"
          (Reader.observe Reader.staticServers Reader.readsServer net
            (.file ⟨config, [], none, 0⟩)) documents s.config.staticServers ∧
        EntriesAppended "rpz"
          (Reader.observe Reader.rpzZones Reader.readsZone net
            (.file ⟨config, [], none, 0⟩)) documents s.config.rpzZones ∧
        ∃ zones, s.config.rpzZones = config.rpzZones ++ zones ∧ ∀ zone ∈ zones, HasSource zone) ↔
      (∀ entry ∈ entriesUnder "static_servers" documents,
          entryKept true false (entryEvents entry) = true) ∧
        ∀ entry ∈ entriesUnder "rpz" documents,
          entryKept false false (entryEvents entry) = true := by
  have hrun := run_of_parseSingleConfigFile hfile haccepted
  have hservers := EntryLoop.entriesAppended_iff (L := serverLoop net) hrun
  have hzones := EntryLoop.entriesAppended_iff (L := zoneLoop net) hrun
  have hsource := rpzZones_run hrun
  constructor
  · rintro ⟨happended, happended', -⟩
    exact ⟨hservers.mp happended, hzones.mp happended'⟩
  · rintro ⟨hkept, hkept'⟩
    exact ⟨hservers.mpr hkept, hzones.mpr hkept', hsource⟩

/-- A file system in which every file has the given documents. -/
def Files.ofDocuments (documents : List YamlNode) : Files where
  events _ := some (streamEvents documents)
  stat _ := none
  glob _ := .noMatch

/-- A document with one static server and one response policy zone. -/
def entriesDocument (routingDomains master : YamlNode) : YamlNode :=
  .mapping
    [(.scalar "static_servers", .sequence [.mapping
        [(.scalar "address", .scalar "192.0.2.1"), (.scalar "routing_domains", routingDomains)]]),
      (.scalar "rpz", .sequence [.mapping
        [(.scalar "name", .scalar "rpz.example.com"), (.scalar "master", master)]])]

/-- A server with a list of domains and a zone without a list are there when the file has been
read. -/
theorem entries_appended_flat :
    ∃ s, parseSingleConfigFile .documentation
        (.ofDocuments [entriesDocument (.sequence [.scalar "example.com"]) (.scalar "192.0.2.1")])
        "dnsconfd.conf" .empty = some (.ok (s, [])) ∧
      s.config.staticServers.length = 1 ∧ s.config.rpzZones.length = 1 ∧
      EntriesAppended "static_servers"
        (Reader.observe Reader.staticServers Reader.readsServer .documentation
          (.file ⟨.empty, [], none, 0⟩))
        [entriesDocument (.sequence [.scalar "example.com"]) (.scalar "192.0.2.1")]
        s.config.staticServers := by
  obtain ⟨s, haccepted, hservers, hzones⟩ : ∃ s, parseSingleConfigFile .documentation
      (.ofDocuments [entriesDocument (.sequence [.scalar "example.com"]) (.scalar "192.0.2.1")])
      "dnsconfd.conf" .empty = some (.ok (s, [])) ∧ s.config.staticServers.length = 1 ∧
        s.config.rpzZones.length = 1 := ⟨_, rfl, rfl, rfl⟩
  exact ⟨s, haccepted, hservers, hzones,
    ((entries_appended_iff rfl haccepted).mpr ⟨by decide, by decide⟩).1⟩

/-- A zone whose master is written as a list is lost, and the file is accepted. -/
theorem entries_dropped_zone :
    ∃ s, parseSingleConfigFile .documentation
        (.ofDocuments [entriesDocument (.sequence [.scalar "example.com"])
          (.sequence [.scalar "192.0.2.1"])])
        "dnsconfd.conf" .empty = some (.ok (s, [])) ∧
      s.config.rpzZones = [] ∧
      ¬ EntriesAppended "rpz"
        (Reader.observe Reader.rpzZones Reader.readsZone .documentation
          (.file ⟨.empty, [], none, 0⟩))
        [entriesDocument (.sequence [.scalar "example.com"]) (.sequence [.scalar "192.0.2.1"])]
        s.config.rpzZones := by
  refine ⟨_, rfl, rfl, ?_⟩
  rintro ⟨place, -, hplace⟩
  have hlt := (hplace ⟨[], [], [_], [], [], [], _, rfl⟩).1
  exact absurd hlt (Nat.not_lt_zero _)

end Dnsconfd.ConfigFile
