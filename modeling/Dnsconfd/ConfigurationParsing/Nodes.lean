import Dnsconfd.ConfigurationParsing.Reader

/-!
# Arbitrary documents

libyaml delivers the events of any file that is YAML as the events of trees: scalars, aliases,
sequences and mappings, nested in any way.  The loops of the configuration file take these events
without looking at the nesting; each loop ends at the first end of a sequence that it sees.  This
file shows what remains true: a loop never reads beyond the node in which it was entered
(`Within.node`).  All that this needs of the events is that they are `Balanced`.
-/

namespace Dnsconfd.ConfigFile

open Library

/-! ## Trees and their events -/

/-- A node of a YAML document; an alias is a reference to another node. -/
inductive YamlNode where
  | scalar (value : String)
  | reference
  | sequence (items : List YamlNode)
  | mapping (fields : List (YamlNode × YamlNode))

mutual

/-- The events of a node. -/
def YamlNode.events : YamlNode → List YamlEvent
  | .scalar value => [.scalar value]
  | .reference => [.other]
  | .sequence items => .sequenceStart :: (itemsEvents items ++ [.sequenceEnd])
  | .mapping fields => .mappingStart :: (fieldsEvents fields ++ [.mappingEnd])

/-- The events of the items of a sequence. -/
def itemsEvents : List YamlNode → List YamlEvent
  | [] => []
  | item :: items => item.events ++ itemsEvents items

/-- The events of the keys and values of a mapping. -/
def fieldsEvents : List (YamlNode × YamlNode) → List YamlEvent
  | [] => []
  | (key, value) :: fields => key.events ++ (value.events ++ fieldsEvents fields)

end

mutual

/-- How deep sequences are nested inside of each other in a node. -/
def YamlNode.sequenceDepth : YamlNode → ℕ
  | .scalar _ => 0
  | .reference => 0
  | .sequence items => itemsDepth items + 1
  | .mapping fields => fieldsDepth fields

/-- How deep sequences are nested in the items of a sequence. -/
def itemsDepth : List YamlNode → ℕ
  | [] => 0
  | item :: items => max item.sequenceDepth (itemsDepth items)

/-- How deep sequences are nested in the keys and values of a mapping. -/
def fieldsDepth : List (YamlNode × YamlNode) → ℕ
  | [] => 0
  | (key, value) :: fields =>
    max (max key.sequenceDepth value.sequenceDepth) (fieldsDepth fields)

end

/-- The keys and values of a mapping, in the order of their events. -/
def fieldNodes (fields : List (YamlNode × YamlNode)) : List YamlNode :=
  fields.flatMap fun field => [field.1, field.2]

lemma itemsEvents_append (items items' : List YamlNode) :
    itemsEvents (items ++ items') = itemsEvents items ++ itemsEvents items' := by
  induction items with
  | nil => simp [itemsEvents]
  | cons item items ih => simp [itemsEvents, ih]

/-- What every item preserves from behind it to before it is preserved by all of them. -/
lemma itemsEvents_rule {P : List YamlEvent → Prop} {items : List YamlNode}
    (hitem : ∀ item ∈ items, ∀ rest, P rest → P (item.events ++ rest)) {rest : List YamlEvent}
    (h : P rest) : P (itemsEvents items ++ rest) := by
  induction items with
  | nil => exact h
  | cons item items ih =>
    rw [itemsEvents, List.append_assoc]
    apply hitem item List.mem_cons_self
    exact ih fun item' hitem' => hitem item' (List.mem_cons_of_mem item hitem')

lemma fieldsEvents_append (fields fields' : List (YamlNode × YamlNode)) :
    fieldsEvents (fields ++ fields') = fieldsEvents fields ++ fieldsEvents fields' := by
  induction fields with
  | nil => simp [fieldsEvents]
  | cons field fields ih => simp [fieldsEvents, ih]

lemma fieldsEvents_eq (fields : List (YamlNode × YamlNode)) :
    fieldsEvents fields = itemsEvents (fieldNodes fields) := by
  induction fields with
  | nil => simp [fieldsEvents, itemsEvents, fieldNodes]
  | cons field fields ih =>
    rw [fieldsEvents, ih]
    simp [fieldNodes, itemsEvents]

lemma sequenceDepth_mapping (fields : List (YamlNode × YamlNode)) :
    (YamlNode.mapping fields).sequenceDepth = itemsDepth (fieldNodes fields) := by
  rw [YamlNode.sequenceDepth]
  induction fields with
  | nil => simp [fieldsDepth, itemsDepth, fieldNodes]
  | cons field fields ih =>
    rw [fieldsDepth, ih, max_assoc]
    simp [fieldNodes, itemsDepth]

lemma itemsDepth_le_iff {items : List YamlNode} {n : ℕ} :
    itemsDepth items ≤ n ↔ ∀ item ∈ items, item.sequenceDepth ≤ n := by
  induction items with
  | nil => simp [itemsDepth]
  | cons item items ih => simp [itemsDepth, ih]

/-- Induction over a tree: a property that holds of a sequence or mapping if it holds of all nodes
directly inside holds of all nodes. -/
theorem YamlNode.induct {P : YamlNode → Prop} (hscalar : ∀ value, P (.scalar value))
    (hreference : P .reference) (hsequence : ∀ items, (∀ item ∈ items, P item) → P (.sequence items))
    (hmapping : ∀ fields, (∀ node ∈ fieldNodes fields, P node) → P (.mapping fields)) :
    ∀ node, P node := by
  intro node
  refine @YamlNode.rec P (fun items => ∀ item ∈ items, P item)
    (fun fields => ∀ node ∈ fieldNodes fields, P node) (fun field => P field.1 ∧ P field.2)
    hscalar hreference hsequence hmapping ?_ ?_ ?_ ?_ ?_ node
  · exact fun item hitem => absurd hitem List.not_mem_nil
  · intro item items hitem hitems
    exact List.forall_mem_cons.mpr ⟨hitem, hitems⟩
  · exact fun node hnode => absurd hnode List.not_mem_nil
  · intro field fields hfield hfields
    exact List.forall_mem_cons.mpr ⟨hfield.1, List.forall_mem_cons.mpr ⟨hfield.2, hfields⟩⟩
  · exact fun key value hkey hvalue => ⟨hkey, hvalue⟩

/-! ## Balanced events -/

/-- Events in which every start of a sequence or of a mapping has its end. -/
inductive Balanced : List YamlEvent → Prop
  | nil : Balanced []
  | scalar {value : String} {events : List YamlEvent} (h : Balanced events) :
    Balanced (.scalar value :: events)
  | other {events : List YamlEvent} (h : Balanced events) : Balanced (.other :: events)
  | sequence {inner events : List YamlEvent} (hinner : Balanced inner) (h : Balanced events) :
    Balanced (.sequenceStart :: (inner ++ .sequenceEnd :: events))
  | mapping {inner events : List YamlEvent} (hinner : Balanced inner) (h : Balanced events) :
    Balanced (.mappingStart :: (inner ++ .mappingEnd :: events))

namespace Balanced

variable {events events' : List YamlEvent}

lemma append (h : Balanced events) (h' : Balanced events') : Balanced (events ++ events') := by
  induction h with
  | nil => exact h'
  | scalar _ ih => exact .scalar ih
  | other _ ih => exact .other ih
  | sequence hinner _ _ ih =>
    rw [List.cons_append, List.append_assoc]
    exact .sequence hinner ih
  | mapping hinner _ _ ih =>
    rw [List.cons_append, List.append_assoc]
    exact .mapping hinner ih

/-- The events of nodes are balanced if those of each of them are. -/
lemma items_of_forall {items : List YamlNode} (h : ∀ item ∈ items, Balanced item.events) :
    Balanced (itemsEvents items) := by
  induction items with
  | nil => exact .nil
  | cons item items ih =>
    rw [itemsEvents]
    have hitem : Balanced item.events := h item List.mem_cons_self
    exact hitem.append (ih fun item' hitem' => h item' (List.mem_cons_of_mem item hitem'))

/-- The events of a node are balanced. -/
lemma node (node : YamlNode) : Balanced node.events := by
  induction node using YamlNode.induct with
  | hscalar value => exact .scalar .nil
  | hreference => exact .other .nil
  | hsequence items ih =>
    rw [YamlNode.events]
    exact .sequence (items_of_forall ih) .nil
  | hmapping fields ih =>
    rw [YamlNode.events, fieldsEvents_eq]
    exact .mapping (items_of_forall ih) .nil

lemma items (items : List YamlNode) : Balanced (itemsEvents items) :=
  items_of_forall fun item _ => node item

/-- The stream does not end among balanced events, and nothing fails. -/
lemma ne_of_mem (h : Balanced events) {event : YamlEvent} (hmem : event ∈ events) :
    event ≠ .streamEnd ∧ event ≠ .failure := by
  induction h with
  | nil => cases hmem
  | scalar _ ih =>
    rcases List.mem_cons.mp hmem with rfl | hmem
    · simp
    · exact ih hmem
  | other _ ih =>
    rcases List.mem_cons.mp hmem with rfl | hmem
    · simp
    · exact ih hmem
  | sequence _ _ ihinner ih =>
    simp only [List.mem_cons, List.mem_append] at hmem
    rcases hmem with rfl | hmem | rfl | hmem
    · simp
    · exact ihinner hmem
    · simp
    · exact ih hmem
  | mapping _ _ ihinner ih =>
    simp only [List.mem_cons, List.mem_append] at hmem
    rcases hmem with rfl | hmem | rfl | hmem
    · simp
    · exact ihinner hmem
    · simp
    · exact ih hmem

end Balanced

/-! ## Runs over nodes -/

section Runs

variable {net : Inet} {r r' : Reader}

/-- What each of some nodes preserves is preserved by all of them. -/
lemma run_items_rule {P : Reader → Prop} {items : List YamlNode}
    (hitem : ∀ item ∈ items, ∀ r r', P r → r.run net item.events = .ok r' → P r') (hr : P r)
    (h : r.run net (itemsEvents items) = .ok r') : P r' := by
  induction items generalizing r with
  | nil =>
    simp only [itemsEvents, Reader.run, Except.ok.injEq] at h
    exact h ▸ hr
  | cons item items ih =>
    rw [itemsEvents, Reader.run_append_eq_ok_iff] at h
    obtain ⟨r₁, hhead, htail⟩ := h
    exact ih (fun item' hitem' => hitem item' (List.mem_cons_of_mem item hitem'))
      (hitem item List.mem_cons_self r r₁ hr hhead) htail

/-- A sequence is read from its start over its items to its end. -/
lemma run_sequence_iff {items : List YamlNode} :
    r.run net (YamlNode.sequence items).events = .ok r' ↔
      ∃ r₁ r₂, r.step net .sequenceStart = .ok r₁ ∧ r₁.run net (itemsEvents items) = .ok r₂ ∧
        r₂.step net .sequenceEnd = .ok r' := by
  simp only [YamlNode.events, Reader.run_cons_eq_ok_iff, Reader.run_append_eq_ok_iff,
    Reader.run_singleton, exists_and_left]

/-- A mapping is read from its start over its keys and values to its end. -/
lemma run_mapping_iff {fields : List (YamlNode × YamlNode)} :
    r.run net (YamlNode.mapping fields).events = .ok r' ↔
      ∃ r₁ r₂, r.step net .mappingStart = .ok r₁ ∧
        r₁.run net (itemsEvents (fieldNodes fields)) = .ok r₂ ∧
        r₂.step net .mappingEnd = .ok r' := by
  simp only [YamlNode.events, fieldsEvents_eq, Reader.run_cons_eq_ok_iff,
    Reader.run_append_eq_ok_iff, Reader.run_singleton, exists_and_left]

end Runs

/-! ## The nest of loops -/

/-- The loops inside of the loop of a file. -/
inductive Loop where
  | servers
  | serverList
  | zones
  | includes

/-- The loops that the reader is in, the innermost first; there are none behind the end of the
stream. -/
def Reader.loops : Reader → Option (List Loop)
  | .file _ => some []
  | .servers _ _ => some [.servers]
  | .serverList _ _ _ _ => some [.serverList, .servers]
  | .zones _ _ => some [.zones]
  | .includes _ _ => some [.includes]
  | .done _ => none

/-- The events of a node that neither start nor end a sequence. -/
def YamlEvent.isInner : YamlEvent → Bool
  | .sequenceStart => false
  | .sequenceEnd => false
  | .streamEnd => false
  | _ => true

/-- The reader is in the given loops or has left some of them. -/
def Reader.Within (r : Reader) (loops : List Loop) : Prop :=
  ∃ inner, r.loops = some inner ∧ inner <:+ loops

namespace Reader

variable {net : Inet} {r r' : Reader} {event : YamlEvent} {loops : List Loop} {l : Loop}

/-- Outside of all loops the reader is in the loop of the file. -/
lemma within_nil_iff : r.Within [] ↔ ∃ s, r = .file s := by
  constructor
  · rintro ⟨inner, hloops, hinner⟩
    rw [List.suffix_nil.mp hinner] at hloops
    cases r with
    | file s => exact ⟨s, rfl⟩
    | servers | serverList | zones | includes | done => cases hloops
  · rintro ⟨s, rfl⟩
    exact ⟨[], rfl, List.suffix_refl []⟩

lemma Within.mono {loops' : List Loop} (h : r.Within loops) (hloops : loops <:+ loops') :
    r.Within loops' := by
  obtain ⟨inner, hr, hinner⟩ := h
  exact ⟨inner, hr, hinner.trans hloops⟩

/-- An event that does not concern sequences leaves the reader in its loops. -/
lemma loops_step (h : r.step net event = .ok r') (hevent : event.isInner = true) :
    r'.loops = r.loops := by
  cases move_of_step h <;> first | rfl | cases hevent

/-- The start of a sequence enters a loop at most. -/
lemma loops_sequenceStart (h : r.step net .sequenceStart = .ok r') :
    r'.loops = r.loops ∨ ∃ l loops, r.loops = some loops ∧ r'.loops = some (l :: loops) := by
  cases move_of_step h with
  | enterServers hkey => exact Or.inr ⟨.servers, [], rfl, rfl⟩
  | enterZones hkey => exact Or.inr ⟨.zones, [], rfl, rfl⟩
  | enterIncludes hkey => exact Or.inr ⟨.includes, [], rfl, rfl⟩
  | enterList hserver => exact Or.inr ⟨.serverList, [.servers], rfl, rfl⟩
  | skipSequence | listOther | zonesOther | includesOther | stay => exact Or.inl rfl
  | fileOther hevent => simp at hevent
  | serversOther hevent => simp at hevent

/-- The end of a sequence leaves the innermost loop. -/
lemma loops_sequenceEnd (h : r.step net .sequenceEnd = .ok r') (hloops : r.loops = some loops) :
    r'.loops = some loops.tail := by
  cases move_of_step h with
  | fileOther | leaveServers | leaveList | leaveZones | leaveIncludes =>
    rw [← Option.some.inj hloops]
    rfl
  | serversOther hevent => simp at hevent
  | zonesOther hevent => simp at hevent
  | listOther hevent => exact absurd rfl hevent
  | includesOther hevent => exact absurd rfl hevent
  | stay => cases hloops

lemma Within.step (hr : r.Within loops) (h : r.step net event = .ok r')
    (hevent : event.isInner = true) : r'.Within loops := by
  obtain ⟨inner, hinner, hsuffix⟩ := hr
  exact ⟨inner, (loops_step h hevent).trans hinner, hsuffix⟩

/-- The end of a sequence leaves a loop, whatever loops have been left before. -/
lemma Within.sequenceEnd (hr : r.Within loops) (h : r.step net .sequenceEnd = .ok r') :
    r'.Within loops.tail := by
  obtain ⟨inner, hinner, hsuffix⟩ := hr
  refine ⟨inner.tail, loops_sequenceEnd h hinner, ?_⟩
  cases loops with
  | nil => rw [List.suffix_nil.mp hsuffix]
  | cons l loops =>
    rcases List.suffix_cons_iff.mp hsuffix with rfl | hsuffix
    · exact List.suffix_refl loops
    · exact (List.tail_suffix inner).trans hsuffix

/-- Behind balanced events the reader is in no other loops than before them: a loop that was entered
inside has been left. -/
theorem Within.balanced {events : List YamlEvent} (hevents : Balanced events)
    (hr : r.Within loops) (h : r.run net events = .ok r') : r'.Within loops := by
  induction hevents generalizing r r' loops with
  | nil =>
    rw [run, Except.ok.injEq] at h
    exact h ▸ hr
  | scalar _ ih | other _ ih =>
    obtain ⟨r₁, hstep, hrest⟩ := run_cons_eq_ok_iff.mp h
    exact ih (hr.step hstep rfl) hrest
  | sequence _ _ ihinner ih =>
    obtain ⟨r₁, hstart, hrun⟩ := run_cons_eq_ok_iff.mp h
    obtain ⟨r₂, hinside, hbehind⟩ := run_append_eq_ok_iff.mp hrun
    obtain ⟨r₃, hend, hrest⟩ := run_cons_eq_ok_iff.mp hbehind
    obtain ⟨inner, hinner, hsuffix⟩ := hr
    refine ih ?_ hrest
    rcases loops_sequenceStart hstart with hsame | ⟨l, inner', hinner', hentered⟩
    · -- the items are read by the loop that is there, which ends with the sequence at the latest
      have hr₁ : r₁.Within inner := ⟨inner, hsame.trans hinner, List.suffix_refl inner⟩
      have hr₃ := (ihinner hr₁ hinside).sequenceEnd hend
      exact hr₃.mono ((List.tail_suffix inner).trans hsuffix)
    · rw [hinner, Option.some.injEq] at hinner'
      subst hinner'
      have hr₁ : r₁.Within (l :: inner) := ⟨l :: inner, hentered, List.suffix_refl _⟩
      have hr₃ := (ihinner hr₁ hinside).sequenceEnd hend
      exact hr₃.mono hsuffix
  | mapping _ _ ihinner ih =>
    obtain ⟨r₁, hstart, hrun⟩ := run_cons_eq_ok_iff.mp h
    obtain ⟨r₂, hinside, hbehind⟩ := run_append_eq_ok_iff.mp hrun
    obtain ⟨r₃, hend, hrest⟩ := run_cons_eq_ok_iff.mp hbehind
    have hr₂ := ihinner (hr.step hstart rfl) hinside
    exact ih (hr₂.step hend rfl) hrest

/-- Behind a node the reader is in no other loops than before it. -/
lemma Within.node (node : YamlNode) (hr : r.Within loops) (h : r.run net node.events = .ok r') :
    r'.Within loops :=
  hr.balanced (Balanced.node node) h

lemma Within.items {items : List YamlNode} (hr : r.Within loops)
    (h : r.run net (itemsEvents items) = .ok r') : r'.Within loops :=
  hr.balanced (Balanced.items items) h

/-- The reader is in the given loops, or it has left the innermost one. -/
lemma Within.cons_cases (hr : r.Within (l :: loops)) :
    r.loops = some (l :: loops) ∨ r.Within loops := by
  obtain ⟨inner, hinner, hsuffix⟩ := hr
  rcases List.suffix_cons_iff.mp hsuffix with rfl | hsuffix
  · exact Or.inl hinner
  · exact Or.inr ⟨inner, hinner, hsuffix⟩

end Reader

end Dnsconfd.ConfigFile
