import Dnsconfd.DbusServer.Daemon
import Dnsconfd.UnboundManager.EffectiveCa

/-!
# Stability of the effective CA

`write_configuration` stores the effective CA chosen from all servers of the table, and `update`
asks for a reload if the CA chosen from the used servers differs.  Both take the CA of a server of
least priority that an iteration over a hash table meets first, so over all orders of iteration
exactly the CAs of the servers `Chosen` can result.  A reload can be asked for without any change
exactly if the table is not `CaStable` (`update_not_reload_iff`): the used servers of a domain are
those of highest priority, so two servers with different CAs and priorities are enough
(`update_reloads_again`).
-/

namespace Dnsconfd

open Library

variable {p : Platform} {config : Config}

/-! ## The used servers -/

/-- The entries of a table with the used servers in place of all servers. -/
def usedEntries (mode : Mode) (table : ServerTable) : List ServerEntry :=
  table.entries.map fun entry => ⟨entry.1, getUsedServers entry.2 mode entry.1⟩

/-- As far as candidates are concerned, the table that `update` builds has these entries. -/
lemma mem_usedServersTable_iff {order : Enumeration ServerEntry} {table : ServerTable}
    {mode : Mode} {entry : ServerEntry} (hne : caCandidates mode entry ≠ []) :
    entry ∈ (usedServersTable order table mode).entries ↔ entry ∈ usedEntries mode table := by
  obtain ⟨domain, used⟩ := entry
  have hused : used ≠ [] := by
    rintro rfl
    exact hne rfl
  have hlookup : (⟨domain, used⟩ : ServerEntry) ∈ (usedServersTable order table mode).entries ↔
      (usedServersTable order table mode).lookup domain = some used := AList.mem_lookup_iff.symm
  rw [hlookup, usedServersTable, Table.lookup_collect_visit, Option.bind_eq_some_iff, usedEntries,
    List.mem_map]
  constructor
  · rintro ⟨servers, hservers, hsome⟩
    refine ⟨⟨domain, servers⟩, AList.mem_lookup_iff.mp hservers, ?_⟩
    rw [(usedServersOf_eq_some_iff.mp hsome).1]
  · rintro ⟨⟨domain', servers⟩, hservers, heq⟩
    obtain ⟨rfl, hget⟩ := Sigma.mk.inj heq
    exact ⟨servers, AList.mem_lookup_iff.mpr hservers,
      usedServersOf_eq_some_iff.mpr ⟨eq_of_heq hget, hused⟩⟩

/-- The CAs that `update` finds among the used servers in some order of iteration. -/
lemma chosen_usedServersTable_iff {order : Enumeration ServerEntry} {table : ServerTable}
    {mode : Mode} (x : ServerUri) :
    Chosen mode (usedServersTable order table mode).entries x ↔
      Chosen mode (usedEntries mode table) x :=
  chosen_congr (fun _ hne => mem_usedServersTable_iff hne) x

/-- `update` finds no CA among the used servers exactly if they have no candidates. -/
lemma usedServersTable_ca_eq_none_iff {order caOrder : Enumeration ServerEntry}
    {table : ServerTable} {mode : Mode} :
    effectiveCaFromUris caOrder (usedServersTable order table mode) mode = none ↔
      ∀ entry ∈ usedEntries mode table, caCandidates mode entry = [] := by
  rw [effectiveCaFromUris_eq_none_iff]
  constructor
  · intro h entry hentry
    by_contra hne
    exact hne (h entry ((mem_usedServersTable_iff hne).mpr hentry))
  · intro h entry hentry
    by_contra hne
    exact hne (h entry ((mem_usedServersTable_iff hne).mp hentry))

/-- If no server is a candidate, no used server is. -/
lemma no_used_candidates {table : ServerTable} {mode : Mode}
    (h : ∀ entry ∈ table.entries, caCandidates mode entry = []) :
    ∀ entry ∈ usedEntries mode table, caCandidates mode entry = [] := by
  intro entry hentry
  obtain ⟨entry, hmem, rfl⟩ := List.mem_map.mp hentry
  rw [List.eq_nil_iff_forall_not_mem]
  intro s hs
  -- a used candidate is a candidate among all servers of the domain
  have hs' : s ∈ caCandidates mode entry := by
    rw [caCandidates, List.mem_filter] at hs ⊢
    exact ⟨(mem_getUsedServers hs.1).1, hs.2⟩
  rw [h entry hmem] at hs'
  cases hs'

/-! ## Stability -/

/-- The files of the configuration that may serve as the CA, in the order in which they are
tried. -/
def configuredCas (config : Config) : List String :=
  (config.certificationAuthority.toList.splitOn ' ').map String.ofList

/-- Whatever server the CA is taken from among all servers: every server that it may be taken from
among the used ones has the same CA, and if no used server is a candidate, then the first readable
file of the configuration is that CA. -/
def CaStable (config : Config) (readable : String → Bool) (mode : Mode) (table : ServerTable) :
    Prop :=
  ∀ x, Chosen mode table.entries x →
    (∀ y, Chosen mode (usedEntries mode table) y →
      y.certificationAuthority = x.certificationAuthority) ∧
    ((∀ entry ∈ usedEntries mode table, caCandidates mode entry = []) →
      ∀ ca, (configuredCas config).find? readable = some ca → x.certificationAuthority = some ca)

/-- The CA of a table of servers comes from a chosen server, or from the configuration if there
are no candidates. -/
lemma getEffectiveCa_cases {order : Enumeration ServerEntry} {readable : String → Bool}
    {table : ServerTable} {mode : Mode} {ca : String}
    (h : getEffectiveCa order readable (some table) mode config = some ca) :
    (∃ x, Chosen mode table.entries x ∧ x.certificationAuthority = some ca) ∨
      (effectiveCaFromUris order table mode = none ∧
        (configuredCas config).find? readable = some ca) := by
  unfold getEffectiveCa at h
  rw [Option.bind_some] at h
  cases huris : effectiveCaFromUris order table mode with
  | some ca' =>
    rw [huris] at h
    obtain rfl : ca' = ca := Option.some.inj h
    exact Or.inl (exists_order_effectiveCaFromUris_iff.mp ⟨order, huris⟩)
  | none =>
    rw [huris] at h
    exact Or.inr ⟨rfl, h⟩

/-- With a stable table both choices agree. -/
lemma CaStable.eq {readable : String → Bool} {mode : Mode} {table : ServerTable}
    (h : CaStable config readable mode table) {order caOrder caOrder' : Enumeration ServerEntry}
    {ca ca' : String}
    (hca : getEffectiveCa caOrder readable (some table) mode config = some ca)
    (hca' : getEffectiveCa caOrder' readable (some (usedServersTable order table mode)) mode
      config = some ca') : ca' = ca := by
  rcases getEffectiveCa_cases hca with ⟨x, hx, hxca⟩ | ⟨hnone, hconfig⟩
  · rcases getEffectiveCa_cases hca' with ⟨y, hy, hyca⟩ | ⟨hnone', hconfig'⟩
    · have hsame := (h x hx).1 y ((chosen_usedServersTable_iff y).mp hy)
      rw [hxca, hyca] at hsame
      exact Option.some.inj hsame
    · have hsame := (h x hx).2 (usedServersTable_ca_eq_none_iff.mp hnone') ca' hconfig'
      rw [hxca] at hsame
      exact (Option.some.inj hsame).symm
  · have hnil := no_used_candidates (effectiveCaFromUris_eq_none_iff.mp hnone)
    rcases getEffectiveCa_cases hca' with ⟨y, hy, -⟩ | ⟨-, hconfig'⟩
    · obtain ⟨entry, hentry, hmin, -⟩ := (chosen_usedServersTable_iff y).mp hy
      rw [hnil entry hentry] at hmin
      cases hmin
    · rw [hconfig] at hconfig'
      exact (Option.some.inj hconfig').symm

/-- Outcomes of `write_configuration` with which everything is written. -/
def KickoffOutcome.written (readable : String → Bool) (caOrder : Enumeration ServerEntry) :
    KickoffOutcome where
  monitorCreated := true
  confOpens := true
  listenWritten := true
  zonesWritten := true
  rpzWritten := true
  confClean := true
  confCloses := true
  readable := readable
  caOrder := caOrder
  zonesOrder := .stored

/-- Outcomes of `update` with which every command succeeds. -/
def UpdateOutcome.executed (readable : String → Bool) (caOrder : Enumeration ServerEntry) :
    UpdateOutcome where
  readable := readable
  commandOk := fun _ => true
  tableOrder := .stored
  caOrder := caOrder
  addOrder := .stored
  removeOrder := .stored

/-- With these outcomes the two choices are compared: if they differ, a reload is asked for. -/
lemma reload_of_ne {ctx : Context} {table : ServerTable} {readable : String → Bool}
    {caOrder caOrder' : Enumeration ServerEntry} {ca ca' : String}
    (htable : ctx.currentDomainToServers = some table)
    (hca : getEffectiveCa caOrder readable (some table) ctx.resolutionMode config = some ca)
    (hca' : getEffectiveCa caOrder' readable
      (some (usedServersTable .stored table ctx.resolutionMode)) ctx.resolutionMode config =
        some ca') (hne : ca' ≠ ca) :
    (writeConfiguration p config (.written readable caOrder) ctx).error = none ∧
      (update p config (.executed readable caOrder')
        (writeConfiguration p config (.written readable caOrder) ctx).ctx).1 = .reload := by
  have hwrite : writeConfiguration p config (.written readable caOrder) ctx =
      ⟨none, { ctx with effectiveCa := some ca },
        [.confWritten (confLines p config (.written readable caOrder) ctx ca)]⟩ := by
    simp [writeConfiguration, KickoffOutcome.written, htable, hca]
  rw [hwrite]
  refine ⟨rfl, ?_⟩
  simp [update, UpdateOutcome.executed, htable, hca', hne]

/-- Reload stability of the effective CA: after a `write_configuration` that succeeds, an `update`
with the same table of servers, mode, configuration and readable files asks for no reload, whatever
the orders of iteration and the other outcomes, exactly if the table is stable. -/
theorem update_not_reload_iff (ctx : Context) (table : ServerTable)
    (htable : ctx.currentDomainToServers = some table) (readable : String → Bool) :
    (∀ (k : KickoffOutcome) (u : UpdateOutcome), k.readable = readable → u.readable = readable →
      (writeConfiguration p config k ctx).error = none →
      (update p config u (writeConfiguration p config k ctx).ctx).1 ≠ .reload) ↔
    CaStable config readable ctx.resolutionMode table := by
  constructor
  · intro h x hx
    obtain ⟨ca, hca⟩ := hx.isSome
    obtain ⟨caOrder, huris⟩ := exists_order_effectiveCaFromUris_iff.mpr ⟨x, hx, hca⟩
    have heffective : getEffectiveCa caOrder readable (some table) ctx.resolutionMode config =
        some ca := by
      rw [getEffectiveCa, Option.bind_some, huris]
    -- a different choice of `update` would ask for a reload
    have hsame : ∀ caOrder' ca', getEffectiveCa caOrder' readable
        (some (usedServersTable .stored table ctx.resolutionMode)) ctx.resolutionMode config =
          some ca' → ca' = ca := by
      intro caOrder' ca' hca'
      by_contra hne
      obtain ⟨hwritten, hreload⟩ := @reload_of_ne p config _ _ _ _ _ _ _ htable heffective hca' hne
      exact h _ _ rfl rfl hwritten hreload
    constructor
    · intro y hy
      obtain ⟨ca', hca'⟩ := hy.isSome
      obtain ⟨caOrder', huris'⟩ := exists_order_effectiveCaFromUris_iff.mpr
        ⟨y, (@chosen_usedServersTable_iff .stored table ctx.resolutionMode y).mpr hy, hca'⟩
      have hequal : ca' = ca := hsame caOrder' ca' (by
        rw [getEffectiveCa, Option.bind_some, huris'])
      rw [hca, hca', hequal]
    · intro hnil ca' hconfig
      have hnone : effectiveCaFromUris .stored
          (usedServersTable .stored table ctx.resolutionMode) ctx.resolutionMode = none :=
        usedServersTable_ca_eq_none_iff.mpr hnil
      have hequal : ca' = ca := hsame .stored ca' (by
        rw [getEffectiveCa, Option.bind_some, hnone]
        exact hconfig)
      rw [hca, hequal]
  · intro hstable k u hk hu hwritten hreload
    rcases writeConfiguration_cases p config k ctx with ⟨ca, hca, hwrite⟩ | ⟨herror, -⟩
    · rw [hwrite] at hreload
      rw [htable, hk] at hca
      unfold update at hreload
      simp only [htable] at hreload
      rw [hu] at hreload
      split at hreload
      · cases hreload
      · rename_i ca' hca'
        rw [hstable.eq hca hca'] at hreload
        simp only [ne_eq, not_true_eq_false, if_false, applyUpdate] at hreload
        split_ifs at hreload
    · rw [hwritten] at herror
      cases herror

/-- A context whose table has two TLS servers for the root domain, of different priorities and with one
CA. -/
theorem update_not_reload_shared :
    let ctx := { Context.initial with
      currentDomainToServers :=
        some (AList.singleton "." [tlsServer 10 "/a.pem", tlsServer 5 "/a.pem"]) }
    ∀ (k : KickoffOutcome) (u : UpdateOutcome), k.readable = (fun _ => true) →
      u.readable = (fun _ => true) → (writeConfiguration .plain .plain k ctx).error = none →
      (update .plain .plain u (writeConfiguration .plain .plain k ctx).ctx).1 ≠ .reload := by
  intro ctx
  refine (update_not_reload_iff ctx _ rfl _).mpr ?_
  -- the CA of the one that is chosen among all servers is that of the used one
  have hall : ∀ x, Chosen .backup [⟨".", [tlsServer 10 "/a.pem", tlsServer 5 "/a.pem"]⟩] x →
      x = tlsServer 5 "/a.pem" := by
    rintro x ⟨entry, hentry, hx, -⟩
    obtain rfl := List.mem_singleton.mp hentry
    exact (Option.some.inj hx).symm
  have hused : ∀ x, Chosen .backup [⟨".", [tlsServer 10 "/a.pem"]⟩] x →
      x = tlsServer 10 "/a.pem" := by
    rintro x ⟨entry, hentry, hx, -⟩
    obtain rfl := List.mem_singleton.mp hentry
    exact (Option.some.inj hx).symm
  intro x hx
  refine ⟨fun y hy => ?_, fun hnil => ?_⟩
  · rw [hall x hx, hused y hy]
    rfl
  · exact absurd (hnil ⟨".", [tlsServer 10 "/a.pem"]⟩ List.mem_cons_self) (by decide)

/-- The Update call with two TLS servers for the root domain, of different priorities and CAs. -/
def tlsCall : DaemonEvent :=
  .updateCall [
    [("address", .byteString [192, 0, 2, 1]), ("protocol", .string "dns+tls"),
      ("priority", .int32 10), ("ca", .string "/a.pem")],
    [("address", .byteString [192, 0, 2, 2]), ("protocol", .string "dns+tls"),
      ("priority", .int32 5), ("ca", .string "/b.pem")]] 0

/-- After that Update the daemon restarts the cache again and again: `write_configuration` takes
the CA of the server of lower priority and `update` that of the used server, so every finished start
job leads to the next one. -/
theorem update_reloads_again :
    let d := fun n => (daemon .plain .plain).run ([.ok .nameAcquired, .ok (.jobFinished "done"),
      .ok tlsCall] ++ List.replicate n (.ok (.jobFinished "done")))
    let written := writeConfiguration .plain .plain Outcomes.allOk.kickoff (d 0).ctx
    written.error = none ∧ written.ctx.effectiveCa = some "/b.pem" ∧
      (update .plain .plain Outcomes.allOk.update written.ctx).1 = .reload ∧
      (d 0).ctx.currentState = .waitingForStartJob ∧
      (d 1).ctx.currentState = .waitingForStartJob ∧
      (d 2).ctx.currentState = .waitingForStartJob :=
  ⟨by decide, by decide, rfl, by decide, by decide, by decide⟩

end Dnsconfd
