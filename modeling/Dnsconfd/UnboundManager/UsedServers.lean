import Dnsconfd.UnboundManager.Selection
import Mathlib.Data.Prod.Lex

/-!
# When the used servers are the best usable ones

A domain's servers are kept sorted by priority, protocol and support of DNSSEC, best first.
`get_used_servers` reads its cut-off rank from the first server of the list before it looks at
which servers the mode admits.  This file compares what it selects with the usable servers of the
highest rank: they agree exactly if the first server's rank is also the rank of some usable
server, or if no server is usable at all.
-/

namespace Dnsconfd

section LeadingRun

variable {α β : Type*} [PartialOrder β] [DecidableEq β] {rank : α → β}

/-- In a list sorted by rank below `m`, the leading elements of rank `m` are all that have it. -/
lemma takeWhile_rank_eq_filter {m : β} {l : List α} (hle : ∀ x ∈ l, rank x ≤ m)
    (hl : l.Pairwise fun a b => rank b ≤ rank a) :
    l.takeWhile (fun x => decide (rank x = m)) = l.filter fun x => decide (rank x = m) := by
  induction l with
  | nil => rfl
  | cons x l ih =>
    obtain ⟨hx, hl⟩ := List.pairwise_cons.mp hl
    by_cases hm : rank x = m
    · have htail := ih (fun y hy => hle y (List.mem_cons_of_mem x hy)) hl
      simp [hm, htail]
    · -- everything behind `x` ranks at most as high as `x`, hence strictly below `m`
      have hlt : rank x < m := lt_of_le_of_ne (hle x List.mem_cons_self) hm
      have hnone : ∀ y ∈ l, rank y ≠ m := fun y hy => ((hx y hy).trans_lt hlt).ne
      simpa [hm] using hnone

end LeadingRun

/-! ## Ranks and usable servers -/

/-- The rank by which `compare_servers` orders servers, as numbers: priority first, then protocol,
then support of DNSSEC. -/
def ServerUri.rank (s : ServerUri) : ℤ ×ₗ ℕ ×ₗ ℕ :=
  toLex (s.priority.toInt, toLex (s.protocol.toNat, s.dnssec.toNat))

/-- Best servers first. -/
def SortedByRank (servers : List ServerUri) : Prop :=
  servers.Pairwise fun a b => b.rank ≤ a.rank

instance (servers : List ServerUri) : Decidable (SortedByRank servers) :=
  inferInstanceAs (Decidable (servers.Pairwise _))

/-- The servers that may answer for a domain as the modes are documented: those not bound to an
interface, in mode backup all of them, and in mode prefer the bound ones for subdomains. -/
def usable (mode : Mode) (domain : String) (s : ServerUri) : Bool :=
  s.interface = "" || mode = .backup || (mode = .prefer && domain ≠ ".")

/-- The usable servers that no usable server of the list outranks. -/
def bestUsable (servers : List ServerUri) (mode : Mode) (domain : String) : List ServerUri :=
  servers.filter fun s =>
    usable mode domain s ∧ ∀ t ∈ servers, usable mode domain t → t.rank ≤ s.rank

/-- The loop skips exactly the servers that are not usable. -/
lemma skippedInMode_eq_not_usable (mode : Mode) (domain : String) (s : ServerUri) :
    skippedInMode mode domain s = !usable mode domain s := by
  cases mode <;> by_cases hi : s.interface = "" <;> by_cases hd : domain = "." <;>
    simp [skippedInMode, usable, Mode.toNat, hi, hd]

/-- A server that does not outrank another has its rank unless one of the three fields that
`get_used_servers` tests differs in the way it tests for. -/
lemma ServerUri.rank_eq_iff {s first : ServerUri} (hle : s.rank ≤ first.rank) :
    s.rank = first.rank ↔ ¬ (s.priority < first.priority ∨
      s.protocol.toNat < first.protocol.toNat ∨ s.dnssec ≠ first.dnssec) := by
  have hlex := hle
  simp only [ServerUri.rank, Prod.Lex.toLex_le_toLex] at hlex
  simp only [ServerUri.rank, EmbeddingLike.apply_eq_iff_eq, Prod.mk.injEq, Int32.lt_iff_toInt_lt,
    ne_eq, ← UInt8.toNat_inj]
  omega

/-! ## What the loop selects -/

/-- Run over servers that do not outrank the first one, the loop collects the usable ones of the
leading run that ranks with it. -/
lemma usedServersLoop_eq {first : ServerUri} {mode : Mode} {domain : String}
    {servers used : List ServerUri} (hle : ∀ s ∈ servers, s.rank ≤ first.rank) :
    usedServersLoop first.priority first.protocol first.dnssec mode domain servers used =
      ((servers.takeWhile fun s => decide (s.rank = first.rank)).filter
        (usable mode domain)).reverse ++ used := by
  induction servers generalizing used with
  | nil => rfl
  | cons s servers ih =>
    have htail : ∀ t ∈ servers, t.rank ≤ first.rank :=
      fun t ht => hle t (List.mem_cons_of_mem s ht)
    have hrank := ServerUri.rank_eq_iff (hle s List.mem_cons_self)
    unfold usedServersLoop
    rw [skippedInMode_eq_not_usable]
    by_cases heq : s.rank = first.rank
    · have hgo := hrank.mp heq
      rw [if_neg (by simpa [or_assoc] using hgo), ih htail, ih htail]
      cases hu : usable mode domain s <;> simp [heq, hu]
    · have hstop := not_not.mp fun h => heq (hrank.mpr h)
      rw [if_pos (by simpa [or_assoc] using hstop)]
      simp [heq]

/-- The first server of a sorted list has the highest rank. -/
lemma SortedByRank.rank_le_head {servers : List ServerUri} (hs : SortedByRank servers)
    (hne : servers ≠ []) : ∀ s ∈ servers, s.rank ≤ (servers.head hne).rank := by
  obtain ⟨first, rest, rfl⟩ := List.exists_cons_of_ne_nil hne
  intro s hmem
  rcases List.mem_cons.mp hmem with rfl | hmem
  · exact le_refl _
  · exact (List.pairwise_cons.mp hs).1 s hmem

/-- From a sorted list `get_used_servers` takes the usable servers that rank with the first one,
last one first. -/
theorem getUsedServers_eq {servers : List ServerUri} (hs : SortedByRank servers)
    (hne : servers ≠ []) (mode : Mode) (domain : String) :
    getUsedServers servers mode domain =
      (servers.filter fun s =>
        usable mode domain s && decide (s.rank = (servers.head hne).rank)).reverse := by
  have hle := hs.rank_le_head hne
  obtain ⟨first, rest, rfl⟩ := List.exists_cons_of_ne_nil hne
  simp only [getUsedServers, List.head_cons] at hle ⊢
  rw [usedServersLoop_eq hle, takeWhile_rank_eq_filter hle hs, List.append_nil, List.filter_filter]
  rfl

/-- If some usable server ranks with the first one, the best usable servers are those that do. -/
lemma bestUsable_eq_filter {servers : List ServerUri} (hs : SortedByRank servers)
    (hne : servers ≠ []) {mode : Mode} {domain : String} {best : ServerUri}
    (hmem : best ∈ servers) (husable : usable mode domain best = true)
    (hbest : best.rank = (servers.head hne).rank) :
    bestUsable servers mode domain =
      servers.filter fun s =>
        usable mode domain s && decide (s.rank = (servers.head hne).rank) := by
  have hle := hs.rank_le_head hne
  refine List.filter_congr fun s hmems => ?_
  rw [Bool.eq_iff_iff]
  simp only [decide_eq_true_eq, Bool.and_eq_true]
  refine and_congr_right fun _ => ⟨fun hmax => ?_, fun heq t ht _ => ?_⟩
  · exact le_antisymm (hle s hmems) (hbest ▸ hmax best hmem husable)
  · exact heq ▸ hle t ht

/-- Removing the unusable servers changes nothing for a list whose first server ranks with some
usable one. -/
lemma getUsedServers_filter_usable {servers : List ServerUri} (hs : SortedByRank servers)
    (hne : servers ≠ []) {mode : Mode} {domain : String} {best : ServerUri}
    (hmem : best ∈ servers) (husable : usable mode domain best = true)
    (hbest : best.rank = (servers.head hne).rank) :
    getUsedServers (servers.filter (usable mode domain)) mode domain =
      getUsedServers servers mode domain := by
  set kept := servers.filter (usable mode domain) with hkept
  have hmemk : best ∈ kept := List.mem_filter.mpr ⟨hmem, husable⟩
  have hnek : kept ≠ [] := List.ne_nil_of_mem hmemk
  have hsk : SortedByRank kept := List.Pairwise.filter _ hs
  have hhead : (kept.head hnek).rank = (servers.head hne).rank := by
    apply le_antisymm
    · exact hs.rank_le_head hne _ (List.mem_filter.mp (List.head_mem hnek)).1
    · rw [← hbest]
      exact hsk.rank_le_head hnek best hmemk
  rw [getUsedServers_eq hsk hnek, getUsedServers_eq hs hne, hhead, hkept, List.filter_filter]
  congr 1
  refine List.filter_congr fun s _ => ?_
  cases usable mode domain s <;> simp

/-- `get_used_servers` selects the best usable servers, as it would with the unusable ones removed
from the list, and nothing only if nothing is usable, exactly for the lists in which some usable
server has the rank of the first server as soon as there is a usable server at all. -/
theorem getUsedServers_eq_bestUsable_iff (servers : List ServerUri) (hne : servers ≠ [])
    (hs : SortedByRank servers) (mode : Mode) (domain : String) :
    (getUsedServers servers mode domain = (bestUsable servers mode domain).reverse ∧
      getUsedServers servers mode domain =
        getUsedServers (servers.filter (usable mode domain)) mode domain ∧
      (getUsedServers servers mode domain = [] → ∀ s ∈ servers, usable mode domain s = false)) ↔
    ((∃ s ∈ servers, usable mode domain s = true) →
      ∃ s ∈ servers, usable mode domain s = true ∧ s.rank = (servers.head hne).rank) := by
  constructor
  · rintro ⟨-, -, hempty⟩ ⟨s, hmem, husable⟩
    have hsome : getUsedServers servers mode domain ≠ [] := by
      intro hnil
      simp [hempty hnil s hmem] at husable
    obtain ⟨t, ht⟩ := List.exists_mem_of_ne_nil _ hsome
    rw [getUsedServers_eq hs hne, List.mem_reverse, List.mem_filter] at ht
    exact ⟨t, ht.1, by simpa using ht.2⟩
  · intro hcond
    by_cases hany : ∃ s ∈ servers, usable mode domain s = true
    · obtain ⟨best, hmem, husable, hbest⟩ := hcond hany
      refine ⟨?_, ?_, fun hnil => ?_⟩
      · rw [getUsedServers_eq hs hne, bestUsable_eq_filter hs hne hmem husable hbest]
      · exact (getUsedServers_filter_usable hs hne hmem husable hbest).symm
      · have hused : best ∈ getUsedServers servers mode domain := by
          rw [getUsedServers_eq hs hne]
          simp [hmem, husable, hbest]
        simp [hnil] at hused
    · have hnone : ∀ s ∈ servers, usable mode domain s = false := by simpa using hany
      have hused : getUsedServers servers mode domain = [] := by
        rw [getUsedServers_eq hs hne]
        simpa using fun s hmem husable => absurd husable (by simp [hnone s hmem])
      have hkept : servers.filter (usable mode domain) = [] := by simpa using hnone
      have hbest : bestUsable servers mode domain = [] := by
        rw [bestUsable, List.filter_eq_nil_iff]
        intro s hmem
        simp [hnone s hmem]
      exact ⟨by rw [hused, hbest]; rfl, by rw [hused, hkept]; rfl, fun _ => hnone⟩

/-- A server on an interface, preferred to every global one. -/
def boundServer : ServerUri :=
  { ServerUri.initial with
    address := .inet documentationAddress 53, priority := 100, interface := "eth0",
    routingDomains := ["."] }

/-- A server that is not bound to an interface, of a lower priority. -/
def globalServer : ServerUri :=
  { ServerUri.initial with
    address := .inet documentationAddress 53, priority := 50, routingDomains := ["."] }

theorem getUsedServers_eq_bestUsable_global_first :
    getUsedServers [globalServer, { boundServer with priority := 50 }] .prefer "." =
      [globalServer] := by
  have hmem : globalServer ∈ [globalServer, { boundServer with priority := 50 }] := by simp
  have hsel := (getUsedServers_eq_bestUsable_iff
    [globalServer, { boundServer with priority := 50 }] (by simp) (by decide) .prefer ".").mpr
    fun _ => ⟨globalServer, hmem, by decide, rfl⟩
  rw [hsel.1]
  decide

/-- In mode prefer a bound server of the highest priority leaves the root domain without servers,
although there is a global server. -/
theorem getUsedServers_bound_first :
    SortedByRank [boundServer, globalServer] ∧
      getUsedServers [boundServer, globalServer] .prefer "." = [] ∧
      bestUsable [boundServer, globalServer] .prefer "." = [globalServer] ∧
      getUsedServers ([boundServer, globalServer].filter (usable .prefer ".")) .prefer "." =
        [globalServer] := by
  decide

end Dnsconfd
