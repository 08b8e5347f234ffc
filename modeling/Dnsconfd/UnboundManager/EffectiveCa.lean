import Dnsconfd.UnboundManager.Selection
import Mathlib

/-!
# The choice of the certification authority

The candidates of a domain for the effective CA are `caCandidates`, and the running choice over
an iteration is Mathlib's `List.argmin` of the candidates met, by priority
(`effectiveCaFromUris_eq`).  So over all orders of iteration exactly the CAs of the servers `Chosen`
can result.  They are servers of the least priority, while a larger priority is preferred:
`effectiveCaFromUris_mostPreferred_iff` says when the CA is nevertheless that of a most preferred
server.
-/

namespace Dnsconfd

open Library

/-- The servers of a domain that `effective_ca_from_uris` considers. -/
def caCandidates (mode : Mode) (entry : ServerEntry) : List ServerUri :=
  entry.2.filter fun s =>
    s.certificationAuthority.isSome && !skippedInMode mode entry.1 s && s.protocol = .tls

/-- The choice that a considered server stands for. -/
def caChoiceOf (s : ServerUri) : CaChoice :=
  s.certificationAuthority.map fun ca => (ca, s.priority)

/-- The order in which `effective_ca_from_uris` prefers servers: by increasing priority. -/
def caKey (s : ServerUri) : ℤ :=
  s.priority.toInt

/-- One step of `List.argmin` on the servers considered. -/
def caStep (best : Option ServerUri) (s : ServerUri) : Option ServerUri :=
  List.argAux (fun b c => caKey b < caKey c) best s

/-- A considered server specifies a CA. -/
lemma isSome_of_mem_caCandidates {mode : Mode} {entry : ServerEntry} {s : ServerUri}
    (hs : s ∈ caCandidates mode entry) : s.certificationAuthority.isSome = true := by
  simp only [caCandidates, List.mem_filter, Bool.and_eq_true] at hs
  exact hs.2.1.1

/-- The step keeps to servers that specify a CA. -/
lemma isSome_of_mem_caStep {best : Option ServerUri} {s : ServerUri}
    (hbest : ∀ b ∈ best, b.certificationAuthority.isSome = true)
    (hs : s.certificationAuthority.isSome = true) :
    ∀ b ∈ caStep best s, b.certificationAuthority.isSome = true := by
  intro b hb
  cases best with
  | none =>
    obtain rfl : s = b := Option.some.inj hb
    exact hs
  | some c =>
    simp only [caStep, List.argAux] at hb
    split at hb
    · obtain rfl : s = b := Option.some.inj hb
      exact hs
    · obtain rfl : c = b := Option.some.inj hb
      exact hbest c rfl

/-- The code's update of the running choice is the step of `List.argmin`. -/
lemma betterCa_step {best : Option ServerUri} {s : ServerUri} {ca : String}
    (hbest : ∀ b ∈ best, b.certificationAuthority.isSome = true)
    (hs : s.certificationAuthority = some ca) :
    (if betterCa (best.bind caChoiceOf) s then some (ca, s.priority)
      else best.bind caChoiceOf) = (caStep best s).bind caChoiceOf := by
  cases best with
  | none => simp [betterCa, caStep, List.argAux, caChoiceOf, hs]
  | some b =>
    obtain ⟨cb, hcb⟩ := Option.isSome_iff_exists.mp (hbest b rfl)
    have hlt : s.priority < b.priority ↔ caKey s < caKey b := Int32.lt_iff_toInt_lt
    by_cases h : caKey s < caKey b
    · simp [betterCa, caChoiceOf, caStep, List.argAux, hcb, hs, hlt, h]
    · simp [betterCa, caChoiceOf, caStep, List.argAux, hcb, hlt, h]

/-- The inner loop goes through the candidates of the domain as `List.argmin` does. -/
lemma effectiveCaLoop_eq {mode : Mode} {key : String} {servers : List ServerUri}
    {best : Option ServerUri} (hbest : ∀ b ∈ best, b.certificationAuthority.isSome = true) :
    effectiveCaLoop mode key servers (best.bind caChoiceOf) =
      ((caCandidates mode ⟨key, servers⟩).foldl caStep best).bind caChoiceOf := by
  induction servers generalizing best with
  | nil => rfl
  | cons s servers ih =>
    unfold effectiveCaLoop
    cases hca : s.certificationAuthority with
    | none => simpa [caCandidates, hca] using ih hbest
    | some ca =>
      by_cases hskip : skippedInMode mode key s = true
      · simpa [caCandidates, hca, hskip] using ih hbest
      by_cases htls : s.protocol = .tls
      · have hstep := betterCa_step hbest hca
        have hsome : s.certificationAuthority.isSome = true := by rw [hca]; rfl
        have hnext := ih (isSome_of_mem_caStep hbest hsome)
        have hcands : caCandidates mode ⟨key, s :: servers⟩ =
            s :: caCandidates mode ⟨key, servers⟩ := by
          simp [caCandidates, hca, hskip, htls]
        rw [hcands, List.foldl_cons, ← hnext, ← hstep]
        by_cases hbetter : betterCa (best.bind caChoiceOf) s = true
        · simp [hskip, htls, hbetter]
        · simp [hskip, hbetter]
      · simpa [caCandidates, hca, hskip, htls] using ih hbest

/-- Going through servers that specify a CA keeps to such servers. -/
lemma isSome_of_mem_foldl_caStep {servers : List ServerUri} {best : Option ServerUri}
    (hservers : ∀ s ∈ servers, s.certificationAuthority.isSome = true)
    (hbest : ∀ b ∈ best, b.certificationAuthority.isSome = true) :
    ∀ b ∈ servers.foldl caStep best, b.certificationAuthority.isSome = true := by
  induction servers generalizing best with
  | nil => exact hbest
  | cons s servers ih =>
    exact ih (fun t ht => hservers t (List.mem_cons_of_mem _ ht))
      (isSome_of_mem_caStep hbest (hservers s List.mem_cons_self))

/-- The outer loop goes through the candidates of all visited domains. -/
lemma foldl_effectiveCaLoop_eq {mode : Mode} {entries : List ServerEntry}
    {best : Option ServerUri} (hbest : ∀ b ∈ best, b.certificationAuthority.isSome = true) :
    entries.foldl (fun best entry => effectiveCaLoop mode entry.1 entry.2 best)
      (best.bind caChoiceOf) =
      ((entries.flatMap (caCandidates mode)).foldl caStep best).bind caChoiceOf := by
  induction entries generalizing best with
  | nil => rfl
  | cons e entries ih =>
    rw [List.foldl_cons, effectiveCaLoop_eq hbest, List.flatMap_cons, List.foldl_append]
    exact ih (isSome_of_mem_foldl_caStep (fun s hs => isSome_of_mem_caCandidates hs) hbest)

/-- `effective_ca_from_uris` takes the CA of the first candidate of least priority that the
iteration over the table meets. -/
theorem effectiveCaFromUris_eq (order : Enumeration ServerEntry) (table : ServerTable)
    (mode : Mode) :
    effectiveCaFromUris order table mode =
      (((order.visit table.entries).flatMap (caCandidates mode)).argmin caKey).bind
        ServerUri.certificationAuthority := by
  have hmap : ∀ o : Option ServerUri, (o.bind caChoiceOf).map Prod.fst =
      o.bind ServerUri.certificationAuthority := by
    intro o
    cases o with
    | none => rfl
    | some s => simp [caChoiceOf, Function.comp_def]
  have hloop : (order.visit table.entries).foldl
      (fun best entry => effectiveCaLoop mode entry.1 entry.2 best) none =
      (((order.visit table.entries).flatMap (caCandidates mode)).foldl caStep none).bind
        caChoiceOf :=
    @foldl_effectiveCaLoop_eq mode _ none (by simp)
  rw [effectiveCaFromUris, hloop, hmap]
  rfl

/-! ## The servers that may determine the CA -/

/-- The server is the first one of least priority among the candidates of its domain, and no domain
has a candidate of smaller priority. -/
def Chosen (mode : Mode) (entries : List ServerEntry) (x : ServerUri) : Prop :=
  ∃ entry ∈ entries, x ∈ (caCandidates mode entry).argmin caKey ∧
    ∀ entry' ∈ entries, ∀ y ∈ caCandidates mode entry', caKey x ≤ caKey y

/-- A chosen server specifies a CA. -/
lemma Chosen.isSome {mode : Mode} {entries : List ServerEntry} {x : ServerUri}
    (h : Chosen mode entries x) : ∃ ca, x.certificationAuthority = some ca := by
  obtain ⟨entry, -, hx, -⟩ := h
  exact Option.isSome_iff_exists.mp (isSome_of_mem_caCandidates (List.argmin_mem hx))

/-- Entries without candidates do not matter. -/
lemma chosen_congr {mode : Mode} {l₁ l₂ : List ServerEntry}
    (h : ∀ entry, caCandidates mode entry ≠ [] → (entry ∈ l₁ ↔ entry ∈ l₂)) (x : ServerUri) :
    Chosen mode l₁ x ↔ Chosen mode l₂ x := by
  have hdirection : ∀ {l₁ l₂ : List ServerEntry},
      (∀ entry, caCandidates mode entry ≠ [] → (entry ∈ l₁ ↔ entry ∈ l₂)) →
      Chosen mode l₁ x → Chosen mode l₂ x := by
    intro l₁ l₂ h
    rintro ⟨entry, hentry, hx, hmin⟩
    have hne : caCandidates mode entry ≠ [] := List.ne_nil_of_mem (List.argmin_mem hx)
    refine ⟨entry, (h entry hne).mp hentry, hx, fun entry' hentry' y hy => ?_⟩
    exact hmin entry' ((h entry' (List.ne_nil_of_mem hy)).mpr hentry') y hy
  exact ⟨hdirection h, hdirection fun entry hne => (h entry hne).symm⟩

/-- The CAs that `effective_ca_from_uris` finds in some order of iteration. -/
theorem exists_order_effectiveCaFromUris_iff {table : ServerTable} {mode : Mode} {ca : String} :
    (∃ order, effectiveCaFromUris order table mode = some ca) ↔
      ∃ x, Chosen mode table.entries x ∧ x.certificationAuthority = some ca := by
  simp only [effectiveCaFromUris_eq, Option.bind_eq_some_iff]
  constructor
  · rintro ⟨order, x, hx, hca⟩
    exact ⟨x, exists_visit_mem_argmin_iff.mp ⟨order, hx⟩, hca⟩
  · rintro ⟨x, hchosen, hca⟩
    obtain ⟨order, hx⟩ := exists_visit_mem_argmin_iff.mpr hchosen
    exact ⟨order, x, hx, hca⟩

/-- `effective_ca_from_uris` finds nothing exactly if there are no candidates. -/
lemma effectiveCaFromUris_eq_none_iff {order : Enumeration ServerEntry} {table : ServerTable}
    {mode : Mode} :
    effectiveCaFromUris order table mode = none ↔
      ∀ entry ∈ table.entries, caCandidates mode entry = [] := by
  constructor
  · intro hnone entry hentry
    rw [effectiveCaFromUris_eq] at hnone
    cases hmin : ((order.visit table.entries).flatMap (caCandidates mode)).argmin caKey with
    | none =>
      have hnil := List.flatMap_eq_nil_iff.mp (List.argmin_eq_none.mp hmin)
      exact hnil entry (order.mem_visit.mpr hentry)
    | some x =>
      have hchosen : Chosen mode table.entries x := exists_visit_mem_argmin_iff.mp ⟨order, hmin⟩
      obtain ⟨ca, hca⟩ := hchosen.isSome
      rw [hmin, Option.bind_some, hca] at hnone
      cases hnone
  · intro hnil
    have hflat : (order.visit table.entries).flatMap (caCandidates mode) = [] :=
      List.flatMap_eq_nil_iff.mpr fun entry hentry => hnil entry (order.mem_visit.mp hentry)
    rw [effectiveCaFromUris_eq, hflat]
    rfl

/-! ## Whose CA is meant -/

/-- A server that may provide the CA: one of a domain's candidates. -/
def IsCandidate (table : ServerTable) (mode : Mode) (s : ServerUri) : Prop :=
  ∃ entry ∈ table.entries, s ∈ caCandidates mode entry

/-- A candidate than which no candidate of any domain has a larger priority. -/
def MostPreferred (table : ServerTable) (mode : Mode) (s : ServerUri) : Prop :=
  IsCandidate table mode s ∧ ∀ t, IsCandidate table mode t → t.priority ≤ s.priority

/-- In every order of iteration `effective_ca_from_uris` returns the CA of a most preferred server
exactly if each candidate that is the first one of least priority in its domain, and of least
priority over all domains, has the CA of some most preferred server. -/
theorem effectiveCaFromUris_mostPreferred_iff (table : ServerTable) (mode : Mode)
    (hcandidate : ∃ s, IsCandidate table mode s) :
    (∀ order, ∃ s, MostPreferred table mode s ∧
      effectiveCaFromUris order table mode = s.certificationAuthority) ↔
    ∀ x, Chosen mode table.entries x →
      ∃ s, MostPreferred table mode s ∧ s.certificationAuthority = x.certificationAuthority := by
  constructor
  · intro h x hx
    obtain ⟨ca, hca⟩ := hx.isSome
    obtain ⟨order, horder⟩ := exists_order_effectiveCaFromUris_iff.mpr ⟨x, hx, hca⟩
    obtain ⟨s, hs, hfound⟩ := h order
    exact ⟨s, hs, by rw [← hfound, horder, hca]⟩
  · intro h order
    -- there are candidates, so something is found
    obtain ⟨s, entry, hentry, hs⟩ := hcandidate
    have hsome : effectiveCaFromUris order table mode ≠ none := by
      intro hnone
      rw [effectiveCaFromUris_eq_none_iff.mp hnone entry hentry] at hs
      cases hs
    obtain ⟨ca, hfound⟩ := Option.ne_none_iff_exists'.mp hsome
    obtain ⟨x, hx, hca⟩ := exists_order_effectiveCaFromUris_iff.mp ⟨order, hfound⟩
    obtain ⟨best, hbest, hsame⟩ := h x hx
    exact ⟨best, hbest, by rw [hfound, hsame, hca]⟩

/-- A TLS server for the root domain with the given priority and CA. -/
def tlsServer (priority : Int32) (ca : String) : ServerUri :=
  { ServerUri.initial with
    address := .inet documentationAddress 853, priority := priority, protocol := .tls,
    certificationAuthority := some ca, routingDomains := ["."] }

/-- If two servers of different priorities share a CA, it is found. -/
theorem effectiveCaFromUris_mostPreferred_shared :
    let table : ServerTable := AList.singleton "." [tlsServer 10 "/a.pem", tlsServer 5 "/a.pem"]
    IsCandidate table .backup (tlsServer 10 "/a.pem") ∧
      IsCandidate table .backup (tlsServer 5 "/a.pem") ∧
      ∀ order, ∃ s, MostPreferred table .backup s ∧
        effectiveCaFromUris order table .backup = s.certificationAuthority := by
  intro table
  have hservers : ∀ s, IsCandidate table .backup s →
      s = tlsServer 10 "/a.pem" ∨ s = tlsServer 5 "/a.pem" := by
    rintro s ⟨entry, hentry, hs⟩
    obtain rfl := List.mem_singleton.mp hentry
    simpa [caCandidates, tlsServer, skippedInMode] using hs
  have hpreferred : IsCandidate table .backup (tlsServer 10 "/a.pem") :=
    ⟨_, List.mem_singleton.mpr rfl, by decide⟩
  have hother : IsCandidate table .backup (tlsServer 5 "/a.pem") :=
    ⟨_, List.mem_singleton.mpr rfl, by decide⟩
  refine ⟨hpreferred, hother,
    (effectiveCaFromUris_mostPreferred_iff _ _ ⟨_, hpreferred⟩).mpr fun x hx => ?_⟩
  obtain ⟨entry, hentry, hmin, -⟩ := hx
  refine ⟨tlsServer 10 "/a.pem", ⟨hpreferred, fun t ht => ?_⟩, ?_⟩
  · rcases hservers t ht with rfl | rfl <;> decide
  · rcases hservers x ⟨entry, hentry, List.argmin_mem hmin⟩ with rfl | rfl <;> rfl

/-- Of two servers the CA of the one with the smaller priority is taken, although it is not the
preferred one. -/
theorem effectiveCaFromUris_least_preferred :
    let table : ServerTable := AList.singleton "." [tlsServer 10 "/a.pem", tlsServer 5 "/b.pem"]
    effectiveCaFromUris .stored table .backup = some "/b.pem" ∧
      ¬ ∃ s, MostPreferred table .backup s ∧ s.certificationAuthority = some "/b.pem" := by
  refine ⟨by decide, ?_⟩
  rintro ⟨s, ⟨⟨entry, hentry, hs⟩, hbest⟩, hca⟩
  obtain rfl := List.mem_singleton.mp hentry
  have hle := hbest (tlsServer 10 "/a.pem") ⟨_, List.mem_singleton.mpr rfl, by decide⟩
  have hservers : s = tlsServer 10 "/a.pem" ∨ s = tlsServer 5 "/b.pem" := by
    simpa [caCandidates, tlsServer, skippedInMode] using hs
  rcases hservers with rfl | rfl
  · exact absurd hca (by decide)
  · exact absurd hle (by decide)

end Dnsconfd
