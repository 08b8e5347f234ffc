import Dnsconfd.DbusServer.UpdateCall
import Dnsconfd.Library.Sieve

/-!
# One interface per address

`handle_update_call` ignores a server whose address is already present on another interface.  The
decision looks at the servers kept so far, so the loop is a sieve with `onOtherInterface` as the
conflict (`parseServers_eq`), and the lowering of priorities does not interfere with it.
-/

namespace Dnsconfd

open Library

/-- Two servers have the same IP address and different interfaces. -/
def onOtherInterface (s t : ServerUri) : Bool :=
  areIpsEqual s.address t.address && s.interface ≠ t.interface

/-- The servers that are kept of a list of decoded servers. -/
def keptServers (decoded : List ServerUri) : List ServerUri :=
  sieve onOtherInterface decoded

/-- Equality of IP addresses does not depend on the order of the two. -/
lemma areIpsEqual_comm (a b : SockAddr) : areIpsEqual a b = areIpsEqual b a := by
  cases a <;> cases b <;> simp [areIpsEqual, eq_comm]

/-- Lowering the priority changes neither the address nor the interface. -/
lemma onOtherInterface_lowerWireless (isWireless : String → Bool) (s t : ServerUri) :
    onOtherInterface s (lowerWireless isWireless t) = onOtherInterface s t := by
  unfold onOtherInterface lowerWireless
  split_ifs <;> rfl

/-- The test of the loop, on the servers kept so far as they are stored. -/
lemma isDuplicate_map_lowerWireless (isWireless : String → Bool) (kept : List ServerUri)
    (s : ServerUri) :
    isDuplicate (kept.map (lowerWireless isWireless)) s = kept.any (onOtherInterface s) := by
  have hconflict : isDuplicate (kept.map (lowerWireless isWireless)) s =
      (kept.map (lowerWireless isWireless)).any (onOtherInterface s) := rfl
  rw [hconflict, List.any_map]
  congr 1
  funext t
  exact onOtherInterface_lowerWireless isWireless s t

/-- The duplicate filter and the wireless adjustment of `handle_update_call`, on servers that have
been decoded. -/
def admitServers (isWireless : String → Bool) (parsedServers servers : List ServerUri) :
    List ServerUri :=
  servers.foldl (fun parsedServers server =>
    if isDuplicate parsedServers server then parsedServers
    else parsedServers ++ [lowerWireless isWireless server]) parsedServers

/-- The loop of `handle_update_call` decodes all dictionaries and admits what it decoded. -/
lemma parseServers_eq (p : Platform) (isWireless : String → Bool) (dicts : List VariantDict)
    (parsedServers : List ServerUri) :
    parseServers p isWireless dicts parsedServers =
      (dicts.mapM (parseServerDict p)).map (admitServers isWireless parsedServers) := by
  induction dicts generalizing parsedServers with
  | nil => rfl
  | cons dict dicts ih =>
    unfold parseServers
    rw [List.mapM_cons]
    cases parseServerDict p dict with
    | error error => rfl
    | ok server =>
      have hbody : (if isDuplicate parsedServers server then
            parseServers p isWireless dicts parsedServers
          else parseServers p isWireless dicts
            (parsedServers ++ [lowerWireless isWireless server])) =
          (dicts.mapM (parseServerDict p)).map
            (admitServers isWireless parsedServers ∘ List.cons server) := by
        split
        · rename_i hdup
          rw [ih]
          congr 1
          funext servers
          simp [admitServers, hdup]
        · rename_i hdup
          rw [ih]
          congr 1
          funext servers
          simp [admitServers, hdup]
      rw [ok_bind, hbody, ok_bind]
      cases dicts.mapM (parseServerDict p) <;> rfl

/-- Admitting servers is going through the sieve and then lowering priorities. -/
lemma admitServers_eq (isWireless : String → Bool) (decoded : List ServerUri) :
    admitServers isWireless [] decoded =
      (keptServers decoded).map (lowerWireless isWireless) := by
  have hloop : ∀ kept, admitServers isWireless (kept.map (lowerWireless isWireless)) decoded =
      (decoded.foldl (sieveStep onOtherInterface) kept).map (lowerWireless isWireless) := by
    induction decoded with
    | nil => intro kept; rfl
    | cons s decoded ih =>
      intro kept
      have hstep : (if isDuplicate (kept.map (lowerWireless isWireless)) s then
            kept.map (lowerWireless isWireless)
          else kept.map (lowerWireless isWireless) ++ [lowerWireless isWireless s]) =
          (sieveStep onOtherInterface kept s).map (lowerWireless isWireless) := by
        rw [isDuplicate_map_lowerWireless, sieveStep]
        split_ifs
        · rfl
        · rw [List.map_append]
          rfl
      have hnext := ih (sieveStep onOtherInterface kept s)
      unfold admitServers at hnext ⊢
      rw [List.foldl_cons, List.foldl_cons, hstep, hnext]
  exact hloop []

/-- Servers that are kept and have one IP address have one interface. -/
lemma interface_eq_of_mem_keptServers {decoded : List ServerUri} {s t : ServerUri}
    (hs : s ∈ keptServers decoded) (ht : t ∈ keptServers decoded)
    (hip : areIpsEqual s.address t.address = true) : s.interface = t.interface := by
  have hsymmetric : ∀ a b : ServerUri, onOtherInterface a b = onOtherInterface b a := by
    intro a b
    simp only [onOtherInterface, areIpsEqual_comm a.address, ne_comm]
  have hsymm : Std.Symm fun a b : ServerUri => onOtherInterface b a = false :=
    ⟨fun a b h => by rw [hsymmetric, h]⟩
  have hnone : onOtherInterface t s = false :=
    (pairwise_sieve decoded).forall_of_forall (fun a _ => by simp [onOtherInterface]) hs ht
  rw [hsymmetric] at hnone
  simpa [onOtherInterface, hip] using hnone

/-- What happens to the next server. -/
lemma keptServers_concat (before : List ServerUri) (s : ServerUri) :
    keptServers (before ++ [s]) =
      if (keptServers before).any (onOtherInterface s) then keptServers before
      else keptServers before ++ [s] :=
  sieve_concat before s

/-- One interface per address.  Of the servers decoded from the dictionaries of an Update call, in
their order, those are stored that the filter keeps, with the priorities of wireless interfaces
lowered.  What is kept is a subsequence with one interface for each IP address that starts with the
first server; the next server is dropped exactly if a server kept before it has its IP address and
another interface; and filtering again changes nothing. -/
theorem one_interface_per_address (p : Platform) (isWireless : String → Bool)
    {dicts : List VariantDict} {decoded : List ServerUri}
    (hdecoded : dicts.mapM (parseServerDict p) = .ok decoded) :
    parseServers p isWireless dicts [] =
      .ok ((keptServers decoded).map (lowerWireless isWireless)) ∧
    (keptServers decoded).Sublist decoded ∧
    (∀ s ∈ keptServers decoded, ∀ t ∈ keptServers decoded,
      areIpsEqual s.address t.address = true → s.interface = t.interface) ∧
    (keptServers decoded).head? = decoded.head? ∧
    (∀ before s after, decoded = before ++ s :: after →
      keptServers before <+: keptServers decoded ∧
      ((∃ t ∈ keptServers before,
          areIpsEqual s.address t.address = true ∧ s.interface ≠ t.interface) →
        keptServers (before ++ [s]) = keptServers before) ∧
      ((∀ t ∈ keptServers before,
          areIpsEqual s.address t.address = true → s.interface = t.interface) →
        keptServers (before ++ [s]) = keptServers before ++ [s])) ∧
    keptServers (keptServers decoded) = keptServers decoded := by
  refine ⟨?_, sieve_sublist decoded, ?_, ?_, ?_, sieve_sieve decoded⟩
  · rw [parseServers_eq, hdecoded, ← admitServers_eq]
    rfl
  · intro s hs t ht hip
    exact interface_eq_of_mem_keptServers hs ht hip
  · cases decoded with
    | nil => rfl
    | cons s rest =>
      have hfirst : keptServers [s] <+: keptServers ([s] ++ rest) := sieve_prefix_append [s] rest
      obtain ⟨tail, htail⟩ := hfirst
      rw [List.singleton_append] at htail
      rw [← htail]
      rfl
  · rintro before s after rfl
    refine ⟨sieve_prefix_append before (s :: after), fun hdropped => ?_, fun hfree => ?_⟩
    · obtain ⟨t, ht, hip, hne⟩ := hdropped
      have hany : (keptServers before).any (onOtherInterface s) = true :=
        List.any_eq_true.mpr ⟨t, ht, by simp [onOtherInterface, hip, hne]⟩
      rw [keptServers_concat, if_pos hany]
    · have hnone : ¬ (keptServers before).any (onOtherInterface s) = true := by
        intro hany
        obtain ⟨t, ht, hconflict⟩ := List.any_eq_true.mp hany
        simp only [onOtherInterface, Bool.and_eq_true, decide_eq_true_eq] at hconflict
        exact hconflict.2 (hfree t ht hconflict.1)
      rw [keptServers_concat, if_neg hnone]

/-- A dictionary of a server at the documentation address on the given interface. -/
def dictOn (interface : String) : VariantDict :=
  [("address", .byteString [192, 0, 2, 1]), ("interface", .string interface)]

/-- The server that it describes. -/
def serverOn (interface : String) : ServerUri :=
  { ServerUri.initial with
    address := .inet documentationAddress 53, interface := interface, routingDomains := ["."] }

/-- Of three servers at one address the second is on another interface than the first. -/
theorem one_interface_per_address_three :
    parseServers .plain (fun _ => false) [dictOn "eth0", dictOn "eth1", dictOn "eth0"] [] =
      .ok [serverOn "eth0", serverOn "eth0"] := by
  have hdecoded : [dictOn "eth0", dictOn "eth1", dictOn "eth0"].mapM (parseServerDict .plain) =
      .ok [serverOn "eth0", serverOn "eth1", serverOn "eth0"] := rfl
  exact (one_interface_per_address .plain (fun _ => false) hdecoded).1

end Dnsconfd
