import Dnsconfd.WellFormed
import Dnsconfd.Library.Digits

/-!
# Reverse zones

The networks of a server are entered into its table under their reverse zones.  A zone holds the
octets (IPv4) or nibbles (IPv6) that a prefix fixes as a whole, so that it is the zone of a network
that can be larger than the one given, and never smaller: the PTR name of an address lies in the zone
exactly if the address agrees with the network on these bits (`reverse_zones_exact`).

The names are compared as lists of labels.  A label has no dot inside, so that a text is split at its
dots into the labels it was made of, and a zone contains a name exactly if its labels are the last
labels of the name (`inZone_intercalate_iff`).
-/

namespace Dnsconfd

open Library

/-! ## Names -/

/-- A name lies in a zone: it is some labels followed, on a label boundary, by the zone. -/
def InZone (name zone : String) : Prop :=
  ∃ front : String, name = front ++ zone ∧ (front = "" ∨ ∃ labels, front = labels ++ ".")

/-- A label of a name. -/
def IsLabel (label : String) : Prop :=
  '.' ∉ label.toList

instance : DecidablePred IsLabel := fun label => inferInstanceAs (Decidable ('.' ∉ label.toList))

private lemma toList_injective : Function.Injective String.toList :=
  fun _ _ => String.toList_injective

lemma splitOn_intercalate_labels {labels : List String} (h : ∀ l ∈ labels, IsLabel l)
    (hne : labels ≠ []) :
    (".".intercalate labels).toList.splitOn '.' = labels.map String.toList := by
  rw [String.toList_intercalate]
  apply List.splitOn_intercalate
  · intro l hl
    obtain ⟨label, hlabel, rfl⟩ := List.mem_map.mp hl
    exact h label hlabel
  · simpa using hne

/-- The labels of a name are unique. -/
lemma intercalate_labels_inj {ls ms : List String} (hls : ∀ l ∈ ls, IsLabel l)
    (hms : ∀ m ∈ ms, IsLabel m) (hls' : ls ≠ []) (hms' : ms ≠ []) :
    ".".intercalate ls = ".".intercalate ms ↔ ls = ms := by
  refine ⟨fun h => ?_, fun h => by rw [h]⟩
  have hsplit := splitOn_intercalate_labels hls hls'
  rw [h, splitOn_intercalate_labels hms hms'] at hsplit
  exact (List.map_injective_iff.mpr toList_injective hsplit).symm

/-- A zone contains a name exactly if its labels are the last ones of the name. -/
theorem inZone_intercalate_iff {ls zs : List String} (hls : ∀ l ∈ ls, IsLabel l)
    (hzs : ∀ z ∈ zs, IsLabel z) (hls' : ls ≠ []) (hzs' : zs ≠ []) :
    InZone (".".intercalate ls) (".".intercalate zs) ↔ zs <:+ ls := by
  constructor
  · rintro ⟨front, hname, rfl | ⟨labels, rfl⟩⟩
    · rw [String.empty_append, intercalate_labels_inj hls hzs hls' hzs'] at hname
      rw [hname]
    · -- both sides are split at their dots
      have htext : (".".intercalate ls).toList =
          labels.toList ++ '.' :: (".".intercalate zs).toList := by
        rw [hname, String.toList_append, String.toList_append, List.append_assoc]
        rfl
      have hsplit := splitOn_intercalate_labels hls hls'
      have hcut : ((labels.toList ++ '.' :: (".".intercalate zs).toList).splitOn '.') =
          labels.toList.splitOn '.' ++ zs.map String.toList := by
        rw [← splitOn_intercalate_labels hzs hzs']
        exact List.splitOnP_append_cons _ _ (beq_self_eq_true '.')
      rw [htext, hcut] at hsplit
      have hsuffix : zs.map String.toList <:+ ls.map String.toList := ⟨_, hsplit⟩
      exact (List.suffix_map_iff_of_injective toList_injective).mp hsuffix
  · rintro ⟨front, rfl⟩
    rcases List.eq_nil_or_concat front with rfl | ⟨labels, label, rfl⟩
    · exact ⟨"", by rw [List.nil_append, String.empty_append], Or.inl rfl⟩
    · refine ⟨".".intercalate (labels ++ [label]) ++ ".", ?_, Or.inr ⟨_, rfl⟩⟩
      rw [List.concat_eq_append]
      exact String.intercalate_append_of_ne_nil (List.append_ne_nil_of_right_ne_nil _ (by simp)) hzs'

/-! ## The reverse trees -/

/-- A tree of reverse names.  A label stands for a digit of an address; its print is a label, and
different digits have different ones. -/
structure ReverseTree where
  width : ℕ
  print : ℕ → String
  root : List String
  width_pos : 0 < width
  isLabel_print : ∀ d < 2 ^ width, IsLabel (print d)
  print_inj : ∀ d < 2 ^ width, ∀ e < 2 ^ width, print d = print e → d = e
  isLabel_root : ∀ l ∈ root, IsLabel l
  root_ne_nil : root ≠ []

namespace ReverseTree

/-- The tree of IPv4 addresses: a label is an octet in decimal. -/
def inAddr : ReverseTree where
  width := 8
  print d := toString d
  root := ["in-addr", "arpa"]
  width_pos := by decide
  isLabel_print d _ hdot := by
    rw [Nat.toString_eq_repr, Nat.toList_repr] at hdot
    have hdigit := Nat.isDigit_of_mem_toDigits (by decide) (by decide) hdot
    exact absurd hdigit (by decide)
  print_inj d _ e _ h := by
    -- the number is read back from its decimal digits
    have hdigits : Nat.toDigits 10 d = Nat.toDigits 10 e := by
      rw [← Nat.toList_repr, ← Nat.toList_repr, ← Nat.toString_eq_repr, ← Nat.toString_eq_repr, h]
    have hd : Nat.ofDigitChars 10 (Nat.toDigits 10 d) 0 = d :=
      Nat.ofDigitChars_toDigits (by decide) le_rfl
    rw [← hd, hdigits, Nat.ofDigitChars_toDigits (by decide) le_rfl]
  isLabel_root := by decide
  root_ne_nil := by decide

/-- The tree of IPv6 addresses: a label is a nibble in hexadecimal. -/
def ip6 : ReverseTree where
  width := 4
  print d := String.singleton (Nat.digitChar d)
  root := ["ip6", "arpa"]
  width_pos := by decide
  isLabel_print := by decide
  print_inj := by decide
  isLabel_root := by decide
  root_ne_nil := by decide

variable (t : ReverseTree)

/-- The labels of a row of digits, the last digit first. -/
def labels (digits : List ℕ) : List String :=
  (digits.map t.print).reverse ++ t.root

/-- The name of a row of digits. -/
def name (digits : List ℕ) : String :=
  ".".intercalate (t.labels digits)

variable {t}

lemma isLabel_of_mem_labels {digits : List ℕ} (h : AreDigits t.width digits) :
    ∀ l ∈ t.labels digits, IsLabel l := by
  intro l hl
  rcases List.mem_append.mp hl with hl | hl
  · obtain ⟨d, hd, rfl⟩ := List.mem_map.mp (List.mem_reverse.mp hl)
    exact t.isLabel_print d (h d hd)
  · exact t.isLabel_root l hl

lemma labels_ne_nil (digits : List ℕ) : t.labels digits ≠ [] :=
  List.append_ne_nil_of_right_ne_nil _ t.root_ne_nil

/-- Digits are read off their labels. -/
lemma map_print_inj {ds es : List ℕ} (hds : AreDigits t.width ds) (hes : AreDigits t.width es) :
    ds.map t.print = es.map t.print ↔ ds = es := by
  refine ⟨fun h => ?_, fun h => by rw [h]⟩
  induction ds generalizing es with
  | nil => exact (List.map_eq_nil_iff.mp h.symm).symm
  | cons d ds ih =>
    obtain ⟨e, es, rfl⟩ : ∃ e es', es = e :: es' := by
      cases es with
      | nil => cases h
      | cons e es => exact ⟨e, es, rfl⟩
    rw [List.map_cons, List.map_cons, List.cons.injEq] at h
    rw [t.print_inj d (hds d List.mem_cons_self) e (hes e List.mem_cons_self) h.1,
      ih (fun x hx => hds x (List.mem_cons_of_mem d hx))
        (fun x hx => hes x (List.mem_cons_of_mem e hx)) h.2]

/-- Rows with the same name are the same. -/
theorem name_inj {ds es : List ℕ} (hds : AreDigits t.width ds) (hes : AreDigits t.width es) :
    t.name ds = t.name es ↔ ds = es := by
  rw [name, name, intercalate_labels_inj (isLabel_of_mem_labels hds) (isLabel_of_mem_labels hes)
    (labels_ne_nil ds) (labels_ne_nil es), labels, labels, List.append_left_inj,
    List.reverse_inj, map_print_inj hds hes]

/-- A name lies in the zone of a row exactly if its digits begin with the row. -/
theorem inZone_name_iff {ds es : List ℕ} (hds : AreDigits t.width ds)
    (hes : AreDigits t.width es) : InZone (t.name ds) (t.name es) ↔ es <+: ds := by
  rw [name, name, inZone_intercalate_iff (isLabel_of_mem_labels hds) (isLabel_of_mem_labels hes)
    (labels_ne_nil ds) (labels_ne_nil es), labels, labels,
    List.suffix_append_inj_of_length_eq rfl, and_iff_left rfl, List.reverse_suffix]
  constructor
  · intro hprefix
    have hlength := hprefix.length_le
    rw [List.length_map, List.length_map] at hlength
    rw [List.prefix_iff_eq_take, ← List.map_take, List.length_map,
      map_print_inj hes fun d hd => hds d (List.mem_of_mem_take hd)] at hprefix
    exact List.prefix_iff_eq_take.mpr hprefix
  · exact fun hprefix => hprefix.map t.print

/-- The zone of the first digits of a row contains the names of the rows that begin with the same
bits. -/
theorem inZone_take_iff {ds es : List ℕ} {k : ℕ} (hds : AreDigits t.width ds)
    (hes : AreDigits t.width es) (hk : k ≤ ds.length) (hk' : k ≤ es.length) :
    InZone (t.name ds) (t.name (es.take k)) ↔
      ∀ i < t.width * k, digitBit t.width ds i = digitBit t.width es i := by
  have htake : AreDigits t.width (es.take k) := fun d hd => hes d (List.mem_of_mem_take hd)
  rw [inZone_name_iff hds htake, ← take_eq_take_iff t.width_pos hds hes hk hk',
    List.prefix_iff_eq_take, List.length_take_of_le hk', eq_comm]

/-- Zones are the same exactly if they have as many labels and their rows begin with the same
bits. -/
theorem name_take_inj {ds es : List ℕ} {k l : ℕ} (hds : AreDigits t.width ds)
    (hes : AreDigits t.width es) (hk : k ≤ ds.length) (hl : l ≤ es.length) :
    t.name (ds.take k) = t.name (es.take l) ↔
      k = l ∧ ∀ i < t.width * l, digitBit t.width ds i = digitBit t.width es i := by
  rw [name_inj (fun d hd => hds d (List.mem_of_mem_take hd))
    (fun d hd => hes d (List.mem_of_mem_take hd))]
  constructor
  · intro h
    have hlength := congrArg List.length h
    rw [List.length_take_of_le hk, List.length_take_of_le hl] at hlength
    subst hlength
    exact ⟨rfl, (take_eq_take_iff t.width_pos hds hes hk hl).mp h⟩
  · rintro ⟨rfl, hbits⟩
    exact (take_eq_take_iff t.width_pos hds hes hk hl).mpr hbits

end ReverseTree

/-! ## Addresses -/

namespace SockAddr

/-- The octets of an address. -/
def octets : SockAddr → List ℕ
  | unspec => []
  | inet a _ => a.toList.map UInt8.toNat
  | inet6 a _ => a.toList.map UInt8.toNat

/-- Bit `i` of an address, the most significant one first. -/
def bit (address : SockAddr) (i : ℕ) : Bool :=
  (address.octets.getD (i / 8) 0).testBit (7 - i % 8)

/-- Two addresses agree on their first `n` bits. -/
def AgreeOn (n : ℕ) (a b : SockAddr) : Prop :=
  ∀ i < n, a.bit i = b.bit i

/-- Two addresses are of one family. -/
def SameFamily : SockAddr → SockAddr → Prop
  | inet _ _, inet _ _ => True
  | inet6 _ _, inet6 _ _ => True
  | _, _ => False

/-- The tree an address has its reverse name in; only one of a known family has a name. -/
def reverseTree : SockAddr → ReverseTree
  | inet6 _ _ => .ip6
  | _ => .inAddr

/-- The digits of the reverse name: octets or nibbles. -/
def digits : SockAddr → List ℕ
  | inet6 a port => halves 4 (inet6 a port).octets
  | address => address.octets

/-- The name of the PTR record of an address: all octets (nibbles), the last one first. -/
def ptrName (address : SockAddr) : String :=
  address.reverseTree.name address.digits

/-- The bits a label of the reverse name stands for. -/
def labelBits (address : SockAddr) : ℕ :=
  address.reverseTree.width

lemma areDigits_octets (address : SockAddr) : AreDigits 8 address.octets := by
  have hbytes : ∀ bytes : List UInt8, AreDigits 8 (bytes.map UInt8.toNat) := by
    intro bytes d hd
    obtain ⟨b, -, rfl⟩ := List.mem_map.mp hd
    exact b.toNat_lt
  cases address with
  | unspec => exact hbytes []
  | inet a _ => exact hbytes a.toList
  | inet6 a _ => exact hbytes a.toList

lemma areDigits_digits (address : SockAddr) :
    AreDigits address.reverseTree.width address.digits := by
  cases address with
  | inet6 a port => exact areDigits_halves (areDigits_octets (inet6 a port))
  | unspec => exact areDigits_octets unspec
  | inet a port => exact areDigits_octets (inet a port)

/-- Octets and nibbles are two ways to cut the same bits. -/
lemma digitBit_digits (address : SockAddr) (i : ℕ) :
    digitBit address.reverseTree.width address.digits i = address.bit i := by
  cases address with
  | inet6 a port => exact digitBit_halves ReverseTree.ip6.width_pos (inet6 a port).octets i
  | unspec => rfl
  | inet a port => rfl

/-- The addresses of a family are in one tree, and their names have equally many labels. -/
lemma SameFamily.reverseTree_eq {a b : SockAddr} (h : a.SameFamily b) :
    a.reverseTree = b.reverseTree ∧ a.digits.length = b.digits.length := by
  cases a <;> cases b <;> try cases h
  · simp [reverseTree, digits, octets]
  · simp [reverseTree, digits, octets, length_halves]

end SockAddr

open SockAddr

/-! ## The zones of the code -/

/-- What the loops of `reverse_dns_ipv4` and `reverse_dns_ipv6` write. -/
lemma foldl_labels (t : ReverseTree) (digits : List ℕ) :
    ((digits.map fun d => t.print d ++ ".").reverse.foldl (· ++ ·) "") ++ ".".intercalate t.root =
      t.name digits := by
  have hloop : ∀ (ls : List String) (written : String),
      (ls.map (· ++ ".")).foldl (· ++ ·) written ++ ".".intercalate t.root =
        written ++ ".".intercalate (ls ++ t.root) := by
    intro ls
    induction ls with
    | nil => exact fun written => rfl
    | cons l ls ih =>
      intro written
      have hne : ls ++ t.root ≠ [] := List.append_ne_nil_of_right_ne_nil ls t.root_ne_nil
      rw [List.map_cons, List.foldl_cons, ih, List.cons_append,
        String.intercalate_cons_of_ne_nil hne]
      simp only [String.append_assoc]
  have hlabels : (digits.map fun d => t.print d ++ ".").reverse =
      (digits.map t.print).reverse.map (· ++ ".") := by
    rw [List.map_reverse, List.map_map]
    rfl
  rw [hlabels, hloop, String.empty_append]
  rfl

lemma reverseDnsIpv4_eq (a : Vector UInt8 4) (port : UInt16) (prefixLength : UInt8) :
    reverseDnsIpv4 a prefixLength =
      ReverseTree.inAddr.name ((inet a port).octets.take (min (prefixLength.toNat / 8) 4)) := by
  rw [← foldl_labels, octets, ← List.map_take, List.map_map]
  rfl

/-- The shifts and masks of `reverse_dns_ipv6` cut an octet in halves. -/
lemma toNat_nibbles (b : UInt8) :
    [(b >>> 4) &&& 0x0F, b &&& 0x0F].map UInt8.toNat = [b.toNat / 2 ^ 4, b.toNat % 2 ^ 4] := by
  have hmask : ∀ n : ℕ, n &&& (0x0F : UInt8).toNat = n % 2 ^ 4 := fun n =>
    Nat.and_two_pow_sub_one_eq_mod n 4
  have hshift : (b >>> 4).toNat = b.toNat / 2 ^ 4 := by
    rw [UInt8.toNat_shiftRight]
    exact Nat.shiftRight_eq_div_pow _ _
  have hupper : b.toNat / 2 ^ 4 < 2 ^ 4 := Nat.div_lt_of_lt_mul b.toNat_lt
  simp only [List.map_cons, List.map_nil, UInt8.toNat_and, hmask, hshift, Nat.mod_eq_of_lt hupper]

lemma map_nibblesOf (a : Vector UInt8 16) (port : UInt16) :
    (nibblesOf a).map UInt8.toNat = halves 4 (inet6 a port).octets := by
  simp only [nibblesOf, halves, octets, List.map_flatMap, List.flatMap_map, toNat_nibbles]

lemma reverseDnsIpv6_eq (a : Vector UInt8 16) (port : UInt16) (prefixLength : UInt8) :
    reverseDnsIpv6 a prefixLength = ReverseTree.ip6.name
      ((halves 4 (inet6 a port).octets).take (min (prefixLength.toNat / 4) 32)) := by
  rw [← foldl_labels, ← map_nibblesOf, ← List.map_take, List.map_map]
  rfl

/-- The zone of a network is the name of its whole digits. -/
lemma networkAddressToReverseDns_eq {network : NetworkAddress} (h : network.IsCidr) :
    networkAddressToReverseDns network = some (network.address.reverseTree.name
      (network.address.digits.take (network.prefixLength.toNat / network.address.labelBits))) ∧
    network.prefixLength.toNat / network.address.labelBits ≤ network.address.digits.length := by
  obtain ⟨address, prefixLength⟩ := network
  rcases h with ⟨a, haddress, hprefix⟩ | ⟨a, haddress, hprefix⟩
  · obtain rfl : address = inet a 0 := haddress
    have hcount : prefixLength.toNat / 8 ≤ 4 := Nat.div_le_of_le_mul hprefix
    constructor
    · have hname := reverseDnsIpv4_eq a 0 prefixLength
      rw [min_eq_left hcount] at hname
      exact congrArg some hname
    · have hlength : (inet a 0).digits.length = 4 := by simp [digits, octets]
      exact hlength ▸ hcount
  · obtain rfl : address = inet6 a 0 := haddress
    have hcount : prefixLength.toNat / 4 ≤ 32 := Nat.div_le_of_le_mul hprefix
    constructor
    · have hname := reverseDnsIpv6_eq a 0 prefixLength
      rw [min_eq_left hcount] at hname
      exact congrArg some hname
    · have hlength : (inet6 a 0).digits.length = 32 := by simp [digits, octets, length_halves]
      exact hlength ▸ hcount

section Accepted

variable {network : NetworkAddress}

/-- The bits of the whole labels of a prefix. -/
def NetworkAddress.zoneBits (network : NetworkAddress) : ℕ :=
  network.address.labelBits * (network.prefixLength.toNat / network.address.labelBits)

/-- The zone of a network contains an address of its family exactly if the address agrees with the
network on the bits of the whole labels. -/
lemma inZone_networkZone_iff (h : network.IsCidr) {a : SockAddr}
    (ha : a.SameFamily network.address) {zone : String}
    (hzone : networkAddressToReverseDns network = some zone) :
    InZone a.ptrName zone ↔ AgreeOn network.zoneBits a network.address := by
  obtain ⟨hname, hcount⟩ := networkAddressToReverseDns_eq h
  obtain rfl := Option.some.inj (hname.symm.trans hzone)
  obtain ⟨htree, hlength⟩ := ha.reverseTree_eq
  have hdigits := areDigits_digits a
  have hbits := digitBit_digits a
  rw [htree] at hdigits hbits
  rw [ptrName, htree, ReverseTree.inZone_take_iff hdigits (areDigits_digits network.address)
    (hlength ▸ hcount) hcount]
  simp only [hbits, digitBit_digits]
  exact Iff.rfl

/-- Networks of one family have the same zone exactly if it has as many labels and they agree on its
bits. -/
lemma networkZone_eq_iff {network' : NetworkAddress} (h : network.IsCidr) (h' : network'.IsCidr)
    (hfamily : network'.address.SameFamily network.address) :
    networkAddressToReverseDns network' = networkAddressToReverseDns network ↔
      network'.prefixLength.toNat / network'.address.labelBits =
          network.prefixLength.toNat / network.address.labelBits ∧
        AgreeOn network.zoneBits network'.address network.address := by
  obtain ⟨hname, hcount⟩ := networkAddressToReverseDns_eq h
  obtain ⟨hname', hcount'⟩ := networkAddressToReverseDns_eq h'
  obtain ⟨htree, -⟩ := hfamily.reverseTree_eq
  have hdigits := areDigits_digits network'.address
  have hbits := digitBit_digits network'.address
  rw [htree] at hdigits hbits
  rw [hname, hname', Option.some.injEq, htree, ReverseTree.name_take_inj hdigits
    (areDigits_digits network.address) hcount' hcount]
  simp only [hbits, digitBit_digits]
  exact Iff.rfl

end Accepted

/-- The zone of an accepted network contains an address of its family exactly if the address agrees
with the network on the bits of the whole labels of the prefix.  Thus it contains every address of
the network, and networks share it exactly if they have as many whole labels and agree on their
bits. -/
theorem reverse_zones_exact {net : Inet} {text : String} {network : NetworkAddress}
    (h : networkAddressFromString net text = some network) :
    ∃ zone, networkAddressToReverseDns network = some zone ∧
      (∀ a : SockAddr, a.SameFamily network.address →
        (InZone a.ptrName zone ↔ AgreeOn network.zoneBits a network.address)) ∧
      (∀ a : SockAddr, a.SameFamily network.address →
        AgreeOn network.prefixLength.toNat a network.address → InZone a.ptrName zone) ∧
      ∀ (text' : String) (network' : NetworkAddress),
        networkAddressFromString net text' = some network' →
        network'.address.SameFamily network.address →
        (networkAddressToReverseDns network' = some zone ↔
          network'.prefixLength.toNat / network'.address.labelBits =
              network.prefixLength.toNat / network.address.labelBits ∧
            AgreeOn network.zoneBits network'.address network.address) := by
  have hcidr := isCidr_of_networkAddressFromString h
  obtain ⟨hzone, -⟩ := networkAddressToReverseDns_eq hcidr
  refine ⟨_, hzone, fun a ha => inZone_networkZone_iff hcidr ha hzone, ?_, ?_⟩
  · intro a ha hagree
    apply (inZone_networkZone_iff hcidr ha hzone).mpr
    -- the whole labels take no more bits than the prefix
    intro i hi
    exact hagree i (hi.trans_le (Nat.mul_div_le _ _))
  · intro text' network' h' hfamily
    rw [← hzone]
    exact networkZone_eq_iff hcidr (isCidr_of_networkAddressFromString h') hfamily

/-- A prefix of 23 bits fixes two octets, and the zone is larger than the network. -/
theorem reverse_zones_exact_23 :
    networkAddressFromString .documentation "192.0.2.1/23" =
        some ⟨.inet documentationAddress 0, 23⟩ ∧
      networkAddressToReverseDns ⟨.inet documentationAddress 0, 23⟩ = some "0.192.in-addr.arpa" ∧
      (SockAddr.inet documentationAddress 53).ptrName = "1.2.0.192.in-addr.arpa" ∧
      InZone "1.2.0.192.in-addr.arpa" "0.192.in-addr.arpa" := by
  have haccepted : networkAddressFromString .documentation "192.0.2.1/23" =
      some ⟨.inet documentationAddress 0, 23⟩ := by decide
  have hname : (SockAddr.inet documentationAddress 53).ptrName = "1.2.0.192.in-addr.arpa" := by
    decide
  obtain ⟨zone, hzone, -, hcovers, -⟩ := reverse_zones_exact haccepted
  have hprinted : networkAddressToReverseDns ⟨.inet documentationAddress 0, 23⟩ =
      some "0.192.in-addr.arpa" := by decide
  obtain rfl := Option.some.inj (hprinted.symm.trans hzone)
  refine ⟨haccepted, hprinted, hname, ?_⟩
  rw [← hname]
  exact hcovers (.inet documentationAddress 53) trivial fun i _ => rfl

end Dnsconfd
