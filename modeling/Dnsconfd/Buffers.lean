import Dnsconfd.Client.ServerUri
import Dnsconfd.DbusServer.UpdateCall
import Dnsconfd.Library.CBuffers
import Mathlib

/-!
# Buffers of fixed size

A few texts pass through arrays of fixed size: the address in a URI and in a network (`ip_str`), the
name of an interface, the name of a reverse zone and the digits that it is put together from.  Other
files model these texts as they are; this one models the arrays and what is written to them, byte by
byte.  Where nothing is written beyond the end, an array holds the text that the other models work
with (`holds_copyHost`, `holds_networkIpStr`, `holds_copyInterface`, `holds_reverseDnsBuffers`).

All arrays but one are large enough for whatever passes the tests before them.  The array for the
name of a zone has room for the longest name and not one byte more.  The host of a URI is let through
if it is as long as the array, and then the zero behind it is written to the first byte that does not
belong to the array (`buffers_in_bounds_iff`).
-/

namespace Dnsconfd

open Library

/-! ## Bytes -/

/-- The bytes of a text. -/
def cBytes (text : String) : List UInt8 :=
  text.toList.flatMap String.utf8EncodeChar

lemma cBytes_append (s t : String) : cBytes (s ++ t) = cBytes s ++ cBytes t := by
  simp [cBytes]

lemma length_cBytes (text : String) : (cBytes text).length = text.utf8ByteSize := by
  have hbytes : text.toByteArray = (cBytes text).toByteArray := by
    conv_lhs => rw [← @String.ofList_toList text]
    rw [String.toByteArray_ofList]
    rfl
  rw [String.utf8ByteSize, hbytes, List.size_toByteArray]

/-- A digit is one byte, which is not zero. -/
lemma utf8EncodeChar_of_isDigit {c : Char} (h : c.isDigit = true) :
    0 ∉ String.utf8EncodeChar c ∧ (String.utf8EncodeChar c).length = 1 := by
  have hrange : 48 ≤ c.toNat ∧ c.toNat ≤ 57 := by
    simpa [Char.isDigit, UInt32.le_iff_toNat_le] using h
  have hc : c = Char.ofNat c.toNat := (Char.ofNat_toNat c).symm
  generalize c.toNat = n at hrange hc
  subst hc
  obtain ⟨hlow, hhigh⟩ := hrange
  interval_cases n <;> decide

/-! ## The host of a URI -/

/-- What `server_uri_t_init_from_string` writes to `ip_str`. -/
def copyHost (hostText : String) (ipStr : CBuffer UInt8) : CBuffer UInt8 :=
  let tempLength := (cBytes hostText).length
  if inet6AddrStrLen < tempLength then ipStr
  else (ipStr.copyAt 0 (cBytes hostText)).store tempLength 0

/-- `ip_str` after `server_uri_t_init_from_string`, which returns before the host if the text is not a
URI or the scheme is not a protocol. -/
def initFromStringIpStr (lib : TextLibraries) (uriString : String) (ipStr : CBuffer UInt8) :
    CBuffer UInt8 :=
  match lib.uriParseSingleUri uriString with
  | none => ipStr
  | some parsedUri =>
    if initScheme parsedUri = none then ipStr else copyHost parsedUri.hostText ipStr

section Host

variable {ipStr : CBuffer UInt8} {hostText : String}

/-- The bytes of the host and the zero behind them are one copy. -/
lemma copyHost_eq (h : hostText.utf8ByteSize ≤ inet6AddrStrLen) :
    copyHost hostText ipStr = ipStr.copyAt 0 (cBytes hostText ++ [0]) := by
  rw [copyHost, length_cBytes, if_neg (Nat.not_lt.mpr h), CBuffer.copyAt_append, Nat.zero_add,
    length_cBytes]
  rfl

/-- A host that is shorter than the array is what the parser of addresses is given. -/
lemma holds_copyHost (hip : ipStr.Intact inet6AddrStrLen)
    (hlength : hostText.utf8ByteSize < inet6AddrStrLen) (hzero : 0 ∉ cBytes hostText) :
    (copyHost hostText ipStr).Holds inet6AddrStrLen (cBytes hostText) := by
  rw [copyHost_eq hlength.le]
  exact hip.holds_copy hzero (by rwa [length_cBytes])

/-- The array is overrun exactly by a host that is as long as the array. -/
lemma writesBelow_copyHost_iff (hip : ipStr.Intact inet6AddrStrLen) :
    (copyHost hostText ipStr).WritesBelow inet6AddrStrLen ↔
      hostText.utf8ByteSize ≠ inet6AddrStrLen := by
  by_cases hlong : inet6AddrStrLen < hostText.utf8ByteSize
  · rw [copyHost, length_cBytes, if_pos hlong]
    exact iff_of_true hip.writes hlong.ne'
  · rw [copyHost, length_cBytes, if_neg hlong, CBuffer.writesBelow_store_iff]
    constructor
    · rintro ⟨-, hlength⟩
      exact hlength.ne
    · intro hne
      have hlength : hostText.utf8ByteSize < inet6AddrStrLen := by omega
      refine ⟨CBuffer.writesBelow_copyAt hip.writes ?_, hlength⟩
      rw [length_cBytes]
      omega

end Host

/-! ## The address of a network -/

/-- `ip_str` after `network_address_t_from_string`. -/
def networkIpStr (addressString : String) (ipStr : CBuffer UInt8) : CBuffer UInt8 :=
  if '/' ∈ addressString.toList then
    let len := (cBytes (String.ofList (addressString.toList.takeWhile (· ≠ '/')))).length
    if inet6AddrStrLen ≤ len then ipStr
    else (ipStr.strncpy (cBytes addressString) len).store len 0
  else ipStr

section Network

variable {ipStr : CBuffer UInt8} {addressString : String}

/-- The array for the address of a network is never overrun. -/
lemma writesBelow_networkIpStr (hip : ipStr.Intact inet6AddrStrLen) :
    (networkIpStr addressString ipStr).WritesBelow inet6AddrStrLen := by
  unfold networkIpStr
  split_ifs with hslash
  · dsimp only
    split_ifs with hlong
    · exact hip.writes
    · rw [CBuffer.writesBelow_store_iff]
      refine ⟨CBuffer.writesBelow_copyAt hip.writes ?_, by omega⟩
      rw [List.length_take]
      omega
  · exact hip.writes

/-- If a network is accepted, the array holds the text before the slash. -/
lemma holds_networkIpStr {net : Inet} {network : NetworkAddress}
    (hip : ipStr.Intact inet6AddrStrLen) (hzero : 0 ∉ cBytes addressString)
    (h : networkAddressFromString net addressString = some network) :
    (networkIpStr addressString ipStr).Holds inet6AddrStrLen
      (cBytes (String.ofList (addressString.toList.takeWhile (· ≠ '/')))) := by
  set address := String.ofList (addressString.toList.takeWhile (· ≠ '/')) with haddress
  have hslash : '/' ∈ addressString.toList := by
    by_contra hnot
    rw [networkAddressFromString_of_not_mem hnot] at h
    cases h
  have hlength : address.utf8ByteSize < inet6AddrStrLen := by
    unfold networkAddressFromString at h
    split at h
    · cases h
    · dsimp only at h
      split_ifs at h with hlong
      all_goals exact Nat.lt_of_not_le hlong
  -- the bytes before the slash are the first of the text, so that `strncpy` pads nothing
  have hsplit : cBytes addressString = cBytes address ++
      (addressString.toList.dropWhile (· ≠ '/')).flatMap String.utf8EncodeChar := by
    rw [haddress, cBytes, cBytes, String.toList_ofList, ← List.flatMap_append,
      List.takeWhile_append_dropWhile]
  have hcopied : (CBuffer.cString (cBytes addressString) ++
      List.replicate (cBytes address).length 0).take (cBytes address).length = cBytes address := by
    rw [CBuffer.cString_eq_self hzero, hsplit, List.append_assoc]
    exact List.take_left
  have hzero' : 0 ∉ cBytes address := by
    rw [hsplit, List.mem_append, not_or] at hzero
    exact hzero.1
  have hshort : (cBytes address).length < inet6AddrStrLen := by rwa [length_cBytes]
  rw [networkIpStr, if_pos hslash]
  dsimp only
  rw [← haddress, if_neg (Nat.not_le.mpr hshort), CBuffer.strncpy, hcopied]
  have hcopy : (ipStr.copyAt 0 (cBytes address)).store (cBytes address).length 0 =
      ipStr.copyAt 0 (cBytes address ++ [0]) := by
    rw [CBuffer.copyAt_append, Nat.zero_add]
    rfl
  rw [hcopy]
  exact hip.holds_copy hzero' hshort

end Network

/-! ## The name of an interface -/

/-- The test and the copy that the parsers of URIs, of JSON and of D-Bus have in common. -/
def copyInterface (name : String) (interface : CBuffer UInt8) : CBuffer UInt8 :=
  if ifNamSiz ≤ (CBuffer.cString (cBytes name)).length then interface
  else interface.strcpy (cBytes name)

/-- `interface` after `parse_query`, which returns at the first item that is wrong. -/
def parseQueryInterface (net : Inet) :
    List (String × Option String) → ServerUri → CBuffer UInt8 → CBuffer UInt8
  | [], _, interface => interface
  | item :: items, uri, interface =>
    let interface :=
      match item.2 with
      | some value => if item.1 = "interface" then copyInterface value interface else interface
      | none => interface
    match parseQueryItem net uri item with
    | none => interface
    | some uri => parseQueryInterface net items uri interface

/-- `interface` after `parse_json_interface_field`. -/
def jsonInterface (field : Json) (interface : CBuffer UInt8) : CBuffer UInt8 :=
  match field with
  | .string strVal => copyInterface strVal interface
  | _ => interface

/-- `interface` after `parse_interface`. -/
def dbusInterface (interfaceStr : String) (interface : CBuffer UInt8) : CBuffer UInt8 :=
  copyInterface interfaceStr interface

section Interface

variable {interface : CBuffer UInt8} {name : String}

lemma intact_copyInterface (h : interface.Intact ifNamSiz) :
    (copyInterface name interface).Intact ifNamSiz := by
  unfold copyInterface
  split_ifs with hlong
  · exact h
  · exact (h.strcpy (Nat.lt_of_not_le hlong)).intact

/-- The name that the server is given is the one in the array, and a name that is refused changes
nothing. -/
lemma holds_copyInterface {uri : ServerUri} (h : interface.Intact ifNamSiz)
    (hzero : 0 ∉ cBytes name) :
    (storeInterface name uri = none ∧ copyInterface name interface = interface) ∨
      ∃ uri', storeInterface name uri = some uri' ∧
        (copyInterface name interface).Holds ifNamSiz (cBytes uri'.interface) := by
  unfold storeInterface copyInterface
  rw [CBuffer.cString_eq_self hzero, length_cBytes]
  split_ifs with hlong
  · exact Or.inl ⟨rfl, rfl⟩
  · have hshort : (CBuffer.cString (cBytes name)).length < ifNamSiz := by
      rw [CBuffer.cString_eq_self hzero, length_cBytes]
      exact Nat.lt_of_not_le hlong
    refine Or.inr ⟨_, rfl, ?_⟩
    have hholds := h.strcpy hshort
    rwa [CBuffer.cString_eq_self hzero] at hholds

/-- However many items of a query name an interface, the array is not overrun. -/
lemma intact_parseQueryInterface {net : Inet} (items : List (String × Option String))
    (uri : ServerUri) (h : interface.Intact ifNamSiz) :
    (parseQueryInterface net items uri interface).Intact ifNamSiz := by
  induction items generalizing uri interface with
  | nil => exact h
  | cons item items ih =>
    unfold parseQueryInterface
    have hitem : (match item.2 with
        | some value => if item.1 = "interface" then copyInterface value interface else interface
        | none => interface).Intact ifNamSiz := by
      cases item.2 with
      | none => exact h
      | some value =>
        dsimp only
        split_ifs
        · exact intact_copyInterface h
        · exact h
    dsimp only
    cases parseQueryItem net uri item with
    | none => exact hitem
    | some uri' => exact ih uri' hitem

lemma intact_jsonInterface (field : Json) (h : interface.Intact ifNamSiz) :
    (jsonInterface field interface).Intact ifNamSiz := by
  cases field with
  | string strVal => exact intact_copyInterface h
  | null | boolean | integer | real | array | object => exact h

end Interface

/-! ## The name of a reverse zone -/

/-- The size of the array for the name of a zone. -/
def reverseNameSize : ℕ := 73

/-- The loop and the end that `reverse_dns_ipv4` and `reverse_dns_ipv6` have in common: every label is
printed into `buf` and appended to `result`. -/
def printLabels (bufSize : ℕ) (labels : List String) (suffix : String)
    (buffers : CBuffer UInt8 × CBuffer UInt8) : CBuffer UInt8 × CBuffer UInt8 :=
  let emptied := buffers.1.store 0 0
  let printed := (labels.map cBytes).foldl (CBuffer.appendPrinted bufSize) (emptied, buffers.2)
  (printed.1.strcat (cBytes suffix), printed.2)

/-- `result` and `buf` after `reverse_dns_ipv4`. -/
def reverseDnsIpv4Buffers (bytes : Vector UInt8 4) (prefixLength : UInt8)
    (buffers : CBuffer UInt8 × CBuffer UInt8) : CBuffer UInt8 × CBuffer UInt8 :=
  let octets := min (prefixLength.toNat / 8) 4
  printLabels 8 ((bytes.toList.take octets).map fun b => toString b.toNat ++ ".").reverse
    "in-addr.arpa" buffers

/-- `result` and `buf` after `reverse_dns_ipv6`. -/
def reverseDnsIpv6Buffers (bytes : Vector UInt8 16) (prefixLength : UInt8)
    (buffers : CBuffer UInt8 × CBuffer UInt8) : CBuffer UInt8 × CBuffer UInt8 :=
  let nibbles := min (prefixLength.toNat / 4) 32
  printLabels 4 (((nibblesOf bytes).take nibbles).map fun n => hexDigit n ++ ".").reverse
    "ip6.arpa" buffers

/-- `result` and `buf` after `network_address_t_to_reverse_dns`. -/
def reverseDnsBuffers (addr : NetworkAddress) (buffers : CBuffer UInt8 × CBuffer UInt8) :
    CBuffer UInt8 × CBuffer UInt8 :=
  match addr.address with
  | .inet a _ => reverseDnsIpv4Buffers a addr.prefixLength buffers
  | .inet6 a _ => reverseDnsIpv6Buffers a addr.prefixLength buffers
  | .unspec => buffers

/-- The size of `buf` in the function for the family of an address. -/
def digitBufferSize : SockAddr → ℕ
  | .inet _ _ => 8
  | .inet6 _ _ => 4
  | .unspec => 0

section Reverse

variable {buffers : CBuffer UInt8 × CBuffer UInt8}

/-- The bytes of texts that are appended one by one. -/
lemma cBytes_foldl (labels : List String) (start : String) :
    cBytes (labels.foldl (· ++ ·) start) = cBytes start ++ (labels.map cBytes).flatten := by
  induction labels generalizing start with
  | nil => simp
  | cons label labels ih =>
    rw [List.foldl_cons, ih, cBytes_append, List.map_cons, List.flatten_cons, List.append_assoc]

/-- Labels of bounded length. -/
lemma length_flatten_labels {labels : List String} {k : ℕ}
    (h : ∀ label ∈ labels, (cBytes label).length ≤ k) :
    (labels.map cBytes).flatten.length ≤ labels.length * k := by
  induction labels with
  | nil => simp
  | cons label labels ih =>
    have hlabel := h label List.mem_cons_self
    have hlabels := ih fun label' hmem => h label' (List.mem_cons_of_mem label hmem)
    rw [List.map_cons, List.flatten_cons, List.length_append, List.length_cons, Nat.succ_mul]
    omega

/-- If every label fits `buf` and the name fits `result`, then `result` holds the name. -/
lemma holds_printLabels {bufSize k : ℕ} {labels : List String} {suffix : String}
    (hresult : buffers.1.Intact reverseNameSize) (hbuf : buffers.2.Intact bufSize)
    (hlabels : ∀ label ∈ labels, 0 ∉ cBytes label ∧ (cBytes label).length ≤ k)
    (hsize : k < bufSize) (hsuffix : 0 ∉ cBytes suffix)
    (htotal : labels.length * k + (cBytes suffix).length < reverseNameSize) :
    (printLabels bufSize labels suffix buffers).1.Holds reverseNameSize
        (cBytes (labels.foldl (· ++ ·) "" ++ suffix)) ∧
      (printLabels bufSize labels suffix buffers).2.Intact bufSize := by
  have hempty : (buffers.1.store 0 0).Holds reverseNameSize [] :=
    hresult.holds_copy List.not_mem_nil (by decide)
  have hflatten := length_flatten_labels fun label hlabel => (hlabels label hlabel).2
  have hpieces : ∀ piece ∈ labels.map cBytes, 0 ∉ piece ∧ piece.length < bufSize := by
    intro piece hpiece
    obtain ⟨label, hlabel, rfl⟩ := List.mem_map.mp hpiece
    exact ⟨(hlabels label hlabel).1, (hlabels label hlabel).2.trans_lt hsize⟩
  have hfits : ([] : List UInt8).length + (labels.map cBytes).flatten.length <
      reverseNameSize := by
    rw [List.length_nil]
    omega
  obtain ⟨hlarge, hsmall⟩ := @CBuffer.holds_foldl_appendPrinted UInt8 _ _ bufSize [] _ _ hpieces
    (buffers.1.store 0 0, buffers.2) hempty hbuf hfits
  refine ⟨?_, hsmall⟩
  rw [cBytes_append, cBytes_foldl]
  rw [List.nil_append] at hlarge
  exact hlarge.strcat hsuffix (by omega)

/-- The decimal label of a byte. -/
lemma decimalLabel (b : UInt8) :
    0 ∉ cBytes (toString b.toNat ++ ".") ∧ (cBytes (toString b.toNat ++ ".")).length ≤ 4 := by
  have hdigit : ∀ c ∈ Nat.toDigits 10 b.toNat, c.isDigit = true := fun c hc =>
    Nat.isDigit_of_mem_toDigits (by decide) (by decide) hc
  have hbytes : cBytes (toString b.toNat) =
      (Nat.toDigits 10 b.toNat).flatMap String.utf8EncodeChar := by
    rw [cBytes, Nat.toString_eq_repr, Nat.repr_eq_ofList_toDigits, String.toList_ofList]
  have hcount : (cBytes (toString b.toNat)).length = (Nat.toDigits 10 b.toNat).length := by
    rw [hbytes, List.length_flatMap, List.map_congr_left fun c hc =>
      (utf8EncodeChar_of_isDigit (hdigit c hc)).2]
    simp
  have hthree : (Nat.toDigits 10 b.toNat).length ≤ 3 := by
    rw [Nat.length_toDigits_le_iff (by decide) (by decide)]
    exact b.toNat_lt.trans_le (by decide)
  have hdot : cBytes "." = [46] := by decide
  rw [cBytes_append, hdot]
  constructor
  · rw [List.mem_append, not_or, hbytes]
    refine ⟨fun hmem => ?_, by decide⟩
    obtain ⟨c, hc, hzero⟩ := List.mem_flatMap.mp hmem
    exact (utf8EncodeChar_of_isDigit (hdigit c hc)).1 hzero
  · rw [List.length_append, hcount, List.length_singleton]
    omega

/-- The hexadecimal label of a nibble. -/
lemma hexLabel {n : UInt8} (h : n.toNat < 16) :
    0 ∉ cBytes (hexDigit n ++ ".") ∧ (cBytes (hexDigit n ++ ".")).length ≤ 2 := by
  unfold hexDigit
  generalize n.toNat = k at h
  interval_cases k <;> decide

lemma toNat_lt_of_mem_nibblesOf {bytes : Vector UInt8 16} {n : UInt8} (h : n ∈ nibblesOf bytes) :
    n.toNat < 16 := by
  obtain ⟨b, -, hn⟩ := List.mem_flatMap.mp h
  have hmask : ∀ m : UInt8, (m &&& 0x0F).toNat < 16 := fun m => by
    rw [UInt8.toNat_and]
    exact Nat.and_lt_two_pow m.toNat (by decide : (0x0F : UInt8).toNat < 2 ^ 4)
  simp only [List.mem_cons, List.not_mem_nil, or_false] at hn
  rcases hn with rfl | rfl
  · exact hmask _
  · exact hmask _

lemma holds_reverseDnsIpv4Buffers (bytes : Vector UInt8 4) (prefixLength : UInt8)
    (hresult : buffers.1.Intact reverseNameSize) (hbuf : buffers.2.Intact 8) :
    (reverseDnsIpv4Buffers bytes prefixLength buffers).1.Holds reverseNameSize
        (cBytes (reverseDnsIpv4 bytes prefixLength)) ∧
      (reverseDnsIpv4Buffers bytes prefixLength buffers).2.Intact 8 := by
  refine holds_printLabels (k := 4) hresult hbuf ?_ (by decide) (by decide) ?_
  · intro label hlabel
    obtain ⟨b, -, rfl⟩ := List.mem_map.mp (List.mem_reverse.mp hlabel)
    exact decimalLabel b
  · have hsuffix : (cBytes "in-addr.arpa").length = 12 := by decide
    rw [hsuffix, List.length_reverse, List.length_map, List.length_take, reverseNameSize]
    omega

lemma holds_reverseDnsIpv6Buffers (bytes : Vector UInt8 16) (prefixLength : UInt8)
    (hresult : buffers.1.Intact reverseNameSize) (hbuf : buffers.2.Intact 4) :
    (reverseDnsIpv6Buffers bytes prefixLength buffers).1.Holds reverseNameSize
        (cBytes (reverseDnsIpv6 bytes prefixLength)) ∧
      (reverseDnsIpv6Buffers bytes prefixLength buffers).2.Intact 4 := by
  refine holds_printLabels (k := 2) hresult hbuf ?_ (by decide) (by decide) ?_
  · intro label hlabel
    obtain ⟨n, hn, rfl⟩ := List.mem_map.mp (List.mem_reverse.mp hlabel)
    exact hexLabel (toNat_lt_of_mem_nibblesOf (List.mem_of_mem_take hn))
  · -- 32 labels of two bytes, the suffix and the zero: exactly the size of the array
    have hsuffix : (cBytes "ip6.arpa").length = 8 := by decide
    rw [hsuffix, List.length_reverse, List.length_map, List.length_take, reverseNameSize]
    omega

/-- The array holds the name of the zone, and `buf` is not overrun either. -/
lemma holds_reverseDnsBuffers {addr : NetworkAddress} {name : String}
    (h : networkAddressToReverseDns addr = some name)
    (hresult : buffers.1.Intact reverseNameSize)
    (hbuf : buffers.2.Intact (digitBufferSize addr.address)) :
    (reverseDnsBuffers addr buffers).1.Holds reverseNameSize (cBytes name) ∧
      (reverseDnsBuffers addr buffers).2.Intact (digitBufferSize addr.address) := by
  obtain ⟨address, prefixLength⟩ := addr
  cases address with
  | inet a port =>
    obtain rfl := Option.some.inj h
    exact holds_reverseDnsIpv4Buffers a prefixLength hresult hbuf
  | inet6 a port =>
    obtain rfl := Option.some.inj h
    exact holds_reverseDnsIpv6Buffers a prefixLength hresult hbuf
  | unspec => cases h

/-- Whatever the address and the prefix are, neither array is overrun. -/
lemma writesBelow_reverseDnsBuffers (addr : NetworkAddress)
    (hresult : buffers.1.Intact reverseNameSize)
    (hbuf : buffers.2.Intact (digitBufferSize addr.address)) :
    (reverseDnsBuffers addr buffers).1.WritesBelow reverseNameSize ∧
      (reverseDnsBuffers addr buffers).2.WritesBelow (digitBufferSize addr.address) := by
  cases hname : networkAddressToReverseDns addr with
  | some name =>
    obtain ⟨hlarge, hsmall⟩ := holds_reverseDnsBuffers hname hresult hbuf
    exact ⟨hlarge.writes, hsmall.writes⟩
  | none =>
    obtain ⟨address, prefixLength⟩ := addr
    cases address with
    | inet | inet6 => cases hname
    | unspec => exact ⟨hresult.writes, hbuf.writes⟩

end Reverse

/-! ## The result -/

/-- Every write to one of the arrays is inside of it, whatever their memory holds before.  The text is
the URI, the network, the query of a URI and the name of an interface that the parsers are given; the
name of a zone is that of any address and prefix. -/
structure BuffersInBounds (lib : TextLibraries) (net : Inet) (text : String) : Prop where
  host : ∀ memory : Vector UInt8 inet6AddrStrLen,
    (initFromStringIpStr lib text (.fresh memory.toList)).WritesBelow inet6AddrStrLen
  network : ∀ memory : Vector UInt8 inet6AddrStrLen,
    (networkIpStr text (.fresh memory.toList)).WritesBelow inet6AddrStrLen
  queryInterface : ∀ (memory : Vector UInt8 ifNamSiz) (items : List (String × Option String))
    (uri : ServerUri), lib.uriDissectQuery text = some items →
    (parseQueryInterface net items uri (.fresh memory.toList)).WritesBelow ifNamSiz
  jsonInterface : ∀ (memory : Vector UInt8 ifNamSiz) (field : Json),
    (jsonInterface field (.fresh memory.toList)).WritesBelow ifNamSiz
  dbusInterface : ∀ memory : Vector UInt8 ifNamSiz,
    (dbusInterface text (.fresh memory.toList)).WritesBelow ifNamSiz
  reverseName : ∀ (addr : NetworkAddress) (result : Vector UInt8 reverseNameSize)
    (buf : Vector UInt8 (digitBufferSize addr.address)),
    (reverseDnsBuffers addr (.fresh result.toList, .fresh buf.toList)).1.WritesBelow
      reverseNameSize ∧
    (reverseDnsBuffers addr (.fresh result.toList, .fresh buf.toList)).2.WritesBelow
      (digitBufferSize addr.address)

/-- The memory of an array before it is written. -/
lemma intact_memory {n : ℕ} (memory : Vector UInt8 n) :
    (CBuffer.fresh memory.toList).Intact n :=
  CBuffer.intact_fresh memory.length_toList

/-- Buffers and their sizes.  No array is overrun exactly if the text is not a URI with an acceptable
scheme and a host of 46 bytes. -/
theorem buffers_in_bounds_iff (lib : TextLibraries) (net : Inet) (text : String) :
    BuffersInBounds lib net text ↔
      ∀ parsedUri, lib.uriParseSingleUri text = some parsedUri → initScheme parsedUri ≠ none →
        parsedUri.hostText.utf8ByteSize ≠ inet6AddrStrLen := by
  constructor
  · intro h parsedUri hparsed hscheme
    have hhost := h.host (Vector.replicate _ 0)
    rw [initFromStringIpStr, hparsed] at hhost
    dsimp only at hhost
    rw [if_neg hscheme] at hhost
    exact (writesBelow_copyHost_iff (intact_memory _)).mp hhost
  · intro h
    refine ⟨fun memory => ?_, fun memory => writesBelow_networkIpStr (intact_memory memory),
      fun memory items uri _ => ?_, fun memory field => ?_, fun memory => ?_,
      fun addr result buf => ?_⟩
    · unfold initFromStringIpStr
      cases hparsed : lib.uriParseSingleUri text with
      | none => exact (intact_memory memory).writes
      | some parsedUri =>
        dsimp only
        split_ifs with hscheme
        · exact (intact_memory memory).writes
        · exact (writesBelow_copyHost_iff (intact_memory memory)).mpr (h parsedUri hparsed hscheme)
    · exact (intact_parseQueryInterface items uri (intact_memory memory)).writes
    · exact (intact_jsonInterface field (intact_memory memory)).writes
    · exact (intact_copyInterface (intact_memory memory)).writes
    · exact writesBelow_reverseDnsBuffers addr (intact_memory result) (intact_memory buf)

/-- Libraries that take every text for a URI with a host of 46 letters. -/
def TextLibraries.longHost : TextLibraries where
  jsonLoads _ := none
  uriParseSingleUri _ := some ⟨"dns+udp", String.ofList (List.replicate 46 'a'), "", ""⟩
  uriDissectQuery _ := none

/-- A host of 46 letters: the zero behind it is written to index 46 of an array of 46 bytes. -/
theorem host_overruns_buffer :
    46 ∈ (initFromStringIpStr .longHost "dns+udp://aaaaaaaaaaaaaaaaaaaaaaaaaaaaaaaaaaaaaaaaaaaaaa"
        (.fresh (List.replicate 46 0))).written ∧
      inet6AddrStrLen = 46 ∧ ∀ net text, ¬ BuffersInBounds .longHost net text := by
  have hcopied : ∀ text, initFromStringIpStr .longHost text (.fresh (List.replicate 46 0)) =
      copyHost (String.ofList (List.replicate 46 'a')) (.fresh (List.replicate 46 0)) :=
    fun _ => rfl
  have hwritten : 46 ∈ (copyHost (String.ofList (List.replicate 46 'a'))
      (.fresh (List.replicate 46 0))).written := by decide
  refine ⟨hwritten, rfl, fun net text h => ?_⟩
  have hbelow : (initFromStringIpStr .longHost text
      (.fresh (List.replicate 46 0))).WritesBelow inet6AddrStrLen := h.host (Vector.replicate 46 0)
  rw [hcopied] at hbelow
  exact absurd (hbelow 46 hwritten) (by decide)

end Dnsconfd
