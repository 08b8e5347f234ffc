import Dnsconfd.Library.Tables
import Mathlib.Algebra.Order.Ring.Int

/-!
# Data model

The types that the daemon and its client share: socket addresses, networks, DNS servers
(`server_uri_t`), resolution modes, the part of the configuration that the modelled code reads,
and the tables from domains to servers.

Text is `String`; the C code only ever handles it as bytes without an embedded zero.  Machine
integers keep their width (`Int32` for `int`, `UInt8` for `unsigned char`, `UInt16` for ports).
A `NULL` pointer to a string is `none`.  The C library, GLib, libidn2, jansson and uriparser are
parameters: `Inet` is the C library's conversion between addresses and text.
-/

namespace Dnsconfd

open Library

/-! ## Addresses -/

/-- The part of a `sockaddr_storage` the code looks at: the family (`unspec` is any family other
than `AF_INET` and `AF_INET6`, as in zeroed memory), the address and the port.  The port is kept
in host order, so `htons` and `ntohs` do not appear. -/
inductive SockAddr where
  | unspec
  | inet (addr : Vector UInt8 4) (port : UInt16)
  | inet6 (addr : Vector UInt8 16) (port : UInt16)
deriving DecidableEq

namespace SockAddr

/-- The port as the code reads it: from the `AF_INET` field for that family, from the
`AF_INET6` field for any other. -/
def port : SockAddr → UInt16
  | unspec => 0
  | inet _ p => p
  | inet6 _ p => p

/-- The address with another port. -/
def withPort : SockAddr → UInt16 → SockAddr
  | unspec, _ => unspec
  | inet a _, p => inet a p
  | inet6 a _, p => inet6 a p

/-- The family is one of the two the daemon supports. -/
def isIp : SockAddr → Bool
  | unspec => false
  | inet _ _ => true
  | inet6 _ _ => true

end SockAddr

/-- The C library's conversion between binary addresses and their text form: `inet_pton` and
`inet_ntop` for the families `AF_INET` and `AF_INET6`. -/
structure Inet where
  pton4 : String → Option (Vector UInt8 4)
  pton6 : String → Option (Vector UInt8 16)
  ntop4 : Vector UInt8 4 → String
  ntop6 : Vector UInt8 16 → String

/-- `INET6_ADDRSTRLEN`: the size of a buffer that holds the text of any address. -/
def inet6AddrStrLen : ℕ := 46

/-- The text of a buffer that is read as a C string: what stands before the first NUL. -/
def cString (content : String) : String :=
  String.ofList (content.toList.takeWhile fun c => c.toNat ≠ 0)

/-- `IFNAMSIZ`: the size of an interface name, its terminator included. -/
def ifNamSiz : ℕ := 16

/-- `parse_ip_str`: the text is tried as an IPv4 address, then as an IPv6 address.  The port of
the address that is written to is left alone; here it is the one given. -/
def parseIpStr (net : Inet) (str : String) (port : UInt16) : Option SockAddr :=
  match net.pton4 str with
  | some a => some (.inet a port)
  | none =>
    match net.pton6 str with
    | some a => some (.inet6 a port)
    | none => none

/-- `ip_to_str`; it fails for every family other than the two supported ones. -/
def ipToStr (net : Inet) : SockAddr → Option String
  | .unspec => none
  | .inet a _ => some (net.ntop4 a)
  | .inet6 a _ => some (net.ntop6 a)

/-- `set_default_port`. -/
def setDefaultPort : SockAddr → UInt16 → SockAddr
  | .unspec, _ => .unspec
  | .inet a p, port => .inet a (if p = 0 then port else p)
  | .inet6 a p, port => .inet6 a (if p = 0 then port else p)

/-- `are_ips_equal`: same family and same address, whatever the ports. -/
def areIpsEqual : SockAddr → SockAddr → Bool
  | .inet a _, .inet b _ => a = b
  | .inet6 a _, .inet6 b _ => a = b
  | _, _ => false

/-! ## Servers -/

/-- `dns_protocol_t`; `protocolsEnd` marks a protocol that was not recognised. -/
inductive DnsProtocol where
  | udp
  | tcp
  | tls
  | protocolsEnd
deriving DecidableEq

namespace DnsProtocol

/-- The value of the enumerator. -/
def toNat : DnsProtocol → ℕ
  | udp => 0
  | tcp => 1
  | tls => 2
  | protocolsEnd => 3

/-- `dns_protocol_t_to_string`. -/
def toText : DnsProtocol → String
  | udp => "dns+udp"
  | tcp => "dns+tcp"
  | tls => "dns+tls"
  | protocolsEnd => "unknown"

end DnsProtocol

/-- `protocol_from_nstring`: seven bytes of which the first six are compared. -/
def protocolFromNstring (string : String) : DnsProtocol :=
  if string.utf8ByteSize ≠ 7 then .protocolsEnd
  else if string.toList.take 6 = "dns+ud".toList then .udp
  else if string.toList.take 6 = "dns+tc".toList then .tcp
  else if string.toList.take 6 = "dns+tl".toList then .tls
  else .protocolsEnd

/-- `network_address_t`; the port of the address is never looked at. -/
structure NetworkAddress where
  address : SockAddr
  prefixLength : UInt8
deriving DecidableEq

/-- `server_uri_t`.  A larger priority is preferred; the interface is empty if the server is not
bound to one; `dnssec` tells whether the server supports DNSSEC. -/
structure ServerUri where
  address : SockAddr
  priority : Int32
  interface : String
  dnssec : UInt8
  protocol : DnsProtocol
  certificationAuthority : Option String
  name : Option String
  routingDomains : List String
  searchDomains : List String
  networks : List NetworkAddress
deriving DecidableEq

/-- `server_uri_t_init`: everything zero except that DNSSEC is supported. -/
def ServerUri.initial : ServerUri where
  address := .unspec
  priority := 0
  interface := ""
  dnssec := 1
  protocol := .udp
  certificationAuthority := none
  name := none
  routingDomains := []
  searchDomains := []
  networks := []

/-- The first address of the network reserved for documentation, 192.0.2.1. -/
def documentationAddress : Vector UInt8 4 :=
  #v[192, 0, 2, 1]

/-- The conversions at 192.0.2.1. -/
def Inet.documentation : Inet where
  pton4 text := if text = "192.0.2.1" then some documentationAddress else none
  pton6 _ := none
  ntop4 _ := "192.0.2.1"
  ntop6 _ := "::"

/-- 127.0.0.1. -/
def loopbackAddress : Vector UInt8 4 :=
  #v[127, 0, 0, 1]

/-- A table from domains to the servers that resolve them. -/
abbrev ServerTable := Table String (List ServerUri)

/-- An entry of a table of servers. -/
abbrev ServerEntry := Table.Entry String (List ServerUri)

/-! ## Modes and configuration -/

/-- `dnsconfd_mode_t`. -/
inductive Mode where
  | backup
  | prefer
  | exclusive
deriving DecidableEq

namespace Mode

/-- The value of the enumerator. -/
def toNat : Mode → ℕ
  | backup => 0
  | prefer => 1
  | exclusive => 2

/-- The mode with the given number; the daemon rejects numbers above 2. -/
def ofUInt32 (n : UInt32) : Option Mode :=
  if n = 0 then some backup
  else if n = 1 then some prefer
  else if n = 2 then some exclusive
  else none

/-- Exactly the numbers above 2 denote no mode. -/
theorem ofUInt32_eq_none_iff {n : UInt32} : ofUInt32 n = none ↔ 2 < n := by
  unfold ofUInt32
  rw [UInt32.lt_iff_toNat_lt]
  by_cases h0 : n = 0
  · simp [h0]
  by_cases h1 : n = 1
  · simp [h1]
  by_cases h2 : n = 2
  · simp [h2]
  rw [if_neg h0, if_neg h1, if_neg h2]
  rw [← UInt32.toNat_inj] at h0 h1 h2
  simp only [UInt32.reduceToNat] at h0 h1 h2 ⊢
  simp only [true_iff]
  omega

end Mode

/-- `rpz_zone_t`. -/
structure RpzZone where
  name : String
  master : Option String
  zonefile : Option String
deriving DecidableEq

/-- The part of `dnsconfd_config_t` that the daemon reads.  The certification authority is a list
of candidate files separated by blanks. -/
structure Config where
  resolverOptions : Option String
  certificationAuthority : String
  staticServers : List ServerUri
  rpzZones : List RpzZone
  listenAddress : SockAddr
  dnssecEnabled : Bool

/-- A configuration without static servers and response policy zones. -/
def Config.plain : Config where
  resolverOptions := none
  certificationAuthority := "/etc/pki/dns/ca-bundle.pem"
  staticServers := []
  rpzZones := []
  listenAddress := .inet #v[127, 0, 0, 1] 53
  dnssecEnabled := false

/-- `exit_code_t`, the codes the daemon itself sets. -/
inductive ExitCode where
  | ok
  | serviceFailure
  | dbusFailure
  | resolvConfFailure
  | updateFailure
  | fsmFailure
deriving DecidableEq

/-- The process's exit status. -/
def ExitCode.toNat : ExitCode → ℕ
  | ok => 0
  | serviceFailure => 8
  | dbusFailure => 9
  | resolvConfFailure => 10
  | updateFailure => 16
  | fsmFailure => 17

end Dnsconfd
