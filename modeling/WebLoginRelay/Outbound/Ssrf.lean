import WebLoginRelay.Net.IpAddr
import WebLoginRelay.Protocol.Validation

/-!
# Where the relay connects to

`src/outbound/ssrf.rs`, and the part of `SsrfSiteClient::request` before it connects.
-/

namespace WebLoginRelay
open Text Net

/-- `SafeTarget`. -/
structure SafeTarget where
  host : String
  path : String
  addr : SocketAddr
  deriving DecidableEq, Repr

/-- `site_url`. -/
def siteUrl (domain path : String) : Except RelayError (String × String) := do
  validateDomain domain
  if !startsWith path "/" ∨ contains path "://" ∨ contains path "@" ∨ contains path "#" then
    fail .domainVerificationFailed
  else return (domain, path)

/-- `is_blocked_v4`. -/
def isBlockedV4 (ip : Ipv4Addr) : Bool :=
  ip.isUnspecified
    || ip.isLoopback
    || ip.isPrivate
    || ip.isLinkLocal
    || ip.isBroadcast
    || ip.isMulticast
    || ip.isDocumentation
    || ip.a == 100 && (64 ≤ ip.b && ip.b ≤ 127)
    || ip.a == 192 && ip.b == 0 && ip.c == 0
    || ip.a == 198 && (18 ≤ ip.b && ip.b ≤ 19)
    || ip.a == 169 && ip.b == 254
    || ip == ⟨169, 254, 169, 254⟩
    || ip == ⟨0, 0, 0, 0⟩

/-- `is_blocked_v6`. -/
def isBlockedV6 (ip : Ipv6Addr) : Bool :=
  match ip.toIpv4Mapped with
  | some v4 => isBlockedV4 v4
  | none =>
    ip.isUnspecified
      || ip.isLoopback
      || ip.isMulticast
      || ip.isUniqueLocal
      || ip.a &&& 0xffc0 == 0xfe80
      || ip.a == 0x2001 && ip.b == 0xdb8
      || ip == ⟨0xfd00, 0, 0, 0, 0, 0, 0, 0⟩

/-- `is_blocked_ip`. -/
def isBlockedIp : IpAddr → Bool
  | .v4 ip => isBlockedV4 ip
  | .v6 ip => isBlockedV6 ip

/-- `pick_public_address`. -/
def pickPublicAddress (resolved : List IpAddr) : Except RelayError IpAddr :=
  match resolved.find? fun ip => !isBlockedIp ip with
  | some ip => .ok ip
  | none => fail .domainVerificationFailed

/-- `pinned_socket`. -/
def pinnedSocket (ip : IpAddr) : SocketAddr := ⟨ip, 443⟩

/-- `SsrfSiteClient`, by what its resolver answers. -/
structure SsrfSiteClient where
  resolve : String → Except RelayError (List IpAddr)

/-- `SsrfSiteClient::request` up to `TcpStream::connect`: what it connects to. -/
def SsrfSiteClient.connects (client : SsrfSiteClient) (domain path : String) :
    Except RelayError SafeTarget := do
  let (host, path) ← siteUrl domain path
  let ips ← client.resolve host
  let ip ← pickPublicAddress ips
  if isBlockedIp ip then fail .domainVerificationFailed
  else return ⟨host, path, pinnedSocket ip⟩

end WebLoginRelay
