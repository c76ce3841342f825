import WebLoginRelay.Constants
import WebLoginRelay.Outbound.Ssrf

/-!
# Outbound connections

The ranges a connection must not be made to, as blocks, and the tests of `is_blocked_ip` as membership in
them. The tests leave out `0.0.0.0/8` but for `0.0.0.0`, and `240.0.0.0/4` but for the broadcast address.
-/

namespace WebLoginRelay
open Text Net

/-- The block `a.b.c.d/len`. -/
def block4 (a b c d len : Nat) : Block := ⟨a * 2 ^ 24 + b * 2 ^ 16 + c * 2 ^ 8 + d, 32 - len⟩

/-- The IPv6 block of the first `len` bits of this value. -/
def block6 (base len : Nat) : Block := ⟨base, 128 - len⟩

/-- The IPv4 ranges that are forbidden. -/
def forbiddenV4 : List Block := [
  -- this network, reserved
  block4 0 0 0 0 8, block4 240 0 0 0 4,
  -- loopback, private
  block4 127 0 0 0 8, block4 10 0 0 0 8, block4 172 16 0 0 12, block4 192 168 0 0 16,
  -- link-local, broadcast, multicast
  block4 169 254 0 0 16, block4 255 255 255 255 32, block4 224 0 0 0 4,
  -- documentation
  block4 192 0 2 0 24, block4 198 51 100 0 24, block4 203 0 113 0 24,
  -- carrier-grade NAT, protocol assignments, benchmarking
  block4 100 64 0 0 10, block4 192 0 0 0 24, block4 198 18 0 0 15]

/-- The IPv6 ranges that are forbidden. -/
def forbiddenV6 : List Block := [
  -- unspecified, loopback, unique-local, link-local, multicast, documentation
  block6 0 128, block6 1 128, block6 (0xfc00 * 2 ^ 112) 7, block6 (0xfe80 * 2 ^ 112) 10,
  block6 (0xff00 * 2 ^ 112) 8, block6 (0x2001 * 2 ^ 112 + 0xdb8 * 2 ^ 96) 32]

/-- `::ffff:0:0/96`: the IPv4-mapped addresses. -/
def mapped : Block := block6 (0xffff * 2 ^ 32) 96

/-- The specification forbids to connect to the address. -/
def Forbidden : IpAddr → Prop
  | .v4 ip => ∃ b ∈ forbiddenV4, b.Contains ip.toNat
  | .v6 ip => (∃ b ∈ forbiddenV6, b.Contains ip.toNat) ∨
    mapped.Contains ip.toNat ∧ ∃ b ∈ forbiddenV4, b.Contains (ip.toNat % 2 ^ 32)

/-- The forbidden IPv4 addresses that `is_blocked_v4` does not know. -/
def GapV4 (n : Nat) : Prop :=
  (block4 0 0 0 0 8).Contains n ∧ n ≠ 0 ∨ (block4 240 0 0 0 4).Contains n ∧ n ≠ 2 ^ 32 - 1

/-- The forbidden addresses that `is_blocked_ip` does not know. -/
def Gap : IpAddr → Prop
  | .v4 ip => GapV4 ip.toNat
  | .v6 ip => mapped.Contains ip.toNat ∧ GapV4 (ip.toNat % 2 ^ 32)

/-! ## IPv4 -/

section Octets
variable (ip : Ipv4Addr) {x y z u : Nat}

/-- The addresses of a block with a prefix of four bits. -/
lemma contains4 : (block4 x 0 0 0 4).Contains ip.toNat ↔ ip.a.toNat / 16 = x / 16 := by
  have := ip.octets_lt
  simp only [block4, Block.Contains, Ipv4Addr.toNat, Nat.reducePow, Nat.reduceSub]
  omega

/-- The addresses of a block with a prefix of eight bits. -/
lemma contains8 : (block4 x 0 0 0 8).Contains ip.toNat ↔ ip.a.toNat = x := by
  have := ip.octets_lt
  simp only [block4, Block.Contains, Ipv4Addr.toNat, Nat.reducePow, Nat.reduceSub]
  omega

/-- The addresses of a block with a prefix of ten bits. -/
lemma contains10 (hy : y < 256) :
    (block4 x y 0 0 10).Contains ip.toNat ↔ ip.a.toNat = x ∧ ip.b.toNat / 64 = y / 64 := by
  have := ip.octets_lt
  simp only [block4, Block.Contains, Ipv4Addr.toNat, Nat.reducePow, Nat.reduceSub]
  omega

/-- The addresses of a block with a prefix of twelve bits. -/
lemma contains12 (hy : y < 256) :
    (block4 x y 0 0 12).Contains ip.toNat ↔ ip.a.toNat = x ∧ ip.b.toNat / 16 = y / 16 := by
  have := ip.octets_lt
  simp only [block4, Block.Contains, Ipv4Addr.toNat, Nat.reducePow, Nat.reduceSub]
  omega

/-- The addresses of a block with a prefix of fifteen bits. -/
lemma contains15 (hy : y < 256) :
    (block4 x y 0 0 15).Contains ip.toNat ↔ ip.a.toNat = x ∧ ip.b.toNat / 2 = y / 2 := by
  have := ip.octets_lt
  simp only [block4, Block.Contains, Ipv4Addr.toNat, Nat.reducePow, Nat.reduceSub]
  omega

/-- The addresses of a block with a prefix of sixteen bits. -/
lemma contains16 (hy : y < 256) :
    (block4 x y 0 0 16).Contains ip.toNat ↔ ip.a.toNat = x ∧ ip.b.toNat = y := by
  have := ip.octets_lt
  simp only [block4, Block.Contains, Ipv4Addr.toNat, Nat.reducePow, Nat.reduceSub]
  omega

/-- The addresses of a block with a prefix of twenty-four bits. -/
lemma contains24 (hy : y < 256) (hz : z < 256) :
    (block4 x y z 0 24).Contains ip.toNat ↔ ip.a.toNat = x ∧ ip.b.toNat = y ∧ ip.c.toNat = z := by
  have := ip.octets_lt
  simp only [block4, Block.Contains, Ipv4Addr.toNat, Nat.reducePow, Nat.reduceSub]
  omega

/-- The ranges `is_blocked_v4` tests as a whole, by their octets. -/
def Known : Prop :=
  ip.a.toNat = 127 ∨ ip.a.toNat = 10 ∨ (ip.a.toNat = 172 ∧ ip.b.toNat / 16 = 1) ∨
  (ip.a.toNat = 192 ∧ ip.b.toNat = 168) ∨ (ip.a.toNat = 169 ∧ ip.b.toNat = 254) ∨
  ip.toNat = 2 ^ 32 - 1 ∨ ip.a.toNat / 16 = 14 ∨
  (ip.a.toNat = 192 ∧ ip.b.toNat = 0 ∧ ip.c.toNat = 2) ∨
  (ip.a.toNat = 198 ∧ ip.b.toNat = 51 ∧ ip.c.toNat = 100) ∨
  (ip.a.toNat = 203 ∧ ip.b.toNat = 0 ∧ ip.c.toNat = 113) ∨
  (ip.a.toNat = 100 ∧ ip.b.toNat / 64 = 1) ∨ (ip.a.toNat = 192 ∧ ip.b.toNat = 0 ∧ ip.c.toNat = 0) ∨
  (ip.a.toNat = 198 ∧ ip.b.toNat / 2 = 9)

/-- The forbidden ranges by their octets. -/
lemma forbiddenV4_iff : (∃ b ∈ forbiddenV4, b.Contains ip.toNat) ↔
    ip.a.toNat = 0 ∨ ip.a.toNat / 16 = 15 ∨ Known ip := by
  have full : (block4 255 255 255 255 32).Contains ip.toNat ↔ ip.toNat = 2 ^ 32 - 1 := by
    simp [block4, Block.Contains]
  simp (disch := decide) only [forbiddenV4, List.exists_mem_cons_iff, List.not_mem_nil, false_and,
    exists_false, or_false, contains4, contains8, contains10, contains12, contains15, contains16, contains24,
    full, Nat.reduceDiv, Known]

/-- The tests of `is_blocked_v4` by the octets. -/
lemma isBlockedV4_octets : isBlockedV4 ip = true ↔ ip.toNat = 0 ∨ Known ip := by
  have := ip.octets_lt
  have zero : ip = ⟨0, 0, 0, 0⟩ ↔ ip.toNat = 0 := by
    simp only [Ipv4Addr.ext_iff, ← UInt8.toNat_inj, Ipv4Addr.toNat, UInt8.toNat_ofNat]
    omega
  have full : ip = ⟨255, 255, 255, 255⟩ ↔ ip.toNat = 2 ^ 32 - 1 := by
    simp only [Ipv4Addr.ext_iff, ← UInt8.toNat_inj, Ipv4Addr.toNat, UInt8.toNat_ofNat]
    omega
  have r16 (n : Nat) : 16 ≤ n ∧ n ≤ 31 ↔ n / 16 = 1 := by omega
  have r64 (n : Nat) : 64 ≤ n ∧ n ≤ 127 ↔ n / 64 = 1 := by omega
  have r2 (n : Nat) : 18 ≤ n ∧ n ≤ 19 ↔ n / 2 = 9 := by omega
  have r14 (n : Nat) : 224 ≤ n ∧ n ≤ 239 ↔ n / 16 = 14 := by omega
  -- the last three tests are among the others
  have linkLocal : ip.a.toNat = 169 ∧ ip.b.toNat = 254 → ip.toNat = 0 ∨ Known ip := fun h => by
    simp [Known, h]
  have metadata : ip = ⟨169, 254, 169, 254⟩ → ip.toNat = 0 ∨ Known ip := fun h => by
    simp [Known, h]
  have tests : isBlockedV4 ip = true ↔ (ip.toNat = 0 ∨ Known ip) ∨
      (ip.a.toNat = 169 ∧ ip.b.toNat = 254) ∨ ip = ⟨169, 254, 169, 254⟩ ∨ ip.toNat = 0 := by
    simp only [isBlockedV4, Ipv4Addr.isUnspecified, Ipv4Addr.isLoopback, Ipv4Addr.isPrivate,
      Ipv4Addr.isLinkLocal, Ipv4Addr.isBroadcast, Ipv4Addr.isMulticast, Ipv4Addr.isDocumentation,
      Bool.or_eq_true, Bool.and_eq_true, beq_iff_eq, decide_eq_true_eq, zero, full,
      ← UInt8.toNat_inj, UInt8.le_iff_toNat_le, UInt8.toNat_ofNat, r16, r64, r2, r14, Known, or_assoc, and_assoc]
  rw [tests]
  exact ⟨fun h => h.elim id fun h => h.elim linkLocal fun h => h.elim metadata .inl, .inl⟩

/-- What `is_blocked_v4` knows of the forbidden ranges. -/
lemma isBlockedV4_iff : isBlockedV4 ip = true ↔
    (∃ b ∈ forbiddenV4, b.Contains ip.toNat) ∧ ¬ GapV4 ip.toNat := by
  have := ip.octets_lt
  have range : Known ip → ip.a.toNat ≠ 0 ∧ (ip.a.toNat / 16 = 15 → ip.toNat = 2 ^ 32 - 1) := by
    unfold Known Ipv4Addr.toNat
    omega
  have zero : ip.toNat = 0 → ip.a.toNat = 0 := by
    unfold Ipv4Addr.toNat
    omega
  have full : ip.toNat = 2 ^ 32 - 1 → ip.a.toNat / 16 = 15 ∧ Known ip := fun h =>
    ⟨by unfold Ipv4Addr.toNat at h; omega, by simp [Known, h]⟩
  rw [isBlockedV4_octets, forbiddenV4_iff, GapV4, contains8, contains4]
  grind

end Octets

/-! ## IPv6 -/

section Segments
variable (ip : Ipv6Addr)

/-- The forbidden ranges by their segments. -/
lemma forbiddenV6_iff : (∃ b ∈ forbiddenV6, b.Contains ip.toNat) ↔
    ip.toNat = 0 ∨ ip.toNat = 1 ∨ ip.a.toNat / 2 ^ 9 = 126 ∨ ip.a.toNat / 2 ^ 6 = 1018 ∨
    ip.a.toNat / 2 ^ 8 = 255 ∨ (ip.a.toNat = 0x2001 ∧ ip.b.toNat = 0xdb8) := by
  have := ip.segments_lt
  simp only [forbiddenV6, List.exists_mem_cons_iff, List.not_mem_nil, false_and, exists_false, or_false,
    block6, Block.Contains, Ipv6Addr.toNat, Nat.reducePow, Nat.reduceSub, Nat.reduceMul, Nat.reduceAdd,
    Nat.reduceDiv]
  omega

/-- A test of the high bits of a segment. -/
lemma and_eq_iff {x m v : UInt16} {k : Nat} (hk : k ≤ 16) (mask : m.toNat = 2 ^ 16 - 2 ^ k)
    (value : v.toNat % 2 ^ k = 0) : x &&& m = v ↔ x.toNat / 2 ^ k = v.toNat / 2 ^ k := by
  rw [← UInt16.toNat_inj, UInt16.toNat_and, mask, and_highMask x.toNat_lt hk]
  constructor
  · intro h
    rw [← h, Nat.mul_div_cancel _ (Nat.two_pow_pos k)]
  · intro h
    rw [h, Nat.div_mul_cancel (Nat.dvd_of_mod_eq_zero value)]

/-- The addresses that stand for IPv4 addresses. -/
lemma mapped_iff : mapped.Contains ip.toNat ↔ ip.toIpv4Mapped.isSome := by
  have := ip.segments_lt
  have split : ip.toIpv4Mapped.isSome ↔
      ip.a = 0 ∧ ip.b = 0 ∧ ip.c = 0 ∧ ip.d = 0 ∧ ip.e = 0 ∧ ip.f = 0xffff := by
    unfold Ipv6Addr.toIpv4Mapped
    split
    · rename_i h
      exact iff_of_true rfl h
    · rename_i h
      exact iff_of_false nofun h
  rw [split]
  simp only [mapped, block6, Block.Contains, Ipv6Addr.toNat, ← UInt16.toNat_inj, UInt16.toNat_ofNat]
  omega

/-- The IPv4 address of an IPv4-mapped one. -/
lemma toNat_toIpv4Mapped {v4 : Ipv4Addr} (h : ip.toIpv4Mapped = some v4) :
    v4.toNat = ip.toNat % 2 ^ 32 := by
  have := ip.segments_lt
  unfold Ipv6Addr.toIpv4Mapped at h
  split at h
  · rename_i zero
    cases h
    simp only [← UInt16.toNat_inj, UInt16.toNat_ofNat] at zero
    simp [Ipv4Addr.toNat, Ipv6Addr.toNat, UInt16.toNat_shiftRight, Nat.shiftRight_eq_div_pow]
    omega
  · nomatch h

/-- The tests of `is_blocked_v6` for an address that is not IPv4-mapped. -/
lemma isBlockedV6_unmapped (h : ip.toIpv4Mapped = none) :
    isBlockedV6 ip = true ↔ ∃ b ∈ forbiddenV6, b.Contains ip.toNat := by
  have := ip.segments_lt
  have zero : ip = ⟨0, 0, 0, 0, 0, 0, 0, 0⟩ ↔ ip.toNat = 0 := by
    simp only [Ipv6Addr.ext_iff, ← UInt16.toNat_inj, Ipv6Addr.toNat, UInt16.toNat_ofNat]
    omega
  have one : ip = ⟨0, 0, 0, 0, 0, 0, 0, 1⟩ ↔ ip.toNat = 1 := by
    simp only [Ipv6Addr.ext_iff, ← UInt16.toNat_inj, Ipv6Addr.toNat, UInt16.toNat_ofNat]
    omega
  -- the last test is among the others
  have fd00 : ip = ⟨0xfd00, 0, 0, 0, 0, 0, 0, 0⟩ → ip.a.toNat / 2 ^ 9 = 126 := by
    rintro rfl
    decide
  have multicast : ip.a &&& 0xff00 = 0xff00 ↔ ip.a.toNat / 2 ^ 8 = 255 :=
    and_eq_iff (k := 8) (by decide) rfl rfl
  have uniqueLocal : ip.a &&& 0xfe00 = 0xfc00 ↔ ip.a.toNat / 2 ^ 9 = 126 :=
    and_eq_iff (k := 9) (by decide) rfl rfl
  have linkLocal : ip.a &&& 0xffc0 = 0xfe80 ↔ ip.a.toNat / 2 ^ 6 = 1018 :=
    and_eq_iff (k := 6) (by decide) rfl rfl
  rw [forbiddenV6_iff, isBlockedV6, h]
  simp only [Ipv6Addr.isUnspecified, Ipv6Addr.isLoopback, Ipv6Addr.isMulticast, Ipv6Addr.isUniqueLocal,
    Bool.or_eq_true, Bool.and_eq_true, beq_iff_eq, zero, one, multicast, uniqueLocal, linkLocal]
  rw [← UInt16.toNat_inj, ← UInt16.toNat_inj]
  change (((((ip.toNat = 0 ∨ ip.toNat = 1) ∨ _) ∨ _) ∨ _) ∨ ip.a.toNat = 0x2001 ∧ ip.b.toNat = 0xdb8) ∨ _ ↔ _
  grind

/-- What `is_blocked_v6` knows of the forbidden addresses. -/
lemma isBlockedV6_iff : isBlockedV6 ip = true ↔ Forbidden (.v6 ip) ∧ ¬ Gap (.v6 ip) := by
  have m := mapped_iff ip
  cases e : ip.toIpv4Mapped with
  | none =>
    rw [e] at m
    have unmapped : ¬ mapped.Contains ip.toNat := fun h => nomatch m.mp h
    simp only [isBlockedV6_unmapped ip e, Forbidden, Gap, unmapped, false_and, or_false, not_false_eq_true,
      and_true]
  | some v4 =>
    have is : mapped.Contains ip.toNat := m.mpr (by rw [e]; rfl)
    have none6 : ¬ ∃ b ∈ forbiddenV6, b.Contains ip.toNat := by
      have := ip.segments_lt
      rw [forbiddenV6_iff]
      simp only [mapped, block6, Block.Contains, Ipv6Addr.toNat] at is ⊢
      omega
    have blocked : isBlockedV6 ip = isBlockedV4 v4 := by rw [isBlockedV6, e]
    simp only [blocked, isBlockedV4_iff, toNat_toIpv4Mapped ip e, Forbidden, Gap, is, none6, true_and,
      false_or]

end Segments

/-- What `is_blocked_ip` knows of the forbidden addresses. -/
lemma isBlockedIp_iff (ip : IpAddr) : isBlockedIp ip = true ↔ Forbidden ip ∧ ¬ Gap ip := by
  cases ip with
  | v4 ip => exact isBlockedV4_iff ip
  | v6 ip => exact isBlockedV6_iff ip

/-- What it does not know is forbidden too. -/
lemma Gap.forbidden {ip : IpAddr} (h : Gap ip) : Forbidden ip := by
  have v4 {n : Nat} (h : GapV4 n) : ∃ b ∈ forbiddenV4, b.Contains n := by
    obtain ⟨zero, _⟩ | ⟨high, _⟩ := h
    · exact ⟨_, .head _, zero⟩
    · exact ⟨_, .tail _ (.head _), high⟩
  cases ip with
  | v4 ip => exact v4 h
  | v6 ip => exact .inr ⟨h.1, v4 h.2⟩

/-! ## Connections -/

/-- The client connects to port 443 of an address its resolver has returned and that is not forbidden, and
it refuses to connect when all of them are. -/
def ConnectsPublic (client : SsrfSiteClient) (domain path : String) : Prop :=
  (∀ target, client.connects domain path = .ok target → ∃ ips, client.resolve domain = .ok ips ∧
    target.addr.port = 443 ∧ target.addr.ip ∈ ips ∧ ¬ Forbidden target.addr.ip) ∧
  ∀ ips, client.resolve domain = .ok ips → (∀ ip ∈ ips, Forbidden ip) →
    ∃ e, client.connects domain path = .error e

/-- The URL of an accepted domain and path. -/
lemma siteUrl_ok {domain path : String} {url : String × String} (h : siteUrl domain path = .ok url) :
    url = (domain, path) := by
  unfold siteUrl at h
  cases e : validateDomain domain with
  | error x =>
    rw [e] at h
    nomatch h
  | ok _ =>
    rw [e, ok_bind] at h
    split at h
    · nomatch h
    · exact (Except.ok.inj h).symm

/-- `request` connects to the first address that is not blocked. -/
lemma SsrfSiteClient.connects_eq {client : SsrfSiteClient} {domain path : String} {url : String × String}
    {ips : List IpAddr} (h : siteUrl domain path = .ok url) (resolved : client.resolve domain = .ok ips) :
    client.connects domain path = match ips.find? fun ip => !isBlockedIp ip with
      | some ip => .ok ⟨domain, path, pinnedSocket ip⟩
      | none => fail .domainVerificationFailed := by
  obtain rfl := siteUrl_ok h
  unfold SsrfSiteClient.connects pickPublicAddress
  simp only [h, ok_bind, resolved]
  cases e : ips.find? fun ip => !isBlockedIp ip with
  | none => rfl
  | some ip =>
    have free : isBlockedIp ip = false := by simpa using List.find?_some e
    simp only [ok_bind, free]
    rfl

/-- The first address that is not blocked is public when it is in no gap. -/
lemma find_public {ips : List IpAddr} {ip : IpAddr}
    (gaps : ∀ pre ip post, ips = pre ++ ip :: post → Gap ip → ∃ a ∈ pre, ¬ Forbidden a)
    (h : ips.find? (fun ip => !isBlockedIp ip) = some ip) : ¬ Forbidden ip := by
  obtain ⟨free, pre, post, split, blocked⟩ := List.find?_eq_some_iff_append.mp h
  intro forbidden
  have gap : Gap ip := by
    by_contra none
    simp [(isBlockedIp_iff ip).mpr ⟨forbidden, none⟩] at free
  obtain ⟨a, ha, pub⟩ := gaps pre ip post split gap
  exact pub ((isBlockedIp_iff a).mp (by simpa using blocked a ha)).1

/-- The relay connects to public addresses only exactly when the URL is refused, or every address of
`0.0.0.0/8` or `240.0.0.0/4` that is not blocked comes after a public one. -/
theorem connects_public_iff (client : SsrfSiteClient) (domain path : String) :
    ConnectsPublic client domain path ↔ (∃ e, siteUrl domain path = .error e) ∨
      ∀ ips, client.resolve domain = .ok ips → ∀ pre ip post, ips = pre ++ ip :: post → Gap ip →
        ∃ a ∈ pre, ¬ Forbidden a := by
  constructor
  · rintro ⟨connects, _⟩
    cases url : siteUrl domain path with
    | error e => exact .inl ⟨e, rfl⟩
    | ok url' =>
      refine .inr fun ips resolved pre ip post split gap => ?_
      have eq := client.connects_eq url resolved
      have free : isBlockedIp ip = false :=
        Bool.eq_false_iff.mpr fun h => ((isBlockedIp_iff ip).mp h).2 gap
      cases first : pre.find? fun ip => !isBlockedIp ip with
      | none =>
        -- the address itself is chosen
        rw [split, List.find?_append, first] at eq
        simp only [List.find?_cons, free, Bool.not_false, Option.none_or] at eq
        obtain ⟨_, _, _, _, pub⟩ := connects _ eq
        exact absurd gap.forbidden pub
      | some a =>
        rw [split, List.find?_append, first] at eq
        obtain ⟨_, _, _, _, pub⟩ := connects _ eq
        exact ⟨a, List.mem_of_find?_eq_some first, pub⟩
  · intro h
    have refused {e : RelayError} (url : siteUrl domain path = .error e) :
        client.connects domain path = .error e := by
      unfold SsrfSiteClient.connects
      rw [url]
      rfl
    obtain ⟨e, url⟩ | ⟨url', url⟩ : (∃ e, siteUrl domain path = .error e) ∨
        ∃ url, siteUrl domain path = .ok url := by
      cases siteUrl domain path with
      | error e => exact .inl ⟨e, rfl⟩
      | ok url => exact .inr ⟨url, rfl⟩
    · exact ⟨fun target ok => (nomatch (refused url).symm.trans ok), fun _ _ _ => ⟨e, refused url⟩⟩
    have gaps := h.resolve_left fun ⟨e, url'⟩ => nomatch url.symm.trans url'
    refine ⟨fun target ok => ?_, fun ips resolved all => ?_⟩
    · cases resolved : client.resolve domain with
      | error e =>
        have : client.connects domain path = .error e := by
          obtain rfl := siteUrl_ok url
          unfold SsrfSiteClient.connects
          simp only [url, ok_bind, resolved]
          rfl
        nomatch this.symm.trans ok
      | ok ips =>
        rw [client.connects_eq url resolved] at ok
        cases first : ips.find? fun ip => !isBlockedIp ip with
        | none =>
          rw [first] at ok
          nomatch ok
        | some ip =>
          rw [first] at ok
          cases ok
          exact ⟨ips, rfl, rfl, List.mem_of_find?_eq_some first, find_public (gaps ips resolved) first⟩
    · rw [client.connects_eq url resolved]
      cases first : ips.find? fun ip => !isBlockedIp ip with
      | none => exact ⟨_, rfl⟩
      | some ip =>
        exact absurd (all ip (List.mem_of_find?_eq_some first)) (find_public (gaps ips resolved) first)

/-- A resolver that returns a reserved address. -/
def reserved : SsrfSiteClient := ⟨fun _ => .ok [.v4 ⟨240, 0, 0, 1⟩]⟩

/-- The relay connects to a reserved address. -/
theorem connects_reserved : ¬ ∀ client domain path, ConnectsPublic client domain path := by
  intro claim
  have connects : reserved.connects "login.example.org" metadataPath =
      .ok ⟨"login.example.org", metadataPath, ⟨.v4 ⟨240, 0, 0, 1⟩, 443⟩⟩ := by decide +kernel
  obtain ⟨_, _, _, _, pub⟩ := (claim reserved _ _).1 _ connects
  exact pub ⟨block4 240 0 0 0 4, by decide, by decide⟩

end WebLoginRelay
