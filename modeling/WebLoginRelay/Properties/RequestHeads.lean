import WebLoginRelay.Net.Http
import WebLoginRelay.Outbound.Exchange
import WebLoginRelay.Properties.DomainNames

/-!
# The requests the relay writes

A request is one HTTP request with the method, the path and the headers the relay intends, and nothing in a
domain or in a `jti` can add to it.
-/

namespace WebLoginRelay
open Text Net Net.Http

/-- The requests of `fetch_metadata`, and of `post_json` for a delivery. -/
inductive IsRelayRequest : SiteRequest → Prop where
  | metadata (domain : String) : IsRelayRequest ⟨domain, metadataPath, .get, [], [], maxMetadataBytes⟩
  | delivery (domain path : String) (body : Bytes) (jti : String) (fixed : path = assertionPath ∨ path = revocationPath)
      (safe : ∀ c ∈ jti.toList, isUrlSafe c) :
      IsRelayRequest ⟨domain, path, .post, [("Idempotency-Key", jti)], body, maxSiteResponseBytes⟩

/-- The headers the relay intends. -/
def SiteRequest.headers (r : SiteRequest) : List (String × String) :=
  [("Host", r.domain), ("Accept", "application/json"), ("Connection", "close")] ++
    (if r.body = [] then [] else
      [("Content-Type", "application/json"), ("Content-Length", toString r.body.length)]) ++ r.extraHeaders

/-- The head the relay intends. -/
def SiteRequest.intended (r : SiteRequest) : RequestHead where
  method := asBytes r.method.name
  target := asBytes r.path
  fields := r.headers.map fun h => (asBytes h.1, asBytes h.2)

/-- The lines of headers. -/
lemma asBytes_headers (hs : List (String × String)) (request : String) :
    asBytes (hs.foldl (fun request h => request ++ (h.1 ++ ": " ++ h.2 ++ "\r\n")) request) =
      asBytes request ++ (hs.map fun h => (asBytes h.1, asBytes h.2)).flatMap writeField := by
  have colon : asBytes ": " = [58, 32] := rfl
  have ending : asBytes "\r\n" = crlf := rfl
  induction hs generalizing request with
  | nil => simp
  | cons h hs ih =>
    rw [List.foldl_cons, ih]
    simp [asBytes_append, colon, ending, writeField]

/-- The formatted head is the intended one. -/
lemma asBytes_requestHead (r : SiteRequest) :
    asBytes (requestHead r.method.name r.path r.domain r.extraHeaders r.body) = r.intended.write := by
  have ending : asBytes "\r\n" = crlf := rfl
  have blank : asBytes " " = [32] := rfl
  have host : asBytes " HTTP/1.1\r\nHost: " = 32 :: asBytes "HTTP/1.1" ++ crlf ++ asBytes "Host" ++ [58, 32] := rfl
  have fixed : asBytes "\r\nAccept: application/json\r\nConnection: close\r\n" =
      crlf ++ writeField (asBytes "Accept", asBytes "application/json") ++
        writeField (asBytes "Connection", asBytes "close") := rfl
  have type : asBytes "Content-Type: application/json\r\n" =
      writeField (asBytes "Content-Type", asBytes "application/json") := rfl
  have length : asBytes "Content-Length: " = asBytes "Content-Length" ++ [58, 32] := rfl
  have named (name value : String) :
      writeField (asBytes name, asBytes value) = asBytes name ++ [58, 32] ++ asBytes value ++ crlf := by
    simp [writeField]
  have first := named "Host" r.domain
  unfold requestHead
  rw [asBytes_append, asBytes_headers, ending]
  cases empty : r.body with
  | nil =>
    simp only [RequestHead.write, SiteRequest.intended, SiteRequest.headers, empty, List.map_append,
      List.map_cons, List.map_nil, List.flatMap_append, List.flatMap_cons, List.flatMap_nil, first,
      List.isEmpty_nil]
    simp [asBytes_append, blank, host, fixed]
  | cons b body =>
    have second := named "Content-Length" (body.length + 1).repr
    simp only [RequestHead.write, SiteRequest.intended, SiteRequest.headers, empty, List.map_append,
      List.map_cons, List.map_nil, List.flatMap_append, List.flatMap_cons, List.flatMap_nil, first,
      List.isEmpty_cons]
    simp [asBytes_append, ending, blank, host, fixed, type, length, second]

/-- Visible ASCII characters are a header value. -/
lemma isValue_of_visible {s : String} (h : ∀ c ∈ s.toList, 33 ≤ c.toNat ∧ c.toNat < 127) : IsValue (asBytes s) := by
  have ascii : ∀ c ∈ s.toList, c.toNat < 128 := by
    intro c hc
    have := h c hc
    omega
  have bytes := asBytes_ascii ascii
  rw [String.ofList_toList] at bytes
  have visible : ∀ b ∈ asBytes s, 33 ≤ b.toNat ∧ b.toNat < 127 := by
    intro b hb
    rw [bytes] at hb
    obtain ⟨c, hc, rfl⟩ := List.mem_map.mp hb
    have range := h c hc
    rw [UInt8.toNat_ofNat']
    omega
  have field : ∀ b ∈ asBytes s, isFieldByte b := by
    intro b hb
    obtain ⟨lo, hi⟩ := visible b hb
    have low : (32 : UInt8) ≤ b := UInt8.le_iff_toNat_le.mpr (Nat.le_of_lt lo)
    have del : b ≠ 127 := by
      rintro rfl
      exact absurd hi (by decide)
    simp [isFieldByte, low, del]
  have black : ∀ b ∈ asBytes s, ¬ isOws b := by
    intro b hb ows
    have lo := (visible b hb).1
    simp only [isOws, Bool.or_eq_true, beq_iff_eq] at ows
    obtain rfl | rfl := ows
    · exact absurd lo (by decide)
    · exact absurd lo (by decide)
  exact ⟨field, fun b hb => black b (List.mem_of_mem_head? hb), fun b hb => black b (List.mem_of_mem_getLast? hb)⟩

/-- Characters of base64url are visible. -/
lemma isUrlSafe_toNat {c : Char} (h : isUrlSafe c) : 33 ≤ c.toNat ∧ c.toNat < 127 := by
  simp only [isUrlSafe, isLower, isDigit, Bool.or_eq_true, Bool.and_eq_true, decide_eq_true_eq, beq_iff_eq,
    Char.le_def, UInt32.le_iff_toNat_le] at h
  have v : c.val.toNat = c.toNat := rfl
  have A : ('A' : Char).val.toNat = 65 := rfl
  have Z : ('Z' : Char).val.toNat = 90 := rfl
  have a : ('a' : Char).val.toNat = 97 := rfl
  have z : ('z' : Char).val.toNat = 122 := rfl
  have zero : ('0' : Char).val.toNat = 48 := rfl
  have nine : ('9' : Char).val.toNat = 57 := rfl
  obtain (((h | h) | h) | rfl) | rfl := h
  · omega
  · omega
  · omega
  · decide
  · decide

/-- The decimal digits of a number are a header value. -/
lemma isValue_toString (n : Nat) : IsValue (asBytes (toString n)) := by
  apply isValue_of_visible
  intro c hc
  have mem : c ∈ Nat.toDigits 10 n := by simpa using hc
  have digit : c.isDigit := Nat.isDigit_of_mem_toDigits (by decide) (by decide) mem
  simp only [Char.isDigit, Bool.and_eq_true, decide_eq_true_eq, ge_iff_le, UInt32.le_iff_toNat_le] at digit
  have v : c.val.toNat = c.toNat := rfl
  have zero : ('0' : Char).val.toNat = 48 := rfl
  have nine : ('9' : Char).val.toNat = 57 := rfl
  omega

/-- The intended head of a request for an accepted domain is well formed. -/
lemma IsRelayRequest.wellFormed {r : SiteRequest} (h : IsRelayRequest r) (domain : IsDomainName r.domain) :
    r.intended.WellFormed := by
  have host : IsValue (asBytes r.domain) := by
    apply isValue_of_visible
    intro c hc
    have range := domainChar_toNat (domain.chars c hc)
    have dash : c.toNat ≠ 127 := by
      intro e
      have del : c = Char.ofNat 127 := by rw [← e, Char.ofNat_toNat]
      have chars := domain.chars c hc
      rw [del] at chars
      exact absurd chars (by decide)
    omega
  have token {s : String} (h : asBytes s ≠ [] ∧ (asBytes s).all isTchar) : IsToken (asBytes s) :=
    ⟨h.1, List.all_eq_true.mp h.2⟩
  have value {s : String} (h : s.toList.all fun c => decide (33 ≤ c.toNat ∧ c.toNat < 127)) :
      IsValue (asBytes s) :=
    isValue_of_visible fun c hc => of_decide_eq_true (List.all_eq_true.mp h c hc)
  have common : ∀ f ∈ ([("Host", r.domain), ("Accept", "application/json"), ("Connection", "close")] :
      List (String × String)), IsToken (asBytes f.1) ∧ IsValue (asBytes f.2) := by
    simp only [List.forall_mem_cons]
    exact ⟨⟨token (by decide), host⟩, ⟨token (by decide), value (by decide)⟩,
      ⟨token (by decide), value (by decide)⟩, nofun⟩
  have content : ∀ f ∈ (if r.body = [] then [] else
      [("Content-Type", "application/json"), ("Content-Length", toString r.body.length)] : List (String × String)),
      IsToken (asBytes f.1) ∧ IsValue (asBytes f.2) := by
    split
    · nofun
    · simp only [List.forall_mem_cons]
      exact ⟨⟨token (by decide), value (by decide)⟩, ⟨token (by decide), isValue_toString _⟩, nofun⟩
  have extra : ∀ f ∈ r.extraHeaders, IsToken (asBytes f.1) ∧ IsValue (asBytes f.2) := by
    cases h with
    | metadata domain => nofun
    | delivery domain path body jti fixed safe =>
      simp only [List.forall_mem_cons]
      exact ⟨⟨token (by decide), isValue_of_visible fun c hc => isUrlSafe_toNat (safe c hc)⟩, nofun⟩
  have methods : ∀ m : HttpMethod, IsToken (asBytes m.name)
    | .get => token (by decide)
    | .post => token (by decide)
  have visible {s : String} (h : asBytes s ≠ [] ∧ (asBytes s).all isVisible) :
      asBytes s ≠ [] ∧ ∀ b ∈ asBytes s, isVisible b :=
    ⟨h.1, List.all_eq_true.mp h.2⟩
  have path : asBytes r.path ≠ [] ∧ ∀ b ∈ asBytes r.path, isVisible b := by
    cases h with
    | metadata domain =>
      apply visible (s := metadataPath)
      decide
    | delivery domain path body jti fixed safe =>
      obtain rfl | rfl := fixed
      · apply visible (s := assertionPath)
        decide
      · apply visible (s := revocationPath)
        decide
  refine ⟨methods r.method, path, ?_⟩
  · intro f hf
    obtain ⟨p, hp, rfl⟩ := List.mem_map.mp hf
    obtain hp | hp := List.mem_append.mp hp
    · obtain hp | hp := List.mem_append.mp hp
      · exact common p hp
      · exact content p hp
    · exact extra p hp

/-- The requests the relay writes are written to a domain name. -/
lemma SsrfSiteClient.writes_ok {client : SsrfSiteClient} {r : SiteRequest} {bytes : Bytes}
    (h : client.writes r = .ok bytes) : IsDomainName r.domain ∧ bytes = r.intended.write ++ r.body := by
  obtain ⟨target, connected, h⟩ := bind_ok h
  obtain ⟨url, accepted, connected⟩ := bind_ok connected
  obtain ⟨ips, _, connected⟩ := bind_ok connected
  obtain ⟨ip, _, connected⟩ := bind_ok connected
  obtain ⟨_, valid, accepted⟩ := bind_ok accepted
  split at connected
  · nomatch connected
  · split at accepted
    · nomatch accepted
    · cases accepted
      cases connected
      cases h
      refine ⟨validateDomain_iff.mp valid, ?_⟩
      rw [← asBytes_requestHead]

/-- Exactly the domain names are accepted; and what the relay writes for a request of `fetch_metadata` or of
a delivery is one request with the intended head, followed by the body and by nothing else. -/
theorem requests_are_exact : (∀ s, validateDomain s = .ok () ↔ IsDomainName s) ∧
    ∀ (client : SsrfSiteClient) (r : SiteRequest) (bytes : Bytes), IsRelayRequest r →
      client.writes r = .ok bytes → parseRequest bytes = some (r.intended, r.body) := by
  refine ⟨fun s => validateDomain_iff, ?_⟩
  intro client r bytes relay written
  obtain ⟨domain, rfl⟩ := client.writes_ok written
  exact parseRequest_writeHead (relay.wellFormed domain) r.body

/-- A client whose resolver answers with a public address. -/
def Sample.client : SsrfSiteClient := ⟨fun _ => .ok [.v4 ⟨1, 1, 1, 1⟩]⟩

/-- A delivery. -/
def Sample.delivery : SiteRequest :=
  ⟨"a.io", assertionPath, .post, [("Idempotency-Key", "AAECAwQFBgcICQoLDA0ODw")], asBytes "body", maxSiteResponseBytes⟩

/-- The delivery is one request. -/
theorem requests_are_exact_delivery : ∃ bytes, Sample.client.writes Sample.delivery = .ok bytes ∧
    parseRequest bytes = some (Sample.delivery.intended, asBytes "body") := by
  have domain : validateDomain "a.io" = .ok () := by decide +kernel
  have written : Sample.client.writes Sample.delivery = .ok (Sample.delivery.intended.write ++ asBytes "body") := by
    have url : siteUrl "a.io" assertionPath = .ok ("a.io", assertionPath) := by
      rw [siteUrl, domain, ok_bind]
      rfl
    have target : Sample.client.connects "a.io" assertionPath =
        .ok ⟨"a.io", assertionPath, pinnedSocket (.v4 ⟨1, 1, 1, 1⟩)⟩ := by
      rw [SsrfSiteClient.connects, url, ok_bind]
      rfl
    have head := asBytes_requestHead Sample.delivery
    rw [← head]
    unfold SsrfSiteClient.writes
    have args : Sample.client.connects Sample.delivery.domain Sample.delivery.path =
        .ok ⟨"a.io", assertionPath, pinnedSocket (.v4 ⟨1, 1, 1, 1⟩)⟩ := target
    rw [args, ok_bind]
    rfl
  exact ⟨_, written, requests_are_exact.2 _ _ _ (.delivery _ _ _ _ (.inl rfl) (List.all_eq_true.mp (by decide))) written⟩

end WebLoginRelay
