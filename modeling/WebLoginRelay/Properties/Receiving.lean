import WebLoginRelay.Outbound.Receive
import WebLoginRelay.Properties.RequestHeads
import WebLoginRelay.Properties.ResponseFraming

/-!
# Reading what a site sends

A site cuts what it sends as it likes, and may never stop. The relay gets the same bytes however they are cut,
and gives up on a site that sends too many of them after a number of reads that the limit of the body gives.
-/

namespace WebLoginRelay
open Text Net.Http

/-- The reads from the `i`th on give the chunks, and then the end. -/
inductive Connection.SendsFrom (conn : Connection) : Nat → Bytes → Prop
  | close {i} : conn i = .bytes [] → SendsFrom conn i []
  | chunk {i b bs rest} : conn i = .bytes (b :: bs) → SendsFrom conn (i + 1) rest →
      SendsFrom conn i (b :: bs ++ rest)

/-- The site sends these bytes and closes the connection. The first read may be empty. -/
def Connection.Sends (conn : Connection) (raw : Bytes) : Prop :=
  ∃ first rest, conn 0 = .bytes first ∧ conn.SendsFrom 1 rest ∧ raw = first ++ rest

/-- The loop comes to its `i`th read with this buffer. -/
inductive Connection.Buffers (conn : Connection) (maxBody : Nat) : Nat → Bytes → Prop
  | first {bs} : conn 0 = .bytes bs → Buffers conn maxBody 1 bs
  | more {i buf b bs} : Buffers conn maxBody i buf → buf.length ≤ maxBody + 1024 → conn i = .bytes (b :: bs) →
      Buffers conn maxBody (i + 1) (buf ++ b :: bs)

namespace Connection
variable {conn conn' : Connection} {maxBody i : Nat} {buf raw : Bytes}

/-- A connection sends one sequence of bytes. -/
lemma SendsFrom.unique {rest rest' : Bytes} (sends : conn.SendsFrom i rest) (sends' : conn.SendsFrom i rest') :
    rest = rest' := by
  induction sends generalizing rest' with
  | close close =>
    cases sends' with
    | close _ => rfl
    | chunk chunk _ => rw [close] at chunk; cases chunk
  | chunk chunk _ ih =>
    cases sends' with
    | close close => rw [chunk] at close; cases close
    | chunk chunk' sends' =>
      rw [chunk] at chunk'
      cases chunk'
      rw [ih sends']

/-- A connection sends one text. -/
lemma Sends.unique {raw' : Bytes} (sends : conn.Sends raw) (sends' : conn.Sends raw') : raw = raw' := by
  obtain ⟨first, rest, e, sends, rfl⟩ := sends
  obtain ⟨first', rest', e', sends', rfl⟩ := sends'
  rw [e] at e'
  cases e'
  rw [sends.unique sends']

/-- The loop fails at a buffer above the limit. -/
lemma receiveLoop_long (long : maxBody + 1024 < buf.length) :
    conn.receiveLoop maxBody i buf = fail .domainVerificationFailed := by
  rw [receiveLoop, if_pos long]

/-- The loop ends when the connection is closed. -/
lemma receiveLoop_close (short : ¬ maxBody + 1024 < buf.length) (close : conn i = .bytes []) :
    conn.receiveLoop maxBody i buf = .ok buf := by
  rw [receiveLoop, if_neg short, close]

/-- The loop goes on after a read. -/
lemma receiveLoop_chunk {b bs} (short : ¬ maxBody + 1024 < buf.length) (chunk : conn i = .bytes (b :: bs)) :
    conn.receiveLoop maxBody i buf = conn.receiveLoop maxBody (i + 1) (buf ++ b :: bs) := by
  rw [receiveLoop, if_neg short, chunk]

/-- The loop fails with the connection. -/
lemma receiveLoop_failed (failed : conn i = .failed) :
    conn.receiveLoop maxBody i buf = fail .domainVerificationFailed := by
  rw [receiveLoop]
  split
  · rfl
  · rw [failed]

/-- What the loop returns was sent, and keeps to the limit. -/
lemma receiveLoop_sound (received : conn.receiveLoop maxBody i buf = .ok raw) :
    raw.length ≤ maxBody + 1024 ∧ ∃ rest, conn.SendsFrom i rest ∧ raw = buf ++ rest := by
  fun_induction receiveLoop conn maxBody i buf with
  | case1 i buf long => cases received
  | case2 i buf short close =>
    cases received
    exact ⟨Nat.le_of_not_lt short, [], .close close, (List.append_nil _).symm⟩
  | case3 i buf short b bs chunk ih =>
    obtain ⟨limit, rest, sends, e⟩ := ih received
    refine ⟨limit, b :: bs ++ rest, .chunk chunk sends, ?_⟩
    rw [e, List.append_assoc]
  | case4 i buf short failed => cases received

/-- What is sent within the limit is returned. The limit holds of each buffer on the way. -/
lemma receiveLoop_complete {rest : Bytes} (sends : conn.SendsFrom i rest) :
    ∀ {buf : Bytes}, (buf ++ rest).length ≤ maxBody + 1024 →
      conn.receiveLoop maxBody i buf = .ok (buf ++ rest) := by
  induction sends with
  | close close =>
    intro buf limit
    rw [List.append_nil] at limit ⊢
    exact receiveLoop_close (Nat.not_lt_of_le limit) close
  | @chunk i b bs rest chunk sends ih =>
    intro buf limit
    have short : ¬ maxBody + 1024 < buf.length := by
      rw [List.length_append] at limit
      omega
    have same : buf ++ (b :: bs ++ rest) = buf ++ b :: bs ++ rest := (List.append_assoc ..).symm
    rw [same] at limit ⊢
    rw [receiveLoop_chunk short chunk]
    exact ih limit

/-- The relay gets what the site sends within the limit, and nothing else. -/
lemma receive_iff : conn.receive maxBody = .ok raw ↔ conn.Sends raw ∧ raw.length ≤ maxBody + 1024 := by
  rw [receive]
  constructor
  · intro received
    split at received
    · rename_i first e
      obtain ⟨limit, rest, sends, same⟩ := receiveLoop_sound received
      exact ⟨⟨first, rest, e, sends, same⟩, limit⟩
    · cases received
  · rintro ⟨⟨first, rest, e, sends, rfl⟩, limit⟩
    rw [e]
    exact receiveLoop_complete sends limit

/-- Each read of the loop brings a byte, so the loop stops before the limit is read that often. -/
lemma receiveLoop_congr (reads : i ≤ buf.length + 1) (same : ∀ k < maxBody + 1026, conn' k = conn k) :
    conn'.receiveLoop maxBody i buf = conn.receiveLoop maxBody i buf := by
  fun_induction receiveLoop conn maxBody i buf with
  | case1 i buf long => exact receiveLoop_long long
  | case2 i buf short close => exact receiveLoop_close short ((same i (by omega)).trans close)
  | case3 i buf short b bs chunk ih =>
    rw [receiveLoop_chunk short ((same i (by omega)).trans chunk)]
    apply ih
    rw [List.length_append, List.length_cons]
    omega
  | case4 i buf short failed => exact receiveLoop_failed ((same i (by omega)).trans failed)

/-- Only the first reads matter. -/
lemma receive_congr (same : ∀ k < maxBody + 1026, conn' k = conn k) :
    conn'.receive maxBody = conn.receive maxBody := by
  rw [receive, receive, same 0 (by omega)]
  cases conn 0 with
  | bytes first => exact receiveLoop_congr (by omega) same
  | failed => rfl

namespace Buffers

/-- These are the calls the loop makes of itself. -/
lemma receive_eq (held : conn.Buffers maxBody i buf) : conn.receive maxBody = conn.receiveLoop maxBody i buf := by
  induction held with
  | first e => rw [receive, e]
  | more _ short chunk ih => rw [ih, receiveLoop_chunk (Nat.not_lt_of_le short) chunk]

/-- There are no more reads than bytes, and one. -/
lemma reads_le (held : conn.Buffers maxBody i buf) : i ≤ buf.length + 1 := by
  induction held with
  | first _ => omega
  | more _ _ _ ih =>
    rw [List.length_append, List.length_cons]
    omega

/-- No buffer passes the limit by more than one read. -/
lemma length_le {size : Nat} (fits : ∀ k bs, conn k = .bytes bs → bs.length ≤ size)
    (held : conn.Buffers maxBody i buf) : buf.length ≤ maxBody + 1024 + size := by
  cases held with
  | first e =>
    have bound := fits 0 _ e
    omega
  | more held limit e =>
    have bound := fits _ _ e
    rw [List.length_append]
    omega

end Buffers

end Connection

/-- What the relay gets from a connection depends on the bytes alone and not on how they are cut. Whatever a
site sends, the relay stops after a number of reads that the limit gives, and holds no more than one read
over it. -/
theorem reads_are_bounded (conn : Connection) (maxBody : Nat) :
    (∀ raw, conn.receive maxBody = .ok raw ↔ conn.Sends raw ∧ raw.length ≤ maxBody + 1024) ∧
    (∀ conn' : Connection, (∀ k < maxBody + 1026, conn' k = conn k) →
      conn'.receive maxBody = conn.receive maxBody) ∧
    ∀ size, (∀ k bs, conn k = .bytes bs → bs.length ≤ size) → ∀ i buf, conn.Buffers maxBody i buf →
      conn.receive maxBody = conn.receiveLoop maxBody i buf ∧ i ≤ buf.length + 1 ∧
        buf.length ≤ maxBody + 1024 + size := by
  refine ⟨fun raw => Connection.receive_iff, fun conn' same => Connection.receive_congr same, ?_⟩
  intro size fits i buf held
  exact ⟨held.receive_eq, held.reads_le, held.length_le fits⟩

/-- What is written to a site that can be connected to. -/
lemma SsrfSiteClient.writes_eq {client : SsrfSiteClient} {r : SiteRequest} {target : SafeTarget}
    (connects : client.connects r.domain r.path = .ok target) : client.writes r =
      .ok (asBytes (requestHead r.method.name target.path target.host r.extraHeaders r.body) ++ r.body) := by
  rw [SsrfSiteClient.writes, connects, ok_bind]
  rfl

/-- The response to a request, when the site answers with a head and a payload. The head counts against the
limit of the bytes read, and the payload against that of the body. -/
theorem responses_however_cut {client : SsrfSiteClient} {network : Network} {r : SiteRequest} {written : Bytes}
    {target : SafeTarget} {conn : Connection} {h : ResponseHead} {payload : Bytes}
    (connects : client.connects r.domain r.path = .ok target) (writes : client.writes r = .ok written)
    (connected : network target written = some conn) (wf : h.WellFormed) (sends : conn.Sends (h.write ++ payload))
    (response : SiteResponse) :
    client.request network r = .ok response ↔
      IsUtf8 (h.write ++ payload) ∧ ¬ h.HasLocation ∧ ¬ (300 ≤ h.status ∧ h.status < 400) ∧
        payload.length ≤ r.maxBody ∧ (h.write ++ payload).length ≤ r.maxBody + 1024 ∧
        response = ⟨.ofNat h.status, payload⟩ := by
  have text := Except.ok.inj ((SsrfSiteClient.writes_eq connects).symm.trans writes)
  rw [SsrfSiteClient.request, connects]
  simp only [ok_bind, text, connected, orDomainFailed]
  by_cases limit : (h.write ++ payload).length ≤ r.maxBody + 1024
  · rw [Connection.receive_iff.mpr ⟨sends, limit⟩, ok_bind, parseHttpResponse_iff wf]
    simp only [limit, true_and]
  · constructor
    · intro answered
      obtain ⟨buf, received, -⟩ := bind_ok answered
      obtain ⟨sent, short⟩ := Connection.receive_iff.mp received
      rw [sends.unique sent] at limit
      exact absurd short limit
    · rintro ⟨-, -, -, -, short, -⟩
      exact absurd short limit

namespace Sample

/-- The site sends the head of the response with a `Content-Length` and then its payload. -/
def answering : Connection
  | 0 => .bytes plainResponse.head.write
  | 1 => .bytes plainResponse.payload
  | _ => .bytes []

/-- The sample connection sends the plain response. -/
lemma answering_sends : answering.Sends (plainResponse.head.write ++ plainResponse.payload) :=
  ⟨_, _, rfl, .chunk rfl (.close rfl), rfl⟩

/-- The sample client connects to the sample site. -/
lemma client_connects : client.connects delivery.domain delivery.path =
    .ok ⟨"a.io", assertionPath, pinnedSocket (.v4 ⟨1, 1, 1, 1⟩)⟩ := by
  have domain : validateDomain "a.io" = .ok () := by decide +kernel
  have url : siteUrl delivery.domain delivery.path = .ok ("a.io", assertionPath) := by
    rw [siteUrl, delivery, domain, ok_bind]
    rfl
  rw [SsrfSiteClient.connects, url, ok_bind]
  rfl

end Sample

/-- It is read to the end. -/
theorem reads_are_bounded_answering :
    Sample.answering.receive maxMetadataBytes = .ok (Sample.plainResponse.head.write ++ Sample.plainResponse.payload) :=
  ((reads_are_bounded Sample.answering maxMetadataBytes).1 _).mpr ⟨Sample.answering_sends, by decide⟩

/-- The delivery is answered with the payload. -/
theorem responses_however_cut_answering :
    Sample.client.request (fun _ _ => some Sample.answering) Sample.delivery = .ok ⟨200, asBytes "{}"⟩ := by
  have head : IsUtf8 (Sample.plainResponse.head.write ++ Sample.plainResponse.payload) :=
    ⟨"HTTP/1.1 200 OK\r\nContent-Length: 2\r\n\r\n{}", by decide⟩
  have location : ¬ Sample.plainResponse.head.HasLocation := by
    rintro ⟨f, hf, named⟩
    rw [List.mem_singleton.mp hf] at named
    exact absurd named (by decide)
  have connects := Sample.client_connects
  apply (responses_however_cut connects (SsrfSiteClient.writes_eq connects) rfl
    Sample.plainResponse_wellFormed.head Sample.answering_sends _).mpr
  exact ⟨head, location, by decide, by decide, by decide, rfl⟩

end WebLoginRelay
