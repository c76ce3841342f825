import WebLoginRelay.Outbound.Exchange

/-!
# What a site sends

The loop of `SsrfSiteClient::request` in `src/outbound/site_client.rs` that reads until the site closes the
connection, and the whole request over it.
-/

namespace WebLoginRelay
open Text

/-- What a read gives. -/
inductive Arrival where
  /-- `Ok(n)`, with the bytes read. There are none once the site has closed the connection. -/
  | bytes (bs : Bytes)
  /-- An error, or a timeout that passes while the relay waits. -/
  | failed
  deriving DecidableEq, Repr

/-- A connection, by what its reads give one after the other. -/
abbrev Connection := Nat → Arrival

/-- The `loop` of `SsrfSiteClient::request` from its `i`th read. -/
def Connection.receiveLoop (conn : Connection) (maxBody i : Nat) (buf : Bytes) : Except RelayError Bytes :=
  if maxBody + 1024 < buf.length then fail .domainVerificationFailed
  else
    match conn i with
    | .bytes [] => .ok buf
    | .bytes (b :: bs) => receiveLoop conn maxBody (i + 1) (buf ++ b :: bs)
    | .failed => fail .domainVerificationFailed
termination_by maxBody + 1025 - buf.length
decreasing_by
  rw [List.length_append, List.length_cons]
  omega

/-- The reads of `SsrfSiteClient::request`: one with `read_buf`, and then the loop. -/
def Connection.receive (conn : Connection) (maxBody : Nat) : Except RelayError Bytes :=
  match conn 0 with
  | .bytes buf => conn.receiveLoop maxBody 1 buf
  | .failed => fail .domainVerificationFailed

/-- The network: the connection to a target over TLS once the request is written to it, if nothing fails. -/
abbrev Network := SafeTarget → Bytes → Option Connection

/-- `SsrfSiteClient::request`. -/
def SsrfSiteClient.request (client : SsrfSiteClient) (network : Network) (r : SiteRequest) :
    Except RelayError SiteResponse := do
  let target ← client.connects r.domain r.path
  let head := requestHead r.method.name target.path target.host r.extraHeaders r.body
  let conn ← orDomainFailed (network target (asBytes head ++ r.body))
  let buf ← conn.receive r.maxBody
  parseHttpResponse buf r.maxBody

end WebLoginRelay
