import WebLoginRelay.Net.Responses
import WebLoginRelay.Outbound.SiteClient
import WebLoginRelay.Outbound.Ssrf

/-!
# The exchange with a site

The rest of `SsrfSiteClient::request` in `src/outbound/site_client.rs`: what is written to the site once the
connection is up, and `parse_http_response`, which reads what the site has sent when it closes the connection.
-/

namespace WebLoginRelay
open Text Net

/-- The name of a method. -/
def HttpMethod.name : HttpMethod → String
  | .get => "GET"
  | .post => "POST"

/-- The request line and the headers that `SsrfSiteClient::request` formats. -/
def requestHead (method path host : String) (extraHeaders : List (String × String)) (body : Bytes) : String :=
  let request := method ++ " " ++ path ++ " HTTP/1.1\r\nHost: " ++ host ++
    "\r\nAccept: application/json\r\nConnection: close\r\n"
  let request :=
    if !body.isEmpty then
      request ++ "Content-Type: application/json\r\n" ++ ("Content-Length: " ++ toString body.length ++ "\r\n")
    else request
  extraHeaders.foldl (fun request h => request ++ (h.1 ++ ": " ++ h.2 ++ "\r\n")) request ++ "\r\n"

/-- What `SsrfSiteClient::request` writes to the site it has connected to. -/
def SsrfSiteClient.writes (client : SsrfSiteClient) (r : SiteRequest) : Except RelayError Bytes := do
  let target ← client.connects r.domain r.path
  return asBytes (requestHead r.method.name target.path target.host r.extraHeaders r.body) ++ r.body

/-- `.ok_or(RelayError::problem(ProblemCode::DomainVerificationFailed))`. -/
def orDomainFailed {α} : Option α → Except RelayError α
  | some a => .ok a
  | none => fail .domainVerificationFailed

/-- The status in a status line: its second word. -/
def readStatus (statusLine : Bytes) : Option UInt16 := do
  let line ← fromUtf8 statusLine
  let word ← (splitWhitespace line)[1]?
  parseU16 word

/-- `parse_http_response`. -/
def parseHttpResponse (raw : Bytes) (maxBody : Nat) : Except RelayError SiteResponse := do
  let text ← orDomainFailed (fromUtf8 raw)
  let (header, body) ← orDomainFailed (splitOnce (asBytes "\r\n\r\n") (asBytes text))
  let lines := split (asBytes "\r\n") header
  let statusLine ← orDomainFailed lines.head?
  let status ← orDomainFailed (readStatus statusLine)
  let redirected := lines.tail.any fun line => (asBytes "location:").isPrefixOf (toAsciiLowercase line)
  if redirected ∨ (300 ≤ status ∧ status < 400) then fail .domainVerificationFailed
  else if body.length > maxBody then fail .domainVerificationFailed
  else return ⟨status, body⟩

end WebLoginRelay
