import EpollGateway.Http.Message

/-! # The request to a backend

What an `UpstreamExchange` is built from, and the bytes it writes to its backend:
`build_request` drops the headers that belong to the client's hop and frames the
body by its length.
-/

namespace EpollGateway.Upstream

open Bytes Http

/-- `UpstreamTlsOptions`. -/
structure UpstreamTlsOptions where
  enable : Bool := false
  caFile : Bytes := []
  serverName : Bytes := []
  skipVerify : Bool := false
deriving DecidableEq, Repr

/-- `UpstreamExchange::Params`. -/
structure Params where
  host : Bytes
  port : Nat := 0
  method : Bytes
  path : Bytes
  headers : Headers := ∅
  body : Bytes := []
  timeoutMs : Int := 5000
  maxResponseBytes : Nat := 0
  tls : UpstreamTlsOptions := {}

/-- `is_hop_by_hop_header`, for a name in lower case. -/
def isHopByHopHeader (lowerName : Bytes) : Bool :=
  lowerName ∈
    [ascii "connection", ascii "keep-alive", ascii "proxy-authenticate",
      ascii "proxy-authorization", ascii "proxy-connection", ascii "te", ascii "trailer",
      ascii "transfer-encoding", ascii "upgrade", ascii "host", ascii "content-length"]

/-- `connection_tokens`: the comma-separated elements of the Connection header,
trimmed and in lower case. -/
def connectionTokens (headers : Headers) : List Bytes :=
  match headers.lookup (ascii "connection") with
  | none => []
  | some value => ((value.splitOn 44).map fun t => lower (trim t)).filter (· ≠ [])

/-- The header lines that `build_request` passes on. -/
def forwardedEntries (headers : Headers) : List (Bytes × Bytes) :=
  (headers.entries.map fun h => (h.1, h.2)).filter fun h =>
    !(isHopByHopHeader (lower h.1) || lower h.1 ∈ connectionTokens headers)

/-- Whether the request gets a Content-Length. -/
def needsContentLength (p : Params) : Bool :=
  p.body ≠ [] || (p.headers.lookup (ascii "content-length")).isSome ||
    (p.headers.lookup (ascii "transfer-encoding")).isSome

/-- `UpstreamExchange::build_request`. -/
def buildRequest (p : Params) : Bytes :=
  p.method ++ [sp] ++ p.path ++ ascii " HTTP/1.1" ++ crlf ++
    (ascii "Host: " ++ p.host ++ [58] ++ decimal p.port ++ crlf) ++
    ((forwardedEntries p.headers).flatMap fun h => h.1 ++ ascii ": " ++ h.2 ++ crlf) ++
    (if needsContentLength p then ascii "Content-Length: " ++ decimal p.body.length ++ crlf
      else []) ++
    crlf ++ p.body

end EpollGateway.Upstream
