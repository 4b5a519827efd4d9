import EpollGateway.Lib.Bytes

/-! # HTTP messages

The two records that travel through the gateway. Header maps are finite maps
from names to values (`std::unordered_map` keeps one value for each name); the
request parser stores names in lower case, a response keeps the case it was
given.
-/

namespace EpollGateway.Http

open Bytes

/-- `std::unordered_map<std::string, std::string>`. -/
abbrev Headers := AList fun _ : Bytes => Bytes

/-- The parsed request. `traceId`, `host` and `tenant` are filled in by the
handler, the other fields by the parser. -/
structure HttpRequest where
  method : Bytes := []
  path : Bytes := []
  version : Bytes := []
  query : Bytes := []
  traceId : Bytes := []
  host : Bytes := []
  tenant : Bytes := []
  headers : Headers := ∅
  body : Bytes := []

/-- `HttpRequest::clear`. -/
def HttpRequest.clear (_ : HttpRequest) : HttpRequest := {}

/-- A response before framing. -/
structure HttpResponse where
  statusCode : Int := 200
  statusMessage : Bytes := ascii "OK"
  headers : Headers := ∅
  body : Bytes := []
  chunked : Bool := false

/-- `HttpHandler::headers_to_string`: status line, header lines, empty line. -/
def headersToString (resp : HttpResponse) : Bytes :=
  ascii "HTTP/1.1 " ++ intText resp.statusCode ++ [sp] ++ resp.statusMessage ++ crlf ++
    (resp.headers.entries.flatMap fun h => h.1 ++ ascii ": " ++ h.2 ++ crlf) ++ crlf

end EpollGateway.Http
