import EpollGateway.Http.Message
import EpollGateway.Lib.Feed
import EpollGateway.Lib.SizeT

/-! # The request parser

`HttpParser::parse` is a loop over the bytes of a buffer whose body is a switch
on the parser state. `HttpParser.step` is that loop body: it takes one byte and
answers what the loop does next (`more`: next byte, `accept`: `return true`,
`reject`: `return false` after `fail`, `halt`: the `break` taken in the state
`DONE`). `HttpParser.parse` is the loop itself.
-/

namespace EpollGateway.Http

open Bytes Feed

/-- `HttpParser::State`. -/
inductive State where
  | method | path | version | query | header | chunkedBody | body | done
deriving DecidableEq, Repr

/-- `HttpParser::ChunkState`. -/
inductive ChunkState where
  | size | data | trailer | done
deriving DecidableEq, Repr

/-- `HttpParser::ParseError`. -/
inductive ParseError where
  | none
  | bodyTooLarge
  | duplicateContentLength
  | clTeConflict
  | invalidTransferEncoding
  | invalidContentLength
  | invalidHeader
  | invalidChunkSize
  | requestLineTooLong
  | headerTooLong
  | headersTooLarge
deriving DecidableEq, Repr

def maxBodySize : Nat := 1024 * 1024
def maxRequestLineSize : Nat := 8 * 1024
def maxHeaderLineSize : Nat := 8 * 1024
def maxHeadersSize : Nat := 64 * 1024

structure HttpParser where
  state : State := .method
  buffer : Bytes := []
  contentLength : Nat := 0
  bodyRead : Nat := 0
  headersRead : Nat := 0
  parseError : ParseError := .none
  chunkSizeHexBuffer : Bytes := []
  chunkDataRemaining : Nat := 0
  chunkState : ChunkState := .size
  crSeen : Bool := false
deriving DecidableEq, Repr

/-- `HttpParser::reset` writes every field. -/
def HttpParser.reset (_ : HttpParser) : HttpParser := {}

@[simp] lemma HttpParser.reset_eq (p : HttpParser) : p.reset = {} := rfl

def HttpParser.fail (p : HttpParser) (e : ParseError) : HttpParser := { p with parseError := e }

/-! ## Character classes -/

/-- `is_tchar`: the characters of a header name. -/
def isTchar (c : UInt8) : Bool :=
  (48 ≤ c && c ≤ 57) || (97 ≤ c && c ≤ 122) || (65 ≤ c && c ≤ 90) ||
    c ∈ ascii "!#$%&'*+-.^_\x60|~"

/-- `is_valid_field_value_char`. -/
def isValidFieldValueChar (c : UInt8) : Bool := c == tab || (0x20 ≤ c && c != 0x7F)

/-- `is_valid_request_line_char`. -/
def isValidRequestLineChar (c : UInt8) : Bool := 0x20 < c && c != 0x7F

/-! ## Header names with a meaning for the parser -/

def contentLengthName : Bytes := ascii "content-length"
def transferEncodingName : Bytes := ascii "transfer-encoding"

/-! ## Numbers -/

/-- The digit loop over a Content-Length value: `digits_ok` and `cl_value`. -/
def contentLengthLoop : Nat → Bytes → Bool × Nat
  | value, [] => (true, value)
  | value, ch :: rest =>
    match decVal? ch with
    | none => (false, value)
    | some d =>
      if value > maxBodySize then (true, maxBodySize + 1)
      else contentLengthLoop (SizeT.add (SizeT.mul value 10) d) rest

/-- The digit loop over a chunk size: `hex_ok` and `size`. -/
def chunkSizeLoop : Nat → Bytes → Bool × Nat
  | size, [] => (true, size)
  | size, ch :: rest =>
    match hexVal? ch with
    | none => (false, size)
    | some d =>
      let size' := SizeT.add (SizeT.mul size 16) d
      if size' > maxBodySize then (true, size') else chunkSizeLoop size' rest

/-! ## The cases of the switch -/

/-- A parser together with the request it fills. -/
abbrev Parsing := HttpParser × HttpRequest

/-- Append a byte of the request line, within the cap. -/
def pushRequestLine (p : HttpParser) (r : HttpRequest) (c : UInt8) : Parsing × Flow :=
  let p := { p with buffer := p.buffer ++ [c] }
  if p.buffer.length > maxRequestLineSize then ((p.fail .requestLineTooLong, r), .reject)
  else ((p, r), .more)

def stepMethod (p : HttpParser) (r : HttpRequest) (c : UInt8) : Parsing × Flow :=
  if c = sp then (({ p with buffer := [], state := .path }, { r with method := p.buffer }), .more)
  else if ¬ isValidRequestLineChar c then ((p.fail .invalidHeader, r), .reject)
  else pushRequestLine p r c

def stepPath (p : HttpParser) (r : HttpRequest) (c : UInt8) : Parsing × Flow :=
  if c = sp then (({ p with buffer := [], state := .version }, { r with path := p.buffer }), .more)
  else if c = 63 then
    -- '?': everything before it is the pure path
    (({ p with buffer := [], state := .query }, { r with path := p.buffer }), .more)
  else if ¬ isValidRequestLineChar c then ((p.fail .invalidHeader, r), .reject)
  else pushRequestLine p r c

def stepQuery (p : HttpParser) (r : HttpRequest) (c : UInt8) : Parsing × Flow :=
  if c = sp then (({ p with buffer := [], state := .version }, { r with query := p.buffer }), .more)
  else if ¬ isValidRequestLineChar c then ((p.fail .invalidHeader, r), .reject)
  else pushRequestLine p r c

def stepVersion (p : HttpParser) (r : HttpRequest) (c : UInt8) : Parsing × Flow :=
  if c = cr then (({ p with crSeen := true }, r), .more)
  else if c = lf then
    if ¬ p.crSeen then ((p.fail .invalidHeader, r), .reject)
    else
      (({ p with crSeen := false, buffer := [], state := .header },
        { r with version := p.buffer }), .more)
  else if ¬ isValidRequestLineChar c then ((p.fail .invalidHeader, r), .reject)
  else pushRequestLine { p with crSeen := false } r c

/-- The body framing the end of the header block selects. -/
def endOfHeaders (p : HttpParser) (r : HttpRequest) : Parsing × Flow :=
  match r.headers.lookup transferEncodingName with
  | some te =>
    if lower te ≠ ascii "chunked" then ((p.fail .invalidTransferEncoding, r), .reject)
    else
      (({ p with
          chunkSizeHexBuffer := [], chunkDataRemaining := 0, chunkState := .size,
          state := .chunkedBody }, r), .more)
  | none =>
    match r.headers.lookup contentLengthName with
    | some cl =>
      let (digitsOk, value) := contentLengthLoop 0 cl
      if ¬ (cl ≠ [] ∧ digitsOk) then ((p.fail .invalidContentLength, r), .reject)
      else
        let p := { p with contentLength := value }
        if value > maxBodySize then ((p.fail .bodyTooLarge, r), .reject)
        else if value > 0 then (({ p with bodyRead := 0, state := .body }, r), .more)
        else (({ p with state := .done }, r), .accept)
    | none => (({ p with state := .done }, r), .accept)

/-- The framing headers may appear once and must not mix. -/
def checkFraming (headers : Headers) (key : Bytes) : ParseError :=
  if key = contentLengthName then
    if (headers.lookup contentLengthName).isSome then .duplicateContentLength
    else if (headers.lookup transferEncodingName).isSome then .clTeConflict
    else .none
  else if key = transferEncodingName then
    if (headers.lookup contentLengthName).isSome then .clTeConflict
    else if (headers.lookup transferEncodingName).isSome then .invalidTransferEncoding
    else .none
  else .none

/-- Name and value of a header line, the name in lower case and the value
trimmed; `none` for a line without a colon or with illegal characters. -/
def splitHeaderLine (line : Bytes) : Option (Bytes × Bytes) :=
  match line.idxOf? 58 with
  | none => none
  | some colon =>
    let key := lower (line.take colon)
    let value := trim (line.drop (colon + 1))
    if key = [] then none
    else if ¬ key.all isTchar then none
    else if ¬ value.all isValidFieldValueChar then none
    else some (key, value)

/-- A complete, non-empty header line is in the buffer. -/
def headerLine (p : HttpParser) (r : HttpRequest) : Parsing × Flow :=
  match splitHeaderLine p.buffer with
  | none => ((p.fail .invalidHeader, r), .reject)
  | some (key, value) =>
    match checkFraming r.headers key with
    | .none => (({ p with buffer := [] }, { r with headers := r.headers.insert key value }), .more)
    | e => ((p.fail e, r), .reject)

def stepHeader (p : HttpParser) (r : HttpRequest) (c : UInt8) : Parsing × Flow :=
  let p := { p with headersRead := SizeT.add p.headersRead 1 }
  if p.headersRead > maxHeadersSize then ((p.fail .headersTooLarge, r), .reject)
  else if c = cr then (({ p with crSeen := true }, r), .more)
  else if c = lf then
    if ¬ p.crSeen then ((p.fail .invalidHeader, r), .reject)
    else
      let p := { p with crSeen := false }
      if p.buffer = [] then endOfHeaders p r else headerLine p r
  else
    let p := { p with crSeen := false, buffer := p.buffer ++ [c] }
    if p.buffer.length > maxHeaderLineSize then ((p.fail .headerTooLong, r), .reject)
    else ((p, r), .more)

/-- A complete, non-empty chunk size line is in the buffer. -/
def chunkSizeLine (p : HttpParser) (r : HttpRequest) : Parsing × Flow :=
  let hex := p.chunkSizeHexBuffer.takeWhile (· ≠ 59)  -- up to the ';' of an extension
  let (hexOk, size) := chunkSizeLoop 0 hex
  if ¬ (hex ≠ [] ∧ hexOk) then ((p.fail .invalidChunkSize, r), .reject)
  else
    let p := { p with chunkSizeHexBuffer := [] }
    if size = 0 then (({ p with chunkState := .trailer, buffer := [] }, r), .more)
    else (({ p with chunkDataRemaining := size, chunkState := .data }, r), .more)

def stepChunkSize (p : HttpParser) (r : HttpRequest) (c : UInt8) : Parsing × Flow :=
  if c = cr then ((p, r), .more)
  else if c = lf then
    -- an empty buffer is the line end behind the previous chunk's data
    if p.chunkSizeHexBuffer = [] then ((p, r), .more) else chunkSizeLine p r
  else
    let p := { p with chunkSizeHexBuffer := p.chunkSizeHexBuffer ++ [c] }
    if p.chunkSizeHexBuffer.length > 16 then ((p.fail .invalidChunkSize, r), .reject)
    else ((p, r), .more)

def stepChunkData (p : HttpParser) (r : HttpRequest) (c : UInt8) : Parsing × Flow :=
  let r := { r with body := r.body ++ [c] }
  let p := { p with chunkDataRemaining := SizeT.sub p.chunkDataRemaining 1 }
  if r.body.length > maxBodySize then ((p.fail .bodyTooLarge, r), .reject)
  else if p.chunkDataRemaining = 0 then (({ p with chunkState := .size }, r), .more)
  else ((p, r), .more)

def stepChunkTrailer (p : HttpParser) (r : HttpRequest) (c : UInt8) : Parsing × Flow :=
  if c = cr then ((p, r), .more)
  else if c = lf then
    if p.buffer = [] then (({ p with state := .done }, r), .accept)
    else (({ p with buffer := [] }, r), .more)
  else
    let p := { p with buffer := p.buffer ++ [c] }
    if p.buffer.length > maxHeaderLineSize then ((p.fail .headerTooLong, r), .reject)
    else ((p, r), .more)

def stepChunkedBody (p : HttpParser) (r : HttpRequest) (c : UInt8) : Parsing × Flow :=
  match p.chunkState with
  | .size => stepChunkSize p r c
  | .data => stepChunkData p r c
  | .trailer => stepChunkTrailer p r c
  | .done => ((p, r), .more)

def stepBody (p : HttpParser) (r : HttpRequest) (c : UInt8) : Parsing × Flow :=
  if p.bodyRead ≥ maxBodySize then ((p.fail .bodyTooLarge, r), .reject)
  else
    let r := { r with body := r.body ++ [c] }
    let p := { p with bodyRead := SizeT.add p.bodyRead 1 }
    if p.bodyRead ≥ p.contentLength then (({ p with state := .done }, r), .accept)
    else ((p, r), .more)

/-! ## The loop -/

/-- The loop body of `HttpParser::parse`. -/
def HttpParser.step (s : Parsing) (c : UInt8) : Parsing × Flow :=
  match s.1.state with
  | .method => stepMethod s.1 s.2 c
  | .path => stepPath s.1 s.2 c
  | .version => stepVersion s.1 s.2 c
  | .query => stepQuery s.1 s.2 c
  | .header => stepHeader s.1 s.2 c
  | .chunkedBody => stepChunkedBody s.1 s.2 c
  | .body => stepBody s.1 s.2 c
  | .done => (s, .halt)

/-- What a call of `parse` leaves: its return value, the parser, the request
and `consumed`. -/
structure Parsed where
  complete : Bool
  parser : HttpParser
  request : HttpRequest
  consumed : Nat

/-- `HttpParser::parse`. -/
def HttpParser.parse (p : HttpParser) (r : HttpRequest) (data : Bytes) : Parsed :=
  let fed := feed HttpParser.step (p, r) data
  ⟨fed.flow == .accept, fed.state.1, fed.state.2, fed.used⟩

end EpollGateway.Http
