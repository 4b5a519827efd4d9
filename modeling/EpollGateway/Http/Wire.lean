import EpollGateway.Http.Parser

/-! # Requests on the wire

The message format of a request as a client writes it: request line, header
fields, and a body framed by its length or in chunks. `WireRequest.serialise`
writes a message down, `WireRequest.WellFormed` is the format's own legality
together with the size caps of the parser.
-/

namespace EpollGateway.Http

open Bytes

/-! ## Header fields -/

/-- A header field as the client spells it. -/
structure Field where
  name : Bytes
  value : Bytes

/-- `name: value`, without the line end. -/
def Field.line (f : Field) : Bytes := f.name ++ 58 :: sp :: f.value

/-- The key under which a field is stored. -/
def Field.key (f : Field) : Bytes := lower f.name

structure Field.WellFormed (f : Field) : Prop where
  name_ne : f.name ≠ []
  name_token : ∀ c ∈ f.name, isTchar c
  value_clean : ∀ c ∈ f.value, isValidFieldValueChar c
  value_trimmed : Trimmed f.value
  cap : f.line.length ≤ maxHeaderLineSize

/-! ## Bodies -/

/-- A chunk size line: hexadecimal digits and an optional extension. -/
structure SizeLine where
  digits : Bytes
  ext : Bytes := []

def SizeLine.text (l : SizeLine) : Bytes := l.digits ++ l.ext

/-- The line is legal and states the size `n`. -/
structure SizeLine.Denotes (l : SizeLine) (n : Nat) : Prop where
  digits_ne : l.digits ≠ []
  value : numeral 16 hexVal? l.digits = some n
  ext_mark : l.ext = [] ∨ l.ext.head? = some 59
  ext_clean : cr ∉ l.ext ∧ lf ∉ l.ext
  cap : l.text.length ≤ 16

structure Chunk where
  size : SizeLine
  data : Bytes

def Chunk.serialise (c : Chunk) : Bytes := c.size.text ++ crlf ++ c.data ++ crlf

structure Chunk.WellFormed (c : Chunk) : Prop where
  data_ne : c.data ≠ []
  size : c.size.Denotes c.data.length

/-- A trailer line: not empty, no line end inside. -/
structure TrailerLine (t : Bytes) : Prop where
  ne : t ≠ []
  clean : cr ∉ t ∧ lf ∉ t
  cap : t.length ≤ maxHeaderLineSize

/-- How the body is delimited, with the spelling of the header that says so. -/
inductive Framing where
  | none
  | contentLength (field : Field) (body : Bytes)
  | chunked (field : Field) (chunks : List Chunk) (last : SizeLine) (trailers : List Bytes)

/-- The header field that announces the framing. -/
def Framing.field : Framing → List Field
  | .none => []
  | .contentLength f _ => [f]
  | .chunked f _ _ _ => [f]

/-- The payload. -/
def Framing.body : Framing → Bytes
  | .none => []
  | .contentLength _ b => b
  | .chunked _ chunks _ _ => chunks.flatMap Chunk.data

/-- What follows the header block on the wire. -/
def Framing.serialise : Framing → Bytes
  | .none => []
  | .contentLength _ b => b
  | .chunked _ chunks last trailers =>
    chunks.flatMap Chunk.serialise ++ (last.text ++ crlf) ++
      (trailers.flatMap (· ++ crlf)) ++ crlf

def Framing.WellFormed : Framing → Prop
  | .none => True
  | .contentLength f b =>
    f.key = contentLengthName ∧ f.value ≠ [] ∧ numeral 10 decVal? f.value = some b.length
  | .chunked f chunks last trailers =>
    f.key = transferEncodingName ∧ lower f.value = ascii "chunked" ∧
      (∀ c ∈ chunks, c.WellFormed) ∧ last.Denotes 0 ∧ ∀ t ∈ trailers, TrailerLine t

/-! ## Requests -/

/-- A part of the request line: legal characters, within the cap. -/
def RequestText (t : Bytes) : Prop :=
  (∀ c ∈ t, isValidRequestLineChar c) ∧ t.length ≤ maxRequestLineSize

instance (t : Bytes) : Decidable (RequestText t) := inferInstanceAs (Decidable (_ ∧ _))

/-- A request; the framing header stands between the fields `before` and `after`. -/
structure WireRequest where
  method : Bytes
  path : Bytes
  query : Option Bytes
  version : Bytes
  before : List Field
  framing : Framing
  after : List Field

def WireRequest.fields (w : WireRequest) : List Field := w.before ++ w.framing.field ++ w.after

/-- `?query` when there is one. -/
def WireRequest.queryText (w : WireRequest) : Bytes :=
  match w.query with
  | none => []
  | some q => 63 :: q

def WireRequest.requestLine (w : WireRequest) : Bytes :=
  w.method ++ [sp] ++ w.path ++ w.queryText ++ [sp] ++ w.version ++ crlf

def fieldLines (fs : List Field) : Bytes := fs.flatMap fun f => f.line ++ crlf

def WireRequest.headerBlock (w : WireRequest) : Bytes := fieldLines w.fields ++ crlf

def WireRequest.serialise (w : WireRequest) : Bytes :=
  w.requestLine ++ w.headerBlock ++ w.framing.serialise

structure WireRequest.WellFormed (w : WireRequest) : Prop where
  method : RequestText w.method
  path : RequestText w.path
  path_mark : 63 ∉ w.path
  query : ∀ q ∈ w.query, RequestText q
  version : RequestText w.version
  fields : ∀ f ∈ w.fields, f.WellFormed
  distinct : (w.fields.map Field.key).Nodup
  plain : ∀ f ∈ w.before ++ w.after, f.key ≠ contentLengthName ∧ f.key ≠ transferEncodingName
  block_cap : w.headerBlock.length ≤ maxHeadersSize
  framing : w.framing.WellFormed
  body_cap : w.framing.body.length ≤ maxBodySize

end EpollGateway.Http
