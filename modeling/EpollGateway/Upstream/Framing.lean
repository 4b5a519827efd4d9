import EpollGateway.Handler.Response
import EpollGateway.Lib.Fields
import EpollGateway.Lib.HttpReader
import EpollGateway.Upstream.ChunkScan
import Mathlib.Data.Fintype.Option
import Mathlib.Data.Fintype.Prod

/-! # Reading a backend response

The two clients of a backend, `forward_request` and `UpstreamExchange`, read a
response in the same terms: where its header block ends, what the header block says
about the connection and about the body, and what is made of a complete response.
This file has these terms; `BodyKind` is the choice between the ways to frame a body.
-/

namespace EpollGateway.Upstream

open Bytes Loop Handler

/-! ## The header block -/

/-- `find("\r\n\r\n")`. -/
def headEnd : Bytes → Option Nat
  | [] => none
  | c :: rest =>
    if (c :: rest).take 4 = crlf ++ crlf then some 0 else (headEnd rest).map (· + 1)

variable {b buf d : Bytes}

/-- The first four bytes are settled when four bytes are there. -/
lemma take_four_append (h : 4 ≤ b.length) (d : Bytes) :
    (b ++ d).take 4 = b.take 4 := List.take_append_of_le_length h

variable {bodyEnd bodyStart h p : Nat} {s t : ScanState}

lemma headEnd_le (hh : headEnd b = some h) : h + 4 ≤ b.length := by
  induction b generalizing h with
  | nil => cases hh
  | cons c rest ih =>
    rw [headEnd] at hh
    split at hh
    · rename_i hat
      cases hh
      have hlen := congrArg List.length hat
      simp only [List.length_take, List.length_append, length_crlf] at hlen
      omega
    · obtain ⟨k, hk, rfl⟩ := Option.map_eq_some_iff.mp hh
      have hlen := ih hk
      rw [List.length_cons]
      omega

/-- A header block that is complete stays as it is. -/
lemma headEnd_append (hh : headEnd b = some h) (d : Bytes) : headEnd (b ++ d) = some h := by
  induction b generalizing h with
  | nil => cases hh
  | cons c rest ih =>
    have hfour : (c :: rest ++ d).take 4 = (c :: rest).take 4 :=
      take_four_append (by have := headEnd_le hh; omega) d
    rw [List.cons_append] at hfour ⊢
    rw [headEnd, hfour]
    rw [headEnd] at hh
    split
    · rename_i hat
      rwa [if_pos hat] at hh
    · rename_i hat
      rw [if_neg hat] at hh
      obtain ⟨k, hk, rfl⟩ := Option.map_eq_some_iff.mp hh
      rw [ih hk]
      rfl

/-- The end of the header block is found as soon as it is there. -/
lemma headEnd_of_append (hh : headEnd (b ++ d) = some h) (hle : h + 4 ≤ b.length) :
    headEnd b = some h := by
  induction b generalizing h with
  | nil => simp at hle
  | cons c rest ih =>
    have hfour : (c :: rest ++ d).take 4 = (c :: rest).take 4 := take_four_append (by omega) d
    rw [List.cons_append] at hh hfour
    rw [headEnd, hfour] at hh
    rw [headEnd]
    split
    · rename_i hat
      rwa [if_pos hat] at hh
    · rename_i hat
      rw [if_neg hat] at hh
      obtain ⟨k, hk, rfl⟩ := Option.map_eq_some_iff.mp hh
      rw [ih hk (by rw [List.length_cons] at hle; omega)]
      rfl

/-- The lines of a text, without their line ends; what stands behind the last line
end is a line if it is not empty. -/
def crlfLines (line : Bytes) : Bytes → List Bytes
  | [] => if line = [] then [] else [line]
  | [c] => [line ++ [c]]
  | c :: d :: rest =>
    if c = cr ∧ d = lf then line :: crlfLines [] rest else crlfLines (line ++ [c]) (d :: rest)

/-- The header lines. Without a line end in the header block `find` answers `npos`,
and the first line begins at `npos + 2`, which is `1`. -/
def headLines (headersPart : Bytes) : List Bytes :=
  match crlfIdx headersPart with
  | none => crlfLines [] (headersPart.drop 1)
  | some i => crlfLines [] (headersPart.drop (i + 2))

/-- What stands in front of the first colon of a line, and what stands behind it. -/
def splitColon (line : Bytes) : Option (Bytes × Bytes) := HttpReader.cut 58 line

/-- `find_header_value`: the value of the first header with this name, trimmed and in
lower case. -/
def findHeaderValue (headersPart name : Bytes) : Bytes :=
  match (headLines headersPart).findSome? fun line =>
      (splitColon line).filter fun h => lower h.1 = name with
  | none => []
  | some h => lower (trim h.2)

/-- `response_uses_keepalive`. -/
def keepsAlive (headersPart : Bytes) : Bool :=
  let conn := findHeaderValue headersPart (ascii "connection")
  let statusLine :=
    match crlfIdx headersPart with
    | none => headersPart
    | some i => headersPart.take i
  if ascii "HTTP/1.1" <+: statusLine then conn ≠ ascii "close" else conn = ascii "keep-alive"

/-- How a body is framed. `badLength` is a length out of the range of `size_t`. -/
inductive BodyKind where
  | chunked
  | unsupported
  | length (n : Nat)
  | badLength
  | untilClose
deriving DecidableEq, Repr

def bodyKind (headersPart : Bytes) : BodyKind :=
  let te := findHeaderValue headersPart (ascii "transfer-encoding")
  if ascii "chunked" <:+: te then .chunked
  else if te ≠ [] then .unsupported
  else
    let cl := findHeaderValue headersPart (ascii "content-length")
    if cl = [] then .untilClose
    else
      match numeral 10 decVal? cl with
      | none => .untilClose
      | some n => if n < 2 ^ 64 then .length n else .badLength

/-! ## The body -/

/-- Turns enough for every scan that ends: the position decides how a scan goes on,
in front of a size line and in front of a trailer line. -/
def scanFuel (buf : Bytes) : Nat := 2 * buf.length + 1

/-- `scan_chunked_body`; `none` is a scan that does not end. -/
def scanBody (buf : Bytes) (bodyStart : Nat) : Option ChunkScan :=
  scanChunkedBody (scanFuel buf) buf bodyStart

def ScanState.decoded : ScanState → Bytes
  | .line _ decoded => decoded
  | .trailer _ decoded => decoded

/-- What a scan has appended to `decoded` when it returns. -/
def decodedSoFar (buf : Bytes) (bodyStart : Nat) : Bytes :=
  (last (scanTurn buf) (scanFuel buf) (.line bodyStart [])).decoded

lemma scanTurn_decoded {decoded : Bytes}
    (h : scanTurn buf s = .done (.complete bodyEnd decoded)) : s.decoded = decoded := by
  rcases s with ⟨p, d⟩ | ⟨t, d⟩ <;> simp only [scanTurn] at h
  · repeat' split at h
    all_goals cases h
  · repeat' split at h
    all_goals cases h
    rfl

lemma decodedSoFar_of_complete {decoded : Bytes}
    (h : scanBody buf bodyStart = some (.complete bodyEnd decoded)) :
    decodedSoFar buf bodyStart = decoded :=
  scanTurn_decoded (turn_last h)

/-- Place and kind of the line in front of which the scanner stands; all places
behind the buffer count as one. -/
def ScanState.key (buf : Bytes) : ScanState → Option (Bool × Fin buf.length)
  | .line p _ => if h : p < buf.length then some (false, ⟨p, h⟩) else none
  | .trailer t _ => if h : t < buf.length then some (true, ⟨t, h⟩) else none

lemma lt_of_findCrlf {e : Nat} (h : findCrlf buf p = some e) : p < buf.length := by
  obtain ⟨hle, hat, -⟩ := findCrlf_eq_some.mp h
  have hlt := hat.lt
  omega

/-- How a scan goes on does not depend on what has been decoded. -/
lemma scanTurn_line_decoded (h : scanTurn buf (.line p d) = .again s) (d' : Bytes) :
    ∃ t, scanTurn buf (.line p d') = .again t ∧ s.key buf = t.key buf := by
  simp only [scanTurn] at h ⊢
  generalize findCrlf buf p = line at h ⊢
  rcases line with _ | e
  · cases h
  · dsimp only at h ⊢
    split at h
    · cases h
    · rename_i hne
      rw [if_neg hne]
      generalize scanSizeLoop 0 ((slice buf p e).takeWhile (· ≠ 59)) = number at h ⊢
      rcases number with _ | size
      · cases h
      · dsimp only at h ⊢
        split at h
        · rename_i hzero
          cases h
          exact ⟨_, if_pos hzero, rfl⟩
        · rename_i hzero
          rw [if_neg hzero]
          repeat' split at h
          all_goals cases h
          rename_i hfit hrange hcrlf
          rw [if_neg hfit, if_neg hrange, if_neg hcrlf]
          exact ⟨_, rfl, rfl⟩

lemma scanTurn_trailer_decoded (h : scanTurn buf (.trailer p d) = .again s) (d' : Bytes) :
    ∃ t, scanTurn buf (.trailer p d') = .again t ∧ s.key buf = t.key buf := by
  simp only [scanTurn] at h ⊢
  generalize findCrlf buf p = line at h ⊢
  rcases line with _ | e
  · cases h
  · dsimp only at h ⊢
    split at h
    · cases h
    · rename_i hne
      cases h
      exact ⟨_, if_neg hne, rfl⟩

/-- In front of a line that is there, the key is the state without its text. -/
lemma key_line (hp : p < buf.length) (h : ScanState.key buf (.line p d) = t.key buf) :
    ∃ d', t = .line p d' := by
  rcases t with ⟨q, d'⟩ | ⟨q, d'⟩
  · simp only [ScanState.key, dif_pos hp] at h
    split at h
    · cases h
      exact ⟨d', rfl⟩
    · cases h
  · simp only [ScanState.key, dif_pos hp] at h
    split at h <;> cases h

lemma key_trailer (hp : p < buf.length) (h : ScanState.key buf (.trailer p d) = t.key buf) :
    ∃ d', t = .trailer p d' := by
  rcases t with ⟨q, d'⟩ | ⟨q, d'⟩
  · simp only [ScanState.key, dif_pos hp] at h
    split at h <;> cases h
  · simp only [ScanState.key, dif_pos hp] at h
    split at h
    · cases h
      exact ⟨d', rfl⟩
    · cases h

lemma scanTurn_key {s' : ScanState} (hkey : s.key buf = t.key buf)
    (h : scanTurn buf s = .again s') :
    ∃ t', scanTurn buf t = .again t' ∧ s'.key buf = t'.key buf := by
  rcases s with ⟨p, d⟩ | ⟨p, d⟩
  · rcases he : findCrlf buf p with _ | e
    · simp [scanTurn, he] at h
    · obtain ⟨d', rfl⟩ := key_line (lt_of_findCrlf he) hkey
      exact scanTurn_line_decoded h d'
  · rcases he : findCrlf buf p with _ | e
    · simp [scanTurn, he] at h
    · obtain ⟨d', rfl⟩ := key_trailer (lt_of_findCrlf he) hkey
      exact scanTurn_trailer_decoded h d'

/-- A scan that ends with some fuel ends with the fuel of `scanBody`. -/
lemma scanBody_eq_some {fuel : Nat} {r : ChunkScan}
    (h : scanChunkedBody fuel buf bodyStart = some r) : scanBody buf bodyStart = some r := by
  obtain ⟨r', hr'⟩ := loop_eq_some_of_card (ScanState.key buf)
    (fun _ _ _ hkey h => scanTurn_key hkey h) ⟨fuel, r, h⟩
  have hcard : Fintype.card (Option (Bool × Fin buf.length)) = scanFuel buf := by
    simp [scanFuel, Nat.mul_comm]
  rw [hcard] at hr'
  have hr : scanBody buf bodyStart = some r' := hr'
  rw [hr, loop_unique h hr']

/-! ## A complete response -/

/-- `isspace`. -/
def isSpace (c : UInt8) : Bool := c = 32 || (9 ≤ c && c ≤ 13)

/-- `std::stoi`, with `none` for its exceptions. -/
def stoi (text : Bytes) : Option Int :=
  let text := text.dropWhile isSpace
  let negative := text.head? = some 45
  let digits := (if negative ∨ text.head? = some 43 then text.drop 1 else text).takeWhile fun c =>
    (decVal? c).isSome
  if digits = [] then none
  else
    (numeral 10 decVal? digits).bind fun n =>
      let value : Int := if negative then -n else n
      if -2 ^ 31 ≤ value ∧ value < 2 ^ 31 then some value else none

/-- The status code: what stands between the first two blanks of the buffer. -/
def parseStatus (buf : Bytes) : Option Int :=
  match buf.dropWhile (· ≠ sp) with
  | [] => none
  | _ :: rest => if sp ∈ rest then stoi (rest.takeWhile (· ≠ sp)) else none

lemma parseStatus_blanks {version code : Bytes} (hversion : sp ∉ version) (hcode : sp ∉ code)
    (rest : Bytes) : parseStatus (version ++ sp :: (code ++ sp :: rest)) = stoi code := by
  have hdrop : ∀ c ∈ version, decide (c ≠ sp) = true := by
    intro c hc
    have hne : c ≠ sp := fun heq => hversion (heq ▸ hc)
    simpa using hne
  have htake : ∀ c ∈ code, decide (c ≠ sp) = true := by
    intro c hc
    have hne : c ≠ sp := fun heq => hcode (heq ▸ hc)
    simpa using hne
  unfold parseStatus
  rw [List.dropWhile_append_of_pos hdrop, List.dropWhile_cons_of_neg (by simp)]
  dsimp only
  rw [if_pos (by simp), List.takeWhile_append_of_pos htake, List.takeWhile_cons_of_neg (by simp),
    List.append_nil]

/-- The headers of a response, in a `std::map`. -/
def parseHeaders (headersPart : Bytes) : List (Bytes × Bytes) :=
  (headLines headersPart).foldl
    (fun headers line =>
      match splitColon line with
      | none => headers
      | some (key, value) => Fields.assign key (trim value) headers)
    []

/-- `make_error_response` of the clients. -/
def failedResponse (statusCode : Int) (error : BackendError) (body : String) : BackendResponse :=
  { statusCode := statusCode, body := ascii body, error := error }

def badGateway (error : BackendError) : BackendResponse := failedResponse 502 error "Bad Gateway"

def gatewayTimeout (error : BackendError) : BackendResponse :=
  failedResponse 504 error "Gateway Timeout"

/-- What is made of a complete response; a status line that cannot be read is an
invalid response. -/
def parseResponse (buf : Bytes) (headerEnd : Nat) (body : Bytes) : BackendResponse :=
  match parseStatus buf with
  | none => badGateway .invalidResponse
  | some code =>
    { statusCode := code
      headers := parseHeaders (buf.take headerEnd)
      body := body
      error := .none }

end EpollGateway.Upstream
