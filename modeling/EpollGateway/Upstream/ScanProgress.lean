import EpollGateway.Upstream.ChunkScan

/-! # Termination of the scanner

A pass of `scan_chunked_body` moves forward unless the end of a chunk wraps
around to a position at or before its own size line. Such a buffer exists, and
the scanner does not come to an end on it (`scan_diverges`). On every other
buffer each chunk moves the position forward and the scan ends
(`scan_progress_iff`).
-/

namespace EpollGateway.Upstream

open Bytes Loop

/-- A size line at a chunk boundary `p` wraps the end of its chunk back to a
position `q ≤ p` behind a line end. -/
def BackwardWrap (buf : Bytes) (start : Nat) : Prop :=
  ∃ p e s q, Boundary buf start p ∧ SizeLineAt buf p e s ∧ s < 2 ^ 64 ∧
    e + 4 + s = 2 ^ 64 + q ∧ 2 ≤ q ∧ q ≤ p ∧ CrlfAt buf (q - 2)

/-- Every boundary is a position of the scanner. -/
lemma Boundary.reaches {buf : Bytes} (hbuf : buf.length < 2 ^ 63) {start p : Nat}
    (h : Boundary buf start p) :
    ∃ d, Reaches (scanTurn buf) (.line start []) (.line p d) := by
  induction h with
  | start => exact ⟨[], Relation.ReflTransGen.refl⟩
  | @chunk p e s _ hline hne hle hat ih =>
    obtain ⟨d, hd⟩ := ih
    refine ⟨_, hd.tail ((scanTurn_line hbuf).mpr (.inr ⟨e, s, e + 4 + s, hline, ?_, rfl⟩))⟩
    exact ⟨hne, by omega, by omega, by omega, hle, by rwa [show e + 4 + s - 2 = e + 2 + s by omega]⟩
  | minusTwo _ hline ih =>
    obtain ⟨d, hd⟩ := ih
    have helt := hline.crlfAt.lt
    refine ⟨_, hd.tail ((scanTurn_line hbuf).mpr (.inr ⟨_, _, _, hline, ?_, rfl⟩))⟩
    exact ⟨by decide, by decide, by omega, by omega, helt, hline.crlfAt⟩

/-- The states of the scanner on a buffer without backward wraps. -/
def OnTrack (buf : Bytes) (start : Nat) : ScanState → Prop
  | .line p _ => Boundary buf start p ∧ p ≤ buf.length
  | .trailer t _ => t ≤ buf.length

/-- What is left to scan; the trailer comes last. -/
def remaining (buf : Bytes) : ScanState → Nat
  | .line p _ => buf.length + 1 + (buf.length - p)
  | .trailer t _ => buf.length - t

/-- A chunk on a buffer without backward wraps ends at a later boundary. -/
lemma Boundary.next {buf : Bytes} (hbuf : buf.length < 2 ^ 63) {start p e s q : Nat}
    (hwrap : ¬ BackwardWrap buf start) (hp : Boundary buf start p) (hline : SizeLineAt buf p e s)
    (hend : ChunkEnd buf e s q) : Boundary buf start q ∧ p < q := by
  have hpe := hline.le
  have hle := hend.le
  have hat := hend.crlfAt
  rcases hend.cases hbuf hline with rfl | ⟨rfl, rfl⟩ | ⟨heq, hqp⟩
  · rw [show e + 4 + s - 2 = e + 2 + s by omega] at hat
    exact ⟨.chunk hp hline hend.size_ne hle hat, by omega⟩
  · exact ⟨.minusTwo hp hline, by omega⟩
  · exact absurd ⟨p, e, s, q, hp, hline, hend.size_lt, heq, hend.two_le, hqp, hat⟩ hwrap

lemma scanTurn_onTrack {buf : Bytes} (hbuf : buf.length < 2 ^ 63) {start : Nat}
    (hwrap : ¬ BackwardWrap buf start) {u v : ScanState} (hu : OnTrack buf start u)
    (h : scanTurn buf u = .again v) :
    OnTrack buf start v ∧ remaining buf v < remaining buf u := by
  cases u with
  | line p d =>
    obtain ⟨hp, hple⟩ := hu
    rcases (scanTurn_line hbuf).mp h with ⟨e, hline, rfl⟩ | ⟨e, s, q, hline, hend, rfl⟩
    · have helt := hline.crlfAt.lt
      exact ⟨helt, by simp only [remaining]; omega⟩
    · obtain ⟨hq, hlt⟩ := hp.next hbuf hwrap hline hend
      have hle := hend.le
      exact ⟨⟨hq, hle⟩, by simp only [remaining]; omega⟩
  | trailer t d =>
    obtain ⟨e, hfind, -, rfl⟩ := (scanTurn_trailer hbuf).mp h
    obtain ⟨hte, hat, -⟩ := findCrlf_eq_some.mp hfind
    have helt := hat.lt
    exact ⟨helt, by simp only [remaining]; omega⟩

/-- The scan ends and every chunk moves the position forward, exactly on the
buffers without a backward wrap. -/
theorem scan_progress_iff (buf : Bytes) (bodyStart : Nat) (hbuf : buf.length < 2 ^ 63)
    (hstart : bodyStart ≤ buf.length) :
    (Terminates (scanTurn buf) (.line bodyStart []) ∧
      ∀ p d q d', Reaches (scanTurn buf) (.line bodyStart []) (.line p d) →
        scanTurn buf (.line p d) = .again (.line q d') → p < q) ↔
    ¬ BackwardWrap buf bodyStart := by
  constructor
  · rintro ⟨-, hforward⟩ ⟨p, e, s, q, hp, hline, hslt, heq, htwo, hqp, hat⟩
    obtain ⟨d, hd⟩ := hp.reaches hbuf
    have helt := hline.crlfAt.lt
    have hpe := hline.le
    have hend : ChunkEnd buf e s q := ⟨by omega, hslt, by omega, htwo, by omega, hat⟩
    have hturn : scanTurn buf (.line p d) = .again (.line q (d ++ (buf.drop (e + 2)).take s)) :=
      (scanTurn_line hbuf).mpr (.inr ⟨e, s, q, hline, hend, rfl⟩)
    have hlt := hforward p d q _ hd hturn
    omega
  · intro hwrap
    have hinit : OnTrack buf bodyStart (.line bodyStart []) := ⟨.start, hstart⟩
    refine ⟨terminates_of_variant (remaining buf)
      (fun u v hu h => scanTurn_onTrack hbuf hwrap hu h) hinit, ?_⟩
    intro p d q d' hreach hturn
    obtain ⟨hp, -⟩ : OnTrack buf bodyStart (.line p d) :=
      hreach.invariant hinit fun u v hu h => (scanTurn_onTrack hbuf hwrap hu h).1
    rcases (scanTurn_line hbuf).mp hturn with ⟨e, -, hv⟩ | ⟨e, s, q', hline, hend, hv⟩
    · cases hv
    · cases hv
      exact (hp.next hbuf hwrap hline hend).2

/-- The scan of the sample ends. -/
theorem scan_progress_plainResponse : Terminates (scanTurn plainResponse) (.line 0 []) := by
  refine ((scan_progress_iff plainResponse 0 (by decide) (by decide)).mpr ?_).1
  rintro ⟨p, e, s, q, hp, hline, -, heq, -⟩
  obtain ⟨h0, h8⟩ := plainResponse_lines
  rcases plainResponse_boundary hp with rfl | rfl
  · obtain ⟨rfl, rfl⟩ := hline.unique h0
    omega
  · obtain ⟨rfl, rfl⟩ := hline.unique h8
    omega

/-- A response whose only chunk states the size `2 ^ 64 - 20`. -/
def wrapResponse : Bytes :=
  ascii "HTTP/1.1 200 OK\r\nTransfer-Encoding: chunked\r\n\r\nFFFFFFFFFFFFFFEC\r\n"

/-- From the end of its header block the scanner returns to the end of its header
block, for ever. -/
theorem scan_diverges :
    wrapResponse.length < 2 ^ 63 ∧ 47 ≤ wrapResponse.length ∧
      ¬ Terminates (scanTurn wrapResponse) (.line 47 []) := by
  have hbuf : wrapResponse.length < 2 ^ 63 := by decide
  have hline : SizeLineAt wrapResponse 47 63 0xFFFFFFFFFFFFFFEC :=
    ⟨by decide, sizeText_iff.mpr (by decide)⟩
  have hend : ChunkEnd wrapResponse 63 0xFFFFFFFFFFFFFFEC 47 :=
    ⟨by decide, by decide, by decide, by decide, by decide, by decide⟩
  refine ⟨hbuf, by decide, not_terminates_of_closed (I := fun u => ∃ d, u = .line 47 d) ?_ ⟨[], rfl⟩⟩
  rintro u ⟨d, rfl⟩
  exact ⟨_, (scanTurn_line hbuf).mpr (.inr ⟨63, _, 47, hline, hend, rfl⟩), _, rfl⟩

end EpollGateway.Upstream
