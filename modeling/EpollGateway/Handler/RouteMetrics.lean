import EpollGateway.Handler.Dispatch
import EpollGateway.Handler.Redaction
import EpollGateway.Lib.Exposition

/-! # Metrics of routes

After a response has been sent, the request is counted under its route, its `Host` and its
tenant. The three are joined with `|` into the key of a map. For the export the key is taken
apart again, at its first and its last `|`, and the parts are printed as label values, as
they are. All three come from the client.

A request can be told from the exported lines, and is counted apart from all others, exactly
if route and tenant have no `|` and none of the three has a quote, a backslash or a line
feed, or is not UTF-8 (`routes_identified_iff`).

A duration is given by the first bucket it falls into. The sum of the durations is left out:
its line is a decimal fraction, with the same labels.
-/

namespace EpollGateway.Handler

open Bytes Http Exposition

/-! ## Samples -/

/-- What a request is counted under. -/
structure RouteLabels where
  route : Bytes
  host : Bytes
  tenant : Bytes
deriving DecidableEq, Repr

/-- `handle_write` chooses the labels. -/
def recordedLabels (req : HttpRequest) : RouteLabels :=
  { route :=
      match req.headers.lookup routeNameName with
      | some name => name
      | none => if [47] <+: req.path then req.path else ascii "-"
    host := req.host
    tenant := req.tenant }

structure RouteMetricSample where
  totalRequests : Nat := 0
  requests2xx : Nat := 0
  requests3xx : Nat := 0
  requests4xx : Nat := 0
  requests5xx : Nat := 0
  timeoutErrors : Nat := 0
  authFailures : Nat := 0
  rateLimitHits : Nat := 0
  durationCount : Nat := 0
  durationBuckets : Fin 12 → Nat := fun _ => 0

/-- A response has been sent; its duration is within the boundaries from `bucket` on. -/
structure RouteRecord where
  req : HttpRequest
  statusCode : Int
  bucket : Nat

def RouteRecord.labels (r : RouteRecord) : RouteLabels := recordedLabels r.req

def RouteMetricSample.record (s : RouteMetricSample) (r : RouteRecord) : RouteMetricSample :=
  let count (p : Bool) : Nat := if p then 1 else 0
  { totalRequests := s.totalRequests + 1
    requests2xx := s.requests2xx + count (200 ≤ r.statusCode ∧ r.statusCode < 300)
    requests3xx := s.requests3xx + count (300 ≤ r.statusCode ∧ r.statusCode < 400)
    requests4xx := s.requests4xx + count (400 ≤ r.statusCode ∧ r.statusCode < 500)
    requests5xx := s.requests5xx + count (500 ≤ r.statusCode)
    timeoutErrors := s.timeoutErrors +
      count (r.statusCode = 504 ∨ r.statusCode = 503 ∨ r.statusCode = 502)
    authFailures := s.authFailures + count (r.statusCode = 401)
    rateLimitHits := s.rateLimitHits + count (r.statusCode = 429)
    durationCount := s.durationCount + 1
    -- the last bucket holds every request
    durationBuckets := fun i => s.durationBuckets i + count (i = 11 ∨ r.bucket ≤ i) }

def RouteLabels.tag (l : RouteLabels) : Bytes :=
  l.route ++ ascii "|" ++ l.host ++ ascii "|" ++ l.tenant

/-- `route_metrics_`. -/
abbrev RouteMetrics := AList fun _ : Bytes => RouteMetricSample

def recordRouteRequest (m : RouteMetrics) (r : RouteRecord) : RouteMetrics :=
  m.insert r.labels.tag (((m.lookup r.labels.tag).getD {}).record r)

/-- The map after some responses. -/
def recordAll (records : List RouteRecord) : RouteMetrics := records.foldl recordRouteRequest ∅

/-! ## Export -/

/-- `rfind('|')`. -/
def lastBar (key : Bytes) : Option Nat := (key.reverse.idxOf? 124).map fun i => key.length - 1 - i

/-- A key taken apart. -/
def splitTag (key : Bytes) : RouteLabels :=
  { route := match key.idxOf? 124 with
      | none => key
      | some sep1 => key.take sep1
    host := match key.idxOf? 124, lastBar key with
      | some sep1, some sep2 =>
        (key.drop (sep1 + 1)).take (SizeT.sub (SizeT.sub sep2 sep1) 1)
      | _, _ => ascii "-"
    tenant := match lastBar key with
      | none => ascii "-"
      | some sep2 => key.drop (sep2 + 1) }

def labelText (l : RouteLabels) : Bytes :=
  ascii "route=\"" ++ l.route ++ ascii "\",host=\"" ++ l.host ++ ascii "\",tenant=\"" ++
    l.tenant ++ ascii "\""

/-- One line of the export, without its line end. -/
def routeLine (name labels more : Bytes) (value : Nat) : Bytes :=
  name ++ ascii "\x7b" ++ labels ++ more ++ ascii "\x7d " ++ decimal value

/-- The boundaries of the buckets, as they are printed. -/
def bucketBoundary (i : Fin 12) : Bytes :=
  [ascii "0.005", ascii "0.01", ascii "0.025", ascii "0.05", ascii "0.1", ascii "0.25",
    ascii "0.5", ascii "1", ascii "2.5", ascii "5", ascii "10", ascii "+Inf"].get i

/-- The lines of `to_string` for one entry of the map. -/
def routeLines (key : Bytes) (s : RouteMetricSample) : List Bytes :=
  let labels := labelText (splitTag key)
  [routeLine (ascii "epoll_route_requests_total") labels (ascii ",code=\"2xx\"") s.requests2xx,
    routeLine (ascii "epoll_route_requests_total") labels (ascii ",code=\"3xx\"") s.requests3xx,
    routeLine (ascii "epoll_route_requests_total") labels (ascii ",code=\"4xx\"") s.requests4xx,
    routeLine (ascii "epoll_route_requests_total") labels (ascii ",code=\"5xx\"") s.requests5xx,
    routeLine (ascii "epoll_route_upstream_errors_total") labels [] s.timeoutErrors,
    routeLine (ascii "epoll_route_auth_failures_total") labels [] s.authFailures,
    routeLine (ascii "epoll_route_rate_limit_hits_total") labels [] s.rateLimitHits] ++
  (List.finRange 12).map (fun i =>
    routeLine (ascii "epoll_route_request_duration_seconds_bucket") labels
      (ascii ",le=\"" ++ bucketBoundary i ++ ascii "\"") (s.durationBuckets i)) ++
  [routeLine (ascii "epoll_route_request_duration_seconds_count") labels [] s.durationCount]

/-! ## What the export should say -/

/-- The labels that a reader should find. -/
def RouteLabels.pairs (l : RouteLabels) : List (Bytes × Bytes) :=
  [(ascii "route", l.route), (ascii "host", l.host), (ascii "tenant", l.tenant)]

/-- Name, further labels and value of every series of an entry. -/
def routeCounters (s : RouteMetricSample) : List (Bytes × List (Bytes × Bytes) × Nat) :=
  [(ascii "epoll_route_requests_total", [(ascii "code", ascii "2xx")], s.requests2xx),
    (ascii "epoll_route_requests_total", [(ascii "code", ascii "3xx")], s.requests3xx),
    (ascii "epoll_route_requests_total", [(ascii "code", ascii "4xx")], s.requests4xx),
    (ascii "epoll_route_requests_total", [(ascii "code", ascii "5xx")], s.requests5xx),
    (ascii "epoll_route_upstream_errors_total", [], s.timeoutErrors),
    (ascii "epoll_route_auth_failures_total", [], s.authFailures),
    (ascii "epoll_route_rate_limit_hits_total", [], s.rateLimitHits)] ++
  (List.finRange 12).map (fun i =>
    (ascii "epoll_route_request_duration_seconds_bucket", [(ascii "le", bucketBoundary i)],
      s.durationBuckets i)) ++
  [(ascii "epoll_route_request_duration_seconds_count", [], s.durationCount)]

/-- The sample of the requests with these labels, and of no others. -/
def ownSample (l : RouteLabels) (records : List RouteRecord) : RouteMetricSample :=
  (records.filter fun r => r.labels = l).foldl RouteMetricSample.record {}

/-- Every request is counted with those of its own labels only, its lines are read back with
these labels, and other labels have other lines. -/
structure RoutesIdentified (records : List RouteRecord) : Prop where
  apart : ∀ r ∈ records,
    (recordAll records).lookup r.labels.tag = some (ownSample r.labels records)
  readBack : ∀ r ∈ records, ∀ s, (recordAll records).lookup r.labels.tag = some s →
    (routeLines r.labels.tag s).map readSeries =
      (routeCounters s).map fun c => some (c.1, r.labels.pairs ++ c.2.1, c.2.2)
  distinct : ∀ r ∈ records, ∀ r' ∈ records, r.labels ≠ r'.labels →
    r.labels.tag ≠ r'.labels.tag ∧
      labelText (splitTag r.labels.tag) ≠ labelText (splitTag r'.labels.tag)

/-- Labels that survive the key and the export. -/
structure RouteLabels.Sound (l : RouteLabels) : Prop where
  route : 124 ∉ l.route
  tenant : 124 ∉ l.tenant
  plain : ∀ v ∈ [l.route, l.host, l.tenant], Plain v ∧ utf8 v = true

/-! ## The key -/

lemma tag_eq (l : RouteLabels) : l.tag = l.route ++ 124 :: (l.host ++ 124 :: l.tenant) := by
  have hbar : ascii "|" = [124] := by decide +kernel
  unfold RouteLabels.tag
  rw [hbar]
  simp

lemma lastBar_append (before : Bytes) {after : Bytes} (h : 124 ∉ after) :
    lastBar (before ++ 124 :: after) = some before.length := by
  have hreverse : (before ++ 124 :: after).reverse = after.reverse ++ 124 :: before.reverse := by
    simp
  have hidx := idxOf?_append_cons (mt List.mem_reverse.mp h) before.reverse
  unfold lastBar
  rw [hreverse, hidx, Option.map_some, Option.some.injEq, List.length_append, List.length_cons,
    List.length_reverse]
  omega

/-- A key is taken apart at its first and its last bar. -/
lemma splitTag_eq {route tenant : Bytes} (hroute : 124 ∉ route) (middle : Bytes)
    (htenant : 124 ∉ tenant) :
    splitTag (route ++ 124 :: (middle ++ 124 :: tenant)) = ⟨route, middle, tenant⟩ := by
  have hfirst := idxOf?_append_cons hroute (middle ++ 124 :: tenant)
  have hregroup : route ++ 124 :: (middle ++ 124 :: tenant) =
      (route ++ 124 :: middle) ++ 124 :: tenant := by simp
  have hlast := lastBar_append (route ++ 124 :: middle) htenant
  rw [← hregroup] at hlast
  have hlen : SizeT.sub (SizeT.sub (route ++ 124 :: middle).length route.length) 1 =
      middle.length := by
    have hfrom : route.length ≤ route.length + (middle.length + 1) := Nat.le_add_right _ _
    rw [List.length_append, List.length_cons, SizeT.sub_eq hfrom, Nat.add_sub_cancel_left,
      SizeT.sub_eq (Nat.le_add_left _ _), Nat.add_sub_cancel]
  unfold splitTag
  rw [hfirst, hlast]
  dsimp only
  rw [hlen, drop_length_succ, List.take_left, List.take_left, hregroup, drop_length_succ]

variable {l : RouteLabels}

lemma splitTag_tag (hroute : 124 ∉ l.route) (htenant : 124 ∉ l.tenant) : splitTag l.tag = l := by
  rw [tag_eq, splitTag_eq hroute l.host htenant]

/-- The route is cut off at its first bar. -/
lemma splitTag_route (l : RouteLabels) :
    124 ∉ (splitTag l.tag).route ∧ ∃ cut, l.route = (splitTag l.tag).route ++ cut := by
  have hroute : ∀ before after, 124 ∉ before →
      (splitTag (before ++ 124 :: after)).route = before := by
    intro before after hbefore
    unfold splitTag
    rw [idxOf?_append_cons hbefore]
    exact List.take_left
  rw [tag_eq]
  rcases split_first 124 l.route with hnone | ⟨before, after, heq, hbefore⟩
  · rw [hroute _ _ hnone]
    exact ⟨hnone, [], (List.append_nil _).symm⟩
  · rw [heq, List.append_assoc, List.cons_append, hroute _ _ hbefore]
    exact ⟨hbefore, 124 :: after, rfl⟩

/-- The tenant up to its last bar is taken for a part of the host. -/
lemma splitTag_of_route (hroute : 124 ∉ l.route) :
    124 ∉ l.tenant ∧ splitTag l.tag = l ∨
      ∃ more tenant, splitTag l.tag = ⟨l.route, l.host ++ 124 :: more, tenant⟩ := by
  rcases split_first 124 l.tenant.reverse with hnone | ⟨after, before, heq, hafter⟩
  · have htenant := mt List.mem_reverse.mpr hnone
    exact .inl ⟨htenant, splitTag_tag hroute htenant⟩
  · right
    have htenant : l.tenant = before.reverse ++ 124 :: after.reverse := by
      rw [← List.reverse_reverse l.tenant, heq]
      simp
    have hregroup : l.host ++ 124 :: (before.reverse ++ 124 :: after.reverse) =
        (l.host ++ 124 :: before.reverse) ++ 124 :: after.reverse := by simp
    refine ⟨before.reverse, after.reverse, ?_⟩
    rw [tag_eq, htenant, hregroup]
    exact splitTag_eq hroute _ (mt List.mem_reverse.mp hafter)

/-! ## The lines -/

lemma labelText_eq (l : RouteLabels) : labelText l = writeLabels l.pairs := by
  have hroute : ascii "route=\"" = ascii "route" ++ [61, 34] := by decide +kernel
  have hhost : ascii "\",host=\"" = 34 :: 44 :: (ascii "host" ++ [61, 34]) := by decide +kernel
  have htenant : ascii "\",tenant=\"" = 34 :: 44 :: (ascii "tenant" ++ [61, 34]) := by
    decide +kernel
  have hquote : ascii "\"" = [34] := by decide +kernel
  unfold labelText writeLabels RouteLabels.pairs writeLabel
  rw [hroute, hhost, htenant, hquote]
  simp

lemma routeLine_eq (name labels more : Bytes) (value : Nat) :
    routeLine name labels more value =
      name ++ 123 :: (labels ++ (more ++ 125 :: sp :: decimal value)) := by
  have hopen : ascii "\x7b" = [123] := by decide +kernel
  have hclose : ascii "\x7d " = [125, sp] := by decide +kernel
  unfold routeLine
  rw [hopen, hclose]
  simp

lemma routeLine_nil (name : Bytes) (l : RouteLabels) (value : Nat) :
    routeLine name (labelText l) [] value = writeSeries name (l.pairs ++ []) value := by
  rw [routeLine_eq, labelText_eq, List.append_nil]
  rfl

lemma routeLine_singleton {more : Bytes} {e : Bytes × Bytes} (hmore : more = 44 :: writeLabel e)
    (name : Bytes) (l : RouteLabels) (value : Nat) :
    routeLine name (labelText l) more value = writeSeries name (l.pairs ++ [e]) value := by
  have hne : l.pairs ≠ [] := List.cons_ne_nil _ _
  rw [routeLine_eq, labelText_eq, hmore, writeSeries, writeLabels_concat hne, List.append_assoc]

/-- Labels that are found in the key again are written as a reader expects them. -/
lemma routeLines_eq (hsplit : splitTag l.tag = l) (s : RouteMetricSample) :
    routeLines l.tag s =
      (routeCounters s).map fun c => writeSeries c.1 (l.pairs ++ c.2.1) c.2.2 := by
  have h2xx : ascii ",code=\"2xx\"" = 44 :: writeLabel (ascii "code", ascii "2xx") := by
    decide +kernel
  have h3xx : ascii ",code=\"3xx\"" = 44 :: writeLabel (ascii "code", ascii "3xx") := by
    decide +kernel
  have h4xx : ascii ",code=\"4xx\"" = 44 :: writeLabel (ascii "code", ascii "4xx") := by
    decide +kernel
  have h5xx : ascii ",code=\"5xx\"" = 44 :: writeLabel (ascii "code", ascii "5xx") := by
    decide +kernel
  have hle : ∀ v, ascii ",le=\"" ++ v ++ ascii "\"" = 44 :: writeLabel (ascii "le", v) := by
    have hopen : ascii ",le=\"" = 44 :: (ascii "le" ++ [61, 34]) := by decide +kernel
    have hquote : ascii "\"" = [34] := by decide +kernel
    intro v
    rw [hopen, hquote]
    simp [writeLabel]
  unfold routeLines routeCounters
  simp only [hsplit, List.map_append, List.map_cons, List.map_nil, List.map_map,
    routeLine_singleton h2xx, routeLine_singleton h3xx, routeLine_singleton h4xx,
    routeLine_singleton h5xx, routeLine_nil, routeLine_singleton (hle _)]
  rfl

lemma routeCounters_clear (s : RouteMetricSample) :
    ∀ c ∈ routeCounters s, Name c.1 ∧ ∀ e ∈ c.2.1, Clear e := by
  have hrequests : Name (ascii "epoll_route_requests_total") := by decide +kernel
  have hcode : ∀ v ∈ [ascii "2xx", ascii "3xx", ascii "4xx", ascii "5xx"],
      Clear (ascii "code", v) := by decide +kernel
  have herrors : Name (ascii "epoll_route_upstream_errors_total") := by decide +kernel
  have hauth : Name (ascii "epoll_route_auth_failures_total") := by decide +kernel
  have hlimit : Name (ascii "epoll_route_rate_limit_hits_total") := by decide +kernel
  have hbucket : Name (ascii "epoll_route_request_duration_seconds_bucket") := by decide +kernel
  have hle : ∀ i, Clear (ascii "le", bucketBoundary i) := by decide +kernel
  have hcount : Name (ascii "epoll_route_request_duration_seconds_count") := by decide +kernel
  simp only [List.forall_mem_cons] at hcode
  rcases hcode with ⟨h2xx, h3xx, h4xx, h5xx, -⟩
  unfold routeCounters
  simp only [List.forall_mem_append, List.forall_mem_cons, List.forall_mem_map, List.not_mem_nil,
    false_implies, implies_true, and_true]
  exact ⟨⟨⟨⟨hrequests, h2xx⟩, ⟨hrequests, h3xx⟩, ⟨hrequests, h4xx⟩, ⟨hrequests, h5xx⟩, herrors,
    hauth, hlimit⟩, fun i _ => ⟨hbucket, hle i⟩⟩, hcount⟩

/-- The labels of a request are read back from its lines. -/
lemma readSeries_routeLines (hl : l.Sound) (s : RouteMetricSample) :
    (routeLines l.tag s).map readSeries =
      (routeCounters s).map fun c => some (c.1, l.pairs ++ c.2.1, c.2.2) := by
  have hpairs : ∀ e ∈ l.pairs, Clear e := by
    have hroute : Name (ascii "route") := by decide +kernel
    have hhost : Name (ascii "host") := by decide +kernel
    have htenant : Name (ascii "tenant") := by decide +kernel
    have hprint := hl.plain
    simp only [List.forall_mem_cons, List.not_mem_nil, false_implies, implies_true,
      and_true] at hprint
    rcases hprint with ⟨⟨hr, hr'⟩, ⟨hh, hh'⟩, ht, ht'⟩
    unfold RouteLabels.pairs
    simp only [List.forall_mem_cons, List.not_mem_nil, false_implies, implies_true, and_true]
    exact ⟨⟨hroute, hr, hr'⟩, ⟨hhost, hh, hh'⟩, ⟨htenant, ht, ht'⟩⟩
  rw [routeLines_eq (splitTag_tag hl.route hl.tenant), List.map_map]
  apply List.map_congr_left
  intro c hc
  rcases routeCounters_clear s c hc with ⟨hname, hmore⟩
  apply readSeries_write hname (by simp [RouteLabels.pairs])
  intro e he
  rcases List.mem_append.mp he with he | he
  · exact hpairs e he
  · exact hmore e he

/-- Labels that are read back from the text in the braces. -/
lemma sound_of_readLabels {more rest : Bytes} {others : List (Bytes × Bytes)} {fuel : Nat}
    (h : readLabels fuel (labelText (splitTag l.tag) ++ more) = some (l.pairs ++ others, rest)) :
    l.Sound := by
  have hroute : Name (ascii "route") := by decide +kernel
  have hhost : Name (ascii "host") := by decide +kernel
  have htenant : Name (ascii "tenant") := by decide +kernel
  have htext : ∀ k : RouteLabels, labelText k ++ more =
      ascii "route" ++ 61 :: 34 :: (k.route ++ 34 :: 44 :: (ascii "host" ++ 61 :: 34 ::
        (k.host ++ 34 :: 44 :: (ascii "tenant" ++ 61 :: 34 :: (k.tenant ++ 34 :: more))))) := by
    intro k
    rw [labelText_eq]
    simp [writeLabels, writeLabel, RouteLabels.pairs]
  rw [htext] at h
  -- the route ends at the first bar and at the quote
  rcases readLabels_cons hroute h with ⟨hroute8, after, hread, hnext⟩
  rcases splitTag_route l with ⟨hbar, cut, hcut⟩
  rw [hcut] at hread
  rcases plain_of_readValue (by simp) hread with ⟨hplain, hrest⟩
  rw [readValue_quote, Option.some.injEq, Prod.mk.injEq] at hrest
  rcases hrest with ⟨rfl, rfl⟩
  rw [List.append_nil] at hcut
  rw [← hcut] at hplain hbar
  rcases hnext _ rfl with ⟨fuel', h'⟩
  -- the host ends where the tenant begins
  rcases readLabels_cons hhost h' with ⟨hhost8, after, hread', hnext'⟩
  rcases splitTag_of_route hbar with ⟨hbar', hsplit⟩ | ⟨more', tenant, hsplit⟩
  · rw [hsplit] at hread'
    rcases plain_of_readValue_quote hread' with ⟨hplain', rfl⟩
    rcases hnext' _ rfl with ⟨fuel'', h''⟩
    rcases readLabels_cons htenant h'' with ⟨htenant8, after, hread'', -⟩
    have hplain'' := (plain_of_readValue_quote hread'').1
    refine ⟨hbar, hbar', ?_⟩
    simp only [List.forall_mem_cons, List.not_mem_nil, false_implies, implies_true, and_true]
    exact ⟨⟨hplain, hroute8⟩, ⟨hplain', hhost8⟩, hplain'', htenant8⟩
  · exfalso
    rw [hsplit] at hread'
    dsimp only at hread'
    rw [← List.append_nil l.host, List.append_assoc, List.append_assoc] at hread'
    rcases plain_of_readValue (by simp) hread' with ⟨-, hrest⟩
    rcases readValue_head hrest with ⟨hquote, -⟩ | ⟨hescape, -⟩ | ⟨-, v', hv, -⟩
    · exact absurd hquote (by decide)
    · exact absurd hescape (by decide)
    · cases hv

/-! ## The map -/

lemma recordAll_concat (records : List RouteRecord) (r : RouteRecord) :
    recordAll (records ++ [r]) = recordRouteRequest (recordAll records) r :=
  List.foldl_concat _ _ _ _

/-- An entry counts the requests with its key. -/
lemma getD_lookup_recordAll (records : List RouteRecord) (key : Bytes) :
    ((recordAll records).lookup key).getD {} =
      (records.filter fun r => r.labels.tag = key).foldl RouteMetricSample.record {} := by
  induction records using List.reverseRecOn with
  | nil => rfl
  | append_singleton records r ih =>
    rw [recordAll_concat, List.filter_append, List.foldl_append]
    unfold recordRouteRequest
    by_cases hkey : r.labels.tag = key
    · rw [← ih, hkey, AList.lookup_insert, List.filter_cons_of_pos (by simpa using hkey)]
      rfl
    · rw [← ih, AList.lookup_insert_ne (Ne.symm hkey),
        List.filter_cons_of_neg (by simpa using hkey)]
      rfl

lemma lookup_recordAll {records : List RouteRecord} {r : RouteRecord} (hr : r ∈ records) :
    (recordAll records).lookup r.labels.tag =
      some ((records.filter fun r' => r'.labels.tag = r.labels.tag).foldl
        RouteMetricSample.record {}) := by
  have hmem : r.labels.tag ∈ recordAll records := by
    induction records using List.reverseRecOn with
    | nil => cases hr
    | append_singleton records r' ih =>
      rw [recordAll_concat]
      unfold recordRouteRequest
      rw [AList.mem_insert]
      rcases List.mem_append.mp hr with hr | hr
      · exact .inr (ih hr)
      · exact .inl (by rw [List.mem_singleton.mp hr])
  rcases Option.isSome_iff_exists.mp (AList.lookup_isSome.mpr hmem) with ⟨s, hs⟩
  rw [← getD_lookup_recordAll, hs]
  rfl

/-! ## Result -/

lemma tag_inj {l' : RouteLabels} (hl : l.Sound) (hl' : l'.Sound) (h : l.tag = l'.tag) :
    l = l' := by
  rw [← splitTag_tag hl.route hl.tenant, h, splitTag_tag hl'.route hl'.tenant]

/-- Other labels are not printed the same way. -/
lemma labelText_inj {l' : RouteLabels} (hl : l.Sound) (hl' : l'.Sound)
    (h : labelText (splitTag l.tag) = labelText (splitTag l'.tag)) : l = l' := by
  have hlines : routeLines l.tag {} = routeLines l'.tag {} := by
    unfold routeLines
    rw [h]
  have hread := readSeries_routeLines hl {}
  rw [hlines, readSeries_routeLines hl' {}] at hread
  have hfirst := (List.cons.inj hread).1
  rw [Option.some.injEq, Prod.mk.injEq, Prod.mk.injEq] at hfirst
  have hpairs := (List.append_inj hfirst.2.1 rfl).1
  unfold RouteLabels.pairs at hpairs
  simp only [List.cons.injEq, Prod.mk.injEq, true_and, and_true] at hpairs
  rw [RouteLabels.mk.injEq]
  exact ⟨hpairs.1.symm, hpairs.2.1.symm, hpairs.2.2.symm⟩

lemma RoutesIdentified.sound {records : List RouteRecord} (h : RoutesIdentified records)
    {r : RouteRecord} (hr : r ∈ records) : r.labels.Sound := by
  have hname : Name (ascii "epoll_route_requests_total") := by decide +kernel
  -- one line is enough, since all of them have the same labels
  have hfirst := (List.cons.inj (h.readBack r hr _ (h.apart r hr))).1
  rw [routeLine_eq] at hfirst
  rcases readLabels_of_readSeries hname hfirst with ⟨fuel, rest, hread⟩
  exact sound_of_readLabels hread

/-- Requests can be told from the exported lines, and are counted apart, exactly if the route
and the tenant of every request have no bar, and route, host and tenant can be printed as
they are. -/
theorem routes_identified_iff (records : List RouteRecord) :
    RoutesIdentified records ↔ ∀ r ∈ records, r.labels.Sound := by
  constructor
  · intro h r hr
    exact h.sound hr
  · intro h
    refine ⟨?_, ?_, ?_⟩
    · intro r hr
      rw [lookup_recordAll hr]
      unfold ownSample
      congr 2
      apply List.filter_congr
      intro r' hr'
      rw [decide_eq_decide]
      exact ⟨tag_inj (h r' hr') (h r hr), congrArg RouteLabels.tag⟩
    · intro r hr s _
      exact readSeries_routeLines (h r hr) s
    · intro r hr r' hr' hne
      exact ⟨fun htag => hne (tag_inj (h r hr) (h r' hr') htag),
        fun htext => hne (labelText_inj (h r hr) (h r' hr') htext)⟩

/-! ## Requests that are confused -/

def barInRoute : Bytes := ascii "GET /a|b HTTP/1.1\r\nHost: c\r\n\r\n"

def barInHost : Bytes := ascii "GET /a HTTP/1.1\r\nHost: b|c\r\n\r\n"

def quoteInHost : Bytes := ascii "GET /a HTTP/1.1\r\nHost: b\"c\r\n\r\n"

/-- A parsed request that has been answered with 200. -/
def answeredTo (data : Bytes) : RouteRecord :=
  ⟨prepareRequest {} (({} : HttpParser).parse {} data).request, 200, 0⟩

/-- The requests `/a|b` for host `c` and `/a` for host `b|c` are counted together, and one for
the host `b"c` has lines that cannot be read. -/
theorem confused_routes :
    (∀ data ∈ [barInRoute, barInHost, quoteInHost],
      (({} : HttpParser).parse {} data).complete = true) ∧
    (answeredTo barInRoute).labels = ⟨ascii "/a|b", ascii "c", []⟩ ∧
    (answeredTo barInHost).labels = ⟨ascii "/a", ascii "b|c", []⟩ ∧
    ((recordAll [answeredTo barInRoute, answeredTo barInHost]).lookup
      (answeredTo barInHost).labels.tag).map (·.totalRequests) = some 2 ∧
    (routeLines (answeredTo quoteInHost).labels.tag {}).head?.bind readSeries = none ∧
    ¬ RoutesIdentified [answeredTo barInRoute, answeredTo barInHost] ∧
    ¬ RoutesIdentified [answeredTo quoteInHost] := by
  have hroute : (answeredTo barInRoute).labels = ⟨ascii "/a|b", ascii "c", []⟩ := by decide +kernel
  have hhost : (answeredTo barInHost).labels = ⟨ascii "/a", ascii "b|c", []⟩ := by decide +kernel
  refine ⟨by decide +kernel, hroute, hhost, by decide +kernel, by decide +kernel, ?_, ?_⟩
  · intro h
    have hsound := (h.sound List.mem_cons_self).route
    rw [hroute] at hsound
    exact hsound (by decide +kernel)
  · intro h
    have hquote : 34 ∈ (answeredTo quoteInHost).labels.host := by decide +kernel
    exact ((h.sound List.mem_cons_self).plain _ (by simp)).1 34 hquote |>.1 rfl

end EpollGateway.Handler
