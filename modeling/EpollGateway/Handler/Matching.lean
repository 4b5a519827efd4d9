import EpollGateway.Handler.Spelling

/-! # Matching routes in place

`matchRoute` walks over a pattern and a path with two cursors and writes the parameters
into a map of its caller as it goes, also when it fails later on. What it decides can be
said without cursors: a pattern that ends in `*` matches by its beginning; every other
pattern is split at the slashes, as the path is, and matches segment by segment
(`routes_exact`). The two ways do not overlap. A pattern with `*` at its end is never
split, even where the split would match (`wildcard_never_split`).

`resolve_route` goes through the routes once and gathers the methods for the answer 405 on
the way. It finds the route that a search with `routeMatchesRequest` would find.
-/

namespace EpollGateway.Handler

open Bytes Http Static

/-! ## The walk with cursors -/

/-- `next_path_segment`: where the next segment from `pos` on begins, and its length.
Afterwards `pos` is the end of the segment. -/
def nextPathSegmentAt (s : Bytes) (pos : Nat) : Option (Nat × Nat) :=
  let pos := pos + ((s.drop pos).takeWhile (· = 47)).length
  if s.length ≤ pos then none
  else
    let stop := pos + ((s.drop pos).takeWhile (· ≠ 47)).length
    some (pos, stop - pos)

/-- The loop of `matchRoute`, with the map of the caller. -/
def matchLoop (pattern path : Bytes) : Nat → Nat → Nat → RouteParams → Bool × RouteParams
  | 0, _, _, params => (false, params)
  | fuel + 1, patternPos, pathPos, params =>
    match nextPathSegmentAt pattern patternPos, nextPathSegmentAt path pathPos with
    | none, none => (true, params)
    | some (pseg, plen), some (sseg, slen) =>
      match paramName ((pattern.drop pseg).take plen) with
      | some name =>
        matchLoop pattern path fuel (pseg + plen) (sseg + slen)
          (params.insert name ((path.drop sseg).take slen))
      | none =>
        if plen ≠ slen ∨ (pattern.drop pseg).take plen ≠ (path.drop sseg).take plen then
          (false, params)
        else matchLoop pattern path fuel (pseg + plen) (sseg + slen) params
    -- different numbers of segments
    | _, _ => (false, params)

/-- `matchRoute`; every pass uses up a byte of the pattern. -/
def matchRouteInto (pattern path : Bytes) (params : RouteParams) : Bool × RouteParams :=
  if pattern.getLast? = some 42 then (decide (pattern.dropLast <+: path), params)
  else matchLoop pattern path (pattern.length + 1) 0 0 params

def routeMatchesPathInto (route : GatewayRoute) (host tenant path : Bytes)
    (params : RouteParams) : Bool × RouteParams :=
  if ¬ route.enabled then (false, params)
  else if route.host ≠ ascii "*" ∧ normalizeHeaderValue route.host ≠ ascii "*" ∧
      normalizeHeaderValue host ≠ normalizeHeaderValue route.host then (false, params)
  else if route.tenant ≠ ascii "*" ∧ route.tenant ≠ tenant then (false, params)
  else matchRouteInto route.path path params

def routeMatchesRequest (route : GatewayRoute) (method host tenant path : Bytes)
    (params : RouteParams) : Bool × RouteParams :=
  let matched := routeMatchesPathInto route host tenant path params
  if ¬ matched.1 then (false, matched.2)
  else (decide (route.method = [] ∨ route.method = ascii "*" ∨ route.method = method), matched.2)

/-! ## Matching by splitting -/

/-- A segment of a pattern is a name in braces, or the segment of the path. -/
def SegmentMatches (pseg sseg : Bytes) : Prop := (∃ name, pseg = 123 :: name ++ [125]) ∨ pseg = sseg

/-- The pattern ends in `*`, and the path begins with the rest of it. -/
def WildcardMatches (pattern path : Bytes) : Prop :=
  ∃ start, pattern = start ++ [42] ∧ start <+: path

/-- As many segments, each matching its counterpart. -/
def SplitMatches (pattern path : Bytes) : Prop :=
  List.Forall₂ SegmentMatches (pathNames pattern) (pathNames path)

/-- The names in braces with their segments, in the order of the path. -/
def bindings (psegs ssegs : List Bytes) : List (Bytes × Bytes) :=
  (psegs.zip ssegs).filterMap fun seg => (paramName seg.1).map (·, seg.2)

/-- The bindings of a pattern; a wildcard has none. -/
def boundParams (pattern path : Bytes) : List (Bytes × Bytes) :=
  if pattern.getLast? = some 42 then [] else bindings (pathNames pattern) (pathNames path)

/-- What `resolve_route` should return for a request. -/
structure Resolves (routes : List RegisteredRoute) (req : HttpRequest) (matched : ResolvedRoute) :
    Prop where
  first : matched.route = routes.find? fun r =>
    (routeMatchesRequest r.route req.method (headerOr req.headers (ascii "host"))
      (headerOr req.headers (ascii "x-tenant-id")) req.path ∅).1
  params : ∀ r, matched.route = some r → matched.params =
    (routeMatchesRequest r.route req.method (headerOr req.headers (ascii "host"))
      (headerOr req.headers (ascii "x-tenant-id")) req.path ∅).2
  allowed : matched.route = none → ∀ onPath, onPath = (routes.filter fun r =>
      (routeMatchesPathInto r.route (headerOr req.headers (ascii "host"))
        (headerOr req.headers (ascii "x-tenant-id")) req.path ∅).1) →
    (matched.pathMatched = true ↔ onPath ≠ []) ∧
      matched.allowMethods = (ascii ", ").intercalate (onPath.map (·.route.method))

/-! ## Segments -/

lemma drop_length_takeWhile (p : UInt8 → Bool) (l : Bytes) :
    l.drop (l.takeWhile p).length = l.dropWhile p := by
  induction l with
  | nil => rfl
  | cons c cs ih =>
    by_cases hc : p c
    · rw [List.takeWhile_cons_of_pos hc, List.dropWhile_cons_of_pos hc]
      exact ih
    · rw [List.takeWhile_cons_of_neg hc, List.dropWhile_cons_of_neg hc]
      rfl

lemma take_length_takeWhile (p : UInt8 → Bool) (l : Bytes) :
    l.take (l.takeWhile p).length = l.takeWhile p :=
  (List.prefix_iff_eq_take.mp (List.takeWhile_prefix p)).symm

/-- The cursor stands where the rest of the text begins. -/
lemma nextPathSegmentAt_eq (s : Bytes) (pos : Nat) :
    nextPathSegment (s.drop pos) = (nextPathSegmentAt s pos).map fun seg =>
      ((s.drop seg.1).take seg.2, s.drop (seg.1 + seg.2)) := by
  unfold nextPathSegment nextPathSegmentAt
  rw [← drop_length_takeWhile, List.drop_drop]
  generalize pos + ((s.drop pos).takeWhile (· = 47)).length = start
  by_cases hend : s.length ≤ start
  · simp [hend, List.drop_eq_nil_of_le hend]
  · rcases hrest : s.drop start with _ | ⟨c, cs⟩
    · exact absurd (List.drop_eq_nil_iff.mp hrest) hend
    · dsimp only
      rw [← hrest, if_neg hend, Nat.add_sub_cancel_left, Option.map_some, ← List.drop_drop,
        take_length_takeWhile, drop_length_takeWhile]

lemma length_segmentAt {s : Bytes} {pos seg len : Nat}
    (h : nextPathSegmentAt s pos = some (seg, len)) : ((s.drop seg).take len).length = len := by
  unfold nextPathSegmentAt at h
  dsimp only at h
  split at h
  · cases h
  · simp only [Option.some.injEq, Prod.mk.injEq] at h
    rcases h with ⟨rfl, rfl⟩
    rw [Nat.add_sub_cancel_left, take_length_takeWhile]

/-- The names of a path as the cursor meets them. -/
lemma nextPathSegmentAt_names (s : Bytes) (pos : Nat) :
    nextPathSegmentAt s pos = none ∧ pathNames (s.drop pos) = [] ∨
      ∃ seg len, nextPathSegmentAt s pos = some (seg, len) ∧
        ((s.drop seg).take len).length = len ∧
        pathNames (s.drop pos) = (s.drop seg).take len :: pathNames (s.drop (seg + len)) := by
  have heq := nextPathSegmentAt_eq s pos
  rcases hat : nextPathSegmentAt s pos with _ | ⟨seg, len⟩
  · left
    rw [hat, Option.map_none] at heq
    rcases nextPathSegment_names (s.drop pos) with ⟨-, hnames⟩ | ⟨seg, rest, hsome, -⟩
    · exact ⟨rfl, hnames⟩
    · rw [heq] at hsome
      cases hsome
  · right
    rw [hat, Option.map_some] at heq
    refine ⟨seg, len, rfl, length_segmentAt hat, ?_⟩
    rcases nextPathSegment_names (s.drop pos) with ⟨hnone, -⟩ | ⟨seg', rest, hsome, hnames⟩
    · rw [heq] at hnone
      cases hnone
    · rw [heq] at hsome
      cases hsome
      exact hnames

lemma length_pathNames_le (p : Bytes) : (pathNames p).length ≤ p.length := by
  induction hlen : p.length using Nat.strong_induction_on generalizing p with
  | h n ih =>
    subst hlen
    rcases split_first 47 p with hno | ⟨m, rest, rfl, hm⟩
    · by_cases hnil : p = []
      · rw [hnil, pathNames_nil]
        exact Nat.le_refl _
      · rw [pathNames_name hnil hno]
        exact List.length_pos_of_ne_nil hnil
    · have hrest : (pathNames rest).length ≤ rest.length := by
        apply ih rest.length ?_ rest rfl
        simp
        omega
      have hname : (pathNames m).length ≤ m.length := by
        apply ih m.length ?_ m rfl
        simp
      rw [pathNames_append_cons, List.length_append, List.length_append, List.length_cons]
      omega

lemma paramName_eq_some {seg name : Bytes} :
    paramName seg = some name ↔ seg = 123 :: name ++ [125] := by
  unfold paramName
  constructor
  · intro h
    split at h
    · rename_i hseg
      rcases hseg with ⟨hlen, hhead, hlast⟩
      rcases seg with _ | ⟨c, cs⟩
      · cases hhead
      · cases hhead
        have hcs : cs ≠ [] := by
          rintro rfl
          simp at hlen
        rw [List.drop_one, List.tail_cons, Option.some.injEq] at h
        rw [List.getLast?_cons_of_ne_nil hcs, List.getLast?_eq_some_getLast hcs,
          Option.some.injEq] at hlast
        rw [← h, List.cons_append, ← hlast, List.dropLast_concat_getLast hcs]
    · cases h
  · rintro rfl
    rw [List.cons_append, if_pos]
    · simp
    · refine ⟨by simp, rfl, ?_⟩
      rw [← List.cons_append]
      exact List.getLast?_concat ..

/-! ## The walk -/

/-- The bindings, written into the map one after the other. -/
def bindAll (params : RouteParams) (bound : List (Bytes × Bytes)) : RouteParams :=
  bound.foldl (fun params b => params.insert b.1 b.2) params

lemma lookup_bindAll (params : RouteParams) (bound : List (Bytes × Bytes)) (name : Bytes) :
    (bindAll params bound).lookup name = (bound.reverse.lookup name).or (params.lookup name) := by
  induction bound using List.reverseRecOn with
  | nil => rfl
  | append_singleton bound b ih =>
    unfold bindAll at ih ⊢
    rw [List.foldl_append, List.foldl_cons, List.foldl_nil, List.reverse_append,
      List.reverse_singleton, List.singleton_append]
    rcases b with ⟨bname, seg⟩
    by_cases hname : name = bname
    · subst hname
      rw [AList.lookup_insert, List.lookup_cons_self]
      rfl
    · rw [AList.lookup_insert_ne hname, ih, List.lookup_cons, beq_eq_false_iff_ne.mpr hname]

lemma bindings_plain {pseg : Bytes} (h : paramName pseg = none) (sseg : Bytes)
    (psegs ssegs : List Bytes) :
    bindings (pseg :: psegs) (sseg :: ssegs) = bindings psegs ssegs := by
  simp [bindings, h]

lemma bindings_param {pseg name : Bytes} (h : paramName pseg = some name) (sseg : Bytes)
    (psegs ssegs : List Bytes) :
    bindings (pseg :: psegs) (sseg :: ssegs) = (name, sseg) :: bindings psegs ssegs := by
  simp [bindings, h]

/-- The walk from two cursors on, said with the names that are left. -/
lemma matchLoop_spec (pattern path : Bytes) {fuel patternPos pathPos : Nat} (params : RouteParams)
    (hfuel : (pathNames (pattern.drop patternPos)).length < fuel) :
    ((matchLoop pattern path fuel patternPos pathPos params).1 = true ↔
      List.Forall₂ SegmentMatches (pathNames (pattern.drop patternPos))
        (pathNames (path.drop pathPos))) ∧
    ((matchLoop pattern path fuel patternPos pathPos params).1 = true →
      (matchLoop pattern path fuel patternPos pathPos params).2 = bindAll params
        (bindings (pathNames (pattern.drop patternPos)) (pathNames (path.drop pathPos)))) := by
  induction fuel generalizing patternPos pathPos params with
  | zero => exact absurd hfuel (Nat.not_lt_zero _)
  | succ fuel ih =>
    rw [matchLoop]
    rcases nextPathSegmentAt_names pattern patternPos with
      ⟨hp, hpn⟩ | ⟨pseg, plen, hp, hplen, hpn⟩
    · rcases nextPathSegmentAt_names path pathPos with ⟨hq, hqn⟩ | ⟨sseg, slen, hq, -, hqn⟩
      · rw [hp, hq, hpn, hqn]
        simp [bindings, bindAll]
      · rw [hp, hq, hpn, hqn]
        simp
    · rcases nextPathSegmentAt_names path pathPos with ⟨hq, hqn⟩ | ⟨sseg, slen, hq, hslen, hqn⟩
      · rw [hp, hq, hpn, hqn]
        simp
      · rw [hpn, List.length_cons, Nat.succ_lt_succ_iff] at hfuel
        rw [hp, hq, hpn, hqn]
        have hstep := fun params' => @ih (pseg + plen) (sseg + slen) params' hfuel
        dsimp only
        rcases hname : paramName ((pattern.drop pseg).take plen) with _ | name
        · -- the segment stands for itself
          dsimp only
          split
          · rename_i hne
            have hdiff : ¬ SegmentMatches ((pattern.drop pseg).take plen)
                ((path.drop sseg).take slen) := by
              rintro (⟨name, hbrace⟩ | heq)
              · rw [paramName_eq_some.mpr hbrace] at hname
                cases hname
              · have hlen : plen = slen := by rw [← hplen, heq, hslen]
                rcases hne with hne | hne
                · exact hne hlen
                · rw [hlen] at hne heq
                  exact hne heq
            simp [hdiff]
          · rename_i heq
            rw [not_or, not_ne_iff, not_ne_iff] at heq
            rcases heq with ⟨hlen, heq⟩
            rw [← hlen] at hstep ⊢
            rw [← heq, List.forall₂_cons, bindings_plain hname]
            exact ⟨(hstep params).1.trans (and_iff_right (.inr rfl)).symm, (hstep params).2⟩
        · -- the segment binds its name
          dsimp only
          rw [List.forall₂_cons, bindings_param hname]
          have hmatch : SegmentMatches ((pattern.drop pseg).take plen)
              ((path.drop sseg).take slen) := .inl ⟨name, paramName_eq_some.mp hname⟩
          exact ⟨(hstep _).1.trans (and_iff_right hmatch).symm, (hstep _).2⟩

lemma matchLoop_whole (pattern path : Bytes) (params : RouteParams) :
    ((matchLoop pattern path (pattern.length + 1) 0 0 params).1 = true ↔
      SplitMatches pattern path) ∧
    ((matchLoop pattern path (pattern.length + 1) 0 0 params).1 = true →
      (matchLoop pattern path (pattern.length + 1) 0 0 params).2 =
        bindAll params (bindings (pathNames pattern) (pathNames path))) := by
  have hfuel : (pathNames (pattern.drop 0)).length < pattern.length + 1 :=
    Nat.lt_succ_of_le (length_pathNames_le pattern)
  have hloop := @matchLoop_spec pattern path _ 0 0 params hfuel
  rwa [List.drop_zero, List.drop_zero] at hloop

lemma matchRouteInto_iff (pattern path : Bytes) (params : RouteParams) :
    (matchRouteInto pattern path params).1 = true ↔
      WildcardMatches pattern path ∨ pattern.getLast? ≠ some 42 ∧ SplitMatches pattern path := by
  unfold matchRouteInto
  by_cases hwild : pattern.getLast? = some 42
  · rcases List.getLast?_eq_some_iff.mp hwild with ⟨start, rfl⟩
    rw [if_pos hwild, List.dropLast_concat, decide_eq_true_iff]
    constructor
    · intro hpre
      exact .inl ⟨start, rfl, hpre⟩
    · rintro (⟨start', heq, hpre⟩ | ⟨hno, -⟩)
      · rw [List.append_cancel_right heq]
        exact hpre
      · exact absurd hwild hno
  · rw [if_neg hwild, (matchLoop_whole pattern path params).1]
    constructor
    · intro hsplit
      exact .inr ⟨hwild, hsplit⟩
    · rintro (⟨start, rfl, -⟩ | ⟨-, hsplit⟩)
      · exact absurd List.getLast?_concat hwild
      · exact hsplit

lemma matchRouteInto_params {pattern path : Bytes} {params : RouteParams}
    (h : (matchRouteInto pattern path params).1 = true) :
    (matchRouteInto pattern path params).2 = bindAll params (boundParams pattern path) := by
  unfold matchRouteInto boundParams at *
  by_cases hwild : pattern.getLast? = some 42
  · rw [if_pos hwild, if_pos hwild]
    rfl
  · rw [if_neg hwild] at h ⊢
    rw [if_neg hwild]
    exact (matchLoop_whole pattern path params).2 h

/-! ## One pass over the routes -/

/-- What the caller of a match with an empty map can see. -/
def outcome (matched : Bool × RouteParams) : Option RouteParams :=
  if matched.1 then some matched.2 else none

/-- The walk with cursors is the walk over what is left. -/
lemma matchSegments_eq_outcome (pattern path : Bytes) (fuel patternPos pathPos : Nat)
    (params : RouteParams) :
    matchSegments fuel (pattern.drop patternPos) (path.drop pathPos) params =
      outcome (matchLoop pattern path fuel patternPos pathPos params) := by
  induction fuel generalizing patternPos pathPos params with
  | zero => rfl
  | succ fuel ih =>
    rw [matchSegments, matchLoop, nextPathSegmentAt_eq, nextPathSegmentAt_eq]
    rcases hp : nextPathSegmentAt pattern patternPos with _ | ⟨pseg, plen⟩
    · rcases nextPathSegmentAt path pathPos with _ | ⟨sseg, slen⟩
      · rfl
      · rfl
    · rcases hq : nextPathSegmentAt path pathPos with _ | ⟨sseg, slen⟩
      · rfl
      · rw [Option.map_some, Option.map_some]
        dsimp only
        rcases paramName ((pattern.drop pseg).take plen) with _ | name
        · have hsame : (pattern.drop pseg).take plen = (path.drop sseg).take slen ↔
              ¬ (plen ≠ slen ∨ (pattern.drop pseg).take plen ≠ (path.drop sseg).take plen) := by
            rw [not_or, not_ne_iff, not_ne_iff]
            constructor
            · intro heq
              have hlen : plen = slen := by
                rw [← length_segmentAt hp, heq, length_segmentAt hq]
              rw [hlen] at heq ⊢
              exact ⟨rfl, heq⟩
            · rintro ⟨rfl, heq⟩
              exact heq
          dsimp only
          by_cases heq : (pattern.drop pseg).take plen = (path.drop sseg).take slen
          · rw [if_pos heq, if_neg (hsame.mp heq)]
            exact ih _ _ params
          · rw [if_neg heq, if_pos (not_not.mp fun h => heq (hsame.mpr h))]
            rfl
        · exact ih _ _ _

lemma routeMatchesPath_eq_outcome (route : GatewayRoute) (host tenant path : Bytes) :
    routeMatchesPath route host tenant path =
      outcome (routeMatchesPathInto route host tenant path ∅) := by
  unfold routeMatchesPath routeMatchesPathInto
  split
  · rfl
  split
  · rfl
  split
  · rfl
  unfold matchRoute matchRouteInto
  split
  · unfold outcome
    simp only [decide_eq_true_eq]
  · exact matchSegments_eq_outcome route.path path _ 0 0 ∅

lemma intercalate_ne_nil (sep : Bytes) {part : Bytes} (hne : part ≠ []) (parts : List Bytes) :
    sep.intercalate (part :: parts) ≠ [] := by
  rcases parts with _ | ⟨next, parts⟩
  · rw [List.intercalate_singleton]
    exact hne
  · rw [List.intercalate_cons_cons]
    simp [hne]

/-- One more part, with the separator only if there is something in front of it. -/
lemma intercalate_concat (sep : Bytes) {parts : List Bytes} (hne : ∀ p ∈ parts, p ≠ [])
    (part : Bytes) :
    sep.intercalate (parts ++ [part]) =
      (if sep.intercalate parts ≠ [] then sep.intercalate parts ++ sep else []) ++ part := by
  induction parts with
  | nil => simp
  | cons p ps ih =>
    have hps := ih fun q hq => hne q (List.mem_cons_of_mem _ hq)
    rw [if_pos (intercalate_ne_nil sep (hne p List.mem_cons_self) ps), List.cons_append]
    rcases ps with _ | ⟨q, ps⟩
    · simp
    · have hq : q ≠ [] := hne q (by simp)
      rw [if_pos (intercalate_ne_nil sep hq ps)] at hps
      rw [List.intercalate_cons_of_ne_nil (by simp), hps, List.intercalate_cons_cons]
      simp

section Resolve

variable (req : HttpRequest) (host tenant : Bytes)

/-- A step of the loop: the route is passed over, noted for its method, or taken. -/
lemma resolveLoop_cons (matched : ResolvedRoute) (r : RegisteredRoute)
    (rest : List RegisteredRoute) :
    (routeMatchesPathInto r.route host tenant req.path ∅).1 = false ∧
        (routeMatchesRequest r.route req.method host tenant req.path ∅).1 = false ∧
        resolveLoop req host tenant matched (r :: rest) = resolveLoop req host tenant matched rest ∨
      (routeMatchesPathInto r.route host tenant req.path ∅).1 = true ∧
        (routeMatchesRequest r.route req.method host tenant req.path ∅).1 = false ∧
        r.route.method ≠ [] ∧
        resolveLoop req host tenant matched (r :: rest) = resolveLoop req host tenant
          { matched with
            pathMatched := true
            allowMethods :=
              (if matched.allowMethods ≠ [] then matched.allowMethods ++ ascii ", " else []) ++
                r.route.method } rest ∨
      (routeMatchesRequest r.route req.method host tenant req.path ∅).1 = true ∧
        (resolveLoop req host tenant matched (r :: rest)).route = some r ∧
        (resolveLoop req host tenant matched (r :: rest)).params =
          (routeMatchesRequest r.route req.method host tenant req.path ∅).2 := by
  rw [resolveLoop, routeMatchesPath_eq_outcome]
  unfold routeMatchesRequest outcome
  rcases routeMatchesPathInto r.route host tenant req.path ∅ with ⟨_ | _, params⟩
  · left
    exact ⟨rfl, rfl, rfl⟩
  · right
    by_cases hmethod : r.route.method = [] ∨ r.route.method = ascii "*" ∨
        r.route.method = req.method
    · right
      simp only [hmethod]
      exact ⟨rfl, rfl, rfl⟩
    · left
      have hne : r.route.method ≠ [] := fun h => hmethod (.inl h)
      simp only [hmethod, if_neg hne]
      exact ⟨trivial, rfl, hne, rfl⟩

/-- The loop from a route on; `seen` are the routes passed before whose paths matched. -/
lemma resolveLoop_spec (routes : List RegisteredRoute) {matched : ResolvedRoute}
    {seen : List RegisteredRoute} (hroute : matched.route = none)
    (hpath : matched.pathMatched = true ↔ seen ≠ [])
    (hallow : matched.allowMethods = (ascii ", ").intercalate (seen.map (·.route.method)))
    (hseen : ∀ r ∈ seen, r.route.method ≠ []) :
    (resolveLoop req host tenant matched routes).route = (routes.find? fun r =>
        (routeMatchesRequest r.route req.method host tenant req.path ∅).1) ∧
      (∀ r, (resolveLoop req host tenant matched routes).route = some r →
        (resolveLoop req host tenant matched routes).params =
          (routeMatchesRequest r.route req.method host tenant req.path ∅).2) ∧
      ((resolveLoop req host tenant matched routes).route = none →
        ∀ onPath, onPath = seen ++ (routes.filter fun r =>
          (routeMatchesPathInto r.route host tenant req.path ∅).1) →
        ((resolveLoop req host tenant matched routes).pathMatched = true ↔ onPath ≠ []) ∧
        (resolveLoop req host tenant matched routes).allowMethods =
          (ascii ", ").intercalate (onPath.map (·.route.method))) := by
  induction routes generalizing matched seen with
  | nil =>
    refine ⟨hroute, ?_, ?_⟩
    · intro r hr
      rw [resolveLoop, hroute] at hr
      cases hr
    · rintro - onPath rfl
      rw [List.filter_nil, List.append_nil]
      exact ⟨hpath, hallow⟩
  | cons r rest ih =>
    rcases resolveLoop_cons req host tenant matched r rest with
      ⟨hoff, hno, hloop⟩ | ⟨hon, hno, hmethod, hloop⟩ | ⟨hyes, hfound, hparams⟩
    · rw [hloop, List.find?_cons_of_neg (by simp [hno]), List.filter_cons_of_neg (by simp [hoff])]
      exact ih hroute hpath hallow hseen
    · rw [hloop, List.find?_cons_of_neg (by simp [hno]), List.filter_cons_of_pos (by exact hon),
        List.append_cons]
      apply ih
      · exact hroute
      · simp
      · rw [List.map_append, List.map_singleton, intercalate_concat, ← hallow]
        intro m hm
        rcases List.mem_map.mp hm with ⟨r', hr', rfl⟩
        exact hseen r' hr'
      · intro r' hr'
        rcases List.mem_append.mp hr' with hr' | hr'
        · exact hseen r' hr'
        · rw [List.mem_singleton.mp hr']
          exact hmethod
    · rw [List.find?_cons_of_pos (by exact hyes)]
      refine ⟨hfound, ?_, ?_⟩
      · intro r' hr'
        rw [hfound, Option.some.injEq] at hr'
        rw [← hr']
        exact hparams
      · intro hnone
        rw [hfound] at hnone
        cases hnone

end Resolve

lemma resolveRoute_resolves (routes : List RegisteredRoute) (req : HttpRequest) :
    Resolves routes req (resolveRoute routes req) := by
  have hspec := resolveLoop_spec req (headerOr req.headers (ascii "host"))
    (headerOr req.headers (ascii "x-tenant-id")) routes rfl
    (show ({} : ResolvedRoute).pathMatched = true ↔ ([] : List RegisteredRoute) ≠ [] by simp) rfl
    (by simp)
  rcases hspec with ⟨hfirst, hparams, hallowed⟩
  exact ⟨hfirst, hparams, hallowed⟩

/-! ## Main result -/

/-- Matching in place is matching by splitting, with the wildcard decided first, and the one
pass over the routes finds what a search finds. -/
theorem routes_exact :
    (∀ pattern path params,
      ((matchRouteInto pattern path params).1 = true ↔
        WildcardMatches pattern path ∨
          pattern.getLast? ≠ some 42 ∧ SplitMatches pattern path) ∧
      ((matchRouteInto pattern path params).1 = true → ∀ name,
        (matchRouteInto pattern path params).2.lookup name =
          ((boundParams pattern path).reverse.lookup name).or (params.lookup name))) ∧
      ∀ routes req, Resolves routes req (resolveRoute routes req) := by
  refine ⟨fun pattern path params => ⟨matchRouteInto_iff pattern path params, ?_⟩,
    resolveRoute_resolves⟩
  intro hmatch name
  rw [matchRouteInto_params hmatch, lookup_bindAll]

/-- The pattern `/x/` with `*` behind it does not match the same text without its first
slash, though both have the same segments. -/
theorem wildcard_never_split :
    (matchRouteInto (ascii "/x/*") (ascii "x/*") ∅).1 = false ∧
      SplitMatches (ascii "/x/*") (ascii "x/*") := by
  refine ⟨by decide +kernel, ?_⟩
  have hslash : ascii "/x/*" = 47 :: ascii "x/*" := rfl
  unfold SplitMatches
  rw [hslash, pathNames_slash, List.forall₂_same]
  intro seg _
  exact .inr rfl

end EpollGateway.Handler
