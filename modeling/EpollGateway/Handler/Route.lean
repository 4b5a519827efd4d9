import EpollGateway.Http.Message
import EpollGateway.Lib.Json
import EpollGateway.Upstream.Manager

/-! # Routes, keys and limits

The part of the configuration that decides what happens to a parsed request:
which route it belongs to, whether its key is good for that route, and which
limiter counts it. Strings that end up in a JSON document come from a parsed JSON
file, so they are `Text`.
-/

namespace EpollGateway.Handler

open Bytes Http Upstream

/-! ## Configuration -/

structure UpstreamTarget where
  name : Bytes := []
  maxRetries : Int := 1
  circuitFailureThreshold : Int := 5
  circuitRecoveryTimeoutMs : Int := 10000

structure CompositeDependency where
  name : Text
  upstreamName : Text
  path : Text := Text.ofAscii "/"
  method : Text := Text.ofAscii "GET"
  required : Bool := true
  timeoutMs : Int := 5000

structure CompositeTarget where
  name : Text := Text.empty
  dependencies : List CompositeDependency := []
  totalTimeoutMs : Int := 0

/-- `target_type`; `other` stands for every text without a meaning. -/
inductive TargetType where
  | local | upstream | composite | static | other
deriving DecidableEq, Repr

/-- `rate_limit_policy`; every other text counts by client address. -/
inductive RateLimitPolicy where
  | route | apiKey | ip
deriving DecidableEq, Repr

structure GatewayRoute where
  name : Text := Text.empty
  method : Bytes := ascii "GET"
  path : Bytes := ascii "/"
  host : Bytes := ascii "*"
  tenant : Bytes := ascii "*"
  targetType : TargetType := .upstream
  upstreamTarget : UpstreamTarget := {}
  compositeTarget : CompositeTarget := {}
  enabled : Bool := true
  authRequired : Bool := true
  allowAnonymous : Bool := false
  rateLimitPolicy : RateLimitPolicy := .apiKey
  allowedApiKeys : List Bytes := []
  deniedApiKeys : List Bytes := []

/-- A route with its handler function, if it has one. -/
structure RegisteredRoute where
  route : GatewayRoute
  handler : Bool := false

structure ApiKeyConfig where
  key : Bytes
  allowedHosts : List Bytes := []
  allowedTenants : List Bytes := []

/-- `upstream_group_id`. -/
def resolveUpstreamGroupId (route : GatewayRoute) : Bytes :=
  if route.upstreamTarget.name ≠ [] then route.upstreamTarget.name else route.name

/-! ## Matching -/

/-- Lower case, without the port. -/
def normalizeHeaderValue (value : Bytes) : Bytes := (lower value).takeWhile (· ≠ 58)

/-- The next segment of a path and what follows it. -/
def nextPathSegment (rest : Bytes) : Option (Bytes × Bytes) :=
  match rest.dropWhile (· = 47) with
  | [] => none
  | c :: cs => some ((c :: cs).takeWhile (· ≠ 47), (c :: cs).dropWhile (· ≠ 47))

/-- The names of `{name}` segments with the segments they stand for. -/
abbrev RouteParams := Headers

/-- A segment `{name}` of a pattern. -/
def paramName (seg : Bytes) : Option Bytes :=
  if 2 ≤ seg.length ∧ seg.head? = some 123 ∧ seg.getLast? = some 125 then
    some ((seg.drop 1).dropLast)
  else none

/-- The loop over both segment sequences; every pass uses up a segment of the
pattern, so its length is fuel enough. -/
def matchSegments : Nat → Bytes → Bytes → RouteParams → Option RouteParams
  | 0, _, _, _ => none
  | fuel + 1, pattern, path, params =>
    match nextPathSegment pattern, nextPathSegment path with
    | none, none => some params
    | some (pseg, pattern), some (sseg, path) =>
      match paramName pseg with
      | some name => matchSegments fuel pattern path (params.insert name sseg)
      | none => if pseg = sseg then matchSegments fuel pattern path params else none
    | _, _ => none

def matchRoute (pattern path : Bytes) : Option RouteParams :=
  if pattern.getLast? = some 42 then
    if pattern.dropLast <+: path then some ∅ else none
  else matchSegments (pattern.length + 1) pattern path ∅

def routeMatchesPath (route : GatewayRoute) (host tenant path : Bytes) : Option RouteParams :=
  if ¬ route.enabled then none
  else if route.host ≠ ascii "*" ∧ normalizeHeaderValue route.host ≠ ascii "*" ∧
      normalizeHeaderValue host ≠ normalizeHeaderValue route.host then none
  else if route.tenant ≠ ascii "*" ∧ route.tenant ≠ tenant then none
  else matchRoute route.path path

structure ResolvedRoute where
  route : Option RegisteredRoute := none
  params : RouteParams := ∅
  pathMatched : Bool := false
  allowMethods : Bytes := []

/-- The loop over the registered routes. -/
def resolveLoop (req : HttpRequest) (host tenant : Bytes) (matched : ResolvedRoute) :
    List RegisteredRoute → ResolvedRoute
  | [] => matched
  | registered :: rest =>
    match routeMatchesPath registered.route host tenant req.path with
    | none => resolveLoop req host tenant matched rest
    | some params =>
      let method := registered.route.method
      let matched :=
        { matched with
          pathMatched := true
          allowMethods :=
            (if matched.allowMethods ≠ [] then matched.allowMethods ++ ascii ", " else []) ++
              (if method = [] then ascii "*" else method) }
      if method = [] ∨ method = ascii "*" ∨ method = req.method then
        { matched with route := some registered, params := params }
      else resolveLoop req host tenant matched rest

/-- The value of a header, or the empty text. -/
def headerOr (headers : Headers) (name : Bytes) : Bytes := (headers.lookup name).getD []

def resolveRoute (routes : List RegisteredRoute) (req : HttpRequest) : ResolvedRoute :=
  resolveLoop req (headerOr req.headers (ascii "host")) (headerOr req.headers (ascii "x-tenant-id"))
    {} routes

/-- The value that `x-route-name` gets. -/
def routeName (route : GatewayRoute) : Bytes :=
  if (route.name : Bytes) = [] then route.path else route.name

/-! ## Keys -/

def extractApiKey (req : HttpRequest) : Bytes :=
  match req.headers.lookup (ascii "x-api-key") with
  | some key => key
  | none =>
    match req.headers.lookup (ascii "authorization") with
    | some val => if ascii "Bearer " <+: val then val.drop 7 else []
    | none => []

/-- `constant_time_equals`: the lengths are compared modulo 256, and the shorter
string is continued with zero bytes. -/
def constantTimeEquals (a b : Bytes) : Bool :=
  let diff := UInt8.ofNat a.length ^^^ UInt8.ofNat b.length
  (List.range (max a.length b.length)).foldl
    (fun diff i => diff ||| ((a[i]?).getD 0 ^^^ (b[i]?).getD 0)) diff == 0

/-- The last configured key that compares equal. -/
def findKey (keys : List ApiKeyConfig) (key : Bytes) : Option ApiKeyConfig :=
  keys.foldl (fun found k => if constantTimeEquals k.key key then some k else found) none

def matchesScope (allowed : List Bytes) (actual : Bytes) (hostScope : Bool) : Bool :=
  allowed = [] || allowed.any fun value =>
    value = ascii "*" ||
      (if hostScope then normalizeHeaderValue value = normalizeHeaderValue actual
        else value = actual)

/-- `ApiKeyManager::authorize`. -/
def authorize (keys : List ApiKeyConfig) (key : Bytes) (route : GatewayRoute)
    (host tenant : Bytes) : Bool :=
  match findKey keys key with
  | none => false
  | some config =>
    key ∉ route.deniedApiKeys &&
      (route.allowedApiKeys = [] || key ∈ route.allowedApiKeys) &&
      matchesScope config.allowedHosts host true && matchesScope config.allowedTenants tenant false

/-! ## Limits -/

def exemptPaths : List Bytes :=
  [ascii "/healthz", ascii "/readyz", ascii "/version", ascii "/metrics"]

/-- `should_rate_limit`; `tryAcquire` is the answer of the limiter for a key. -/
def shouldRateLimit (tryAcquire : Bytes → Bool) (req : HttpRequest) (route : GatewayRoute)
    (clientIp : Bytes) (apiKey : Option ApiKeyConfig) : Bool :=
  if req.path ∈ exemptPaths then false
  else
    match route.rateLimitPolicy, apiKey with
    | .route, _ => !tryAcquire (ascii "route:" ++ route.path ++ ascii ":" ++ req.method)
    | .apiKey, some config => !tryAcquire (ascii "api_key:" ++ config.key)
    | _, _ => !tryAcquire (ascii "ip:" ++ clientIp)

end EpollGateway.Handler
