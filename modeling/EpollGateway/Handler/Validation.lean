import EpollGateway.Handler.FanOut
import Mathlib.Data.List.Dedup

/-! # Validated routes

`Config::validate` goes over the routes of a configuration. It compares the names of routes
and their match keys, but not the names of the dependencies of a composite. The document of a
composite has one entry for each name.

* A response shows every dependency, with its own outcome, and is a 503 exactly if it shows a
  required dependency that failed, exactly if the dependencies have different names
  (`composite_complete_iff`).
* `validate` accepts a composite with two dependencies of one name, in whose response a
  required dependency that failed is not shown (`hidden_dependency`).
-/

namespace EpollGateway.Handler

open Bytes Http Upstream Machine

/-! ## The validator -/

/-- A route of the configuration, with what only `validate` looks at. -/
structure RouteEntry where
  route : GatewayRoute
  staticRoot : Bytes := []
  timeoutMs : Int := 5000
  /-- `rate_limit_policy` is `api_key`, `ip` or `route`. -/
  policyKnown : Bool := true

/-- What `validate` reports of a route, by the field that it names. -/
inductive RouteProblem where
  | nameEmpty
  | nameDuplicate (name : Bytes)
  | methodEmpty
  | path
  | targetType
  | compositeName
  | compositeDependencies
  | compositeTotalTimeoutMs
  | dependencyName (index : Nat)
  | dependencyUpstreamEmpty (index : Nat)
  | dependencyPath (index : Nat)
  | dependencyTimeoutMs (index : Nat)
  | dependencyUpstreamUnknown (index : Nat) (name : Bytes)
  | rateLimitPolicy
  | upstreamNameEmpty
  | upstreamNameUnknown (name : Bytes)
  | staticRoot
  | upstreamTimeoutMs
  | maxRetries
  | circuitFailureThreshold
  | circuitRecoveryTimeoutMs
  | duplicateMatch (key : Bytes)
deriving DecidableEq, Repr

/-- A problem is reported if `bad`. -/
def report (bad : Bool) (p : RouteProblem) : List RouteProblem := if bad then [p] else []

section Validate

-- `known` are the names of the upstreams of the configuration
variable (known : Bytes → Bool)

def dependencyProblems (index : Nat) (dep : CompositeDependency) : List RouteProblem :=
  report (dep.name.1.isEmpty) (.dependencyName index) ++
    report (dep.upstreamName.1.isEmpty) (.dependencyUpstreamEmpty index) ++
    report (dep.path.1.head? ≠ some 47) (.dependencyPath index) ++
    report (dep.timeoutMs ≤ 0) (.dependencyTimeoutMs index) ++
    report (!known dep.upstreamName) (.dependencyUpstreamUnknown index dep.upstreamName)

def compositeProblems (t : CompositeTarget) : List RouteProblem :=
  report t.name.1.isEmpty .compositeName ++
    report t.dependencies.isEmpty .compositeDependencies ++
    report (t.totalTimeoutMs < 0) .compositeTotalTimeoutMs ++
    t.dependencies.zipIdx.flatMap fun (dep, index) => dependencyProblems known index dep

/-- What is checked of a route alone. -/
def routeProblems (e : RouteEntry) : List RouteProblem :=
  report e.route.method.isEmpty .methodEmpty ++
    report (e.route.path.head? ≠ some 47) .path ++
    report (e.route.targetType = .other) .targetType ++
    (if e.route.targetType = .composite then compositeProblems known e.route.compositeTarget
      else []) ++
    report (!e.policyKnown) .rateLimitPolicy ++
    (if e.route.targetType = .upstream then
        if e.route.upstreamTarget.name.isEmpty then [.upstreamNameEmpty]
        else report (!known e.route.upstreamTarget.name)
          (.upstreamNameUnknown e.route.upstreamTarget.name)
      else report (e.route.targetType = .static && e.staticRoot.isEmpty) .staticRoot) ++
    report (e.timeoutMs ≤ 0) .upstreamTimeoutMs ++
    report (e.route.upstreamTarget.maxRetries < 0) .maxRetries ++
    report (e.route.upstreamTarget.circuitFailureThreshold ≤ 0) .circuitFailureThreshold ++
    report (e.route.upstreamTarget.circuitRecoveryTimeoutMs ≤ 0) .circuitRecoveryTimeoutMs

/-- `method|host|tenant|path`. -/
def matchKey (r : GatewayRoute) : Bytes :=
  r.method ++ ascii "|" ++ r.host ++ ascii "|" ++ r.tenant ++ ascii "|" ++ r.path

/-- The loop over the routes, with `route_names` and `match_keys`. -/
def validateLoop (names keys : List Bytes) (index : Nat) :
    List RouteEntry → List (Nat × RouteProblem)
  | [] => []
  | e :: rest =>
    let name : Bytes := e.route.name
    let key := matchKey e.route
    let problems :=
      (if name.isEmpty then [.nameEmpty] else report (names.contains name) (.nameDuplicate name)) ++
        routeProblems known e ++ report (keys.contains key) (.duplicateMatch key)
    problems.map (fun p => (index, p)) ++
      validateLoop (if name.isEmpty then names else name :: names) (key :: keys) (index + 1) rest

/-- The part of `Config::validate` that goes over the routes. -/
def validateRoutes (entries : List RouteEntry) : List (Nat × RouteProblem) :=
  validateLoop known [] [] 0 entries

end Validate

/-! ## The dependencies object -/

lemma insertField_perm (k : Bytes) (v : Json) (fields : Item) :
    (Json.insertField k v fields).Perm ((k, v) :: fields) := by
  induction fields with
  | nil => exact List.Perm.refl _
  | cons f rest ih =>
    rw [Json.insertField]
    split
    · exact List.Perm.refl _
    · exact (ih.cons f).trans (List.Perm.swap _ _ _)

lemma nodup_setField {fields : Item} (h : (fields.map Prod.fst).Nodup) (k : Bytes) (v : Json) :
    ((Json.setField k v fields).map Prod.fst).Nodup := by
  rw [Json.setField, ((insertField_perm k v _).map Prod.fst).nodup_iff, List.map_cons,
    List.nodup_cons]
  constructor
  · intro hmem
    rcases List.mem_map.mp hmem with ⟨f, hf, hkey⟩
    have hne := (List.mem_filter.mp hf).2
    exact of_decide_eq_true hne hkey
  · exact h.sublist (List.filter_sublist.map Prod.fst)

/-- One entry for each name. -/
lemma nodup_dependenciesObject (children : List ChildExchange) :
    ((dependenciesObject children).map Prod.fst).Nodup := by
  have hloop : ∀ acc : Item, (acc.map Prod.fst).Nodup →
      ((children.foldl (fun it ch => Json.setField ch.name (.obj ch.item) it) acc).map
        Prod.fst).Nodup := by
    induction children with
    | nil => exact fun acc h => h
    | cons ch rest ih => exact fun acc h => ih _ (nodup_setField h _ _)
  exact hloop [] List.nodup_nil

lemma shown_of_nodup {α : Type} {key : α → Bytes} {l : List α} (h : (l.map key).Nodup) :
    shown key l = l := by
  induction l with
  | nil => rfl
  | cons a rest ih =>
    rw [List.map_cons, List.nodup_cons] at h
    have hlast : ¬ (rest.any fun later => key later = key a) = true := by
      intro hany
      rcases List.any_eq_true.mp hany with ⟨later, hlater, hkey⟩
      exact h.1 (List.mem_map.mpr ⟨later, hlater, of_decide_eq_true hkey⟩)
    rw [shown, if_neg hlast, ih h.2]

/-- Every key has a last element. -/
lemma exists_mem_shown {α : Type} (key : α → Bytes) {l : List α} {a : α} (h : a ∈ l) :
    ∃ b ∈ shown key l, key b = key a := by
  induction l generalizing a with
  | nil => cases h
  | cons c rest ih =>
    rw [shown]
    rcases List.mem_cons.mp h with rfl | hrest
    · split
      · rename_i hlater
        rcases List.any_eq_true.mp hlater with ⟨later, hmem, hkey⟩
        rcases ih hmem with ⟨b, hb, hb'⟩
        exact ⟨b, hb, hb'.trans (of_decide_eq_true hkey)⟩
      · exact ⟨a, List.mem_cons_self, rfl⟩
    · rcases ih hrest with ⟨b, hb, hkey⟩
      split
      · exact ⟨b, hb, hkey⟩
      · exact ⟨b, List.mem_cons_of_mem _ hb, hkey⟩

variable {children : List ChildExchange} {deps : List CompositeDependency}

lemma mem_keys_dependenciesObject {name : Bytes} :
    name ∈ (dependenciesObject children).map Prod.fst ↔
      name ∈ children.map fun ch => (ch.name : Bytes) := by
  constructor
  · intro h
    rcases List.mem_map.mp h with ⟨f, hf, rfl⟩
    rcases mem_dependenciesObject.mp hf with ⟨ch, hch, rfl⟩ | ⟨hnil, -⟩
    · exact List.mem_map.mpr ⟨ch, mem_of_mem_shown hch, rfl⟩
    · cases hnil
  · intro h
    rcases List.mem_map.mp h with ⟨ch, hch, rfl⟩
    rcases exists_mem_shown (fun ch : ChildExchange => (ch.name : Bytes)) hch with ⟨b, hb, hname⟩
    exact List.mem_map.mpr ⟨_, mem_dependenciesObject.mpr (.inl ⟨b, hb, rfl⟩), hname⟩

/-- There are as many entries as children exactly if the names are different. -/
lemma length_dependenciesObject_iff (children : List ChildExchange) :
    (dependenciesObject children).length = children.length ↔
      (children.map fun ch => (ch.name : Bytes)).Nodup := by
  have hperm : ((dependenciesObject children).map Prod.fst).Perm
      (children.map fun ch => (ch.name : Bytes)).dedup := by
    rw [List.perm_ext_iff_of_nodup (nodup_dependenciesObject children) (List.nodup_dedup _)]
    intro name
    rw [List.mem_dedup, mem_keys_dependenciesObject]
  have hlength := hperm.length_eq
  rw [List.length_map] at hlength
  rw [hlength]
  constructor
  · intro h
    rw [← List.dedup_eq_self]
    apply (List.dedup_sublist _).eq_of_length
    rw [h, List.length_map]
  · intro h
    rw [List.dedup_eq_self.mpr h, List.length_map]

/-! ## Complete responses -/

/-- The document has one entry for each dependency, which tells the outcome of that
dependency, and the response is a 503 exactly if it shows a required dependency that is
failed or unavailable. -/
structure Complete (deps : List CompositeDependency) (fates : List (Option Fate))
    (st : ExchangeState) (resp : HttpResponse) : Prop where
  entries : (dependenciesObject st.children).length = deps.length
  own : ∀ (i : Nat) dep, deps[i]? = some dep → ∃ fate item, fates[i]? = some (some fate) ∧
    view item = fate.view dep.required ∧
      ((dep.name : Bytes), Json.obj item) ∈ dependenciesObject st.children
  status : resp.statusCode = 503 ↔
    ∃ ch ∈ shown (·.name) st.children, ch.required = true ∧ itemFailed ch.item = true

lemma Represents.names {fates : List (Option Fate)} (h : Represents deps fates children) :
    (children.map fun ch => (ch.name : Bytes)) = deps.map fun dep => (dep.name : Bytes) := by
  apply List.ext_getElem?
  intro i
  rw [List.getElem?_map, List.getElem?_map]
  rcases hdep : deps[i]? with _ | dep
  · rw [List.getElem?_eq_none (by rw [h.children_length]; exact List.getElem?_eq_none_iff.mp hdep)]
    rfl
  · rcases h.child hdep with ⟨fate, ch, -, hch, hshows⟩
    rw [hch, Option.map_some, Option.map_some, hshows.name]

lemma Represents.complete_iff {fates : List (Option Fate)} {st : ExchangeState}
    {resp : HttpResponse} (h : Represents deps fates st.children)
    (hknown : ∀ fate ∈ fates, fate ≠ none) (hfinal : finalizeComposite st = .respond st resp) :
    Complete deps fates st resp ↔ (deps.map fun dep => (dep.name : Bytes)).Nodup := by
  rw [← h.names, ← length_dependenciesObject_iff, h.children_length]
  constructor
  · exact Complete.entries
  · intro hentries
    -- every child is shown
    have hnodup := (length_dependenciesObject_iff st.children).mp
      (hentries.trans h.children_length.symm)
    have hshown := shown_of_nodup hnodup
    have hagg := h.aggregates hknown hfinal
    refine ⟨hentries, ?_, ?_⟩
    · intro i dep hdep
      rcases hagg.items i dep hdep with ⟨fate, ch, hfate, hch, hname, hview⟩
      refine ⟨fate, ch.item, hfate, hview, mem_dependenciesObject.mpr (.inl ⟨ch, ?_, ?_⟩)⟩
      · rw [hshown]
        exact List.mem_of_getElem? hch
      · rw [hname]
    · rw [(finalizeComposite_respond hfinal).2.1, hshown, Handler.requiredFailed]
      simp

/-- **Composite results are complete.** The response of a composite is complete exactly if
its dependencies have different names, which `validate` does not ask for. -/
theorem composite_complete_iff {upstreams : Bytes → List UpstreamServer} {s : Surroundings}
    {m : UpstreamManager} {id : Nat} {req : HttpRequest} {route : GatewayRoute}
    {hs : List Happening} {f₀ f : FanOut} {st : ExchangeState} {resp : HttpResponse}
    (hstart : FanOut.start upstreams s m id req route = some f₀)
    (hrun : Run fanOutStep Any f₀ hs f) (hframed : f.framed = [(st, resp)]) :
    (compositePayload st).dump = some resp.body ∧
      (Complete route.compositeTarget.dependencies
          (fatesAfter hs (startFates upstreams s m req route)) st resp ↔
        (route.compositeTarget.dependencies.map fun dep => (dep.name : Bytes)).Nodup) := by
  rcases stands_run (stands_start hstart) hrun with _ | ⟨hknown, -, hrep, hfinal⟩ | _
  · cases hframed
  · cases hframed
    exact ⟨(finalizeComposite_respond hfinal).2.2, hrep.complete_iff hknown hfinal⟩
  · cases hframed

/-- Two dependencies of different names, of which the first fails. -/
theorem composite_complete_pair :
    ∃ f₀ f st resp, pairStart = some f₀ ∧
      Run fanOutStep Any f₀ [childAnswers 1 (ascii "ok"), .deadline {}] f ∧
      f.framed = [(st, resp)] ∧ resp.statusCode = 503 ∧
      Complete pairRoute.compositeTarget.dependencies
        (pairFates [childAnswers 1 (ascii "ok"), .deadline {}]) st resp := by
  obtain ⟨f₀, f, hstart, hrun, hcode⟩ := pair_expires
  rcases hframed : f.framed with _ | ⟨⟨st, resp⟩, _ | _⟩
  · rw [hframed] at hcode
    cases hcode
  · rw [hframed] at hcode
    refine ⟨f₀, f, st, resp, hstart, hrun, hframed, by simpa using hcode, ?_⟩
    exact (composite_complete_iff hstart hrun hframed).2.mpr (by decide +kernel)
  · rw [hframed] at hcode
    simp at hcode

/-- A composite with two dependencies of one name, the second one optional. -/
def twinRoute : GatewayRoute :=
  { name := Text.ofAscii "r"
    path := ascii "/c"
    targetType := .composite
    compositeTarget :=
      { name := Text.ofAscii "c"
        dependencies :=
          [{ name := Text.ofAscii "stock", upstreamName := Text.ofAscii "main" },
            { name := Text.ofAscii "stock", upstreamName := Text.ofAscii "spare",
              required := false }] } }

/-- The backend of a dependency cannot be reached. -/
def childFails (idx : Nat) : Happening :=
  .drive idx oneBackend { advances := fun _ => [.done false { statusCode := 0, body := [] }] }

/-- The required dependency fails and the other one answers: the response is a 503, with one
entry, which is `ok`. -/
theorem hidden_dependency :
    validateRoutes (fun name => !(backendEnv.upstreams name).isEmpty) [{ route := twinRoute }] =
        [] ∧
      ∃ f₀ f st resp, FanOut.start backendEnv.upstreams {} oneBackend 0 {} twinRoute = some f₀ ∧
        Run fanOutStep Any f₀ [childFails 0, childAnswers 1 (ascii "ok")] f ∧
        f.framed = [(st, resp)] ∧ resp.statusCode = 503 ∧
        (dependenciesObject st.children).length = 1 ∧
        ∀ ch ∈ shown (·.name) st.children, itemFailed ch.item = false := by
  refine ⟨by decide +kernel, ?_⟩
  have hexec : ((FanOut.start backendEnv.upstreams {} oneBackend 0 {} twinRoute).bind fun f₀ =>
      (exec fanOutStep Any [childFails 0, childAnswers 1 (ascii "ok")] f₀).map fun f =>
        f.framed.map fun p => (p.2.statusCode, (dependenciesObject p.1.children).length,
          (shown (·.name) p.1.children).all fun ch => !itemFailed ch.item)) =
      some [(503, 1, true)] := by decide +kernel
  rcases Option.bind_eq_some_iff.mp hexec with ⟨f₀, hstart, hf⟩
  rcases Option.map_eq_some_iff.mp hf with ⟨f, hf, hcode⟩
  rcases hframed : f.framed with _ | ⟨⟨st, resp⟩, _ | _⟩
  · rw [hframed] at hcode
    cases hcode
  · rw [hframed] at hcode
    simp only [List.map_cons, List.map_nil, List.cons.injEq, Prod.mk.injEq, and_true] at hcode
    refine ⟨f₀, f, st, resp, hstart, run_of_exec hf, hframed, hcode.1, hcode.2.1, ?_⟩
    simpa using hcode.2.2
  · rw [hframed] at hcode
    simp at hcode

end EpollGateway.Handler
