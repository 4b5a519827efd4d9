import EpollGateway.Handler.Completion

/-! # The fan-out of a composite

A composite request waits for all its dependencies. Their calls end in any order: at
once, because there is no server or the circuit is open, inside the loop that starts
them, by events of their backends and by their own timeouts, or all together when the
overall deadline fires. A `Fate` is how one call has ended. `fan_out_completes_iff` says
that the response is framed once, when the last fate is known, and that what it shows of
a dependency is a function of its own fate; the exception is a document that is not
UTF-8, for which there is no response.
-/

namespace EpollGateway.Handler

open Bytes Http Upstream Machine

/-! ## Fates -/

/-- How the call of a dependency ended: there is no server for it, its circuit is open,
its backend answered, the call failed, or the overall deadline fired first. -/
inductive Fate where
  | unavailable
  | circuitOpen
  | answered (be : BackendResponse)
  | failed (error : BackendError)
  | expired

/-- The entries of an item that tell its outcome. -/
structure View where
  status : Option Json := none
  httpStatus : Option Json := none
  error : Option Json := none
  timedOut : Option Json := none
  body : Option Json := none

def view (item : Item) : View where
  status := Json.getField (ascii "status") item
  httpStatus := Json.getField (ascii "http_status") item
  error := Json.getField (ascii "error") item
  timedOut := Json.getField (ascii "timed_out") item
  body := Json.getField (ascii "body") item

/-- The entries of `v`, and those of `w` where `v` has none. -/
def View.orElse (v w : View) : View where
  status := v.status.or w.status
  httpStatus := v.httpStatus.or w.httpStatus
  error := v.error.or w.error
  timedOut := v.timedOut.or w.timedOut
  body := v.body.or w.body

/-- An item whose call has begun. -/
def begunView : View := { timedOut := some (.bool false) }

/-- The backend answered with success. -/
def accepted (be : BackendResponse) : Bool := 200 ≤ be.statusCode && be.statusCode < 300

/-- What the response shows of a dependency, as a function of its fate. -/
def Fate.view (required : Bool) : Fate → View
  | .unavailable =>
    { status := some (text "unavailable")
      error := some
        (if required then text "missing_upstream" else text "optional_dependency_missing")
      timedOut := some (.bool false) }
  | .circuitOpen =>
    { status := some (text "failed")
      httpStatus := some (.num 503)
      error := some (text "circuit_open")
      timedOut := some (.bool false) }
  | .answered be =>
    { status := some (if accepted be then text "ok" else text "failed")
      httpStatus := some (.num be.statusCode)
      error := some (.str (if accepted be then [] else be.body))
      timedOut := some (.bool (be.statusCode = 504))
      body := if accepted be then some (.str be.body) else none }
  | .failed error =>
    { status := some (text "failed")
      httpStatus := some (.num (if error.timedOut then 504 else 502))
      error := some
        (if error.timedOut then text "upstream_timeout" else text "upstream_unavailable")
      timedOut := some (.bool error.timedOut) }
  | .expired =>
    { status := some (text "failed")
      httpStatus := some (.num 504)
      error := some (text "upstream_timeout")
      timedOut := some (.bool true) }

/-- A required dependency with this fate makes the response a failure. -/
def Fate.fails : Fate → Bool
  | .answered be => !accepted be
  | _ => true

/-- The backend body that the item shows, as payload or as error. -/
def Fate.body : Fate → Option Bytes
  | .answered be => some be.body
  | _ => none

/-! ## Reading items -/

variable {entries item : Item} {ch : ChildExchange} {children : List ChildExchange}
  {s : Surroundings} {m m' : UpstreamManager} {resp : HttpResponse} {f : FanOut}

lemma getField_setFields (hnodup : (entries.map Prod.fst).Nodup) (item : Item) (k : Bytes) :
    Json.getField k (setFields item entries) =
      (Json.getField k entries).or (Json.getField k item) := by
  unfold setFields
  induction entries generalizing item with
  | nil => simp [Json.getField]
  | cons e rest ih =>
    rw [List.map_cons, List.nodup_cons] at hnodup
    rw [List.foldl_cons, ih hnodup.2, Json.getField_setField]
    by_cases hk : k = e.1
    · -- the keys behind it are others
      have hrest : Json.getField k rest = none := by
        rw [Json.getField, Option.map_eq_none_iff, List.find?_eq_none]
        intro f hf heq
        have hfk : f.1 = k := by simpa using heq
        exact hnodup.1 (by rw [← hk, ← hfk]; exact List.mem_map_of_mem hf)
      have hfirst : Json.getField k (e :: rest) = some e.2 := by
        rw [Json.getField, List.find?_cons_of_pos (by simp [hk])]
        rfl
      rw [if_pos hk, hrest, hfirst]
      rfl
    · have hfirst : Json.getField k (e :: rest) = Json.getField k rest := by
        rw [Json.getField, List.find?_cons_of_neg (by simpa using Ne.symm hk)]
        rfl
      rw [if_neg hk, hfirst]

lemma view_setFields (hnodup : (entries.map Prod.fst).Nodup) (item : Item) :
    view (setFields item entries) = (view entries).orElse (view item) := by
  unfold view View.orElse
  simp only [getField_setFields hnodup]

lemma view_startItem (dep : CompositeDependency) (fresh traceId : Bytes) (parentId : Nat) :
    view (startItem dep fresh traceId parentId) = begunView := by
  unfold startItem
  rw [view_setFields (by simp only [startEntries, List.map_cons, List.map_nil]; decide)]
  rfl

/-- `itemFailed` reads the status of the view. -/
lemma itemFailed_of_view {required : Bool} {fate : Fate} (h : view item = fate.view required) :
    itemFailed item = fate.fails := by
  have hstatus : Json.getField (ascii "status") item = (fate.view required).status := by
    rw [← h]
    rfl
  unfold itemFailed
  rw [hstatus]
  cases fate with
  | answered be =>
    dsimp only [Fate.view, Fate.fails]
    cases accepted be <;> decide
  | _ => rfl

/-! ## Children -/

/-- The child of `dep`: its call is open, or it is over and the item shows how it
ended. -/
structure Shows (dep : CompositeDependency) (fate : Option Fate) (ch : ChildExchange) : Prop where
  name : (ch.name : Bytes) = dep.name
  required : ch.required = dep.required
  finished : ch.finished = fate.isSome
  live : ch.live = fate.isNone
  begun : fate = none → view ch.item = begunView ∧ ch.answer = none
  ended : ∀ f, fate = some f → ch.fd = none ∧ view ch.item = f.view dep.required ∧
    ch.answer = f.body

/-- The fate that the answers of `advance` decide; only the first of them counts. -/
def Fate.ofAnswers : List Advance → Option Fate
  | .done true be :: _ => some (.answered be)
  | .done false be :: _ => some (.failed be.error)
  | _ => none

lemma view_answered (upstreamKey : Bytes) (be : BackendResponse) (elapsed : Nat)
    (required : Bool) (h : view item = begunView) :
    view (setFields item (answeredEntries upstreamKey be elapsed)) =
      (Fate.answered be).view required := by
  have hnodup : ((answeredEntries upstreamKey be elapsed).map Prod.fst).Nodup := by
    unfold answeredEntries
    dsimp only
    split <;> simp only [List.map_append, List.map_cons, List.map_nil] <;> decide
  rw [view_setFields hnodup, h]
  unfold answeredEntries Fate.view
  cases haccepted : accepted be with
  | true =>
    have hok : (decide (200 ≤ be.statusCode) && decide (be.statusCode < 300)) = true := haccepted
    simp only [hok, haccepted, if_true]
    rfl
  | false =>
    have hok : (decide (200 ≤ be.statusCode) && decide (be.statusCode < 300)) = false := haccepted
    simp only [hok, haccepted, Bool.false_eq_true, if_false]
    rfl

lemma view_failed (error : BackendError) (elapsed : Nat) (required : Bool)
    (h : view item = begunView) :
    view (setFields item (failedEntries error elapsed)) = (Fate.failed error).view required := by
  rw [view_setFields (by simp only [failedEntries, List.map_cons, List.map_nil]; decide), h]
  rfl

lemma view_forced (elapsed : Nat) (required : Bool) (h : view item = begunView) :
    view (setFields item (forcedEntries elapsed)) = Fate.expired.view required := by
  rw [view_setFields (by simp only [forcedEntries, List.map_cons, List.map_nil]; decide), h]
  rfl

lemma shows_settled {dep : CompositeDependency} (h : Shows dep none ch) (succeeded : Bool)
    (be : BackendResponse) (elapsed : Nat) (rest : List Advance) :
    Shows dep (Fate.ofAnswers (.done succeeded be :: rest))
      (settledChild ch succeeded be elapsed) := by
  have hview := (h.begun rfl).1
  cases succeeded with
  | true =>
    refine ⟨h.name, h.required, rfl, rfl, fun hn => (by cases hn), ?_⟩
    intro f hf
    cases hf
    have hitem : (settledChild ch true be elapsed).item =
        setFields ch.item (answeredEntries ch.upstreamKey be elapsed) := by
      simp only [settledChild, if_true]
    rw [hitem]
    exact ⟨rfl, view_answered ch.upstreamKey be elapsed dep.required hview, rfl⟩
  | false =>
    refine ⟨h.name, h.required, rfl, rfl, fun hn => (by cases hn), ?_⟩
    intro f hf
    cases hf
    have hitem : (settledChild ch false be elapsed).item =
        setFields ch.item (failedEntries be.error elapsed) := by
      simp only [settledChild, Bool.false_eq_true, if_false]
    rw [hitem]
    exact ⟨rfl, view_failed be.error elapsed dep.required hview, rfl⟩

lemma shows_after {dep : CompositeDependency} {fate : Option Fate} (h : Shows dep fate ch)
    (elapsed : Nat) (answers : List Advance) :
    Shows dep (fate.or (Fate.ofAnswers answers)) (ch.after elapsed answers) := by
  cases fate with
  | some f =>
    -- a call that is over stays as it is
    rw [ChildExchange.after_of_not_live h.live]
    exact h
  | none =>
    have hlive : ch.live = true := h.live
    unfold ChildExchange.after
    rw [if_pos hlive, Option.none_or]
    match answers with
    | [] => exact h
    | .wants fd :: _ =>
      exact ⟨h.name, h.required, h.finished, h.live, h.begun, fun f hf => (by cases hf)⟩
    | .done succeeded be :: rest => exact shows_settled h succeeded be elapsed rest

lemma shows_forced {dep : CompositeDependency} {fate : Option Fate} (h : Shows dep fate ch)
    (elapsed : Nat) : Shows dep (fate.or (some .expired)) (forceFinishChild elapsed ch) := by
  unfold forceFinishChild
  cases fate with
  | some f =>
    have hfinished : ch.finished = true := h.finished
    rw [if_pos hfinished]
    exact h
  | none =>
    have hopen : ¬ ch.finished = true := by
      rw [h.finished]
      simp
    rw [if_neg hopen]
    refine ⟨h.name, h.required, rfl, rfl, fun hn => (by cases hn), ?_⟩
    rintro f hf
    cases hf
    exact ⟨rfl, view_forced elapsed dep.required (h.begun rfl).1, (h.begun rfl).2⟩

/-! ## All dependencies -/

/-- The children of an exchange, dependency by dependency. -/
structure Represents (deps : List CompositeDependency) (fates : List (Option Fate))
    (children : List ChildExchange) : Prop where
  fates_length : fates.length = deps.length
  children_length : children.length = deps.length
  shows : ∀ (i : Nat) dep fate ch, deps[i]? = some dep → fates[i]? = some fate →
    children[i]? = some ch →
    Shows dep fate ch

/-- The fates after each child was asked. -/
def settle (answers : Nat → List Advance) (fates : List (Option Fate)) : List (Option Fate) :=
  fates.mapIdx fun i fate => fate.or (Fate.ofAnswers (answers i))

/-- The fates after the overall deadline. -/
def expireAll (fates : List (Option Fate)) : List (Option Fate) :=
  fates.map fun fate => fate.or (some .expired)

section

variable {deps : List CompositeDependency} {fates : List (Option Fate)}
  {children : List ChildExchange}

lemma Represents.child (h : Represents deps fates children) {i : Nat}
    {dep : CompositeDependency} (hdep : deps[i]? = some dep) :
    ∃ fate ch, fates[i]? = some fate ∧ children[i]? = some ch ∧ Shows dep fate ch := by
  have hlt := (List.getElem?_eq_some_iff.mp hdep).1
  have hfate := List.getElem?_eq_getElem (h.fates_length.symm ▸ hlt : i < fates.length)
  have hch := List.getElem?_eq_getElem (h.children_length.symm ▸ hlt : i < children.length)
  exact ⟨_, _, hfate, hch, h.shows i dep _ _ hdep hfate hch⟩

/-- Every child belongs to a dependency. -/
lemma Represents.dep (h : Represents deps fates children) {ch : ChildExchange}
    (hch : ch ∈ children) :
    ∃ (i : Nat) (dep : CompositeDependency) (fate : Option Fate), deps[i]? = some dep ∧
      fates[i]? = some fate ∧ children[i]? = some ch ∧
      Shows dep fate ch := by
  rcases List.getElem?_of_mem hch with ⟨i, hi⟩
  have hlt : i < deps.length := by
    rw [← h.children_length]
    exact (List.getElem?_eq_some_iff.mp hi).1
  rcases h.child (List.getElem?_eq_getElem hlt) with ⟨fate, ch', hfate, hch', hshows⟩
  rw [hi] at hch'
  cases hch'
  exact ⟨i, _, fate, List.getElem?_eq_getElem hlt, hfate, hi, hshows⟩

lemma Represents.advance {st : ExchangeState} (h : Represents deps fates st.children)
    (elapsed : Nat) (answers : Nat → List Advance) :
    Represents deps (settle answers fates) (st.advance elapsed answers).children where
  fates_length := by rw [settle, List.length_mapIdx, h.fates_length]
  children_length := by
    rw [ExchangeState.advance, List.length_mapIdx, h.children_length]
  shows := by
    intro i dep fate ch hdep hfate hch
    rw [settle, List.getElem?_mapIdx] at hfate
    rw [ExchangeState.advance, List.getElem?_mapIdx] at hch
    rcases Option.map_eq_some_iff.mp hfate with ⟨fate₀, hfate₀, rfl⟩
    rcases Option.map_eq_some_iff.mp hch with ⟨ch₀, hch₀, rfl⟩
    exact shows_after (h.shows i dep fate₀ ch₀ hdep hfate₀ hch₀) elapsed (answers i)

lemma Represents.forced (h : Represents deps fates children) (elapsed : Nat) :
    Represents deps (expireAll fates) (children.map (forceFinishChild elapsed)) where
  fates_length := by rw [expireAll, List.length_map, h.fates_length]
  children_length := by rw [List.length_map, h.children_length]
  shows := by
    intro i dep fate ch hdep hfate hch
    rw [expireAll, List.getElem?_map] at hfate
    rw [List.getElem?_map] at hch
    rcases Option.map_eq_some_iff.mp hfate with ⟨fate₀, hfate₀, rfl⟩
    rcases Option.map_eq_some_iff.mp hch with ⟨ch₀, hch₀, rfl⟩
    exact shows_forced (h.shows i dep fate₀ ch₀ hdep hfate₀ hch₀) elapsed

/-- An exchange is over when all fates are known. -/
lemma Represents.allFinished {st : ExchangeState} (h : Represents deps fates st.children) :
    st.allFinished = true ↔ ∀ fate ∈ fates, fate ≠ none := by
  unfold ExchangeState.allFinished
  rw [List.all_eq_true]
  constructor
  · intro hall fate hfate
    rcases List.getElem?_of_mem hfate with ⟨i, hi⟩
    have hlt : i < deps.length := by
      rw [← h.fates_length]
      exact (List.getElem?_eq_some_iff.mp hi).1
    rcases h.child (List.getElem?_eq_getElem hlt) with ⟨fate', ch, hfate', hch, hshows⟩
    rw [hi] at hfate'
    cases hfate'
    have hfinished := hall ch (List.mem_of_getElem? hch)
    rw [hshows.finished] at hfinished
    exact Option.isSome_iff_ne_none.mp hfinished
  · intro hall ch hch
    rcases h.dep hch with ⟨i, dep, fate, -, hfate, -, hshows⟩
    rw [hshows.finished]
    exact Option.isSome_iff_ne_none.mpr (hall fate (List.mem_of_getElem? hfate))

end

/-- The names of the dependencies with the bodies that the document shows. -/
def shownBodies (deps : List CompositeDependency) (fates : List (Option Fate)) :
    List (Bytes × Option Bytes) :=
  List.zipWith (fun dep fate => ((dep.name : Bytes), fate.bind Fate.body)) deps fates

/-- The trace id and the bodies that are shown are UTF-8; of several dependencies of one
name only the last one is shown. -/
structure Presentable (req : HttpRequest) (deps : List CompositeDependency)
    (fates : List (Option Fate)) : Prop where
  trace : deps ≠ [] → utf8 req.traceId = true
  bodies : ∀ p ∈ shown Prod.fst (shownBodies deps fates), ∀ b, p.2 = some b → utf8 b = true

variable {deps : List CompositeDependency} {fates : List (Option Fate)} {st : ExchangeState}
  {upstreams : Bytes → List UpstreamServer} {req : HttpRequest}

lemma Represents.bodies (h : Represents deps fates children) :
    children.map (fun ch => ((ch.name : Bytes), ch.answer)) = shownBodies deps fates := by
  refine List.ext_getElem? fun i => ?_
  rw [List.getElem?_map, shownBodies, List.getElem?_zipWith]
  rcases hdep : deps[i]? with _ | dep
  · have hlen : children.length ≤ i := by
      rw [h.children_length]
      exact List.getElem?_eq_none_iff.mp hdep
    rw [List.getElem?_eq_none hlen]
    rfl
  · rcases h.child hdep with ⟨fate, ch, hfate, hch, hshows⟩
    rw [hfate, hch]
    have hanswer : ch.answer = fate.bind Fate.body := by
      cases fate with
      | none => exact (hshows.begun rfl).2
      | some f => exact (hshows.ended f rfl).2.2
    simp [hshows.name, hanswer]

lemma Represents.presentable (h : Represents deps fates st.children)
    (hsound : ∀ ch ∈ st.children, Sound (utf8 st.req.traceId = true) ch) :
    (∃ resp, finalizeComposite st = .respond st resp) ↔ Presentable st.req deps fates := by
  have hnil : st.children = [] ↔ deps = [] := by
    rw [← List.length_eq_zero_iff, ← List.length_eq_zero_iff, h.children_length]
  rw [finalizeComposite_responds hsound, h.bodies, Ne, hnil]
  constructor
  · rintro ⟨htrace, hbodies⟩
    exact ⟨htrace, hbodies⟩
  · rintro ⟨htrace, hbodies⟩
    exact ⟨htrace, hbodies⟩

/-! ## The start -/

/-- The fate of a dependency that is never called. -/
def refusal (upstreams : Bytes → List UpstreamServer) (s : Surroundings) (m : UpstreamManager)
    (dep : CompositeDependency) : Option Fate :=
  if (dep.upstreamName : Bytes) = [] ∨ upstreams dep.upstreamName = [] then some .unavailable
  else
    match m.pickServer dep.upstreamName with
    | none => none
    | some (server, m) =>
      match (m.allowRequest dep.upstreamName server dep.timeoutMs s.now).1 with
      | .refused => some .circuitOpen
      | _ => none

/-- The same for all dependencies, in the order in which the manager is asked. -/
def refusals (upstreams : Bytes → List UpstreamServer) (s : Surroundings) (failureThreshold : Int)
    (req : HttpRequest) : UpstreamManager → List CompositeDependency → List (Option Fate)
  | _, [] => []
  | m, dep :: deps =>
    refusal upstreams s m dep ::
      refusals upstreams s failureThreshold req
        (startDependency upstreams s failureThreshold req m dep).1 deps

lemma shows_unstarted {dep : CompositeDependency} (fresh : ChildExchange) (entries : Item)
    (f : Fate) (hname : (fresh.name : Bytes) = dep.name) (hrequired : fresh.required = dep.required)
    (hlive : fresh.live = false) (hfd : fresh.fd = none) (hanswer : fresh.answer = none)
    (hview : view fresh.item = begunView) (hnodup : (entries.map Prod.fst).Nodup)
    (hentries : (view entries).orElse begunView = f.view dep.required) (hbody : f.body = none) :
    Shows dep (some f) { fresh with item := setFields fresh.item entries, finished := true } where
  name := hname
  required := hrequired
  finished := rfl
  live := hlive
  begun := fun hn => by cases hn
  ended := by
    intro f' hf'
    cases hf'
    refine ⟨hfd, ?_, hanswer.trans hbody.symm⟩
    dsimp only
    rw [view_setFields hnodup, hview]
    exact hentries

lemma shows_startDependency {threshold : Int} {dep : CompositeDependency}
    (h : startDependency upstreams s threshold req m dep = (m', some ch)) :
    Shows dep (refusal upstreams s m dep) ch := by
  have hview : view (freshChild s req dep).item = begunView := by
    unfold freshChild
    dsimp only
    exact view_startItem dep s.traceId (traceIdOr req s.traceId) _
  have hname : ((freshChild s req dep).name : Bytes) = dep.name := rfl
  have hrequired : (freshChild s req dep).required = dep.required := rfl
  have hlive : (freshChild s req dep).live = false := rfl
  have hopen : (freshChild s req dep).finished = false := rfl
  have hfd : (freshChild s req dep).fd = none := rfl
  have hanswer : (freshChild s req dep).answer = none := rfl
  unfold startDependency at h
  unfold refusal
  -- nothing below depends on what the fresh child is
  generalize freshChild s req dep = fresh at h hview hname hrequired hlive hopen hfd hanswer
  dsimp only at h
  split at h
  · rename_i hmissing
    rw [if_pos hmissing]
    cases h
    have hnodup : ((unavailableEntries dep.required s.elapsed).map Prod.fst).Nodup := by
      simp only [unavailableEntries, List.map_cons, List.map_nil]
      decide
    exact shows_unstarted fresh (unavailableEntries dep.required s.elapsed) .unavailable hname
      hrequired hlive hfd hanswer hview hnodup rfl rfl
  · rename_i hpresent
    rw [if_neg hpresent]
    rcases hpick : m.pickServer dep.upstreamName with _ | ⟨server, m₁⟩
    · rw [hpick] at h
      cases h
    · rw [hpick] at h
      dsimp only at h ⊢
      have hbegun (ticket : Option Nat) : Shows dep none
          { fresh with
            server := server, circuitFailureThreshold := threshold, live := true
            ticket := ticket } :=
        ⟨hname, hrequired, hopen, rfl, fun _ => ⟨hview, hanswer⟩, fun f hf => by cases hf⟩
      rcases hallow : m₁.allowRequest dep.upstreamName server dep.timeoutMs s.now with
        ⟨admission, m₂⟩
      rw [hallow] at h
      dsimp only
      cases admission with
      | refused =>
        cases h
        have hnodup : ((circuitOpenEntries s.elapsed).map Prod.fst).Nodup := by
          simp only [circuitOpenEntries, List.map_cons, List.map_nil]
          decide
        exact shows_unstarted { fresh with server := server, circuitFailureThreshold := threshold }
          (circuitOpenEntries s.elapsed) .circuitOpen hname hrequired hlive hfd hanswer hview
          hnodup rfl rfl
      | admitted =>
        cases h
        exact hbegun fresh.ticket
      | probe call =>
        cases h
        exact hbegun (some call)

lemma represents_start {threshold : Int}
    (h : startDependencies upstreams s threshold req m deps = (m', some children)) :
    Represents deps (refusals upstreams s threshold req m deps) children := by
  induction deps generalizing m children with
  | nil =>
    cases h
    exact ⟨rfl, rfl, fun i dep fate ch hdep => by simp at hdep⟩
  | cons dep deps ih =>
    rw [startDependencies] at h
    rcases hdep : startDependency upstreams s threshold req m dep with ⟨m₁, _ | child⟩
    · rw [hdep] at h
      cases h
    · rw [hdep] at h
      dsimp only at h
      rcases hrest : startDependencies upstreams s threshold req m₁ deps with ⟨m₂, _ | rest⟩
      · rw [hrest] at h
        cases h
      · rw [hrest] at h
        cases h
        have htail := ih hrest
        rw [refusals, hdep]
        refine ⟨by simp [htail.fates_length], by simp [htail.children_length], ?_⟩
        intro i dep' fate ch hdep' hfate hch
        cases i with
        | zero =>
          cases hdep'
          cases hfate
          cases hch
          exact shows_startDependency hdep
        | succ i => exact htail.shows i dep' fate ch hdep' hfate hch

/-! ## The machine -/

/-- The exchange in `client_upstream_`, the responses that were framed for the request,
each with the exchange that it shows, and whether an exception was thrown. -/
structure FanOut where
  exchange : Option ExchangeState := none
  framed : List (ExchangeState × HttpResponse) := []
  crashed : Bool := false

def FanOut.apply (f : FanOut) : Drive → FanOut
  | .inFlight st => { f with exchange := some st }
  | .respond st resp => { f with exchange := none, framed := f.framed ++ [(st, resp)] }
  | .threw st => { f with exchange := some st, crashed := true }

/-- What happens to a composite: a child is driven, by an event of its backend or because
its own time is up, or the overall deadline fires. -/
inductive Happening where
  | drive (idx : Nat) (m : UpstreamManager) (sur : Surroundings)
  | deadline (sur : Surroundings)

/-- One step. The loops of the handler look into `client_upstream_` before each of them,
and there is nothing to do when the exchange is gone. -/
def fanOutStep (h : Happening) (f : FanOut) : Option FanOut :=
  if f.crashed then none
  else
    match f.exchange with
    | none => some f
    | some st =>
      match h with
      | .drive idx m sur => some (f.apply (driveChild sur idx m st (sur.advances idx)).2)
      | .deadline sur =>
        if st.hasTotalDeadline then some (f.apply (expireComposite sur.elapsed st)) else none

/-- `start_composite_exchange`, with the calls that end inside its loop. There is no
fan-out when `pick_server` throws. -/
def FanOut.start (upstreams : Bytes → List UpstreamServer) (s : Surroundings) (m : UpstreamManager)
    (id : Nat) (req : HttpRequest) (route : GatewayRoute) : Option FanOut :=
  match (startCompositeExchange upstreams s m id req route).2 with
  | .published d => some (({} : FanOut).apply d)
  | _ => none

/-- The fates that are known after the start. -/
def startFates (upstreams : Bytes → List UpstreamServer) (s : Surroundings) (m : UpstreamManager)
    (req : HttpRequest) (route : GatewayRoute) : List (Option Fate) :=
  settle s.advances (refusals upstreams s route.upstreamTarget.circuitFailureThreshold req m
    route.compositeTarget.dependencies)

def Happening.settle : Happening → List (Option Fate) → List (Option Fate)
  | .drive idx _ sur => Handler.settle (only idx (sur.advances idx))
  | .deadline _ => expireAll

/-- The fates that are known after a run: the first end of a call counts. -/
def fatesAfter (hs : List Happening) (fates : List (Option Fate)) : List (Option Fate) :=
  hs.foldl (fun fates h => h.settle fates) fates

/-! ## The response -/

/-- A required dependency has failed. -/
def failing (deps : List CompositeDependency) (fates : List (Option Fate)) : Bool :=
  (List.zipWith (fun dep fate => dep.required && fate.any Fate.fails) deps fates).any id

/-- The response that shows the fates. -/
structure Aggregates (deps : List CompositeDependency) (fates : List (Option Fate))
    (st : ExchangeState) (resp : HttpResponse) : Prop where
  status : resp.statusCode = if failing deps fates then 503 else 200
  body : (compositePayload st).dump = some resp.body
  items : ∀ (i : Nat) dep, deps[i]? = some dep → ∃ fate ch, fates[i]? = some (some fate) ∧
    st.children[i]? = some ch ∧ (ch.name : Bytes) = dep.name ∧
      view ch.item = fate.view dep.required
  size : st.children.length = deps.length
  unregistered : ∀ ch ∈ st.children, ch.fd = none

/-- Nothing was thrown. While a fate is open there is an exchange and no response; when
all are known the exchange is gone, and one response has been framed. -/
structure Completed (deps : List CompositeDependency) (fates : List (Option Fate)) (f : FanOut) :
    Prop where
  alive : f.crashed = false
  waiting : (∃ fate ∈ fates, fate = none) → f.framed = [] ∧ f.exchange.isSome = true
  once : (∀ fate ∈ fates, fate ≠ none) → f.exchange = none ∧
    ∃ st resp, f.framed = [(st, resp)] ∧ Aggregates deps fates st resp

lemma finalizeComposite_respond {st' : ExchangeState}
    (h : finalizeComposite st = .respond st' resp) :
    st' = st ∧ resp.statusCode = (if requiredFailed st.children then 503 else 200) ∧
      (compositePayload st).dump = some resp.body := by
  unfold finalizeComposite at h
  rcases hdump : (compositePayload st).dump with _ | body
  · rw [hdump] at h
    cases h
  · rw [hdump] at h
    cases h
    exact ⟨rfl, rfl, rfl⟩

section

variable {deps : List CompositeDependency} {fates : List (Option Fate)} {st : ExchangeState}

lemma Represents.requiredFailed (h : Represents deps fates st.children) :
    requiredFailed st.children = failing deps fates := by
  have hmap : st.children.map (fun ch => ch.required && itemFailed ch.item) =
      List.zipWith (fun dep fate => dep.required && fate.any Fate.fails) deps fates := by
    refine List.ext_getElem? fun i => ?_
    rw [List.getElem?_map, List.getElem?_zipWith]
    rcases hdep : deps[i]? with _ | dep
    · have hlen : st.children.length ≤ i := by
        rw [h.children_length]
        exact List.getElem?_eq_none_iff.mp hdep
      rw [List.getElem?_eq_none hlen]
      rfl
    · rcases h.child hdep with ⟨fate, ch, hfate, hch, hshows⟩
      rw [hfate, hch]
      have hfailed : itemFailed ch.item = fate.any Fate.fails := by
        cases fate with
        | none =>
          have hnone : Json.getField (ascii "status") ch.item = none :=
            congrArg View.status (hshows.begun rfl).1
          unfold itemFailed
          rw [hnone]
          rfl
        | some f => exact itemFailed_of_view (hshows.ended f rfl).2.1
      simp [hshows.required, hfailed]
  unfold Handler.requiredFailed failing
  rw [← hmap, List.any_map]
  rfl

lemma Represents.aggregates {resp : HttpResponse} (h : Represents deps fates st.children)
    (hknown : ∀ fate ∈ fates, fate ≠ none) (hfinal : finalizeComposite st = .respond st resp) :
    Aggregates deps fates st resp := by
  rcases finalizeComposite_respond hfinal with ⟨-, hstatus, hbody⟩
  constructor
  · rw [hstatus, h.requiredFailed]
  · exact hbody
  · intro i dep hdep
    rcases h.child hdep with ⟨_ | fate, ch, hfate, hch, hshows⟩
    · exact absurd rfl (hknown none (List.mem_of_getElem? hfate))
    · exact ⟨fate, ch, hfate, hch, hshows.name, (hshows.ended fate rfl).2.1⟩
  · exact h.children_length
  · intro ch hch
    rcases h.dep hch with ⟨i, dep, fate, -, hfate, -, hshows⟩
    rcases hf : fate with _ | f
    · exact absurd hf (hknown fate (List.mem_of_getElem? hfate))
    · exact (hshows.ended f hf).1

end

/-! ## Runs -/

/-- Where a fan-out can be, given the fates that are known. -/
inductive Stands (req : HttpRequest) (deps : List CompositeDependency) (fates : List (Option Fate)) :
    FanOut → Prop where
  | waiting {st : ExchangeState} : (∃ fate ∈ fates, fate = none) → st.composite = true →
      st.req = req → (∀ ch ∈ st.children, Sound (utf8 st.req.traceId = true) ch) →
      Represents deps fates st.children → Stands req deps fates ⟨some st, [], false⟩
  | answered {st : ExchangeState} {resp : HttpResponse} : (∀ fate ∈ fates, fate ≠ none) →
      Presentable req deps fates → Represents deps fates st.children →
      finalizeComposite st = .respond st resp → Stands req deps fates ⟨none, [(st, resp)], false⟩
  | thrown {st : ExchangeState} : (∀ fate ∈ fates, fate ≠ none) → ¬ Presentable req deps fates →
      Stands req deps fates ⟨some st, [], true⟩

/-- An exchange that is concluded: it waits on, or it is over. -/
lemma stands_conclude (hframed : f.framed = []) (halive : f.crashed = false)
    (hcomposite : st.composite = true) (hreq : st.req = req)
    (hsound : ∀ ch ∈ st.children, Sound (utf8 st.req.traceId = true) ch)
    (h : Represents deps fates st.children) : Stands req deps fates (f.apply st.conclude) := by
  rcases f with ⟨exchange, framed, crashed⟩
  dsimp only at hframed halive
  subst hframed halive
  unfold ExchangeState.conclude
  by_cases hdone : st.allFinished = true
  · rw [if_pos hdone]
    have hknown := h.allFinished.mp hdone
    have hresponds := h.presentable hsound
    rw [hreq] at hresponds
    rcases hd : finalizeComposite st with st' | ⟨st', resp⟩ | st'
    · exact absurd hd (finalizeComposite_not_inFlight st st')
    · have hstate : st' = st := (finalizeComposite_respond hd).1
      rw [hstate] at hd ⊢
      exact .answered hknown (hresponds.mp ⟨resp, hd⟩) h hd
    · refine .thrown hknown fun hp => ?_
      rcases hresponds.mpr hp with ⟨resp, hresp⟩
      rw [hd] at hresp
      cases hresp
  · rw [if_neg hdone]
    have hopen : ∃ fate ∈ fates, fate = none := by
      by_contra hnot
      exact hdone (h.allFinished.mpr fun fate hfate heq => hnot ⟨fate, hfate, heq⟩)
    exact .waiting hopen hcomposite hreq hsound h

/-- Fates that are known do not change. -/
lemma settle_known (h : ∀ fate ∈ fates, fate ≠ none) (hap : Happening) :
    hap.settle fates = fates := by
  have hor (fate other : Option Fate) (hfate : fate ≠ none) : fate.or other = fate := by
    rcases fate with _ | f
    · exact absurd rfl hfate
    · rfl
  cases hap with
  | drive idx m sur =>
    unfold Happening.settle settle
    refine List.ext_getElem? fun i => ?_
    rw [List.getElem?_mapIdx]
    rcases hi : fates[i]? with _ | fate
    · rfl
    · rw [Option.map_some, hor _ _ (h fate (List.mem_of_getElem? hi))]
  | deadline sur =>
    unfold Happening.settle expireAll
    exact (List.map_congr_left fun fate hfate => hor fate _ (h fate hfate)).trans (List.map_id _)

lemma Stands.step {hap : Happening} {f' : FanOut} (h : Stands req deps fates f)
    (hstep : fanOutStep hap f = some f') : Stands req deps (hap.settle fates) f' := by
  cases h with
  | @waiting st hopen hcomposite hreq hsound hrep =>
    have hunfinished : st.allFinished = false := by
      rw [Bool.eq_false_iff]
      intro hdone
      rcases hopen with ⟨fate, hfate, heq⟩
      exact hrep.allFinished.mp hdone fate hfate heq
    cases hap with
    | drive idx m sur =>
      simp only [fanOutStep, Bool.false_eq_true, if_false, Option.some.injEq] at hstep
      rw [← hstep, driveChild_composite hcomposite hunfinished]
      exact stands_conclude rfl rfl hcomposite hreq (sound_advance hsound _)
        (hrep.advance sur.elapsed _)
    | deadline sur =>
      simp only [fanOutStep, Bool.false_eq_true, if_false] at hstep
      split at hstep
      · rw [Option.some.injEq] at hstep
        have hconclude : expireComposite sur.elapsed st = ({ st with
            children := st.children.map (forceFinishChild sur.elapsed) } :
              ExchangeState).conclude := by
          rw [ExchangeState.conclude, if_pos (allFinished_forced st sur.elapsed)]
          rfl
        rw [← hstep, hconclude]
        refine stands_conclude rfl rfl hcomposite hreq ?_ (hrep.forced sur.elapsed)
        intro ch hch
        rcases List.mem_map.mp hch with ⟨ch₀, hch₀, rfl⟩
        exact sound_forced (hsound ch₀ hch₀) sur.elapsed
      · cases hstep
  | answered hknown hpresentable hrep hfinal =>
    simp only [fanOutStep, Bool.false_eq_true, if_false, Option.some.injEq] at hstep
    rw [← hstep, settle_known hknown]
    exact .answered hknown hpresentable hrep hfinal
  | thrown hknown hnot => simp [fanOutStep] at hstep

lemma stands_start {id : Nat} {route : GatewayRoute}
    (h : FanOut.start upstreams s m id req route = some f) :
    Stands req route.compositeTarget.dependencies (startFates upstreams s m req route) f := by
  unfold FanOut.start at h
  rcases hdeps : startDependencies upstreams s route.upstreamTarget.circuitFailureThreshold req m
      route.compositeTarget.dependencies with ⟨m', _ | children⟩
  · -- `pick_server` has thrown
    unfold startCompositeExchange at h
    rw [hdeps] at h
    cases h
  · rw [startCompositeExchange_eq hdeps] at h
    dsimp only at h
    rw [Option.some.injEq] at h
    rw [← h]
    have hsound : ∀ ch ∈ (compositeExchange id req route children).children,
        Sound (utf8 req.traceId = true) ch := sound_startDependencies hdeps
    have hrep : Represents route.compositeTarget.dependencies
        (refusals upstreams s route.upstreamTarget.circuitFailureThreshold req m
          route.compositeTarget.dependencies)
        (compositeExchange id req route children).children := represents_start hdeps
    exact stands_conclude rfl rfl rfl rfl (sound_advance hsound _) (hrep.advance s.elapsed _)

lemma stands_run {hs : List Happening} {f₀ : FanOut} (hstart : Stands req deps fates f₀)
    (hrun : Run fanOutStep Any f₀ hs f) : Stands req deps (fatesAfter hs fates) f := by
  induction hrun with
  | nil => exact hstart
  | @snoc ls t u l _ _ hstep ih =>
    have hafter : fatesAfter (ls ++ [l]) fates = l.settle (fatesAfter ls fates) := by
      rw [fatesAfter, List.foldl_append]
      rfl
    rw [hafter]
    exact ih.step hstep

lemma Stands.completed_iff (h : Stands req deps fates f) :
    Completed deps fates f ↔ ((∀ fate ∈ fates, fate ≠ none) → Presentable req deps fates) := by
  cases h with
  | waiting hopen _ _ _ _ =>
    rcases hopen with ⟨fate, hfate, heq⟩
    constructor
    · intro _ hknown
      exact absurd heq (hknown fate hfate)
    · intro _
      exact ⟨rfl, fun _ => ⟨rfl, rfl⟩, fun hknown => absurd heq (hknown fate hfate)⟩
  | @answered st resp hknown hpresentable hrep hfinal =>
    constructor
    · intro _ _
      exact hpresentable
    · intro _
      refine ⟨rfl, ?_, fun _ => ⟨rfl, st, resp, rfl, hrep.aggregates hknown hfinal⟩⟩
      rintro ⟨fate, hfate, heq⟩
      exact absurd heq (hknown fate hfate)
  | thrown hknown hnot =>
    constructor
    · intro hcompleted
      cases hcompleted.alive
    · intro hp
      exact absurd (hp hknown) hnot

lemma Stands.aggregates (h : Stands req deps fates f) (hframed : f.framed = [(st, resp)]) :
    Aggregates deps fates st resp := by
  cases h with
  | waiting => cases hframed
  | answered hknown _ hrep hfinal =>
    cases hframed
    exact hrep.aggregates hknown hfinal
  | thrown => cases hframed

/-- Two responses that show the same fates show the same. -/
lemma Aggregates.same {st' : ExchangeState} {resp' : HttpResponse}
    (h : Aggregates deps fates st resp) (h' : Aggregates deps fates st' resp') :
    resp'.statusCode = resp.statusCode ∧
      ∀ i : Nat, (st'.children[i]?).map (fun ch => view ch.item) =
        (st.children[i]?).map fun ch => view ch.item := by
  refine ⟨h'.status.trans h.status.symm, fun i => ?_⟩
  rcases hdep : deps[i]? with _ | dep
  · have hlen := List.getElem?_eq_none_iff.mp hdep
    rw [List.getElem?_eq_none (by rw [h'.size]; exact hlen),
      List.getElem?_eq_none (by rw [h.size]; exact hlen)]
  · rcases h.items i dep hdep with ⟨fate, ch, hfate, hch, -, hview⟩
    rcases h'.items i dep hdep with ⟨fate', ch', hfate', hch', -, hview'⟩
    rw [hfate] at hfate'
    cases hfate'
    rw [hch, hch', Option.map_some, Option.map_some, hview, hview']

/-- **Composites complete once, whatever the order.** A fan-out completes, in every state
of every run, exactly if the document is UTF-8 once all fates are known; and another
fan-out for the same dependencies in which the calls end with the same fates, at other
times and in another order, shows the same. -/
theorem fan_out_completes_iff {upstreams : Bytes → List UpstreamServer} {s : Surroundings}
    {m : UpstreamManager} {id : Nat} {req : HttpRequest} {route : GatewayRoute}
    {hs : List Happening} {f₀ f : FanOut} {fates : List (Option Fate)}
    (hstart : FanOut.start upstreams s m id req route = some f₀)
    (hrun : Run fanOutStep Any f₀ hs f)
    (hfates : fates = fatesAfter hs (startFates upstreams s m req route)) :
    (Completed route.compositeTarget.dependencies fates f ↔
      ((∀ fate ∈ fates, fate ≠ none) →
        Presentable req route.compositeTarget.dependencies fates)) ∧
    ∀ upstreams' s' m' id' req' (route' : GatewayRoute) hs' f₀' f',
      route'.compositeTarget.dependencies = route.compositeTarget.dependencies →
      FanOut.start upstreams' s' m' id' req' route' = some f₀' →
      Run fanOutStep Any f₀' hs' f' →
      fatesAfter hs' (startFates upstreams' s' m' req' route') = fates →
      ∀ st resp st' resp', f.framed = [(st, resp)] → f'.framed = [(st', resp')] →
        resp'.statusCode = resp.statusCode ∧
          ∀ i : Nat, (st'.children[i]?).map (fun ch => view ch.item) =
            (st.children[i]?).map fun ch => view ch.item := by
  have hstands := stands_run (stands_start hstart) hrun
  rw [← hfates] at hstands
  refine ⟨hstands.completed_iff, ?_⟩
  intro upstreams' s' m' id' req' route' hs' f₀' f' hdeps hstart' hrun' hsame st resp st' resp'
    hframed hframed'
  have hstands' := stands_run (stands_start hstart') hrun'
  rw [hsame, hdeps] at hstands'
  exact (hstands.aggregates hframed).same (hstands'.aggregates hframed')

/-! ### Two dependencies -/

/-- A composite of two dependencies, the second one optional. -/
def pairRoute : GatewayRoute :=
  { path := ascii "/c"
    targetType := .composite
    compositeTarget :=
      { dependencies :=
          [oneDependency,
            { name := Text.ofAscii "e", upstreamName := Text.ofAscii "v", required := false }]
        totalTimeoutMs := 100 } }

/-- Both backends are waited for. -/
def pairStart : Option FanOut :=
  FanOut.start backendEnv.upstreams {} oneBackend 0 {} pairRoute

/-- The backend of a dependency answers with a body. -/
def childAnswers (idx : Nat) (body : Bytes) : Happening :=
  .drive idx oneBackend { advances := fun _ => [.done true { statusCode := 200, body := body }] }

def pairFates (hs : List Happening) : List (Option Fate) :=
  fatesAfter hs (startFates backendEnv.upstreams {} oneBackend {} pairRoute)

/-- The second dependency answers, then the overall deadline fires. -/
lemma pair_expires :
    ∃ f₀ f, pairStart = some f₀ ∧
      Run fanOutStep Any f₀ [childAnswers 1 (ascii "ok"), .deadline {}] f ∧
      f.framed.map (fun p => p.2.statusCode) = [503] := by
  have hexec : (pairStart.bind fun f₀ =>
      (exec fanOutStep Any [childAnswers 1 (ascii "ok"), .deadline {}] f₀).map fun f =>
        f.framed.map fun p => p.2.statusCode) = some [503] := by decide +kernel
  rcases Option.bind_eq_some_iff.mp hexec with ⟨f₀, hstart, hf⟩
  rcases Option.map_eq_some_iff.mp hf with ⟨f, hf, hcode⟩
  exact ⟨f₀, f, hstart, run_of_exec hf, hcode⟩

theorem fan_out_completes_expired :
    ∃ f₀ f, pairStart = some f₀ ∧
      Run fanOutStep Any f₀ [childAnswers 1 (ascii "ok"), .deadline {}] f ∧
      f.framed.map (fun p => p.2.statusCode) = [503] ∧
      Completed pairRoute.compositeTarget.dependencies
        (pairFates [childAnswers 1 (ascii "ok"), .deadline {}]) f := by
  obtain ⟨f₀, f, hstart, hrun, hcode⟩ := pair_expires
  have hbodies : shown Prod.fst (shownBodies pairRoute.compositeTarget.dependencies
      (pairFates [childAnswers 1 (ascii "ok"), .deadline {}])) =
        [(ascii "d", none), (ascii "e", some (ascii "ok"))] := by decide +kernel
  refine ⟨f₀, f, hstart, hrun, hcode, ?_⟩
  refine (fan_out_completes_iff hstart hrun rfl).1.mpr fun _ => ⟨fun _ => rfl, ?_⟩
  intro p hp b hb
  have hp' : p ∈ [(ascii "d", none), (ascii "e", some (ascii "ok"))] := hbodies ▸ hp
  rcases List.mem_cons.mp hp' with rfl | hp'
  · cases hb
  · rw [List.mem_singleton.mp hp'] at hb
    cases hb
    exact (Text.ofAscii "ok").2

/-- A body that is not UTF-8: the last call ends with an exception, and no response is
framed. -/
theorem fan_out_throws :
    ∃ f₀ f, pairStart = some f₀ ∧
      Run fanOutStep Any f₀ [childAnswers 1 [0xFF], childAnswers 0 (ascii "ok")] f ∧
      f.framed = [] ∧ f.crashed = true ∧
      ∀ fate ∈ pairFates [childAnswers 1 [0xFF], childAnswers 0 (ascii "ok")], fate ≠ none := by
  have hexec : (pairStart.bind fun f₀ =>
      (exec fanOutStep Any [childAnswers 1 [0xFF], childAnswers 0 (ascii "ok")] f₀).map fun f =>
        (f.framed.length, f.crashed)) = some (0, true) := by decide +kernel
  rcases Option.bind_eq_some_iff.mp hexec with ⟨f₀, hstart, hf⟩
  rcases Option.map_eq_some_iff.mp hf with ⟨f, hf, hlast⟩
  rw [Prod.mk.injEq] at hlast
  have hknown : (pairFates [childAnswers 1 [0xFF], childAnswers 0 (ascii "ok")]).all
      (·.isSome) = true := by decide +kernel
  refine ⟨f₀, f, hstart, run_of_exec hf, List.length_eq_zero_iff.mp hlast.1, hlast.2, ?_⟩
  intro fate hfate
  exact Option.isSome_iff_ne_none.mp (List.all_eq_true.mp hknown fate hfate)

end EpollGateway.Handler
