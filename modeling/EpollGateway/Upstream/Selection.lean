import EpollGateway.Upstream.Fleet
import Mathlib.Data.List.Rotate

/-! # Round robin

`pick_server` starts its search at a counter of the group and takes the first server from
there on that is healthy. The counter moves by one with every call, whichever server was
taken. The manager is driven here by any sequence of its calls other than `reload`, and
every server that is handed out is written down (`Pick`) with the flags of that moment.

Main result: `selection_fair`. A pick is a server of its group, a healthy one if there is
one; picks made while all are healthy go round; and the picks of one group are the same
whatever is picked for the others.
-/

namespace EpollGateway.Upstream

open Bytes

/-! ## The calls -/

/-- The loop of `pick_server`: the position of the server that is returned. -/
def pickIndex (servers : List UpstreamServer) (idx : Nat) : Nat :=
  (((List.range servers.length).map fun i => (idx + i) % servers.length).find? fun candidate =>
    (servers[candidate]?).any (·.healthy)).getD idx

/-- A call of the manager other than `reload`. Of `check_health` it is the part that writes
its results; the probes find what they find, so it may leave any flags. -/
inductive ManagerCall where
  | pickServer (name : Bytes)
  | checkHealth (results : List (ProbeTarget × Bool))
  | allowRequest (name : Bytes) (server : UpstreamServer) (recoveryTimeoutMs : Int) (now : Nat)
  | recordSuccess (name : Bytes) (server : UpstreamServer)
  | recordFailure (name : Bytes) (server : UpstreamServer) (failureThreshold : Int) (now : Nat)

/-- A server that was handed out: the group as it was then, and the position in it. -/
structure Pick where
  name : Bytes
  servers : List UpstreamServer
  index : Nat
  server : UpstreamServer

/-- The manager with what it handed out, oldest first. -/
structure Picking where
  mgr : UpstreamManager
  picks : List Pick := []

def Picking.step (s : Picking) : ManagerCall → Picking
  | .pickServer name =>
    match s.mgr.pickServer name with
    -- the exception for a group without servers
    | none => s
    | some (server, mgr) =>
      { mgr := mgr
        picks := s.picks ++
          [{ name := name
             servers := s.mgr.upstreams name
             index := pickIndex (s.mgr.upstreams name)
               (s.mgr.roundRobin name % (s.mgr.upstreams name).length)
             server := server }] }
  | .checkHealth results => { s with mgr := results.foldl UpstreamManager.applyResult s.mgr }
  | .allowRequest name server recovery now =>
    { s with mgr := (s.mgr.allowRequest name server recovery now).2 }
  | .recordSuccess name server => { s with mgr := s.mgr.recordSuccess name server }
  | .recordFailure name server threshold now =>
    { s with mgr := s.mgr.recordFailure name server threshold now }

def Picking.run (m : UpstreamManager) (calls : List ManagerCall) : Picking :=
  calls.foldl Picking.step { mgr := m }

/-- The picks of one group. -/
def Picking.picksOf (s : Picking) (name : Bytes) : List Pick := s.picks.filter (·.name = name)

/-- A call that picks for the group. -/
def ManagerCall.picks (name : Bytes) : ManagerCall → Bool
  | .pickServer name' => name' = name
  | _ => false

/-- A call that picks for another group. -/
def ManagerCall.picksOther (name : Bytes) : ManagerCall → Bool
  | .pickServer name' => name' ≠ name
  | _ => false

/-! ## The search -/

lemma candidates_eq_rotate (n idx : Nat) :
    ((List.range n).map fun i => (idx + i) % n) = (List.range n).rotate idx := by
  apply List.ext_getElem
  · simp
  · intro i hi hi'
    simp [List.getElem_rotate, Nat.add_comm]

lemma rotate_map_some (servers : List UpstreamServer) (idx : Nat) :
    (servers.rotate idx).map some = ((List.range servers.length).rotate idx).map (servers[·]?) := by
  rw [List.map_rotate, List.map_rotate]
  congr 1
  apply List.ext_getElem
  · simp
  · intro i hi hi'
    simp

/-- The first healthy server from `idx` on stands at the first healthy candidate. -/
lemma find?_rotate (servers : List UpstreamServer) (idx : Nat) :
    ((servers.rotate idx).find? (·.healthy)).map some =
      (((List.range servers.length).map fun i => (idx + i) % servers.length).find? fun candidate =>
        (servers[candidate]?).any (·.healthy)).map (servers[·]?) := by
  have hmap : ((servers.rotate idx).map some).find? (Option.any (·.healthy)) =
      (((List.range servers.length).rotate idx).map (servers[·]?)).find?
        (Option.any (·.healthy)) := by
    rw [rotate_map_some]
  rw [List.find?_map, List.find?_map] at hmap
  rw [candidates_eq_rotate]
  exact hmap

lemma pickIndex_cases (servers : List UpstreamServer) (idx : Nat) :
    (∃ server, (servers.rotate idx).find? (·.healthy) = some server ∧
        servers[pickIndex servers idx]? = some server) ∨
      (servers.rotate idx).find? (·.healthy) = none ∧ pickIndex servers idx = idx := by
  have hfind := find?_rotate servers idx
  unfold pickIndex
  rcases hcand : ((List.range servers.length).map fun i => (idx + i) % servers.length).find?
    (fun candidate => (servers[candidate]?).any (·.healthy)) with _ | candidate
  · right
    rw [hcand] at hfind ⊢
    exact ⟨Option.map_eq_none_iff.mp hfind, rfl⟩
  · left
    rw [hcand] at hfind ⊢
    rcases Option.map_eq_some_iff.mp hfind with ⟨server, hserver, heq⟩
    exact ⟨server, hserver, heq.symm⟩

variable {servers : List UpstreamServer} {s s' : Picking} {m : UpstreamManager}

/-- A healthy server is found if there is one. -/
lemma healthy_pickIndex {idx : Nat} {server : UpstreamServer}
    (h : servers[pickIndex servers idx]? = some server) (hany : ∃ s ∈ servers, s.healthy = true) :
    server.healthy = true := by
  rcases pickIndex_cases servers idx with ⟨found, hfound, hat⟩ | ⟨hnone, -⟩
  · rw [hat, Option.some.injEq] at h
    rw [← h]
    exact List.find?_some hfound
  · rcases hany with ⟨s, hs, hhealthy⟩
    exact absurd hhealthy (List.find?_eq_none.mp hnone s (List.mem_rotate.mpr hs))

/-- While all are healthy the search stops at once. -/
lemma pickIndex_of_all {idx : Nat} (hidx : idx < servers.length)
    (hall : ∀ s ∈ servers, s.healthy = true) : pickIndex servers idx = idx := by
  have hfirst : (servers[idx]?).any (·.healthy) = true := by
    rw [List.getElem?_eq_getElem hidx]
    exact hall _ (List.getElem_mem hidx)
  unfold pickIndex
  rcases hlen : servers.length with _ | n
  · omega
  · rw [List.range_succ_eq_map, List.map_cons, List.find?_cons_of_pos]
    · rw [Option.getD_some, Nat.add_zero, Nat.mod_eq_of_lt (by omega)]
    · rw [Nat.add_zero, Nat.mod_eq_of_lt (by omega)]
      exact hfirst

variable {name : Bytes}

/-- `pick_server` in terms of the position. -/
lemma pickServer_eq (m : UpstreamManager) (hne : m.upstreams name ≠ []) :
    ∃ server, (m.upstreams name)[pickIndex (m.upstreams name)
        (m.roundRobin name % (m.upstreams name).length)]? = some server ∧
      m.pickServer name = some (server,
        { m with roundRobin := assign m.roundRobin name (m.roundRobin name + 1) }) := by
  have hlt : m.roundRobin name % (m.upstreams name).length < (m.upstreams name).length :=
    Nat.mod_lt _ (List.length_pos_of_ne_nil hne)
  unfold UpstreamManager.pickServer
  dsimp only
  rw [← List.rotate_eq_drop_append_take hlt.le]
  rcases pickIndex_cases (m.upstreams name) (m.roundRobin name % (m.upstreams name).length) with
    ⟨server, hfind, hat⟩ | ⟨hfind, hidx⟩
  · refine ⟨server, hat, ?_⟩
    rw [hfind]
    rfl
  · rw [hfind, hidx, List.getElem?_eq_getElem hlt]
    exact ⟨_, rfl, rfl⟩

/-! ## A step -/

lemma step_pickServer (s : Picking) (hne : s.mgr.upstreams name ≠ []) :
    ∃ p : Pick, p.name = name ∧ p.servers = s.mgr.upstreams name ∧
      p.index = pickIndex p.servers (s.mgr.roundRobin name % p.servers.length) ∧
      p.servers[p.index]? = some p.server ∧
      s.step (.pickServer name) =
        { mgr := { s.mgr with
            roundRobin := assign s.mgr.roundRobin name (s.mgr.roundRobin name + 1) }
          picks := s.picks ++ [p] } := by
  rcases pickServer_eq s.mgr hne with ⟨server, hat, hpick⟩
  refine ⟨⟨name, s.mgr.upstreams name, _, server⟩, rfl, rfl, rfl, hat, ?_⟩
  rw [Picking.step, hpick]
  rfl

/-- The exception leaves the manager as it is. -/
lemma step_pickServer_empty (s : Picking) (hempty : s.mgr.upstreams name = []) :
    s.step (.pickServer name) = s := by
  have hnone : s.mgr.pickServer name = none := by
    simp [UpstreamManager.pickServer, hempty]
  rw [Picking.step, hnone]

/-- Two managers that do the same for one group. -/
structure Alike (name : Bytes) (s t : Picking) : Prop where
  upstreams : s.mgr.upstreams = t.mgr.upstreams
  counter : s.mgr.roundRobin name = t.mgr.roundRobin name
  picks : s.picksOf name = t.picksOf name

/-- What a call does to one group: it picks from it, or it leaves its picks and its counter
alone and its servers in their places. -/
inductive Turn (name : Bytes) (s s' : Picking) : Prop where
  | picked (p : Pick) (hname : p.name = name) (hservers : p.servers = s.mgr.upstreams name)
      (hindex : p.index = pickIndex p.servers (s.mgr.roundRobin name % p.servers.length))
      (hserver : p.servers[p.index]? = some p.server)
      (hpicks : s'.picks = s.picks ++ [p])
      (hcounter : s'.mgr.roundRobin name = s.mgr.roundRobin name + 1)
      (hupstreams : s'.mgr.upstreams = s.mgr.upstreams)
  | other (hpicks : s'.picksOf name = s.picksOf name)
      (hcounter : s'.mgr.roundRobin name = s.mgr.roundRobin name)
      (hupstreams : (s'.mgr.upstreams name).map UpstreamServer.address =
        (s.mgr.upstreams name).map UpstreamServer.address)

variable (results : List (ProbeTarget × Bool))

lemma addresses_applyResults (m : UpstreamManager) (name : Bytes) :
    ((results.foldl UpstreamManager.applyResult m).upstreams name).map UpstreamServer.address =
      (m.upstreams name).map UpstreamServer.address := by
  induction results generalizing m with
  | nil => rfl
  | cons r results ih =>
    rw [List.foldl_cons, ih]
    apply List.ext_getElem?
    intro i
    rw [List.getElem?_map, List.getElem?_map, upstreams_applyResult]
    split
    · rw [Option.map_map]
      congr 1
      funext s
      exact address_applyProbe s r.2
    · rfl

lemma roundRobin_applyResults (m : UpstreamManager) :
    (results.foldl UpstreamManager.applyResult m).roundRobin = m.roundRobin := by
  induction results generalizing m with
  | nil => rfl
  | cons r results ih =>
    rw [List.foldl_cons, ih]
    unfold UpstreamManager.applyResult
    split <;> rfl

lemma roundRobin_allowRequest (m : UpstreamManager) (name : Bytes) (server : UpstreamServer)
    (recovery : Int) (now : Nat) :
    (m.allowRequest name server recovery now).2.roundRobin = m.roundRobin := by
  unfold UpstreamManager.allowRequest
  dsimp only
  split
  · rfl
  · split <;> rfl

/-- A pick for another group is no pick of this one. -/
lemma picksOf_concat_ne {p : Pick} (hpicks : s'.picks = s.picks ++ [p]) (hname : p.name ≠ name) :
    s'.picksOf name = s.picksOf name := by
  unfold Picking.picksOf
  rw [hpicks, List.filter_append, List.filter_singleton, decide_eq_false hname]
  exact List.append_nil _

lemma picksOf_concat_self {p : Pick} (hpicks : s'.picks = s.picks ++ [p])
    (hname : p.name = name) : s'.picksOf name = s.picksOf name ++ [p] := by
  unfold Picking.picksOf
  rw [hpicks, List.filter_append, List.filter_singleton, decide_eq_true hname]
  rfl

/-- A pick for another group changes nothing for this one. -/
lemma alike_pickServer {other : Bytes} (hother : other ≠ name) (s : Picking) :
    Alike name (s.step (.pickServer other)) s := by
  by_cases hempty : s.mgr.upstreams other = []
  · rw [step_pickServer_empty s hempty]
    exact ⟨rfl, rfl, rfl⟩
  · rcases step_pickServer s hempty with ⟨p, hname, -, -, -, hstep⟩
    rw [hstep]
    exact ⟨rfl, assign_ne _ _ (Ne.symm hother), picksOf_concat_ne rfl (hname ▸ hother)⟩

lemma step_turn (name : Bytes) (s : Picking) (c : ManagerCall) (hne : s.mgr.upstreams name ≠ []) :
    Turn name s (s.step c) := by
  cases c with
  | pickServer other =>
    by_cases hother : other = name
    · subst hother
      rcases step_pickServer s hne with ⟨p, hname, hservers, hindex, hserver, hstep⟩
      rw [hstep]
      exact .picked p hname hservers hindex hserver rfl (assign_self _ _ _) rfl
    · have halike := alike_pickServer hother s
      exact .other halike.picks halike.counter (by rw [halike.upstreams])
  | checkHealth results =>
    exact .other rfl (congrFun (roundRobin_applyResults results s.mgr) name)
      (addresses_applyResults results s.mgr name)
  | allowRequest other server recovery now =>
    refine .other rfl (congrFun (roundRobin_allowRequest ..) name) ?_
    exact congrArg (List.map _) (congrFun (upstreams_allowRequest ..) name)
  | recordSuccess other server => exact .other rfl rfl rfl
  | recordFailure other server threshold now => exact .other rfl rfl rfl

/-! ## Runs -/

/-- The picks of a group so far, counted from where its counter stood. -/
structure Followed (m : UpstreamManager) (name : Bytes) (s : Picking) : Prop where
  addresses : (s.mgr.upstreams name).map UpstreamServer.address =
    (m.upstreams name).map UpstreamServer.address
  counter : s.mgr.roundRobin name = m.roundRobin name + (s.picksOf name).length
  picked : ∀ i p, (s.picksOf name)[i]? = some p →
    p.servers.map UpstreamServer.address = (m.upstreams name).map UpstreamServer.address ∧
      p.servers[p.index]? = some p.server ∧
      p.index = pickIndex p.servers ((m.roundRobin name + i) % p.servers.length)

lemma Followed.ne_nil (h : Followed m name s) (hne : m.upstreams name ≠ []) :
    s.mgr.upstreams name ≠ [] := by
  intro hnil
  have haddr := h.addresses
  rw [hnil, List.map_nil, eq_comm, List.map_eq_nil_iff] at haddr
  exact hne haddr

lemma Followed.turn (h : Followed m name s) (hturn : Turn name s s') : Followed m name s' := by
  cases hturn with
  | picked p hname hservers hindex hserver hpicks hcounter hupstreams =>
    have hof := picksOf_concat_self hpicks hname
    refine ⟨?_, ?_, ?_⟩
    · rw [hupstreams]
      exact h.addresses
    · rw [hcounter, h.counter, hof, List.length_append, List.length_singleton, Nat.add_assoc]
    · intro i q hq
      rw [hof] at hq
      rcases Nat.lt_or_ge i (s.picksOf name).length with hi | hi
      · rw [List.getElem?_append_left hi] at hq
        exact h.picked i q hq
      · -- the new pick, with the counter that it found
        rw [List.getElem?_append_right hi, List.getElem?_singleton] at hq
        split at hq
        · rename_i hzero
          cases hq
          have hi' : i = (s.picksOf name).length := by omega
          refine ⟨?_, hserver, ?_⟩
          · rw [hservers]
            exact h.addresses
          · rw [hindex, h.counter, hi']
        · cases hq
  | other hpicks hcounter hupstreams =>
    refine ⟨hupstreams.trans h.addresses, ?_, ?_⟩
    · rw [hcounter, hpicks]
      exact h.counter
    · intro i q hq
      rw [hpicks] at hq
      exact h.picked i q hq

lemma run_followed (m : UpstreamManager) (name : Bytes) (hne : m.upstreams name ≠ [])
    (calls : List ManagerCall) : Followed m name (Picking.run m calls) := by
  induction calls using List.reverseRecOn with
  | nil => exact ⟨rfl, rfl, fun i p hp => by cases hp⟩
  | append_singleton calls c ih =>
    unfold Picking.run at ih ⊢
    rw [List.foldl_append]
    exact ih.turn (step_turn name _ c (ih.ne_nil hne))

/-- Every call for the group hands a server out. -/
lemma length_picksOf (m : UpstreamManager) (name : Bytes) (hne : m.upstreams name ≠ [])
    (calls : List ManagerCall) :
    ((Picking.run m calls).picksOf name).length = (calls.filter (·.picks name)).length := by
  induction calls using List.reverseRecOn with
  | nil => rfl
  | append_singleton calls c ih =>
    have hfollowed := run_followed m name hne calls
    rw [List.filter_append, List.length_append, ← ih]
    unfold Picking.run at hfollowed ⊢
    rw [List.foldl_append]
    cases c with
    | pickServer other =>
      by_cases hother : other = name
      · subst hother
        rcases step_pickServer _ (hfollowed.ne_nil hne) with ⟨p, hname, -, -, -, hstep⟩
        rw [List.foldl_cons, List.foldl_nil, hstep, picksOf_concat_self rfl hname]
        simp [ManagerCall.picks]
      · have halike := alike_pickServer hother (calls.foldl Picking.step { mgr := m })
        rw [List.foldl_cons, List.foldl_nil, halike.picks]
        simp [ManagerCall.picks, hother]
    | _ => rfl

/-- Picks made while all servers are healthy go round. -/
lemma Followed.cyclic (h : Followed m name s) {before block after : List Pick}
    (hblock : s.picksOf name = before ++ block ++ after)
    (hlen : block.length = (m.upstreams name).length)
    (hall : ∀ p ∈ block, ∀ server ∈ p.servers, server.healthy = true) :
    block.map (·.index) = (List.range (m.upstreams name).length).rotate
      (m.roundRobin name + before.length) := by
  apply List.ext_getElem
  · simp [hlen]
  · intro i hi hi'
    rw [List.length_map] at hi
    have hat : (s.picksOf name)[before.length + i]? = some block[i] := by
      rw [hblock, List.append_assoc, List.getElem?_append_right (Nat.le_add_right _ _),
        Nat.add_sub_cancel_left, List.getElem?_append_left hi, List.getElem?_eq_getElem hi]
    rcases h.picked _ _ hat with ⟨haddr, hserver, hindex⟩
    have hsize : block[i].servers.length = (m.upstreams name).length := by
      simpa using congrArg List.length haddr
    have hpos : 0 < block[i].servers.length := by omega
    rw [List.getElem_map, hindex,
      pickIndex_of_all (Nat.mod_lt _ hpos) (hall _ (List.getElem_mem hi)), List.getElem_rotate,
      List.getElem_range, List.length_range, hsize]
    congr 1
    omega

/-! ## Other groups -/

lemma upstreams_applyResults_congr {m' : UpstreamManager} (h : m.upstreams = m'.upstreams) :
    (results.foldl UpstreamManager.applyResult m).upstreams =
      (results.foldl UpstreamManager.applyResult m').upstreams := by
  induction results generalizing m m' with
  | nil => exact h
  | cons r results ih =>
    rw [List.foldl_cons, List.foldl_cons]
    apply ih
    unfold UpstreamManager.applyResult
    rw [h]
    split
    · exact h
    · rfl

lemma eq_pickServer_of_picksOther {c : ManagerCall} (hc : c.picksOther name = true) :
    ∃ other, c = .pickServer other ∧ other ≠ name := by
  cases c with
  | pickServer other => exact ⟨other, rfl, of_decide_eq_true hc⟩
  | _ => cases hc

lemma Alike.step {t : Picking} (h : Alike name s t) {c : ManagerCall}
    (hc : c.picksOther name = false) : Alike name (s.step c) (t.step c) := by
  cases c with
  | pickServer other =>
    have hother : other = name := by simpa [ManagerCall.picksOther] using hc
    subst hother
    by_cases hempty : s.mgr.upstreams other = []
    · rw [step_pickServer_empty s hempty, step_pickServer_empty t (h.upstreams ▸ hempty)]
      exact h
    · -- the same list and the same counter, so the same position and the same server
      rcases step_pickServer s hempty with ⟨p, hpn, hps, hpi, hpat, hsstep⟩
      rcases step_pickServer t (h.upstreams ▸ hempty) with ⟨q, hqn, hqs, hqi, hqat, htstep⟩
      have hservers : p.servers = q.servers := by rw [hps, hqs, h.upstreams]
      have hindex : p.index = q.index := by rw [hpi, hqi, hservers, h.counter]
      have hsame : p = q := by
        rw [hservers, hindex, hqat, Option.some.injEq] at hpat
        rcases p with ⟨pname, pservers, pindex, pserver⟩
        rcases q with ⟨qname, qservers, qindex, qserver⟩
        simp_all
      rw [hsstep, htstep, ← hsame]
      refine ⟨h.upstreams, ?_, ?_⟩
      · dsimp only
        rw [assign_self, assign_self, h.counter]
      · refine (picksOf_concat_self (s := s) rfl hpn).trans ?_
        rw [h.picks]
        exact (picksOf_concat_self (s := t) rfl hpn).symm
  | checkHealth results =>
    refine ⟨upstreams_applyResults_congr results h.upstreams, ?_, h.picks⟩
    exact (congrFun (roundRobin_applyResults results s.mgr) name).trans
      (h.counter.trans (congrFun (roundRobin_applyResults results t.mgr) name).symm)
  | allowRequest other server recovery now =>
    refine ⟨?_, ?_, h.picks⟩
    · exact (upstreams_allowRequest ..).trans (h.upstreams.trans (upstreams_allowRequest ..).symm)
    · exact (congrFun (roundRobin_allowRequest ..) name).trans
        (h.counter.trans (congrFun (roundRobin_allowRequest ..) name).symm)
  | recordSuccess other server => exact ⟨h.upstreams, h.counter, h.picks⟩
  | recordFailure other server threshold now => exact ⟨h.upstreams, h.counter, h.picks⟩

/-- Without the picks for other groups the run does the same for this one. -/
lemma run_alike (m : UpstreamManager) (name : Bytes) (calls : List ManagerCall) :
    Alike name (Picking.run m (calls.filter fun c => !c.picksOther name))
      (Picking.run m calls) := by
  induction calls using List.reverseRecOn with
  | nil => exact ⟨rfl, rfl, rfl⟩
  | append_singleton calls c ih =>
    unfold Picking.run at ih ⊢
    rw [List.filter_append, List.foldl_append, List.foldl_append]
    rcases hc : c.picksOther name with _ | _
    · rw [List.filter_cons_of_pos (by simp [hc])]
      exact ih.step hc
    · rcases eq_pickServer_of_picksOther hc with ⟨other, rfl, hother⟩
      have halike := alike_pickServer hother (calls.foldl Picking.step { mgr := m })
      rw [List.filter_cons_of_neg (by simp [hc])]
      exact ⟨ih.upstreams.trans halike.upstreams.symm, ih.counter.trans halike.counter.symm,
        ih.picks.trans halike.picks.symm⟩

/-! ## Main result -/

/-- **Backend selection**, for every group with servers and every sequence of calls. -/
theorem selection_fair (m : UpstreamManager) (name : Bytes) (hne : m.upstreams name ≠ [])
    (calls : List ManagerCall) :
    -- every call for the group returns, with a server of the group as it is at that moment
    ((Picking.run m calls).picksOf name).length = (calls.filter (·.picks name)).length ∧
      (∀ p ∈ (Picking.run m calls).picksOf name,
        p.servers.map UpstreamServer.address = (m.upstreams name).map UpstreamServer.address ∧
          p.servers[p.index]? = some p.server ∧
          ((∃ server ∈ p.servers, server.healthy = true) → p.server.healthy = true)) ∧
      -- as many picks in a row as there are servers, all healthy at each of them
      (∀ before block after, (Picking.run m calls).picksOf name = before ++ block ++ after →
        block.length = (m.upstreams name).length →
        (∀ p ∈ block, ∀ server ∈ p.servers, server.healthy = true) →
        ∃ k, block.map (·.index) = (List.range (m.upstreams name).length).rotate k) ∧
      -- the picks for other groups are left out
      (Picking.run m (calls.filter fun c => !c.picksOther name)).picksOf name =
        (Picking.run m calls).picksOf name := by
  have hfollowed := run_followed m name hne calls
  refine ⟨length_picksOf m name hne calls, ?_, ?_, (run_alike m name calls).picks⟩
  · intro p hp
    rcases List.getElem?_of_mem hp with ⟨i, hi⟩
    rcases hfollowed.picked i p hi with ⟨haddr, hserver, hindex⟩
    refine ⟨haddr, hserver, ?_⟩
    intro hany
    rw [hindex] at hserver
    exact healthy_pickIndex hserver hany
  · intro before block after hblock hlen hall
    exact ⟨_, hfollowed.cyclic hblock hlen hall⟩

/-- The group `g` has two servers, every other group one. -/
def twoGroups : UpstreamManager :=
  { upstreams := fun name =>
      if name = ascii "g" then [{ host := ascii "a" }, { host := ascii "b" }]
      else [{ host := ascii "c" }] }

/-- Two picks for `g` with one for another group between them go round. -/
theorem selection_fair_pair :
    ∃ k, ((Picking.run twoGroups [.pickServer (ascii "g"), .pickServer (ascii "h"),
      .pickServer (ascii "g")]).picksOf (ascii "g")).map (·.index) = (List.range 2).rotate k := by
  have hfair := selection_fair twoGroups (ascii "g") (by decide)
    [.pickServer (ascii "g"), .pickServer (ascii "h"), .pickServer (ascii "g")]
  exact hfair.2.2.1 [] _ [] (List.append_nil _).symm (by decide +kernel) (by decide +kernel)

end EpollGateway.Upstream
