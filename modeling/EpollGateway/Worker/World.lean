import EpollGateway.Handler.Flight

/-! # Connections that share one manager

Every worker of the process drives its connections against the same
`UpstreamManager`. A `World` is the manager with all connections; a step is a step
of one of them, or a round of health checks.
-/

namespace EpollGateway.Worker

open Bytes Upstream Handler Machine

structure World where
  mgr : UpstreamManager
  conns : Nat → Conn

inductive WorldLabel where
  | conn (i : Nat) (l : Label)
  | health (ok : Bytes → Nat → Bool)

/-- The connections, one of them replaced. -/
def World.put (w : World) (i : Nat) (s : Sys) : World :=
  ⟨s.mgr, fun j => if j = i then s.conn else w.conns j⟩

@[simp] lemma World.mgr_put (w : World) (i : Nat) (s : Sys) : (w.put i s).mgr = s.mgr := rfl

@[simp] lemma World.conns_put_self (w : World) (i : Nat) (s : Sys) :
    (w.put i s).conns i = s.conn := if_pos rfl

lemma World.conns_put_ne (w : World) {i j : Nat} (s : Sys) (h : j ≠ i) :
    (w.put i s).conns j = w.conns j := if_neg h

/-- One step; `env i` is what the worker of connection `i` knows. -/
def worldStep (env : Nat → Env) : WorldLabel → World → Option World
  | .conn i l, w => (connStep (env i) l ⟨w.mgr, w.conns i⟩).map (w.put i)
  | .health ok, w => some { w with mgr := w.mgr.checkHealth ok }

/-- The gateway after its start, with the given servers and without connections that
have sent anything. -/
def World.init (servers : Bytes → List UpstreamServer) : World :=
  ⟨{ upstreams := servers }, fun _ => {}⟩

lemma worldStep_conn {env : Nat → Env} {i : Nat} {l : Label} {w w' : World}
    (h : worldStep env (.conn i l) w = some w') :
    ∃ s', connStep (env i) l ⟨w.mgr, w.conns i⟩ = some s' ∧ w' = w.put i s' := by
  obtain ⟨s', hs', rfl⟩ := Option.map_eq_some_iff.mp h
  exact ⟨s', hs', rfl⟩

end EpollGateway.Worker
