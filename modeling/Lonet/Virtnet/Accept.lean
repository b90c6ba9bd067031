import Lonet.Virtnet.Close
import Lonet.Virtnet.Footprint

/-!
# The end of `listener.accept`

Once the ack channel brings `None`, `accept` builds the connection and, under `_sockmu`, stores
it with `sk.conn = c`. Every other part of the code reads and writes a socket's connection as
`sk._conn`. So:

* the socket `accept` reserved never records the connection it returns
  (`acceptFinish_conn_unrecorded`);
* `Host._shutdown`, which walks `socketv` and shuts down each `sk._conn`, leaves an accepted
  connection up although its host is down (`accepted_conn_survives_host_close`).

`run_acceptFinish` reads the step backwards once: the two theorems only cite it.
-/

namespace Lonet

namespace Sys

/-- What task `i` does at the last part of `accept`, after the ack brought `None`. -/
theorem run_acceptFinish {s s' : Sys} {i l sk : Nat} {req : DialReq}
    (ht : s.tasks i = some (.acceptFinish l req sk none)) (hs : s.step (.run i) = some s') :
    ∃ L S H N a P, s.listeners l = some L ∧ s.socks L.socket = some S ∧
      s.hosts S.host = some H ∧ s.nets H.subnet = some N ∧ s.listenerAddr l = some a ∧
      s.socks sk = some P ∧ H.stuck = false ∧
      s' = (((s.setConn s.next ⟨sk, req.src, req.osconn, .server, false, false⟩).setSock sk
        { P with connAttr := some s.next }).bump).setTask i (.acceptDone (.ok s.next)) := by
  simp only [step, ht, Option.bind_eq_bind, Option.some_bind, runTask, Option.bind_eq_some] at hs
  obtain ⟨L, hL, S, hS, H, hH, N, hN, a, ha, P, hP, hs⟩ := hs
  cases hst : H.stuck
  · simp only [hst, Bool.false_eq_true, ite_false, Option.some.injEq] at hs
    exact ⟨L, S, H, N, a, P, hL, hS, hH, hN, ha, hP, hst, hs.symm⟩
  · simp [hst] at hs

/-- **`accept` records its connection under the wrong name.** When `accept` returns connection
`s.next`, the reserved socket `sk` gets it in the attribute `conn`, and its `_conn` is what it
was before. -/
theorem acceptFinish_conn_unrecorded {s s' : Sys} {i l sk : Nat} {req : DialReq}
    (ht : s.tasks i = some (.acceptFinish l req sk none)) (hs : s.step (.run i) = some s') :
    s'.tasks i = some (.acceptDone (.ok s.next)) ∧
      s'.conns s.next = some ⟨sk, req.src, req.osconn, .server, false, false⟩ ∧
      ∃ P, s.socks sk = some P ∧ s'.socks sk = some { P with connAttr := some s.next } := by
  obtain ⟨-, -, -, -, -, P, -, -, -, -, -, hP, -, rfl⟩ := run_acceptFinish ht hs
  exact ⟨by simp, by simp, P, hP, by simp⟩

/-- At the end of `acceptRun`, `accept` (thread `11`) returns connection `15` and leaves
socket `13`'s `_conn` empty. -/
theorem acceptFinish_conn_unrecorded_b :
    ∃ s', acceptState.step (.run 11) = some s' ∧ s'.tasks 11 = some (.acceptDone (.ok 15)) ∧
      s'.conns 15 = some ⟨13, ⟨ascii "lonetX", ascii "a", 1⟩, 10, .server, false, false⟩ ∧
      ∃ P, acceptState.socks 13 = some P ∧ s'.socks 13 = some { P with connAttr := some 15 } :=
  ⟨_, rfl, @acceptFinish_conn_unrecorded acceptState _ 11 7 13 _ rfl rfl⟩

/-- **An accepted connection outlives its host.** If no socket records connection `s.next`
in its `_conn` when `accept` returns it, then after `Host.close` of the listener's host the host
is down and the connection is not. -/
theorem accepted_conn_survives_host_close {s s' : Sys} {i l sk : Nat} {req : DialReq}
    (ht : s.tasks i = some (.acceptFinish l req sk none)) (hs : s.step (.run i) = some s')
    (hfresh : ∀ k S, s.socks k = some S → S.conn ≠ some s.next) :
    ∃ L S, s.listeners l = some L ∧ s.socks L.socket = some S ∧
      ((s'.hostClose S.host).1.wake.hosts S.host).map (·.down) = some true ∧
      (s'.hostClose S.host).1.wake.conns s.next =
        some ⟨sk, req.src, req.osconn, .server, false, false⟩ := by
  obtain ⟨L, S, H, -, -, P, hL, hS, hH, -, -, hP, hst, rfl⟩ := run_acceptFinish ht hs
  refine ⟨L, S, hL, hS, hostClose_down (H := H) (by simpa using hH) hst, ?_⟩
  simp only [wake, hostClose_conns]
  rw [hostShutdown_conns_of_unrecorded]
  · simp
  · intro k S' hk
    simp only [setTask, bump, setSock, setConn, upd_apply] at hk
    split at hk
    · cases hk; exact hfresh sk P hP
    · exact hfresh k S' hk

/-- At the end of `acceptRun`, after `accept` returns, closing `b` leaves connection `15` up. -/
theorem accepted_conn_survives_host_close_b :
    ∃ s', acceptState.step (.run 11) = some s' ∧ ∃ L S, acceptState.listeners 7 = some L ∧
      acceptState.socks L.socket = some S ∧
      ((s'.hostClose S.host).1.wake.hosts S.host).map (·.down) = some true ∧
      (s'.hostClose S.host).1.wake.conns 15 =
        some ⟨13, ⟨ascii "lonetX", ascii "a", 1⟩, 10, .server, false, false⟩ :=
  ⟨_, rfl, @accepted_conn_survives_host_close acceptState _ 11 7 13 _ rfl rfl (by
    -- the sockets of `acceptState` lie below `next`, and none records connection `15`
    intro k S hk
    have hf : acceptState.Fresh := (@Reachable.ofRun acceptRun _ rfl).fresh
    have hlt : k < 15 := by
      by_contra hge
      rw [hf.socks k (by rw [show acceptState.next = 15 from rfl]; omega)] at hk
      cases hk
    have hall : ∀ k < 15, (acceptState.socks k).bind (·.conn) ≠ some 15 := by decide
    exact fun e => hall k hlt (by rw [hk]; exact e))⟩

end Sys

end Lonet
