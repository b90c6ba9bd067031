import Lonet.Virtnet.System

/-!
# Closing a host

`Host.close` shuts the host down and then, once (`_close_once`), runs a deferred function that
is to decrement the subnetwork's count of open hosts. `__init__` and `new_host` keep that count
in `_nopenhosts`; `Host.close` and `autoclose` read `_nopenHosts`, an attribute no code sets.
So the first close of every host raises `AttributeError` after the shutdown, the count is never
decremented, and `autoclose` raises whenever it runs (`hostClose_first_raises`).

`hostShutdown_of_not_stuck` is the specification of `Host._shutdown` the other modules use: on
a host whose `_sockmu` is free it returns, and the host is down.
-/

namespace Lonet

namespace Sys

/-- `Host._shutdown` on a host whose `_sockmu` is free returns and leaves the host down, and
touches no subnetwork. -/
theorem hostShutdown_of_not_stuck {s : Sys} {h : Nat} {H : Host} (hH : s.hosts h = some H)
    (hst : H.stuck = false) :
    (s.hostShutdown h).2 = true ∧ (s.hostShutdown h).1.hosts h = some { H with down := true } ∧
      (s.hostShutdown h).1.nets = s.nets := by
  obtain ⟨sn, name, v, d, c, st⟩ := H
  cases d <;> simp_all [hostShutdown]

/-- `Host._shutdown` shuts down only connections recorded in a socket's `_conn`. -/
theorem hostShutdown_conns_of_unrecorded {s : Sys} {h c : Nat}
    (hc : ∀ sk S, s.socks sk = some S → S.conn ≠ some c) :
    (s.hostShutdown h).1.conns c = s.conns c := by
  unfold hostShutdown
  split
  · rfl
  · split
    · rfl
    · split
      · rfl
      · exact shutdownSocks_conns_of_unrecorded hc

/-- `Host.close` changes connections only through `Host._shutdown`. -/
@[simp] theorem hostClose_conns (s : Sys) (h : Nat) :
    (s.hostClose h).1.conns = (s.hostShutdown h).1.conns := by
  unfold hostClose
  cases s.hostShutdown h with
  | mk s' b =>
    cases b
    · rfl
    · simp only
      split
      · rfl
      · split
        · rfl
        · split <;> (try split) <;> rfl

/-- After `Host.close` of a host whose `_sockmu` is free, the host is down. -/
theorem hostClose_down {s : Sys} {h : Nat} {H : Host} (hH : s.hosts h = some H)
    (hst : H.stuck = false) : ((s.hostClose h).1.hosts h).map (·.down) = some true := by
  obtain ⟨hret, hdown, -⟩ := hostShutdown_of_not_stuck hH hst
  have e : s.hostShutdown h = ((s.hostShutdown h).1, true) := Prod.ext rfl hret
  rw [hostClose, e]
  simp only [hdown]
  split
  · simp [hdown]
  · split <;> (try split) <;> simp [hdown]

/-- A later `Host.close` of a host that is down and whose `_close_once` has run does nothing. -/
theorem hostClose_again {s : Sys} {h : Nat} {H : Host} (hH : s.hosts h = some H)
    (hd : H.down = true) (hc : H.closeOnce = true) : s.hostClose h = (s, some (.ok ())) := by
  simp [hostClose, hostShutdown, hH, hd, hc]

/-- **The first close raises.** The first `Host.close` of a host whose `_sockmu` and subnetwork
`_hostmu` are free shuts it down and raises `AttributeError` for `_nopenHosts`, leaving every
subnetwork record, and so `_nopenhosts`, as it was; a second close then returns quietly. On the
same subnetwork `autoclose` raises the same error. -/
theorem hostClose_first_raises {s : Sys} {h : Nat} {H : Host} {N : Subnet}
    (hH : s.hosts h = some H) (hN : s.nets H.subnet = some N) (hst : H.stuck = false)
    (hNst : N.stuck = false) (hc : H.closeOnce = false) :
    (s.hostClose h).2 = some (.error noNopenHosts) ∧ (s.hostClose h).1.nets = s.nets ∧
      ((s.hostClose h).1.hostClose h).2 = some (.ok ()) ∧
      s.autoclose H.subnet = some (.error noNopenHosts) := by
  obtain ⟨hret, hdown, hnets⟩ := hostShutdown_of_not_stuck hH hst
  have hclose : s.hostClose h = ((s.hostShutdown h).1.setHost h
      { H with down := true, closeOnce := true }, some (.error noNopenHosts)) := by
    have e : s.hostShutdown h = ((s.hostShutdown h).1, true) := Prod.ext rfl hret
    rw [hostClose, e]
    simp [hdown, hc, hnets, hN, hNst]
  refine ⟨by rw [hclose], by rw [hclose]; simp, ?_, by simp [autoclose, hN, hNst]⟩
  rw [hclose, hostClose_again (H := { H with down := true, closeOnce := true }) (by simp) rfl rfl]

/-- After `listenRun`, closing `a` (host `2`) raises, and `autoclose` on `lonetX` too. -/
theorem hostClose_first_raises_a :
    (listenState.hostClose 2).2 = some (.error noNopenHosts) ∧
      (listenState.hostClose 2).1.nets = listenState.nets ∧
      ((listenState.hostClose 2).1.hostClose 2).2 = some (.ok ()) ∧
      listenState.autoclose 0 = some (.error noNopenHosts) :=
  @hostClose_first_raises listenState 2 _ _ rfl rfl rfl rfl rfl

end Sys

end Lonet
