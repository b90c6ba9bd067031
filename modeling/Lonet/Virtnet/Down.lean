import Lonet.Virtnet.Preserve
import Lonet.Virtnet.Wake

/-!
# Operations after a down signal

A down signal, once fired, stays fired: the `down` flags of hosts, listeners and subnetworks
and the subnetwork's closed OS listener only move forward (`Sys.run_le`). What an operation
started later does with it depends on the operation:

* `Host.listen` (`xnet/lonet/__init__.py:343-356`) parses its address, checks that it names the
  host, and then finds `h._down` ready and raises `Host._excDown()` (`:647-653`), before it
  takes `_sockmu`;
* `listener.accept` (`:400-451`) takes the `l._down` case of its first `select` and raises
  `listener._excDown()` (`:655-666`), the first of subnetwork, host and listener found down;
* `new_host` (`:275-288`) tests no down signal, but once the subnetwork's shutdown has closed its
  OS listener, `getsockname` in `_vnet_newhost` fails with `EBADF` before the registry is touched;
* `Host.dial` (`:490-513`) tests no down signal (`# XXX cancel on host shutdown`, `:502`): on a
  host already closed it reserves a port, queries the registry and runs the handshake like on
  any other, and can return a connection (`dial_after_close_connects`).

`ops_after_down_fail` states the first three for every state after the signal, in every run
from a reachable state: each operation raises and changes nothing but its own thread, and no
other thread can meet it on a channel first (`Sys.Alone`; for `accept`, `Reachable.woken`).
`new_host`'s error is the `EBADF` of the closed OS listener, not `ErrNetDown`
(`# XXX check err due to subnet down`, `:279`).

The subnetwork's own signal has a second source: `_serve` runs `_vnet_down` when the OS
listener's `accept` fails (`:760-766`). That shutdown never reaches `registry.close()`, and
the `close()` after it does nothing (`serveFail_registry_open`).
-/

namespace Lonet

namespace Sys

variable {s s' : Sys}

/-- A run from a state whose ids from `next` on are free only moves objects forward. -/
theorem run_le (hf : s.Fresh) {as : List Act} (h : s.run as = some s') : s.Le s' := by
  induction as generalizing s with
  | nil => cases h; exact Le.refl _
  | cons a as ih =>
    obtain ⟨s1, h1, h2⟩ := Option.bind_eq_some.1 h
    exact (step_le hf h1).trans (ih (hf.step h1) h2)

/-- A host found down is still there and down. -/
theorem Le.host_down (hle : s.Le s') {h : Nat} {H : Host} (hH : s.hosts h = some H)
    (hd : H.down = true) : ∃ H', s'.hosts h = some H' ∧ H'.down = true := by
  obtain ⟨H', hH', hHH⟩ := hle.hosts.keep h H hH
  exact ⟨H', hH', hHH.down hd⟩

/-- A listener found down is still down. -/
theorem Le.listener_down (hle : s.Le s') {l : Nat} {L : Listener} (hL : s.listeners l = some L)
    (hd : L.down = true) : s'.lsnDown l = true := by
  obtain ⟨L', hL', hLL⟩ := hle.listeners.keep l L hL
  simp only [lsnDown, hL', hLL.down hd]

/-- A subnetwork whose OS listener is closed is still there with it closed. -/
theorem Le.oslClosed (hle : s.Le s') {n : Nat} {N : Subnet} (hN : s.nets n = some N)
    (hc : N.oslClosed = true) : ∃ N', s'.nets n = some N' ∧ N'.oslClosed = true := by
  obtain ⟨N', hN', hNN⟩ := hle.nets.keep n N hN
  exact ⟨N', hN', hNN.oslClosed hc⟩

/-! ## One thread's step -/

/-- `Host.listen` on a host found down, for an address that parses and names the host. -/
theorem runTask_listen_down {i h : Nat} {laddr : Bytes} {H : Host} {N : Subnet} {a : Addr}
    (hH : s.hosts h = some H) (hN : s.nets H.subnet = some N) (hd : H.down = true)
    (ha : parseAddr N.network H.name (listenText laddr) = .ok a) (hn : a.host = H.name) :
    s.runTask i (.listen h laddr) = some (s.setTask i
      (.listenDone (.error (.wrap (listenCtx N.network laddr) (.net (hostExcDown N)) true)))) := by
  simp [runTask, listenCheck, hH, hN, ha, hn, hd]

/-- The first `select` of `listener.accept` on a listener found down. -/
theorem runTask_accept_down {i l : Nat} (hd : s.lsnDown l = true) :
    s.runTask i (.accept l false) = some (s.setTask i (.acceptDown l)) := by
  simp [runTask, hd]

/-- `l._excDown()` inside the context of `accept`, for a listener whose links are all there. -/
theorem runTask_acceptDown (hr : s.Refs) {i l : Nat} {L : Listener}
    (hL : s.listeners l = some L) :
    ∃ S H N a, s.socks L.socket = some S ∧ s.hosts S.host = some H ∧ s.nets H.subnet = some N ∧
      s.listenerAddr l = some a ∧ s.runTask i (.acceptDown l) = some (s.setTask i
        (.acceptDone (.error (.wrap (acceptCtx N a) (.net (listenerExcDown N H)) true)))) := by
  obtain ⟨S, hS⟩ := hr.listenerSock l L hL
  obtain ⟨H, hH⟩ := hr.sockHost _ S hS
  obtain ⟨N, hN⟩ := hr.hostNet _ H hH
  have ha : s.listenerAddr l = some ⟨N.network, H.name, S.port⟩ := by
    simp [listenerAddr, sockAddr, hL, hS, hH, hN]
  exact ⟨S, H, N, _, hS, hH, hN, ha, by simp [runTask, hL, hS, hH, hN, ha]⟩

/-- `new_host` on a subnetwork whose OS listener is closed. -/
theorem runTask_newHost_closed {i n : Nat} {name : Bytes} {N : Subnet} (hN : s.nets n = some N)
    (hc : N.oslClosed = true) :
    s.runTask i (.newHost n name) =
      some (s.setTask i (.newHostDone (.error (.wrap (newHostCtx N name) badFd true)))) := by
  simp [runTask, vnetNewhost, hN, hc]

/-- `Host.listen`, `new_host` and `l._excDown()` are at no channel operation. -/
theorem alone_solo {i : Nat} {t : Task} (ht : s.tasks i = some t)
    (h : (∃ h laddr, t = .listen h laddr) ∨ (∃ n name, t = .newHost n name) ∨
      (∃ l, t = .acceptDown l)) : s.Alone i := by
  intro j
  simp only [step, ht, Option.bind_eq_bind, Option.some_bind]
  cases s.tasks j with
  | none => exact ⟨rfl, rfl⟩
  | some tj =>
    have hm : s.meet i t j tj = none ∧ s.meet j tj i t = none := by
      rcases h with ⟨_, _, rfl⟩ | ⟨_, _, rfl⟩ | ⟨_, rfl⟩ <;>
        cases tj <;> first | exact ⟨rfl, rfl⟩ | (rename_i w; cases w <;> exact ⟨rfl, rfl⟩)
    simp only [Option.some_bind, hm.1, hm.2, ite_self, and_self]

/-! ## After the signal, in every run -/

/-- What thread `i` does in state `s'`, after a down signal fired in state `s`: each operation
below raises and changes nothing but thread `i`. -/
structure DownFails (s s' : Sys) (i : Nat) : Prop where
  /-- `Host.listen` on a host down in `s`, for an address that parses and names the host, raises
  `ErrNetDown` if the subnetwork is down, else `ErrHostDown`. -/
  listen : ∀ h H laddr, s.hosts h = some H → H.down = true → s'.tasks i = some (.listen h laddr) →
    ∃ H' N, s'.hosts h = some H' ∧ s'.nets H'.subnet = some N ∧
      ∀ a, parseAddr N.network H'.name (listenText laddr) = .ok a → a.host = H'.name →
        s'.step (.run i) = some (s'.setTask i
          (.listenDone (.error (.wrap (listenCtx N.network laddr) (.net (hostExcDown N)) true)))) ∧
        s'.Alone i
  /-- `listener.accept` on a listener down in `s` takes the `_down` case of its `select`. -/
  accept : ∀ l L, s.listeners l = some L → L.down = true → s'.tasks i = some (.accept l false) →
    s'.step (.run i) = some (s'.setTask i (.acceptDown l)) ∧ s'.Alone i
  /-- It then raises the first of `ErrNetDown`, `ErrHostDown` and `ErrSockDown` that applies to
  the listener's subnetwork and host. -/
  acceptDown : ∀ l, s'.tasks i = some (.acceptDown l) →
    ∃ L S H N a, s'.listeners l = some L ∧ s'.socks L.socket = some S ∧
      s'.hosts S.host = some H ∧ s'.nets H.subnet = some N ∧ s'.listenerAddr l = some a ∧
      s'.step (.run i) = some (s'.setTask i
        (.acceptDone (.error (.wrap (acceptCtx N a) (.net (listenerExcDown N H)) true)))) ∧
      s'.Alone i
  /-- `new_host` on a subnetwork whose OS listener is closed in `s` raises `EBADF`. -/
  newHost : ∀ n N name, s.nets n = some N → N.oslClosed = true →
    s'.tasks i = some (.newHost n name) → ∃ N', s'.nets n = some N' ∧
      s'.step (.run i) = some (s'.setTask i
        (.newHostDone (.error (.wrap (newHostCtx N' name) badFd true)))) ∧ s'.Alone i

end Sys

/-- **No success after down.** In every run from a reachable state `s` to a state `s'`, every
`Host.listen`, `listener.accept` and `new_host` thread of `s'` whose down signal fired in `s`
fails (`listen` and `accept` with the down flavour of their error, `new_host` with `EBADF`) and
leaves the state unchanged. -/
theorem ops_after_down_fail {s s' : Sys} {as : List Act} (hs : Reachable s)
    (hrun : s.run as = some s') (i : Nat) : s.DownFails s' i := by
  have hle := Sys.run_le hs.fresh hrun
  have hi := (hs.run hrun).inv
  refine ⟨?listen, ?accept, ?acceptDown, ?newHost⟩
  case listen =>
    intro h H laddr hH hd ht
    obtain ⟨H', hH', hd'⟩ := hle.host_down hH hd
    obtain ⟨N, hN⟩ := hi.refs.hostNet h H' hH'
    refine ⟨H', N, hH', hN, fun a ha hn => ⟨?_, Sys.alone_solo ht (.inl ⟨_, _, rfl⟩)⟩⟩
    simp only [Sys.step, ht, Option.bind_eq_bind, Option.some_bind]
    exact Sys.runTask_listen_down hH' hN hd' ha hn
  case accept =>
    intro l L hL hd ht
    have hd' := hle.listener_down hL hd
    refine ⟨?_, Sys.sync_accept_down (hs.run hrun).woken ht hd'⟩
    simp only [Sys.step, ht, Option.bind_eq_bind, Option.some_bind]
    exact Sys.runTask_accept_down hd'
  case acceptDown =>
    intro l ht
    obtain ⟨L, hL⟩ := hi.tasks i _ ht nofun
    obtain ⟨S, H, N, a, hS, hH, hN, ha, hrun⟩ := Sys.runTask_acceptDown (i := i) hi.refs hL
    refine ⟨L, S, H, N, a, hL, hS, hH, hN, ha, ?_, Sys.alone_solo ht (.inr (.inr ⟨_, rfl⟩))⟩
    simp only [Sys.step, ht, Option.bind_eq_bind, Option.some_bind, hrun]
  case newHost =>
    intro n N name hN hc ht
    obtain ⟨N', hN', hc'⟩ := hle.oslClosed hN hc
    refine ⟨N', hN', ?_, Sys.alone_solo ht (.inr (.inl ⟨_, _, rfl⟩))⟩
    simp only [Sys.step, ht, Option.bind_eq_bind, Option.some_bind]
    exact Sys.runTask_newHost_closed hN' hc'

/-- `listenRun`, then `a.close()`. -/
def hostCloseRun : List Act := listenRun ++ [.closeHost 2]

/-- From `hostCloseRun`, `a.dial("b:1")` (task `8`), accepted by `l.accept()` (task `11`) through
the handshake of `_loaccept` (task `12`). -/
def dialAfterCloseRun : List Act :=
  hostCloseRun ++
    [.dial 2 (ascii "b:1"), .run 8, .run 8, .run 8, .accept 7, .run 11, .serve 0,
    .run 12, .run 12, .sync 12 11, .run 11, .sync 11 12, .run 12, .run 8, .sync 11 12, .run 11]

/-- The state after `n.close()` of a fresh `lonetX`. -/
def netClosedState : Sys := Sys.ofRun [.closeNet 0]

/-- After `a.close()`, `a.dial("b:1")` returns connection `14` while `a` is down; after
`n.close()`, `n.new_host("c")` (thread `1`) raises `EBADF`, as `DownFails` says, and not
`ErrNetDown`. -/
theorem dial_after_close_connects :
    (∃ s, (Sys.init [lonetX] (fun _ => ⟨true, true, [], []⟩)).run dialAfterCloseRun = some s ∧
      (s.hosts 2).map (·.down) = some true ∧ s.tasks 8 = some (.dialDone (.ok 14))) ∧
    ∃ N', (netClosedState.spawn (.newHost 0 (ascii "c"))).nets 0 = some N' ∧ N'.down = true ∧
      (netClosedState.spawn (.newHost 0 (ascii "c"))).step (.run 1) =
        some ((netClosedState.spawn (.newHost 0 (ascii "c"))).setTask 1
          (.newHostDone (.error (.wrap (Sys.newHostCtx N' (ascii "c")) badFd true)))) := by
  obtain ⟨N', hN', hst, -⟩ := (@ops_after_down_fail netClosedState _ [.newHost 0 (ascii "c")]
    (Reachable.ofRun rfl) rfl 1).newHost
    0 _ (ascii "c") rfl rfl rfl
  cases hN'.symm.trans rfl
  exact ⟨⟨_, rfl, rfl, rfl⟩, _, hN', rfl, hst⟩

/-! ## A failing OS listener -/

/-- **A failed OS listener leaves the registry open for good.** When the OS listener's `accept`
fails and `_serve` runs `_vnet_down(exc)`, the subnetwork goes down but its registry is left as
it was: `_vnet_close` joins `_tserve`, the thread running it, which raises before
`registry.close()`. A later `close()` finds `_down_once` set and changes no subnetwork, so
nothing closes the registry. -/
theorem serveFail_registry_open {s s1 s2 : Sys} {n : Nat} {N : Subnet}
    (hN : s.nets n = some N) (h1 : s.step (.serveFail n) = some s1)
    (h2 : s1.step (.closeNet n) = some s2) :
    ∃ N1, s1.nets n = some N1 ∧ N1.down = true ∧ N1.poolClosed = N.poolClosed ∧
      s2.nets = s1.nets := by
  simp only [Sys.step, hN, Option.bind_eq_bind, Option.some_bind, Bool.or_eq_true] at h1
  split at h1
  · cases h1
  · rename_i hc
    cases h1
    obtain ⟨N1, hN1, hd1, hp1⟩ := Sys.netShutdown_fromServe hN (by simpa using (not_or.1 hc).2)
    have hW : (s.netShutdown n true).1.wake.nets n = some N1 := hN1
    refine ⟨N1, hN1, hd1, hp1, ?_⟩
    simp only [Sys.step, Sys.netShutdown_of_down hW hd1, Option.some.injEq] at h2
    rw [← h2]
    rfl

/-- A fresh `lonetX`: its OS listener fails, then `n.close()`; the registry stays open. -/
theorem serveFail_registry_open_lonetX :
    ∃ s1 s2, (Sys.init [lonetX] fun _ => ⟨true, true, [], []⟩).step (.serveFail 0) = some s1 ∧
      s1.step (.closeNet 0) = some s2 ∧ ∃ N1, s1.nets 0 = some N1 ∧ N1.down = true ∧
        N1.poolClosed = false ∧ s2.nets = s1.nets :=
  ⟨_, _, rfl, rfl, @serveFail_registry_open (Sys.init [lonetX] fun _ => ⟨true, true, [], []⟩) _ _ 0 _
    rfl rfl rfl⟩

end Lonet
