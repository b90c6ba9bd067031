import Lonet.Virtnet.State

/-!
# The virtnet operations, one lock region at a time

Each function here is a stretch of `xnet/lonet/__init__.py` that runs without another thread
observing it in between: one region under `_sockmu` or `_hostmu`, one `set_once`, one registry
call, one write to a socket. `Lonet.Virtnet.System` strings them into tasks.

A call that acquires a host's `_sockmu` after a thread raised while holding it blocks for
good; such functions return `none` (or `false`) for it, with the effects made before blocking.
-/

namespace Lonet

/-- `socket.error(EBADF)`, from `getsockname` on a closed socket. -/
def badFd : Exc := .osError 9 (ascii "Bad file descriptor")

/-- `socket.error(ECONNREFUSED)` from `connect`. -/
def osConnRefused : Exc := .osError 111 (ascii "Connection refused")

/-- `socket.error(EPIPE)` from `sendall` to a peer that closed. -/
def brokenPipe : Exc := .osError 32 (ascii "Broken pipe")

/-- The `AttributeError` of `listener.close`, which reads `sk.port` (the field is `_port`). -/
def sockNoPort : Exc := .attributeError (ascii "socket") (ascii "port")

/-- The `AttributeError` of `Host.close` and `autoclose`, which read `n._nopenHosts` (the field
is `_nopenhosts`). -/
def noNopenHosts : Exc := .attributeError (ascii "_SubNetwork") (ascii "_nopenHosts")

/-- The `TypeError` of `new_host`'s `panic` message, whose format has no `%s` for its two
arguments. -/
def panicFormat : Exc := .typeError (ascii "not all arguments converted during string formatting")

/-- The OS address of a subnetwork's listener: `'%s:%d' % getsockname()`. -/
def oslAddr (N : Subnet) : Bytes := addrstr4 (ascii "127.0.0.1") N.osPort

namespace Sys

/-! ## Ports -/

/-- `_allocFreeSocket` on host `h`, record `H`: a new socket at the first free port. -/
def allocFreeSocket (s : Sys) (h : Nat) (H : Host) : Sys × Nat :=
  let port := freePort H.socketv
  (((s.setHost h { H with socketv := (padTo H.socketv port).set port (some s.next) }).setSock
    s.next ⟨h, port, none, none, none⟩).bump, s.next)

/-- `h._socketv[port] = None`. -/
def clearSlot (s : Sys) (h : Nat) (H : Host) (port : Int) : Except Exc Sys :=
  match pyIndex H.socketv.length port with
  | none => .error indexOutOfRange
  | some i => .ok (s.setHost h { H with socketv := H.socketv.set i none })

/-- `with h._sockmu: h._socketv[port] = None` on host `h`: `none` if it blocks. -/
def releaseSlot (s : Sys) (h : Nat) (port : Int) : Option (Except Exc Sys) :=
  match s.hosts h with
  | some H => if H.stuck then none else some (s.clearSlot h H port)
  | none => none

/-! ## `Host.listen` -/

/-- `laddr` as `Host.listen` reads it: `""` is `":0"`. -/
def listenText (laddr : Bytes) : Bytes := if laddr = [] then ascii ":0" else laddr

/-- The context `Host.listen` raises in. -/
def listenCtx (network laddr : Bytes) : Bytes :=
  ascii "listen " ++ network ++ ascii " " ++ listenText laddr

/-- The checks of `Host.listen(laddr)` before `_sockmu`, on host `H` of subnetwork `N`. -/
def listenCheck (N : Subnet) (H : Host) (laddr : Bytes) : Except Exc Addr :=
  match parseAddr N.network H.name (listenText laddr) with
  | .error e => .error e
  | .ok a =>
    if a.host ≠ H.name then .error (.net .addrNoListen)
    else if H.down then .error (.net (hostExcDown N))
    else .ok a

/-- The end of `Host.listen`'s `_sockmu` part: a new socket `s.next` of port `port` stored in
slot `i` of the table `v`, and its listener `s.next + 1`. -/
def installListener (s : Sys) (h : Nat) (H : Host) (v : List (Option Nat)) (i : Nat)
    (port : Int) : Sys × Nat :=
  ((((s.setHost h { H with socketv := v.set i (some s.next) }).setSock s.next
    ⟨h, port, none, some (s.next + 1), none⟩).setListener (s.next + 1)
      ⟨s.next, false, false⟩).bump.bump, s.next + 1)

/-- The `_sockmu` part of `Host.listen` for address `a` on host `h`, record `H`: a listener on
a new socket, or the error. -/
def listenLocked (s : Sys) (h : Nat) (H : Host) (a : Addr) : Except Exc (Sys × Nat) :=
  if a.port = 0 then
    let port := freePort H.socketv
    .ok (s.installListener h H (padTo H.socketv port) port port)
  else
    let v := if 0 ≤ a.port then padTo H.socketv a.port.toNat else H.socketv
    match pyIndex v.length a.port with
    | none => .error indexOutOfRange
    | some i =>
      if (v[i]?).join.isSome then .error (.net .addrAlreadyUsed)
      else .ok (s.installListener h H v i a.port)

/-! ## Closing -/

/-- `listener._shutdown()`. -/
def listenerShutdown (s : Sys) (l : Nat) : Sys :=
  match s.listeners l with
  | some L => s.setListener l { L with down := true }
  | none => s

/-- Closing one end of an OS connection. -/
def closeEnd (s : Sys) (k : Nat) (side : Side) : Sys :=
  match s.osconns k with
  | some K =>
    s.setOsConn k (match side with
      | .client => { K with clientClosed := true }
      | .server => { K with serverClosed := true })
  | none => s

@[simp] theorem closeEnd_hosts (s : Sys) (k : Nat) (side : Side) :
    (s.closeEnd k side).hosts = s.hosts := by
  unfold closeEnd; split <;> rfl

@[simp] theorem closeEnd_nets (s : Sys) (k : Nat) (side : Side) :
    (s.closeEnd k side).nets = s.nets := by
  unfold closeEnd; split <;> rfl

@[simp] theorem closeEnd_socks (s : Sys) (k : Nat) (side : Side) :
    (s.closeEnd k side).socks = s.socks := by
  unfold closeEnd; split <;> rfl

@[simp] theorem closeEnd_conns (s : Sys) (k : Nat) (side : Side) :
    (s.closeEnd k side).conns = s.conns := by
  unfold closeEnd; split <;> rfl

@[simp] theorem closeEnd_listeners (s : Sys) (k : Nat) (side : Side) :
    (s.closeEnd k side).listeners = s.listeners := by
  unfold closeEnd; split <;> rfl

@[simp] theorem closeEnd_tasks (s : Sys) (k : Nat) (side : Side) :
    (s.closeEnd k side).tasks = s.tasks := by
  unfold closeEnd; split <;> rfl

@[simp] theorem closeEnd_files (s : Sys) (k : Nat) (side : Side) :
    (s.closeEnd k side).files = s.files := by
  unfold closeEnd; split <;> rfl

/-- `conn._shutdown()`: `_down` closed and the raw end closed, once. -/
def connShutdown (s : Sys) (c : Nat) : Sys :=
  match s.conns c with
  | some C => if C.down then s else (s.setConn c { C with down := true }).closeEnd C.osconn C.side
  | none => s

@[simp] theorem listenerShutdown_hosts (s : Sys) (l : Nat) :
    (s.listenerShutdown l).hosts = s.hosts := by
  unfold listenerShutdown; split <;> rfl

@[simp] theorem listenerShutdown_nets (s : Sys) (l : Nat) :
    (s.listenerShutdown l).nets = s.nets := by
  unfold listenerShutdown; split <;> rfl

@[simp] theorem listenerShutdown_socks (s : Sys) (l : Nat) :
    (s.listenerShutdown l).socks = s.socks := by
  unfold listenerShutdown; split <;> rfl

@[simp] theorem listenerShutdown_conns (s : Sys) (l : Nat) :
    (s.listenerShutdown l).conns = s.conns := by
  unfold listenerShutdown; split <;> rfl

@[simp] theorem listenerShutdown_files (s : Sys) (l : Nat) :
    (s.listenerShutdown l).files = s.files := by
  unfold listenerShutdown; split <;> rfl

@[simp] theorem listenerShutdown_tasks (s : Sys) (l : Nat) :
    (s.listenerShutdown l).tasks = s.tasks := by
  unfold listenerShutdown; split <;> rfl

@[simp] theorem connShutdown_hosts (s : Sys) (c : Nat) : (s.connShutdown c).hosts = s.hosts := by
  unfold connShutdown; split
  · split <;> simp
  · rfl

@[simp] theorem connShutdown_nets (s : Sys) (c : Nat) : (s.connShutdown c).nets = s.nets := by
  unfold connShutdown; split
  · split <;> simp
  · rfl

@[simp] theorem connShutdown_socks (s : Sys) (c : Nat) : (s.connShutdown c).socks = s.socks := by
  unfold connShutdown; split
  · split <;> simp
  · rfl

@[simp] theorem connShutdown_files (s : Sys) (c : Nat) : (s.connShutdown c).files = s.files := by
  unfold connShutdown; split
  · split <;> simp
  · rfl

@[simp] theorem connShutdown_tasks (s : Sys) (c : Nat) : (s.connShutdown c).tasks = s.tasks := by
  unfold connShutdown; split
  · split <;> simp
  · rfl

/-- Shutting down one conn leaves the others as they are. -/
theorem connShutdown_conns_of_ne {c c' : Nat} (s : Sys) (h : c' ≠ c) :
    (s.connShutdown c').conns c = s.conns c := by
  unfold connShutdown; split
  · split
    · rfl
    · simp [upd_of_ne _ (Ne.symm h)]
  · rfl

/-- The `_sockmu` part of `listener.close` and `conn.close` for socket `sk`, record `S`, that
has just lost its listener or conn (`S'`): `none` if it blocks. `listener.close` clears the slot
through `sk.port`, `conn.close` through `sk._port`. -/
def releaseSock (s : Sys) (sk : Nat) (S' : Sock) (viaPort : Bool) :
    Option (Sys × Except Exc Unit) :=
  match s.hosts S'.host with
  | none => none
  | some H =>
    if H.stuck then none
    else
      let s := s.setSock sk S'
      if !S'.empty then some (s, .ok ())
      else if viaPort then some (s, .error sockNoPort)
      else match s.clearSlot S'.host H S'.port with
        | .ok s => some (s, .ok ())
        | .error e => some (s, .error e)

/-- `listener.close()`: the state, and its result (`none` if it blocks). -/
def listenerClose (s : Sys) (l : Nat) : Sys × Option (Except Exc Unit) :=
  let s := s.listenerShutdown l
  match s.listeners l with
  | none => (s, none)
  | some L =>
    if L.closed then (s, some (.ok ()))
    else
      let s := s.setListener l { L with closed := true }
      match s.socks L.socket with
      | none => (s, none)
      | some S => match s.releaseSock L.socket { S with listener := none } true with
        | some (s', r) => (s', some r)
        | none => (s, none)

/-- `conn.close()`: the state, and its result (`none` if it blocks). -/
def connClose (s : Sys) (c : Nat) : Sys × Option (Except Exc Unit) :=
  let s := s.connShutdown c
  match s.conns c with
  | none => (s, none)
  | some C =>
    if C.closed then (s, some (.ok ()))
    else
      let s := s.setConn c { C with closed := true }
      match s.socks C.socket with
      | none => (s, none)
      | some S => match s.releaseSock C.socket { S with conn := none } false with
        | some (s', r) => (s', some r)
        | none => (s, none)

/-- One iteration of `Host._shutdown`'s loop: the socket's conn and listener shut down. -/
def shutdownSock (s : Sys) (S : Sock) : Sys :=
  let s := match S.conn with
    | some c => s.connShutdown c
    | none => s
  match S.listener with
  | some l => s.listenerShutdown l
  | none => s

/-- The loop of `Host._shutdown` over the slots `v`. -/
def shutdownSocks (s : Sys) : List (Option Nat) → Sys
  | [] => s
  | none :: v => shutdownSocks s v
  | some sk :: v => shutdownSocks ((s.socks sk).elim s s.shutdownSock) v

@[simp] theorem shutdownSock_hosts (s : Sys) (S : Sock) : (s.shutdownSock S).hosts = s.hosts := by
  unfold shutdownSock; split <;> split <;> simp

@[simp] theorem shutdownSock_nets (s : Sys) (S : Sock) : (s.shutdownSock S).nets = s.nets := by
  unfold shutdownSock; split <;> split <;> simp

@[simp] theorem shutdownSock_socks (s : Sys) (S : Sock) : (s.shutdownSock S).socks = s.socks := by
  unfold shutdownSock; split <;> split <;> simp

@[simp] theorem shutdownSock_files (s : Sys) (S : Sock) : (s.shutdownSock S).files = s.files := by
  unfold shutdownSock; split <;> split <;> simp

@[simp] theorem shutdownSock_tasks (s : Sys) (S : Sock) : (s.shutdownSock S).tasks = s.tasks := by
  unfold shutdownSock; split <;> split <;> simp

theorem shutdownSock_conns_of_ne {s : Sys} {S : Sock} {c : Nat} (h : S.conn ≠ some c) :
    (s.shutdownSock S).conns c = s.conns c := by
  unfold shutdownSock
  split <;> split <;> simp_all [connShutdown_conns_of_ne]

theorem elim_shutdownSock_socks (s : Sys) (o : Option Sock) :
    (o.elim s s.shutdownSock).socks = s.socks := by
  cases o <;> simp

@[simp] theorem shutdownSocks_hosts (s : Sys) (v : List (Option Nat)) :
    (s.shutdownSocks v).hosts = s.hosts := by
  induction v generalizing s with
  | nil => rfl
  | cons x v ih => cases x <;> [exact ih s; (simp only [shutdownSocks, ih]; cases s.socks _ <;> simp)]

@[simp] theorem shutdownSocks_nets (s : Sys) (v : List (Option Nat)) :
    (s.shutdownSocks v).nets = s.nets := by
  induction v generalizing s with
  | nil => rfl
  | cons x v ih => cases x <;> [exact ih s; (simp only [shutdownSocks, ih]; cases s.socks _ <;> simp)]

@[simp] theorem shutdownSocks_socks (s : Sys) (v : List (Option Nat)) :
    (s.shutdownSocks v).socks = s.socks := by
  induction v generalizing s with
  | nil => rfl
  | cons x v ih => cases x <;> [exact ih s; simp only [shutdownSocks, ih, elim_shutdownSock_socks]]

@[simp] theorem shutdownSocks_files (s : Sys) (v : List (Option Nat)) :
    (s.shutdownSocks v).files = s.files := by
  induction v generalizing s with
  | nil => rfl
  | cons x v ih => cases x <;> [exact ih s; (simp only [shutdownSocks, ih]; cases s.socks _ <;> simp)]

@[simp] theorem shutdownSocks_tasks (s : Sys) (v : List (Option Nat)) :
    (s.shutdownSocks v).tasks = s.tasks := by
  induction v generalizing s with
  | nil => rfl
  | cons x v ih => cases x <;> [exact ih s; (simp only [shutdownSocks, ih]; cases s.socks _ <;> simp)]

/-- `Host._shutdown`'s loop reaches a conn only through the `_conn` of a socket. -/
theorem shutdownSocks_conns_of_unrecorded {s : Sys} {c : Nat} {v : List (Option Nat)}
    (hc : ∀ sk S, s.socks sk = some S → S.conn ≠ some c) :
    (s.shutdownSocks v).conns c = s.conns c := by
  induction v generalizing s with
  | nil => rfl
  | cons x v ih =>
    cases x with
    | none => exact ih hc
    | some sk =>
      simp only [shutdownSocks]
      rw [ih (by rw [elim_shutdownSock_socks]; exact hc)]
      cases hS : s.socks sk with
      | none => rfl
      | some S => exact shutdownSock_conns_of_ne (hc sk S hS)

/-- `Host._shutdown()`: the state, and `false` if it blocks on `_sockmu`. -/
def hostShutdown (s : Sys) (h : Nat) : Sys × Bool :=
  match s.hosts h with
  | none => (s, true)
  | some H =>
    if H.down then (s, true)
    else
      let s := s.setHost h { H with down := true }
      if H.stuck then (s, false) else (s.shutdownSocks H.socketv, true)

@[simp] theorem hostShutdown_nets (s : Sys) (h : Nat) : (s.hostShutdown h).1.nets = s.nets := by
  unfold hostShutdown
  split
  · rfl
  · split <;> [rfl; (split <;> simp)]

/-- `Host.close()`: `_shutdown`, then the deferred `autoclose` under `_close_once`, whose
body takes the subnetwork's `_hostmu` and reads `n._nopenHosts`. -/
def hostClose (s : Sys) (h : Nat) : Sys × Option (Except Exc Unit) :=
  match s.hostShutdown h with
  | (s, false) => (s, none)
  | (s, true) => match s.hosts h with
    | none => (s, none)
    | some H =>
      if H.closeOnce then (s, some (.ok ()))
      else
        let s := s.setHost h { H with closeOnce := true }
        match s.nets H.subnet with
        | some N => if N.stuck then (s, none) else (s, some (.error noNopenHosts))
        | none => (s, none)

/-- `VirtSubNetwork.autoclose()`: under `_hostmu`, its first line reads `n._nopenHosts`. -/
def autoclose (s : Sys) (n : Nat) : Option (Except Exc Unit) :=
  match s.nets n with
  | some N => if N.stuck then none else some (.error noNopenHosts)
  | none => none

/-- `host._shutdown()` for each of `hs` in turn; `false` once one blocks. -/
def shutdownHosts (s : Sys) : List Nat → Sys × Bool
  | [] => (s, true)
  | h :: hs => match s.hostShutdown h with
    | (s, true) => shutdownHosts s hs
    | (s, false) => (s, false)

@[simp] theorem shutdownHosts_nets (s : Sys) (hs : List Nat) : (s.shutdownHosts hs).1.nets = s.nets := by
  induction hs generalizing s with
  | nil => rfl
  | cons h hs ih =>
    have e := hostShutdown_nets s h
    unfold shutdownHosts
    generalize s.hostShutdown h = r at e ⊢
    obtain ⟨s', _ | _⟩ := r <;> simp_all

/-- `oslistener.close()` of subnetwork `n`: the connections it has not handed out are reset. -/
def closeOsListener (s : Sys) (n : Nat) : Sys :=
  match s.nets n with
  | none => s
  | some N =>
    (N.backlog.foldl (fun s k => s.closeEnd k .server) s).setNet n
      { N with oslClosed := true, backlog := [] }

theorem foldl_closeEnd_nets (s : Sys) (ks : List Nat) :
    (ks.foldl (fun s k => s.closeEnd k .server) s).nets = s.nets := by
  induction ks generalizing s with
  | nil => rfl
  | cons k ks ih => simp [ih]

/-- `oslistener.close()` changes its subnetwork's record only in `oslClosed` and `backlog`. -/
theorem closeOsListener_nets (s : Sys) (n : Nat) :
    (s.closeOsListener n).nets = fun m =>
      if m = n then (s.nets n).map ({ · with oslClosed := true, backlog := [] }) else s.nets m := by
  unfold closeOsListener
  funext m
  split <;> rename_i e <;> split <;> simp_all [foldl_closeEnd_nets]

/-- `VirtSubNetwork.__shutdown(exc, True)`; `fromServe` when `_serve` runs it (through
`_vnet_down`), where `_tserve.join()` raises and the registry is left open. `false` if it
blocks on a host, holding `_hostmu`. -/
def netShutdown (s : Sys) (n : Nat) (fromServe : Bool) : Sys × Bool :=
  match s.nets n with
  | none => (s, true)
  | some N =>
    if N.down then (s, true)
    else match (s.setNet n { N with down := true }).shutdownHosts (N.hostmap.map (·.2)) with
      | (s, false) => match s.nets n with
        | some N' => (s.setNet n { N' with stuck := true }, false)
        | none => (s, false)
      | (s, true) =>
        let s := s.closeOsListener n
        if fromServe then (s, true)
        else match s.nets n with
          | some N' => (s.setNet n { N' with poolClosed := true }, true)
          | none => (s, true)

/-- On a subnetwork already down, `__shutdown` returns at `set_once`. -/
theorem netShutdown_of_down {s : Sys} {n : Nat} {N : Subnet} (hN : s.nets n = some N)
    (hd : N.down = true) (fromServe : Bool) : s.netShutdown n fromServe = (s, true) := by
  simp [netShutdown, hN, hd]

/-- `__shutdown` run by `_serve`: the subnetwork goes down and its registry is left as it
was, whether the hosts' shutdown returns or blocks. -/
theorem netShutdown_fromServe {s : Sys} {n : Nat} {N : Subnet} (hN : s.nets n = some N)
    (hd : N.down = false) :
    ∃ N1, (s.netShutdown n true).1.nets n = some N1 ∧ N1.down = true ∧
      N1.poolClosed = N.poolClosed := by
  rw [netShutdown, hN]
  simp only [hd, Bool.false_eq_true, if_false]
  have hn := shutdownHosts_nets (s.setNet n { N with down := true }) (N.hostmap.map (·.2))
  generalize (s.setNet n { N with down := true }).shutdownHosts (N.hostmap.map (·.2)) = r at hn ⊢
  obtain ⟨s', _ | _⟩ := r <;> simp_all [closeOsListener_nets]

/-- Whether listener `l`'s `_down` is closed. -/
def lsnDown (s : Sys) (l : Nat) : Bool :=
  match s.listeners l with
  | some L => L.down
  | none => false

/-- Closing `l._down` wakes the `select`s blocked on it, each taking its `_down` case. -/
def wakeTask (s : Sys) : Task → Task
  | .accept l true => if s.lsnDown l then .acceptDown l else .accept l true
  | .acceptAck l req sk true =>
    if s.lsnDown l then .acceptAckDown l req sk else .acceptAck l req sk true
  | .loSelect n k ctx l req true =>
    if s.lsnDown l then .loRefused n k ctx else .loSelect n k ctx l req true
  | t => t

/-- Every blocked `select` whose listener is down woken. -/
def wake (s : Sys) : Sys := { s with tasks := fun i => (s.tasks i).map s.wakeTask }

/-! ## `new_host` -/

/-- The context `new_host` raises in. -/
def newHostCtx (N : Subnet) (name : Bytes) : Bytes :=
  ascii "virtnet " ++ qq N.network ++ ascii ": new host " ++ qq name

/-- `_vnet_newhost(name, registry)`: `getsockname` of the OS listener, then `announce`; the new
content of the registry file. -/
def vnetNewhost (s : Sys) (N : Subnet) (name : Bytes) : Except Exc RegDb :=
  if N.oslClosed then .error badFd
  else announce N.uri N.poolClosed (s.files N.file) name (oslAddr N)

/-- The `_hostmu` part of `new_host` on subnetwork `n`, record `N` (its `_hostmu` free): a new
host `s.next`. -/
def newHostLocked (s : Sys) (n : Nat) (N : Subnet) (name : Bytes) : Except Exc (Sys × Nat) :=
  if (N.hostmap.lookup name).isSome then .error panicFormat
  else .ok (((s.setHost s.next ⟨n, name, [], false, false, false⟩).setNet n
    { N with hostmap := N.hostmap ++ [(name, s.next)], nopenhosts := N.nopenhosts + 1 }).bump,
    s.next)

/-! ## Dialing -/

/-- The context `Host.dial` raises in: `"dial %s %s->%s" % (h.network(), sk.addr(), dst)`. -/
def dialCtx (network : Bytes) (src : Addr) (dst : Bytes) : Bytes :=
  ascii "dial " ++ network ++ ascii " " ++ src.str ++ ascii "->" ++ dst

/-- `Host.dial(addr)` on host `H` of subnetwork `N` after reserving its socket, up to
`_vnet_dial`: the destination and the registry's OS address for its host, or the error with
the text `dst` has for the context. -/
def dialQuery (s : Sys) (N : Subnet) (H : Host) (addr : Bytes) :
    Except (Bytes × Exc) (Addr × Bytes) :=
  match parseAddr N.network H.name addr with
  | .error e => .error (addr, e)
  | .ok dst => match query N.uri N.poolClosed (s.files N.file) dst.host with
    | .error e => .error (dst.str, e)
    | .ok none => .error (dst.str, .net .noHost)
    | .ok (some a) => .ok (dst, a)

/-- The subnetworks whose OS listener is open at `127.0.0.1:port`, among ids below `s.next`. -/
def listeningAt (s : Sys) (port : Int) : Option Nat :=
  (List.range s.next).find? fun n => match s.nets n with
    | some N => !N.oslClosed && (N.osPort : Int) = port
    | none => false

/-- `osconn.connect((a.host, a.port))` of `_vnet_dial(src, dst, osladdr)`: the subnetwork
whose OS listener takes the connection. -/
def osConnect (s : Sys) (osladdr : Bytes) : Except Exc Nat :=
  match Addr.parse [] osladdr with
  | .error _ => .error (.valueError (osladdr ++ ascii " is not valid TCP address"))
  | .ok a =>
    if a.host ≠ ascii "127.0.0.1" then .error osConnRefused
    else match s.listeningAt a.port with
      | some n => .ok n
      | none => .error osConnRefused

/-- A new OS connection `s.next` to subnetwork `n` from the socket `dialer`, carrying the bytes
`line`, queued on `n`'s OS listener. -/
def openOsConn (s : Sys) (n : Nat) (dialer : Option Nat) (line : Bytes) : Sys :=
  match s.nets n with
  | some N =>
    ((s.setOsConn s.next ⟨n, line, [], false, false, dialer, none⟩).setNet n
      { N with backlog := N.backlog ++ [s.next] }).bump
  | none => s

/-- The context `_loconnect` wraps a failure in, with the OS address of the peer. -/
def loconnectErr (peer : Bytes) (e : Exc) : Exc :=
  if e = .net .connRefused then e else .wrap (ascii "loconnect " ++ peer) e true

/-! ## Accepting -/

/-- `ereply(err, tb)`: the `E` reply written, and what is raised. -/
def ereply (err : Exc) : Bytes × Exc :=
  (ascii "E " ++ qq (if err = .net .connRefused then ascii "connection refused" else pyStr err),
    if wellDefined err then err else .wrap (ascii "BUG") err true)

/-- The listener of the socket in a slot of the port table; `sk is None or sk._listener is
None` refuses the connection. -/
def slotListener (s : Sys) (slot : Option Nat) : Except Exc Nat :=
  match slot.bind s.socks with
  | some S => match S.listener with
    | some l => .ok l
    | none => .error (.net .connRefused)
  | none => .error (.net .connRefused)

/-- The lookups of `_vnet_accept(src, dst, netconn)` in subnetwork `N`, under `_hostmu`, then
under the host's `_sockmu`: the listener to offer the request to, or the error. An `IndexError`
from `socketv[dst.port]` leaves `_sockmu` acquired. `none` if either lock blocks. -/
def vnetAcceptLookup (s : Sys) (N : Subnet) (dst : Addr) : Option (Sys × Except Exc Nat) :=
  if N.stuck then none
  else match N.hostmap.lookup dst.host with
  | none => some (s, .error (.gaierror (dst.host ++ ascii ": no such host")))
  | some h => match s.hosts h with
    | none => none
    | some H =>
      if H.stuck then none
      else if H.socketv.length ≤ dst.port then some (s, .error (.net .connRefused))
      else match pyIndex H.socketv.length dst.port with
        | none => some (s.setHost h { H with stuck := true }, .error indexOutOfRange)
        | some i => some (s, s.slotListener (H.socketv[i]?).join)

/-- `reply(line)` of `__loaccept` on OS connection `k`: `sendall` to the dialer, which fails
once the dialer's end is closed. -/
def reply (s : Sys) (k : Nat) (network text : Bytes) : Except Exc Sys :=
  match s.osconns k with
  | some K =>
    if K.clientClosed then .error brokenPipe
    else .ok (s.setOsConn k { K with toClient := K.toClient ++ loReplyLine network text })
  | none => .error brokenPipe

end Sys

end Lonet
