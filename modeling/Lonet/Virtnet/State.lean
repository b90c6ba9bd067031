import Lonet.Handshake
import Lonet.Registry

/-!
# The virtnet state

The objects of `xnet/lonet/__init__.py:114-224` (`VirtSubNetwork`/`_SubNetwork`, `Host`,
`socket`, `listener`, `conn`, `dialReq`, `Accept`), the OS-level connections between
subnetworks, the registry files, and the tasks (threads) running lonet code. Python objects
live in heaps indexed by object id; `Sys.next` is the next free id.

An unbuffered channel is not an object here: a send and a receive meet when the two tasks
blocked on them step together (`Lonet.Virtnet.System`). A request's `_resp` channel is named by
the OS connection the request carries, and the `ack` channel of one `accept` attempt by the
socket that attempt reserved; both are created fresh, once, so the names are unique.

Two fields of `OsConn` are ghost state, read by no modelled code: `dialer`, the socket of the
modelled `Host.dial` that opened the connection (`none` for a process outside the model), and
`acceptor`, the socket of the `accept` whose `Accept` the connection's `_vnet_accept` received.
-/

namespace Lonet

/-- `f` with entry `i` set to `v`. -/
def upd {α : Type} (f : Nat → α) (i : Nat) (v : α) (j : Nat) : α := if j = i then v else f j

@[simp] theorem upd_self {α : Type} (f : Nat → α) (i : Nat) (v : α) : upd f i v i = v := by
  simp [upd]

@[simp] theorem upd_of_ne {α : Type} {f : Nat → α} {i j : Nat} (v : α) (h : j ≠ i) :
    upd f i v j = f j := by
  simp [upd, h]

theorem upd_apply {α : Type} (f : Nat → α) (i : Nat) (v : α) (j : Nat) :
    upd f i v j = if j = i then v else f j := rfl

/-- `socket`: an entry of a host's port table. `connAttr` is the attribute `conn` that
`listener.accept` assigns (the class's own field is `_conn`); no code reads it. -/
structure Sock where
  host : Nat
  port : Int
  conn : Option Nat
  listener : Option Nat
  connAttr : Option Nat
  deriving DecidableEq, Repr

/-- `socket._empty()`. -/
def Sock.empty (S : Sock) : Bool := S.conn.isNone && S.listener.isNone

/-- `listener`: its socket, whether `_down` is closed, whether `_close_once` is set. -/
structure Listener where
  socket : Nat
  down : Bool
  closed : Bool
  deriving DecidableEq, Repr

/-- The two ends of an OS-level TCP connection: the dialer's and `_loaccept`'s. -/
inductive Side where
  | client | server
  deriving DecidableEq, Repr

/-- `conn`: its socket, peer address, raw end (`_netsk`: connection `osconn`, end `side`),
whether `_down` is closed and whether `_close_once` is set. -/
structure Conn where
  socket : Nat
  peerAddr : Addr
  osconn : Nat
  side : Side
  down : Bool
  closed : Bool
  deriving DecidableEq, Repr

/-- `Host`. `stuck` says that `_sockmu` was left acquired by a task that raised while holding
it, so that every later acquisition blocks. -/
structure Host where
  subnet : Nat
  name : Bytes
  socketv : List (Option Nat)
  down : Bool
  closeOnce : Bool
  stuck : Bool
  deriving DecidableEq, Repr

/-- `_SubNetwork`: network name, registry (`uri`, the file `file`, and whether its pool is
closed), `_hostmap`, `_nopenhosts`, `_down`, and its OS listener on
`127.0.0.1:osPort` with the connections it has not yet handed to `_serve`. `stuck` says that
`_hostmu` is held by a shutdown blocked for good on a host's `_sockmu`. -/
structure Subnet where
  network : Bytes
  uri : Bytes
  file : Nat
  hostmap : List (Bytes × Nat)
  nopenhosts : Int
  down : Bool
  osPort : Nat
  oslClosed : Bool
  backlog : List Nat
  poolClosed : Bool
  stuck : Bool
  deriving DecidableEq, Repr

/-- An OS-level TCP connection to the OS listener of subnetwork `subnet`: the bytes in flight
each way, which ends are closed, and the ghost fields `dialer` and `acceptor`. -/
structure OsConn where
  subnet : Nat
  toServer : Bytes
  toClient : Bytes
  clientClosed : Bool
  serverClosed : Bool
  dialer : Option Nat
  acceptor : Option Nat
  deriving DecidableEq, Repr

/-- `dialReq`: `_from`, and the OS connection whose server end is `_netsk`. -/
structure DialReq where
  src : Addr
  osconn : Nat
  deriving DecidableEq, Repr

/-- `Accept`: the accepted address, and the ack channel, named by the accept's socket. -/
structure Accept where
  addr : Addr
  ack : Nat
  deriving DecidableEq, Repr

/-- A thread running lonet code, at one of the points where it can block or where another
thread can run in between. -/
inductive Task where
  /-- `Host.dial(addr)` on host `h`, before `_allocFreeSocket`. -/
  | dial (h : Nat) (addr : Bytes)
  /-- Socket `sk` reserved; next the address is parsed and the registry queried. -/
  | dialQuery (h sk : Nat) (addr : Bytes)
  /-- The registry gave `osladdr` for `dst`; next `_vnet_dial` connects and sends. -/
  | dialConnect (h sk : Nat) (dst : Addr) (osladdr : Bytes)
  /-- The dial line is sent on OS connection `k`; next the reply is read. -/
  | dialReply (h sk : Nat) (dst : Addr) (k : Nat)
  /-- `_loconnect` raised `e` and closed its connection; next the `except` of `Host.dial`
  releases the slot of its socket, at address `src`, and raises in context `ctx`. -/
  | dialRelease (h : Nat) (src : Addr) (ctx : Bytes) (e : Exc)
  /-- `Host.dial` returned conn `c`, or raised. -/
  | dialDone (r : Except Exc Nat)
  /-- `l.accept()` at its first `select`; `waiting` once it found no case ready. -/
  | accept (l : Nat) (waiting : Bool)
  /-- The first `select` took `l._down`. -/
  | acceptDown (l : Nat)
  /-- The first `select` received `req` from `l._dialq`; next a socket is reserved. -/
  | acceptAlloc (l : Nat) (req : DialReq)
  /-- Socket `sk` reserved; next `req._resp.send(Accept(sk.addr(), ack))`. -/
  | acceptResp (l : Nat) (req : DialReq) (sk : Nat)
  /-- At the second `select`, on `l._down` and the ack channel. -/
  | acceptAck (l : Nat) (req : DialReq) (sk : Nat) (waiting : Bool)
  /-- The second `select` took `l._down`. -/
  | acceptAckDown (l : Nat) (req : DialReq) (sk : Nat)
  /-- The second `select` received `err` on the ack channel. -/
  | acceptFinish (l : Nat) (req : DialReq) (sk : Nat) (err : Option Exc)
  /-- `listener.accept` returned conn `c`, or raised. -/
  | acceptDone (r : Except Exc Nat)
  /-- `purgesk` of an accept on host `h`, at `ack.recv()`. -/
  | purge (h : Nat) (req : DialReq) (sk : Nat)
  /-- `purgesk` received `err`. -/
  | purgeFinish (h : Nat) (req : DialReq) (sk : Nat) (err : Option Exc)
  /-- The connection closed if the dialer had been told `connected`; next the slot of `sk` is
  released. -/
  | purgeRelease (h sk : Nat)
  /-- `purgesk` returned. -/
  | purgeDone
  /-- `_serve`'s handler for OS connection `k` of subnetwork `n`, before `getsockname`. -/
  | loStart (n k : Nat)
  /-- `__loaccept` at `skreadline`. -/
  | loRead (n k : Nat)
  /-- `_vnet_accept` at its `select`, offering `req` to listener `l`; `ctx` is the context
  `"dst <- src"`. -/
  | loSelect (n k : Nat) (ctx : Bytes) (l : Nat) (req : DialReq) (waiting : Bool)
  /-- That `select` took `l._down`. -/
  | loRefused (n k : Nat) (ctx : Bytes)
  /-- `resp.recv()`. -/
  | loResp (n k : Nat) (ctx : Bytes)
  /-- Received `acc`; next the `connected` reply. -/
  | loReply (n k : Nat) (ctx : Bytes) (acc : Accept)
  /-- `accept.ack.send(err)`. -/
  | loAck (n k : Nat) (ctx : Bytes) (ack : Nat) (err : Option Exc)
  /-- The handler returned, or `_loaccept` raised. -/
  | loDone (r : Except Exc Unit)
  /-- `Host.listen(laddr)` on host `h`, before its checks. -/
  | listen (h : Nat) (laddr : Bytes)
  /-- The checks passed for address `a`; next the `_sockmu` part. -/
  | listenLocked (h : Nat) (ctx : Bytes) (a : Addr)
  /-- `Host.listen` returned listener `l`, or raised. -/
  | listenDone (r : Except Exc Nat)
  /-- `new_host(name)` on subnetwork `n`, before `_vnet_newhost`. -/
  | newHost (n : Nat) (name : Bytes)
  /-- Announced; next the `_hostmu` part. -/
  | newHostInsert (n : Nat) (name : Bytes)
  /-- `new_host` returned host `h`, or raised. -/
  | newHostDone (r : Except Exc Nat)

/-- Everything the virtnet code works on. -/
structure Sys where
  nets : Nat → Option Subnet
  hosts : Nat → Option Host
  socks : Nat → Option Sock
  listeners : Nat → Option Listener
  conns : Nat → Option Conn
  osconns : Nat → Option OsConn
  files : Nat → RegDb
  tasks : Nat → Option Task
  next : Nat

/-! ## Python list indexing and the port table -/

/-- The position `xs[i]` reads in a list of length `len`: `i` from the front, a negative `i`
from the back, `none` for `IndexError`. -/
def pyIndex (len : Nat) (i : Int) : Option Nat :=
  if 0 ≤ i ∧ i < len then some i.toNat
  else if -(len : Int) ≤ i ∧ i < 0 then some (len + i).toNat
  else none

/-- The `IndexError` of a list index out of range. -/
def indexOutOfRange : Exc := .indexError (ascii "list index out of range")

/-- The first `while` of `_allocFreeSocket`, on the slots from `port` on. -/
def scanFree : List (Option Nat) → Nat → Nat
  | [], port => port
  | none :: _, port => port
  | some _ :: v, port => scanFree v (port + 1)

/-- The port `_allocFreeSocket` picks: the first empty slot from 1, or the table's end. -/
def freePort (v : List (Option Nat)) : Nat := scanFree (v.drop 1) 1

/-- `while port >= len(socketv): socketv.append(None)`. -/
def padTo (v : List (Option Nat)) (port : Nat) : List (Option Nat) :=
  v ++ List.replicate (port + 1 - v.length) none

theorem pyIndex_of_neg {len : Nat} {i : Int} (h0 : i < 0) (h : -(len : Int) ≤ i) :
    pyIndex len i = some (len + i).toNat := by
  simp [pyIndex, h, h0, show ¬(0 ≤ i) by omega]

theorem length_padTo (v : List (Option Nat)) (port : Nat) :
    (padTo v port).length = max v.length (port + 1) := by
  simp [padTo]; omega

theorem scanFree_ge (v : List (Option Nat)) (port : Nat) : port ≤ scanFree v port := by
  induction v generalizing port with
  | nil => exact le_refl _
  | cons x v ih => cases x <;> simp only [scanFree] <;> [exact le_refl _; exact (ih _).trans' (by omega)]

theorem one_le_freePort (v : List (Option Nat)) : 1 ≤ freePort v := scanFree_ge _ _

/-! ## Addresses and down flavours -/

namespace Sys

/-- `sk.addr()`: the network of its host's subnetwork, the host's name, the port. -/
def sockAddr (s : Sys) (sk : Nat) : Option Addr := do
  let S ← s.socks sk
  let H ← s.hosts S.host
  let N ← s.nets H.subnet
  pure ⟨N.network, H.name, S.port⟩

/-- `l.addr()`. -/
def listenerAddr (s : Sys) (l : Nat) : Option Addr := do
  let L ← s.listeners l
  s.sockAddr L.socket

/-- `Host._excDown()`: `ErrNetDown` if the subnetwork is down, else `ErrHostDown`. -/
def hostExcDown (N : Subnet) : NetErr := if N.down then .netDown else .hostDown

/-- `listener._excDown()`: the first of subnetwork, host and listener found down. -/
def listenerExcDown (N : Subnet) (H : Host) : NetErr :=
  if N.down then .netDown else if H.down then .hostDown else .sockDown

/-! ## Updates -/

/-- Object `i` of each heap replaced. -/
@[simp] def setNet (s : Sys) (n : Nat) (N : Subnet) : Sys := { s with nets := upd s.nets n (some N) }
@[simp] def setHost (s : Sys) (h : Nat) (H : Host) : Sys := { s with hosts := upd s.hosts h (some H) }
@[simp] def setSock (s : Sys) (sk : Nat) (S : Sock) : Sys := { s with socks := upd s.socks sk (some S) }
@[simp] def setListener (s : Sys) (l : Nat) (L : Listener) : Sys :=
  { s with listeners := upd s.listeners l (some L) }
@[simp] def setConn (s : Sys) (c : Nat) (C : Conn) : Sys := { s with conns := upd s.conns c (some C) }
@[simp] def setOsConn (s : Sys) (k : Nat) (K : OsConn) : Sys :=
  { s with osconns := upd s.osconns k (some K) }
@[simp] def setTask (s : Sys) (i : Nat) (t : Task) : Sys := { s with tasks := upd s.tasks i (some t) }
@[simp] def setFile (s : Sys) (f : Nat) (db : RegDb) : Sys := { s with files := upd s.files f db }

/-- A fresh object id. -/
@[simp] def bump (s : Sys) : Sys := { s with next := s.next + 1 }

end Sys

end Lonet
