import Lonet.Virtnet.Ops

/-!
# The virtnet system: tasks stepping on a shared state

`step s a` is one atomic step of the whole system: user code starting an operation in a new
thread or closing an object, `_serve` handing out an OS connection, a process outside the model
dialing a subnetwork, one task running to its next blocking point (`runTask`), or two tasks
meeting on an unbuffered channel (`meet`). Every interleaving of lonet code is a sequence of
such steps; `Reachable` collects the states they reach from freshly joined subnetworks.

A `select` that finds no case ready marks its task `waiting`. A waiting task moves only when a
partner meets it or when its listener's `_down` is closed (`Sys.wake`). A task at a plain send
or receive moves only by meeting its partner. `Sys.Meet` lists the eight rendezvous `meet` can
make, each with its guard (`Sys.meet_some`); the invariant proofs case on it.
-/

namespace Lonet

/-- What can happen next. -/
inductive Act where
  /-- User code calls `h.dial(addr)`, `l.accept()`, `h.listen(laddr)` or `n.new_host(name)` in a
  new thread. -/
  | dial (h : Nat) (addr : Bytes)
  | accept (l : Nat)
  | listen (h : Nat) (laddr : Bytes)
  | newHost (n : Nat) (name : Bytes)
  /-- User code calls `l.close()`, `c.close()`, `h.close()` or `n.close()`. -/
  | closeListener (l : Nat)
  | closeConn (c : Nat)
  | closeHost (h : Nat)
  | closeNet (n : Nat)
  /-- `_serve` of subnetwork `n` accepts its next OS connection and starts the handler. -/
  | serve (n : Nat)
  /-- The OS listener's `accept` fails, and `_serve` runs `_vnet_down`. -/
  | serveFail (n : Nat)
  /-- A process outside the model connects to subnetwork `n` and sends `data`. -/
  | foreignDial (n : Nat) (data : Bytes)
  /-- That process closes its end of OS connection `k`. -/
  | foreignClose (k : Nat)
  /-- Task `i` takes its next step alone. -/
  | run (i : Nat)
  /-- Task `i` meets task `j`, blocked on the other end of a channel. -/
  | sync (i j : Nat)
  deriving DecidableEq, Repr

namespace Sys

/-- A new task `s.next` at `t`. -/
def spawn (s : Sys) (t : Task) : Sys := (s.setTask s.next t).bump

/-- The context `listener.accept` raises in: `"accept %s %s" % (h.network(), l.addr())`. -/
def acceptCtx (N : Subnet) (a : Addr) : Bytes := ascii "accept " ++ N.network ++ ascii " " ++ a.str

/-- The `except` of `Host.dial` for task `i`: the slot of socket `sk` (port `src.port`)
released under `_sockmu`, and the error `e` raised in the context. `none` if it blocks. -/
def dialRelease (s : Sys) (i h : Nat) (src : Addr) (ctx : Bytes) (e : Exc) : Option Sys :=
  match s.releaseSlot h src.port with
  | some (.ok s') => some (s'.setTask i (.dialDone (.error (.wrap ctx e true))))
  | some (.error e') => some (s.setTask i (.dialDone (.error e')))
  | none => none

/-- `__loaccept` raising `e` after writing the reply `rep` (if any), inside the context `ctx`
(if any): a failed write raises its own error instead; `_loaccept` closes the connection and
adds its context. -/
def loRaise (s : Sys) (i k : Nat) (network : Bytes) (ctx rep : Option Bytes) (e : Exc) : Sys :=
  let (s, e) : Sys × Exc := match rep with
    | some txt => match s.reply k network txt with
      | .ok s' => (s', e)
      | .error e' => (s, e')
    | none => (s, e)
  let e := match ctx with
    | some c => .wrap c e true
    | none => e
  (s.closeEnd k .server).setTask i (.loDone (.error (.wrap (ascii "loaccept") e true)))

/-- The `_loaccept` task `i` of connection `k` after `accept.ack.send(err)`: it returns, or
raises `err` in context `ctx`, closing the connection. -/
def loAckDone (s : Sys) (i k : Nat) (ctx : Bytes) : Option Exc → Sys
  | none => s.setTask i (.loDone (.ok ()))
  | some e =>
    (s.closeEnd k .server).setTask i (.loDone (.error (.wrap (ascii "loaccept") (.wrap ctx e true) true)))

/-- Recording (ghost) that the first `Accept` sent for connection `k` names socket `sk`. -/
def setAcceptor (s : Sys) (k sk : Nat) : Sys :=
  match s.osconns k with
  | some K => match K.acceptor with
    | none => s.setOsConn k { K with acceptor := some sk }
    | some _ => s
  | none => s

/-- The next step of task `i`, at `t`, on its own; `none` while it is blocked. -/
def runTask (s : Sys) (i : Nat) : Task → Option Sys
  | .dial h addr => do
    let H ← s.hosts h
    if H.stuck then none
    else let (s, sk) := s.allocFreeSocket h H; some (s.setTask i (.dialQuery h sk addr))
  | .dialQuery h sk addr => do
    let H ← s.hosts h
    let N ← s.nets H.subnet
    let src ← s.sockAddr sk
    match s.dialQuery N H addr with
    | .ok (dst, osladdr) => some (s.setTask i (.dialConnect h sk dst osladdr))
    | .error (dstText, e) => s.dialRelease i h src (dialCtx N.network src dstText) e
  | .dialConnect h sk dst osladdr => do
    let H ← s.hosts h
    let N ← s.nets H.subnet
    let src ← s.sockAddr sk
    match s.osConnect osladdr with
    | .ok n' => some ((s.openOsConn n' (some sk) (dialLine N.network src.str dst.str)).setTask i
        (.dialReply h sk dst s.next))
    | .error e => s.dialRelease i h src (dialCtx N.network src dst.str) e
  | .dialReply h sk dst k => do
    let H ← s.hosts h
    let N ← s.nets H.subnet
    let src ← s.sockAddr sk
    let K ← s.osconns k
    let N' ← s.nets K.subnet
    let (r, rest) ← readLine K.toClient K.serverClosed maxLine
    let s := s.setOsConn k { K with toClient := rest }
    match r.bind (loconnectParse N.network dst) with
    | .ok acceptAddr => do
      let S ← s.socks sk
      if H.stuck then none
      else some ((((s.setConn s.next ⟨sk, acceptAddr, k, .client, false, false⟩).setSock sk
        { S with conn := some s.next }).bump).setTask i (.dialDone (.ok s.next)))
    | .error e => some ((s.closeEnd k .client).setTask i
        (.dialRelease h src (dialCtx N.network src dst.str) (loconnectErr (oslAddr N') e)))
  | .dialRelease h src ctx e => s.dialRelease i h src ctx e
  | .accept l waiting =>
    if waiting then none
    else if s.lsnDown l then some (s.setTask i (.acceptDown l))
    else some (s.setTask i (.accept l true))
  | .acceptDown l => do
    let L ← s.listeners l
    let S ← s.socks L.socket
    let H ← s.hosts S.host
    let N ← s.nets H.subnet
    let a ← s.listenerAddr l
    some (s.setTask i (.acceptDone (.error (.wrap (acceptCtx N a) (.net (listenerExcDown N H)) true))))
  | .acceptAlloc l req => do
    let L ← s.listeners l
    let S ← s.socks L.socket
    let H ← s.hosts S.host
    if H.stuck then none
    else let (s, sk) := s.allocFreeSocket S.host H; some (s.setTask i (.acceptResp l req sk))
  | .acceptAck l req sk waiting =>
    if waiting then none
    else if s.lsnDown l then some (s.setTask i (.acceptAckDown l req sk))
    else some (s.setTask i (.acceptAck l req sk true))
  | .acceptAckDown l req sk => do
    let L ← s.listeners l
    let S ← s.socks L.socket
    let H ← s.hosts S.host
    let N ← s.nets H.subnet
    let a ← s.listenerAddr l
    some ((s.spawn (.purge S.host req sk)).setTask i
      (.acceptDone (.error (.wrap (acceptCtx N a) (.net (listenerExcDown N H)) true))))
  | .acceptFinish l req sk err => do
    let L ← s.listeners l
    let S ← s.socks L.socket
    let H ← s.hosts S.host
    let N ← s.nets H.subnet
    let a ← s.listenerAddr l
    let P ← s.socks sk
    if H.stuck then none
    else match err with
      | some _ => match s.clearSlot S.host H P.port with
        | .ok s => some (s.setTask i (.accept l false))
        | .error e => some (s.setTask i (.acceptDone (.error (.wrap (acceptCtx N a) e true))))
      | none => some ((((s.setConn s.next ⟨sk, req.src, req.osconn, .server, false, false⟩).setSock
          sk { P with connAttr := some s.next }).bump).setTask i (.acceptDone (.ok s.next)))
  | .purgeFinish h req sk err =>
    let s := if err.isNone then s.closeEnd req.osconn .server else s
    some (s.setTask i (.purgeRelease h sk))
  | .purgeRelease h sk => do
    let P ← s.socks sk
    match s.releaseSlot h P.port with
    | some (.ok s) => some (s.setTask i .purgeDone)
    | some (.error _) => some (s.setTask i .purgeDone)
    | none => none
  | .loStart n k => do
    let N ← s.nets n
    if N.oslClosed then some (s.setTask i (.loDone (.error badFd)))
    else some (s.setTask i (.loRead n k))
  | .loRead n k => do
    let N ← s.nets n
    let K ← s.osconns k
    let (r, rest) ← readLine K.toServer K.clientClosed maxLine
    let s := s.setOsConn k { K with toServer := rest }
    match r with
    | .error e => some (s.loRaise i k N.network none none e)
    | .ok line => match loacceptParse N.network line with
      | .error (rep, e) => some (s.loRaise i k N.network none rep e)
      | .ok (src, dst, asrc, adst) =>
        let ctx := dst ++ ascii " <- " ++ src
        match s.vnetAcceptLookup N adst with
        | none => none
        | some (s, .ok l) => some (s.setTask i (.loSelect n k ctx l ⟨asrc, k⟩ false))
        | some (s, .error e) =>
          some (s.loRaise i k N.network (some ctx) (some (ereply e).1) (ereply e).2)
  | .loSelect n k ctx l req waiting =>
    if waiting then none
    else if s.lsnDown l then some (s.setTask i (.loRefused n k ctx))
    else some (s.setTask i (.loSelect n k ctx l req true))
  | .loRefused n k ctx => do
    let N ← s.nets n
    some (s.loRaise i k N.network (some ctx) (some (ereply (.net .connRefused)).1)
      (ereply (.net .connRefused)).2)
  | .loReply n k ctx acc => do
    let N ← s.nets n
    match s.reply k N.network (ascii "connected " ++ qq acc.addr.str) with
    | .ok s => some (s.setTask i (.loAck n k ctx acc.ack none))
    | .error e => some (s.setTask i (.loAck n k ctx acc.ack (some e)))
  | .listen h laddr => do
    let H ← s.hosts h
    let N ← s.nets H.subnet
    let ctx := listenCtx N.network laddr
    match listenCheck N H laddr with
    | .ok a => some (s.setTask i (.listenLocked h ctx a))
    | .error e => some (s.setTask i (.listenDone (.error (.wrap ctx e true))))
  | .listenLocked h ctx a => do
    let H ← s.hosts h
    if H.stuck then none
    else match s.listenLocked h H a with
      | .ok (s, l) => some (s.setTask i (.listenDone (.ok l)))
      | .error e => some (s.setTask i (.listenDone (.error (.wrap ctx e true))))
  | .newHost n name => do
    let N ← s.nets n
    match s.vnetNewhost N name with
    | .ok db => some ((s.setFile N.file db).setTask i (.newHostInsert n name))
    | .error e => some (s.setTask i (.newHostDone (.error (.wrap (newHostCtx N name) e true))))
  | .newHostInsert n name => do
    let N ← s.nets n
    if N.stuck then none
    else match s.newHostLocked n N name with
    | .ok (s, h) => some (s.setTask i (.newHostDone (.ok h)))
    | .error e => some (s.setTask i (.newHostDone (.error (.wrap (newHostCtx N name) e true))))
  | .acceptResp .. | .purge .. | .loResp .. | .loAck .. => none
  | .dialDone _ | .acceptDone _ | .purgeDone | .loDone _ | .listenDone _ | .newHostDone _ => none

/-- Task `i` at `ti` meets task `j` at `tj` on a channel: a polling `select` meets a waiting one
on `l._dialq`; a send meets a receive on `_resp`; a send meets the second `select` of `accept`
or `purgesk` on the ack channel. -/
def meet (s : Sys) (i : Nat) (ti : Task) (j : Nat) (tj : Task) : Option Sys :=
  match ti, tj with
  | .loSelect n k ctx l req false, .accept l' true =>
    if l = l' then some ((s.setTask i (.loResp n k ctx)).setTask j (.acceptAlloc l req)) else none
  | .accept l false, .loSelect n k ctx l' req true =>
    if l = l' then some ((s.setTask i (.acceptAlloc l req)).setTask j (.loResp n k ctx)) else none
  | .acceptResp l req sk, .loResp n k ctx =>
    if req.osconn = k then do
      let a ← s.sockAddr sk
      some (((s.setAcceptor k sk).setTask i (.acceptAck l req sk false)).setTask j
        (.loReply n k ctx ⟨a, sk⟩))
    else none
  | .loResp n k ctx, .acceptResp l req sk =>
    if req.osconn = k then do
      let a ← s.sockAddr sk
      some (((s.setAcceptor k sk).setTask j (.acceptAck l req sk false)).setTask i
        (.loReply n k ctx ⟨a, sk⟩))
    else none
  | .acceptAck l req sk false, .loAck _ k ctx ack err =>
    if ack = sk then some ((s.loAckDone j k ctx err).setTask i (.acceptFinish l req sk err))
    else none
  | .loAck _ k ctx ack err, .acceptAck l req sk true =>
    if ack = sk then some ((s.loAckDone i k ctx err).setTask j (.acceptFinish l req sk err))
    else none
  | .purge h req sk, .loAck _ k ctx ack err =>
    if ack = sk then some ((s.loAckDone j k ctx err).setTask i (.purgeFinish h req sk err))
    else none
  | .loAck _ k ctx ack err, .purge h req sk =>
    if ack = sk then some ((s.loAckDone i k ctx err).setTask j (.purgeFinish h req sk err))
    else none
  | _, _ => none

/-- The rendezvous of `meet`, one constructor each, with their guards: `_vnet_accept`'s `select`
taking a waiting `accept` or taken by it, the response and the reply to it, and the `ack` of
`accept` or of `purgesk`. -/
inductive Meet (s : Sys) (i j : Nat) : Task → Task → Sys → Prop
  | selectAccept {n k ctx l req} : Meet s i j (.loSelect n k ctx l req false) (.accept l true)
      ((s.setTask i (.loResp n k ctx)).setTask j (.acceptAlloc l req))
  | acceptSelect {n k ctx l req} : Meet s i j (.accept l false) (.loSelect n k ctx l req true)
      ((s.setTask i (.acceptAlloc l req)).setTask j (.loResp n k ctx))
  | respLo {l req sk n ctx a} (ha : s.sockAddr sk = some a) :
      Meet s i j (.acceptResp l req sk) (.loResp n req.osconn ctx)
        (((s.setAcceptor req.osconn sk).setTask i (.acceptAck l req sk false)).setTask j
          (.loReply n req.osconn ctx ⟨a, sk⟩))
  | loResp {l req sk n ctx a} (ha : s.sockAddr sk = some a) :
      Meet s i j (.loResp n req.osconn ctx) (.acceptResp l req sk)
        (((s.setAcceptor req.osconn sk).setTask j (.acceptAck l req sk false)).setTask i
          (.loReply n req.osconn ctx ⟨a, sk⟩))
  | ackLo {l req sk m k ctx err} : Meet s i j (.acceptAck l req sk false) (.loAck m k ctx sk err)
      ((s.loAckDone j k ctx err).setTask i (.acceptFinish l req sk err))
  | loAck {l req sk m k ctx err} : Meet s i j (.loAck m k ctx sk err) (.acceptAck l req sk true)
      ((s.loAckDone i k ctx err).setTask j (.acceptFinish l req sk err))
  | purgeLo {h req sk m k ctx err} : Meet s i j (.purge h req sk) (.loAck m k ctx sk err)
      ((s.loAckDone j k ctx err).setTask i (.purgeFinish h req sk err))
  | loPurge {h req sk m k ctx err} : Meet s i j (.loAck m k ctx sk err) (.purge h req sk)
      ((s.loAckDone i k ctx err).setTask j (.purgeFinish h req sk err))

/-- Everything `meet` can do is a `Meet`. -/
theorem meet_some {s s' : Sys} {i j : Nat} {ti tj : Task} (h : s.meet i ti j tj = some s') :
    s.Meet i j ti tj s' := by
  unfold meet at h
  split at h <;> (try split at h) <;> (try cases h)
  all_goals try (subst_vars; constructor)
  all_goals
    simp only [Option.bind_eq_bind, Option.bind_eq_some, Option.some.injEq] at h
    obtain ⟨a, ha, rfl⟩ := h
    subst_vars
    constructor
    exact ha

/-- One step of the system. -/
def step (s : Sys) : Act → Option Sys
  | .dial h addr => (s.hosts h).map fun _ => s.spawn (.dial h addr)
  | .accept l => (s.listeners l).map fun _ => s.spawn (.accept l false)
  | .listen h laddr => (s.hosts h).map fun _ => s.spawn (.listen h laddr)
  | .newHost n name => (s.nets n).map fun _ => s.spawn (.newHost n name)
  | .closeListener l => some (s.listenerClose l).1.wake
  | .closeConn c => some (s.connClose c).1
  | .closeHost h => some (s.hostClose h).1.wake
  | .closeNet n => some (s.netShutdown n false).1.wake
  | .serve n => do
    let N ← s.nets n
    if N.oslClosed || N.down then none
    else match N.backlog with
      | k :: ks => some ((s.setNet n { N with backlog := ks }).spawn (.loStart n k))
      | [] => none
  | .serveFail n => do
    let N ← s.nets n
    if N.oslClosed || N.down then none else some (s.netShutdown n true).1.wake
  | .foreignDial n data => do
    let N ← s.nets n
    if N.oslClosed then none else some (s.openOsConn n none data)
  | .foreignClose k => do
    let K ← s.osconns k
    if K.dialer.isNone then some (s.closeEnd k .client) else none
  | .run i => s.tasks i >>= s.runTask i
  | .sync i j => do
    let ti ← s.tasks i
    let tj ← s.tasks j
    if i = j then none else s.meet i ti j tj

/-- The steps `as`, one after another; `none` if one of them cannot be taken. -/
def run (s : Sys) : List Act → Option Sys
  | [] => some s
  | a :: as => s.step a >>= fun s' => s'.run as

end Sys

/-- `_SubNetwork(network, registry)` just constructed: its OS listener on `127.0.0.1:osPort`,
its registry `uri` on file `file`. -/
def Subnet.joined (network uri : Bytes) (file osPort : Nat) : Subnet :=
  ⟨network, uri, file, [], 0, false, osPort, false, [], false, false⟩

/-- Subnetworks `nets` just joined (ids `0, 1, ...`) on the registry files `files`, and nothing
else. -/
def Sys.init (nets : List Subnet) (files : Nat → RegDb) : Sys where
  nets n := nets[n]?
  hosts _ := none
  socks _ := none
  listeners _ := none
  conns _ := none
  osconns _ := none
  files := files
  tasks _ := none
  next := nets.length

/-- The states every interleaving reaches from freshly joined subnetworks. -/
inductive Reachable : Sys → Prop where
  | init (nets : List Subnet) (files : Nat → RegDb)
      (h : ∀ N ∈ nets, N = Subnet.joined N.network N.uri N.file N.osPort) :
      Reachable (Sys.init nets files)
  | step {s s' : Sys} (a : Act) : Reachable s → s.step a = some s' → Reachable s'

/-- A run from a reachable state ends in one. -/
theorem Reachable.run {s s' : Sys} {as : List Act} (hs : Reachable s) (h : s.run as = some s') :
    Reachable s' := by
  induction as generalizing s with
  | nil => cases h; exact hs
  | cons a as ih =>
    obtain ⟨s1, h1, h2⟩ := Option.bind_eq_some.1 h
    exact ih (hs.step a h1) h2

/-! ## Runs the witnesses start from -/

/-- Subnetwork `lonetX` with its registry tables created. -/
def lonetX : Subnet := Subnet.joined (ascii "lonetX") (ascii "r.db") 0 5000

/-- From a fresh `lonetX`: hosts `a` (host `2`) and `b` (host `4`), then `b.listen("")`
(listener `7` at `b:1`). -/
def listenRun : List Act :=
  [.newHost 0 (ascii "a"), .run 1, .run 1, .newHost 0 (ascii "b"), .run 3, .run 3,
    .listen 4 [], .run 5, .run 5]

/-- Then `a.dial("b:1")` (thread `8`) and `l.accept()` (thread `11`), through the handshake
of `_loaccept` (thread `12`), up to `accept` holding the ack. -/
def acceptRun : List Act :=
  listenRun ++ [.dial 2 (ascii "b:1"), .run 8, .run 8, .run 8, .accept 7, .run 11, .serve 0,
    .run 12, .run 12, .sync 12 11, .run 11, .sync 11 12, .run 12, .run 8, .sync 11 12]

/-- The state a run from a fresh `lonetX` ends in. -/
def Sys.ofRun (as : List Act) : Sys :=
  ((Sys.init [lonetX] fun _ => ⟨true, true, [], []⟩).run as).getD
    (Sys.init [] fun _ => RegDb.empty)

/-- The state `listenRun` ends in. -/
def listenState : Sys := Sys.ofRun listenRun

/-- The state `acceptRun` ends in. -/
def acceptState : Sys := Sys.ofRun acceptRun

/-- A run from a fresh `lonetX` that does not block ends in a reachable state. -/
theorem Reachable.ofRun {as : List Act} {s : Sys}
    (h : (Sys.init [lonetX] fun _ => ⟨true, true, [], []⟩).run as = some s) :
    Reachable (Sys.ofRun as) := by
  rw [Sys.ofRun, h]
  exact Reachable.run (.init [lonetX] _ (by decide)) h

end Lonet
