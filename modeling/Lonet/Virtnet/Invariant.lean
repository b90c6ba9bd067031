import Lonet.Virtnet.Footprint

/-!
# The invariant of the virtnet system

`Inv s none` holds in every reachable state (`Reachable.inv`, in `Lonet.Virtnet.Preserve`):

* the links between objects (`Refs`);
* each thread's view of the handshake (`TaskOk`): the dial line unread on an OS connection names
  its dialer's socket, a request carries the address of its dialer's socket, what a dialer can
  read is an `E` reply or `connected` with the address of the socket the connection was accepted
  on, and nothing is written back before `__loaccept` writes its one reply;
* the same for the OS connections waiting in a backlog; each OS connection is served by at most
  one `__loaccept` thread (`Sys.loServe`, up to its ack), and by none while it waits, and read
  by at most one dialer;
* every connection knows both ends of its OS connection (`ConnOk`).

`Inv s (some i)` is the same but for the facts of thread `i`, in the middle of its step. Each
lemma here re-establishes `Inv` after one kind of change: a quiet change (`Inv.quiet`), a thread
moving on (`Inv.setTask`), a new thread, the wake-up of `select`s, a change of one OS
connection, a new OS connection, a new connection.
-/

namespace Lonet

namespace Sys

/-! ## Who reads and writes an OS connection -/

/-- The OS connection a `__loaccept` thread serves, up to its reply: nothing has been written
back on it yet. -/
def loConn : Task → Option Nat
  | .loStart _ k | .loRead _ k | .loSelect _ k _ _ _ _ | .loRefused _ k _ | .loResp _ k _
  | .loReply _ k _ _ => some k
  | _ => none

/-- The OS connection a dialer reads its reply from. -/
def dialConn : Task → Option Nat
  | .dialReply _ _ _ k => some k
  | _ => none

/-- At most one thread plays the role `f` for each OS connection. -/
def Unique (tasks : Nat → Option Task) (f : Task → Option Nat) : Prop :=
  ∀ i j ti tj k, tasks i = some ti → tasks j = some tj → f ti = some k → f tj = some k → i = j

/-- No thread plays the role `f` for OS connection `k`. -/
def Free (tasks : Nat → Option Task) (f : Task → Option Nat) (k : Nat) : Prop :=
  ∀ j t, tasks j = some t → f t ≠ some k

/-- A thread set to `t` keeps the roles unique if each role of `t` was its own or nobody's. -/
theorem Unique.upd {tasks : Nat → Option Task} {f : Task → Option Nat} (hu : Unique tasks f)
    {i : Nat} {t : Task}
    (hnew : ∀ k, f t = some k → (∃ t0, tasks i = some t0 ∧ f t0 = some k) ∨ Free tasks f k) :
    Unique (upd tasks i (some t)) f := by
  have side : ∀ j tj k, j ≠ i → tasks j = some tj → f t = some k → f tj = some k → False := by
    intro j tj k hj htj hk hk'
    rcases hnew k hk with ⟨t0, ht0, hk0⟩ | hfree
    · exact hj (hu j i tj t0 k htj ht0 hk' hk0)
    · exact hfree j tj htj hk'
  intro j1 j2 t1 t2 k h1 h2 e1 e2
  rcases upd_eq_some h1 with ⟨rfl, rfl⟩ | ⟨n1, g1⟩ <;>
    rcases upd_eq_some h2 with ⟨rfl, rfl⟩ | ⟨n2, g2⟩
  · rfl
  · exact (side j2 t2 k n2 g2 e1 e2).elim
  · exact (side j1 t1 k n1 g1 e2 e1).elim
  · exact hu j1 j2 t1 t2 k g1 g2 e1 e2

theorem Unique.map {tasks : Nat → Option Task} {f : Task → Option Nat} (hu : Unique tasks f)
    {g : Task → Task} (hg : ∀ t, f (g t) = f t) : Unique (fun i => (tasks i).map g) f := by
  intro i j ti tj k hi hj ei ej
  obtain ⟨ti0, hi0, rfl⟩ := Option.map_eq_some'.1 hi
  obtain ⟨tj0, hj0, rfl⟩ := Option.map_eq_some'.1 hj
  exact hu i j ti0 tj0 k hi0 hj0 ((hg ti0).symm.trans ei) ((hg tj0).symm.trans ej)

theorem loServe_of_loConn {t : Task} {k : Nat} (h : loConn t = some k) : loServe t = some k := by
  cases t <;> simp only [loConn, reduceCtorEq] at h <;> exact h

/-! ## The handshake as each side sees it -/

/-- What the dialer of OS connection `K` can read: nothing yet, an `E` reply, or `connected`
with the address of the socket the connection was accepted on. -/
def ReplyOk (s : Sys) (K : OsConn) : Prop :=
  K.toClient = [] ∨ (∃ n x, K.toClient = replyLine n (ascii "E") x) ∨
    ∃ sk a, K.acceptor = some sk ∧ s.sockAddr sk = some a ∧
      K.toClient = replyLine a.net (ascii "connected") a.str

/-- The unread bytes of OS connection `K` are its dialer's dial line, naming the dialer's
socket (nothing is said of a connection from outside the model). -/
def DialLineOk (s : Sys) (K : OsConn) : Prop :=
  ∀ sk, K.dialer = some sk → ∃ a d, s.sockAddr sk = some a ∧ K.toServer = dialLine a.net a.str d

/-- OS connection `k` to subnetwork `n` has had nothing written back and no `Accept`. -/
def Unanswered (s : Sys) (n k : Nat) : Prop :=
  ∃ K, s.osconns k = some K ∧ K.subnet = n ∧ K.toClient = [] ∧ K.acceptor = none

/-- OS connection `k` is as it arrived on subnetwork `n`: unanswered, its unread bytes its
dialer's dial line. -/
def LoReady (s : Sys) (n k : Nat) : Prop :=
  s.Unanswered n k ∧ ∃ K, s.osconns k = some K ∧ s.DialLineOk K

/-- Request `req` carries the address of its dialer's socket. -/
def ReqOk (s : Sys) (req : DialReq) : Prop :=
  ∃ K, s.osconns req.osconn = some K ∧ ∀ sk, K.dialer = some sk → s.sockAddr sk = some req.src

/-- Socket `sk` is on a host of subnetwork `n`. -/
def SockOn (s : Sys) (sk n : Nat) : Prop :=
  ∃ S H, s.socks sk = some S ∧ s.hosts S.host = some H ∧ H.subnet = n

/-- Listener `l` is on a host of subnetwork `n`. -/
def ListenerOn (s : Sys) (l n : Nat) : Prop :=
  ∃ L, s.listeners l = some L ∧ s.SockOn L.socket n

/-- What a thread at `t` knows of the state. -/
def TaskOk (s : Sys) : Task → Prop
  | .dialQuery h sk _ | .dialConnect h sk _ _ => ∃ S, s.socks sk = some S ∧ S.host = h
  | .dialReply _ sk _ k => ∃ K, s.osconns k = some K ∧ K.dialer = some sk ∧ s.ReplyOk K
  | .accept l _ | .acceptDown l => ∃ L, s.listeners l = some L
  | .acceptAlloc l req =>
    s.ReqOk req ∧ ∃ K, s.osconns req.osconn = some K ∧ s.ListenerOn l K.subnet
  | .acceptResp _ req sk => s.ReqOk req ∧ ∃ K, s.osconns req.osconn = some K ∧ s.SockOn sk K.subnet
  | .acceptAck _ req sk _ | .acceptAckDown _ req sk | .acceptFinish _ req sk _ =>
    s.ReqOk req ∧ ∃ K, s.osconns req.osconn = some K ∧ K.acceptor = some sk
  | .loStart n k | .loRead n k => s.LoReady n k
  | .loSelect n k _ l req _ => s.Unanswered n k ∧ req.osconn = k ∧ s.ReqOk req ∧ s.ListenerOn l n
  | .loRefused n k _ | .loResp n k _ => s.Unanswered n k
  | .loReply n k _ acc => ∃ K N, s.osconns k = some K ∧ K.subnet = n ∧ K.toClient = [] ∧
    K.acceptor = some acc.ack ∧ s.sockAddr acc.ack = some acc.addr ∧ s.nets n = some N ∧
    acc.addr.net = N.network
  | .loAck _ k _ _ _ => ∃ K, s.osconns k = some K
  | _ => True

/-- A connection knows both ends of its OS connection: a dialer's connection is on the dialer's
socket and its peer is the socket it was accepted on; an accepted connection is on that socket
and its peer is the dialer's socket, when the dialer is in the model. -/
def ConnOk (s : Sys) (C : Conn) : Prop :=
  ∃ K, s.osconns C.osconn = some K ∧ match C.side with
    | .client => K.dialer = some C.socket ∧ ∃ sk, K.acceptor = some sk ∧ s.sockAddr sk = some C.peerAddr
    | .server => K.acceptor = some C.socket ∧ ∀ sk, K.dialer = some sk → s.sockAddr sk = some C.peerAddr

/-- A thread serving OS connection `k` has had nothing written back on it. -/
theorem TaskOk.unanswered {s : Sys} {t : Task} {k : Nat} (h : s.TaskOk t) (e : loConn t = some k) :
    ∃ K, s.osconns k = some K ∧ K.toClient = [] := by
  cases t <;> simp only [loConn, Option.some.injEq, reduceCtorEq] at e <;> subst e
  case loStart | loRead => obtain ⟨⟨K, hK, -, hc, -⟩, -⟩ := h; exact ⟨K, hK, hc⟩
  case loSelect => obtain ⟨⟨K, hK, -, hc, -⟩, -⟩ := h; exact ⟨K, hK, hc⟩
  case loRefused | loResp => obtain ⟨K, hK, -, hc, -⟩ := h; exact ⟨K, hK, hc⟩
  case loReply => obtain ⟨K, -, hK, -, hc, -⟩ := h; exact ⟨K, hK, hc⟩

/-- The OS connection a `__loaccept` thread serves exists. -/
theorem TaskOk.served {s : Sys} {t : Task} {k : Nat} (h : s.TaskOk t) (e : loServe t = some k) :
    ∃ K, s.osconns k = some K := by
  cases t <;> simp only [loServe, reduceCtorEq] at e
  case loAck => cases e; exact h
  all_goals obtain ⟨K, hK, -⟩ := h.unanswered e; exact ⟨K, hK⟩

/-! ## Moving forward -/

section Mono

variable {s s' : Sys} (hle : s.Le s')
include hle

theorem sockAddr_le {sk : Nat} {a : Addr} (h : s.sockAddr sk = some a) :
    s'.sockAddr sk = some a := by
  simp only [sockAddr, Option.bind_eq_bind, Option.bind_eq_some, Option.pure_def,
    Option.some.injEq] at h ⊢
  obtain ⟨S, hS, H, hH, N, hN, rfl⟩ := h
  obtain ⟨S', hS', hSS⟩ := hle.socks.keep _ _ hS
  obtain ⟨H', hH', hHH⟩ := hle.hosts.keep _ _ hH
  obtain ⟨N', hN', hNN⟩ := hle.nets.keep _ _ hN
  refine ⟨S', hS', H', ?_, N', ?_, ?_⟩
  · rw [hSS.host]; exact hH'
  · rw [hHH.subnet]; exact hN'
  · rw [hNN.network, hHH.name, hSS.port]

theorem SockOn.le {sk n : Nat} (h : s.SockOn sk n) : s'.SockOn sk n := by
  obtain ⟨S, H, hS, hH, rfl⟩ := h
  obtain ⟨S', hS', hSS⟩ := hle.socks.keep _ _ hS
  obtain ⟨H', hH', hHH⟩ := hle.hosts.keep _ _ hH
  exact ⟨S', H', hS', hSS.host ▸ hH', hHH.subnet⟩

theorem ListenerOn.le {l n : Nat} (h : s.ListenerOn l n) : s'.ListenerOn l n := by
  obtain ⟨L, hL, hon⟩ := h
  obtain ⟨L', hL', hLL⟩ := hle.listeners.keep _ _ hL
  exact ⟨L', hL', hLL.socket ▸ hon.le hle⟩

theorem ReqOk.le {req : DialReq} (h : s.ReqOk req) : s'.ReqOk req := by
  obtain ⟨K, hK, hd⟩ := h
  obtain ⟨K', hK', hKK⟩ := hle.osconns.keep _ _ hK
  exact ⟨K', hK', fun sk e => sockAddr_le hle (hd sk (hKK.dialer ▸ e))⟩

theorem ConnOk.le {C C' : Conn} (hC : C.Le C') (h : s.ConnOk C) : s'.ConnOk C' := by
  obtain ⟨K, hK, hc⟩ := h
  obtain ⟨K', hK', hKK⟩ := hle.osconns.keep _ _ hK
  refine ⟨K', hC.osconn ▸ hK', ?_⟩
  rw [hC.side, hC.socket, hC.peerAddr]
  cases hs : C.side <;> rw [hs] at hc <;> simp only
  · obtain ⟨hd, sk, ha, hsa⟩ := hc
    exact ⟨hKK.dialer ▸ hd, sk, hKK.acceptor sk ha, sockAddr_le hle hsa⟩
  · obtain ⟨ha, hd⟩ := hc
    exact ⟨hKK.acceptor _ ha, fun sk e => sockAddr_le hle (hd sk (hKK.dialer ▸ e))⟩

/-- The OS connection in a state later on, when its bytes and acceptor are as they were. -/
theorem OsSameAt.keep {k : Nat} {K : OsConn} (hos : OsSameAt s s' k) (hK : s.osconns k = some K) :
    ∃ K', s'.osconns k = some K' ∧ K.Le K' ∧ K'.toServer = K.toServer ∧
      K'.toClient = K.toClient ∧ K'.acceptor = K.acceptor := by
  obtain ⟨K', hK', h1, h2, h3⟩ := hos K hK
  exact ⟨K', hK', hle.osconns.keep_eq hK hK', h1, h2, h3⟩

theorem Unanswered.le {n k : Nat} (hos : OsSameAt s s' k) (h : s.Unanswered n k) :
    s'.Unanswered n k := by
  obtain ⟨K, hK, hn, hc, ha⟩ := h
  obtain ⟨K', hK', hKK, -, hc', ha'⟩ := hos.keep hle hK
  exact ⟨K', hK', hKK.subnet.trans hn, hc'.trans hc, ha'.trans ha⟩

theorem LoReady.le {n k : Nat} (hos : OsSameAt s s' k) (h : s.LoReady n k) : s'.LoReady n k := by
  obtain ⟨hu, K, hK, hd⟩ := h
  obtain ⟨K', hK', hKK, hts, -, -⟩ := hos.keep hle hK
  refine ⟨hu.le hle hos, K', hK', fun sk e => ?_⟩
  obtain ⟨a, d, hsa, hd⟩ := hd sk (hKK.dialer ▸ e)
  exact ⟨a, d, sockAddr_le hle hsa, hts.trans hd⟩

/-- What a dialer can read is kept while the bytes back to it are as they were and its acceptor
is kept. -/
theorem ReplyOk.le {K K' : OsConn} (hKK : K.Le K') (hc : K'.toClient = K.toClient)
    (h : s.ReplyOk K) : s'.ReplyOk K' := by
  rcases h with h | h | ⟨sk, a, hsk, hsa, h⟩
  · exact .inl (hc.trans h)
  · exact .inr (.inl (hc ▸ h))
  · exact .inr (.inr ⟨sk, a, hKK.acceptor sk hsk, sockAddr_le hle hsa, hc.trans h⟩)

theorem TaskOk.le {t : Task} (hos : ∀ k, loConn t = some k ∨ dialConn t = some k → OsSameAt s s' k)
    (h : s.TaskOk t) : s'.TaskOk t := by
  cases t <;> simp only [TaskOk] at h ⊢
  case dialQuery h sk _ | dialConnect h sk _ _ =>
    obtain ⟨S, hS, rfl⟩ := h
    obtain ⟨S', hS', hSS⟩ := hle.socks.keep _ _ hS
    exact ⟨S', hS', hSS.host⟩
  case dialReply _ sk _ k =>
    obtain ⟨K, hK, hd, hr⟩ := h
    obtain ⟨K', hK', hKK, -, hc, -⟩ := (hos k (.inr rfl)).keep hle hK
    exact ⟨K', hK', hKK.dialer.trans hd, hr.le hle hKK hc⟩
  case accept | acceptDown =>
    obtain ⟨L, hL⟩ := h
    obtain ⟨L', hL', -⟩ := hle.listeners.keep _ _ hL
    exact ⟨L', hL'⟩
  case acceptAlloc l req =>
    obtain ⟨hq, K, hK, hon⟩ := h
    obtain ⟨K', hK', hKK⟩ := hle.osconns.keep _ _ hK
    exact ⟨hq.le hle, K', hK', hKK.subnet ▸ hon.le hle⟩
  case acceptResp l req sk =>
    obtain ⟨hq, K, hK, hon⟩ := h
    obtain ⟨K', hK', hKK⟩ := hle.osconns.keep _ _ hK
    exact ⟨hq.le hle, K', hK', hKK.subnet ▸ hon.le hle⟩
  case acceptAck | acceptAckDown | acceptFinish =>
    obtain ⟨hq, K, hK, ha⟩ := h
    obtain ⟨K', hK', hKK⟩ := hle.osconns.keep _ _ hK
    exact ⟨hq.le hle, K', hK', hKK.acceptor _ ha⟩
  case loStart n k | loRead n k => exact h.le hle (hos k (.inl rfl))
  case loSelect n k _ _ _ _ =>
    obtain ⟨hu, hk, hq, hon⟩ := h
    exact ⟨hu.le hle (hos k (.inl rfl)), hk, hq.le hle, hon.le hle⟩
  case loRefused n k _ | loResp n k _ => exact h.le hle (hos k (.inl rfl))
  case loReply n k _ acc =>
    obtain ⟨K, N, hK, hn, hc, ha, hsa, hN, hnet⟩ := h
    obtain ⟨K', hK', hKK, -, hc', ha'⟩ := (hos k (.inl rfl)).keep hle hK
    obtain ⟨N', hN', hNN⟩ := hle.nets.keep _ _ hN
    exact ⟨K', N', hK', hKK.subnet.trans hn, hc'.trans hc, ha'.trans ha, sockAddr_le hle hsa, hN',
      hNN.network ▸ hnet⟩
  case loAck =>
    obtain ⟨K, hK⟩ := h
    obtain ⟨K', hK', -⟩ := hle.osconns.keep _ _ hK
    exact ⟨K', hK'⟩

end Mono

/-! ## The invariant -/

/-- What holds in every reachable state, but for the own facts of thread `busy`, in the middle
of its step. -/
structure Inv (s : Sys) (busy : Option Nat) : Prop where
  refs : s.Refs
  tasks : ∀ i t, s.tasks i = some t → busy ≠ some i → s.TaskOk t
  conns : ∀ c C, s.conns c = some C → s.ConnOk C
  backlog : ∀ n N k, s.nets n = some N → k ∈ N.backlog → s.LoReady n k
  nodup : ∀ n N, s.nets n = some N → N.backlog.Nodup
  idle : ∀ n N k, s.nets n = some N → k ∈ N.backlog → Free s.tasks loServe k
  loUnique : Unique s.tasks loServe
  dialUnique : Unique s.tasks dialConn

/-- No thread serves OS connection `k` and no backlog holds it. -/
def LoFree (s : Sys) (k : Nat) : Prop :=
  Free s.tasks loServe k ∧ ∀ n N, s.nets n = some N → k ∉ N.backlog

variable {s s' : Sys} {b : Option Nat}

/-- A change that moves no thread: objects move forward and keep their links, bytes in flight
and acceptors stay, no conn is made and backlogs only shrink. The registry files and host maps
play no part in the invariant. -/
theorem Inv.frame (hi : s.Inv b) (hle : s.Le s') (hr : s.Refs → s'.Refs)
    (ht : s'.tasks = s.tasks) (hc : ∀ c C', s'.conns c = some C' → ∃ C, s.conns c = some C)
    (hos : ∀ k, OsSameAt s s' k)
    (hb : ∀ n N', s'.nets n = some N' → ∃ N, s.nets n = some N ∧ N'.backlog.Sublist N.backlog) :
    s'.Inv b where
  refs := hr hi.refs
  tasks i t h hb := (hi.tasks i t (ht ▸ h) hb).le hle fun k _ => hos k
  conns c C' hC' := by
    obtain ⟨C, hC⟩ := hc c C' hC'
    exact (hi.conns c C hC).le hle (hle.conns.keep_eq hC hC')
  backlog n N' k hN' hk := by
    obtain ⟨N, hN, hsub⟩ := hb n N' hN'
    exact (hi.backlog n N k hN (hsub.subset hk)).le hle (hos k)
  nodup n N' hN' := by
    obtain ⟨N, hN, hsub⟩ := hb n N' hN'
    exact (hi.nodup n N hN).sublist hsub
  idle n N' k hN' hk := by
    obtain ⟨N, hN, hsub⟩ := hb n N' hN'
    rw [ht]
    exact hi.idle n N k hN (hsub.subset hk)
  loUnique := by rw [ht]; exact hi.loUnique
  dialUnique := by rw [ht]; exact hi.dialUnique

theorem Inv.quiet (hq : Quiet s s') (hi : s.Inv b) : s'.Inv b :=
  hi.frame hq.le hq.refs hq.tasks hq.conns hq.os hq.backlog

/-- Thread `i` moves on to `t`, whose facts hold, serving and reading only OS connections that it
did before or that nobody did. -/
theorem Inv.setTask {b' : Option Nat} {i : Nat} {t : Task} (hi : s.Inv b) (hb : b = some i ∨ b = b')
    (hok : s.TaskOk t)
    (hlo : ∀ k, loServe t = some k → (∃ t0, s.tasks i = some t0 ∧ loServe t0 = some k) ∨ s.LoFree k)
    (hdc : ∀ k, dialConn t = some k → (∃ t0, s.tasks i = some t0 ∧ dialConn t0 = some k) ∨
      Free s.tasks dialConn k) : (s.setTask i t).Inv b' where
  refs := hi.refs.congr rfl rfl rfl rfl
  tasks j t' ht hb' := by
    rcases upd_eq_some ht with ⟨-, rfl⟩ | ⟨hj, ht⟩
    · exact hok
    · refine hi.tasks j t' ht ?_
      rcases hb with rfl | rfl
      · exact fun e => hj (Option.some.inj e).symm
      · exact hb'
  conns := hi.conns
  backlog := hi.backlog
  nodup := hi.nodup
  idle n N k hN hk j t' ht := by
    rcases upd_eq_some ht with ⟨rfl, rfl⟩ | ⟨-, ht⟩
    · intro e
      rcases hlo k e with ⟨t0, ht0, e0⟩ | ⟨-, hnb⟩
      · exact hi.idle n N k hN hk _ t0 ht0 e0
      · exact hnb n N hN hk
    · exact hi.idle n N k hN hk j t' ht
  loUnique := hi.loUnique.upd fun k e => (hlo k e).imp id And.left
  dialUnique := hi.dialUnique.upd hdc

/-- The usual step of thread `i`: a quiet change, then the next task, serving and reading no OS
connection it did not before. -/
theorem Inv.next {i : Nat} {t t' : Task} (hi : s.Inv b) (hq : Quiet s s')
    (ht : s.tasks i = some t) (hb : b = none ∨ b = some i) (hok : s'.TaskOk t')
    (hlo : ∀ k, loServe t' = some k → loServe t = some k)
    (hdc : ∀ k, dialConn t' = some k → dialConn t = some k) : (s'.setTask i t').Inv none :=
  (hi.quiet hq).setTask hb.symm hok (fun k e => .inl ⟨t, hq.tasks ▸ ht, hlo k e⟩)
    fun k e => .inl ⟨t, hq.tasks ▸ ht, hdc k e⟩

/-- A new thread at `t`, whose facts hold, serving and reading only OS connections nobody did. -/
theorem Inv.spawn {t : Task} (hi : s.Inv b) (hok : s.TaskOk t)
    (hlo : ∀ k, loServe t = some k → s.LoFree k)
    (hdc : ∀ k, dialConn t = some k → Free s.tasks dialConn k) : (s.spawn t).Inv b :=
  (hi.setTask (.inr rfl) hok (fun k e => .inr (hlo k e)) fun k e => .inr (hdc k e)).quiet quiet_bump

theorem TaskOk.wakeTask {t : Task} (h : s.TaskOk t) : s.TaskOk (s.wakeTask t) := by
  unfold Sys.wakeTask
  split <;> (try split) <;> first | exact h | exact h.1

@[simp] theorem loServe_wakeTask (t : Task) : loServe (s.wakeTask t) = loServe t := by
  unfold Sys.wakeTask
  split <;> (try split) <;> rfl

@[simp] theorem dialConn_wakeTask (t : Task) : dialConn (s.wakeTask t) = dialConn t := by
  unfold Sys.wakeTask
  split <;> (try split) <;> rfl

theorem Inv.wake (hi : s.Inv b) : s.wake.Inv b where
  refs := hi.refs.congr rfl rfl rfl rfl
  tasks i t ht hb := by
    obtain ⟨t0, ht0, rfl⟩ := Option.map_eq_some'.1 ht
    exact (hi.tasks i t0 ht0 hb).wakeTask
  conns := hi.conns
  backlog := hi.backlog
  nodup := hi.nodup
  idle n N k hN hk j t ht := by
    obtain ⟨t0, ht0, rfl⟩ := Option.map_eq_some'.1 ht
    rw [loServe_wakeTask]
    exact hi.idle n N k hN hk j t0 ht0
  loUnique := hi.loUnique.map loServe_wakeTask
  dialUnique := hi.dialUnique.map dialConn_wakeTask

/-- A change of OS connection `k` alone, moving it forward: the facts of the backlog and of the
threads that serve or read `k` are for the caller to show. -/
theorem Inv.setOsConn {k : Nat} {K K' : OsConn} (hi : s.Inv b) (hK : s.osconns k = some K)
    (hle : K.Le K')
    (hback : ∀ n N, s.nets n = some N → k ∈ N.backlog → (s.setOsConn k K').LoReady n k)
    (hk : ∀ j t, s.tasks j = some t → b ≠ some j → loConn t = some k ∨ dialConn t = some k →
      (s.setOsConn k K').TaskOk t) : (s.setOsConn k K').Inv b := by
  have hle' := le_setOsConn hK hle
  have hos : ∀ k', k' ≠ k → OsSameAt s (s.setOsConn k K') k' :=
    fun k' e K0 hK0 => ⟨K0, (upd_of_ne (some K') e).trans hK0, rfl, rfl, rfl⟩
  exact {
    refs := hi.refs.congr rfl rfl rfl rfl
    tasks := fun j t ht hb => by
      by_cases e : loConn t = some k ∨ dialConn t = some k
      · exact hk j t ht hb e
      · exact (hi.tasks j t ht hb).le hle' fun k' e' => hos k' fun h => e (h ▸ e')
    conns := fun c C hC => (hi.conns c C hC).le hle' (Conn.Le.refl C)
    backlog := fun n N k' hN hk' => by
      by_cases e : k' = k
      · subst e; exact hback n N hN hk'
      · exact (hi.backlog n N k' hN hk').le hle' (hos k' e)
    nodup := hi.nodup
    idle := hi.idle
    loUnique := hi.loUnique
    dialUnique := hi.dialUnique }

/-- The next id is served, read and waited on by nobody. -/
theorem Inv.free_next (hf : s.Fresh) (hi : s.Inv none) :
    s.LoFree s.next ∧ Free s.tasks dialConn s.next := by
  have hK0 := hf.osconns _ le_rfl
  refine ⟨⟨fun j t ht e => ?_, fun n N hN hk => ?_⟩, fun j t ht e => ?_⟩
  · obtain ⟨K, hK⟩ := (hi.tasks j t ht nofun).served e
    rw [hK0] at hK; cases hK
  · obtain ⟨⟨K, hK, -⟩, -⟩ := hi.backlog n N _ hN hk
    rw [hK0] at hK; cases hK
  · have h := hi.tasks j t ht nofun
    cases t <;> simp only [dialConn, Option.some.injEq, reduceCtorEq] at e
    subst e
    obtain ⟨K, hK, -⟩ := h
    rw [hK0] at hK; cases hK

theorem openOsConn_of_nets {n : Nat} {N : Subnet} (hN : s.nets n = some N) (dialer : Option Nat)
    (line : Bytes) : s.openOsConn n dialer line =
      ((s.setOsConn s.next ⟨n, line, [], false, false, dialer, none⟩).setNet n
        { N with backlog := N.backlog ++ [s.next] }).bump := by
  simp only [openOsConn, hN]

/-- A new OS connection `s.next` to subnetwork `n`, queued on its backlog, carrying its dialer's
dial line. -/
theorem Inv.openOsConn {n : Nat} {N : Subnet} {dialer : Option Nat} {line : Bytes} (hf : s.Fresh)
    (hi : s.Inv none) (hN : s.nets n = some N)
    (hline : ∀ sk, dialer = some sk → ∃ a d, s.sockAddr sk = some a ∧ line = dialLine a.net a.str d) :
    (s.openOsConn n dialer line).Inv none := by
  have hle := le_openOsConn hf n dialer line
  rw [openOsConn_of_nets hN] at hle ⊢
  have hK0 := hf.osconns _ le_rfl
  obtain ⟨hfree, -⟩ := hi.free_next hf
  have hos : ∀ k, OsSameAt s (((s.setOsConn s.next ⟨n, line, [], false, false, dialer, none⟩).setNet n
      { N with backlog := N.backlog ++ [s.next] }).bump) k := by
    intro k K hK
    have e : k ≠ s.next := fun e => by rw [e, hK0] at hK; cases hK
    exact ⟨K, (upd_of_ne _ e).trans hK, rfl, rfl, rfl⟩
  exact {
    refs := hi.refs.transfer hle (fun _ _ e => ⟨_, e⟩) (fun _ _ _ e hm => ⟨_, e, hm⟩)
      (fun _ _ e => ⟨_, e⟩) (fun _ _ _ e hm => ⟨_, e, hm⟩) (fun _ _ e => ⟨_, e⟩)
      (fun _ _ _ e hm => (upd_eq_some e).elim (fun ⟨e1, e2⟩ => ⟨N, e1 ▸ hN, by subst e2; exact hm⟩)
        fun ⟨_, e2⟩ => ⟨_, e2, hm⟩)
    tasks := fun j t ht hb => (hi.tasks j t ht hb).le hle fun k _ => hos k
    conns := fun c C hC => (hi.conns c C hC).le hle (Conn.Le.refl C)
    backlog := fun n' N' k hN' hk => by
      rcases upd_eq_some hN' with ⟨rfl, rfl⟩ | ⟨-, hN'⟩
      · rcases List.mem_append.1 hk with hk | hk
        · exact (hi.backlog n' N k hN hk).le hle (hos k)
        · rw [List.mem_singleton.1 hk]
          refine ⟨⟨_, upd_self .., rfl, rfl, rfl⟩, _, upd_self .., fun sk e => ?_⟩
          obtain ⟨a, d, hsa, rfl⟩ := hline sk e
          exact ⟨a, d, sockAddr_le hle hsa, rfl⟩
      · exact (hi.backlog n' N' k hN' hk).le hle (hos k)
    nodup := fun n' N' hN' => by
      rcases upd_eq_some hN' with ⟨rfl, rfl⟩ | ⟨-, hN'⟩
      · exact (hi.nodup n' N hN).append (List.nodup_singleton _)
          (List.disjoint_singleton.2 (hfree.2 n' N hN))
      · exact hi.nodup n' N' hN'
    idle := fun n' N' k hN' hk => by
      rcases upd_eq_some hN' with ⟨rfl, rfl⟩ | ⟨-, hN'⟩
      · rcases List.mem_append.1 hk with hk | hk
        · exact hi.idle n' N k hN hk
        · rw [List.mem_singleton.1 hk]; exact hfree.1
      · exact hi.idle n' N' k hN' hk
    loUnique := hi.loUnique
    dialUnique := hi.dialUnique }

/-- A new connection that knows both its ends. -/
theorem Inv.setConn {c : Nat} {C : Conn} (hi : s.Inv b) (hok : s.ConnOk C) :
    (s.setConn c C).Inv b where
  refs := hi.refs.congr rfl rfl rfl rfl
  tasks := hi.tasks
  conns c' C' h := by
    rcases upd_eq_some h with ⟨-, rfl⟩ | ⟨-, h⟩
    · exact hok
    · exact hi.conns c' C' h
  backlog := hi.backlog
  nodup := hi.nodup
  idle := hi.idle
  loUnique := hi.loUnique
  dialUnique := hi.dialUnique

/-- Freshly joined subnetworks: no host, no thread, empty backlogs. -/
theorem inv_init {nets : List Subnet} (files : Nat → RegDb)
    (h : ∀ N ∈ nets, N = Subnet.joined N.network N.uri N.file N.osPort) :
    (Sys.init nets files).Inv none := by
  have hj : ∀ n N, (Sys.init nets files).nets n = some N → N.hostmap = [] ∧ N.backlog = [] :=
    fun n N hN => by rw [h N (List.getElem?_mem hN)]; exact ⟨rfl, rfl⟩
  exact {
    refs := ⟨nofun, nofun, nofun, nofun, nofun,
      fun n N _ _ hN hm => by rw [(hj n N hN).1] at hm; cases hm⟩
    tasks := nofun
    conns := nofun
    backlog := fun n N _ hN hk => by rw [(hj n N hN).2] at hk; cases hk
    nodup := fun n N hN => by rw [(hj n N hN).2]; exact List.nodup_nil
    idle := fun n N _ hN hk => by rw [(hj n N hN).2] at hk; cases hk
    loUnique := fun _ _ _ _ _ h => nomatch h
    dialUnique := fun _ _ _ _ _ h => nomatch h }

end Sys

end Lonet
