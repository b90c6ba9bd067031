import Lonet.Virtnet.Frame

/-!
# What each step can change

`runTask` (`Lonet.Virtnet.System`) follows the lonet code of each thread from one blocking point
to the next, and `step` adds what the other threads and the OS do. This module says once, for
every task and every step, which of the system's parts the step can touch, so that each
invariant of the later modules (`Sys.Names`, `Sys.Resolves`, `Sys.Owned`, the handshake of
`handshake_exclusive`) is derived from the summary by a case per kind of step, without unfolding
`runTask` again.

A step of thread `i` (`Sys.Shape`, from `runTask_shape`) is one of:

* a `Still` change, then the thread moves on, keeping or dropping the socket it reserved and
  the OS connection it serves (`Sys.Moves`);
* `_allocFreeSocket`, the new socket reserved by the thread (`Host.dial`, `listener.accept`);
* the reserved socket turned into a new conn, the thread returning it;
* `purgesk` started by `listener.accept` (`xnet/lonet/__init__.py:421-426`);
* `_vnet_newhost` announcing a name, and the `_hostmu` part of `new_host` mapping it, or
  panicking (`:275-288`).

A step of the system (`Sys.StepShape`, from `step_shape`) is a step of one thread, two threads
meeting on a channel, a new thread (`_serve` hands it the first OS connection of a backlog,
`:757-791`), or a `Still` change, followed by `wake` when a `_down` may have closed.
-/

namespace Lonet

/-- The threads names are about: `new_host` between announce and insert, and `new_host`
returned with a host. -/
def Task.named : Task → Bool
  | .newHostInsert .. | .newHostDone (.ok _) => true
  | _ => false

namespace Sys

variable {s : Sys}

/-- The socket a dial or an accept thread has reserved and not yet turned into its conn. -/
def sockRole : Task → Option Nat
  | .dialQuery _ sk _ | .dialConnect _ sk _ _ | .dialReply _ sk _ _ => some sk
  | .acceptResp _ _ sk | .acceptAck _ _ sk _ | .acceptAckDown _ _ sk | .acceptFinish _ _ sk _ =>
    some sk
  | _ => none

/-- The OS connection a `__loaccept` thread serves, from `_serve` handing it over to the ack
(`:793-861`). -/
def loServe : Task → Option Nat
  | .loStart _ k | .loRead _ k | .loSelect _ k _ _ _ _ | .loRefused _ k _ | .loResp _ k _
  | .loReply _ k _ _ | .loAck _ k _ _ _ => some k
  | _ => none

/-- OS connection `k` waits in the backlog of some subnetwork. -/
def Queued (s : Sys) (k : Nat) : Prop := ∃ n N, s.nets n = some N ∧ k ∈ N.backlog

/-- A thread at `t` holds no name, reserves no socket and serves no OS connection. -/
structure Idle (t : Task) : Prop where
  named : t.named = false
  sock : sockRole t = none
  serve : loServe t = none

/-- A thread at `t` moves on to `t'`: neither holds a name, and `t'` reserves only the socket
`t` reserved and serves only the OS connection `t` served. -/
structure Moves (t t' : Task) : Prop where
  named : t.named = false
  named' : t'.named = false
  sock : sockRole t' = none ∨ sockRole t' = sockRole t
  serve : loServe t' = none ∨ loServe t' = loServe t

theorem Moves.stop {t t' : Task} (hn : t.named = false) (h : Idle t') : Moves t t' :=
  ⟨hn, h.named, .inl h.sock, .inl h.serve⟩

/-! ## A step of one thread -/

/-- What the step of thread `i`, at `t`, makes of `s`. -/
inductive Shape (s : Sys) (i : Nat) (t : Task) : Sys → Prop
  /-- A change below the threads, then the thread moves on. -/
  | move {s1 : Sys} {t' : Task} (still : Still s s1) (moves : Moves t t') :
      Shape s i t (s1.setTask i t')
  /-- `_allocFreeSocket` on host `h`; the thread reserves the new socket. -/
  | alloc {h : Nat} {H : Host} {t' : Task} (host : s.hosts h = some H) (named : t.named = false)
      (named' : t'.named = false) (sock : sockRole t' = some s.next) (serve : loServe t' = none) :
      Shape s i t ((s.allocFreeSocket h H).1.setTask i t')
  /-- The thread's reserved socket `sk` carries the new conn `C`, which the thread returns. -/
  | conn {s1 : Sys} {C : Conn} {sk : Nat} {S S' : Sock} {t' : Task} (still : Still s s1)
      (sock : s1.socks sk = some S) (le : S.Le S') (reserved : sockRole t = some C.socket)
      (named : t.named = false) (idle : Idle t') :
      Shape s i t ((((s1.setConn s1.next C).setSock sk S').bump).setTask i t')
  /-- A new thread at `u` (`purgesk`), and the thread raises. -/
  | spawn {u t' : Task} (named : t.named = false) (idle : Idle t') (idleU : Idle u) :
      Shape s i t ((s.spawn u).setTask i t')
  /-- `_vnet_newhost` announced `x` in the registry file of subnetwork `n`. -/
  | announce {n : Nat} {N : Subnet} {x : Bytes} {db : RegDb} (task : t = .newHost n x)
      (net : s.nets n = some N) (ok : s.vnetNewhost N x = .ok db) :
      Shape s i t ((s.setFile N.file db).setTask i (.newHostInsert n x))
  /-- The `_hostmu` part of `new_host` mapped `x` to host `h`. -/
  | insert {n h : Nat} {N : Subnet} {x : Bytes} {s1 : Sys} (task : t = .newHostInsert n x)
      (net : s.nets n = some N) (ok : s.newHostLocked n N x = .ok (s1, h)) :
      Shape s i t (s1.setTask i (.newHostDone (.ok h)))
  /-- The `_hostmu` part of `new_host` raised. -/
  | insertFail {n : Nat} {N : Subnet} {x : Bytes} {e : Exc} (task : t = .newHostInsert n x)
      (net : s.nets n = some N) (fail : s.newHostLocked n N x = .error e) :
      Shape s i t (s.setTask i (.newHostDone (.error (.wrap (newHostCtx N x) e true))))

theorem Shape.dialRelease {i h : Nat} {t : Task} {src : Addr} {ctx : Bytes} {e : Exc} {s' : Sys}
    (hn : t.named = false) (hd : s.dialRelease i h src ctx e = some s') : Shape s i t s' := by
  unfold Sys.dialRelease at hd
  split at hd <;> cases hd
  · exact .move (quiet_releaseSlot ‹_›).still (.stop hn ⟨rfl, rfl, rfl⟩)
  · exact .move (.refl s) (.stop hn ⟨rfl, rfl, rfl⟩)

theorem Shape.loRaise {s1 : Sys} {i k : Nat} {t : Task} (h1 : Still s s1) (hn : t.named = false)
    (network : Bytes) (ctx rep : Option Bytes) (e : Exc) :
    Shape s i t (s1.loRaise i k network ctx rep e) := by
  unfold Sys.loRaise
  refine .move (h1.trans (Still.trans ?_ (quiet_closeEnd ..).still)) (.stop hn ⟨rfl, rfl, rfl⟩)
  split
  · split
    · exact still_reply ‹_›
    · exact .refl _
  · exact .refl _

/-- Every step of a thread has one of the shapes. -/
theorem runTask_shape (hf : s.Fresh) {i : Nat} {t : Task} {s' : Sys}
    (hs : s.runTask i t = some s') : Shape s i t s' := by
  cases t <;> simp only [runTask, Option.bind_eq_bind, Option.bind_eq_some] at hs
  case dial =>
    obtain ⟨H, hH, hs⟩ := hs
    split at hs <;> cases hs
    exact .alloc hH rfl rfl rfl rfl
  case dialQuery =>
    obtain ⟨H, -, N, -, src, -, hs⟩ := hs
    split at hs
    · cases hs; exact .move (.refl s) ⟨rfl, rfl, .inr rfl, .inr rfl⟩
    · exact .dialRelease rfl hs
  case dialConnect =>
    obtain ⟨H, -, N, -, src, -, hs⟩ := hs
    split at hs
    · cases hs; exact .move (still_openOsConn hf ..) ⟨rfl, rfl, .inr rfl, .inr rfl⟩
    · exact .dialRelease rfl hs
  case dialReply =>
    obtain ⟨H, -, N, -, src, -, K, hK, N', -, ⟨r, rest⟩, -, hs⟩ := hs
    have h1 := still_setOsConn hK
      (show K.Le { K with toClient := rest } from ⟨rfl, rfl, fun _ => id, id, id⟩)
    dsimp only at hs
    split at hs
    · obtain ⟨S, hS, hs⟩ := Option.bind_eq_some.1 hs
      split at hs <;> cases hs
      exact .conn h1 hS ⟨rfl, rfl⟩ rfl rfl ⟨rfl, rfl, rfl⟩
    · cases hs; exact .move (h1.trans (quiet_closeEnd ..).still) (.stop rfl ⟨rfl, rfl, rfl⟩)
  case dialRelease => exact .dialRelease rfl hs
  case accept =>
    split at hs
    · cases hs
    · split at hs <;> (cases hs; exact .move (.refl s) (.stop rfl ⟨rfl, rfl, rfl⟩))
  case acceptDown =>
    obtain ⟨L, -, S, -, H, -, N, -, a, -, hs⟩ := hs
    cases hs; exact .move (.refl s) (.stop rfl ⟨rfl, rfl, rfl⟩)
  case acceptAlloc =>
    obtain ⟨L, -, S, -, H, hH, hs⟩ := hs
    split at hs <;> cases hs
    exact .alloc hH rfl rfl rfl rfl
  case acceptAck =>
    split at hs
    · cases hs
    · split at hs <;> (cases hs; exact .move (.refl s) ⟨rfl, rfl, .inr rfl, .inr rfl⟩)
  case acceptAckDown =>
    obtain ⟨L, -, S, -, H, -, N, -, a, -, hs⟩ := hs
    cases hs; exact .spawn rfl ⟨rfl, rfl, rfl⟩ ⟨rfl, rfl, rfl⟩
  case acceptFinish =>
    obtain ⟨L, -, S, -, H, hH, N, -, a, -, P, hP, hs⟩ := hs
    split at hs
    · cases hs
    · split at hs
      · split at hs <;> cases hs
        · exact .move (quiet_clearSlot hH ‹_›).still (.stop rfl ⟨rfl, rfl, rfl⟩)
        · exact .move (.refl s) (.stop rfl ⟨rfl, rfl, rfl⟩)
      · cases hs; exact .conn (.refl s) hP ⟨rfl, rfl⟩ rfl rfl ⟨rfl, rfl, rfl⟩
  case purgeFinish =>
    cases hs
    refine .move ?_ (.stop rfl ⟨rfl, rfl, rfl⟩)
    split
    · exact (quiet_closeEnd ..).still
    · exact .refl s
  case purgeRelease =>
    obtain ⟨P, -, hs⟩ := hs
    split at hs <;> cases hs
    · exact .move (quiet_releaseSlot ‹_›).still (.stop rfl ⟨rfl, rfl, rfl⟩)
    · exact .move (.refl s) (.stop rfl ⟨rfl, rfl, rfl⟩)
  case loStart =>
    obtain ⟨N, -, hs⟩ := hs
    split at hs <;> cases hs
    · exact .move (.refl s) (.stop rfl ⟨rfl, rfl, rfl⟩)
    · exact .move (.refl s) ⟨rfl, rfl, .inr rfl, .inr rfl⟩
  case loRead =>
    obtain ⟨N, -, K, hK, ⟨r, rest⟩, -, hs⟩ := hs
    have h1 := still_setOsConn hK
      (show K.Le { K with toServer := rest } from ⟨rfl, rfl, fun _ => id, id, id⟩)
    dsimp only at hs
    split at hs
    · cases hs; exact .loRaise h1 (by rfl) ..
    · split at hs
      · cases hs; exact .loRaise h1 (by rfl) ..
      · split at hs
        · cases hs
        · cases hs
          exact .move (h1.trans (quiet_vnetAcceptLookup ‹_›).still) ⟨rfl, rfl, .inr rfl, .inr rfl⟩
        · cases hs; exact .loRaise (h1.trans (quiet_vnetAcceptLookup ‹_›).still) (by rfl) ..
  case loSelect =>
    split at hs
    · cases hs
    · split at hs <;> (cases hs; exact .move (.refl s) ⟨rfl, rfl, .inr rfl, .inr rfl⟩)
  case loRefused =>
    obtain ⟨N, -, hs⟩ := hs
    cases hs; exact .loRaise (.refl s) (by rfl) ..
  case loReply =>
    obtain ⟨N, -, hs⟩ := hs
    split at hs <;> cases hs
    · exact .move (still_reply ‹_›) ⟨rfl, rfl, .inr rfl, .inr rfl⟩
    · exact .move (.refl s) ⟨rfl, rfl, .inr rfl, .inr rfl⟩
  case listen =>
    obtain ⟨H, -, N, -, hs⟩ := hs
    split at hs <;> (cases hs; exact .move (.refl s) (.stop rfl ⟨rfl, rfl, rfl⟩))
  case listenLocked =>
    obtain ⟨H, hH, hs⟩ := hs
    split at hs
    · cases hs
    · split at hs <;> cases hs
      · exact .move (quiet_listenLocked hf hH ‹_›).still (.stop rfl ⟨rfl, rfl, rfl⟩)
      · exact .move (.refl s) (.stop rfl ⟨rfl, rfl, rfl⟩)
  case newHost =>
    obtain ⟨N, hN, hs⟩ := hs
    split at hs <;> cases hs
    · exact .announce rfl hN ‹_›
    · exact .move (.refl s) (.stop rfl ⟨rfl, rfl, rfl⟩)
  case newHostInsert =>
    obtain ⟨N, hN, hs⟩ := hs
    split at hs
    · cases hs
    · split at hs <;> cases hs
      · exact .insert rfl hN ‹_›
      · exact .insertFail rfl hN ‹_›
  all_goals cases hs

/-- `_hostmu`'s part of `new_host` maps a host and leaves the backlogs alone. -/
theorem aside_newHostLocked (hf : s.Fresh) {n h : Nat} {N : Subnet} {x : Bytes} {s1 : Sys}
    (hN : s.nets n = some N) (hl : s.newHostLocked n N x = .ok (s1, h)) : Aside s s1 := by
  have hle := le_newHostLocked hf hN hl
  unfold newHostLocked at hl
  split at hl <;> cases hl
  refine ⟨hle, rfl, fun _ C hC => ⟨C, hC⟩, fun m N' k hN' hk => .inl ?_⟩
  rcases upd_eq_some hN' with ⟨rfl, rfl⟩ | ⟨-, hN'⟩
  · exact ⟨N, hN, hk⟩
  · exact ⟨N', hN', hk⟩

theorem aside_setFile (f : Nat) (db : RegDb) : Aside s (s.setFile f db) :=
  ⟨le_setFile f db, rfl, fun _ C hC => ⟨C, hC⟩, fun _ N _ hN hk => .inl ⟨N, hN, hk⟩⟩

theorem Shape.le (hf : s.Fresh) {i : Nat} {t : Task} {s' : Sys} (ht : s.tasks i = some t) :
    Shape s i t s' → s.Le s'
  | .move h1 _ => h1.le.setTask ht _
  | .alloc hH .. => (le_allocFreeSocket hf hH).setTask ht _
  | .conn h1 hS hle .. =>
    ((h1.le.trans (le_newConn (hf.of_le h1.le) _)).trans (le_setSock hS hle)).setTask ht _
  | .spawn .. => (le_spawn hf _).setTask ht _
  | .announce .. => (le_setFile ..).setTask ht _
  | .insert _ hN hl => (le_newHostLocked hf hN hl).setTask ht _
  | .insertFail .. => (Le.refl s).setTask ht _

/-! ## A step of the system -/

/-- What a step of the system makes of `s`. -/
inductive StepShape (s : Sys) : Sys → Prop
  /-- Thread `i`, at `t`, takes its step. -/
  | run {i : Nat} {t : Task} {s' : Sys} (task : s.tasks i = some t) (shape : Shape s i t s') :
      StepShape s s'
  /-- Threads `i` and `j` meet on a channel: a change below the threads, then both move on. -/
  | meet {s1 : Sys} {i j : Nat} {ti tj ti' tj' : Task} (ne : i ≠ j) (task : s.tasks i = some ti)
      (task' : s.tasks j = some tj) (still : Still s s1) (moves : Moves ti ti')
      (moves' : Moves tj tj') : StepShape s ((s1.setTask i ti').setTask j tj')
  /-- A new thread, serving only an OS connection that waited in a backlog. -/
  | spawn {s1 : Sys} {t : Task} (still : Still s s1) (named : t.named = false)
      (sock : sockRole t = none) (queued : ∀ k, loServe t = some k → s.Queued k) :
      StepShape s (s1.spawn t)
  /-- A change below the threads. -/
  | still {s1 : Sys} (still : Still s s1) : StepShape s s1
  /-- A change below the threads that may close a `_down`, then every `select` on it woken. -/
  | wake {s1 : Sys} (still : Still s s1) : StepShape s s1.wake

/-- `__loaccept` after its ack returns, having closed its end if the ack was an error. -/
theorem loAckDone_still (i k : Nat) (ctx : Bytes) (err : Option Exc) :
    ∃ s1 r, Still s s1 ∧ s.loAckDone i k ctx err = s1.setTask i (.loDone r) := by
  cases err
  · exact ⟨s, _, .refl s, rfl⟩
  · exact ⟨_, _, (quiet_closeEnd ..).still, rfl⟩

theorem meet_shape {i j : Nat} {ti tj : Task} {s' : Sys} (hij : i ≠ j)
    (hi : s.tasks i = some ti) (hj : s.tasks j = some tj) (hs : s.meet i ti j tj = some s') :
    StepShape s s' := by
  cases meet_some hs
  case selectAccept =>
    exact .meet hij hi hj (.refl s) ⟨rfl, rfl, .inl rfl, .inr rfl⟩ (.stop rfl ⟨rfl, rfl, rfl⟩)
  case acceptSelect =>
    exact .meet hij hi hj (.refl s) (.stop rfl ⟨rfl, rfl, rfl⟩) ⟨rfl, rfl, .inl rfl, .inr rfl⟩
  case respLo =>
    exact .meet hij hi hj (still_setAcceptor ..) ⟨rfl, rfl, .inr rfl, .inl rfl⟩
      ⟨rfl, rfl, .inl rfl, .inr rfl⟩
  case loResp =>
    exact .meet (Ne.symm hij) hj hi (still_setAcceptor ..) ⟨rfl, rfl, .inr rfl, .inl rfl⟩
      ⟨rfl, rfl, .inl rfl, .inr rfl⟩
  case ackLo _ _ _ _ k ctx err | purgeLo _ _ _ _ k ctx err =>
    obtain ⟨s1, r, h1, e⟩ := loAckDone_still (s := s) j k ctx err
    rw [e]
    exact .meet (Ne.symm hij) hj hi h1 (.stop rfl ⟨rfl, rfl, rfl⟩) ⟨rfl, rfl, .inr rfl, .inl rfl⟩
  case loAck _ _ _ _ k ctx err | loPurge _ _ _ _ k ctx err =>
    obtain ⟨s1, r, h1, e⟩ := loAckDone_still (s := s) i k ctx err
    rw [e]
    exact .meet hij hi hj h1 (.stop rfl ⟨rfl, rfl, rfl⟩) ⟨rfl, rfl, .inr rfl, .inl rfl⟩

/-- Every step of the system has one of the shapes. -/
theorem step_shape (hf : s.Fresh) {a : Act} {s' : Sys} (hs : s.step a = some s') :
    StepShape s s' := by
  cases a <;> simp only [step, Option.map_eq_some', Option.bind_eq_bind, Option.bind_eq_some] at hs
  case dial | accept | listen | newHost => obtain ⟨_, -, rfl⟩ := hs; exact .spawn (.refl s) rfl rfl nofun
  case closeListener => cases hs; exact .wake (quiet_listenerClose _).still
  case closeConn => cases hs; exact .still (quiet_connClose _).still
  case closeHost => cases hs; exact .wake (quiet_hostClose _).still
  case closeNet => cases hs; exact .wake (quiet_netShutdown ..).still
  case serve n =>
    obtain ⟨N, hN, hs⟩ := hs
    split at hs
    · cases hs
    · split at hs
      · rename_i k ks hb
        cases hs
        have hq : Quiet s (s.setNet n { N with backlog := ks }) :=
          quiet_setNet hN ⟨rfl, rfl, rfl, rfl, List.prefix_refl _, id, id, id, id⟩ rfl
            (by rw [hb]; exact List.sublist_cons_self k ks)
        refine .spawn hq.still rfl rfl fun _ e => ?_
        cases e
        exact ⟨n, N, hN, by rw [hb]; exact List.mem_cons_self k ks⟩
      · cases hs
  case serveFail =>
    obtain ⟨N, -, hs⟩ := hs
    split at hs <;> cases hs
    exact .wake (quiet_netShutdown ..).still
  case foreignDial =>
    obtain ⟨N, -, hs⟩ := hs
    split at hs <;> cases hs
    exact .still (still_openOsConn hf ..)
  case foreignClose =>
    obtain ⟨K, -, hs⟩ := hs
    split at hs <;> cases hs
    exact .still (quiet_closeEnd ..).still
  case run => obtain ⟨t, ht, hs⟩ := hs; exact .run ht (runTask_shape hf hs)
  case sync =>
    obtain ⟨ti, hi, tj, hj, hs⟩ := hs
    split at hs
    · cases hs
    · exact meet_shape ‹_› hi hj hs

theorem StepShape.le (hf : s.Fresh) {s' : Sys} : StepShape s s' → s.Le s'
  | .run ht h => h.le hf ht
  | .meet _ hi hj h1 .. => (h1.le.setTask hi _).setTask hj _
  | .spawn h1 .. => h1.le.trans (le_spawn (hf.of_le h1.le) _)
  | .still h1 => h1.le
  | .wake h1 => h1.le.trans le_wake

/-- Every step moves the state forward (`Sys.Le`). -/
theorem step_le (hf : s.Fresh) {a : Act} {s' : Sys} (hs : s.step a = some s') : s.Le s' :=
  (step_shape hf hs).le hf

/-- Every step keeps the ids from `next` on free. -/
theorem Fresh.step {a : Act} {s' : Sys} (hf : s.Fresh) (hs : s.step a = some s') : s'.Fresh :=
  hf.of_le (step_le hf hs)

end Sys

/-- Every reachable state has its ids from `next` on free. -/
theorem Reachable.fresh {s : Sys} (h : Reachable s) : s.Fresh := by
  induction h with
  | init nets files _ => exact Sys.fresh_init nets files
  | step a _ hs ih => exact ih.step hs

end Lonet
