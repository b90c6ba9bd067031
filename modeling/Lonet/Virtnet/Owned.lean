import Lonet.Virtnet.Agreement

/-!
# One conn per socket, one handshake per OS connection

Only two places make a conn: `Host.dial` (`xnet/lonet/__init__.py:490-513`), on the socket it
reserved with `_allocFreeSocket` once the handshake has succeeded, and `listener.accept`
(`:400-451`), on the socket it reserved for the request once the ack says the dialer was told
`connected`. Each reserving thread makes at most one conn and then returns.

`Sys.Owned` is what makes this inductive: a socket is reserved by at most one dial or accept
thread, a reserved socket carries no conn yet, and conns are on distinct sockets
(`Reachable.owned`). Together with the ends each conn records of its OS connection
(`Sys.ConnOk`), no OS connection ever carries two conns on one side (`conn_unique`).

The handshake side of this is read off `Sys.Inv` and the step shapes of
`Lonet.Virtnet.Footprint` (`handshake_exclusive`): `_serve` (`:757-791`) queues an OS connection
on its own subnetwork once and hands it to one `__loaccept` thread (`:803-861`), which serves it
up to its ack; no step queues it again or hands it to another thread (`Sys.Handed`), and one
dialer (`:878-912`) reads its reply.
-/

namespace Lonet

namespace Sys

/-- What keeps conns one per socket. -/
structure Owned (s : Sys) : Prop where
  /-- A socket is reserved by at most one thread. -/
  unique : Unique s.tasks sockRole
  /-- A reserved socket carries no conn yet. -/
  unused : ∀ i t sk, s.tasks i = some t → sockRole t = some sk →
    ∀ c C, s.conns c = some C → C.socket ≠ sk
  /-- Reserved sockets and the sockets of conns were made before `next`. -/
  made : ∀ i t sk, s.tasks i = some t → sockRole t = some sk → sk < s.next
  connMade : ∀ c C, s.conns c = some C → C.socket < s.next
  /-- A socket carries at most one conn. -/
  conns : ∀ c c' C C', s.conns c = some C → s.conns c' = some C' → C.socket = C'.socket → c = c'

variable {s s' : Sys}

/-! ## What each kind of change keeps -/

/-- A conn after an `Aside` change is an old one, on the same socket. -/
theorem Aside.old_conn (ha : Aside s s') {c : Nat} {C' : Conn} (hC' : s'.conns c = some C') :
    ∃ C, s.conns c = some C ∧ C'.socket = C.socket := by
  obtain ⟨C, hC⟩ := ha.conns c C' hC'
  exact ⟨C, hC, (ha.le.conns.keep_eq hC hC').socket⟩

theorem Owned.aside (ho : s.Owned) (ha : Aside s s') : s'.Owned where
  unique := ha.tasks ▸ ho.unique
  unused i t sk ht hr c C' hC' := by
    obtain ⟨C, hC, e⟩ := ha.old_conn hC'
    rw [e]; exact ho.unused i t sk (ha.tasks ▸ ht) hr c C hC
  made i t sk ht hr := (ho.made i t sk (ha.tasks ▸ ht) hr).trans_le ha.le.next
  connMade c C' hC' := by
    obtain ⟨C, hC, e⟩ := ha.old_conn hC'
    rw [e]; exact (ho.connMade c C hC).trans_le ha.le.next
  conns c c' C1 C2 h1 h2 e := by
    obtain ⟨D1, hD1, e1⟩ := ha.old_conn h1
    obtain ⟨D2, hD2, e2⟩ := ha.old_conn h2
    exact ho.conns c c' D1 D2 hD1 hD2 (e1.symm.trans (e.trans e2))

/-- Thread `i` moves on to `t`, reserving nothing or what it reserved before. -/
theorem Owned.setTask (ho : s.Owned) {i : Nat} {t : Task}
    (hr : sockRole t = none ∨ ∃ t0, s.tasks i = some t0 ∧ sockRole t = sockRole t0) :
    (s.setTask i t).Owned := by
  have old : ∀ sk, sockRole t = some sk → ∃ t0, s.tasks i = some t0 ∧ sockRole t0 = some sk := by
    intro sk h
    rcases hr with e | ⟨t0, h0, e⟩
    · rw [e] at h; cases h
    · exact ⟨t0, h0, e ▸ h⟩
  have back : ∀ j u sk, upd s.tasks i (some t) j = some u → sockRole u = some sk →
      ∃ u0, s.tasks j = some u0 ∧ sockRole u0 = some sk := by
    intro j u sk hj hu
    rcases upd_eq_some hj with ⟨rfl, rfl⟩ | ⟨-, hj⟩
    · exact old sk hu
    · exact ⟨u, hj, hu⟩
  refine ⟨ho.unique.upd fun k hk => .inl (old k hk), fun j u sk hj hu => ?_,
    fun j u sk hj hu => ?_, ho.connMade, ho.conns⟩
  · obtain ⟨u0, h0, hu0⟩ := back j u sk hj hu
    exact ho.unused j u0 sk h0 hu0
  · obtain ⟨u0, h0, hu0⟩ := back j u sk hj hu
    exact ho.made j u0 sk h0 hu0

theorem Owned.bump (ho : s.Owned) : s.bump.Owned := ho.aside quiet_bump.still.toAside

/-- A new thread that reserves nothing. -/
theorem Owned.spawn (ho : s.Owned) {t : Task} (ht : sockRole t = none) : (s.spawn t).Owned :=
  (ho.setTask (.inl ht)).bump

theorem sockRole_wakeTask (t : Task) : sockRole (s.wakeTask t) = sockRole t := by
  unfold wakeTask
  split <;> (try split) <;> rfl

theorem Owned.wake (ho : s.Owned) : s.wake.Owned := by
  have back : ∀ j u, s.wake.tasks j = some u → ∃ u0, s.tasks j = some u0 ∧ sockRole u = sockRole u0 :=
    fun j u hj => by
      obtain ⟨u0, h0, rfl⟩ := Option.map_eq_some'.1 hj
      exact ⟨u0, h0, sockRole_wakeTask u0⟩
  refine ⟨ho.unique.map sockRole_wakeTask, fun j u sk hj hu => ?_, fun j u sk hj hu => ?_,
    ho.connMade, ho.conns⟩
  · obtain ⟨u0, h0, e⟩ := back j u hj
    exact ho.unused j u0 sk h0 (e ▸ hu)
  · obtain ⟨u0, h0, e⟩ := back j u hj
    exact ho.made j u0 sk h0 (e ▸ hu)

@[simp] theorem allocFreeSocket_tasks (h : Nat) (H : Host) :
    (s.allocFreeSocket h H).1.tasks = s.tasks := rfl

@[simp] theorem allocFreeSocket_conns (h : Nat) (H : Host) :
    (s.allocFreeSocket h H).1.conns = s.conns := rfl

@[simp] theorem allocFreeSocket_next (h : Nat) (H : Host) :
    (s.allocFreeSocket h H).1.next = s.next + 1 := rfl

/-- Thread `i` reserves the socket `_allocFreeSocket` makes. -/
theorem Owned.alloc (ho : s.Owned) {i h : Nat} {H : Host} {t : Task}
    (ht : sockRole t = some s.next) :
    ((s.allocFreeSocket h H).1.setTask i t).Owned := by
  have hfree : Free s.tasks sockRole s.next := fun j u hj hu => by
    have := ho.made j u _ hj hu; omega
  refine ⟨ho.unique.upd fun k hk => .inr (by rw [ht] at hk; cases hk; exact hfree), fun j u sk hj hu c C hC => ?_,
    fun j u sk hj hu => ?_, fun c C hC => ?_, ho.conns⟩
  · rcases upd_eq_some hj with ⟨-, rfl⟩ | ⟨-, hj⟩
    · rw [ht] at hu; cases hu
      have := ho.connMade c C hC; omega
    · exact ho.unused j u sk hj hu c C hC
  · rcases upd_eq_some hj with ⟨-, rfl⟩ | ⟨-, hj⟩
    · rw [ht] at hu; cases hu; simp
    · have := ho.made j u sk hj hu; simp; omega
  · have := ho.connMade c C hC; simp; omega

/-- Thread `i` turns its reserved socket into the new conn `s.next`, and reserves nothing more. -/
theorem Owned.newConn (ho : s.Owned) {i sk : Nat} {t0 t : Task}
    {C : Conn} {S : Sock} (hi : s.tasks i = some t0) (h0 : sockRole t0 = some C.socket)
    (ht : sockRole t = none) : ((((s.setConn s.next C).setSock sk S).bump).setTask i t).Owned := by
  have hC : C.socket < s.next := ho.made i t0 _ hi h0
  have other : ∀ j u, j ≠ i → s.tasks j = some u → sockRole u ≠ some C.socket :=
    fun j u hji hj hu => hji (ho.unique j i u t0 _ hj hi hu h0)
  have conn_of : ∀ c D, upd s.conns s.next (some C) c = some D →
      (c = s.next ∧ D = C) ∨ s.conns c = some D := fun c D h =>
    (upd_eq_some h).imp id (·.2)
  refine ⟨ho.unique.upd fun k hk => (by rw [ht] at hk; cases hk), fun j u sk' hj hu c D hD => ?_,
    fun j u sk' hj hu => ?_, fun c D hD => ?_, fun c c' D D' hD hD' e => ?_⟩
  · rcases upd_eq_some hj with ⟨-, rfl⟩ | ⟨hji, hj⟩
    · rw [ht] at hu; cases hu
    · rcases conn_of c D hD with ⟨-, rfl⟩ | hD
      · exact fun e => other j u hji hj (e ▸ hu)
      · exact ho.unused j u sk' hj hu c D hD
  · rcases upd_eq_some hj with ⟨-, rfl⟩ | ⟨-, hj⟩
    · rw [ht] at hu; cases hu
    · have := ho.made j u sk' hj hu; simp; omega
  · rcases conn_of c D hD with ⟨-, rfl⟩ | hD
    · simp; omega
    · have := ho.connMade c D hD; simp; omega
  · rcases conn_of c D hD with ⟨rfl, rfl⟩ | h1 <;> rcases conn_of c' D' hD' with ⟨rfl, rfl⟩ | h2
    · rfl
    · exact absurd e.symm (ho.unused i t0 _ hi h0 c' D' h2)
    · exact absurd e (ho.unused i t0 _ hi h0 c D h1)
    · exact ho.conns c c' D D' h1 h2 e

/-! ## Every step -/

theorem Shape.owned (hf : s.Fresh) (ho : s.Owned) {i : Nat} {t : Task} (ht : s.tasks i = some t)
    (h : Shape s i t s') : s'.Owned := by
  cases h with
  | move h1 m => exact (ho.aside h1.toAside).setTask (m.sock.imp id fun e => ⟨t, h1.tasks ▸ ht, e⟩)
  | alloc _ _ _ hsk _ => exact ho.alloc hsk
  | conn h1 _ _ hr _ idle => exact (ho.aside h1.toAside).newConn (h1.tasks ▸ ht) hr idle.sock
  | spawn _ idle idleU => exact (ho.spawn idleU.sock).setTask (.inl idle.sock)
  | announce _ _ _ => exact (ho.aside (aside_setFile ..)).setTask (.inl rfl)
  | insert _ hN hl => exact (ho.aside (aside_newHostLocked hf hN hl)).setTask (.inl rfl)
  | insertFail _ _ _ => exact ho.setTask (.inl rfl)

theorem StepShape.owned (hf : s.Fresh) (ho : s.Owned) (h : StepShape s s') : s'.Owned := by
  cases h with
  | run ht h => exact h.owned hf ho ht
  | @meet s1 i j ti tj ti' tj' hij hi hj h1 mi mj =>
    have hj' : (s1.setTask i ti').tasks j = some tj := (upd_of_ne _ (Ne.symm hij)).trans (h1.tasks ▸ hj)
    exact ((ho.aside h1.toAside).setTask (mi.sock.imp id fun e => ⟨_, h1.tasks ▸ hi, e⟩)).setTask
      (mj.sock.imp id fun e => ⟨_, hj', e⟩)
  | spawn h1 _ hsk _ => exact (ho.aside h1.toAside).spawn hsk
  | still h1 => exact ho.aside h1.toAside
  | wake h1 => exact (ho.aside h1.toAside).wake

theorem owned_init (nets : List Subnet) (files : Nat → RegDb) : (Sys.init nets files).Owned where
  unique _ _ _ _ _ h := nomatch h
  unused _ _ _ h := nomatch h
  made _ _ _ h := nomatch h
  connMade _ _ h := nomatch h
  conns _ _ _ _ h := nomatch h

/-! ## An OS connection is handed to one `__loaccept` thread -/

/-- Thread `i` serves OS connection `k`: `_serve` handed `k` to it, and it has not yet sent its
ack. -/
def Serves (s : Sys) (i k : Nat) : Prop := ∃ t, s.tasks i = some t ∧ loServe t = some k

theorem Serves.of_tasks {s1 : Sys} (h : s1.tasks = s.tasks) {j k : Nat} (hj : s1.Serves j k) :
    s.Serves j k :=
  let ⟨u, hu, e⟩ := hj
  ⟨u, h ▸ hu, e⟩

/-- Thread `i`, at `t`, moves on to `t'`, serving nothing or what it served. -/
theorem Serves.setTask {s1 : Sys} {i j k : Nat} {t t' : Task} (hj : (s1.setTask i t').Serves j k)
    (ht : s.tasks i = some t) (hr : loServe t' = none ∨ loServe t' = loServe t)
    (h1 : ∀ {j k}, s1.Serves j k → s.Serves j k) : s.Serves j k := by
  obtain ⟨u, hu, e⟩ := hj
  rcases upd_eq_some hu with ⟨rfl, rfl⟩ | ⟨-, hu⟩
  · rcases hr with hr | hr
    · rw [hr] at e; cases e
    · exact ⟨t, ht, hr ▸ e⟩
  · exact h1 ⟨u, hu, e⟩

/-- A new thread at `u` serves what `u` serves. -/
theorem Serves.spawn {u : Task} {j k : Nat} (hj : (s.spawn u).Serves j k) :
    s.Serves j k ∨ loServe u = some k := by
  obtain ⟨v, hv, e⟩ := hj
  rcases upd_eq_some hv with ⟨-, rfl⟩ | ⟨-, hv⟩
  · exact .inr e
  · exact .inl ⟨v, hv, e⟩

theorem Serves.wake {j k : Nat} (hj : s.wake.Serves j k) : s.Serves j k := by
  obtain ⟨v, hv, e⟩ := hj
  obtain ⟨v0, hv0, rfl⟩ := Option.map_eq_some'.1 hv
  exact ⟨v0, hv0, (loServe_wakeTask v0).symm.trans e⟩

/-- After a step of one thread, a thread serves only what it served. -/
theorem Shape.serves (hf : s.Fresh) {i j k : Nat} {t : Task} (ht : s.tasks i = some t)
    (h : Shape s i t s') (hj : s'.Serves j k) : s.Serves j k := by
  cases h with
  | move h1 m => exact hj.setTask ht m.serve (.of_tasks h1.tasks)
  | alloc _ _ _ _ hr => exact hj.setTask ht (.inl hr) (.of_tasks rfl)
  | conn h1 _ _ _ _ idle => exact hj.setTask ht (.inl idle.serve) (.of_tasks h1.tasks)
  | spawn _ idle idleU =>
    exact hj.setTask ht (.inl idle.serve) fun h => h.spawn.resolve_right (by rw [idleU.serve]; nofun)
  | announce _ _ _ => exact hj.setTask ht (.inl rfl) (.of_tasks rfl)
  | insert _ hN hl => exact hj.setTask ht (.inl rfl) (.of_tasks (aside_newHostLocked hf hN hl).tasks)
  | insertFail _ _ _ => exact hj.setTask ht (.inl rfl) (.of_tasks rfl)

/-- After a step, a thread serves only what it served, or an OS connection that waited in a
backlog (`_serve`). -/
theorem StepShape.serves (hf : s.Fresh) {j k : Nat} (h : StepShape s s') (hj : s'.Serves j k) :
    s.Serves j k ∨ s.Queued k := by
  cases h with
  | run ht h => exact .inl (h.serves hf ht hj)
  | meet _ hi hi' h1 mi mi' =>
    exact .inl (hj.setTask hi' mi'.serve fun h => h.setTask hi mi.serve (.of_tasks h1.tasks))
  | spawn h1 _ _ hq =>
    rcases hj.spawn with h | h
    · exact .inl (.of_tasks h1.tasks h)
    · exact .inr (hq k h)
  | still h1 => exact .inl (.of_tasks h1.tasks hj)
  | wake h1 => exact .inl (.of_tasks h1.tasks hj.wake)

theorem Aside.queued (ha : Aside s s') {k : Nat} (hk : s'.Queued k) :
    s.Queued k ∨ s.osconns k = none :=
  let ⟨n, N', hN', hk'⟩ := hk
  (ha.backlog n N' k hN' hk').imp (fun ⟨N, hN, h⟩ => ⟨n, N, hN, h⟩) id

/-- After a step, a backlog holds only what a backlog held, or a new OS connection. -/
theorem StepShape.queued (hf : s.Fresh) {k : Nat} (h : StepShape s s') (hk : s'.Queued k) :
    s.Queued k ∨ s.osconns k = none := by
  cases h with
  | run _ h =>
    cases h with
    | move h1 _ => exact h1.queued hk
    | alloc _ _ _ _ _ => exact .inl hk
    | conn h1 _ _ _ _ _ => exact h1.queued hk
    | spawn _ _ _ => exact .inl hk
    | announce _ _ _ => exact .inl hk
    | insert _ hN hl => exact (aside_newHostLocked hf hN hl).queued hk
    | insertFail _ _ _ => exact .inl hk
  | meet _ _ _ h1 _ _ => exact h1.queued hk
  | spawn h1 _ _ _ => exact h1.queued hk
  | still h1 => exact h1.queued hk
  | wake h1 => exact h1.queued hk

/-- OS connection `k` has been handed to thread `i`: it exists, waits in no backlog, and no
other thread serves it. -/
structure Handed (s : Sys) (i k : Nat) : Prop where
  made : ∃ K, s.osconns k = some K
  unqueued : ¬s.Queued k
  only : ∀ j, s.Serves j k → j = i

theorem Handed.step (hf : s.Fresh) {i k : Nat} {a : Act} (h : s.Handed i k)
    (hs : s.step a = some s') : s'.Handed i k := by
  have hsh := step_shape hf hs
  obtain ⟨K, hK⟩ := h.made
  obtain ⟨K', hK', -⟩ := (hsh.le hf).osconns.keep k K hK
  refine ⟨⟨K', hK'⟩, fun hq => ?_, fun j hj => ?_⟩
  · rcases hsh.queued hf hq with hq | hq
    · exact h.unqueued hq
    · rw [hK] at hq; cases hq
  · rcases hsh.serves hf hj with hj | hq
    · exact h.only j hj
    · exact absurd hq h.unqueued

end Sys

/-- Along a run from a reachable state, a handed OS connection stays handed. -/
theorem Sys.Handed.run {s s' : Sys} {i k : Nat} {as : List Act} (hs : Reachable s)
    (h : s.Handed i k) (hr : s.run as = some s') : s'.Handed i k := by
  induction as generalizing s with
  | nil => cases hr; exact h
  | cons a as ih =>
    obtain ⟨s1, h1, h2⟩ := Option.bind_eq_some.1 hr
    exact ih (.step a hs h1) (h.step hs.fresh h1) h2

/-- Every reachable state keeps conns one per socket. -/
theorem Reachable.owned {s : Sys} (h : Reachable s) : s.Owned := by
  induction h with
  | init nets files => exact Sys.owned_init nets files
  | step a hr hs ih => exact (Sys.step_shape hr.fresh hs).owned hr.fresh ih

end Lonet
