import Lonet.Virtnet.Footprint

/-!
# Every select on a closed `_down` has been woken

A thread blocked in a `select` on a listener's `_down` (`listener.accept` at either of its
`select`s, `_vnet_accept` offering its request on `l._dialq`) is woken when `_down` is closed:
`Sys.wake` runs after every step that can close it. No other step closes a listener's `_down`
(`Calm`), and a thread starts to wait only after finding `_down` open, so in every reachable
state no thread waits on a listener that is down (`Reachable.woken`). In particular a
`listener.accept` that finds its listener down cannot be met by a `_vnet_accept`
(`sync_accept_down`).
-/

namespace Lonet

namespace Sys

variable {s s' : Sys}

/-- No thread waits on a listener whose `_down` is closed. -/
def Woken (s : Sys) : Prop := ∀ j t, s.tasks j = some t → s.wakeTask t = t

/-- `wakeTask` reads only the listeners' `_down`. -/
theorem wakeTask_congr (hl : ∀ l, s'.lsnDown l = s.lsnDown l) (t : Task) :
    s'.wakeTask t = s.wakeTask t := by
  unfold wakeTask
  split <;> simp only [hl]

theorem wakeTask_wakeTask (t : Task) : s.wakeTask (s.wakeTask t) = s.wakeTask t := by
  cases t <;> try rfl
  all_goals
    rename_i w
    cases w
    · rfl
    · simp only [wakeTask]; split_ifs <;> simp [wakeTask, *]

theorem wake_woken (s : Sys) : s.wake.Woken := by
  intro j t h
  obtain ⟨t0, -, rfl⟩ := Option.map_eq_some'.1 h
  exact wakeTask_wakeTask t0

/-! ## Steps that close no `_down` and start no thread -/

/-- `s'` has the listeners and threads of `s`. -/
structure Calm (s s' : Sys) : Prop where
  listeners : s'.listeners = s.listeners
  tasks : s'.tasks = s.tasks

theorem Calm.refl (s : Sys) : Calm s s := ⟨rfl, rfl⟩

theorem Calm.trans {s'' : Sys} (h : Calm s s') (h' : Calm s' s'') : Calm s s'' :=
  ⟨h'.listeners.trans h.listeners, h'.tasks.trans h.tasks⟩

theorem Woken.calm (hw : s.Woken) (hc : Calm s s') : s'.Woken := by
  intro j t h
  have hl : ∀ l, s'.lsnDown l = s.lsnDown l := fun l => by simp only [lsnDown, hc.listeners]
  rw [wakeTask_congr hl]
  exact hw j t (hc.tasks ▸ h)

theorem Woken.setTask {i : Nat} {t : Task} (hw : s.Woken) (ht : s.wakeTask t = t) :
    (s.setTask i t).Woken := by
  intro j t' h
  rcases upd_eq_some h with ⟨-, rfl⟩ | ⟨-, h⟩
  · exact ht
  · exact hw j t' h

theorem Woken.spawn {t : Task} (hw : s.Woken) (ht : s.wakeTask t = t) : (s.spawn t).Woken :=
  (hw.setTask ht).calm ⟨rfl, rfl⟩

theorem calm_closeEnd (k : Nat) (side : Side) : Calm s (s.closeEnd k side) :=
  ⟨closeEnd_listeners .., closeEnd_tasks ..⟩

theorem calm_clearSlot {h : Nat} {H : Host} {port : Int} (hc : s.clearSlot h H port = .ok s') :
    Calm s s' := by
  unfold clearSlot at hc
  split at hc <;> cases hc
  exact ⟨rfl, rfl⟩

theorem calm_releaseSlot {h : Nat} {port : Int} (hc : s.releaseSlot h port = some (.ok s')) :
    Calm s s' := by
  unfold releaseSlot at hc
  split at hc
  · split at hc
    · cases hc
    · exact calm_clearSlot (Option.some.inj hc)
  · cases hc

theorem calm_openOsConn (n : Nat) (dialer : Option Nat) (line : Bytes) :
    Calm s (s.openOsConn n dialer line) := by
  unfold openOsConn
  split <;> exact ⟨rfl, rfl⟩

theorem calm_reply {k : Nat} {network text : Bytes} (hr : s.reply k network text = .ok s') :
    Calm s s' := by
  unfold reply at hr
  split at hr
  · split at hr <;> cases hr
    exact ⟨rfl, rfl⟩
  · cases hr

theorem calm_setAcceptor (k sk : Nat) : Calm s (s.setAcceptor k sk) := by
  unfold setAcceptor
  split
  · split <;> exact ⟨rfl, rfl⟩
  · exact ⟨rfl, rfl⟩

theorem calm_vnetAcceptLookup {N : Subnet} {dst : Addr} {r : Except Exc Nat}
    (hv : s.vnetAcceptLookup N dst = some (s', r)) : Calm s s' := by
  unfold vnetAcceptLookup at hv
  repeat' split at hv
  all_goals (cases hv; try exact ⟨rfl, rfl⟩)

theorem calm_newHostLocked {n h : Nat} {N : Subnet} {name : Bytes}
    (hn : s.newHostLocked n N name = .ok (s', h)) : Calm s s' := by
  unfold newHostLocked at hn
  split at hn <;> cases hn
  exact ⟨rfl, rfl⟩

theorem calm_connShutdown (c : Nat) : Calm s (s.connShutdown c) := by
  unfold connShutdown
  split
  · split
    · exact .refl s
    · exact ⟨closeEnd_listeners .., closeEnd_tasks ..⟩
  · exact .refl s

theorem calm_releaseSock {sk : Nat} {S : Sock} {viaPort : Bool} {r : Except Exc Unit}
    (hr : s.releaseSock sk S viaPort = some (s', r)) : Calm s s' := by
  unfold releaseSock at hr
  split at hr
  · cases hr
  · split at hr
    · cases hr
    · dsimp only at hr
      split at hr
      · cases hr; exact ⟨rfl, rfl⟩
      · split at hr
        · cases hr; exact ⟨rfl, rfl⟩
        · split at hr <;> cases hr
          · exact Calm.trans (⟨rfl, rfl⟩ : Calm s (s.setSock sk S)) (calm_clearSlot ‹_›)
          · exact ⟨rfl, rfl⟩

theorem calm_connClose (c : Nat) : Calm s (s.connClose c).1 := by
  have h0 := calm_connShutdown (s := s) c
  unfold connClose
  dsimp only
  split
  · exact h0
  · rename_i C _
    split
    · exact h0
    · have h1 : Calm s ((s.connShutdown c).setConn c { C with closed := true }) :=
        ⟨h0.listeners, h0.tasks⟩
      split
      · exact h1
      · split
        · exact h1.trans (calm_releaseSock ‹_›)
        · exact h1

/-! ## Steps of one thread -/

/-- A new listener, at a free id and open, leaves every `_down` as it was. -/
theorem Woken.listenLocked {h l : Nat} {H : Host} {a : Addr} (hf : s.Fresh) (hw : s.Woken)
    (hl : s.listenLocked h H a = .ok (s', l)) : s'.Woken := by
  have hfree := hf.listeners s.next.succ (Nat.le_succ _)
  have key : ∀ (v : List (Option Nat)) (i : Nat) (port : Int),
      (s.installListener h H v i port).1.Woken := by
    intro v i port
    refine fun j t ht => (wakeTask_congr (fun l => ?_) t).trans (hw j t ht)
    by_cases e : l = s.next + 1
    · subst e; simp [lsnDown, installListener, hfree]
    · simp [lsnDown, installListener, upd_of_ne _ e]
  unfold Sys.listenLocked at hl
  split at hl
  · cases hl; exact key _ _ _
  · dsimp only at hl
    generalize (if 0 ≤ a.port then padTo H.socketv a.port.toNat else H.socketv) = v at hl
    split at hl
    · cases hl
    · split at hl <;> cases hl
      exact key _ _ _

theorem Woken.dialRelease {i h : Nat} {src : Addr} {ctx : Bytes} {e : Exc} (hw : s.Woken)
    (hd : s.dialRelease i h src ctx e = some s') : s'.Woken := by
  unfold Sys.dialRelease at hd
  split at hd <;> cases hd
  · exact (hw.calm (calm_releaseSlot ‹_›)).setTask rfl
  · exact hw.setTask rfl

theorem Woken.loRaise (hw : s.Woken) (i k : Nat) (network : Bytes) (ctx rep : Option Bytes)
    (e : Exc) : (s.loRaise i k network ctx rep e).Woken := by
  unfold Sys.loRaise
  refine Woken.setTask (Woken.calm ?_ (calm_closeEnd ..)) rfl
  split
  · split
    · exact hw.calm (calm_reply ‹_›)
    · exact hw
  · exact hw

theorem Woken.loAckDone (hw : s.Woken) (i k : Nat) (ctx : Bytes) (err : Option Exc) :
    (s.loAckDone i k ctx err).Woken := by
  cases err
  · exact hw.setTask rfl
  · exact (hw.calm (calm_closeEnd ..)).setTask rfl

theorem runTask_woken (hf : s.Fresh) (hw : s.Woken) {i : Nat} {t : Task}
    (hs : s.runTask i t = some s') : s'.Woken := by
  cases t <;> simp only [runTask, Option.bind_eq_bind, Option.bind_eq_some] at hs
  case dial h addr =>
    obtain ⟨H, -, hs⟩ := hs
    split at hs <;> cases hs
    exact (hw.calm ⟨rfl, rfl⟩).setTask rfl
  case dialQuery =>
    obtain ⟨H, -, N, -, src, -, hs⟩ := hs
    split at hs
    · cases hs; exact hw.setTask rfl
    · exact hw.dialRelease hs
  case dialConnect =>
    obtain ⟨H, -, N, -, src, -, hs⟩ := hs
    split at hs
    · cases hs; exact (hw.calm (calm_openOsConn ..)).setTask rfl
    · exact hw.dialRelease hs
  case dialReply h sk dst k =>
    obtain ⟨H, -, N, -, src, -, K, -, N', -, ⟨r, rest⟩, -, hs⟩ := hs
    dsimp only at hs
    split at hs
    · simp only [Option.bind_eq_bind, Option.bind_eq_some] at hs
      obtain ⟨S, -, hs⟩ := hs
      split at hs <;> cases hs
      exact (hw.calm ⟨rfl, rfl⟩).setTask rfl
    · cases hs
      have hc : Calm s ((s.setOsConn k { K with toClient := rest }).closeEnd k .client) :=
        ⟨closeEnd_listeners .., closeEnd_tasks ..⟩
      exact (hw.calm hc).setTask rfl
  case dialRelease => exact hw.dialRelease hs
  case accept l waiting =>
    split at hs
    · cases hs
    · split at hs <;> cases hs
      · exact hw.setTask rfl
      · exact hw.setTask (by simp [wakeTask, *])
  case acceptDown =>
    obtain ⟨L, -, S, -, H, -, N, -, a, -, hs⟩ := hs
    cases hs; exact hw.setTask rfl
  case acceptAlloc =>
    obtain ⟨L, -, S, -, H, -, hs⟩ := hs
    split at hs <;> cases hs
    exact (hw.calm ⟨rfl, rfl⟩).setTask rfl
  case acceptAck l req sk waiting =>
    split at hs
    · cases hs
    · split at hs <;> cases hs
      · exact hw.setTask rfl
      · exact hw.setTask (by simp [wakeTask, *])
  case acceptAckDown =>
    obtain ⟨L, -, S, -, H, -, N, -, a, -, hs⟩ := hs
    cases hs; exact (hw.spawn rfl).setTask rfl
  case acceptFinish =>
    obtain ⟨L, -, S, -, H, -, N, -, a, -, P, -, hs⟩ := hs
    split at hs
    · cases hs
    · split at hs
      · split at hs <;> cases hs
        · exact (hw.calm (calm_clearSlot ‹_›)).setTask rfl
        · exact hw.setTask rfl
      · cases hs; exact (hw.calm ⟨rfl, rfl⟩).setTask rfl
  case purgeFinish =>
    cases hs
    split
    · exact (hw.calm (calm_closeEnd ..)).setTask rfl
    · exact hw.setTask rfl
  case purgeRelease =>
    obtain ⟨P, -, hs⟩ := hs
    split at hs <;> cases hs
    · exact (hw.calm (calm_releaseSlot ‹_›)).setTask rfl
    · exact hw.setTask rfl
  case loStart =>
    obtain ⟨N, -, hs⟩ := hs
    split at hs <;> (cases hs; exact hw.setTask rfl)
  case loRead n k =>
    obtain ⟨N, -, K, -, ⟨r, rest⟩, -, hs⟩ := hs
    have h1 : (s.setOsConn k { K with toServer := rest }).Woken := hw.calm ⟨rfl, rfl⟩
    dsimp only at hs
    split at hs
    · cases hs; exact h1.loRaise _ _ _ _ _ _
    · split at hs
      · cases hs; exact h1.loRaise _ _ _ _ _ _
      · split at hs
        · cases hs
        · cases hs; exact (h1.calm (calm_vnetAcceptLookup ‹_›)).setTask rfl
        · cases hs; exact (h1.calm (calm_vnetAcceptLookup ‹_›)).loRaise _ _ _ _ _ _
  case loSelect n k ctx l req waiting =>
    split at hs
    · cases hs
    · split at hs <;> cases hs
      · exact hw.setTask rfl
      · exact hw.setTask (by simp [wakeTask, *])
  case loRefused =>
    obtain ⟨N, -, hs⟩ := hs
    cases hs; exact hw.loRaise _ _ _ _ _ _
  case loReply =>
    obtain ⟨N, -, hs⟩ := hs
    split at hs <;> cases hs
    · exact (hw.calm (calm_reply ‹_›)).setTask rfl
    · exact hw.setTask rfl
  case listen =>
    obtain ⟨H, -, N, -, hs⟩ := hs
    split at hs <;> (cases hs; exact hw.setTask rfl)
  case listenLocked =>
    obtain ⟨H, -, hs⟩ := hs
    split at hs
    · cases hs
    · split at hs <;> cases hs
      · exact (hw.listenLocked hf ‹_›).setTask rfl
      · exact hw.setTask rfl
  case newHost =>
    obtain ⟨N, -, hs⟩ := hs
    split at hs <;> cases hs
    · exact (hw.calm ⟨rfl, rfl⟩).setTask rfl
    · exact hw.setTask rfl
  case newHostInsert =>
    obtain ⟨N, -, hs⟩ := hs
    split at hs
    · cases hs
    · split at hs <;> cases hs
      · exact (hw.calm (calm_newHostLocked ‹_›)).setTask rfl
      · exact hw.setTask rfl
  all_goals cases hs

theorem meet_woken (hw : s.Woken) {i j : Nat} {ti tj : Task} (hs : s.meet i ti j tj = some s') :
    s'.Woken := by
  cases meet_some hs
  case selectAccept | acceptSelect => exact (hw.setTask rfl).setTask rfl
  case respLo | loResp => exact ((hw.calm (calm_setAcceptor ..)).setTask rfl).setTask rfl
  all_goals exact (hw.loAckDone _ _ _ _).setTask rfl

theorem step_woken (hf : s.Fresh) (hw : s.Woken) {a : Act} (hs : s.step a = some s') :
    s'.Woken := by
  cases a <;> simp only [step, Option.map_eq_some', Option.bind_eq_bind, Option.bind_eq_some] at hs
  case dial | accept | listen | newHost =>
    obtain ⟨_, -, rfl⟩ := hs; exact hw.spawn rfl
  case closeListener | closeHost | closeNet => cases hs; exact wake_woken _
  case closeConn => cases hs; exact hw.calm (calm_connClose _)
  case serve =>
    obtain ⟨N, -, hs⟩ := hs
    split at hs
    · cases hs
    · split at hs <;> cases hs
      exact (hw.calm ⟨rfl, rfl⟩).spawn rfl
  case serveFail =>
    obtain ⟨N, -, hs⟩ := hs
    split at hs <;> cases hs
    exact wake_woken _
  case foreignDial =>
    obtain ⟨N, -, hs⟩ := hs
    split at hs <;> cases hs
    exact hw.calm (calm_openOsConn ..)
  case foreignClose =>
    obtain ⟨K, -, hs⟩ := hs
    split at hs <;> cases hs
    exact hw.calm (calm_closeEnd ..)
  case run => obtain ⟨t, -, hs⟩ := hs; exact runTask_woken hf hw hs
  case sync =>
    obtain ⟨ti, -, tj, -, hs⟩ := hs
    split at hs
    · cases hs
    · exact meet_woken hw hs

/-- Thread `i` meets no other thread: it moves only on its own. -/
def Alone (s : Sys) (i : Nat) : Prop := ∀ j, s.step (.sync i j) = none ∧ s.step (.sync j i) = none

/-- A `listener.accept` that has found its listener down meets no thread. -/
theorem sync_accept_down (hw : s.Woken) {i l : Nat} (ht : s.tasks i = some (.accept l false))
    (hd : s.lsnDown l = true) : s.Alone i := by
  intro j
  simp only [step, ht, Option.bind_eq_bind, Option.some_bind]
  cases htj : s.tasks j with
  | none => exact ⟨rfl, rfl⟩
  | some tj =>
    simp only [Option.some_bind]
    refine ⟨?_, ?_⟩ <;> split <;> (try rfl) <;>
      refine Option.eq_none_iff_forall_not_mem.2 fun s' hs => ?_ <;> cases meet_some hs
    -- only a `select` waiting on `l` could take the `accept`, and it has seen `l` down
    have hwj := hw j _ htj
    simp [wakeTask, hd] at hwj

end Sys

/-- **No thread waits on a closed `_down`.** -/
theorem Reachable.woken {s : Sys} (h : Reachable s) : s.Woken := by
  induction h with
  | init => exact fun _ _ h => by cases h
  | step a hr hs ih => exact Sys.step_woken hr.fresh ih hs

end Lonet
