import Lonet.Virtnet.State

/-!
# The registry's connection pool

`DBPool` (`xnet/lonet/__init__.py:981-1050`) hands the SQLite connections of a registry to the
threads of one process. `get` pops a free connection under `_lock`, or, when none is free,
opens one with `factory()` after releasing the lock; `put` appends a connection to the free
list under `_lock`, or, once the pool is closed, closes it after releasing the lock; `close`
clears `_factory` and takes the free list under `_lock`, then closes what it took. `xget`
(`_DBPoolContext`) is a `get` and a later `put`.

The model runs any number of client threads, each making these calls one after another, and
takes one step per critical section and per call made outside the lock (`DBPool.step`), so
every interleaving is a run. A client puts back only a connection it got and has not put back
yet. In every reachable state each connection `factory()` made is in one place: free, held by
one thread, or being closed by one; or it is in no place and was closed once (`DBPool.Inv`).
Read off the invariant (`pool_safe`):

1. `get` never hands out a connection a thread holds, and the free list holds none;
2. no connection is closed twice, or while a thread holds it; once the pool is closed and
   every call has returned, every connection no thread holds was closed once;
3. once a `close` has returned, every `get` raises.

A second invariant, `DBPool.OpenInv`, says that a `put` closes only on a closed pool, so that an
open pool loses no connection (`open_pool_no_leak`): nothing is closed, and with no call running
each connection `factory()` made is free or held.
-/

namespace Lonet

namespace DBPool

/-- Where a thread is between the critical sections of a pool call. -/
inductive Phase where
  | idle
  /-- In `get`, the pool found open with no free connection: calling `factory()`. -/
  | opening
  /-- In `put`, the pool found closed: calling `conn.close()` on `c`. -/
  | putClosing (c : Nat)
  /-- In `close`, past the critical section: closing `cs`, in order. -/
  | closing (cs : List Nat)
  deriving DecidableEq, Repr

/-- A client thread: its phase, and the connections it got and has not put back. -/
structure Thread where
  phase : Phase
  held : List Nat
  deriving DecidableEq, Repr

/-- The ways a thread can have a connection. -/
inductive Hold where
  | held | putClosing | closing
  deriving DecidableEq, Repr

/-- Thread `T` has connection `c` in way `k`. -/
def Thread.Has (T : Thread) (c : Nat) : Hold → Prop
  | .held => c ∈ T.held
  | .putClosing => T.phase = .putClosing c
  | .closing => ∃ cs, T.phase = .closing cs ∧ c ∈ cs

end DBPool

/-- `DBPool` and its client threads. `factory` is whether `_factory` is set, `connv` the free
list, `next` the number of connections `factory()` has made (numbered from `0`). `closes c`,
the number of `conn.close()` calls on `c`, and `closeReturned`, whether a `close` has returned,
are ghost state. -/
structure DBPool where
  factory : Bool
  connv : List Nat
  next : Nat
  threads : Nat → DBPool.Thread
  closes : Nat → Nat
  closeReturned : Bool

namespace DBPool

/-- `DBPool(dburi)`, with no call running. -/
def init : DBPool := ⟨true, [], 0, fun _ => ⟨.idle, []⟩, fun _ => 0, false⟩

def setThread (p : DBPool) (t : Nat) (T : Thread) : DBPool := { p with threads := upd p.threads t T }

/-- `conn.close()` on connection `c`. -/
def closeConn (p : DBPool) (c : Nat) : DBPool := { p with closes := upd p.closes c (p.closes c + 1) }

/-- The `RuntimeError` of `get` on a closed pool. -/
def getOnClosed : Exc := .runtimeError (ascii "sqlite: pool: get on closed pool")

/-- The critical section of `get`: raise on a closed pool, else the last free connection, or
`none` when the free list is empty and `factory()` is to be called. -/
def getLocked (p : DBPool) : Except Exc (Option Nat) :=
  if p.factory then .ok p.connv.getLast? else .error getOnClosed

/-- A step of thread `t`. -/
inductive Act where
  /-- The critical section of `get`. -/
  | get (t : Nat)
  /-- `factory()` returns a new connection to `get`. -/
  | open (t : Nat)
  /-- The critical section of `put(c)`. -/
  | put (t c : Nat)
  /-- The `conn.close()` of a `put` on a closed pool. -/
  | putClose (t : Nat)
  /-- The critical section of `close`. -/
  | close (t : Nat)
  /-- The next `conn.close()` of `close`, or its return. -/
  | closeNext (t : Nat)
  deriving DecidableEq, Repr

/-- One step; `none` when thread `t` cannot take it. `put(c)` is taken only by a thread that
holds `c`. -/
def step (p : DBPool) : Act → Option DBPool
  | .get t =>
    let T := p.threads t
    if T.phase = .idle then
      match getLocked p with
      | .error _ => some p
      | .ok (some c) =>
        some (setThread { p with connv := p.connv.dropLast } t { T with held := T.held ++ [c] })
      | .ok none => some (p.setThread t { T with phase := .opening })
    else none
  | .open t =>
    let T := p.threads t
    if T.phase = .opening then
      some (setThread { p with next := p.next + 1 } t ⟨.idle, T.held ++ [p.next]⟩)
    else none
  | .put t c =>
    let T := p.threads t
    if T.phase = .idle ∧ c ∈ T.held then
      if p.factory then
        some (setThread { p with connv := p.connv ++ [c] } t { T with held := T.held.erase c })
      else some (p.setThread t ⟨.putClosing c, T.held.erase c⟩)
    else none
  | .putClose t =>
    match (p.threads t).phase with
    | .putClosing c => some ((p.closeConn c).setThread t { p.threads t with phase := .idle })
    | _ => none
  | .close t =>
    let T := p.threads t
    if T.phase = .idle then
      some (setThread { p with factory := false, connv := [] } t { T with phase := .closing p.connv })
    else none
  | .closeNext t =>
    match (p.threads t).phase with
    | .closing (c :: cs) =>
      some ((p.closeConn c).setThread t { p.threads t with phase := .closing cs })
    | .closing [] =>
      some (setThread { p with closeReturned := true } t { p.threads t with phase := .idle })
    | _ => none

/-- The steps `as`, one after another. -/
def run (p : DBPool) : List Act → Option DBPool
  | [] => some p
  | a :: as => p.step a >>= fun p' => p'.run as

/-- The states some interleaving reaches from a new pool. -/
inductive Reachable : DBPool → Prop where
  | init : Reachable init
  | step {p p' : DBPool} (a : Act) : Reachable p → p.step a = some p' → Reachable p'

/-! ## Where a connection is -/

/-- A place of a connection: the free list, or one of the ways a thread has it. -/
inductive Place where
  | free
  | thread (t : Nat) (k : Hold)
  deriving DecidableEq, Repr

/-- Connection `c` is at place `q`. -/
def At (p : DBPool) (c : Nat) : Place → Prop
  | .free => c ∈ p.connv
  | .thread t k => (p.threads t).Has c k

/-- Each connection is in at most one place, at most once there; the ones `factory()` made
are in a place and open, or in none and closed once. -/
structure Inv (p : DBPool) : Prop where
  unique : ∀ c q q', p.At c q → p.At c q' → q = q'
  nodupFree : p.connv.Nodup
  nodupHeld : ∀ t, (p.threads t).held.Nodup
  nodupClosing : ∀ t cs, (p.threads t).phase = .closing cs → cs.Nodup
  made : ∀ c q, p.At c q → c < p.next
  fate : ∀ c, c < p.next →
    ((∃ q, p.At c q) ∧ p.closes c = 0) ∨ ((∀ q, ¬p.At c q) ∧ p.closes c = 1)
  unmade : ∀ c, p.next ≤ c → p.closes c = 0
  /-- A closed pool keeps its free list empty. -/
  shut : p.factory = false → p.connv = []
  closingShut : ∀ t cs, (p.threads t).phase = .closing cs → p.factory = false
  returned : p.closeReturned = true → p.factory = false

/-! ## Steps move one connection -/

section Transfer

variable {p p' : DBPool}

@[simp] theorem at_free (p : DBPool) (c : Nat) : p.At c .free ↔ c ∈ p.connv := Iff.rfl

@[simp] theorem at_thread (p : DBPool) (c t : Nat) (k : Hold) :
    p.At c (.thread t k) ↔ (p.threads t).Has c k := Iff.rfl

@[simp] theorem threads_setThread (p : DBPool) (t : Nat) (T : Thread) (t' : Nat) :
    (p.setThread t T).threads t' = if t' = t then T else p.threads t' := rfl

@[simp] theorem connv_setThread (p : DBPool) (t : Nat) (T : Thread) :
    (p.setThread t T).connv = p.connv := rfl

@[simp] theorem next_setThread (p : DBPool) (t : Nat) (T : Thread) :
    (p.setThread t T).next = p.next := rfl

@[simp] theorem closes_setThread (p : DBPool) (t : Nat) (T : Thread) :
    (p.setThread t T).closes = p.closes := rfl

@[simp] theorem factory_setThread (p : DBPool) (t : Nat) (T : Thread) :
    (p.setThread t T).factory = p.factory := rfl

@[simp] theorem closeReturned_setThread (p : DBPool) (t : Nat) (T : Thread) :
    (p.setThread t T).closeReturned = p.closeReturned := rfl

@[simp] theorem connv_closeConn (p : DBPool) (c : Nat) : (p.closeConn c).connv = p.connv := rfl

@[simp] theorem threads_closeConn (p : DBPool) (c : Nat) :
    (p.closeConn c).threads = p.threads := rfl

@[simp] theorem next_closeConn (p : DBPool) (c : Nat) : (p.closeConn c).next = p.next := rfl

@[simp] theorem factory_closeConn (p : DBPool) (c : Nat) :
    (p.closeConn c).factory = p.factory := rfl

@[simp] theorem closeReturned_closeConn (p : DBPool) (c : Nat) :
    (p.closeConn c).closeReturned = p.closeReturned := rfl

@[simp] theorem has_held (T : Thread) (c : Nat) : T.Has c .held ↔ c ∈ T.held := Iff.rfl

@[simp] theorem has_putClosing (T : Thread) (c : Nat) :
    T.Has c .putClosing ↔ T.phase = .putClosing c := Iff.rfl

@[simp] theorem has_closing (T : Thread) (c : Nat) :
    T.Has c .closing ↔ ∃ cs, T.phase = .closing cs ∧ c ∈ cs := Iff.rfl

/-- The nodup fields of `Inv`. -/
def Nodups (p : DBPool) : Prop :=
  p.connv.Nodup ∧ (∀ t, (p.threads t).held.Nodup) ∧
    ∀ t cs, (p.threads t).phase = .closing cs → cs.Nodup

/-- The fields of `Inv` about a closed pool. -/
def Shut (p : DBPool) : Prop :=
  (p.factory = false → p.connv = []) ∧
    (∀ t cs, (p.threads t).phase = .closing cs → p.factory = false) ∧
    (p.closeReturned = true → p.factory = false)

theorem Inv.closes_of_at (hi : p.Inv) {c : Nat} {q : Place} (h : p.At c q) : p.closes c = 0 := by
  rcases hi.fate c (hi.made c q h) with ⟨-, h0⟩ | ⟨hn, -⟩
  · exact h0
  · exact absurd h (hn q)

/-- A step that moves connection `c` from a place to `dst`, or closes it (`dst = none`), and
leaves every other connection where it was. -/
theorem Inv.move (hi : p.Inv) {c : Nat} (q1 : Place) (dst : Option Place) (h1 : p.At c q1)
    (hat : ∀ c' q, p'.At c' q ↔ if c' = c then dst = some q else p.At c' q)
    (hnext : p'.next = p.next)
    (hcl : p'.closes = if dst = none then upd p.closes c (p.closes c + 1) else p.closes)
    (hnd : p'.Nodups) (hs : p'.Shut) : p'.Inv := by
  have hc0 := hi.closes_of_at h1
  have hcl' : ∀ c', c' ≠ c → p'.closes c' = p.closes c' := fun c' e => by
    rw [hcl]; split <;> simp [upd_of_ne _ e]
  refine ⟨fun c' q q' h h' => ?_, hnd.1, hnd.2.1, hnd.2.2, fun c' q h => ?_, fun c' hc => ?_,
    fun c' hc => ?_, hs.1, hs.2.1, hs.2.2⟩
  · rw [hat] at h h'
    split at h
    · rw [if_pos ‹_›] at h'; exact Option.some.inj (h.symm.trans h')
    · rw [if_neg ‹_›] at h'; exact hi.unique c' q q' h h'
  · rw [hat] at h; rw [hnext]
    split at h
    · subst c'; exact hi.made c q1 h1
    · exact hi.made c' q h
  · rw [hnext] at hc
    by_cases e : c' = c
    · subst c'
      cases hd : dst with
      | some q2 => exact .inl ⟨⟨q2, by rw [hat, if_pos rfl, hd]⟩, by rw [hcl, hd]; exact hc0⟩
      | none =>
        refine .inr ⟨fun q h => ?_, by rw [hcl, hd]; simp [hc0]⟩
        rw [hat, if_pos rfl, hd] at h; cases h
    · simp only [hat, if_neg e, hcl' c' e]; exact hi.fate c' hc
  · have : c' ≠ c := fun e => by subst c'; have := hi.made c q1 h1; omega
    rw [hcl' c' this]; exact hi.unmade c' (hnext ▸ hc)

/-- A step that places the new connection `p.next` at `q2`, and moves no other. -/
theorem Inv.add (hi : p.Inv) (q2 : Place)
    (hat : ∀ c' q, p'.At c' q ↔ if c' = p.next then q = q2 else p.At c' q)
    (hnext : p'.next = p.next + 1) (hcl : p'.closes = p.closes)
    (hnd : p'.Nodups) (hs : p'.Shut) : p'.Inv := by
  refine ⟨fun c' q q' h h' => ?_, hnd.1, hnd.2.1, hnd.2.2, fun c' q h => ?_, fun c' hc => ?_,
    fun c' hc => ?_, hs.1, hs.2.1, hs.2.2⟩
  · rw [hat] at h h'
    split at h
    · rw [if_pos ‹_›] at h'; exact h.trans h'.symm
    · rw [if_neg ‹_›] at h'; exact hi.unique c' q q' h h'
  · rw [hat] at h; rw [hnext]
    split at h
    · omega
    · have := hi.made c' q h; omega
  · rw [hnext] at hc
    by_cases e : c' = p.next
    · exact .inl ⟨⟨q2, by rw [hat, if_pos e]⟩, by rw [hcl]; exact hi.unmade c' e.ge⟩
    · simp only [hat, if_neg e, hcl]; exact hi.fate c' (by omega)
  · rw [hcl]; exact hi.unmade c' (by omega)

/-- A step that moves no connection. -/
theorem Inv.same (hi : p.Inv) (hat : ∀ c q, p'.At c q ↔ p.At c q) (hnext : p'.next = p.next)
    (hcl : p'.closes = p.closes) (hnd : p'.Nodups) (hs : p'.Shut) : p'.Inv where
  unique c q q' h h' := hi.unique c q q' ((hat c q).1 h) ((hat c q').1 h')
  nodupFree := hnd.1
  nodupHeld := hnd.2.1
  nodupClosing := hnd.2.2
  made c q h := hnext ▸ hi.made c q ((hat c q).1 h)
  fate c hc := by simp only [hat, hcl]; exact hi.fate c (hnext ▸ hc)
  unmade c hc := hcl ▸ hi.unmade c (hnext ▸ hc)
  shut := hs.1
  closingShut := hs.2.1
  returned := hs.2.2

end Transfer

/-! ## Every step keeps the invariant -/

section Steps

variable {p : DBPool} {t : Nat}

theorem Inv.not_at_of_free (hi : p.Inv) {c : Nat} (h : c ∈ p.connv) (t' : Nat) (k : Hold) :
    ¬(p.threads t').Has c k := fun h' => by cases hi.unique c .free (.thread t' k) h h'

/-- A connection a thread has is not free, and that thread has it in that one way. -/
theorem Inv.only (hi : p.Inv) {c : Nat} {k : Hold} (h : (p.threads t).Has c k) :
    c ∉ p.connv ∧ ∀ t' k', (p.threads t').Has c k' → t' = t ∧ k' = k := by
  refine ⟨fun h' => hi.not_at_of_free h' t k h, fun t' k' h' => ?_⟩
  cases hi.unique c (.thread t k) (.thread t' k') h h'
  exact ⟨rfl, rfl⟩

/-- The nodup fields after thread `t` changes to `T`, the rest of the threads as in `p`. -/
theorem Inv.nodups_setThread (hi : p.Inv) {p0 : DBPool} {T : Thread} (h0 : p0.threads = p.threads)
    (hc : p0.connv.Nodup) (hT : T.held.Nodup) (hTc : ∀ cs, T.phase = .closing cs → cs.Nodup) :
    (p0.setThread t T).Nodups := by
  refine ⟨hc, fun t' => ?_, fun t' cs h => ?_⟩
  · by_cases et : t' = t
    · simpa [et] using hT
    · simpa [et, h0] using hi.nodupHeld t'
  · by_cases et : t' = t
    · simp only [threads_setThread, et, if_true] at h; exact hTc cs h
    · simp only [threads_setThread, et, if_false, h0] at h; exact hi.nodupClosing t' cs h

/-- The closed-pool fields after thread `t` changes to `T`, the rest as in `p`. -/
theorem Inv.shut_setThread (hi : p.Inv) {p0 : DBPool} {T : Thread} (h0 : p0.threads = p.threads)
    (hf : p.factory = false → p0.factory = false) (hs : p0.factory = false → p0.connv = [])
    (hT : ∀ cs, T.phase = .closing cs → p0.factory = false)
    (hr : p0.closeReturned = true → p0.factory = false) : (p0.setThread t T).Shut := by
  refine ⟨hs, fun t' cs h => ?_, hr⟩
  by_cases et : t' = t
  · simp only [threads_setThread, et, if_true] at h; exact hT cs h
  · simp only [threads_setThread, et, if_false, h0] at h; exact hf (hi.closingShut t' cs h)

/-- `get` pops the last free connection `c`. -/
theorem Inv.get_pop (hi : p.Inv) {c : Nat} (ht : (p.threads t).phase = .idle)
    (hc : p.connv.getLast? = some c) :
    (setThread { p with connv := p.connv.dropLast } t
      { p.threads t with held := (p.threads t).held ++ [c] }).Inv := by
  obtain ⟨l, hl⟩ := List.getLast?_eq_some_iff.1 hc
  have hnd := hi.nodupFree
  rw [hl, List.nodup_append] at hnd
  have hcl : c ∉ l := fun h => hnd.2.2 h (List.mem_singleton_self c)
  have hfree := hi.not_at_of_free (hl ▸ List.mem_append_right l (List.mem_singleton_self c))
  refine hi.move (c := c) .free (some (.thread t .held)) (by simp [hl]) (fun c' q => ?_) rfl
    (by simp) (hi.nodups_setThread rfl (by simpa [hl] using hnd.1)
      (List.nodup_append.2 ⟨hi.nodupHeld t, List.nodup_singleton c,
        List.disjoint_singleton.2 (hfree t .held)⟩) (by simp [ht]))
    (hi.shut_setThread rfl id (fun hf => by rw [hi.shut hf] at hc; cases hc) (by simp [ht])
      hi.returned)
  cases q with
  | free => by_cases e : c' = c <;> simp [hl, e, hcl]
  | thread t' k =>
    by_cases et : t' = t
    · subst et; cases k <;> by_cases e : c' = c <;> simp [e, ht, hfree]
    · by_cases e : c' = c <;> simp [et, Ne.symm et, e, hfree]

/-- `get` finds no free connection and goes to call `factory()`. -/
theorem Inv.get_open (hi : p.Inv) (ht : (p.threads t).phase = .idle) :
    (p.setThread t { p.threads t with phase := .opening }).Inv := by
  refine hi.same (fun c q => ?_) rfl rfl (hi.nodups_setThread rfl hi.nodupFree (hi.nodupHeld t)
    (by simp)) (hi.shut_setThread rfl id hi.shut (by simp) hi.returned)
  cases q with
  | free => rfl
  | thread t' k =>
    by_cases et : t' = t
    · subst et; cases k <;> simp [ht]
    · simp [et]

/-- `factory()` returns the new connection `p.next` to thread `t`. -/
theorem Inv.open (hi : p.Inv) (ht : (p.threads t).phase = .opening) :
    (setThread { p with next := p.next + 1 } t ⟨.idle, (p.threads t).held ++ [p.next]⟩).Inv := by
  have hnew : ∀ q, ¬p.At p.next q := fun q h => by have := hi.made _ q h; omega
  refine hi.add (.thread t .held) (fun c' q => ?_) rfl rfl (hi.nodups_setThread rfl hi.nodupFree
      (List.nodup_append.2 ⟨hi.nodupHeld t, List.nodup_singleton _,
        List.disjoint_singleton.2 (hnew (.thread t .held))⟩) (by simp))
    (hi.shut_setThread rfl id hi.shut (by simp) hi.returned)
  cases q with
  | free =>
    have : p.next ∉ p.connv := hnew .free
    by_cases e : c' = p.next <;> simp [e, this]
  | thread t' k =>
    have : ∀ k, ¬(p.threads t').Has p.next k := fun k => hnew (.thread t' k)
    by_cases et : t' = t
    · subst et; cases k <;> by_cases e : c' = p.next <;> simp_all
    · by_cases e : c' = p.next <;> simp [et, Ne.symm et, e, this]

/-- `put(c)` on an open pool appends `c` to the free list. -/
theorem Inv.put_open (hi : p.Inv) {c : Nat} (ht : (p.threads t).phase = .idle)
    (hc : c ∈ (p.threads t).held) (hf : p.factory = true) :
    (setThread { p with connv := p.connv ++ [c] } t
      { p.threads t with held := (p.threads t).held.erase c }).Inv := by
  obtain ⟨hcf, hone⟩ := hi.only (k := .held) hc
  have hnd := hi.nodupHeld t
  refine hi.move (c := c) (.thread t .held) (some .free) hc (fun c' q => ?_) rfl (by simp)
    (hi.nodups_setThread rfl (List.nodup_append.2 ⟨hi.nodupFree, List.nodup_singleton c,
      List.disjoint_singleton.2 hcf⟩) (hnd.erase c) (by simp [ht]))
    (hi.shut_setThread rfl id (fun h => by simp [hf] at h) (by simp [ht]) hi.returned)
  have hother : ∀ t' k, t' ≠ t → ¬(p.threads t').Has c k := fun t' k e h => e (hone t' k h).1
  cases q with
  | free => by_cases e : c' = c <;> simp [e, hcf]
  | thread t' k =>
    by_cases et : t' = t
    · subst et
      cases k <;> by_cases e : c' = c <;> simp [e, ht, hnd.not_mem_erase, List.mem_erase_of_ne]
    · by_cases e : c' = c <;> simp [et, Ne.symm et, e, hother t' k et]

/-- `put(c)` on a closed pool gives `c` up, to close it outside the lock. -/
theorem Inv.put_closed (hi : p.Inv) {c : Nat} (ht : (p.threads t).phase = .idle)
    (hc : c ∈ (p.threads t).held) :
    (p.setThread t ⟨.putClosing c, (p.threads t).held.erase c⟩).Inv := by
  obtain ⟨hcf, hone⟩ := hi.only (k := .held) hc
  have hnd := hi.nodupHeld t
  refine hi.move (c := c) (.thread t .held) (some (.thread t .putClosing)) hc (fun c' q => ?_) rfl
    (by simp) (hi.nodups_setThread rfl hi.nodupFree (hnd.erase c) (by simp))
    (hi.shut_setThread rfl id hi.shut (by simp) hi.returned)
  have hother : ∀ t' k, t' ≠ t → ¬(p.threads t').Has c k := fun t' k e h => e (hone t' k h).1
  cases q with
  | free => by_cases e : c' = c <;> simp [e, hcf]
  | thread t' k =>
    by_cases et : t' = t
    · subst et
      rcases eq_or_ne c' c with rfl | e
      · cases k <;> simp [ht, hnd.not_mem_erase]
      · cases k <;> simp [e, e.symm, ht, List.mem_erase_of_ne]
    · by_cases e : c' = c <;> simp [et, Ne.symm et, e, hother t' k et]

/-- The `conn.close()` of a `put` on a closed pool. -/
theorem Inv.putClose (hi : p.Inv) {c : Nat} (ht : (p.threads t).phase = .putClosing c) :
    ((p.closeConn c).setThread t { p.threads t with phase := .idle }).Inv := by
  obtain ⟨hcf, hone⟩ := hi.only (k := .putClosing) ht
  have hch : c ∉ (p.threads t).held := fun h => by cases (hone t .held h).2
  refine hi.move (c := c) (.thread t .putClosing) none ht (fun c' q => ?_) rfl rfl
    (hi.nodups_setThread rfl hi.nodupFree (hi.nodupHeld t) (by simp))
    (hi.shut_setThread rfl id hi.shut (by simp) hi.returned)
  cases q with
  | free => by_cases e : c' = c <;> simp [e, hcf]
  | thread t' k =>
    by_cases et : t' = t
    · subst et
      rcases eq_or_ne c' c with rfl | e
      · cases k <;> simp [ht, hch]
      · cases k <;> simp [e, e.symm, ht]
    · by_cases e : c' = c <;> simp [et, e]
      exact fun h => et (hone t' k h).1

/-- The critical section of `close`: the free list goes to thread `t`, to be closed. -/
theorem Inv.close (hi : p.Inv) (ht : (p.threads t).phase = .idle) :
    (setThread { p with factory := false, connv := [] } t
      { p.threads t with phase := .closing p.connv }).Inv := by
  let g : Place → Place := fun q => if q = .thread t .closing then .free else q
  have hat : ∀ c q, (setThread { p with factory := false, connv := [] } t
      { p.threads t with phase := .closing p.connv }).At c q ↔ q ≠ .free ∧ p.At c (g q) := by
    intro c q
    cases q with
    | free => simp
    | thread t' k =>
      by_cases et : t' = t
      · subst et; cases k <;> simp [g, ht]
      · simp [g, et]
  have hg : ∀ c q, p.At c q → q ≠ .thread t .closing := by
    rintro c q h rfl; simp [ht] at h
  refine ⟨fun c q q' h h' => ?_, List.nodup_nil, fun t' => ?_, fun t' cs h => ?_,
    fun c q h => hi.made c _ ((hat c q).1 h).2, fun c hc => ?_, hi.unmade, fun _ => rfl,
    fun _ _ _ => rfl, fun _ => rfl⟩
  · obtain ⟨hq, h⟩ := (hat c q).1 h
    obtain ⟨hq', h'⟩ := (hat c q').1 h'
    have e := hi.unique c _ _ h h'
    simp only [g] at e
    split_ifs at e <;> simp_all
  · by_cases et : t' = t
    · subst et; simpa using hi.nodupHeld t'
    · simpa [et] using hi.nodupHeld t'
  · by_cases et : t' = t
    · subst et; simp only [threads_setThread, if_true, Phase.closing.injEq] at h
      exact h ▸ hi.nodupFree
    · simp only [threads_setThread, et, if_false] at h; exact hi.nodupClosing t' cs h
  · rcases hi.fate c hc with ⟨⟨q, h⟩, h0⟩ | ⟨hn, h1⟩
    · refine .inl ⟨⟨if q = .free then .thread t .closing else q, (hat c _).2 ?_⟩, h0⟩
      split_ifs with e
      · subst e; exact ⟨by simp, by simpa [g] using h⟩
      · exact ⟨e, by simpa [g, hg c q h] using h⟩
    · exact .inr ⟨fun q h => hn _ ((hat c q).1 h).2, h1⟩

/-- The next `conn.close()` of `close`. -/
theorem Inv.closeNext (hi : p.Inv) {c : Nat} {cs : List Nat}
    (ht : (p.threads t).phase = .closing (c :: cs)) :
    ((p.closeConn c).setThread t { p.threads t with phase := .closing cs }).Inv := by
  have hc : (p.threads t).Has c .closing := ⟨_, ht, List.mem_cons_self c cs⟩
  obtain ⟨hcf, hone⟩ := hi.only hc
  have hnd := List.nodup_cons.1 (hi.nodupClosing t _ ht)
  have hch : c ∉ (p.threads t).held := fun h => by cases (hone t .held h).2
  refine hi.move (c := c) (.thread t .closing) none hc (fun c' q => ?_) rfl rfl
    (hi.nodups_setThread rfl hi.nodupFree (hi.nodupHeld t) (by simpa using hnd.2))
    (hi.shut_setThread rfl id hi.shut (fun _ _ => hi.closingShut t _ ht) hi.returned)
  cases q with
  | free => by_cases e : c' = c <;> simp [e, hcf]
  | thread t' k =>
    by_cases et : t' = t
    · subst et
      cases k <;> by_cases e : c' = c <;> simp [e, ht, hch, hnd.1]
    · by_cases e : c' = c <;> simp [et, e]
      exact fun h => et (hone t' k h).1

/-- `close` returns. -/
theorem Inv.closeReturn (hi : p.Inv) (ht : (p.threads t).phase = .closing []) :
    (setThread { p with closeReturned := true } t { p.threads t with phase := .idle }).Inv := by
  refine hi.same (fun c q => ?_) rfl rfl (hi.nodups_setThread rfl hi.nodupFree (hi.nodupHeld t)
    (by simp)) (hi.shut_setThread rfl id hi.shut (by simp) fun _ => hi.closingShut t _ ht)
  cases q with
  | free => rfl
  | thread t' k =>
    by_cases et : t' = t
    · subst et; cases k <;> simp [ht]
    · simp [et]

theorem step_inv (hi : p.Inv) {a : Act} {p' : DBPool} (hs : p.step a = some p') : p'.Inv := by
  cases a with
  | get t =>
    simp only [step] at hs
    split_ifs at hs with ht
    unfold getLocked at hs
    split_ifs at hs with hf
    · cases hl : p.connv.getLast? <;> simp only [hl] at hs <;> cases hs
      · exact hi.get_open ht
      · exact hi.get_pop ht hl
    · cases hs; exact hi
  | «open» t =>
    simp only [step] at hs
    split_ifs at hs with ht
    cases hs; exact hi.open ht
  | put t c =>
    simp only [step] at hs
    split_ifs at hs with ht hf <;> cases hs
    · exact hi.put_open ht.1 ht.2 hf
    · exact hi.put_closed ht.1 ht.2
  | putClose t =>
    simp only [step] at hs
    split at hs <;> cases hs
    exact hi.putClose ‹_›
  | close t =>
    simp only [step] at hs
    split_ifs at hs with ht
    cases hs; exact hi.close ht
  | closeNext t =>
    simp only [step] at hs
    split at hs <;> cases hs
    · exact hi.closeNext ‹_›
    · exact hi.closeReturn ‹_›

end Steps

theorem inv_init : init.Inv where
  unique _ q _ h := by rcases q with _ | ⟨_, _ | _ | _⟩ <;> simp [init, At, Thread.Has] at h
  nodupFree := List.nodup_nil
  nodupHeld _ := List.nodup_nil
  nodupClosing _ _ h := by cases h
  made _ q h := by rcases q with _ | ⟨_, _ | _ | _⟩ <;> simp [init, At, Thread.Has] at h
  fate _ h := by cases h
  unmade _ _ := rfl
  shut h := by cases h
  closingShut _ _ h := by cases h
  returned h := by cases h

/-- Every reachable pool state satisfies the invariant. -/
theorem Reachable.inv {p : DBPool} (h : Reachable p) : p.Inv := by
  induction h with
  | init => exact inv_init
  | step a _ hs ih => exact step_inv ih hs

/-- A run from a reachable state ends in one. -/
theorem Reachable.run {p p' : DBPool} {as : List Act} (hp : Reachable p) (h : p.run as = some p') :
    Reachable p' := by
  induction as generalizing p with
  | nil => cases h; exact hp
  | cons a as ih =>
    obtain ⟨p1, h1, h2⟩ := Option.bind_eq_some.1 h
    exact ih (.step a hp h1) h2

/-! ## What the pool promises -/

/-- The safety of `DBPool` in one state. -/
structure Safe (p : DBPool) : Prop where
  /-- No two threads hold one connection. -/
  heldOnce : ∀ c t t', c ∈ (p.threads t).held → c ∈ (p.threads t').held → t = t'
  /-- No free connection is held. -/
  freeUnheld : ∀ c t, c ∈ p.connv → c ∉ (p.threads t).held
  /-- `get` pops a connection no thread holds, and `factory()` makes one no thread holds. -/
  getUnheld : ∀ c, p.getLocked = .ok (some c) → ∀ t, c ∉ (p.threads t).held
  openUnheld : ∀ t, p.next ∉ (p.threads t).held
  /-- No connection is closed twice. -/
  closedOnce : ∀ c, p.closes c ≤ 1
  /-- A held connection is open, and the one a `put` or a `close` closes next is not held. -/
  heldOpen : ∀ c t, c ∈ (p.threads t).held → p.closes c = 0
  closeUnheld : ∀ t c, ((p.threads t).phase = .putClosing c ∨
    ∃ cs, (p.threads t).phase = .closing (c :: cs)) → ∀ t', c ∉ (p.threads t').held
  /-- Once the pool is closed and no call is running, every connection is held or closed once. -/
  allClosed : p.factory = false → (∀ t, (p.threads t).phase = .idle) →
    ∀ c, c < p.next → (∃ t, c ∈ (p.threads t).held) ∨ p.closes c = 1
  /-- Once a `close` has returned, `get` raises. -/
  getRaises : p.closeReturned = true → p.getLocked = .error getOnClosed

theorem Inv.safe {p : DBPool} (hi : p.Inv) : p.Safe where
  heldOnce c t t' h h' := by cases hi.unique c (.thread t .held) (.thread t' .held) h h'; rfl
  freeUnheld c t h h' := hi.not_at_of_free h t .held h'
  getUnheld c hg t := by
    unfold getLocked at hg
    split_ifs at hg
    exact hi.not_at_of_free (List.mem_of_getLast?_eq_some (Except.ok.inj hg)) t .held
  openUnheld t h := by have := hi.made _ (.thread t .held) h; omega
  closedOnce c := by
    by_cases hc : c < p.next
    · rcases hi.fate c hc with ⟨-, h⟩ | ⟨-, h⟩ <;> omega
    · rw [hi.unmade c (by omega)]; omega
  heldOpen c t h := hi.closes_of_at (q := .thread t .held) h
  closeUnheld t c h t' h' := by
    have hk : (p.threads t).Has c .putClosing ∨ (p.threads t).Has c .closing := by
      rcases h with h | ⟨cs, h⟩
      · exact .inl h
      · exact .inr ⟨_, h, List.mem_cons_self c cs⟩
    rcases hk with hk | hk <;> cases ((hi.only hk).2 t' .held h').2
  allClosed hf hq c hc := by
    rcases hi.fate c hc with ⟨⟨q, hq'⟩, -⟩ | ⟨-, h1⟩
    · left
      rcases q with _ | ⟨t, _ | _ | _⟩
      · simp [hi.shut hf] at hq'
      · exact ⟨t, hq'⟩
      · simp [hq t] at hq'
      · simp [hq t] at hq'
    · exact .inr h1
  getRaises h := by simp [getLocked, hi.returned h]

end DBPool

/-- **Connection-pool safety.** In every state that an interleaving of `get`, `put` and
`close` calls reaches, by clients that put back only connections they hold: `get` never hands
out a connection a thread holds, and the free list holds none; no connection is closed twice
or while held, and once the pool is closed with no call running every connection made is held
or closed once; and after a `close` has returned, `get` raises. -/
theorem pool_safe {p : DBPool} (h : DBPool.Reachable p) : p.Safe := h.inv.safe

namespace DBPool

/-- Thread `0` gets a new connection `0` and puts it back, thread `1` gets it, thread `0`
starts another `get`, thread `2` closes the pool, then both put their connections back. -/
def closeRun : List Act :=
  [.get 0, .open 0, .put 0 0, .get 1, .get 0, .close 2, .closeNext 2, .open 0, .put 1 0,
    .putClose 1, .put 0 1, .putClose 0]

theorem pool_safe_closeRun : ∃ p, init.run closeRun = some p ∧ p.Safe ∧ p.closes 0 = 1 ∧
    p.closes 1 = 1 :=
  ⟨_, rfl, pool_safe (@Reachable.run _ _ closeRun .init rfl), rfl, rfl⟩

end DBPool

/-! ## An open pool loses no connection -/

namespace DBPool

/-- A `put` closes its connection only on a closed pool, so an open pool has closed nothing. -/
structure OpenInv (p : DBPool) : Prop where
  /-- A `put` that found the pool closed finds it closed still. -/
  putShut : ∀ t c, (p.threads t).phase = .putClosing c → p.factory = false
  /-- No connection is closed while the pool is open. -/
  noClose : p.factory = true → ∀ c, p.closes c = 0

variable {p : DBPool}

theorem openInv_of_shut (hf : p.factory = false) : p.OpenInv :=
  ⟨fun _ _ _ => hf, fun h => by simp [hf] at h⟩

/-- Thread `t` moves on to a phase other than `put`'s close, with nothing closed and the pool's
flag kept. -/
theorem OpenInv.setThread (ho : p.OpenInv) {p0 : DBPool} (hf : p0.factory = p.factory)
    (hc : p0.closes = p.closes) (h0 : p0.threads = p.threads) {t : Nat} {T : Thread}
    (hT : ∀ c, T.phase ≠ .putClosing c) : (p0.setThread t T).OpenInv where
  putShut t' c h := by
    by_cases et : t' = t
    · simp only [threads_setThread, et, if_true] at h; exact absurd h (hT c)
    · simp only [threads_setThread, et, if_false, h0] at h
      simpa [hf] using ho.putShut t' c h
  noClose h c := by
    simp only [closes_setThread, hc]
    exact ho.noClose (by simpa [hf] using h) c

theorem step_openInv (hi : p.Inv) (ho : p.OpenInv) {a : Act} {p' : DBPool}
    (hs : p.step a = some p') : p'.OpenInv := by
  cases a with
  | get t =>
    simp only [step] at hs
    split_ifs at hs with ht
    split at hs <;> cases hs
    · exact ho
    · exact ho.setThread (by rfl) (by rfl) (by rfl) (by simp [ht])
    · exact ho.setThread (by rfl) (by rfl) (by rfl) (by simp)
  | «open» t =>
    simp only [step] at hs
    split_ifs at hs
    cases hs; exact ho.setThread (by rfl) (by rfl) (by rfl) (by simp)
  | put t c =>
    simp only [step] at hs
    split_ifs at hs with ht hf <;> cases hs
    · exact ho.setThread (by rfl) (by rfl) (by rfl) (by simp [ht.1])
    · exact openInv_of_shut (by simpa using hf)
  | putClose t =>
    simp only [step] at hs
    split at hs <;> cases hs
    exact openInv_of_shut (ho.putShut t _ ‹_›)
  | close t =>
    simp only [step] at hs
    split_ifs at hs
    cases hs; exact openInv_of_shut rfl
  | closeNext t =>
    simp only [step] at hs
    split at hs <;> cases hs <;> exact openInv_of_shut (hi.closingShut t _ ‹_›)

theorem Reachable.openInv (h : Reachable p) : p.OpenInv := by
  induction h with
  | init => exact ⟨fun _ _ h => (by cases h), fun _ _ => rfl⟩
  | step a hr hs ih => exact step_openInv hr.inv ih hs

end DBPool

/-- **An open pool loses no connection.** In every reachable state whose pool is still open, no
connection has been closed, and when no call is running each connection `factory()` made is on
the free list or held by a thread. -/
theorem open_pool_no_leak {p : DBPool} (h : DBPool.Reachable p) (hf : p.factory = true) :
    (∀ c, p.closes c = 0) ∧ ((∀ t, (p.threads t).phase = .idle) →
      ∀ c, c < p.next → c ∈ p.connv ∨ ∃ t, c ∈ (p.threads t).held) := by
  have hc := h.openInv.noClose hf
  refine ⟨hc, fun hq c hcn => ?_⟩
  rcases h.inv.fate c hcn with ⟨⟨q, hq'⟩, -⟩ | ⟨-, h1⟩
  · rcases q with _ | ⟨t, _ | _ | _⟩
    · exact .inl hq'
    · exact .inr ⟨t, hq'⟩
    all_goals simp [hq t] at hq'
  · simp [hc c] at h1

namespace DBPool

/-- Threads `0` and `1` each get a new connection, and thread `0` puts its one back. -/
theorem open_pool_no_leak_twoGets : ∃ p, init.run [.get 0, .open 0, .get 1, .open 1, .put 0 0] =
    some p ∧ p.connv = [0] ∧ (p.threads 1).held = [1] ∧ ∀ c, p.closes c = 0 :=
  ⟨_, rfl, rfl, rfl, (open_pool_no_leak (@Reachable.run _ _ [.get 0, .open 0, .get 1, .open 1,
    .put 0 0] .init rfl) rfl).1⟩

end DBPool

end Lonet
