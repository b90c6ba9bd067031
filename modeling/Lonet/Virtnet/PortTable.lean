import Lonet.Virtnet.System

/-!
# The port table

`Host._socketv` maps ports to sockets. The code keeps the table in step with ports when it
picks the port itself (`_allocFreeSocket`) or is given a positive one (`Host.listen`), and
reads it with the port of a dial's destination (`_vnet_accept`). Both `listen` and
`_vnet_accept` index it with Python's `socketv[port]`, where a negative `port` counts from the
end of the list:

* `listen(":-3")` after `listen(":2")` stores a socket of port `-3` in slot `0`
  (`listen_negative_port_fills_slot_zero`);
* a dial to port `-1` is routed to the listener in the last slot
  (`vnetAcceptLookup_negative_port`), although that listener's port is not `-1`.

-/

namespace Lonet

namespace Sys

/-! ## Where sockets go -/

theorem getElem?_set_padTo (v : List (Option Nat)) (p x : Nat) :
    ((padTo v p).set p (some x))[p]? = some (some x) := by
  simp [List.getElem?_set, length_padTo]

/-! ## `_allocFreeSocket` takes the lowest free port -/

theorem scanFree_occupied (u : List (Option Nat)) {k j : Nat} (h1 : k ≤ j)
    (h2 : j < scanFree u k) : ∃ x, u[j - k]? = some (some x) := by
  induction u generalizing k with
  | nil => simp only [scanFree] at h2; omega
  | cons y u ih =>
    cases y with
    | none => simp only [scanFree] at h2; omega
    | some x =>
      simp only [scanFree] at h2
      rcases Nat.eq_or_lt_of_le h1 with rfl | h1
      · exact ⟨x, by simp⟩
      · obtain ⟨z, hz⟩ := ih h1 h2
        exact ⟨z, by rw [show j - k = j - (k + 1) + 1 by omega]; simpa using hz⟩

theorem scanFree_stop (u : List (Option Nat)) (k : Nat) :
    u.length + k ≤ scanFree u k ∨ u[scanFree u k - k]? = some none := by
  induction u generalizing k with
  | nil => exact .inl (by simp [scanFree])
  | cons y u ih =>
    cases y with
    | none => exact .inr (by simp [scanFree])
    | some x =>
      simp only [scanFree, List.length_cons]
      have hk := scanFree_ge u (k + 1)
      rcases ih (k + 1) with h | h
      · exact .inl (by omega)
      · refine .inr ?_
        rw [show scanFree u (k + 1) - k = scanFree u (k + 1) - (k + 1) + 1 by omega]
        simpa using h

/-- `freePort v` is the least port from `1` that is past the table's end or has an empty
slot. -/
theorem freePort_least (v : List (Option Nat)) :
    (v.length ≤ freePort v ∨ v[freePort v]? = some none) ∧
      ∀ q, 1 ≤ q → q < freePort v → ∃ x, v[q]? = some (some x) := by
  constructor
  · rcases scanFree_stop (v.drop 1) 1 with h | h
    · left; simp only [List.length_drop] at h; unfold freePort; omega
    · right
      rwa [List.getElem?_drop, Nat.add_sub_cancel' (scanFree_ge (v.drop 1) 1)] at h
  · intro q h1 h2
    obtain ⟨x, hx⟩ := scanFree_occupied (v.drop 1) h1 h2
    exact ⟨x, by rwa [List.getElem?_drop, Nat.add_sub_cancel' h1] at hx⟩

theorem getElem?_set_padTo_of_ne {v : List (Option Nat)} {p x i : Nat} (hi : i ≠ p) :
    ((padTo v p).set p (some x))[i]? =
      if i < v.length then v[i]? else if i ≤ p then some none else none := by
  rw [List.getElem?_set_ne (Ne.symm hi)]
  unfold padTo
  split_ifs with h1 h2
  · exact List.getElem?_append_left h1
  · rw [List.getElem?_append_right (by omega), List.getElem?_replicate]
    simp only [ite_eq_left_iff]
    omega
  · rw [List.getElem?_eq_none]
    simp only [List.length_append, List.length_replicate]
    omega

/-- After `_allocFreeSocket` every slot from `1` to the port it took is occupied. -/
theorem alloc_occupied (v : List (Option Nat)) (x : Nat) {q : Nat} (h1 : 1 ≤ q)
    (h2 : q ≤ freePort v) : ∃ y, ((padTo v (freePort v)).set (freePort v) (some x))[q]? =
      some (some y) := by
  rcases Nat.eq_or_lt_of_le h2 with rfl | h2
  · exact ⟨x, getElem?_set_padTo _ _ _⟩
  · obtain ⟨y, hy⟩ := (freePort_least v).2 q h1 h2
    have hq : q < v.length := (List.getElem?_eq_some_iff.1 hy).1
    exact ⟨y, by rw [getElem?_set_padTo_of_ne (by omega), if_pos hq, hy]⟩

/-- A table with slots `1` to `p` occupied has its free port above `p`. -/
theorem freePort_gt {w : List (Option Nat)} {p : Nat}
    (h : ∀ q, 1 ≤ q → q ≤ p → ∃ y, w[q]? = some (some y)) : p < freePort w := by
  by_contra hle
  obtain ⟨y, hy⟩ := h _ (one_le_freePort w) (by omega)
  rcases (freePort_least w).1 with h' | h'
  · rw [List.getElem?_eq_none h'] at hy; cases hy
  · rw [h'] at hy; cases hy

/-- **Lowest-free port allocation.** On a table `v` that is empty or has slot `0` empty,
`_allocFreeSocket` takes the least port `p ≥ 1` past the table's end or with an empty slot,
returns a fresh socket of port `p` stored in slot `p`, leaves every other slot as it was, slot
`0` empty included, and makes the table `max (len v) (p + 1)` long. Every table that keeps
the occupied slots of the new one, as one does when no slot is released in between, has its
free port above `p`. -/
theorem allocFreeSocket_lowest (s : Sys) (h : Nat) (H : Host)
    (h0 : H.socketv = [] ∨ H.socketv[0]? = some none) :
    let p := freePort H.socketv
    let v := (padTo H.socketv p).set p (some s.next)
    1 ≤ p ∧ (H.socketv.length ≤ p ∨ H.socketv[p]? = some none) ∧
      (∀ q, 1 ≤ q → q < p → ∃ x, H.socketv[q]? = some (some x)) ∧
      (s.allocFreeSocket h H).2 = s.next ∧
      (s.allocFreeSocket h H).1.socks s.next = some ⟨h, p, none, none, none⟩ ∧
      ((s.allocFreeSocket h H).1.hosts h).map (·.socketv) = some v ∧
      v[p]? = some (some s.next) ∧ (∀ i, i ≠ p → i < H.socketv.length → v[i]? = H.socketv[i]?) ∧
      v.length = max H.socketv.length (p + 1) ∧ v[0]? = some none ∧
      ∀ w : List (Option Nat), (∀ q y : Nat, v[q]? = some (some y) → ∃ z, w[q]? = some (some z)) →
        p < freePort w := by
  intro p v
  have hp := one_le_freePort H.socketv
  refine ⟨hp, (freePort_least _).1, (freePort_least _).2, rfl, by simp [allocFreeSocket],
    by simp [allocFreeSocket, v], getElem?_set_padTo _ _ _,
    fun i hi hl => by rw [getElem?_set_padTo_of_ne hi, if_pos hl], ?_, ?_,
    fun w hw => freePort_gt fun q h1 h2 => ?_⟩
  · simp [v, length_padTo]
  · rw [getElem?_set_padTo_of_ne (by omega)]
    rcases h0 with e | e
    · simp [e]
    · split_ifs <;> first | exact e | rfl | omega
  · obtain ⟨y, hy⟩ := alloc_occupied H.socketv s.next h1 h2
    exact hw q y hy

/-- A host `b` whose table has a hole at port `2`, between sockets `5` and `7`. -/
def holeHost : Host := ⟨0, ascii "b", [none, some 5, none, some 7], false, false, false⟩

/-- `_allocFreeSocket` on `b` fills the hole: port `2`, and the next allocation goes higher. -/
theorem allocFreeSocket_lowest_hole :
    freePort holeHost.socketv = 2 ∧
      (((Sys.init [] fun _ => RegDb.empty).allocFreeSocket 0 holeHost).1.hosts 0).map (·.socketv) =
        some [none, some 5, some 0, some 7] ∧
      ∀ w : List (Option Nat), (∀ q y : Nat, [none, some 5, some 0, some 7][q]? = some (some y) →
        ∃ z, w[q]? = some (some z)) → 2 < freePort w :=
  let h := allocFreeSocket_lowest (Sys.init [] fun _ => RegDb.empty) 0 holeHost (.inr rfl)
  ⟨rfl, h.2.2.2.2.2.1, h.2.2.2.2.2.2.2.2.2.2⟩

@[simp] theorem installListener_snd (s : Sys) (h : Nat) (H : Host) (v : List (Option Nat))
    (i : Nat) (port : Int) : (s.installListener h H v i port).2 = s.next + 1 := rfl

@[simp] theorem installListener_next (s : Sys) (h : Nat) (H : Host) (v : List (Option Nat))
    (i : Nat) (port : Int) : (s.installListener h H v i port).1.next = s.next + 2 := rfl

@[simp] theorem installListener_hosts (s : Sys) (h : Nat) (H : Host) (v : List (Option Nat))
    (i : Nat) (port : Int) : (s.installListener h H v i port).1.hosts =
      upd s.hosts h (some { H with socketv := v.set i (some s.next) }) := rfl

@[simp] theorem installListener_socks (s : Sys) (h : Nat) (H : Host) (v : List (Option Nat))
    (i : Nat) (port : Int) : (s.installListener h H v i port).1.socks =
      upd s.socks s.next (some ⟨h, port, none, some (s.next + 1), none⟩) := rfl

/-- The success of `listenLocked` on a slot that is free. -/
theorem listenLocked_free {s : Sys} {h : Nat} {H : Host} {a : Addr} {i : Nat}
    (h0 : a.port ≠ 0)
    (hi : pyIndex (if 0 ≤ a.port then padTo H.socketv a.port.toNat else H.socketv).length a.port
      = some i)
    (hfree : ((if 0 ≤ a.port then padTo H.socketv a.port.toNat else H.socketv)[i]?).join = none) :
    s.listenLocked h H a = .ok (s.installListener h H
      (if 0 ≤ a.port then padTo H.socketv a.port.toNat else H.socketv) i a.port) := by
  simp only [listenLocked, h0, ite_false, hi, hfree, Option.isSome_none, Bool.false_eq_true]

/-- **A negative port writes another slot.** On a host with an empty port table, `listen` on
port `2` and then on port `-3` both succeed, and the second socket, whose port is `-3`, is
stored in slot `0`, the slot the table keeps empty. -/
theorem listen_negative_port_fills_slot_zero {s : Sys} {h : Nat} {H : Host} {a1 a2 : Addr}
    (hv : H.socketv = []) (h1 : a1.port = 2) (h2 : a2.port = -3) :
    ∃ s1 l1 s2 l2, s.listenLocked h H a1 = .ok (s1, l1) ∧
      s1.hosts h = some { H with socketv := [none, none, some s.next] } ∧
      s1.listenLocked h { H with socketv := [none, none, some s.next] } a2 = .ok (s2, l2) ∧
      (s2.hosts h).map (·.socketv) = some [some (s.next + 2), none, some s.next] ∧
      (s2.socks (s.next + 2)).map (·.port) = some (-3) := by
  have e1 : s.listenLocked h H a1 =
      .ok (s.installListener h H [none, none, none] 2 2) := by
    rw [listenLocked_free (i := 2) (by omega) (by simp [h1, hv, padTo, pyIndex])
      (by simp [h1, hv, padTo])]
    simp [h1, hv, padTo]
  have e2 : (s.installListener h H [none, none, none] 2 2).1.listenLocked h
      { H with socketv := [none, none, some s.next] } a2 =
      .ok ((s.installListener h H [none, none, none] 2 2).1.installListener h
        { H with socketv := [none, none, some s.next] } [none, none, some s.next] 0 (-3)) := by
    rw [listenLocked_free (i := 0) (by omega) (by simp [h2, pyIndex]) (by simp [h2])]
    simp [h2]
  exact ⟨_, _, _, _, e1, by simp, e2, by simp, by simp⟩

/-- On a fresh host `α`, `listen(":2")` then `listen(":-3")`: the second socket (`2`) lands in
slot `0`. -/
theorem listen_negative_port_fills_slot_zero_fresh :
    ∃ s1 l1 s2 l2, (Sys.init [] (fun _ => RegDb.empty)).listenLocked 0
        ⟨0, ascii "α", [], false, false, false⟩ ⟨ascii "lonetX", ascii "α", 2⟩ = .ok (s1, l1) ∧
      s1.hosts 0 = some ⟨0, ascii "α", [none, none, some 0], false, false, false⟩ ∧
      s1.listenLocked 0 ⟨0, ascii "α", [none, none, some 0], false, false, false⟩
        ⟨ascii "lonetX", ascii "α", -3⟩ = .ok (s2, l2) ∧
      (s2.hosts 0).map (·.socketv) = some [some 2, none, some 0] ∧
      (s2.socks 2).map (·.port) = some (-3) :=
  listen_negative_port_fills_slot_zero rfl rfl rfl

/-! ## Routing a dial -/

/-- **A negative port routes to another listener.** A dial to port `-1` of a host whose last
slot holds a socket with a listener is offered to that listener, whose port is not `-1`. -/
theorem vnetAcceptLookup_negative_port {s : Sys} {N : Subnet} {dst : Addr} {h sk l : Nat}
    {H : Host} {S : Sock} (hN : N.stuck = false) (hmap : N.hostmap.lookup dst.host = some h)
    (hH : s.hosts h = some H)
    (hst : H.stuck = false) (hlast : H.socketv.getLast? = some (some sk))
    (hS : s.socks sk = some S) (hl : S.listener = some l) (hport : 0 ≤ S.port)
    (hdst : dst.port = -1) :
    s.vnetAcceptLookup N dst = some (s, .ok l) ∧ S.port ≠ dst.port := by
  refine ⟨?_, by omega⟩
  have hne : H.socketv ≠ [] := fun e => by simp [e] at hlast
  have hlen : 0 < H.socketv.length := List.length_pos.2 hne
  have hi : pyIndex H.socketv.length dst.port = some (H.socketv.length - 1) := by
    rw [pyIndex_of_neg (by omega) (by omega)]; congr 1; omega
  have hget : (H.socketv[H.socketv.length - 1]?).join = some sk := by
    rw [← List.getLast?_eq_getElem?, hlast]; rfl
  have hlt : ¬ (H.socketv.length : Int) ≤ dst.port := by omega
  simp only [vnetAcceptLookup, hN, hmap, hH, hst, Bool.false_eq_true, ite_false, hlt, hi,
    slotListener, hget, Option.some_bind, hS, hl]

/-- After `listenRun`, a dial to `b:-1` is offered to `b`'s listener `7`, which is at `b:1`. -/
theorem vnetAcceptLookup_negative_port_b :
    ∃ N, listenState.nets 0 = some N ∧
      listenState.vnetAcceptLookup N ⟨ascii "lonetX", ascii "b", -1⟩ = some (listenState, .ok 7) ∧
      (1 : Int) ≠ -1 :=
  ⟨_, rfl, @vnetAcceptLookup_negative_port listenState ((listenState.nets 0).getD lonetX) ⟨ascii "lonetX", ascii "b", -1⟩ 4 6 7 _ _
    rfl rfl rfl rfl rfl rfl rfl (by decide) rfl⟩

end Sys

end Lonet
