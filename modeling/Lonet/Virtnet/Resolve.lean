import Lonet.Virtnet.Names

/-!
# Host names resolve to their subnetwork

`new_host(name)` (`xnet/lonet/__init__.py:275-288`) announces `name` in its subnetwork's registry
file with the address of that subnetwork's OS listener (`_vnet_newhost`, `:927-928`), and only
then adds the host to `_hostmap`. `Host.dial` (`:490-513`) looks the destination's name up in
its own subnetwork's registry and connects to the address it finds. No step but that announce
writes a registry file (`Sys.Still`, `Lonet.Virtnet.Footprint`), and `announce` adds a row only
for a name the file does not hold. So in every reachable state a host that a subnetwork's `_hostmap` holds has exactly one
row in that subnetwork's registry file, with that subnetwork's OS address (`Sys.Resolves`), and
a dial from any subnetwork on that file finds it there (`names_resolve`).
-/

namespace Lonet

namespace Sys

variable {s s' : Sys}

/-! ## The invariant -/

/-- Name `x` has one row in subnetwork `N`'s registry file, with `N`'s OS address. -/
def Registered (s : Sys) (N : Subnet) (x : Bytes) : Prop :=
  (s.files N.file).hostsTable = true ∧
    (s.files N.file).hosts.filter (·.1 == x) = [(x, oslAddr N)]

/-- Every name a `_hostmap` holds, or a `new_host` is about to insert, is registered with the
OS address of its subnetwork. -/
structure Resolves (s : Sys) : Prop where
  mapped : ∀ n N x h, s.nets n = some N → (x, h) ∈ N.hostmap → s.Registered N x
  insert : ∀ i n x, s.tasks i = some (.newHostInsert n x) →
    ∃ N, s.nets n = some N ∧ s.Registered N x

/-- Registration reads only the file and the OS port. -/
theorem Registered.congr {N N' : Subnet} {x : Bytes} (h : s.Registered N x)
    (hf : s'.files = s.files) (hfile : N'.file = N.file) (hp : N'.osPort = N.osPort) :
    s'.Registered N' x := by
  unfold Registered oslAddr at *
  rw [hf, hfile, hp]
  exact h

/-- A step that touches no name and writes no file keeps every registration. -/
theorem Resolves.keep (hr : s.Resolves) (hle : s.Le s') (hk : Keep s s')
    (hfiles : s'.files = s.files) : s'.Resolves where
  mapped n N' x g hN' hm := by
    obtain ⟨N, hN, hf, hm'⟩ := hk.nets_back hN'
    obtain ⟨N'', hN'', hNN⟩ := hle.nets.keep n N hN
    cases hN'.symm.trans hN''
    exact (hr.mapped n N x g hN (hm' ▸ hm)).congr hfiles hf hNN.osPort
  insert i n x ht := by
    obtain ⟨N, hN, hreg⟩ := hr.insert i n x (hk.tasks i _ ht rfl)
    obtain ⟨N', hN', hNN⟩ := hle.nets.keep n N hN
    obtain ⟨N'', hN'', hf, -⟩ := hk.nets_fwd hN
    cases hN'.symm.trans hN''
    exact ⟨N', hN', hreg.congr hfiles hf hNN.osPort⟩

/-! ## The two steps of `new_host` -/

/-- A row added for a name the file does not hold leaves every registered name's rows. -/
theorem Registered.announce {M N : Subnet} {y x a : Bytes} (h : s.Registered M y)
    (hnew : x ∉ (s.files N.file).hosts.map (·.1)) :
    (s.setFile N.file { s.files N.file with hosts := (s.files N.file).hosts ++ [(x, a)] }).Registered
      M y := by
  obtain ⟨ht, hy⟩ := h
  by_cases e : M.file = N.file
  · have hxy : x ≠ y := by
      rintro rfl
      have : (x, oslAddr M) ∈ (s.files M.file).hosts.filter (·.1 == x) := by simp [hy]
      exact hnew (e ▸ List.mem_map.2 ⟨_, (List.mem_filter.1 this).1, rfl⟩)
    refine ⟨by simpa [e] using ht, ?_⟩
    simp only [setFile, e, upd_self] at hy ⊢
    rw [List.filter_append, hy]
    simp [hxy]
  · simpa [Registered, upd_of_ne _ e] using And.intro ht hy

/-- `_vnet_newhost` announced `x` with `N`'s OS address: the thread about to insert `x` finds it
registered. -/
theorem resolves_newHost (hr : s.Resolves) {i n : Nat} {N : Subnet} {x : Bytes} {db : RegDb}
    (hN : s.nets n = some N) (hv : s.vnetNewhost N x = .ok db) :
    ((s.setFile N.file db).setTask i (.newHostInsert n x)).Resolves := by
  unfold vnetNewhost at hv
  split at hv
  · cases hv
  obtain ⟨-, ht, hnew, rfl⟩ := announce_ok hv
  refine ⟨fun m M y g hM hm => (hr.mapped m M y g hM hm).announce hnew, fun j m y hj => ?_⟩
  rcases upd_eq_some hj with ⟨-, e⟩ | ⟨-, hj⟩
  · cases e
    have hx : (s.files N.file).hosts.filter (·.1 == x) = [] :=
      List.filter_eq_nil_iff.2 fun p hp hpx => hnew (List.mem_map.2 ⟨p, hp, by simpa using hpx⟩)
    refine ⟨N, hN, by simpa using ht, ?_⟩
    simp [List.filter_append, hx]
  · obtain ⟨M, hM, hreg⟩ := hr.insert j m y hj
    exact ⟨M, hM, hreg.announce hnew⟩

/-- The `_hostmu` part of `new_host` maps `x` on subnetwork `n`, where it was registered. -/
theorem resolves_newHostInsert (hr : s.Resolves) {i n h : Nat} {N : Subnet} {x : Bytes}
    {s1 : Sys} (ht : s.tasks i = some (.newHostInsert n x)) (hN : s.nets n = some N)
    (hl : s.newHostLocked n N x = .ok (s1, h)) : (s1.setTask i (.newHostDone (.ok h))).Resolves := by
  unfold newHostLocked at hl
  split at hl
  · cases hl
  cases hl
  obtain ⟨N0, hN0, hx⟩ := hr.insert i n x ht
  cases hN.symm.trans hN0
  refine ⟨fun m M y g hM hm => ?_, fun j m y hj => ?_⟩
  · simp only [setTask, bump, setNet, setHost] at hM ⊢
    rcases upd_eq_some hM with ⟨rfl, rfl⟩ | ⟨-, hM⟩
    · rw [List.mem_append, List.mem_singleton] at hm
      rcases hm with hm | e
      · exact (hr.mapped m N y g hN hm).congr rfl rfl rfl
      · cases e; exact hx.congr rfl rfl rfl
    · exact (hr.mapped m M y g hM hm).congr rfl rfl rfl
  · simp only [setTask, bump, setNet, setHost] at hj ⊢
    rcases upd_eq_some hj with ⟨-, e⟩ | ⟨-, hj⟩
    · cases e
    obtain ⟨M, hM, hreg⟩ := hr.insert j m y hj
    by_cases e : m = n
    · subst e; cases hN.symm.trans hM
      exact ⟨_, upd_self .., hreg.congr rfl rfl rfl⟩
    · exact ⟨M, by rw [upd_of_ne _ e]; exact hM, hreg.congr rfl rfl rfl⟩

/-! ## Every step -/

/-- A step of one thread keeps every registration; only `new_host`'s two steps add one. -/
theorem Shape.resolves (hf : s.Fresh) (hn : s.Names) (hr : s.Resolves) {i : Nat} {t : Task}
    (ht : s.tasks i = some t) (h : Shape s i t s') : s'.Resolves := by
  have K := hr.keep (h.le hf ht)
  cases h with
  | move h1 m => exact K (h1.keep.setTask (unnamed_of ht m.named) m.named') h1.files
  | @alloc g H _ _ n0 n1 _ _ =>
    exact K ((Keep.same rfl rfl rfl : Keep s (s.allocFreeSocket g H).1).setTask (unnamed_of ht n0)
      n1) rfl
  | @conn s1 C sk _ S' _ h1 _ _ _ n0 idle =>
    have h2 : Keep s1 ((s1.setConn s1.next C).setSock sk S').bump := .same rfl rfl rfl
    exact K ((h1.keep.trans h2).setTask (unnamed_of ht n0) idle.named) h1.files
  | spawn n0 idle idleU =>
    exact K ((keep_spawn (hf.tasks _ le_rfl) idleU.named).setTask (unnamed_of ht n0) idle.named)
      rfl
  | announce e hN hv => subst e; exact resolves_newHost hr hN hv
  | insert e hN hl => subst e; exact resolves_newHostInsert hr ht hN hl
  | insertFail e hN hl =>
    subst e
    obtain ⟨s1, h, hl'⟩ := hn.newHostLocked_ok ht hN
    cases hl.symm.trans hl'

theorem StepShape.resolves (hf : s.Fresh) (hn : s.Names) (hr : s.Resolves)
    (h : StepShape s s') : s'.Resolves := by
  have K := hr.keep (h.le hf)
  cases h with
  | run ht h => exact h.resolves hf hn hr ht
  | meet _ hi hj h1 mi mj =>
    exact K ((h1.keep.setTask (unnamed_of hi mi.named) mi.named').setTask (unnamed_of hj mj.named)
      mj.named') h1.files
  | spawn h1 n0 _ _ =>
    exact K (h1.keep.trans (keep_spawn ((hf.of_le h1.le).tasks _ le_rfl) n0)) h1.files
  | still h1 => exact K h1.keep h1.files
  | wake h1 => exact K (h1.keep.trans keep_wake) h1.files

/-- Subnetworks just joined map no host, and no thread runs. -/
theorem resolves_init {nets : List Subnet} (files : Nat → RegDb)
    (h : ∀ N ∈ nets, N = Subnet.joined N.network N.uri N.file N.osPort) :
    (Sys.init nets files).Resolves where
  mapped n N x g hN hm := by
    rw [h N (List.getElem?_mem hN)] at hm
    exact absurd hm (List.not_mem_nil _)
  insert _ _ _ h := nomatch h

end Sys

/-- Every reachable state has each mapped name registered with its subnetwork's OS address. -/
theorem Reachable.resolves {s : Sys} (h : Reachable s) : s.Resolves := by
  induction h with
  | init nets files h => exact Sys.resolves_init files h
  | step a hr hs ih => exact (Sys.step_shape hr.fresh hs).resolves hr.fresh hr.names ih

/-- **Names resolve.** In every reachable state, a host that subnetwork `N` maps under name `x`
is found by `query` in `N`'s registry file at `N`'s OS address, and a dial of `x:port` from any
subnetwork joined on that file, with its pool open, resolves there (`Host.dial`, `:490-513`). -/
theorem names_resolve {s : Sys} (hs : Reachable s) {n : Nat} {N : Subnet} {x : Bytes} {h : Nat}
    (hN : s.nets n = some N) (hx : (x, h) ∈ N.hostmap) :
    (∀ uri, query uri false (s.files N.file) x = .ok (some (oslAddr N))) ∧
      ∀ m M H port, s.nets m = some M → M.file = N.file → M.poolClosed = false → x ≠ [] →
        bColon ∉ x → s.dialQuery M H (addrstr4 x port) = .ok (⟨M.network, x, port⟩, oslAddr N) := by
  have hq : ∀ uri, query uri false (s.files N.file) x = .ok (some (oslAddr N)) := fun uri => by
    obtain ⟨ht, hrow⟩ := hs.resolves.mapped n N x h hN hx
    simp [query, RegDb.selectHost, ht, hrow, hostRow, bind, Except.bind]
  refine ⟨hq, fun m M H port _ hf hp hne hc => ?_⟩
  simp [Sys.dialQuery, parseAddr, parse_addrstr4 _ hc, hne, hf, hp, hq, bind, Except.bind, pure,
    Except.pure]

/-- In `sharedState` the second process (subnetwork `1`) dials `a:80`, which only the first
(subnetwork `0`) maps: the query finds the first process's OS listener. -/
theorem names_resolve_shared : ∃ N M H, sharedState.nets 0 = some N ∧ sharedState.nets 1 = some M ∧
    sharedState.hosts 4 = some H ∧ sharedState.dialQuery M H (addrstr4 (ascii "a") 80) =
      .ok (⟨ascii "lonetX", ascii "a", 80⟩, oslAddr N) :=
  ⟨_, _, _, rfl, rfl, rfl, (names_resolve (@Reachable.run _ sharedState sharedRun
      (.init sharedNets (fun _ => ⟨true, true, [], []⟩) (by decide)) rfl) (n := 0) (h := 4) rfl
      (by decide)).2 1 _ _ 80 rfl rfl rfl (by decide) (by decide)⟩

end Lonet
