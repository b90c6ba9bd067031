import Lonet.Virtnet.Down

/-!
# Host names are unique per registry file

`new_host(name)` (`xnet/lonet/__init__.py:275-288`) first announces `name` in the registry
(`_vnet_newhost`, `:927-928`; `SQLiteRegistry.announce`, `:1117-1127`), whose `hosts` table has
the name as its primary key, and only then, under `_hostmu`, adds the host to `_hostmap`. No
step removes a name from a registry file. So over all subnetworks that share one file, in one
process or several, a name is held by at most one of: a `new_host` thread between its announce
and its insert, and an entry of a `_hostmap` (`Sys.Names`, kept by every step: `StepShape.names`).

By the shapes of `Lonet.Virtnet.Footprint`, every other step leaves the files, the subnetworks'
files and host maps, and those threads as they are (`Sys.Keep`), and `Names.keep` carries the
invariant over it with what `Sys.Le` says of the hosts.
-/

namespace Lonet

namespace Sys

variable {s s' : Sys}

/-- The names announced in registry file `f`. -/
def announced (s : Sys) (f : Nat) : List Bytes := (s.files f).hosts.map (·.1)

/-- The `_hostmap` of a subnetwork on registry file `f` holds host `h` under name `x`. -/
def Mapped (s : Sys) (f : Nat) (x : Bytes) (h : Nat) : Prop :=
  ∃ n N, s.nets n = some N ∧ N.file = f ∧ (x, h) ∈ N.hostmap

/-- Each name is held at most once per registry file, and only once announced there. -/
structure Names (s : Sys) : Prop where
  /-- A `_hostmap` entry is a host of that name on that subnetwork, announced in its file. -/
  mapped : ∀ n N x h, s.nets n = some N → (x, h) ∈ N.hostmap →
    (∃ H, s.hosts h = some H ∧ H.name = x ∧ H.subnet = n) ∧ x ∈ s.announced N.file
  mapUnique : ∀ f x h h', s.Mapped f x h → s.Mapped f x h' → h = h'
  /-- A `new_host` between announce and insert has announced its name, which no map holds. -/
  insert : ∀ i n x, s.tasks i = some (.newHostInsert n x) →
    ∃ N, s.nets n = some N ∧ x ∈ s.announced N.file ∧ ∀ h, ¬s.Mapped N.file x h
  insertUnique : ∀ i j n n' x N N', s.tasks i = some (.newHostInsert n x) →
    s.tasks j = some (.newHostInsert n' x) → s.nets n = some N → s.nets n' = some N' →
    N.file = N'.file → i = j
  /-- A `new_host` that returned a host finds it in its subnetwork's map, under its name. -/
  done : ∀ i h, s.tasks i = some (.newHostDone (.ok h)) →
    ∃ H N, s.hosts h = some H ∧ s.nets H.subnet = some N ∧ (H.name, h) ∈ N.hostmap
  doneUnique : ∀ i j h, s.tasks i = some (.newHostDone (.ok h)) →
    s.tasks j = some (.newHostDone (.ok h)) → i = j

/-! ## Steps that touch no name -/

/-- `s'` has the subnetworks' files and host maps and the named threads of `s`, and its
registry files hold at least the names of those of `s`. -/
structure Keep (s s' : Sys) : Prop where
  nets : ∀ n, (s'.nets n).map Subnet.names = (s.nets n).map Subnet.names
  announced : ∀ f, s.announced f ⊆ s'.announced f
  tasks : ∀ i t, s'.tasks i = some t → t.named → s.tasks i = some t
  stay : ∀ i t, s.tasks i = some t → t.named → s'.tasks i = some t

theorem Keep.same (h1 : s'.nets = s.nets) (h2 : s'.files = s.files) (h3 : s'.tasks = s.tasks) :
    Keep s s' :=
  ⟨fun n => by rw [h1], fun f x hx => by rwa [Sys.announced, h2], fun i t h _ => h3 ▸ h,
    fun i t h _ => h3 ▸ h⟩

theorem Keep.refl (s : Sys) : Keep s s := .same rfl rfl rfl

theorem Keep.trans {s'' : Sys} (h : Keep s s') (h' : Keep s' s'') : Keep s s'' :=
  ⟨fun n => (h'.nets n).trans (h.nets n), fun f => (h.announced f).trans (h'.announced f),
    fun i t ht hn => h.tasks i t (h'.tasks i t ht hn) hn,
    fun i t ht hn => h'.stay i t (h.stay i t ht hn) hn⟩

/-- Thread `i` holds no name. -/
def Unnamed (s : Sys) (i : Nat) : Prop := ∀ t, s.tasks i = some t → t.named = false

theorem unnamed_of {i : Nat} {t : Task} (ht : s.tasks i = some t) (h : t.named = false) :
    s.Unnamed i := fun u hu => by cases ht.symm.trans hu; exact h

/-- A thread that holds no name moves on to one that holds none either. -/
theorem Keep.setTask {s1 : Sys} {i : Nat} {t : Task} (h : Keep s s1) (hi : s.Unnamed i)
    (ht : t.named = false) : Keep s (s1.setTask i t) := by
  refine ⟨h.nets, h.announced, fun j u hj hn => h.tasks j u ?_ hn, fun j u hj hn => ?_⟩
  · rcases upd_eq_some hj with ⟨-, rfl⟩ | ⟨-, hj⟩
    · rw [ht] at hn; cases hn
    · exact hj
  · have hji : j ≠ i := by rintro rfl; rw [hi u hj] at hn; cases hn
    simpa [upd_of_ne _ hji] using h.stay j u hj hn

theorem keep_spawn {t : Task} (hfree : s.tasks s.next = none) (ht : t.named = false) :
    Keep s (s.spawn t) :=
  (Keep.setTask (.refl s) (fun u hu => by rw [hfree] at hu; cases hu) ht).trans (.same rfl rfl rfl)

theorem Keep.nets_back (hk : Keep s s') {n : Nat} {N' : Subnet} (hN' : s'.nets n = some N') :
    ∃ N, s.nets n = some N ∧ N'.file = N.file ∧ N'.hostmap = N.hostmap := by
  have e := hk.nets n
  rw [hN'] at e
  obtain ⟨N, hN, hNN⟩ := Option.map_eq_some'.1 e.symm
  exact ⟨N, hN, congrArg Prod.fst hNN.symm, congrArg Prod.snd hNN.symm⟩

theorem Keep.nets_fwd (hk : Keep s s') {n : Nat} {N : Subnet} (hN : s.nets n = some N) :
    ∃ N', s'.nets n = some N' ∧ N'.file = N.file ∧ N'.hostmap = N.hostmap := by
  have e := hk.nets n
  rw [hN] at e
  obtain ⟨N', hN', hNN⟩ := Option.map_eq_some'.1 e
  exact ⟨N', hN', congrArg Prod.fst hNN, congrArg Prod.snd hNN⟩

theorem Keep.mapped_iff (hk : Keep s s') {f : Nat} {x : Bytes} {h : Nat} :
    s'.Mapped f x h ↔ s.Mapped f x h := by
  constructor
  · rintro ⟨n, N', hN', rfl, hm⟩
    obtain ⟨N, hN, hf, hm'⟩ := hk.nets_back hN'
    exact ⟨n, N, hN, hf.symm, hm' ▸ hm⟩
  · rintro ⟨n, N, hN, rfl, hm⟩
    obtain ⟨N', hN', hf, hm'⟩ := hk.nets_fwd hN
    exact ⟨n, N', hN', hf, hm'.symm ▸ hm⟩

/-- A step that touches no name keeps the invariant; hosts it needs from `Sys.Le`. -/
theorem Names.keep (hn : s.Names) (hle : s.Le s') (hk : Keep s s') : s'.Names where
  mapped n N' x h hN' hm := by
    obtain ⟨N, hN, hf, hm'⟩ := hk.nets_back hN'
    obtain ⟨⟨H, hH, rfl, rfl⟩, ha⟩ := hn.mapped n N x h hN (hm' ▸ hm)
    obtain ⟨H', hH', hHH⟩ := hle.hosts.keep h H hH
    exact ⟨⟨H', hH', hHH.name, hHH.subnet⟩, hf ▸ hk.announced _ ha⟩
  mapUnique f x h h' m m' := hn.mapUnique f x h h' (hk.mapped_iff.1 m) (hk.mapped_iff.1 m')
  insert i n x ht := by
    obtain ⟨N, hN, ha, hfree⟩ := hn.insert i n x (hk.tasks i _ ht rfl)
    obtain ⟨N', hN', hf, -⟩ := hk.nets_fwd hN
    exact ⟨N', hN', hf ▸ hk.announced _ ha, fun h m => hfree h (hf ▸ hk.mapped_iff.1 m)⟩
  insertUnique i j n n' x N N' hi hj hN hN' hf := by
    obtain ⟨M, hM, hMf, -⟩ := hk.nets_back hN
    obtain ⟨M', hM', hMf', -⟩ := hk.nets_back hN'
    exact hn.insertUnique i j n n' x M M' (hk.tasks i _ hi rfl) (hk.tasks j _ hj rfl) hM hM'
      (by rw [← hMf, ← hMf', hf])
  done i h ht := by
    obtain ⟨H, N, hH, hN, hm⟩ := hn.done i h (hk.tasks i _ ht rfl)
    obtain ⟨H', hH', hHH⟩ := hle.hosts.keep h H hH
    obtain ⟨N', hN', -, hm'⟩ := hk.nets_fwd hN
    exact ⟨H', N', hH', hHH.subnet ▸ hN', by rw [hHH.name, hm']; exact hm⟩
  doneUnique i j h hi hj := hn.doneUnique i j h (hk.tasks i _ hi rfl) (hk.tasks j _ hj rfl)

/-! ## Steps that touch no name -/

/-- A `Still` change touches no name. -/
theorem Still.keep (h : Still s s') : Keep s s' :=
  ⟨h.names, fun f x hx => by rwa [Sys.announced, h.files], fun _ _ ht _ => h.tasks ▸ ht,
    fun _ _ ht _ => h.tasks ▸ ht⟩

/-- Waking a `select` never makes a `new_host` thread. -/
theorem wakeTask_of_named {t : Task} (h : (s.wakeTask t).named) : s.wakeTask t = t := by
  revert h
  unfold wakeTask
  split <;> (try split) <;> simp [Task.named]

/-- Nor does it wake a `new_host` thread. -/
theorem wakeTask_named {t : Task} (h : t.named) : s.wakeTask t = t := by
  unfold wakeTask
  split <;> simp_all [Task.named]

theorem keep_wake : Keep s s.wake := by
  refine ⟨fun _ => rfl, fun _ => List.Subset.refl _, fun i t ht hn => ?_, fun i t ht hn => ?_⟩
  · obtain ⟨t0, ht0, rfl⟩ := Option.map_eq_some'.1 ht
    rw [wakeTask_of_named hn]
    exact ht0
  · simp [wake, ht, wakeTask_named hn]

/-- A file rewritten with at least the names it held. -/
theorem keep_setFile {f : Nat} {db : RegDb} (h : (s.files f).hosts ⊆ db.hosts) :
    Keep s (s.setFile f db) := by
  refine ⟨fun _ => rfl, fun f' => ?_, fun i t ht _ => ht, fun i t ht _ => ht⟩
  by_cases e : f' = f
  · subst e; simpa [announced] using List.map_subset _ h
  · simp [announced, upd_of_ne _ e]

/-! ## The two steps of `new_host` -/

theorem Names.announced_of_mapped (hn : s.Names) {f : Nat} {x : Bytes} {h : Nat}
    (m : s.Mapped f x h) : x ∈ s.announced f := by
  obtain ⟨n, N, hN, rfl, hm⟩ := m
  exact (hn.mapped n N x h hN hm).2

theorem Names.announced_of_insert (hn : s.Names) {i n : Nat} {N : Subnet} {x : Bytes}
    (ht : s.tasks i = some (.newHostInsert n x)) (hN : s.nets n = some N) :
    x ∈ s.announced N.file := by
  obtain ⟨N', hN', ha, -⟩ := hn.insert i n x ht
  cases hN.symm.trans hN'
  exact ha

/-- A thread that has announced `x` in the file of subnetwork `n`, where no map and no other
thread holds it, may wait to insert it. -/
theorem Names.setInsert (hn : s.Names) {i n : Nat} {N : Subnet} {x : Bytes}
    (hN : s.nets n = some N) (ha : x ∈ s.announced N.file) (hfree : ∀ h, ¬s.Mapped N.file x h)
    (hone : ∀ j n' N', s.tasks j = some (.newHostInsert n' x) → s.nets n' = some N' →
      N'.file = N.file → j = i) :
    (s.setTask i (.newHostInsert n x)).Names where
  mapped := hn.mapped
  mapUnique := hn.mapUnique
  insert j n' x' hj := by
    rcases upd_eq_some hj with ⟨-, e⟩ | ⟨-, hj⟩
    · cases e; exact ⟨N, hN, ha, hfree⟩
    · exact hn.insert j n' x' hj
  insertUnique j k n1 n2 x' N1 N2 hj hk h1 h2 hf := by
    rcases upd_eq_some hj with ⟨rfl, e⟩ | ⟨-, hj0⟩ <;>
      rcases upd_eq_some hk with ⟨rfl, e'⟩ | ⟨-, hk0⟩
    · rfl
    · cases e; cases hN.symm.trans h1
      exact (hone k n2 N2 hk0 h2 hf.symm).symm
    · cases e'; cases hN.symm.trans h2
      exact hone j n1 N1 hj0 h1 hf
    · exact hn.insertUnique j k n1 n2 x' N1 N2 hj0 hk0 h1 h2 hf
  done j h hj := by
    rcases upd_eq_some hj with ⟨-, e⟩ | ⟨-, hj⟩
    · cases e
    · exact hn.done j h hj
  doneUnique j k h hj hk := by
    rcases upd_eq_some hj with ⟨-, e⟩ | ⟨-, hj⟩
    · cases e
    rcases upd_eq_some hk with ⟨-, e⟩ | ⟨-, hk⟩
    · cases e
    exact hn.doneUnique j k h hj hk

/-- `_vnet_newhost` announced `x`: the file is the old one with `x` added, which it did not
hold, so no map and no thread held it (`SQLiteRegistry.announce`, `:1117-1127`). -/
theorem names_newHost (hn : s.Names) {i n : Nat} {N : Subnet} {x : Bytes} {db : RegDb}
    (hN : s.nets n = some N) (hv : s.vnetNewhost N x = .ok db) :
    ((s.setFile N.file db).setTask i (.newHostInsert n x)).Names := by
  unfold vnetNewhost at hv
  split at hv
  · cases hv
  obtain ⟨-, -, hnew, rfl⟩ := announce_ok hv
  have hk : Keep s (s.setFile N.file
      { s.files N.file with hosts := (s.files N.file).hosts ++ [(x, oslAddr N)] }) :=
    keep_setFile (List.subset_append_left _ _)
  refine (hn.keep (le_setFile ..) hk).setInsert hN ?_ ?_ ?_
  · simp [announced]
  · exact fun h m => hnew (hn.announced_of_mapped (hk.mapped_iff.1 m))
  · intro j n' N' hj hN' hf
    exact absurd (hf ▸ hn.announced_of_insert hj hN') hnew

section MapHost

variable {n : Nat} {N N1 : Subnet} {x : Bytes} {g0 : Nat}
  (hN : s.nets n = some N) (hN1 : N1.file = N.file) (hm1 : N1.hostmap = N.hostmap ++ [(x, g0)])
  (e1 : s'.nets = upd s.nets n (some N1))
include hN hN1 hm1 e1

/-- Subnetwork `n`'s map extended by `x ↦ g0` maps what it mapped, and that. -/
theorem mapped_extend {f : Nat} {y : Bytes} {g : Nat} :
    s'.Mapped f y g ↔ s.Mapped f y g ∨ (f = N.file ∧ y = x ∧ g = g0) := by
  constructor
  · rintro ⟨m, M, hM, rfl, hym⟩
    rw [e1] at hM
    rcases upd_eq_some hM with ⟨rfl, rfl⟩ | ⟨-, hM⟩
    · rw [hm1, List.mem_append, List.mem_singleton, Prod.mk.injEq] at hym
      rcases hym with hym | ⟨rfl, rfl⟩
      · exact .inl ⟨m, N, hN, hN1.symm, hym⟩
      · exact .inr ⟨hN1, rfl, rfl⟩
    · exact .inl ⟨m, M, hM, rfl, hym⟩
  · rintro (⟨m, M, hM, rfl, hym⟩ | ⟨rfl, rfl, rfl⟩)
    · by_cases e : m = n
      · subst e; cases hN.symm.trans hM
        exact ⟨m, N1, by rw [e1, upd_self], hN1, hm1 ▸ List.mem_append_left _ hym⟩
      · exact ⟨m, M, by rw [e1, upd_of_ne _ e]; exact hM, rfl, hym⟩
    · exact ⟨n, N1, by rw [e1, upd_self], hN1, by simp [hm1]⟩

theorem nets_extend_back {m : Nat} {M' : Subnet} (hM' : s'.nets m = some M') :
    ∃ M, s.nets m = some M ∧ M'.file = M.file := by
  rw [e1] at hM'
  rcases upd_eq_some hM' with ⟨rfl, rfl⟩ | ⟨-, hM⟩
  · exact ⟨N, hN, hN1⟩
  · exact ⟨M', hM, rfl⟩

theorem nets_extend_fwd {m : Nat} {M : Subnet} (hM : s.nets m = some M) :
    ∃ M', s'.nets m = some M' ∧ M'.file = M.file ∧ M.hostmap ⊆ M'.hostmap := by
  by_cases e : m = n
  · subst e; cases hN.symm.trans hM
    exact ⟨N1, by rw [e1, upd_self], hN1, hm1 ▸ List.subset_append_left _ _⟩
  · exact ⟨M, by rw [e1, upd_of_ne _ e]; exact hM, rfl, List.Subset.refl _⟩

end MapHost

/-- Thread `i` inserting `x` on subnetwork `n` maps it to the fresh host `s.next`, of that name,
and returns that host (`new_host` under `_hostmu`, `:282-288`). -/
theorem Names.mapHost (hf : s.Fresh) (hn : s.Names) {i n : Nat} {N N1 : Subnet} {x : Bytes}
    {H0 : Host} (ht : s.tasks i = some (.newHostInsert n x)) (hN : s.nets n = some N)
    (e1 : s'.nets = upd s.nets n (some N1)) (e2 : s'.hosts = upd s.hosts s.next (some H0))
    (e3 : s'.files = s.files) (e4 : s'.tasks = upd s.tasks i (some (.newHostDone (.ok s.next))))
    (hN1 : N1.file = N.file) (hm1 : N1.hostmap = N.hostmap ++ [(x, s.next)])
    (hH0 : H0.name = x ∧ H0.subnet = n) : s'.Names := by
  obtain ⟨N0, hN0, ha, hfree⟩ := hn.insert i n x ht
  cases hN.symm.trans hN0
  have hA : ∀ f, s'.announced f = s.announced f := fun f => by rw [announced, e3]; rfl
  have old : ∀ {g G}, s.hosts g = some G → s'.hosts g = some G := fun {g G} hG => by
    have : g ≠ s.next := fun e => by rw [e, hf.hosts _ le_rfl] at hG; cases hG
    rw [e2, upd_of_ne _ this]; exact hG
  have mp : ∀ {f y g}, s'.Mapped f y g ↔ s.Mapped f y g ∨ (f = N.file ∧ y = x ∧ g = s.next) :=
    mapped_extend hN hN1 hm1 e1
  have oldMapped : ∀ m M y g, s.nets m = some M → (y, g) ∈ M.hostmap →
      (∃ H, s'.hosts g = some H ∧ H.name = y ∧ H.subnet = m) ∧ y ∈ s'.announced M.file :=
    fun m M y g hM hym => by
      obtain ⟨⟨H, hH, rfl, rfl⟩, hy⟩ := hn.mapped m M y g hM hym
      exact ⟨⟨H, old hH, rfl, rfl⟩, hA _ ▸ hy⟩
  have fresh : ∀ j, s.tasks j ≠ some (.newHostDone (.ok s.next)) := fun j h => by
    obtain ⟨H, -, hH, -⟩ := hn.done j _ h
    rw [hf.hosts _ le_rfl] at hH; cases hH
  refine ⟨fun m M y g hM hym => ?_, fun f y g g' m m' => ?_, fun j m y hj => ?_,
    fun j k m1 m2 y M1 M2 hj hk h1 h2 hf12 => ?_, fun j g hj => ?_, fun j k g hj hk => ?_⟩
  case refine_1 =>
    rw [e1] at hM
    rcases upd_eq_some hM with ⟨rfl, rfl⟩ | ⟨-, hM⟩
    · rw [hm1, List.mem_append, List.mem_singleton] at hym
      rcases hym with hym | e
      · exact hN1 ▸ oldMapped m N y g hN hym
      · cases e
        exact ⟨⟨H0, by rw [e2, upd_self], hH0⟩, by rw [hA, hN1]; exact ha⟩
    · exact oldMapped m M y g hM hym
  case refine_2 =>
    rcases mp.1 m with m | ⟨rfl, rfl, rfl⟩ <;> rcases mp.1 m' with m' | ⟨e, ey, rfl⟩
    · exact hn.mapUnique f y g g' m m'
    · exact absurd (ey ▸ e ▸ m) (hfree g)
    · exact absurd m' (hfree g')
    · rfl
  case refine_3 =>
    rw [e4] at hj
    rcases upd_eq_some hj with ⟨-, e⟩ | ⟨hji, hj⟩
    · cases e
    obtain ⟨M, hM, hy, hfr⟩ := hn.insert j m y hj
    obtain ⟨M', hM', hf', -⟩ := nets_extend_fwd hN hN1 hm1 e1 hM
    refine ⟨M', hM', by rw [hA, hf']; exact hy, fun g mg => ?_⟩
    rcases mp.1 mg with mg | ⟨hfile, rfl, -⟩
    · exact hfr g (hf' ▸ mg)
    · exact hji (hn.insertUnique j i m n y M N hj ht hM hN (hf'.symm.trans hfile))
  case refine_4 =>
    rw [e4] at hj hk
    rcases upd_eq_some hj with ⟨-, e⟩ | ⟨-, hj⟩
    · cases e
    rcases upd_eq_some hk with ⟨-, e⟩ | ⟨-, hk⟩
    · cases e
    obtain ⟨P1, hP1, hq1⟩ := nets_extend_back hN hN1 hm1 e1 h1
    obtain ⟨P2, hP2, hq2⟩ := nets_extend_back hN hN1 hm1 e1 h2
    exact hn.insertUnique j k m1 m2 y P1 P2 hj hk hP1 hP2 (hq1.symm.trans (hf12.trans hq2))
  case refine_5 =>
    rw [e4] at hj
    rcases upd_eq_some hj with ⟨-, e⟩ | ⟨-, hj⟩
    · cases e
      exact ⟨H0, N1, by rw [e2, upd_self], by rw [hH0.2, e1, upd_self], by simp [hm1, hH0.1]⟩
    · obtain ⟨H, M, hH, hM, hym⟩ := hn.done j g hj
      obtain ⟨M', hM', -, hsub⟩ := nets_extend_fwd hN hN1 hm1 e1 hM
      exact ⟨H, M', old hH, hM', hsub hym⟩
  case refine_6 =>
    rw [e4] at hj hk
    rcases upd_eq_some hj with ⟨rfl, e⟩ | ⟨-, hj0⟩ <;>
      rcases upd_eq_some hk with ⟨rfl, e'⟩ | ⟨-, hk0⟩
    · rfl
    · cases e; exact absurd hk0 (fresh k)
    · cases e'; exact absurd hj0 (fresh j)
    · exact hn.doneUnique j k g hj0 hk0

/-- The `_hostmu` part of `new_host` finds the name it announced free in `_hostmap`, so its
panic branch (`:284-285`) is never taken. -/
theorem Names.newHostLocked_ok (hn : s.Names) {i n : Nat} {N : Subnet} {x : Bytes}
    (ht : s.tasks i = some (.newHostInsert n x)) (hN : s.nets n = some N) :
    ∃ s1 h, s.newHostLocked n N x = .ok (s1, h) := by
  obtain ⟨N0, hN0, -, hfree⟩ := hn.insert i n x ht
  cases hN.symm.trans hN0
  unfold newHostLocked
  split
  · rename_i hx
    obtain ⟨h, hh⟩ := Option.isSome_iff_exists.1 hx
    exact absurd ⟨n, N, hN, rfl, mem_of_lookup hh⟩ (hfree h)
  · exact ⟨_, _, rfl⟩

theorem names_newHostInsert (hf : s.Fresh) (hn : s.Names) {i n h : Nat} {N : Subnet} {x : Bytes}
    {s1 : Sys} (ht : s.tasks i = some (.newHostInsert n x)) (hN : s.nets n = some N)
    (hl : s.newHostLocked n N x = .ok (s1, h)) :
    (s1.setTask i (.newHostDone (.ok h))).Names := by
  unfold newHostLocked at hl
  split at hl
  · cases hl
  · cases hl
    exact hn.mapHost hf ht hN rfl rfl rfl rfl rfl rfl ⟨rfl, rfl⟩

/-! ## Every step -/

/-- The threads of `s` that returned a host have returned it in `s'` too. -/
def Retained (s s' : Sys) : Prop :=
  ∀ j h, s.tasks j = some (.newHostDone (.ok h)) → s'.tasks j = some (.newHostDone (.ok h))

theorem Names.keep_retained (hn : s.Names) (hle : s.Le s') (hk : Keep s s') :
    s'.Names ∧ Retained s s' :=
  ⟨hn.keep hle hk, fun j _ hj => hk.stay j _ hj rfl⟩

/-- Thread `i`, not one that returned, moves on: the others stay. -/
theorem retained_setTask {s1 : Sys} {i : Nat} {t0 t : Task} (h1 : s1.tasks = s.tasks)
    (hi : s.tasks i = some t0) (h0 : ∀ h, t0 ≠ .newHostDone (.ok h)) :
    Retained s (s1.setTask i t) := fun j h hj => by
  have hji : j ≠ i := by rintro rfl; exact h0 h (Option.some.inj (hi.symm.trans hj))
  simp [upd_of_ne _ hji, h1, hj]

/-- A step of one thread keeps the invariant; only the two of `new_host` touch a name. -/
theorem Shape.names (hf : s.Fresh) (hn : s.Names) {i : Nat} {t : Task}
    (ht : s.tasks i = some t) (h : Shape s i t s') : s'.Names ∧ Retained s s' := by
  have K : Keep s s' → s'.Names ∧ Retained s s' := hn.keep_retained (h.le hf ht)
  cases h with
  | move h1 m => exact K (h1.keep.setTask (unnamed_of ht m.named) m.named')
  | @alloc h H _ _ n0 n1 _ _ =>
    exact K ((Keep.same rfl rfl rfl : Keep s (s.allocFreeSocket h H).1).setTask (unnamed_of ht n0) n1)
  | @conn s1 C sk _ S' _ h1 _ _ _ n0 idle =>
    have h2 : Keep s1 ((s1.setConn s1.next C).setSock sk S').bump := .same rfl rfl rfl
    exact K ((h1.keep.trans h2).setTask (unnamed_of ht n0) idle.named)
  | spawn n0 idle idleU =>
    exact K ((keep_spawn (hf.tasks _ le_rfl) idleU.named).setTask (unnamed_of ht n0) idle.named)
  | announce e hN hv => subst e; exact ⟨names_newHost hn hN hv, retained_setTask rfl ht nofun⟩
  | insert e hN hl =>
    subst e
    exact ⟨names_newHostInsert hf hn ht hN hl,
      retained_setTask (aside_newHostLocked hf hN hl).tasks ht nofun⟩
  | insertFail e hN hl =>
    subst e
    obtain ⟨s1, h, hl'⟩ := hn.newHostLocked_ok ht hN
    cases hl.symm.trans hl'

/-- Every step keeps the invariant, and keeps what a `new_host` returned. -/
theorem StepShape.names (hf : s.Fresh) (hn : s.Names) (h : StepShape s s') :
    s'.Names ∧ Retained s s' := by
  have K : Keep s s' → s'.Names ∧ Retained s s' := hn.keep_retained (h.le hf)
  cases h with
  | run ht h => exact h.names hf hn ht
  | meet _ hi hj h1 mi mj =>
    exact K ((h1.keep.setTask (unnamed_of hi mi.named) mi.named').setTask (unnamed_of hj mj.named)
      mj.named')
  | spawn h1 n0 _ _ => exact K (h1.keep.trans (keep_spawn ((hf.of_le h1.le).tasks _ le_rfl) n0))
  | still h1 => exact K h1.keep
  | wake h1 => exact K (h1.keep.trans keep_wake)

theorem names_init {nets : List Subnet} (files : Nat → RegDb)
    (h : ∀ N ∈ nets, N = Subnet.joined N.network N.uri N.file N.osPort) :
    (Sys.init nets files).Names := by
  have hj : ∀ n N x g, (Sys.init nets files).nets n = some N → (x, g) ∉ N.hostmap :=
    fun n N _ _ hN => by rw [h N (List.getElem?_mem hN)]; exact List.not_mem_nil _
  exact {
    mapped := fun n N x g hN hm => absurd hm (hj n N x g hN)
    mapUnique := fun _ x g _ ⟨n, N, hN, _, hm⟩ => absurd hm (hj n N x g hN)
    insert := fun _ _ _ h => nomatch h
    insertUnique := fun _ _ _ _ _ _ _ h => nomatch h
    done := fun _ _ h => nomatch h
    doneUnique := fun _ _ _ h => nomatch h }

end Sys

/-- Every reachable state holds each name at most once per registry file. -/
theorem Reachable.names {s : Sys} (h : Reachable s) : s.Names := by
  induction h with
  | init nets files h => exact Sys.names_init files h
  | step a hr hs ih => exact ((Sys.step_shape hr.fresh hs).names hr.fresh ih).1

/-- Along a run from a reachable state, a `new_host` that returned keeps its result. -/
theorem Reachable.retained {s s' : Sys} {as : List Act} (hs : Reachable s)
    (hr : s.run as = some s') : s.Retained s' := by
  induction as generalizing s with
  | nil => cases hr; exact fun _ _ => id
  | cons a as ih =>
    obtain ⟨s1, h1, h2⟩ := Option.bind_eq_some.1 hr
    exact fun j h hj =>
      ih (.step a hs h1) h2 j h (((Sys.step_shape hs.fresh h1).names hs.fresh hs.names).2 j h hj)

namespace Sys

variable {s s' : Sys} {f : Nat} {x : Bytes} {i j g g' : Nat}

/-- Thread `i`'s `new_host(x)` has returned host `g`, of a subnetwork on registry file `f`. -/
def Returned (s : Sys) (f : Nat) (x : Bytes) (i g : Nat) : Prop :=
  s.tasks i = some (.newHostDone (.ok g)) ∧
    ∃ H N, s.hosts g = some H ∧ s.nets H.subnet = some N ∧ N.file = f ∧ H.name = x

/-- A returned host stays returned, with its name and file, along a run. -/
theorem Returned.run {as : List Act} (hs : Reachable s) (hr : s.run as = some s')
    (h : s.Returned f x i g) : s'.Returned f x i g := by
  obtain ⟨hi, H, N, hH, hN, rfl, rfl⟩ := h
  have hle := run_le hs.fresh hr
  obtain ⟨H', hH', hHH⟩ := hle.hosts.keep g H hH
  obtain ⟨N', hN', hNN⟩ := hle.nets.keep _ N hN
  exact ⟨hs.retained hr i g hi, H', N', hH', hHH.subnet ▸ hN', hNN.file, hHH.name⟩

theorem Names.returned_mapped (hn : s.Names) (h : s.Returned f x i g) : s.Mapped f x g := by
  obtain ⟨hi, H, N, hH, hN, rfl, rfl⟩ := h
  obtain ⟨H', N', hH', hN', hm⟩ := hn.done i g hi
  cases hH.symm.trans hH'
  cases hN.symm.trans hN'
  exact ⟨_, N, hN, rfl, hm⟩

theorem Names.returned_unique (hn : s.Names) (hi : s.Returned f x i g)
    (hj : s.Returned f x j g') : i = j ∧ g = g' := by
  obtain rfl := hn.mapUnique f x g g' (hn.returned_mapped hi) (hn.returned_mapped hj)
  exact ⟨hn.doneUnique i j g hi.1 hj.1, rfl⟩

end Sys

/-- **Host names are unique per registry file.** Along any run from a reachable state (any
interleaving of `new_host` calls on any subnetworks that share a registry file), two `new_host`
calls that have returned hosts of one name on that file, at any two points of the run, are one
call that returned one host; and a `new_host` about to insert its name into `_hostmap` always
finds it free, so the panic branch is never taken. -/
theorem host_names_unique {s1 s2 : Sys} {as : List Act} (hs : Reachable s1)
    (hr : s1.run as = some s2) :
    (∀ f x i j h h', s1.Returned f x i h → s2.Returned f x j h' → i = j ∧ h = h') ∧
      ∀ k n x N, s2.tasks k = some (.newHostInsert n x) → s2.nets n = some N →
        ∃ s3 h, s2.newHostLocked n N x = .ok (s3, h) := by
  have hn := (hs.run hr).names
  exact ⟨fun f x i j h h' hi hj => hn.returned_unique (hi.run hs hr) hj,
    fun k n x N hk hN => hn.newHostLocked_ok hk hN⟩

/-- Two subnetworks `lonetX`, as of two processes, on one registry file. -/
def sharedNets : List Subnet := [lonetX, Subnet.joined (ascii "lonetX") (ascii "r.db") 0 5001]

/-- Both subnetworks run `new_host("a")`: the first announces, the second's announce fails, the
first inserts. -/
def sharedRun : List Act :=
  [.newHost 0 (ascii "a"), .newHost 1 (ascii "a"), .run 2, .run 3, .run 2]

/-- The state `sharedRun` ends in. -/
def sharedState : Sys :=
  ((Sys.init sharedNets fun _ => ⟨true, true, [], []⟩).run sharedRun).getD
    (Sys.init [] fun _ => RegDb.empty)

theorem host_names_unique_shared :
    (∀ f x i j h h', sharedState.Returned f x i h → sharedState.Returned f x j h' →
      i = j ∧ h = h') ∧
      ∀ k n x N, sharedState.tasks k = some (.newHostInsert n x) → sharedState.nets n = some N →
        ∃ s3 h, sharedState.newHostLocked n N x = .ok (s3, h) :=
  @host_names_unique sharedState sharedState []
    (@Reachable.run _ sharedState sharedRun
      (.init sharedNets (fun _ => ⟨true, true, [], []⟩) (by decide)) rfl) rfl

end Lonet
