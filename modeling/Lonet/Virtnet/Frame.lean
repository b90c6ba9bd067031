import Lonet.Virtnet.System

/-!
# What a step keeps

No step of the system removes an object or changes what it is: a socket keeps its host and
port, a host its name and subnetwork, a connection its socket, peer address and raw end, an OS
connection its subnetwork, dialer and (once set) acceptor. Flags such as `down`, `closed` and
`stuck` are only ever set, subnetworks only gain hosts, and new objects take the ids from
`next` on. `Sys.Le s s'` states all of this, once per operation of `Lonet.Virtnet.Ops`.

Most operations also leave the threads alone, and make no conn (`Sys.Aside`); all but the two of
`new_host` write no registry file and leave the subnetworks' host maps alone (`Sys.Still`), and
those under a lock touch no byte in flight either (`Sys.Quiet`). `Lonet.Virtnet.Footprint` puts
these together into what each step of the system can change.
-/

namespace Lonet

/-! ## Heaps that only grow -/

/-- `g` keeps every object of `f`, each related to its old self by `R`, and has new objects
only at ids from `n` below `n'`. -/
structure HeapLe {α : Type} (R : α → α → Prop) (n n' : Nat) (f g : Nat → Option α) : Prop where
  keep : ∀ k a, f k = some a → ∃ b, g k = some b ∧ R a b
  new : ∀ k b, g k = some b → (∃ a, f k = some a) ∨ (n ≤ k ∧ k < n')

namespace HeapLe

variable {α : Type} {R : α → α → Prop} {n n' n'' : Nat} {f g h : Nat → Option α}

theorem rfl' (hR : ∀ a, R a a) : HeapLe R n n' f f :=
  ⟨fun _ a hk => ⟨a, hk, hR a⟩, fun _ b hk => .inl ⟨b, hk⟩⟩

theorem trans (hR : ∀ a b c, R a b → R b c → R a c) (h1 : HeapLe R n n' f g)
    (h2 : HeapLe R n' n'' g h) (hn : n ≤ n') (hn' : n' ≤ n'') : HeapLe R n n'' f h where
  keep k a hk := by
    obtain ⟨b, hb, hab⟩ := h1.keep k a hk
    obtain ⟨c, hc, hbc⟩ := h2.keep k b hb
    exact ⟨c, hc, hR a b c hab hbc⟩
  new k c hk := by
    rcases h2.new k c hk with ⟨b, hb⟩ | hk'
    · rcases h1.new k b hb with ha | hk''
      · exact .inl ha
      · exact .inr ⟨hk''.1, by omega⟩
    · exact .inr ⟨by omega, hk'.2⟩

theorem keep_eq {k : Nat} {a b : α} (h : HeapLe R n n' f g) (ha : f k = some a)
    (hb : g k = some b) : R a b := by
  obtain ⟨b', hb', hab⟩ := h.keep k a ha
  rw [hb] at hb'
  cases hb'
  exact hab

/-- Writing object `b` at id `k`, an old object's later self or a new one. -/
theorem upd_keep {k : Nat} {b : α} (hf : HeapLe R n n' f g) (hk : ∀ a, f k = some a → R a b)
    (hk' : (∃ a, f k = some a) ∨ (n ≤ k ∧ k < n')) : HeapLe R n n' f (upd g k (some b)) where
  keep k' a ha := by
    by_cases e : k' = k
    · subst e; exact ⟨b, upd_self .., hk a ha⟩
    · rw [upd_of_ne _ e]; exact hf.keep k' a ha
  new k' b' hb := by
    by_cases e : k' = k
    · subst e; exact hk'
    · rw [upd_of_ne _ e] at hb; exact hf.new k' b' hb

theorem upd_old {k : Nat} {a b : α} (hf : HeapLe R n n' f g) (hk : f k = some a) (hab : R a b) :
    HeapLe R n n' f (upd g k (some b)) :=
  hf.upd_keep (fun a' ha' => by rw [hk] at ha'; cases ha'; exact hab) (.inl ⟨a, hk⟩)

theorem upd_new {k : Nat} {b : α} (hf : HeapLe R n n' f g) (hk : f k = none) (hn : n ≤ k)
    (hn' : k < n') : HeapLe R n n' f (upd g k (some b)) :=
  hf.upd_keep (fun a' ha' => by rw [hk] at ha'; cases ha') (.inr ⟨hn, hn'⟩)

/-- A new object at the first free id `n`. -/
theorem upd_next {b : α} (hR : ∀ a, R a a) (hfree : ∀ k, n ≤ k → f k = none) :
    HeapLe R n (n + 1) f (upd f n (some b)) :=
  (rfl' hR).upd_new (hfree n le_rfl) le_rfl (Nat.lt_succ_self n)

end HeapLe

/-! ## Objects that only move forward -/

/-- A subnetwork later on: the same network, registry and OS port; hosts only added; flags
only set. -/
structure Subnet.Le (N N' : Subnet) : Prop where
  network : N'.network = N.network
  uri : N'.uri = N.uri
  file : N'.file = N.file
  osPort : N'.osPort = N.osPort
  hostmap : N.hostmap <+: N'.hostmap
  down : N.down = true → N'.down = true
  oslClosed : N.oslClosed = true → N'.oslClosed = true
  poolClosed : N.poolClosed = true → N'.poolClosed = true
  stuck : N.stuck = true → N'.stuck = true

/-- A host later on: the same subnetwork and name; flags only set. -/
structure Host.Le (H H' : Host) : Prop where
  subnet : H'.subnet = H.subnet
  name : H'.name = H.name
  down : H.down = true → H'.down = true
  closeOnce : H.closeOnce = true → H'.closeOnce = true
  stuck : H.stuck = true → H'.stuck = true

/-- A socket later on: the same host and port. -/
structure Sock.Le (S S' : Sock) : Prop where
  host : S'.host = S.host
  port : S'.port = S.port

/-- A listener later on: the same socket; flags only set. -/
structure Listener.Le (L L' : Listener) : Prop where
  socket : L'.socket = L.socket
  down : L.down = true → L'.down = true
  closed : L.closed = true → L'.closed = true

/-- A connection later on: the same socket, peer and raw end; flags only set. -/
structure Conn.Le (C C' : Conn) : Prop where
  socket : C'.socket = C.socket
  peerAddr : C'.peerAddr = C.peerAddr
  osconn : C'.osconn = C.osconn
  side : C'.side = C.side
  down : C.down = true → C'.down = true
  closed : C.closed = true → C'.closed = true

/-- An OS connection later on: the same subnetwork and dialer, the acceptor once known kept;
ends only closed. -/
structure OsConn.Le (K K' : OsConn) : Prop where
  subnet : K'.subnet = K.subnet
  dialer : K'.dialer = K.dialer
  acceptor : ∀ a, K.acceptor = some a → K'.acceptor = some a
  clientClosed : K.clientClosed = true → K'.clientClosed = true
  serverClosed : K.serverClosed = true → K'.serverClosed = true

theorem Subnet.Le.refl (N : Subnet) : N.Le N :=
  ⟨rfl, rfl, rfl, rfl, List.prefix_refl _, id, id, id, id⟩

theorem Subnet.Le.trans {N N' N'' : Subnet} (h : N.Le N') (h' : N'.Le N'') : N.Le N'' :=
  ⟨h'.network.trans h.network, h'.uri.trans h.uri, h'.file.trans h.file,
    h'.osPort.trans h.osPort, h.hostmap.trans h'.hostmap, h'.down ∘ h.down,
    h'.oslClosed ∘ h.oslClosed, h'.poolClosed ∘ h.poolClosed, h'.stuck ∘ h.stuck⟩

theorem Host.Le.refl (H : Host) : H.Le H := ⟨rfl, rfl, id, id, id⟩

theorem Host.Le.trans {H H' H'' : Host} (h : H.Le H') (h' : H'.Le H'') : H.Le H'' :=
  ⟨h'.subnet.trans h.subnet, h'.name.trans h.name, h'.down ∘ h.down,
    h'.closeOnce ∘ h.closeOnce, h'.stuck ∘ h.stuck⟩

theorem Sock.Le.refl (S : Sock) : S.Le S := ⟨rfl, rfl⟩

theorem Sock.Le.trans {S S' S'' : Sock} (h : S.Le S') (h' : S'.Le S'') : S.Le S'' :=
  ⟨h'.host.trans h.host, h'.port.trans h.port⟩

theorem Listener.Le.refl (L : Listener) : L.Le L := ⟨rfl, id, id⟩

theorem Listener.Le.trans {L L' L'' : Listener} (h : L.Le L') (h' : L'.Le L'') : L.Le L'' :=
  ⟨h'.socket.trans h.socket, h'.down ∘ h.down, h'.closed ∘ h.closed⟩

theorem Conn.Le.refl (C : Conn) : C.Le C := ⟨rfl, rfl, rfl, rfl, id, id⟩

theorem Conn.Le.trans {C C' C'' : Conn} (h : C.Le C') (h' : C'.Le C'') : C.Le C'' :=
  ⟨h'.socket.trans h.socket, h'.peerAddr.trans h.peerAddr, h'.osconn.trans h.osconn,
    h'.side.trans h.side, h'.down ∘ h.down, h'.closed ∘ h.closed⟩

theorem OsConn.Le.refl (K : OsConn) : K.Le K := ⟨rfl, rfl, fun _ => id, id, id⟩

theorem OsConn.Le.trans {K K' K'' : OsConn} (h : K.Le K') (h' : K'.Le K'') : K.Le K'' :=
  ⟨h'.subnet.trans h.subnet, h'.dialer.trans h.dialer, fun a => h'.acceptor a ∘ h.acceptor a,
    h'.clientClosed ∘ h.clientClosed, h'.serverClosed ∘ h.serverClosed⟩

/-! ## States that only move forward -/

namespace Sys

/-- `s'` comes after `s`: every object of `s` is still there, moved forward, and new objects
have ids from `s.next` below `s'.next`. Tasks may change in any way. -/
structure Le (s s' : Sys) : Prop where
  next : s.next ≤ s'.next
  nets : HeapLe Subnet.Le s.next s'.next s.nets s'.nets
  hosts : HeapLe Host.Le s.next s'.next s.hosts s'.hosts
  socks : HeapLe Sock.Le s.next s'.next s.socks s'.socks
  listeners : HeapLe Listener.Le s.next s'.next s.listeners s'.listeners
  conns : HeapLe Conn.Le s.next s'.next s.conns s'.conns
  osconns : HeapLe OsConn.Le s.next s'.next s.osconns s'.osconns
  tasks : HeapLe (fun _ _ => True) s.next s'.next s.tasks s'.tasks

/-- Every id from `next` on is free in every heap. -/
structure Fresh (s : Sys) : Prop where
  nets : ∀ k, s.next ≤ k → s.nets k = none
  hosts : ∀ k, s.next ≤ k → s.hosts k = none
  socks : ∀ k, s.next ≤ k → s.socks k = none
  listeners : ∀ k, s.next ≤ k → s.listeners k = none
  conns : ∀ k, s.next ≤ k → s.conns k = none
  osconns : ∀ k, s.next ≤ k → s.osconns k = none
  tasks : ∀ k, s.next ≤ k → s.tasks k = none

theorem Le.refl (s : Sys) : s.Le s :=
  ⟨le_refl _, .rfl' Subnet.Le.refl, .rfl' Host.Le.refl, .rfl' Sock.Le.refl,
    .rfl' Listener.Le.refl, .rfl' Conn.Le.refl, .rfl' OsConn.Le.refl, .rfl' fun _ => trivial⟩

theorem Le.trans {s s' s'' : Sys} (h : s.Le s') (h' : s'.Le s'') : s.Le s'' :=
  ⟨h.next.trans h'.next,
    h.nets.trans (fun _ _ _ => Subnet.Le.trans) h'.nets h.next h'.next,
    h.hosts.trans (fun _ _ _ => Host.Le.trans) h'.hosts h.next h'.next,
    h.socks.trans (fun _ _ _ => Sock.Le.trans) h'.socks h.next h'.next,
    h.listeners.trans (fun _ _ _ => Listener.Le.trans) h'.listeners h.next h'.next,
    h.conns.trans (fun _ _ _ => Conn.Le.trans) h'.conns h.next h'.next,
    h.osconns.trans (fun _ _ _ => OsConn.Le.trans) h'.osconns h.next h'.next,
    h.tasks.trans (fun _ _ _ _ _ => trivial) h'.tasks h.next h'.next⟩

/-- Free ids stay free after any later state's `next`. -/
theorem Fresh.of_le {s s' : Sys} (hf : s.Fresh) (h : s.Le s') : s'.Fresh := by
  have free : ∀ {α : Type} {R : α → α → Prop} {f g : Nat → Option α},
      (∀ k, s.next ≤ k → f k = none) → HeapLe R s.next s'.next f g →
      ∀ k, s'.next ≤ k → g k = none := by
    intro α R f g hf hg k hk
    cases hgk : g k with
    | none => rfl
    | some b =>
      rcases hg.new k b hgk with ⟨a, ha⟩ | hk'
      · rw [hf k (h.next.trans hk)] at ha; cases ha
      · omega
  exact ⟨free hf.nets h.nets, free hf.hosts h.hosts, free hf.socks h.socks,
    free hf.listeners h.listeners, free hf.conns h.conns, free hf.osconns h.osconns,
    free hf.tasks h.tasks⟩

/-! ## Setting one object -/

variable {s : Sys}

theorem le_setNet {n : Nat} {N N' : Subnet} (h : s.nets n = some N) (hle : N.Le N') :
    s.Le (s.setNet n N') :=
  { Le.refl s with nets := (HeapLe.rfl' Subnet.Le.refl).upd_old h hle }

theorem le_setHost {h : Nat} {H H' : Host} (hH : s.hosts h = some H) (hle : H.Le H') :
    s.Le (s.setHost h H') :=
  { Le.refl s with hosts := (HeapLe.rfl' Host.Le.refl).upd_old hH hle }

theorem le_setSock {sk : Nat} {S S' : Sock} (hS : s.socks sk = some S) (hle : S.Le S') :
    s.Le (s.setSock sk S') :=
  { Le.refl s with socks := (HeapLe.rfl' Sock.Le.refl).upd_old hS hle }

theorem le_setListener {l : Nat} {L L' : Listener} (hL : s.listeners l = some L)
    (hle : L.Le L') : s.Le (s.setListener l L') :=
  { Le.refl s with listeners := (HeapLe.rfl' Listener.Le.refl).upd_old hL hle }

theorem le_setConn {c : Nat} {C C' : Conn} (hC : s.conns c = some C) (hle : C.Le C') :
    s.Le (s.setConn c C') :=
  { Le.refl s with conns := (HeapLe.rfl' Conn.Le.refl).upd_old hC hle }

theorem le_setOsConn {k : Nat} {K K' : OsConn} (hK : s.osconns k = some K) (hle : K.Le K') :
    s.Le (s.setOsConn k K') :=
  { Le.refl s with osconns := (HeapLe.rfl' OsConn.Le.refl).upd_old hK hle }

theorem le_setTask {i : Nat} {t t' : Task} (ht : s.tasks i = some t) : s.Le (s.setTask i t') :=
  { Le.refl s with tasks := (HeapLe.rfl' fun _ => trivial).upd_old ht trivial }

theorem le_setFile (f : Nat) (db : RegDb) : s.Le (s.setFile f db) :=
  ⟨le_rfl, .rfl' Subnet.Le.refl, .rfl' Host.Le.refl, .rfl' Sock.Le.refl, .rfl' Listener.Le.refl,
    .rfl' Conn.Le.refl, .rfl' OsConn.Le.refl, .rfl' fun _ => trivial⟩

theorem le_bump : s.Le s.bump :=
  ⟨Nat.le_succ _, .rfl' Subnet.Le.refl, .rfl' Host.Le.refl, .rfl' Sock.Le.refl,
    .rfl' Listener.Le.refl, .rfl' Conn.Le.refl, .rfl' OsConn.Le.refl, .rfl' fun _ => trivial⟩

/-! ## New objects at the next id -/

theorem le_newHost (hf : s.Fresh) (H : Host) : s.Le (s.setHost s.next H).bump :=
  { le_bump with hosts := .upd_next Host.Le.refl hf.hosts }

theorem le_newSock (hf : s.Fresh) (S : Sock) : s.Le (s.setSock s.next S).bump :=
  { le_bump with socks := .upd_next Sock.Le.refl hf.socks }

theorem le_newListener (hf : s.Fresh) (L : Listener) : s.Le (s.setListener s.next L).bump :=
  { le_bump with listeners := .upd_next Listener.Le.refl hf.listeners }

theorem le_newConn (hf : s.Fresh) (C : Conn) : s.Le (s.setConn s.next C).bump :=
  { le_bump with conns := .upd_next Conn.Le.refl hf.conns }

theorem le_newOsConn (hf : s.Fresh) (K : OsConn) : s.Le (s.setOsConn s.next K).bump :=
  { le_bump with osconns := .upd_next OsConn.Le.refl hf.osconns }

/-- A new task at the next id. -/
theorem le_spawn (hf : s.Fresh) (t : Task) : s.Le (s.spawn t) :=
  { le_bump with tasks := .upd_next (fun _ => trivial) hf.tasks }

/-! ## Operations that make objects -/

theorem le_setHost_socketv {h : Nat} {H : Host} (hH : s.hosts h = some H)
    (v : List (Option Nat)) : s.Le (s.setHost h { H with socketv := v }) :=
  le_setHost hH ⟨rfl, rfl, id, id, id⟩

theorem le_allocFreeSocket (hf : s.Fresh) {h : Nat} {H : Host} (hH : s.hosts h = some H) :
    s.Le (s.allocFreeSocket h H).1 :=
  (le_setHost_socketv hH _).trans (le_newSock (hf.of_le (le_setHost_socketv hH _)) _)

theorem le_installListener (hf : s.Fresh) {h : Nat} {H : Host} (hH : s.hosts h = some H)
    (v : List (Option Nat)) (i : Nat) (port : Int) : s.Le (s.installListener h H v i port).1 := by
  have h1 := le_setHost_socketv hH (v.set i (some s.next))
  have h2 := h1.trans (le_newSock (hf.of_le h1) ⟨h, port, none, some (s.next + 1), none⟩)
  exact h2.trans (le_newListener (hf.of_le h2) ⟨s.next, false, false⟩)

theorem le_newHostLocked (hf : s.Fresh) {n h : Nat} {N : Subnet} {name : Bytes} {s' : Sys}
    (hN : s.nets n = some N) (hs : s.newHostLocked n N name = .ok (s', h)) : s.Le s' := by
  unfold newHostLocked at hs
  split at hs
  · cases hs
  · cases hs
    have h1 := le_newHost hf ⟨n, name, [], false, false, false⟩
    have h2 : (s.setHost s.next ⟨n, name, [], false, false, false⟩).bump.Le
        ((s.setHost s.next ⟨n, name, [], false, false, false⟩).bump.setNet n
          { N with hostmap := N.hostmap ++ [(name, s.next)], nopenhosts := N.nopenhosts + 1 }) :=
      le_setNet hN ⟨rfl, rfl, rfl, rfl, List.prefix_append _ _, id, id, id, id⟩
    exact h1.trans h2

theorem le_openOsConn (hf : s.Fresh) (n : Nat) (dialer : Option Nat) (line : Bytes) :
    s.Le (s.openOsConn n dialer line) := by
  unfold openOsConn
  split
  · rename_i N hN
    have h1 := le_newOsConn hf ⟨n, line, [], false, false, dialer, none⟩
    have h2 : (s.setOsConn s.next ⟨n, line, [], false, false, dialer, none⟩).bump.Le
        ((s.setOsConn s.next ⟨n, line, [], false, false, dialer, none⟩).bump.setNet n
          { N with backlog := N.backlog ++ [s.next] }) :=
      le_setNet hN ⟨rfl, rfl, rfl, rfl, List.prefix_refl _, id, id, id, id⟩
    exact h1.trans h2
  · exact Le.refl s

theorem le_wake : s.Le s.wake :=
  { Le.refl s with
    tasks := ⟨fun k a hk => ⟨s.wakeTask a, by simp [wake, hk], trivial⟩, fun k b hk => .inl (by
      simp only [wake, Option.map_eq_some'] at hk
      obtain ⟨a, ha, -⟩ := hk
      exact ⟨a, ha⟩)⟩ }

end Sys

/-- An entry of `upd f k (some b)`: `b` at `k`, the entry of `f` elsewhere. -/
theorem upd_eq_some {α : Type} {f : Nat → Option α} {k j : Nat} {b c : α}
    (h : upd f k (some b) j = some c) : (j = k ∧ c = b) ∨ (j ≠ k ∧ f j = some c) := by
  by_cases e : j = k
  · subst e; rw [upd_self, Option.some.injEq] at h; exact .inl ⟨rfl, h.symm⟩
  · rw [upd_of_ne _ e] at h; exact .inr ⟨e, h⟩

namespace Sys

variable {s : Sys}

/-! ## The links between objects -/

/-- The links between objects that the code keeps: a listener's socket, a socket's host and a
host's subnetwork exist; the sockets in a port table are on that host; a socket's listener names
it back; the hosts in `_hostmap` are on that subnetwork. -/
structure Refs (s : Sys) : Prop where
  listenerSock : ∀ l L, s.listeners l = some L → ∃ S, s.socks L.socket = some S
  sockHost : ∀ sk S, s.socks sk = some S → ∃ H, s.hosts S.host = some H
  hostNet : ∀ h H, s.hosts h = some H → ∃ N, s.nets H.subnet = some N
  slotSock : ∀ h H sk, s.hosts h = some H → some sk ∈ H.socketv →
    ∃ S, s.socks sk = some S ∧ S.host = h
  sockListener : ∀ sk S l, s.socks sk = some S → S.listener = some l →
    ∃ L, s.listeners l = some L ∧ L.socket = sk
  hostmapHost : ∀ n N name h, s.nets n = some N → (name, h) ∈ N.hostmap →
    ∃ H, s.hosts h = some H ∧ H.subnet = n

/-- The links read no connection, OS connection, file or thread. -/
theorem Refs.congr {s' : Sys} (hr : s.Refs) (h1 : s'.nets = s.nets) (h2 : s'.hosts = s.hosts)
    (h3 : s'.socks = s.socks) (h4 : s'.listeners = s.listeners) : s'.Refs := by
  rcases s with ⟨⟩
  rcases s' with ⟨⟩
  subst h1 h2 h3 h4
  exact ⟨hr.1, hr.2, hr.3, hr.4, hr.5, hr.6⟩

/-- The links survive a change that moves objects forward, makes no socket, listener or host,
only empties slots, only takes listeners off sockets and adds no host to a subnetwork. -/
theorem Refs.transfer {s' : Sys} (hr : s.Refs) (hle : s.Le s')
    (hH : ∀ h H', s'.hosts h = some H' → ∃ H, s.hosts h = some H)
    (hsv : ∀ h H' sk, s'.hosts h = some H' → some sk ∈ H'.socketv →
      ∃ H, s.hosts h = some H ∧ some sk ∈ H.socketv)
    (hsk : ∀ sk S', s'.socks sk = some S' → ∃ S, s.socks sk = some S)
    (hsl : ∀ sk S' l, s'.socks sk = some S' → S'.listener = some l →
      ∃ S, s.socks sk = some S ∧ S.listener = some l)
    (hl : ∀ l L', s'.listeners l = some L' → ∃ L, s.listeners l = some L)
    (hmap : ∀ n N' e, s'.nets n = some N' → e ∈ N'.hostmap →
      ∃ N, s.nets n = some N ∧ e ∈ N.hostmap) : s'.Refs where
  listenerSock l L' hL' := by
    obtain ⟨L, hL⟩ := hl l L' hL'
    have hLL := hle.listeners.keep_eq hL hL'
    obtain ⟨S, hS⟩ := hr.listenerSock l L hL
    obtain ⟨S', hS', -⟩ := hle.socks.keep _ _ hS
    exact ⟨S', hLL.socket ▸ hS'⟩
  sockHost sk S' hS' := by
    obtain ⟨S, hS⟩ := hsk sk S' hS'
    have hSS := hle.socks.keep_eq hS hS'
    obtain ⟨H, hH⟩ := hr.sockHost sk S hS
    obtain ⟨H', hH', -⟩ := hle.hosts.keep _ _ hH
    exact ⟨H', hSS.host ▸ hH'⟩
  hostNet h H' hH' := by
    obtain ⟨H, hHs⟩ := hH h H' hH'
    have hHH := hle.hosts.keep_eq hHs hH'
    obtain ⟨N, hN⟩ := hr.hostNet h H hHs
    obtain ⟨N', hN', -⟩ := hle.nets.keep _ _ hN
    exact ⟨N', hHH.subnet ▸ hN'⟩
  slotSock h H' sk hH' hm := by
    obtain ⟨H, hHs, hm'⟩ := hsv h H' sk hH' hm
    obtain ⟨S, hS, rfl⟩ := hr.slotSock h H sk hHs hm'
    obtain ⟨S', hS', hSS⟩ := hle.socks.keep _ _ hS
    exact ⟨S', hS', hSS.host⟩
  sockListener sk S' l hS' hl' := by
    obtain ⟨S, hS, hSl⟩ := hsl sk S' l hS' hl'
    obtain ⟨L, hL, rfl⟩ := hr.sockListener sk S l hS hSl
    obtain ⟨L', hL', hLL⟩ := hle.listeners.keep _ _ hL
    exact ⟨L', hL', hLL.socket⟩
  hostmapHost n N' name h hN' hm := by
    obtain ⟨N, hN, hm'⟩ := hmap n N' (name, h) hN' hm
    obtain ⟨H, hHs, rfl⟩ := hr.hostmapHost n N name h hN hm'
    obtain ⟨H', hH', hHH⟩ := hle.hosts.keep _ _ hHs
    exact ⟨H', hH', hHH.subnet⟩

theorem mem_padTo {v : List (Option Nat)} {p sk : Nat} (h : some sk ∈ padTo v p) :
    some sk ∈ v := by
  rw [padTo, List.mem_append] at h
  rcases h with h | h
  · exact h
  · simp at h

theorem refs_allocFreeSocket (hr : s.Refs) (hf : s.Fresh) {h : Nat} {H : Host}
    (hH : s.hosts h = some H) : (s.allocFreeSocket h H).1.Refs := by
  have hle := le_allocFreeSocket hf hH
  have hnone : s.socks s.next = none := hf.socks _ le_rfl
  refine ⟨fun l L hL => ?_, fun sk S hS => ?_, fun h' H' hH' => ?_, fun h' H' sk hH' hm => ?_,
    fun sk S l hS hl => ?_, fun n N name h' hN hm => ?_⟩
  · obtain ⟨S, hS⟩ := hr.listenerSock l L hL
    obtain ⟨S', hS', -⟩ := hle.socks.keep _ _ hS
    exact ⟨S', hS'⟩
  · simp only [allocFreeSocket, setTask, bump, setSock, setHost, upd_apply] at hS ⊢
    split at hS
    · cases hS; simp
    · obtain ⟨H1, hH1⟩ := hr.sockHost sk S hS
      split <;> simp [hH1]
  · simp only [allocFreeSocket, bump, setSock, setHost, upd_apply] at hH' ⊢
    split at hH'
    · cases hH'; simpa using hr.hostNet h H hH
    · exact hr.hostNet h' H' hH'
  · simp only [allocFreeSocket, bump, setSock, setHost, upd_apply] at hH' ⊢
    split at hH'
    · subst h'; cases hH'
      rcases List.mem_or_eq_of_mem_set hm with hm | hm
      · obtain ⟨S, hS, rfl⟩ := hr.slotSock h H sk hH (mem_padTo hm)
        have : sk ≠ s.next := fun e => by rw [e, hnone] at hS; cases hS
        simp [this, hS]
      · cases hm; simp
    · obtain ⟨S, hS, rfl⟩ := hr.slotSock h' H' sk hH' hm
      have : sk ≠ s.next := fun e => by rw [e, hnone] at hS; cases hS
      simp [this, hS]
  · simp only [allocFreeSocket, bump, setSock, setHost, upd_apply] at hS
    split at hS
    · cases hS; cases hl
    · obtain ⟨L, hL, rfl⟩ := hr.sockListener sk S l hS hl
      exact ⟨L, hL, rfl⟩
  · obtain ⟨H1, hH1, rfl⟩ := hr.hostmapHost n N name h' hN hm
    obtain ⟨H', hH', hHH⟩ := hle.hosts.keep _ _ hH1
    exact ⟨H', hH', hHH.subnet⟩

theorem refs_installListener (hr : s.Refs) (hf : s.Fresh) {h : Nat} {H : Host}
    (hH : s.hosts h = some H) {v : List (Option Nat)}
    (hv : ∀ sk, some sk ∈ v → some sk ∈ H.socketv) (i : Nat) (port : Int) :
    (s.installListener h H v i port).1.Refs := by
  have hle := le_installListener hf hH v i port
  have hS0 : s.socks s.next = none := hf.socks _ le_rfl
  have hL1 : s.listeners (s.next + 1) = none := hf.listeners _ (Nat.le_succ _)
  have hne : s.next + 1 ≠ s.next := Nat.succ_ne_self _
  refine ⟨fun l L hL => ?_, fun sk S hS => ?_, fun h' H' hH' => ?_, fun h' H' sk hH' hm => ?_,
    fun sk S l hS hl => ?_, fun n N name h' hN hm => ?_⟩
  · simp only [installListener, bump, setListener, setSock, setHost, upd_apply] at hL ⊢
    split at hL
    · cases hL; simp
    · obtain ⟨S, hS⟩ := hr.listenerSock l L hL
      have : L.socket ≠ s.next := fun e => by rw [e, hS0] at hS; cases hS
      simp [this, hS]
  · simp only [installListener, bump, setListener, setSock, setHost, upd_apply] at hS ⊢
    split at hS
    · cases hS; simp
    · obtain ⟨H1, hH1⟩ := hr.sockHost sk S hS
      split <;> simp [hH1]
  · simp only [installListener, bump, setListener, setSock, setHost, upd_apply] at hH' ⊢
    split at hH'
    · cases hH'; simpa using hr.hostNet h H hH
    · exact hr.hostNet h' H' hH'
  · have old : ∀ h2 H2, s.hosts h2 = some H2 → some sk ∈ H2.socketv →
        ∃ S, (s.installListener h H v i port).1.socks sk = some S ∧ S.host = h2 := by
      intro h2 H2 hH2 hm2
      obtain ⟨S, hS, rfl⟩ := hr.slotSock h2 H2 sk hH2 hm2
      have : sk ≠ s.next := fun e => by rw [e, hS0] at hS; cases hS
      simp [installListener, upd_apply, this, hS]
    simp only [installListener, bump, setListener, setSock, setHost, upd_apply] at hH'
    split at hH'
    · subst h'; cases hH'
      rcases List.mem_or_eq_of_mem_set hm with hm | hm
      · exact old h H hH (hv sk hm)
      · cases hm; simp [installListener]
    · exact old h' H' hH' hm
  · simp only [installListener, bump, setListener, setSock, setHost, upd_apply] at hS
    split at hS
    · rename_i e; subst e; cases hS; cases hl; simp [installListener, hne]
    · obtain ⟨L, hL, rfl⟩ := hr.sockListener sk S l hS hl
      have : l ≠ s.next + 1 := fun e => by rw [e, hL1] at hL; cases hL
      exact ⟨L, by simp [installListener, upd_apply, this, hL], rfl⟩
  · obtain ⟨H1, hH1, rfl⟩ := hr.hostmapHost n N name h' hN hm
    obtain ⟨H', hH', hHH⟩ := hle.hosts.keep _ _ hH1
    exact ⟨H', hH', hHH.subnet⟩

theorem refs_newHostLocked (hr : s.Refs) (hf : s.Fresh) {n h : Nat} {N : Subnet} {name : Bytes}
    {s' : Sys} (hN : s.nets n = some N) (hs : s.newHostLocked n N name = .ok (s', h)) :
    s'.Refs := by
  unfold newHostLocked at hs
  split at hs
  · cases hs
  · cases hs
    have hH0 : s.hosts s.next = none := hf.hosts _ le_rfl
    refine ⟨fun l L hL => ?_, fun sk S hS => ?_, fun h' H' hH' => ?_, fun h' H' sk hH' hm => ?_,
      fun sk S l hS hl => ?_, fun n' N' name' h' hN' hm => ?_⟩
    · simpa using hr.listenerSock l L hL
    · obtain ⟨H1, hH1⟩ := hr.sockHost sk S hS
      have : S.host ≠ s.next := fun e => by rw [e, hH0] at hH1; cases hH1
      simp [upd_apply, this, hH1]
    · simp only [bump, setNet, setHost, upd_apply] at hH' ⊢
      split at hH'
      · cases hH'; simp
      · obtain ⟨N1, hN1⟩ := hr.hostNet h' H' hH'
        split <;> simp [hN1]
    · simp only [bump, setNet, setHost, upd_apply] at hH' ⊢
      split at hH'
      · cases hH'; cases hm
      · obtain ⟨S, hS, rfl⟩ := hr.slotSock h' H' sk hH' hm
        exact ⟨S, hS, rfl⟩
    · simpa using hr.sockListener sk S l hS hl
    · simp only [bump, setNet, setHost, upd_apply] at hN' ⊢
      have old : ∀ n2 N2, s.nets n2 = some N2 → (name', h') ∈ N2.hostmap →
          ∃ H, (if h' = s.next then some (⟨n, name, [], false, false, false⟩ : Host)
            else s.hosts h') = some H ∧ H.subnet = n2 := by
        intro n2 N2 hN2 hm2
        obtain ⟨H1, hH1, rfl⟩ := hr.hostmapHost n2 N2 name' h' hN2 hm2
        have : h' ≠ s.next := fun e => by rw [e, hH0] at hH1; cases hH1
        simp [this, hH1]
      split at hN'
      · subst n'; cases hN'
        rcases List.mem_append.1 hm with hm | hm
        · exact old n N hN hm
        · simp only [List.mem_singleton, Prod.mk.injEq] at hm
          obtain ⟨rfl, rfl⟩ := hm
          simp
      · exact old n' N' hN' hm

/-! ## Changes that leave threads and bytes in flight alone -/

/-- OS connection `k` has the same bytes in flight and the same acceptor in `s'` as in `s`. -/
def OsSameAt (s s' : Sys) (k : Nat) : Prop :=
  ∀ K, s.osconns k = some K → ∃ K', s'.osconns k = some K' ∧ K'.toServer = K.toServer ∧
    K'.toClient = K.toClient ∧ K'.acceptor = K.acceptor

/-- What host names hang on in a subnetwork: its registry file and its `_hostmap`. -/
def Subnet.names (N : Subnet) : Nat × List (Bytes × Nat) := (N.file, N.hostmap)

/-- A change made under a lock, by one thread, that moves objects forward and keeps their links,
and touches no thread, no byte in flight, no acceptor, no registry file and no subnetwork's
names, and makes no connection; it may take OS connections out of a backlog. -/
structure Quiet (s s' : Sys) : Prop where
  le : s.Le s'
  os : ∀ k, OsSameAt s s' k
  tasks : s'.tasks = s.tasks
  conns : ∀ c C', s'.conns c = some C' → ∃ C, s.conns c = some C
  backlog : ∀ n N', s'.nets n = some N' → ∃ N, s.nets n = some N ∧ N'.backlog.Sublist N.backlog
  refs : s.Refs → s'.Refs
  files : s'.files = s.files
  names : ∀ n, (s'.nets n).map Subnet.names = (s.nets n).map Subnet.names

theorem Quiet.refl (s : Sys) : Quiet s s :=
  ⟨Le.refl s, fun _ K hK => ⟨K, hK, rfl, rfl, rfl⟩, rfl, fun _ C hC => ⟨C, hC⟩,
    fun _ N hN => ⟨N, hN, List.Sublist.refl _⟩, id, rfl, fun _ => rfl⟩

theorem Quiet.trans {s' s'' : Sys} (h : Quiet s s') (h' : Quiet s' s'') : Quiet s s'' where
  le := h.le.trans h'.le
  os k K hK := by
    obtain ⟨K', hK', e1, e2, e3⟩ := h.os k K hK
    obtain ⟨K'', hK'', e1', e2', e3'⟩ := h'.os k K' hK'
    exact ⟨K'', hK'', e1'.trans e1, e2'.trans e2, e3'.trans e3⟩
  tasks := h'.tasks.trans h.tasks
  conns c C'' hC := by
    obtain ⟨C', hC'⟩ := h'.conns c C'' hC
    exact h.conns c C' hC'
  backlog n N'' hN := by
    obtain ⟨N', hN', hs'⟩ := h'.backlog n N'' hN
    obtain ⟨N, hN0, hs⟩ := h.backlog n N' hN'
    exact ⟨N, hN0, hs'.trans hs⟩
  refs := h'.refs ∘ h.refs
  files := h'.files.trans h.files
  names n := (h'.names n).trans (h.names n)

/-- A change of hosts, sockets and listeners only. -/
theorem Quiet.of_objects {s' : Sys} (hle : s.Le s') (hr : s.Refs → s'.Refs)
    (h1 : s'.nets = s.nets) (h2 : s'.conns = s.conns) (h3 : s'.osconns = s.osconns)
    (h4 : s'.tasks = s.tasks) (h5 : s'.files = s.files) : Quiet s s' where
  le := hle
  os _ K hK := ⟨K, h3 ▸ hK, rfl, rfl, rfl⟩
  tasks := h4
  conns _ C hC := ⟨C, h2 ▸ hC⟩
  backlog _ N hN := ⟨N, h1 ▸ hN, List.Sublist.refl _⟩
  refs := hr
  files := h5
  names _ := by rw [h1]

theorem quiet_setHost {h : Nat} {H H' : Host} (hH : s.hosts h = some H) (hle : H.Le H')
    (hsv : ∀ sk, some sk ∈ H'.socketv → some sk ∈ H.socketv) : Quiet s (s.setHost h H') :=
  .of_objects (le_setHost hH hle) (fun hr => hr.transfer (le_setHost hH hle)
    (fun _ _ e => (upd_eq_some e).elim (fun ⟨e1, _⟩ => ⟨H, e1 ▸ hH⟩) fun ⟨_, e2⟩ => ⟨_, e2⟩)
    (fun _ _ sk e hm => (upd_eq_some e).elim (fun ⟨e1, e2⟩ => ⟨H, e1 ▸ hH, hsv sk (e2 ▸ hm)⟩)
      fun ⟨_, e2⟩ => ⟨_, e2, hm⟩)
    (fun _ _ e => ⟨_, e⟩) (fun _ _ _ e hl => ⟨_, e, hl⟩) (fun _ _ e => ⟨_, e⟩)
    (fun _ _ _ e hm => ⟨_, e, hm⟩)) rfl rfl rfl rfl rfl

theorem quiet_setSock {sk : Nat} {S S' : Sock} (hS : s.socks sk = some S) (hle : S.Le S')
    (hl : ∀ l, S'.listener = some l → S.listener = some l) : Quiet s (s.setSock sk S') :=
  .of_objects (le_setSock hS hle) (fun hr => hr.transfer (le_setSock hS hle) (fun _ _ e => ⟨_, e⟩)
    (fun _ _ _ e hm => ⟨_, e, hm⟩)
    (fun _ _ e => (upd_eq_some e).elim (fun ⟨e1, _⟩ => ⟨S, e1 ▸ hS⟩) fun ⟨_, e2⟩ => ⟨_, e2⟩)
    (fun _ _ l e hm => (upd_eq_some e).elim (fun ⟨e1, e2⟩ => ⟨S, e1 ▸ hS, hl l (e2 ▸ hm)⟩)
      fun ⟨_, e2⟩ => ⟨_, e2, hm⟩)
    (fun _ _ e => ⟨_, e⟩) (fun _ _ _ e hm => ⟨_, e, hm⟩)) rfl rfl rfl rfl rfl

theorem quiet_setListener {l : Nat} {L L' : Listener} (hL : s.listeners l = some L)
    (hle : L.Le L') : Quiet s (s.setListener l L') :=
  .of_objects (le_setListener hL hle) (fun hr => hr.transfer (le_setListener hL hle)
    (fun _ _ e => ⟨_, e⟩) (fun _ _ _ e hm => ⟨_, e, hm⟩) (fun _ _ e => ⟨_, e⟩)
    (fun _ _ _ e hm => ⟨_, e, hm⟩)
    (fun _ _ e => (upd_eq_some e).elim (fun ⟨e1, _⟩ => ⟨L, e1 ▸ hL⟩) fun ⟨_, e2⟩ => ⟨_, e2⟩)
    (fun _ _ _ e hm => ⟨_, e, hm⟩)) rfl rfl rfl rfl rfl

theorem quiet_setConn {c : Nat} {C C' : Conn} (hC : s.conns c = some C) (hle : C.Le C') :
    Quiet s (s.setConn c C') where
  le := le_setConn hC hle
  os _ K hK := ⟨K, hK, rfl, rfl, rfl⟩
  tasks := rfl
  conns _ _ e := (upd_eq_some e).elim (fun ⟨e1, _⟩ => ⟨C, e1 ▸ hC⟩) fun ⟨_, e2⟩ => ⟨_, e2⟩
  backlog _ N hN := ⟨N, hN, List.Sublist.refl _⟩
  refs hr := hr.congr rfl rfl rfl rfl
  files := rfl
  names _ := rfl

theorem quiet_setOsConn {k : Nat} {K K' : OsConn} (hK : s.osconns k = some K) (hle : K.Le K')
    (h1 : K'.toServer = K.toServer) (h2 : K'.toClient = K.toClient)
    (h3 : K'.acceptor = K.acceptor) : Quiet s (s.setOsConn k K') where
  le := le_setOsConn hK hle
  os k' K0 hK0 := by
    by_cases e : k' = k
    · subst e; rw [hK] at hK0; cases hK0; exact ⟨K', upd_self .., h1, h2, h3⟩
    · exact ⟨K0, (upd_of_ne (some K') e).trans hK0, rfl, rfl, rfl⟩
  tasks := rfl
  conns _ C hC := ⟨C, hC⟩
  backlog _ N hN := ⟨N, hN, List.Sublist.refl _⟩
  refs hr := hr.congr rfl rfl rfl rfl
  files := rfl
  names _ := rfl

theorem quiet_setNet {n : Nat} {N N' : Subnet} (hN : s.nets n = some N) (hle : N.Le N')
    (hmap : N'.hostmap = N.hostmap) (hb : N'.backlog.Sublist N.backlog) :
    Quiet s (s.setNet n N') where
  le := le_setNet hN hle
  os _ K hK := ⟨K, hK, rfl, rfl, rfl⟩
  tasks := rfl
  conns _ C hC := ⟨C, hC⟩
  backlog _ _ e := (upd_eq_some e).elim (fun ⟨e1, e2⟩ => ⟨N, e1 ▸ hN, e2 ▸ hb⟩)
    fun ⟨_, e2⟩ => ⟨_, e2, List.Sublist.refl _⟩
  refs hr := hr.transfer (le_setNet hN hle) (fun _ _ e => ⟨_, e⟩) (fun _ _ _ e hm => ⟨_, e, hm⟩)
    (fun _ _ e => ⟨_, e⟩) (fun _ _ _ e hm => ⟨_, e, hm⟩) (fun _ _ e => ⟨_, e⟩)
    (fun _ _ _ e hm => (upd_eq_some e).elim (fun ⟨e1, e2⟩ => ⟨N, e1 ▸ hN, hmap ▸ e2 ▸ hm⟩)
      fun ⟨_, e2⟩ => ⟨_, e2, hm⟩)
  files := rfl
  names n' := by
    by_cases e : n' = n
    · subst e; simp [hN, Subnet.names, hle.file, hmap]
    · simp [upd_of_ne _ e]

theorem quiet_bump : Quiet s s.bump :=
  .of_objects le_bump (fun hr => hr.congr rfl rfl rfl rfl) rfl rfl rfl rfl rfl

/-! ## The operations that are quiet -/

theorem quiet_allocFreeSocket (hf : s.Fresh) {h : Nat} {H : Host} (hH : s.hosts h = some H) :
    Quiet s (s.allocFreeSocket h H).1 :=
  .of_objects (le_allocFreeSocket hf hH) (refs_allocFreeSocket · hf hH) rfl rfl rfl rfl rfl

theorem quiet_clearSlot {h : Nat} {H : Host} {port : Int} {s' : Sys} (hH : s.hosts h = some H)
    (hs : s.clearSlot h H port = .ok s') : Quiet s s' := by
  unfold clearSlot at hs
  split at hs
  · cases hs
  · cases hs
    exact quiet_setHost hH ⟨rfl, rfl, id, id, id⟩ fun _ hm =>
      (List.mem_or_eq_of_mem_set hm).resolve_right (Option.some_ne_none _)

theorem quiet_releaseSlot {h : Nat} {port : Int} {s' : Sys}
    (hs : s.releaseSlot h port = some (.ok s')) : Quiet s s' := by
  unfold releaseSlot at hs
  split at hs
  · rename_i H hH
    split at hs
    · cases hs
    · exact quiet_clearSlot hH (Option.some.inj hs)
  · cases hs

theorem quiet_installListener (hf : s.Fresh) {h : Nat} {H : Host} (hH : s.hosts h = some H)
    {v : List (Option Nat)} (hv : ∀ sk, some sk ∈ v → some sk ∈ H.socketv) (i : Nat) (port : Int) :
    Quiet s (s.installListener h H v i port).1 :=
  .of_objects (le_installListener hf hH v i port) (refs_installListener · hf hH hv i port)
    rfl rfl rfl rfl rfl

theorem quiet_listenLocked (hf : s.Fresh) {h : Nat} {H : Host} {a : Addr} {s' : Sys} {l : Nat}
    (hH : s.hosts h = some H) (hs : s.listenLocked h H a = .ok (s', l)) : Quiet s s' := by
  unfold listenLocked at hs
  split at hs
  · cases hs; exact quiet_installListener hf hH (fun _ => mem_padTo) ..
  · dsimp only at hs
    have hv : ∀ sk, some sk ∈ (if 0 ≤ a.port then padTo H.socketv a.port.toNat else H.socketv) →
        some sk ∈ H.socketv := by
      intro sk hm
      split at hm
      · exact mem_padTo hm
      · exact hm
    generalize (if 0 ≤ a.port then padTo H.socketv a.port.toNat else H.socketv) = v at hs hv
    split at hs
    · cases hs
    · split at hs
      · cases hs
      · cases hs; exact quiet_installListener hf hH hv ..

theorem quiet_listenerShutdown (l : Nat) : Quiet s (s.listenerShutdown l) := by
  unfold listenerShutdown
  split
  · rename_i L hL; exact quiet_setListener hL ⟨rfl, fun _ => rfl, id⟩
  · exact .refl s

theorem quiet_closeEnd (k : Nat) (side : Side) : Quiet s (s.closeEnd k side) := by
  unfold closeEnd
  split
  · rename_i K hK
    cases side
    · exact quiet_setOsConn hK ⟨rfl, rfl, fun _ => id, fun _ => rfl, id⟩ rfl rfl rfl
    · exact quiet_setOsConn hK ⟨rfl, rfl, fun _ => id, id, fun _ => rfl⟩ rfl rfl rfl
  · exact .refl s

theorem quiet_connShutdown (c : Nat) : Quiet s (s.connShutdown c) := by
  unfold connShutdown
  split
  · rename_i C hC
    split
    · exact .refl s
    · have h1 : Quiet s (s.setConn c { C with down := true }) :=
        quiet_setConn hC ⟨rfl, rfl, rfl, rfl, fun _ => rfl, id⟩
      exact h1.trans (quiet_closeEnd ..)
  · exact .refl s

theorem quiet_releaseSock {sk : Nat} {S S' : Sock} {viaPort : Bool} {s' : Sys}
    {r : Except Exc Unit} (hS : s.socks sk = some S) (hs : s.releaseSock sk S' viaPort = some (s', r))
    (hle : S.Le S') (hl : ∀ l, S'.listener = some l → S.listener = some l) : Quiet s s' := by
  unfold releaseSock at hs
  split at hs
  · cases hs
  · rename_i H hH
    have h1 := quiet_setSock hS hle hl
    split at hs
    · cases hs
    · dsimp only at hs
      split at hs
      · cases hs; exact h1
      · split at hs
        · cases hs; exact h1
        · split at hs <;> cases hs
          · rename_i hc; exact h1.trans (quiet_clearSlot hH hc)
          · exact h1

theorem quiet_listenerClose (l : Nat) : Quiet s (s.listenerClose l).1 := by
  have h0 := quiet_listenerShutdown (s := s) l
  unfold listenerClose
  dsimp only
  split
  · exact h0
  · rename_i L hL
    split
    · exact h0
    · have h1 : Quiet s ((s.listenerShutdown l).setListener l { L with closed := true }) :=
        h0.trans (quiet_setListener hL ⟨rfl, id, fun _ => rfl⟩)
      split
      · exact h1
      · rename_i S hS
        split
        · rename_i hr; exact h1.trans (quiet_releaseSock hS hr ⟨rfl, rfl⟩ fun _ h => nomatch h)
        · exact h1

theorem quiet_connClose (c : Nat) : Quiet s (s.connClose c).1 := by
  have h0 := quiet_connShutdown (s := s) c
  unfold connClose
  dsimp only
  split
  · exact h0
  · rename_i C hC
    split
    · exact h0
    · have h1 : Quiet s ((s.connShutdown c).setConn c { C with closed := true }) :=
        h0.trans (quiet_setConn hC ⟨rfl, rfl, rfl, rfl, id, fun _ => rfl⟩)
      split
      · exact h1
      · rename_i S hS
        split
        · rename_i hr; exact h1.trans (quiet_releaseSock hS hr ⟨rfl, rfl⟩ fun _ h => h)
        · exact h1

theorem quiet_shutdownSock (S : Sock) : Quiet s (s.shutdownSock S) := by
  unfold shutdownSock
  cases S.conn <;> cases S.listener <;> dsimp only
  · exact .refl s
  · exact quiet_listenerShutdown _
  · exact quiet_connShutdown _
  · exact (quiet_connShutdown _).trans (quiet_listenerShutdown _)

theorem quiet_shutdownSocks (v : List (Option Nat)) : Quiet s (s.shutdownSocks v) := by
  induction v generalizing s with
  | nil => exact .refl s
  | cons o v ih =>
    cases o with
    | none => exact ih
    | some sk =>
      cases hS : s.socks sk with
      | none => simpa [shutdownSocks, hS] using ih (s := s)
      | some S => simpa [shutdownSocks, hS] using (quiet_shutdownSock S).trans ih

theorem quiet_hostShutdown (h : Nat) : Quiet s (s.hostShutdown h).1 := by
  unfold hostShutdown
  split
  · exact .refl s
  · rename_i H hH
    split
    · exact .refl s
    · have h1 : Quiet s (s.setHost h { H with down := true }) :=
        quiet_setHost hH ⟨rfl, rfl, fun _ => rfl, id, id⟩ fun _ h => h
      split
      · exact h1
      · exact h1.trans (quiet_shutdownSocks _)

theorem quiet_hostClose (h : Nat) : Quiet s (s.hostClose h).1 := by
  have h0 := quiet_hostShutdown (s := s) h
  unfold hostClose
  cases hs : s.hostShutdown h with
  | mk s1 b =>
    rw [hs] at h0
    cases b
    · exact h0
    · simp only
      split
      · exact h0
      · rename_i H hH
        split
        · exact h0
        · have h1 : Quiet s (s1.setHost h { H with closeOnce := true }) :=
            h0.trans (quiet_setHost hH ⟨rfl, rfl, id, fun _ => rfl, id⟩ fun _ h => h)
          split <;> (try split) <;> exact h1

theorem quiet_shutdownHosts (hs : List Nat) : Quiet s (s.shutdownHosts hs).1 := by
  induction hs generalizing s with
  | nil => exact .refl s
  | cons h hs ih =>
    have h0 := quiet_hostShutdown (s := s) h
    unfold shutdownHosts
    cases e : s.hostShutdown h with
    | mk s1 b =>
      rw [e] at h0
      cases b
      · exact h0
      · exact h0.trans ih

theorem quiet_closeOsListener (n : Nat) : Quiet s (s.closeOsListener n) := by
  unfold closeOsListener
  split
  · exact .refl s
  · rename_i N hN
    have hfold : ∀ (ks : List Nat) (t : Sys),
        Quiet t (ks.foldl (fun s k => s.closeEnd k .server) t) ∧
        (ks.foldl (fun s k => s.closeEnd k .server) t).nets = t.nets := by
      intro ks
      induction ks with
      | nil => exact fun t => ⟨.refl t, rfl⟩
      | cons k ks ih =>
        intro t
        obtain ⟨h1, h2⟩ := ih (t.closeEnd k .server)
        exact ⟨(quiet_closeEnd k .server).trans h1, h2.trans (closeEnd_nets ..)⟩
    obtain ⟨h1, h2⟩ := hfold N.backlog s
    exact h1.trans (quiet_setNet ((congrFun h2 n).trans hN)
      ⟨rfl, rfl, rfl, rfl, List.prefix_refl _, id, fun _ => rfl, id, id⟩ rfl (List.nil_sublist _))

theorem quiet_netShutdown (n : Nat) (fromServe : Bool) : Quiet s (s.netShutdown n fromServe).1 := by
  unfold netShutdown
  split
  · exact .refl s
  · rename_i N hN
    split
    · exact .refl s
    · have h1 : Quiet s (s.setNet n { N with down := true }) :=
        quiet_setNet hN ⟨rfl, rfl, rfl, rfl, List.prefix_refl _, fun _ => rfl, id, id, id⟩ rfl
          (List.Sublist.refl _)
      have h2 := h1.trans (quiet_shutdownHosts (N.hostmap.map (·.2)))
      cases e : (s.setNet n { N with down := true }).shutdownHosts (N.hostmap.map (·.2)) with
      | mk s1 b =>
        rw [e] at h2
        cases b
        · dsimp only
          split
          · rename_i N' hN'
            have h3 : Quiet s1 (s1.setNet n { N' with stuck := true }) :=
              quiet_setNet hN' ⟨rfl, rfl, rfl, rfl, List.prefix_refl _, id, id, id, fun _ => rfl⟩
                rfl (List.Sublist.refl _)
            exact h2.trans h3
          · exact h2
        · dsimp only
          have h3 := h2.trans (quiet_closeOsListener (s := s1) n)
          split
          · exact h3
          · split
            · rename_i N' hN'
              have h4 : Quiet (s1.closeOsListener n) ((s1.closeOsListener n).setNet n
                  { N' with poolClosed := true }) :=
                quiet_setNet hN' ⟨rfl, rfl, rfl, rfl, List.prefix_refl _, id, id, fun _ => rfl, id⟩
                  rfl (List.Sublist.refl _)
              exact h3.trans h4
            · exact h3

theorem quiet_vnetAcceptLookup {N : Subnet} {dst : Addr} {s' : Sys} {r : Except Exc Nat}
    (hs : s.vnetAcceptLookup N dst = some (s', r)) : Quiet s s' := by
  unfold vnetAcceptLookup at hs
  split at hs
  · cases hs
  · split at hs
    · cases hs; exact .refl s
    · split at hs
      · cases hs
      · rename_i H hH
        split at hs
        · cases hs
        · split at hs
          · cases hs; exact .refl s
          · split at hs
            · cases hs
              exact quiet_setHost hH ⟨rfl, rfl, id, id, fun _ => rfl⟩ fun _ h => h
            · cases hs; exact .refl s

/-! ## Changes below the threads -/

/-- A change that moves no thread and makes no conn: objects move forward, and a backlog gains
only OS connections that did not exist. -/
structure Aside (s s' : Sys) : Prop where
  le : s.Le s'
  tasks : s'.tasks = s.tasks
  conns : ∀ c C', s'.conns c = some C' → ∃ C, s.conns c = some C
  backlog : ∀ n N' k, s'.nets n = some N' → k ∈ N'.backlog →
    (∃ N, s.nets n = some N ∧ k ∈ N.backlog) ∨ s.osconns k = none

/-- An `Aside` change that also writes no registry file and changes no subnetwork's file or
`_hostmap`: what every step does besides moving its threads, but the two steps of `new_host`. -/
structure Still (s s' : Sys) extends Aside s s' : Prop where
  files : s'.files = s.files
  names : ∀ n, (s'.nets n).map Subnet.names = (s.nets n).map Subnet.names

theorem Quiet.still {s' : Sys} (hq : Quiet s s') : Still s s' where
  le := hq.le
  tasks := hq.tasks
  conns := hq.conns
  backlog n N' _ hN' hk :=
    let ⟨N, hN, hsub⟩ := hq.backlog n N' hN'
    .inl ⟨N, hN, hsub.subset hk⟩
  files := hq.files
  names := hq.names

theorem Aside.trans {s' s'' : Sys} (h : Aside s s') (h' : Aside s' s'') : Aside s s'' where
  le := h.le.trans h'.le
  tasks := h'.tasks.trans h.tasks
  conns c C hC := let ⟨C', hC'⟩ := h'.conns c C hC; h.conns c C' hC'
  backlog n N'' k hN'' hk := by
    rcases h'.backlog n N'' k hN'' hk with ⟨N', hN', hk'⟩ | hK
    · exact h.backlog n N' k hN' hk'
    · -- an OS connection missing after a forward move was missing before
      refine .inr (Option.eq_none_iff_forall_not_mem.2 fun K hK0 => ?_)
      obtain ⟨K', hK', -⟩ := h.le.osconns.keep k K hK0
      rw [hK] at hK'
      cases hK'

theorem Still.refl (s : Sys) : Still s s := (Quiet.refl s).still

theorem Still.trans {s' s'' : Sys} (h : Still s s') (h' : Still s' s'') : Still s s'' :=
  ⟨h.toAside.trans h'.toAside, h'.files.trans h.files, fun n => (h'.names n).trans (h.names n)⟩

theorem still_setOsConn {k : Nat} {K K' : OsConn} (hK : s.osconns k = some K) (hle : K.Le K') :
    Still s (s.setOsConn k K') :=
  ⟨⟨le_setOsConn hK hle, rfl, fun _ C hC => ⟨C, hC⟩, fun _ N _ hN hk => .inl ⟨N, hN, hk⟩⟩, rfl,
    fun _ => rfl⟩

theorem still_reply {k : Nat} {network text : Bytes} {s' : Sys}
    (hs : s.reply k network text = .ok s') : Still s s' := by
  unfold reply at hs
  split at hs
  · rename_i K hK
    split at hs
    · cases hs
    · cases hs; exact still_setOsConn hK ⟨rfl, rfl, fun _ => id, id, id⟩
  · cases hs

theorem still_setAcceptor (k sk : Nat) : Still s (s.setAcceptor k sk) := by
  unfold setAcceptor
  split
  · rename_i K hK
    split
    · rename_i hA
      exact still_setOsConn hK ⟨rfl, rfl, (fun a ha => by rw [hA] at ha; cases ha), id, id⟩
    · exact .refl s
  · exact .refl s

/-- A new OS connection joins the backlog of its subnetwork. -/
theorem still_openOsConn (hf : s.Fresh) (n : Nat) (dialer : Option Nat) (line : Bytes) :
    Still s (s.openOsConn n dialer line) := by
  have hle := le_openOsConn hf n dialer line
  unfold openOsConn at hle ⊢
  cases hN : s.nets n with
  | none => simp only [hN]; exact .refl s
  | some N =>
    simp only [hN] at hle ⊢
    refine ⟨⟨hle, rfl, fun _ C hC => ⟨C, hC⟩, fun n' N' k hN' hk => ?_⟩, rfl, fun n' => ?_⟩
    · simp only [bump, setNet, setOsConn] at hN'
      rcases upd_eq_some hN' with ⟨rfl, rfl⟩ | ⟨-, hN'⟩
      · rcases List.mem_append.1 hk with hk | hk
        · exact .inl ⟨N, hN, hk⟩
        · rw [List.mem_singleton.1 hk]; exact .inr (hf.osconns _ le_rfl)
      · exact .inl ⟨N', hN', hk⟩
    · by_cases e : n' = n
      · subst e; simp [hN, Subnet.names]
      · simp [upd_of_ne _ e]

/-! ## Steps -/

/-- Setting the task of an id that holds one. -/
theorem Le.setTask {s' : Sys} {i : Nat} {t : Task} (hle : s.Le s') (ht : s.tasks i = some t)
    (t' : Task) : s.Le (s'.setTask i t') := by
  obtain ⟨b, hb, -⟩ := hle.tasks.keep i t ht
  exact hle.trans (le_setTask hb)

theorem le_loAckDone {i k : Nat} {t : Task} (ht : s.tasks i = some t) (ctx : Bytes)
    (err : Option Exc) : s.Le (s.loAckDone i k ctx err) := by
  cases err with
  | none => exact (Le.refl s).setTask ht _
  | some e => exact (quiet_closeEnd k .server).le.setTask ht _

theorem fresh_init (nets : List Subnet) (files : Nat → RegDb) : (Sys.init nets files).Fresh :=
  ⟨fun _ hk => List.getElem?_eq_none hk, fun _ _ => rfl, fun _ _ => rfl, fun _ _ => rfl,
    fun _ _ => rfl, fun _ _ => rfl, fun _ _ => rfl⟩

end Sys

end Lonet
