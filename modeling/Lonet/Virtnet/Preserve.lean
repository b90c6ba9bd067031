import Lonet.Virtnet.Invariant

/-!
# Every step keeps the invariant

`step_inv` proves that every step of the system keeps `Inv`, so that it holds in every reachable
state (`Reachable.inv`). Most steps are a quiet change and a thread moving on (`Inv.next`); the
ones that are not each have their lemma:

* a dialer reading the reply (`Inv.readReply`), and creating its connection from it: the
  reply is read back exactly (`replyOk_parse`, from `loconnectParse_replyLine`);
* `__loaccept` reading the dial line (`Inv.readServer`), whose source address it hands on in
  the request (`dialLineOk_parse`, from `loacceptParse_dialLine`);
* `__loaccept` writing its one reply, an `E` reply (`Inv.loRaise`) or `connected`;
* `_vnet_accept` receiving the `Accept` (`Inv.resp`), the only step that records an acceptor;
* `accept` creating its connection once the ack brought `None`.
-/

namespace Lonet

namespace Sys

/-! ## Reading and writing the handshake -/

theorem readLine_nil {eof : Bool} {r : Except Exc Bytes} {rest : Bytes}
    (h : readLine [] eof maxLine = some (r, rest)) : rest = [] ∧ ∀ line, r ≠ .ok line := by
  simp only [maxLine, readLine] at h
  split at h
  · simp only [Option.some.injEq, Prod.mk.injEq] at h
    obtain ⟨rfl, rfl⟩ := h
    exact ⟨rfl, fun _ => nofun⟩
  · cases h

theorem loReplyLine_E (n x : Bytes) :
    loReplyLine n (ascii "E " ++ qq x) = replyLine n (ascii "E") x := by
  simp only [loReplyLine, replyLine, List.append_assoc]; rfl

theorem loReplyLine_connected (n x : Bytes) :
    loReplyLine n (ascii "connected " ++ qq x) = replyLine n (ascii "connected") x := by
  simp only [loReplyLine, replyLine, List.append_assoc]; rfl

/-- A reply `__loaccept` may write before raising: none, or an `E` reply. -/
def EReply (rep : Option Bytes) : Prop := ∀ txt, rep = some txt → ∃ x, txt = ascii "E " ++ qq x

theorem ereply_E (e : Exc) : EReply (some (ereply e).1) :=
  fun _ h => ⟨_, (Option.some.inj h).symm⟩

/-- `__loaccept` rejecting a line writes an `E` reply or nothing. -/
theorem loacceptParse_error_reply {network line : Bytes} {rep : Option Bytes} {e : Exc}
    (h : loacceptParse network line = .error (rep, e)) : EReply rep := by
  have hp : ∀ {r d : Bytes}, (.error (eproto r d) : Except (Option Bytes × Exc)
      (Bytes × Bytes × Addr × Addr)) = .error (rep, e) → EReply rep := by
    intro r d h txt ht
    have h1 : (eproto r d).1 = rep := congrArg Prod.fst (Except.error.inj h)
    rw [← h1] at ht
    exact ⟨_, (Option.some.inj ht).symm⟩
  unfold loacceptParse at h
  split at h
  · split at h
    · split at h
      · exact hp h
      · split at h
        · exact hp h
        · exact hp h
        · cases h
    all_goals (cases h; exact fun _ => nofun)
  · exact hp h

/-- **The dialer reads the address it was accepted on.** A reply the dialer can read, once
parsed as `connected`, gives the address of the socket recorded as the acceptor. -/
theorem replyOk_parse {s : Sys} {K : OsConn} (h : s.ReplyOk K) {eof : Bool} {line rest : Bytes}
    (hr : readLine K.toClient eof maxLine = some (.ok line, rest)) {network : Bytes} {dst a : Addr}
    (hp : loconnectParse network dst line = .ok a) :
    ∃ sk, K.acceptor = some sk ∧ s.sockAddr sk = some a := by
  rcases h with h | ⟨n, x, h⟩ | ⟨sk, a', hsk, hsa, h⟩
  · rw [h] at hr
    exact absurd rfl ((readLine_nil hr).2 line)
  · rw [h, ← List.append_nil (replyLine ..)] at hr
    obtain ⟨hv, -, -⟩ := loconnectParse_replyLine (by decide) (by decide) hr hp
    exact absurd hv (by decide)
  · rw [h, ← List.append_nil (replyLine ..)] at hr
    obtain ⟨-, -, hpa⟩ := loconnectParse_replyLine (by decide) (by decide) hr hp
    rw [Addr.str] at hpa
    refine ⟨sk, hsk, ?_⟩
    rw [hsa, parse_addrstr4_eq hpa]

/-- **The acceptor reads the dialer's address.** A dial line the acceptor parses gives the
address of the dialer's socket. -/
theorem dialLineOk_parse {s : Sys} {K : OsConn} (h : s.DialLineOk K) {eof : Bool}
    {line rest : Bytes} (hr : readLine K.toServer eof maxLine = some (.ok line, rest))
    {network src dst : Bytes} {asrc adst : Addr}
    (hp : loacceptParse network line = .ok (src, dst, asrc, adst)) :
    ∀ sk, K.dialer = some sk → s.sockAddr sk = some asrc := by
  intro sk e
  obtain ⟨a, d, hsa, hts⟩ := h sk e
  rw [hts, ← List.append_nil (dialLine ..)] at hr
  obtain ⟨-, rfl, -, hpa, -⟩ := loacceptParse_dialLine hr hp
  rw [Addr.str] at hpa
  rw [hsa, parse_addrstr4_eq hpa]

theorem reply_ok {s s' : Sys} {k : Nat} {network text : Bytes}
    (hs : s.reply k network text = .ok s') : ∃ K, s.osconns k = some K ∧
      s' = s.setOsConn k { K with toClient := K.toClient ++ loReplyLine network text } := by
  unfold reply at hs
  split at hs
  · rename_i K hK
    split at hs
    · cases hs
    · cases hs; exact ⟨K, hK, rfl⟩
  · cases hs

theorem setOsConn_self {s : Sys} {k : Nat} {K : OsConn} (h : s.osconns k = some K) :
    s.setOsConn k K = s := by
  cases s
  simp only [setOsConn, mk.injEq, and_true, true_and]
  funext j
  by_cases e : j = k
  · subst e; simpa using h.symm
  · simp [upd_of_ne _ e]

/-! ## Addresses and lookups -/

theorem sockAddr_eq {s : Sys} {sk : Nat} {S : Sock} {H : Host} {N : Subnet} {a : Addr}
    (hS : s.socks sk = some S) (hH : s.hosts S.host = some H) (hN : s.nets H.subnet = some N)
    (ha : s.sockAddr sk = some a) : a = ⟨N.network, H.name, S.port⟩ := by
  simp only [sockAddr, hS, hH, hN, Option.bind_eq_bind, Option.some_bind, Option.pure_def,
    Option.some.injEq] at ha
  exact ha.symm

/-- The address of a socket on subnetwork `n` has `n`'s network. -/
theorem SockOn.addr {s : Sys} {sk n : Nat} {a : Addr} (h : s.SockOn sk n)
    (ha : s.sockAddr sk = some a) : ∃ N, s.nets n = some N ∧ a.net = N.network := by
  obtain ⟨S, H, hS, hH, rfl⟩ := h
  cases hN : s.nets H.subnet with
  | none => simp [sockAddr, hS, hH, hN] at ha
  | some N => exact ⟨N, rfl, by rw [sockAddr_eq hS hH hN ha]⟩

theorem sockOn_allocFreeSocket {s : Sys} {h : Nat} {H : Host} :
    (s.allocFreeSocket h H).1.SockOn s.next H.subnet := by
  simp [SockOn, allocFreeSocket]

theorem mem_of_lookup {l : List (Bytes × Nat)} {a : Bytes} {b : Nat} (h : l.lookup a = some b) :
    (a, b) ∈ l := by
  induction l with
  | nil => cases h
  | cons p l ih =>
    obtain ⟨a', b'⟩ := p
    rw [List.lookup_cons] at h
    split at h
    · rename_i e; cases h; rw [beq_iff_eq.1 e]; exact List.mem_cons_self _ _
    · exact List.mem_cons_of_mem _ (ih h)

/-- `_vnet_accept` offers a request only to a listener of its own subnetwork, and changes
nothing on the way. -/
theorem vnetAcceptLookup_ok {s s' : Sys} (hr : s.Refs) {n : Nat} {N : Subnet}
    (hN : s.nets n = some N) {dst : Addr} {l : Nat}
    (hs : s.vnetAcceptLookup N dst = some (s', .ok l)) : s' = s ∧ s.ListenerOn l n := by
  unfold vnetAcceptLookup at hs
  split at hs
  · cases hs
  · split at hs
    · cases hs
    · rename_i h hmap
      split at hs
      · cases hs
      · rename_i H hH
        split at hs
        · cases hs
        · split at hs
          · cases hs
          · split at hs
            · cases hs
            · rename_i i hi
              simp only [Option.some.injEq, Prod.mk.injEq] at hs
              obtain ⟨rfl, hl⟩ := hs
              unfold slotListener at hl
              split at hl
              · rename_i S hS
                split at hl
                · rename_i l' hl'
                  cases hl
                  obtain ⟨sk, hsk, hS'⟩ := Option.bind_eq_some.1 hS
                  obtain ⟨H', hH', hsub⟩ := hr.hostmapHost n N _ h hN (mem_of_lookup hmap)
                  rw [hH] at hH'; cases hH'
                  have hm : some sk ∈ H.socketv := List.getElem?_mem (Option.join_eq_some.1 hsk)
                  obtain ⟨S', hS'', hhost⟩ := hr.slotSock h H sk hH hm
                  rw [hS'] at hS''; cases hS''
                  obtain ⟨L, hL, rfl⟩ := hr.sockListener sk S l hS' hl'
                  exact ⟨rfl, L, hL, S, H, hS', hhost ▸ hH, hsub⟩
                · cases hl
              · cases hl

theorem osConnect_nets {s : Sys} {osladdr : Bytes} {n : Nat} (h : s.osConnect osladdr = .ok n) :
    ∃ N, s.nets n = some N := by
  unfold osConnect at h
  split at h
  · cases h
  · split at h
    · cases h
    · split at h
      · rename_i n' hl
        cases h
        have := List.find?_some hl
        split at this
        · exact ⟨_, ‹_›⟩
        · cases this
      · cases h

/-! ## The steps that are not quiet -/

variable {s : Sys}

theorem Inv.busy (hi : s.Inv none) (i : Nat) : s.Inv (some i) :=
  { hi with tasks := fun j t ht _ => hi.tasks j t ht nofun }

/-- `_vnet_newhost` writes a registry file, which the invariant does not read. -/
theorem Inv.setFile {b : Option Nat} (hi : s.Inv b) (f : Nat) (db : RegDb) :
    (s.setFile f db).Inv b :=
  hi.frame (le_setFile f db) (·.congr rfl rfl rfl rfl) rfl (fun _ C h => ⟨C, h⟩)
    (fun _ K h => ⟨K, h, rfl, rfl, rfl⟩) fun _ N h => ⟨N, h, .refl _⟩

/-- The `_hostmu` part of `new_host` adds a host and maps it, which no thread's facts read. -/
theorem Inv.newHostLocked {b : Option Nat} (hf : s.Fresh) (hi : s.Inv b) {n h : Nat} {N : Subnet}
    {x : Bytes} {s1 : Sys} (hN : s.nets n = some N) (hl : s.newHostLocked n N x = .ok (s1, h)) :
    s1.Inv b := by
  have hle := le_newHostLocked hf hN hl
  have hr := refs_newHostLocked hi.refs hf hN hl
  unfold Sys.newHostLocked at hl
  split at hl <;> cases hl
  refine hi.frame hle (fun _ => hr) rfl (fun _ C h => ⟨C, h⟩) (fun _ K h => ⟨K, h, rfl, rfl, rfl⟩)
    fun m N' hN' => ?_
  rcases upd_eq_some hN' with ⟨rfl, rfl⟩ | ⟨-, hN'⟩
  · exact ⟨N, hN, .refl _⟩
  · exact ⟨N', hN', .refl _⟩

/-- A thread without a role moves on to a task without facts. -/
theorem TaskOk.le_of_none {s' : Sys} (hle : s.Le s') {t : Task} (hlo : loConn t = none)
    (hdc : dialConn t = none) (h : s.TaskOk t) : s'.TaskOk t :=
  h.le hle fun _ e => by rcases e with e | e <;> simp_all

/-- The `_loaccept` thread `i` of OS connection `k` changes `k`, after which its dialer can read
what it could before, or what `hrep` says. -/
theorem Inv.setOsConn_lo {i k : Nat} {t : Task} {K K' : OsConn} (hi : s.Inv (some i))
    (ht : s.tasks i = some t) (hlo : loConn t = some k) (hK : s.osconns k = some K)
    (hle : K.Le K') (hrep : s.ReplyOk K → (s.setOsConn k K').ReplyOk K') :
    (s.setOsConn k K').Inv (some i) := by
  refine hi.setOsConn hK hle
    (fun n N hN hk => (hi.idle n N k hN hk i t ht (loServe_of_loConn hlo)).elim) ?_
  intro j tj htj hb e
  rcases e with e | e
  · exact absurd (hi.loUnique j i tj t k htj ht (loServe_of_loConn e) (loServe_of_loConn hlo))
      fun h => hb (h ▸ rfl)
  · cases tj <;> simp only [dialConn, Option.some.injEq, reduceCtorEq] at e
    subst e
    obtain ⟨K0, hK0, hd, hr⟩ := hi.tasks j _ htj hb
    rw [hK] at hK0; cases hK0
    exact ⟨K', upd_self .., hle.dialer.trans hd, hrep hr⟩

/-- The `_loaccept` thread `i` of OS connection `k`, unanswered, writes its one reply `text`,
which the dialer can read. -/
theorem Inv.reply {i k : Nat} {t : Task} {K : OsConn} {network text : Bytes} {s' : Sys}
    (hi : s.Inv (some i)) (ht : s.tasks i = some t) (hlo : loConn t = some k)
    (hK : s.osconns k = some K) (hc : K.toClient = [])
    (hrep : s.ReplyOk { K with toClient := loReplyLine network text })
    (hs : s.reply k network text = .ok s') : s'.Inv (some i) := by
  obtain ⟨K1, hK1, rfl⟩ := reply_ok hs
  rw [hK] at hK1; cases hK1
  rw [hc, List.nil_append]
  have hle : K.Le { K with toClient := loReplyLine network text } := ⟨rfl, rfl, fun _ => id, id, id⟩
  exact hi.setOsConn_lo ht hlo hK hle fun _ =>
    hrep.le (le_setOsConn hK hle) (OsConn.Le.refl _) rfl

/-- `__loaccept` raising on its OS connection `k`, unanswered, after writing an `E` reply or
none: the thread ends. -/
theorem Inv.loRaise {i k : Nat} {t : Task} {K : OsConn} {network : Bytes} {ctx rep : Option Bytes}
    {e : Exc} (hi : s.Inv (some i)) (ht : s.tasks i = some t) (hlo : loConn t = some k)
    (hK : s.osconns k = some K) (hc : K.toClient = []) (hrep : EReply rep) : (s.loRaise i k network ctx rep e).Inv none := by
  have fin : ∀ {s1 : Sys} (e1 : Exc), s1.Inv (some i) →
      ((s1.closeEnd k .server).setTask i (.loDone (.error e1))).Inv none :=
    fun _ h1 => (h1.quiet (quiet_closeEnd ..)).setTask (.inl rfl) trivial nofun nofun
  unfold Sys.loRaise
  cases rep with
  | none => exact fin _ hi
  | some txt =>
    obtain ⟨x, rfl⟩ := hrep _ rfl
    dsimp only
    cases hr : s.reply k network (ascii "E " ++ qq x) with
    | ok s1 => exact fin _ (hi.reply ht hlo hK hc (.inr (.inl ⟨network, x, loReplyLine_E ..⟩)) hr)
    | error e' => exact fin _ hi

/-- The dialer `i` reads from OS connection `k`. If the bytes were there, no `_loaccept` thread
and no backlog still counts on `k` being unanswered. -/
theorem Inv.readReply {i h sk k : Nat} {dst : Addr} {K : OsConn} {eof : Bool}
    {r : Except Exc Bytes} {rest : Bytes} (hi : s.Inv none)
    (ht : s.tasks i = some (.dialReply h sk dst k)) (hK : s.osconns k = some K)
    (hr : readLine K.toClient eof maxLine = some (r, rest)) :
    (s.setOsConn k { K with toClient := rest }).Inv (some i) := by
  by_cases hc : K.toClient = []
  · rw [hc] at hr
    obtain ⟨rfl, -⟩ := readLine_nil hr
    have e : { K with toClient := [] } = K := by cases K; cases hc; rfl
    rw [e, setOsConn_self hK]
    exact hi.busy i
  · refine (hi.busy i).setOsConn hK ⟨rfl, rfl, fun _ => id, id, id⟩ (fun n N hN hk => ?_) ?_
    · obtain ⟨⟨K0, hK0, -, hc0, -⟩, -⟩ := hi.backlog n N k hN hk
      rw [hK] at hK0; cases hK0; exact absurd hc0 hc
    · intro j tj htj hb e
      rcases e with e | e
      · obtain ⟨K0, hK0, hc0⟩ := (hi.tasks j tj htj nofun).unanswered e
        rw [hK] at hK0; cases hK0; exact absurd hc0 hc
      · exact absurd (hi.dialUnique j i tj _ k htj ht e rfl) fun h => hb (h ▸ rfl)

/-- `__loaccept` (thread `i`) reads the dial line from its OS connection `k`. -/
theorem Inv.readServer {i n k : Nat} {K : OsConn} (hi : s.Inv none)
    (ht : s.tasks i = some (.loRead n k)) (hK : s.osconns k = some K) (rest : Bytes) :
    (s.setOsConn k { K with toServer := rest }).Inv (some i) :=
  have hle : K.Le { K with toServer := rest } := ⟨rfl, rfl, fun _ => id, id, id⟩
  (hi.busy i).setOsConn_lo ht rfl hK hle fun h => h.le (le_setOsConn hK hle) hle rfl

/-- The `except` of `Host.dial`: the slot released, the thread ends. -/
theorem Inv.dialRelease {i h : Nat} {t : Task} {src : Addr} {ctx : Bytes} {e : Exc} {s' : Sys}
    (hi : s.Inv none) (ht : s.tasks i = some t) (hs : s.dialRelease i h src ctx e = some s') :
    s'.Inv none := by
  unfold Sys.dialRelease at hs
  split at hs
  · cases hs; exact hi.next (quiet_releaseSlot ‹_›) ht (.inl rfl) trivial nofun nofun
  · cases hs; exact hi.next (.refl s) ht (.inl rfl) trivial nofun nofun
  · cases hs

/-- `accept.ack.send(err)` returns in the `_loaccept` thread `j`, which ends. -/
theorem Inv.loAckDone {j k : Nat} {t : Task} {ctx : Bytes} {err : Option Exc} (hi : s.Inv none)
    (ht : s.tasks j = some t) : (s.loAckDone j k ctx err).Inv none := by
  cases err with
  | none => exact hi.next (.refl s) ht (.inl rfl) trivial nofun nofun
  | some e => exact hi.next (quiet_closeEnd ..) ht (.inl rfl) trivial nofun nofun

/-- `_vnet_accept` (thread `p`) receives the `Accept` of the `accept` thread `q` for its
request: the acceptor of the OS connection is recorded, and `p` is to write `connected` with the
address of the reserved socket. -/
theorem Inv.resp {p q n k l sk : Nat} {ctx : Bytes} {req : DialReq} {a : Addr} (hi : s.Inv none)
    (hpq : p ≠ q) (hp : s.tasks p = some (.loResp n k ctx))
    (hq : s.tasks q = some (.acceptResp l req sk)) (hk : req.osconn = k)
    (ha : s.sockAddr sk = some a) :
    (((s.setAcceptor k sk).setTask q (.acceptAck l req sk false)).setTask p
      (.loReply n k ctx ⟨a, sk⟩)).Inv none := by
  obtain ⟨K, hK, hsub, hc, hacc⟩ := hi.tasks p _ hp nofun
  obtain ⟨hreq, K1, hK1, hon⟩ := hi.tasks q _ hq nofun
  rw [hk, hK] at hK1; cases hK1
  have he : s.setAcceptor k sk = s.setOsConn k { K with acceptor := some sk } := by
    simp only [setAcceptor, hK, hacc]
  have hle : K.Le { K with acceptor := some sk } :=
    ⟨rfl, rfl, (fun _ h => by rw [hacc] at h; cases h), id, id⟩
  have hle' := le_setOsConn hK hle
  obtain ⟨N, hN, hnet⟩ := (hsub ▸ hon).addr ha
  have h1 := (hi.busy p).setOsConn_lo hp rfl hK hle fun h => h.le hle' hle rfl
  have h2 := h1.setTask (i := q) (t := .acceptAck l req sk false) (.inr rfl)
    ⟨hreq.le hle', { K with acceptor := some sk }, by rw [hk]; exact upd_self .., rfl⟩ nofun nofun
  rw [he]
  exact h2.setTask (.inl rfl) ⟨_, N, upd_self .., hsub, hc, rfl, sockAddr_le hle' ha, hN, hnet⟩
    (fun _ e => .inl ⟨_, (upd_of_ne _ hpq).trans hp, e⟩) nofun

/-! ## Every step -/

theorem runTask_inv (hf : s.Fresh) (hi : s.Inv none) {i : Nat} {t : Task} {s' : Sys}
    (ht : s.tasks i = some t) (hs : s.runTask i t = some s') : s'.Inv none := by
  have hok := hi.tasks i t ht nofun
  cases t <;> simp only [runTask, Option.bind_eq_bind, Option.bind_eq_some] at hs
  case dial h addr =>
    obtain ⟨H, hH, hs⟩ := hs
    split at hs
    · cases hs
    · cases hs
      exact hi.next (quiet_allocFreeSocket hf hH) ht (.inl rfl) (by simp [TaskOk, allocFreeSocket])
        nofun nofun
  case dialQuery h sk addr =>
    obtain ⟨H, -, N, -, src, -, hs⟩ := hs
    split at hs
    · cases hs; exact hi.next (.refl s) ht (.inl rfl) hok nofun nofun
    · exact hi.dialRelease ht hs
  case dialConnect h sk dst osladdr =>
    obtain ⟨H, hH, N, hN, src, hsrc, hs⟩ := hs
    split at hs
    · rename_i n' hc
      cases hs
      obtain ⟨N', hN'⟩ := osConnect_nets hc
      obtain ⟨S, hS, rfl⟩ := hok
      have hnet := sockAddr_eq hS hH hN hsrc
      have hfree := (hi.free_next hf).2
      have h1 : (s.openOsConn n' (some sk) (dialLine N.network src.str dst.str)).Inv none :=
        hi.openOsConn hf hN' fun _ e => by cases e; exact ⟨src, dst.str, hsrc, by rw [hnet]⟩
      rw [openOsConn_of_nets hN'] at h1 ⊢
      exact h1.setTask (.inr rfl) ⟨_, upd_self .., rfl, .inl rfl⟩ nofun
        fun _ e => .inr (by cases e; exact hfree)
    · exact hi.dialRelease ht hs
  case dialReply h sk dst k =>
    obtain ⟨H, -, N, -, src, -, K, hK, N', -, ⟨r, rest⟩, hr, hs⟩ := hs
    obtain ⟨K0, hK0, hd, hrep⟩ := hok
    rw [hK] at hK0; cases hK0
    have h1 := hi.readReply ht hK hr
    dsimp only at hs
    split at hs
    · rename_i acc hp
      simp only [Option.bind_eq_bind, Option.bind_eq_some] at hs
      obtain ⟨S, hS, hs⟩ := hs
      split at hs
      · cases hs
      · cases hs
        cases r with
        | error e => cases hp
        | ok line =>
          obtain ⟨ska, hska, hsa⟩ := replyOk_parse hrep hr hp
          have hC : (s.setOsConn k { K with toClient := rest }).ConnOk
              ⟨sk, acc, k, .client, false, false⟩ :=
            ⟨_, upd_self .., hd, ska, hska,
              sockAddr_le (le_setOsConn hK ⟨rfl, rfl, fun _ => id, id, id⟩) hsa⟩
          exact Inv.setTask (Inv.quiet quiet_bump
            (Inv.quiet (quiet_setSock hS ⟨rfl, rfl⟩ fun _ h => h) (h1.setConn hC))) (.inl rfl) trivial
            nofun nofun
    · cases hs
      exact (h1.quiet (quiet_closeEnd ..)).setTask (.inl rfl) trivial nofun nofun
  case dialRelease h src ctx e => exact hi.dialRelease ht hs
  case accept l waiting =>
    split at hs
    · cases hs
    · split at hs <;> (cases hs; exact hi.next (.refl s) ht (.inl rfl) hok nofun nofun)
  case acceptDown l =>
    obtain ⟨L, -, S, -, H, -, N, -, a, -, hs⟩ := hs
    cases hs; exact hi.next (.refl s) ht (.inl rfl) trivial nofun nofun
  case acceptAlloc l req =>
    obtain ⟨L, hL, S, hS, H, hH, hs⟩ := hs
    split at hs
    · cases hs
    · cases hs
      obtain ⟨hq, K, hK, L', hL', S', H', hS', hH', hsub⟩ := hok
      rw [hL] at hL'; cases hL'; rw [hS] at hS'; cases hS'; rw [hH] at hH'; cases hH'
      have hq1 := quiet_allocFreeSocket hf hH
      exact hi.next hq1 ht (.inl rfl) ⟨hq.le hq1.le, K, hK, hsub ▸ sockOn_allocFreeSocket⟩ nofun nofun
  case acceptAck l req sk waiting =>
    split at hs
    · cases hs
    · split at hs <;> (cases hs; exact hi.next (.refl s) ht (.inl rfl) hok nofun nofun)
  case acceptAckDown l req sk =>
    obtain ⟨L, -, S, -, H, -, N, -, a, -, hs⟩ := hs
    cases hs
    exact Inv.setTask (hi.spawn trivial nofun nofun) (.inr rfl) trivial nofun nofun
  case acceptFinish l req sk err =>
    obtain ⟨L, hL, S, -, H, hH, N, -, a, -, P, hP, hs⟩ := hs
    split at hs
    · cases hs
    · split at hs
      · split at hs
        · rename_i s2 hc
          cases hs
          have hq := quiet_clearSlot hH hc
          obtain ⟨L', hL', -⟩ := hq.le.listeners.keep _ _ hL
          exact hi.next hq ht (.inl rfl) ⟨L', hL'⟩ nofun nofun
        · cases hs; exact hi.next (.refl s) ht (.inl rfl) trivial nofun nofun
      · cases hs
        obtain ⟨⟨K1, hK1, hd⟩, K2, hK2, hacc⟩ := hok
        rw [hK1] at hK2; cases hK2
        have hC : s.ConnOk ⟨sk, req.src, req.osconn, .server, false, false⟩ := ⟨K1, hK1, hacc, hd⟩
        exact Inv.setTask (Inv.quiet quiet_bump
          (Inv.quiet (quiet_setSock hP ⟨rfl, rfl⟩ fun _ h => h) (hi.setConn hC))) (.inr rfl) trivial
          nofun nofun
  case purgeFinish h req sk err =>
    cases hs
    split
    · exact hi.next (quiet_closeEnd ..) ht (.inl rfl) trivial nofun nofun
    · exact hi.next (.refl s) ht (.inl rfl) trivial nofun nofun
  case purgeRelease h sk =>
    obtain ⟨P, -, hs⟩ := hs
    split at hs
    · cases hs; exact hi.next (quiet_releaseSlot ‹_›) ht (.inl rfl) trivial nofun nofun
    · cases hs; exact hi.next (.refl s) ht (.inl rfl) trivial nofun nofun
    · cases hs
  case loStart n k =>
    obtain ⟨N, -, hs⟩ := hs
    split at hs
    · cases hs; exact hi.next (.refl s) ht (.inl rfl) trivial nofun nofun
    · cases hs; exact hi.next (.refl s) ht (.inl rfl) hok (fun _ h => h) nofun
  case loRead n k =>
    obtain ⟨N, hN, K, hK, ⟨r, rest⟩, hr, hs⟩ := hs
    obtain ⟨⟨K0, hK0, hsub, hc, hacc⟩, K1, hK1, hdl⟩ := hok
    rw [hK] at hK0 hK1; cases hK0; cases hK1
    have h1 := hi.readServer ht hK rest
    have hK' : (s.setOsConn k { K with toServer := rest }).osconns k =
        some { K with toServer := rest } := upd_self ..
    dsimp only at hs
    split at hs
    · cases hs; exact h1.loRaise ht rfl hK' hc fun _ => nofun
    · split at hs
      · rename_i rep e hpe
        cases hs; exact h1.loRaise ht rfl hK' hc (loacceptParse_error_reply hpe)
      · rename_i src dst asrc adst hpo
        split at hs
        · cases hs
        · rename_i s2 l hl
          cases hs
          obtain ⟨rfl, hon⟩ := vnetAcceptLookup_ok h1.refs hN hl
          have hreq : (s.setOsConn k { K with toServer := rest }).ReqOk ⟨asrc, k⟩ :=
            ⟨_, hK', fun d e => sockAddr_le (le_setOsConn hK ⟨rfl, rfl, fun _ => id, id, id⟩)
              (dialLineOk_parse hdl hr hpo d e)⟩
          exact h1.setTask (.inl rfl) ⟨⟨_, hK', hsub, hc, hacc⟩, rfl, hreq, hon⟩
            (fun _ e => .inl ⟨_, ht, e⟩) nofun
        · rename_i s2 e hl
          cases hs
          have hq := quiet_vnetAcceptLookup hl
          obtain ⟨K2, hK2, -, hc2, -⟩ := hq.os k _ hK'
          exact (h1.quiet hq).loRaise (t := .loRead n k) (hq.tasks ▸ ht) rfl hK2 (hc2.trans hc) (ereply_E e)
  case loSelect n k ctx l req waiting =>
    split at hs
    · cases hs
    · split at hs
      · cases hs; exact hi.next (.refl s) ht (.inl rfl) hok.1 (fun _ h => h) nofun
      · cases hs; exact hi.next (.refl s) ht (.inl rfl) hok (fun _ h => h) nofun
  case loRefused n k ctx =>
    obtain ⟨N, -, hs⟩ := hs
    cases hs
    obtain ⟨K, hK, -, hc, -⟩ := hok
    exact (hi.busy i).loRaise ht rfl hK hc (ereply_E _)
  case loReply n k ctx acc =>
    obtain ⟨N, hN, hs⟩ := hs
    obtain ⟨K, N0, hK, hsub, hc, hacc, hsa, hN0, hnet⟩ := hok
    rw [hN] at hN0; cases hN0
    split at hs
    · rename_i s1 hr
      cases hs
      have h1 := still_reply hr
      obtain ⟨K', hK', -⟩ := h1.le.osconns.keep _ _ hK
      refine ((hi.busy i).reply ht rfl hK hc (.inr (.inr ⟨_, _, hacc, hsa, ?_⟩)) hr).setTask
        (.inl rfl) ⟨K', hK'⟩ (fun _ e => .inl ⟨.loReply n k ctx acc, h1.tasks ▸ ht, e⟩) nofun
      rw [hnet]; exact loReplyLine_connected _ _
    · cases hs; exact hi.next (.refl s) ht (.inl rfl) ⟨K, hK⟩ (fun _ h => h) nofun
  case listen h laddr =>
    obtain ⟨H, -, N, -, hs⟩ := hs
    split at hs <;> (cases hs; exact hi.next (.refl s) ht (.inl rfl) trivial nofun nofun)
  case listenLocked h ctx a =>
    obtain ⟨H, hH, hs⟩ := hs
    split at hs
    · cases hs
    · split at hs
      · cases hs
        exact hi.next (quiet_listenLocked hf hH ‹_›) ht (.inl rfl) trivial nofun nofun
      · cases hs; exact hi.next (.refl s) ht (.inl rfl) trivial nofun nofun
  case newHost n name =>
    obtain ⟨N, -, hs⟩ := hs
    split at hs
    · cases hs; exact (hi.setFile ..).setTask (.inr rfl) trivial nofun nofun
    · cases hs; exact hi.next (.refl s) ht (.inl rfl) trivial nofun nofun
  case newHostInsert n name =>
    obtain ⟨N, hN, hs⟩ := hs
    split at hs
    · cases hs
    · split at hs
      · cases hs; exact (hi.newHostLocked hf hN ‹_›).setTask (.inr rfl) trivial nofun nofun
      · cases hs; exact hi.next (.refl s) ht (.inl rfl) trivial nofun nofun
  all_goals cases hs

theorem meet_inv (hi : s.Inv none) {i j : Nat} {ti tj : Task} {s' : Sys} (hij : i ≠ j)
    (hti : s.tasks i = some ti) (htj : s.tasks j = some tj) (hs : s.meet i ti j tj = some s') :
    s'.Inv none := by
  have hoki := hi.tasks i ti hti nofun
  have hokj := hi.tasks j tj htj nofun
  cases meet_some hs
  case selectAccept =>
    obtain ⟨⟨K, hK, hsub, hc, hacc⟩, hk, hq, hon⟩ := hoki
    exact Inv.setTask (hi.setTask (.inr rfl) ⟨K, hK, hsub, hc, hacc⟩ (fun _ e => .inl ⟨_, hti, e⟩)
      nofun) (.inr rfl) ⟨hq, K, hk ▸ hK, hsub ▸ hon⟩ nofun nofun
  case acceptSelect =>
    obtain ⟨⟨K, hK, hsub, hc, hacc⟩, hk, hq, hon⟩ := hokj
    exact Inv.setTask (hi.setTask (.inr rfl) ⟨hq, K, hk ▸ hK, hsub ▸ hon⟩ nofun nofun) (.inr rfl)
      ⟨K, hK, hsub, hc, hacc⟩ (fun _ e => .inl ⟨_, (upd_of_ne _ (Ne.symm hij)).trans htj, e⟩)
      nofun
  case respLo ha => exact hi.resp (Ne.symm hij) htj hti rfl ha
  case loResp ha => exact hi.resp hij hti htj rfl ha
  case ackLo =>
    exact (hi.loAckDone htj).setTask (.inr rfl)
      (hoki.le_of_none (le_loAckDone htj ..) rfl rfl) nofun nofun
  case loAck =>
    exact (hi.loAckDone hti).setTask (.inr rfl)
      (hokj.le_of_none (le_loAckDone hti ..) rfl rfl) nofun nofun
  case purgeLo => exact (hi.loAckDone htj).setTask (.inr rfl) trivial nofun nofun
  case loPurge => exact (hi.loAckDone hti).setTask (.inr rfl) trivial nofun nofun

/-- **Every step keeps the invariant.** -/
theorem step_inv (hf : s.Fresh) (hi : s.Inv none) {a : Act} {s' : Sys}
    (hs : s.step a = some s') : s'.Inv none := by
  cases a <;> simp only [step, Option.map_eq_some', Option.bind_eq_bind, Option.bind_eq_some] at hs
  case dial | listen | newHost => obtain ⟨_, -, rfl⟩ := hs; exact hi.spawn trivial nofun nofun
  case accept l => obtain ⟨L, hL, rfl⟩ := hs; exact hi.spawn ⟨L, hL⟩ nofun nofun
  case closeListener => cases hs; exact (hi.quiet (quiet_listenerClose _)).wake
  case closeConn => cases hs; exact hi.quiet (quiet_connClose _)
  case closeHost => cases hs; exact (hi.quiet (quiet_hostClose _)).wake
  case closeNet => cases hs; exact (hi.quiet (quiet_netShutdown ..)).wake
  case serve n =>
    obtain ⟨N, hN, hs⟩ := hs
    split at hs
    · cases hs
    · split at hs
      · rename_i k ks hb
        cases hs
        have hk : k ∈ N.backlog := hb ▸ List.mem_cons_self k ks
        have hq : Quiet s (s.setNet n { N with backlog := ks }) :=
          quiet_setNet hN ⟨rfl, rfl, rfl, rfl, List.prefix_refl _, id, id, id, id⟩ rfl
            (hb ▸ List.sublist_cons_self k ks)
        have hnd := hi.nodup n N hN
        rw [hb] at hnd
        have hready := hi.backlog n N k hN hk
        refine (hi.quiet hq).spawn (hready.le hq.le (hq.os k)) (fun _ e => ?_) nofun
        cases e
        refine ⟨hi.idle n N k hN hk, fun n' N' hN' hk' => ?_⟩
        rcases upd_eq_some hN' with ⟨-, rfl⟩ | ⟨hn, hN'⟩
        · exact (List.nodup_cons.1 hnd).1 hk'
        · obtain ⟨⟨K, hK, hsub, -⟩, -⟩ := hready
          obtain ⟨⟨K', hK', hsub', -⟩, -⟩ := hi.backlog n' N' k hN' hk'
          rw [hK] at hK'; cases hK'
          exact hn (hsub'.symm.trans hsub)
      · cases hs
  case serveFail n =>
    obtain ⟨N, -, hs⟩ := hs
    split at hs
    · cases hs
    · cases hs; exact (hi.quiet (quiet_netShutdown ..)).wake
  case foreignDial n data =>
    obtain ⟨N, hN, hs⟩ := hs
    split at hs
    · cases hs
    · cases hs; exact hi.openOsConn hf hN nofun
  case foreignClose k =>
    obtain ⟨K, -, hs⟩ := hs
    split at hs
    · cases hs; exact hi.quiet (quiet_closeEnd ..)
    · cases hs
  case run i =>
    obtain ⟨t, ht, hs⟩ := hs
    exact runTask_inv hf hi ht hs
  case sync i j =>
    obtain ⟨ti, hti, tj, htj, hs⟩ := hs
    split at hs
    · cases hs
    · exact meet_inv hi ‹_› hti htj hs

end Sys

/-- **The invariant holds in every reachable state.** -/
theorem Reachable.inv {s : Sys} (h : Reachable s) : s.Inv none := by
  induction h with
  | init nets files h => exact Sys.inv_init files h
  | step a hr hs ih => exact Sys.step_inv hr.fresh ih hs

end Lonet
