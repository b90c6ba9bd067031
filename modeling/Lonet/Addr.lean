import Lonet.Xerr

/-!
# Virtnet addresses

`Addr` and its text form `host:port` (`xnet/lonet/__init__.py:91-112`), `Addr.parse` and the
host-relative `Host._parseAddr` (`:604-622`). The text goes through `str.split(':')`, `int`
and `"%d"`; `parse_str` is the round trip the handshake relies on.
-/

namespace Lonet

/-- An address of a virtnet endpoint. -/
structure Addr where
  net : Bytes
  host : Bytes
  port : Int
  deriving DecidableEq, Repr

/-- `addrstr4(host, port)`: `"%s:%d" % (host, port)`. -/
def addrstr4 (host : Bytes) (port : Int) : Bytes := host ++ bColon :: fmtInt port

namespace Addr

/-- `str(a)`: `addrstr4(*a.netaddr())`. -/
def str (a : Addr) : Bytes := addrstr4 a.host a.port

/-- The `ValueError` `Addr.parse` raises for text it cannot read. -/
def invalid (addr : Bytes) : Exc := .valueError (addr ++ ascii " is not valid virtnet address")

/-- `Addr.parse(net, addr)`: exactly two `:`-separated parts, the second an `int`. -/
def parse (net addr : Bytes) : Except Exc Addr :=
  match addr.splitOn bColon with
  | [h, p] => match pyInt p with
    | some port => .ok ⟨net, h, port⟩
    | none => .error (invalid addr)
  | _ => .error (invalid addr)

end Addr

/-- `Host._parseAddr(addr)` on host `name` of network `net`: an empty host is this host. -/
def parseAddr (net name addr : Bytes) : Except Exc Addr := do
  let a ← Addr.parse net addr
  return if a.host = [] then { a with host := name } else a

theorem fmtInt_no_colon (i : Int) : bColon ∉ fmtInt i := by
  intro h
  unfold fmtInt at h
  split at h
  · exact absurd (decimal_digits _ _ h) (by decide)
  · rcases List.mem_cons.1 h with e | h
    · exact absurd e (by decide)
    · exact absurd (decimal_digits _ _ h) (by decide)

theorem splitOn_addrstr4 {host : Bytes} (h : bColon ∉ host) (port : Int) :
    (addrstr4 host port).splitOn bColon = [host, fmtInt port] := by
  have : ([bColon].intercalate [host, fmtInt port]).splitOn bColon = [host, fmtInt port] :=
    List.splitOn_intercalate _ bColon (by simp [h, fmtInt_no_colon]) (by simp)
  simpa [addrstr4, List.intercalate] using this

/-- `Addr.parse(net, "%s:%d" % (host, port))` gives the address back when `host` has no `:`. -/
theorem parse_addrstr4 (net : Bytes) {host : Bytes} (h : bColon ∉ host) (port : Int) :
    Addr.parse net (addrstr4 host port) = .ok ⟨net, host, port⟩ := by
  simp [Addr.parse, splitOn_addrstr4 h, pyInt_fmtInt]

theorem parse_str {a : Addr} (h : bColon ∉ a.host) : Addr.parse a.net a.str = .ok a :=
  parse_addrstr4 a.net h a.port

theorem length_splitOn (c : UInt8) (xs : Bytes) : (xs.splitOn c).length = xs.count c + 1 := by
  induction xs with
  | nil => rfl
  | cons x xs ih =>
    unfold List.splitOn at ih ⊢
    rw [List.splitOnP_cons]
    by_cases hx : x = c
    · simp [hx, ih]
    · simp [hx, ih, List.count_cons]

/-- **A parsed `host:port` is the address that was printed**: `Addr.parse` accepts the text
`addrstr4 host port` only when `host` has no `:`, and then gives that host and port back. -/
theorem parse_addrstr4_eq {net host : Bytes} {port : Int} {a : Addr}
    (h : Addr.parse net (addrstr4 host port) = .ok a) : a = ⟨net, host, port⟩ := by
  have hlen : ((addrstr4 host port).splitOn bColon).length = 2 := by
    unfold Addr.parse at h
    split at h
    · rename_i e; rw [e]; rfl
    · cases h
  have hc : bColon ∉ host := by
    rw [length_splitOn, addrstr4, List.count_append, List.count_cons_self,
      List.count_eq_zero.2 (fmtInt_no_colon port)] at hlen
    exact List.count_eq_zero.1 (by omega)
  rw [parse_addrstr4 net hc] at h
  exact (Except.ok.inj h).symm

/-- `Host._parseAddr(":" + str(p))` is the host's own address at port `p`. -/
theorem parseAddr_port (net name : Bytes) (p : Int) :
    parseAddr net name (ascii ":" ++ fmtInt p) = .ok ⟨net, name, p⟩ := by
  have e : ascii ":" ++ fmtInt p = addrstr4 [] p := rfl
  simp [parseAddr, e, parse_addrstr4 net (List.not_mem_nil bColon)]

/-- **Address round trip.** `Addr.parse(net, str(Addr(net, host, port)))` is that address for
every network, every host without `:` and every port, negative ones and `0` included; and
`h._parseAddr(":" + str(p))` is `Addr(h.network(), h.name(), p)` for every host and port. -/
theorem addr_round_trip :
    (∀ net host port, bColon ∉ host →
      Addr.parse net (Addr.str ⟨net, host, port⟩) = .ok ⟨net, host, port⟩) ∧
      ∀ net name p, parseAddr net name (ascii ":" ++ fmtInt p) = .ok ⟨net, name, p⟩ :=
  ⟨fun net _ port h => parse_addrstr4 net h port, parseAddr_port⟩

/-- `Addr.parse("lonetX", "b:-1")` and `b._parseAddr(":-1")`. -/
theorem addr_round_trip_negative :
    Addr.parse (ascii "lonetX") (Addr.str ⟨ascii "lonetX", ascii "b", -1⟩) =
        .ok ⟨ascii "lonetX", ascii "b", -1⟩ ∧
      parseAddr (ascii "lonetX") (ascii "b") (ascii ":" ++ fmtInt (-1)) =
        .ok ⟨ascii "lonetX", ascii "b", -1⟩ :=
  ⟨addr_round_trip.1 _ _ _ (by decide), addr_round_trip.2 _ _ _⟩

end Lonet
