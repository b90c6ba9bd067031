import Lonet.Wire
import Lonet.Addr

/-!
# The lonet handshake, both ends

What `__loaccept` (`xnet/lonet/__init__.py:803-830`) and `__loconnect` (`:878-912`) do with the
line they read: `skreadline` (`readLine`), matching, `string_escape` decoding, the checks, and
for the acceptor the `E` reply it writes before raising.

The main results say that a line a lonet peer wrote is read back exactly: the acceptor reading
a dial line learns the dialer's network and its source address text (`loacceptParse_dialLine`),
and the dialer reading a `connected` reply learns the address the acceptor printed
(`loconnectParse_replyLine`). Conversely such lines are accepted (`handshake_round_trip`): a
lazy group of the regexes ends at the first `"` that does not follow a `\`, and inside a `qq` text
every `"` follows one, so the regexes match the lines a peer writes (`lodialRe_match`,
`loreplyRe_match`) unless a field ends in `\`.
-/

namespace Lonet

/-- `skreadline(sk, maxlen)` on a stream whose unread bytes are `buf`, `eof` telling whether
the peer has closed: the line and the bytes left, or `none` while `recv` would block. -/
def readLine (buf : Bytes) (eof : Bool) : Nat → Option (Except Exc Bytes × Bytes)
  | 0 => some (.ok [], buf)
  | n + 1 => match buf with
    | [] => if eof then some (.error (.error (ascii "unexpected EOF")), []) else none
    | b :: rest =>
      if b = bNewline then some (.ok [b], rest)
      else (fun r => (r.1.map (b :: ·), r.2)) <$> readLine rest eof n

/-- The bound `__loaccept` and `__loconnect` read with. -/
def maxLine : Nat := 1024

/-- `eproto(ereason, detail)`: the `E` reply it writes and the `protocolError` it raises. -/
def eproto (ereason detail : Bytes) : Option Bytes × Exc :=
  (some (ascii "E " ++ qq (ascii "protocol error: " ++ ereason)),
    .protocolError (ereason ++ ascii ": " ++ detail))

/-- The `ValueError` of `string_escape` on a `\x` not followed by two hex digits (a group never
ends in a lone `\`). -/
def escapeError : Exc := .valueError (ascii "invalid \\x escape")

/-- `m.group(..).decode('string_escape')`. -/
def decodeGroup (g : Bytes) : Except Exc Bytes :=
  match unescape g with
  | some s => .ok s
  | none => .error escapeError

/-- `__loaccept` on the dial request `line` of subnetwork `network`, up to `_vnet_accept`: the
decoded `src` and `dst` texts and their addresses, or the reply it writes (if any) with the
error it raises. -/
def loacceptParse (network line : Bytes) :
    Except (Option Bytes × Exc) (Bytes × Bytes × Addr × Addr) :=
  match matchPieces lodialRe line with
  | some [g1, g2, g3] =>
    match decodeGroup g1, decodeGroup g2, decodeGroup g3 with
    | .ok net, .ok src, .ok dst =>
      if net ≠ network then .error (eproto (ascii "network mismatch") (qq net))
      else match Addr.parse net src, Addr.parse net dst with
        | .error _, _ => .error (eproto (ascii "src address invalid") (qq src))
        | .ok _, .error _ => .error (eproto (ascii "dst address invalid") (qq dst))
        | .ok asrc, .ok adst => .ok (src, dst, asrc, adst)
    | .error e, _, _ | .ok _, .error e, _ | .ok _, .ok _, .error e => .error (none, e)
  | _ => .error (eproto (ascii "invalid dial request") (qq line))

/-- `reply(reply)` of `__loaccept`: the line it writes. -/
def loReplyLine (network reply : Bytes) : Bytes :=
  ascii "< lonet " ++ qq network ++ ascii " " ++ reply ++ ascii "\n"

/-- `__loconnect` after its dial line, on the reply `line` and for destination `dst`: the
accepted address, or the error it raises. An accept address that does not parse makes the code
read `acceptAddr` before assigning it. -/
def loconnectParse (network : Bytes) (dst : Addr) (line : Bytes) : Except Exc Addr :=
  match matchPieces loreplyRe line with
  | some [g1, reply, g3] =>
    match decodeGroup g1, decodeGroup g3 with
    | .ok net, .ok arg =>
      if reply = ascii "E" then
        .error (if arg = ascii "connection refused" then .net .connRefused else .error arg)
      else if reply ≠ ascii "connected" then
        .error (.protocolError (ascii "invalid reply verb: " ++ qq reply))
      else if net ≠ network then
        .error (.protocolError (ascii "connected, but network mismatch: " ++ qq net))
      else match Addr.parse net arg with
        | .error _ => .error (.unboundLocal (ascii "acceptAddr"))
        | .ok acceptAddr =>
          if acceptAddr.host ≠ dst.host then
            .error (.protocolError
              (ascii "connected, but accept address is for different host: " ++ qq acceptAddr.host))
          else .ok acceptAddr
    | .error e, _ | .ok _, .error e => .error e
  | _ => .error (.protocolError (ascii "invalid dial reply: " ++ qq line))

/-! ## Reading a line -/

/-- What `readLine` returns: the bytes up to and with the first newline, or `n` bytes with no
newline, and the rest of the buffer after them. -/
theorem readLine_ok {buf line rest : Bytes} {eof : Bool} {n : Nat}
    (h : readLine buf eof n = some (.ok line, rest)) :
    buf = line ++ rest ∧
      ((∃ l, line = l ++ [bNewline] ∧ bNewline ∉ l) ∨ (bNewline ∉ line ∧ line.length = n)) := by
  induction n generalizing buf line with
  | zero =>
    simp only [readLine, Option.some.injEq, Prod.mk.injEq, Except.ok.injEq] at h
    obtain ⟨rfl, rfl⟩ := h
    exact ⟨rfl, .inr ⟨List.not_mem_nil _, rfl⟩⟩
  | succ n ih =>
    match buf, h with
    | [], h => cases eof <;> simp [readLine] at h
    | b :: bs, h =>
      simp only [readLine] at h
      split at h
      · cases h
        exact ⟨rfl, .inl ⟨[], by simp_all⟩⟩
      · rename_i hb
        cases hr : readLine bs eof n with
        | none => simp [hr] at h
        | some r =>
          obtain ⟨r1, r2⟩ := r
          cases r1 with
          | error e => simp [hr, Except.map] at h
          | ok l =>
            simp only [hr, Option.map_eq_map, Option.map_some', Except.map, Option.some.injEq,
              Functor.map, Prod.mk.injEq, Except.ok.injEq] at h
            obtain ⟨rfl, rfl⟩ := h
            obtain ⟨rfl, hl | ⟨hl, hlen⟩⟩ := ih hr
            · obtain ⟨l', rfl, hl'⟩ := hl
              exact ⟨rfl, .inl ⟨b :: l', rfl, by simp [Ne.symm hb, hl']⟩⟩
            · exact ⟨rfl, .inr ⟨by simp [Ne.symm hb, hl], by simp [hlen]⟩⟩

/-- Where a line read with bound `maxlen` from `s` ends, as the docstring of `skreadline`
puts it: just after the first newline if that is within `maxlen` bytes, else after `maxlen`
bytes. Past the end of `s` when `s` ends first. -/
def lineCut (s : Bytes) (maxlen : Nat) : Nat := min (s.indexOf bNewline + 1) maxlen

theorem lineCut_newline (rest : Bytes) (n : Nat) : lineCut (bNewline :: rest) (n + 1) = 1 := by
  simp [lineCut, List.indexOf_cons_self]

theorem lineCut_cons {b : UInt8} (hb : b ≠ bNewline) (rest : Bytes) (n : Nat) :
    lineCut (b :: rest) (n + 1) = lineCut rest n + 1 := by
  simp only [lineCut, List.indexOf_cons_ne _ hb, Nat.succ_eq_add_one]
  omega

/-- **Exact line reads.** `skreadline(sk, maxlen)` takes from the stream the first
`lineCut s maxlen` bytes and leaves the rest; when the stream ends (`eof`) before that point
it raises `unexpected EOF`, and while it is open it waits. -/
theorem readLine_eq (s : Bytes) (eof : Bool) (n : Nat) :
    readLine s eof n =
      if lineCut s n ≤ s.length then some (.ok (s.take (lineCut s n)), s.drop (lineCut s n))
      else if eof then some (.error (.error (ascii "unexpected EOF")), []) else none := by
  induction n generalizing s with
  | zero => simp [readLine, lineCut]
  | succ n ih =>
    match s with
    | [] => simp [readLine, lineCut]
    | b :: rest =>
      by_cases hb : b = bNewline
      · subst hb; simp [readLine, lineCut_newline]
      · simp only [readLine, hb, if_false, ih, lineCut_cons hb, List.length_cons,
          Nat.add_le_add_iff_right, List.take_succ_cons, List.drop_succ_cons]
        split <;> (try split) <;> rfl

/-- Two ways of cutting a list at a first occurrence of `c` agree. -/
theorem eq_of_first {c : UInt8} {l l' r r' : Bytes} (h : l ++ c :: r = l' ++ c :: r')
    (hl : c ∉ l) (hl' : c ∉ l') : l = l' ∧ r = r' := by
  induction l generalizing l' with
  | nil =>
    cases l' with
    | nil => simpa using h
    | cons x l' => simp only [List.nil_append, List.cons_append, List.cons.injEq] at h
                   exact absurd (h.1 ▸ List.mem_cons_self c l') hl'
  | cons x l ih =>
    cases l' with
    | nil => simp only [List.nil_append, List.cons_append, List.cons.injEq] at h
             exact absurd (h.1 ▸ List.mem_cons_self x l) hl
    | cons y l' =>
      simp only [List.cons_append, List.cons.injEq] at h
      obtain ⟨e, h⟩ := h
      obtain ⟨rfl, rfl⟩ := ih h (fun m => hl (List.mem_cons_of_mem _ m))
        (fun m => hl' (List.mem_cons_of_mem _ m))
      exact ⟨by rw [e], rfl⟩

/-- A line read from a buffer that starts with `l ++ "\n"`, `l` free of newlines, and that
contains a newline, is `l ++ "\n"`. -/
theorem readLine_first_line {l more line rest : Bytes} {eof : Bool} {n : Nat}
    (hl : bNewline ∉ l) (h : readLine (l ++ bNewline :: more) eof n = some (.ok line, rest))
    (hnl : bNewline ∈ line) : line = l ++ [bNewline] := by
  obtain ⟨e, ⟨l', rfl, hl'⟩ | ⟨hn, -⟩⟩ := readLine_ok h
  · rw [List.append_assoc, List.singleton_append] at e
    rw [(eq_of_first e hl hl').1]
  · exact absurd hnl hn

/-! ## Newlines in handshake lines -/

theorem hexDigit_ne_newline : ∀ d < 16, hexDigit d ≠ bNewline := by decide

theorem newline_not_mem_escapeByte (c : UInt8) : bNewline ∉ escapeByte bQuote c := by
  unfold escapeByte
  split
  · rename_i h; rcases h with rfl | rfl <;> decide
  split
  · decide
  split
  · decide
  split
  · decide
  split
  · have hi : c.toNat / 16 < 16 := by have := c.toNat_lt_size; simp [UInt8.size] at this; omega
    have h1 := hexDigit_ne_newline _ hi
    have h2 := hexDigit_ne_newline _ (Nat.mod_lt c.toNat (show 16 > 0 by omega))
    simp only [hex2, List.mem_append, List.mem_cons, List.not_mem_nil, or_false, not_or]
    exact ⟨by decide, Ne.symm h1, Ne.symm h2⟩
  · simp only [List.mem_singleton]
    exact fun e => ‹¬c = 10› e.symm

theorem newline_not_mem_qqInner (s : Bytes) : bNewline ∉ qqInner s := by
  simp only [qqInner, List.mem_flatMap, not_exists, not_and]
  exact fun c _ => newline_not_mem_escapeByte c

/-- `qq` writes every newline as `\\n`. -/
theorem newline_not_mem_qq (s : Bytes) : bNewline ∉ qq s := by
  simp only [qq, List.cons_append, List.mem_cons, List.mem_append, newline_not_mem_qqInner,
    List.mem_singleton, false_or, or_false, or_self]
  decide

/-- A dial line has one newline, at its end. -/
theorem dialLine_newline (n s d : Bytes) :
    ∃ l, dialLine n s d = l ++ [bNewline] ∧ bNewline ∉ l := by
  refine ⟨ascii "> lonet " ++ qq n ++ ascii " dial " ++ qq s ++ ascii " " ++ qq d, rfl, ?_⟩
  simp only [List.mem_append, newline_not_mem_qq, or_false, false_or]
  decide

/-- A reply line has one newline, at its end. -/
theorem replyLine_newline (n : Bytes) {v : Bytes} (hv : bNewline ∉ v) (a : Bytes) :
    ∃ l, replyLine n v a = l ++ [bNewline] ∧ bNewline ∉ l := by
  refine ⟨ascii "< lonet " ++ qq n ++ ascii " " ++ v ++ ascii " " ++ qq a, rfl, ?_⟩
  simp only [List.mem_append, newline_not_mem_qq, hv, or_false, false_or]
  decide

/-- A line that `re.match` accepts contains a newline. -/
theorem newline_mem_of_lodialRe {line : Bytes} {gs : List Bytes}
    (h : matchPieces lodialRe line = some gs) : bNewline ∈ line := by
  obtain ⟨_, _, _, _, -, -, -, -, rfl⟩ := lodialRe_sound h
  simp only [List.mem_append]
  exact .inl (.inr (by decide))

theorem newline_mem_of_loreplyRe {line : Bytes} {gs : List Bytes}
    (h : matchPieces loreplyRe line = some gs) : bNewline ∈ line := by
  obtain ⟨_, _, _, _, -, -, -, -, -, rfl⟩ := loreplyRe_sound h
  simp only [List.mem_append]
  exact .inl (.inr (by decide))

/-! ## The acceptor reads a dial line -/

theorem decodeGroup_qqInner (s : Bytes) : decodeGroup (qqInner s) = .ok s := by
  simp [decodeGroup, unescape_qqInner]

/-- What a successful `loacceptParse` went through. -/
theorem loacceptParse_ok {network line src dst : Bytes} {asrc adst : Addr}
    (h : loacceptParse network line = .ok (src, dst, asrc, adst)) :
    ∃ g1 g2 g3, matchPieces lodialRe line = some [g1, g2, g3] ∧ decodeGroup g1 = .ok network ∧
      decodeGroup g2 = .ok src ∧ decodeGroup g3 = .ok dst ∧
      Addr.parse network src = .ok asrc ∧ Addr.parse network dst = .ok adst := by
  unfold loacceptParse at h
  split at h
  · rename_i g1 g2 g3 hm
    split at h
    · rename_i net s d h1 h2 h3
      split at h
      · cases h
      · rename_i hn
        rw [not_not] at hn
        subst hn
        split at h
        · cases h
        · cases h
        · rename_i a1 a2 hs hd
          simp only [Except.ok.injEq, Prod.mk.injEq] at h
          obtain ⟨rfl, rfl, rfl, rfl⟩ := h
          exact ⟨g1, g2, g3, hm, h1, h2, h3, hs, hd⟩
    all_goals cases h
  · cases h

/-- **The acceptor reads the dialer's fields back.** If `__loaccept` on subnetwork `network`
accepts a line that starts with the dial line of network `n`, source `s` and destination `d`,
then `n` is `network`, the decoded source and destination are `s` and `d`, and the addresses
are their parses. -/
theorem loacceptParse_dialLine {network n s d more line rest src dst : Bytes} {eof : Bool}
    {asrc adst : Addr} (hr : readLine (dialLine n s d ++ more) eof maxLine = some (.ok line, rest))
    (h : loacceptParse network line = .ok (src, dst, asrc, adst)) :
    n = network ∧ src = s ∧ dst = d ∧ Addr.parse n s = .ok asrc ∧ Addr.parse n d = .ok adst := by
  obtain ⟨g1, g2, g3, hm, h1, h2, h3, hs, hd⟩ := loacceptParse_ok h
  obtain ⟨l, hl, hnl⟩ := dialLine_newline n s d
  rw [hl, List.append_assoc, List.singleton_append] at hr
  have hline := readLine_first_line hnl hr (newline_mem_of_lodialRe hm)
  rw [← hl] at hline
  subst hline
  obtain ⟨hgs, -⟩ := lodialRe_dialLine hm
  simp only [List.cons.injEq, and_true] at hgs
  obtain ⟨rfl, rfl, rfl⟩ := hgs
  rw [decodeGroup_qqInner, Except.ok.injEq] at h1 h2 h3
  subst h1 h2 h3
  exact ⟨rfl, rfl, rfl, hs, hd⟩

/-! ## The dialer reads a reply line -/

/-- What a successful `loconnectParse` went through. -/
theorem loconnectParse_ok {network line : Bytes} {dst a : Addr}
    (h : loconnectParse network dst line = .ok a) :
    ∃ g1 g3 arg, matchPieces loreplyRe line = some [g1, ascii "connected", g3] ∧
      decodeGroup g1 = .ok network ∧ decodeGroup g3 = .ok arg ∧ Addr.parse network arg = .ok a ∧
      a.host = dst.host := by
  unfold loconnectParse at h
  split at h
  · rename_i g1 v g3 hm
    split at h
    · rename_i net arg h1 h3
      split at h
      · split at h <;> cases h
      split at h
      · cases h
      rename_i hc
      rw [not_not] at hc
      subst hc
      split at h
      · cases h
      rename_i hn
      rw [not_not] at hn
      subst hn
      split at h
      · cases h
      · rename_i a' hp
        split at h
        · cases h
        · rename_i hh
          rw [not_not] at hh
          cases h
          exact ⟨g1, g3, arg, hm, h1, h3, hp, hh⟩
    all_goals cases h
  · cases h

/-- **The dialer reads the acceptor's reply back.** If `__loconnect` on network `network`
accepts a line that starts with a reply line of network `n`, verb `v` and argument `arg`, then
the verb was `connected`, `n` is `network`, and the accepted address is the parse of `arg`. -/
theorem loconnectParse_replyLine {network n v arg more line rest : Bytes} {eof : Bool}
    {dst a : Addr} (hv : bQuote ∉ v) (hvn : bNewline ∉ v)
    (hr : readLine (replyLine n v arg ++ more) eof maxLine = some (.ok line, rest))
    (h : loconnectParse network dst line = .ok a) :
    v = ascii "connected" ∧ n = network ∧ Addr.parse n arg = .ok a := by
  obtain ⟨g1, g3, arg', hm, h1, h3, hp, -⟩ := loconnectParse_ok h
  obtain ⟨l, hl, hnl⟩ := replyLine_newline n hvn arg
  rw [hl, List.append_assoc, List.singleton_append] at hr
  have hline := readLine_first_line hnl hr (newline_mem_of_loreplyRe hm)
  rw [← hl] at hline
  subst hline
  obtain ⟨hgs, -⟩ := loreplyRe_replyLine hv hm
  simp only [List.cons.injEq, and_true] at hgs
  obtain ⟨rfl, rfl, rfl⟩ := hgs
  rw [decodeGroup_qqInner, Except.ok.injEq] at h1 h3
  subst h1 h3
  exact ⟨rfl, rfl, hp⟩

/-! ## Rejections that are not protocol errors -/

/-- A field of a matched dial line with a bad `\x` escape: `__loaccept` raises
`string_escape`'s `ValueError` and writes no reply. -/
theorem loacceptParse_escape {network line g1 g2 g3 : Bytes}
    (hm : matchPieces lodialRe line = some [g1, g2, g3])
    (he : unescape g1 = none ∨ unescape g2 = none ∨ unescape g3 = none) :
    loacceptParse network line = .error (none, escapeError) := by
  unfold loacceptParse
  rw [hm]
  cases h1 : unescape g1 <;> cases h2 : unescape g2 <;> cases h3 : unescape g3 <;>
    simp_all [decodeGroup]

/-- A `connected` reply of the right network whose argument is no address: `__loconnect`
formats `acceptAddr` before it is bound. -/
theorem loconnectParse_unbound {network line g1 g3 arg : Bytes} {dst : Addr} {e : Exc}
    (hm : matchPieces loreplyRe line = some [g1, ascii "connected", g3])
    (h1 : unescape g1 = some network) (h3 : unescape g3 = some arg)
    (hp : Addr.parse network arg = .error e) :
    loconnectParse network dst line = .error (.unboundLocal (ascii "acceptAddr")) := by
  have hE : ascii "connected" ≠ ascii "E" := by decide
  simp [loconnectParse, hm, decodeGroup, h1, h3, hE, hp]

/-- **Not every rejection is a protocol error.** The dial line whose source is `a:1\xzz`
makes `__loaccept` raise a `ValueError` with no `E` reply, and the reply
`connected "zzz"` makes `__loconnect` raise `UnboundLocalError`. -/
theorem handshake_rejection_escapes :
    loacceptParse (ascii "lonetX") (ascii "> lonet \"lonetX\" dial \"a:1\\xzz\" \"b:1\"\n") =
        .error (none, escapeError) ∧
      loconnectParse (ascii "lonetX") ⟨ascii "lonetX", ascii "b", 1⟩
          (ascii "< lonet \"lonetX\" connected \"zzz\"\n") =
        .error (.unboundLocal (ascii "acceptAddr")) :=
  ⟨loacceptParse_escape rfl (.inr (.inl (by decide))),
    loconnectParse_unbound rfl (by decide) rfl rfl⟩

/-! ## The lines a peer writes are accepted -/

/-- A digit is written as itself inside `qq`. -/
theorem escapeByte_digit {c : UInt8} (hc : isDigit c = true) : escapeByte bQuote c = [c] := by
  simp only [isDigit, Bool.and_eq_true, decide_eq_true_eq] at hc
  have ne : ∀ n : UInt8, (n.toNat < 48 ∨ 57 < n.toNat) → c ≠ n := fun n hn e => by subst e; omega
  rw [escapeByte, if_neg (not_or.2 ⟨ne _ (by decide), ne _ (by decide)⟩), if_neg (ne _ (by decide)),
    if_neg (ne _ (by decide)), if_neg (ne _ (by decide)), if_neg (by omega)]

/-- The quoted form of an address ends in its port's last digit. -/
theorem lazyText_qqInner_str (a : Addr) : LazyText (qqInner a.str) := by
  have hd : ∃ l d, fmtInt a.port = l ++ [d] ∧ isDigit d = true := by
    have key : ∀ n, ∃ l d, decimal n = l ++ [d] ∧ isDigit d = true := fun n =>
      ⟨_, _, (List.dropLast_append_getLast (decimal_ne_nil n)).symm,
        decimal_digits n _ (List.getLast_mem _)⟩
    unfold fmtInt
    split_ifs
    · exact key _
    · obtain ⟨l, d, e, hd⟩ := key a.port.natAbs
      exact ⟨bMinus :: l, d, by rw [e]; rfl, hd⟩
  obtain ⟨l, d, e, hd⟩ := hd
  refine ⟨qqInner (a.host ++ bColon :: l), d, ?_, ?_⟩
  · simp only [Addr.str, addrstr4, e, qqInner]
    rw [show a.host ++ bColon :: (l ++ [d]) = (a.host ++ bColon :: l) ++ [d] by simp,
      List.flatMap_append]
    simp [escapeByte_digit hd]
  · rintro rfl; exact absurd hd (by decide)

/-- A continuation that starts with a literal beginning with `"` reads a `"` first. -/
theorem matchPieces_lit_quote {s : Bytes} {ps : List Piece} {cs : Bytes} {gs : List Bytes}
    (h : matchPieces (.lit (bQuote :: s) :: ps) cs = some gs) : ∃ t, cs = bQuote :: t := by
  simp only [matchPieces] at h
  split at h
  · exact ⟨_, isPrefixOf_sound ‹_›⟩
  · cases h

theorem matchPieces_lit_append (s : Bytes) (ps : List Piece) (cs : Bytes) :
    matchPieces (.lit s :: ps) (s ++ cs) = matchPieces ps cs := by
  simp [matchPieces, List.isPrefixOf_iff_prefix]

/-- A lazy group over a text whose every `"` follows a `\`, with no newline and a last byte
other than `\`, ends just before the `"` that follows it, when the rest of the pattern reads
from there. -/
theorem lazyGroup_quoteSafe {k : Bytes → Option (List Bytes)}
    (hk : ∀ cs gs, k cs = some gs → ∃ t, cs = bQuote :: t) {p c : UInt8} {acc g rest : Bytes}
    {gs : List Bytes} (hg : QuoteSafe p (g ++ [c])) (hnl : bNewline ∉ g) (hc : c ≠ bBackslash)
    (hr : k (bQuote :: rest) = some gs) :
    lazyGroup k acc (g ++ c :: bQuote :: rest) = some ((acc ++ g ++ [c]) :: gs) := by
  induction g generalizing p acc with
  | nil => simp [lazyGroup, hc, hr]
  | cons x g ih =>
    have hnone : (if x = bBackslash then none else k (g ++ c :: bQuote :: rest)) = none := by
      split_ifs with hx
      · rfl
      · cases hkk : k (g ++ c :: bQuote :: rest) with
        | none => rfl
        | some gs' =>
          obtain ⟨t, ht⟩ := hk _ _ hkk
          -- the byte after `x` would be a `"` that does not follow a `\`
          have hq := hg.2
          cases g with
          | nil => simp only [List.nil_append, List.cons.injEq] at ht; exact absurd (hq.1 ht.1) hx
          | cons y g => simp only [List.cons_append, List.cons.injEq] at ht; exact absurd (hq.1 ht.1) hx
    have hxn : x ≠ bNewline := fun e => hnl (List.mem_cons.2 (.inl e.symm))
    rw [List.cons_append, lazyGroup, hnone, if_neg hxn,
      ih hg.2 (fun m => hnl (List.mem_cons_of_mem _ m))]
    simp

/-- A literal, then a lazy group over the inside of a `qq` text that is a lazy text, then a
continuation reading a `"` first. -/
theorem matchPieces_lit_lazy {s x t : Bytes} {ps : List Piece} {gs : List Bytes}
    (hx : LazyText (qqInner x)) (hps : ∀ cs gs, matchPieces ps cs = some gs → ∃ t', cs = bQuote :: t')
    (ht : ∃ t', t = bQuote :: t') (hr : matchPieces ps t = some gs) :
    matchPieces (.lit s :: .lazy :: ps) (s ++ (qqInner x ++ t)) = some (qqInner x :: gs) := by
  obtain ⟨a, c, e, hc⟩ := hx
  obtain ⟨t', rfl⟩ := ht
  have hq := quoteSafe_qqInner bQuote x
  have hnl := newline_not_mem_qqInner x
  rw [e] at hq hnl ⊢
  rw [matchPieces_lit_append, matchPieces, List.append_assoc, List.singleton_append,
    lazyGroup_quoteSafe hps hq (fun m => hnl (List.mem_append_left _ m)) hc hr]
  simp

/-- **A dial line is matched.** `_lodial_re` matches the line `__loconnect` builds whenever its
three quoted fields are lazy texts, with the quoted fields as its groups. -/
theorem lodialRe_match {n s d : Bytes} (hn : LazyText (qqInner n)) (hs : LazyText (qqInner s))
    (hd : LazyText (qqInner d)) (more : Bytes) :
    matchPieces lodialRe (dialLine n s d ++ more) = some [qqInner n, qqInner s, qqInner d] := by
  obtain ⟨L1, L2, L3, L4⟩ := lodialRe_literals
  have e : dialLine n s d ++ more = ascii "> lonet \"" ++ (qqInner n ++ (ascii "\" dial \"" ++
      (qqInner s ++ (ascii "\" \"" ++ (qqInner d ++ (ascii "\"\n" ++ more)))))) := by
    rw [dialLine_eq, L1, L2, L3, L4]; simp
  rw [e, lodialRe]
  refine matchPieces_lit_lazy hn (fun _ _ => matchPieces_lit_quote) ⟨_, by rw [L2]; rfl⟩ ?_
  refine matchPieces_lit_lazy hs (fun _ _ => matchPieces_lit_quote) ⟨_, by rw [L3]; rfl⟩ ?_
  refine matchPieces_lit_lazy hd (fun _ _ => matchPieces_lit_quote) ⟨_, by rw [L4]; rfl⟩ ?_
  rw [matchPieces_lit_append]
  rfl

/-- The greedy group over a nonempty word followed by a space, then the rest of the pattern. -/
theorem matchPieces_word {v cs : Bytes} {ps : List Piece} {gs : List Bytes} (hv : v ≠ [])
    (hsp : ∀ b ∈ v, isSpace b = false) (hc : ∃ t, cs = 32 :: t) (hr : matchPieces ps cs = some gs) :
    matchPieces (.word :: ps) (v ++ cs) = some (v :: gs) := by
  obtain ⟨t, rfl⟩ := hc
  have ht : (v ++ 32 :: t).takeWhile (!isSpace ·) = v := by
    rw [List.takeWhile_append_of_pos (by simpa using hsp)]
    simp [isSpace]
  obtain ⟨m, hm⟩ : ∃ m, v.length = m + 1 := Nat.exists_eq_succ_of_ne_zero (by simpa using hv)
  rw [matchPieces, ht, hm, wordTry, ← hm, List.drop_left, hr, List.take_left]

/-- **A reply line is matched.** `_loreply_re` matches a reply line whose quoted network and
argument are lazy texts and whose verb is a nonempty word, with the quoted network, the verb
and the quoted argument as its groups. -/
theorem loreplyRe_match {n v a : Bytes} (hn : LazyText (qqInner n)) (hv : v ≠ [])
    (hsp : ∀ b ∈ v, isSpace b = false) (ha : LazyText (qqInner a)) (more : Bytes) :
    matchPieces loreplyRe (replyLine n v a ++ more) = some [qqInner n, v, qqInner a] := by
  obtain ⟨L1, L2, L3, L4⟩ := loreplyRe_literals
  have e : replyLine n v a ++ more = ascii "< lonet \"" ++ (qqInner n ++ (ascii "\" " ++
      (v ++ (ascii " \"" ++ (qqInner a ++ (ascii "\"\n" ++ more)))))) := by
    rw [replyLine_eq, L1, L2, L3, L4]; simp
  rw [e, loreplyRe]
  refine matchPieces_lit_lazy hn (fun _ _ => matchPieces_lit_quote) ⟨_, by rw [L2]; rfl⟩ ?_
  rw [matchPieces_lit_append]
  refine matchPieces_word hv hsp ⟨_, rfl⟩ ?_
  refine matchPieces_lit_lazy ha (fun _ _ => matchPieces_lit_quote) ⟨_, by rw [L4]; rfl⟩ ?_
  rw [matchPieces_lit_append]
  rfl

/-- A line of fewer than `n` bytes before its newline is read whole. -/
theorem readLine_line {l : Bytes} (hl : bNewline ∉ l) (more : Bytes) (eof : Bool) {n : Nat}
    (hn : l.length < n) : readLine (l ++ bNewline :: more) eof n = some (.ok (l ++ [bNewline]), more) := by
  induction l generalizing n with
  | nil => obtain ⟨m, rfl⟩ : ∃ m, n = m + 1 := ⟨n - 1, by simp at hn; omega⟩; simp [readLine]
  | cons x l ih =>
    obtain ⟨m, rfl⟩ : ∃ m, n = m + 1 := ⟨n - 1, by simp at hn; omega⟩
    have hx : x ≠ bNewline := fun e => hl (List.mem_cons.2 (.inl e.symm))
    rw [List.cons_append, readLine, if_neg hx,
      ih (fun h => hl (List.mem_cons_of_mem _ h)) (by simpa using hn)]
    rfl

/-- A line that ends in its first newline, and fits in `maxLine`, is read whole. -/
theorem readLine_whole {line : Bytes} (h : ∃ l, line = l ++ [bNewline] ∧ bNewline ∉ l)
    (hlen : line.length ≤ maxLine) (more : Bytes) (eof : Bool) :
    readLine (line ++ more) eof maxLine = some (.ok line, more) := by
  obtain ⟨l, rfl, hl⟩ := h
  rw [List.append_assoc, List.singleton_append, readLine_line hl more eof (by simp at hlen; omega)]

theorem loReplyLine_eq (n v x : Bytes) :
    loReplyLine n (v ++ ascii " " ++ qq x) = replyLine n v x := by
  simp [loReplyLine, replyLine]

/-- **The handshake lines are read back.** On a network whose quoted name is a lazy text (not
empty, not ending in `\`), for addresses of that network whose hosts have no `:` and lines that
fit in `maxLine`: the dial line `__loconnect` writes is read by `__loaccept` as one line and
parsed back to the two address texts and their addresses, and the `connected` reply
`__loaccept` writes for an address on the dialed host is read by `__loconnect` as one line and
parsed back to that address. -/
theorem handshake_round_trip {network more more' : Bytes} {eof eof' : Bool} {src dst acc : Addr}
    (hn : LazyText (qqInner network)) (hsrc : src.net = network ∧ bColon ∉ src.host)
    (hdst : dst.net = network ∧ bColon ∉ dst.host) (hacc : acc.net = network ∧ bColon ∉ acc.host)
    (hh : acc.host = dst.host) (hl : (dialLine network src.str dst.str).length ≤ maxLine)
    (hl' : (loReplyLine network (ascii "connected " ++ qq acc.str)).length ≤ maxLine) :
    readLine (dialLine network src.str dst.str ++ more) eof maxLine =
        some (.ok (dialLine network src.str dst.str), more) ∧
      loacceptParse network (dialLine network src.str dst.str) = .ok (src.str, dst.str, src, dst) ∧
      readLine (loReplyLine network (ascii "connected " ++ qq acc.str) ++ more') eof' maxLine =
        some (.ok (loReplyLine network (ascii "connected " ++ qq acc.str)), more') ∧
      loconnectParse network dst (loReplyLine network (ascii "connected " ++ qq acc.str)) =
        .ok acc := by
  have hr : loReplyLine network (ascii "connected " ++ qq acc.str) =
      replyLine network (ascii "connected") acc.str := by
    rw [← loReplyLine_eq]; rfl
  have ps := hsrc.1 ▸ parse_str hsrc.2
  have pd := hdst.1 ▸ parse_str hdst.2
  have pa := hacc.1 ▸ parse_str hacc.2
  have hE : ascii "connected" ≠ ascii "E" := by decide
  refine ⟨readLine_whole (dialLine_newline ..) hl more eof, ?_,
    readLine_whole (hr ▸ replyLine_newline network (by decide) acc.str) hl' more' eof', ?_⟩
  · rw [loacceptParse, ← List.append_nil (dialLine ..),
      lodialRe_match hn (lazyText_qqInner_str src) (lazyText_qqInner_str dst) []]
    simp [decodeGroup_qqInner, ps, pd]
  · rw [hr, loconnectParse, ← List.append_nil (replyLine ..),
      loreplyRe_match hn (by decide) (by decide) (lazyText_qqInner_str acc) []]
    simp [decodeGroup_qqInner, hE, pa, hh]

/-- A dial from `a:1` to `b:1` on `lonetX`, accepted on `b:2`. -/
theorem handshake_round_trip_lonetX :
    loacceptParse (ascii "lonetX") (dialLine (ascii "lonetX") (Addr.str ⟨ascii "lonetX", ascii "a", 1⟩)
        (Addr.str ⟨ascii "lonetX", ascii "b", 1⟩)) =
      .ok (Addr.str ⟨ascii "lonetX", ascii "a", 1⟩, Addr.str ⟨ascii "lonetX", ascii "b", 1⟩,
        ⟨ascii "lonetX", ascii "a", 1⟩, ⟨ascii "lonetX", ascii "b", 1⟩) ∧
    loconnectParse (ascii "lonetX") ⟨ascii "lonetX", ascii "b", 1⟩ (loReplyLine (ascii "lonetX")
        (ascii "connected " ++ qq (Addr.str ⟨ascii "lonetX", ascii "b", 2⟩))) =
      .ok ⟨ascii "lonetX", ascii "b", 2⟩ :=
  have h := @handshake_round_trip (ascii "lonetX") [] [] true true ⟨ascii "lonetX", ascii "a", 1⟩
    ⟨ascii "lonetX", ascii "b", 1⟩ ⟨ascii "lonetX", ascii "b", 2⟩
    ⟨ascii "lonet", 88, by decide, by decide⟩ ⟨rfl, by decide⟩ ⟨rfl, by decide⟩ ⟨rfl, by decide⟩
    rfl (by decide) (by decide)
  ⟨h.2.1, h.2.2.2⟩


end Lonet
