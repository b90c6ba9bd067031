import Lonet.Bytes

/-!
# Quoting for the handshake lines

The handshake writes each string field with `qq` and reads it back with
`m.group(..).decode('string_escape')` (`xnet/lonet/__init__.py:828-830, 885-887`).
`qq` is `golang.gcompat.qq`, whose source is not part of the files modelled here; `unescape`
is Python 2's `string_escape` decoder. `unescape_qqInner` is the round trip: decoding the
inside of `qq s` gives `s` back, for every byte string `s`.
-/

namespace Lonet

/-- Modelled from the spec: `qq` (`golang.gcompat`, missing here) as §4.8 and §6 describe
it and `golang/gcompat_test.py` tests it: wrap in `"`, escape `"` and `\`, write `\t`, `\n`,
`\r` short and the other bytes below `0x20` and from `0x7f` as `\xhh`; `'` stays as is. -/
def qqInner (s : Bytes) : Bytes := s.flatMap (escapeByte bQuote)

/-- Modelled from the spec: `qq(s)`, the quoted form of `s` (see `qqInner`). -/
def qq (s : Bytes) : Bytes := bQuote :: qqInner s ++ [bQuote]

/-! ## `string_escape` decoding -/

/-- The one-letter escapes `\\ \' \" \b \f \t \n \r \v \a`. -/
def simpleEscape (c : UInt8) : Option UInt8 :=
  if c = 92 then some 92 else if c = 39 then some 39 else if c = 34 then some 34
  else if c = 98 then some 8 else if c = 102 then some 12 else if c = 116 then some 9
  else if c = 110 then some 10 else if c = 114 then some 13 else if c = 118 then some 11
  else if c = 97 then some 7 else none

/-- An octal digit. -/
def isOct (c : UInt8) : Bool := 48 ≤ c.toNat && c.toNat ≤ 55

/-- C `isxdigit`. -/
def isHex (c : UInt8) : Bool :=
  isDigit c || (97 ≤ c.toNat && c.toNat ≤ 102) || (65 ≤ c.toNat && c.toNat ≤ 70)

/-- The value of a hex digit. -/
def hexVal (c : UInt8) : Nat :=
  if isDigit c then c.toNat - 48 else if 97 ≤ c.toNat then c.toNat - 87 else c.toNat - 55

/-- Where `PyString_DecodeEscape` is: in plain text, just after `\`, inside an octal escape
(value and digit count so far), or after `\x` with zero or one hex digit read. -/
inductive EscState where
  | plain
  | backslash
  | octal (v n : Nat)
  | hex0
  | hex1 (h : Nat)

/-- The bytes `c :: cs` decoded from plain text, given how to decode `cs` from plain text. -/
def plainStep (c : UInt8) (k : EscState → Option Bytes) : Option Bytes :=
  if c = bBackslash then k .backslash else (c :: ·) <$> k .plain

/-- `PyString_DecodeEscape` from state `st`; `none` is its `ValueError` (a trailing `\`, or
`\x` without two hex digits). An unknown escape keeps its backslash. -/
def unescapeGo : EscState → Bytes → Option Bytes
  | .plain, [] => some []
  | .plain, c :: cs => plainStep c (unescapeGo · cs)
  | .backslash, [] => none
  | .backslash, c :: cs =>
    if c = bNewline then unescapeGo .plain cs
    else match simpleEscape c with
      | some v => (v :: ·) <$> unescapeGo .plain cs
      | none =>
        if isOct c then unescapeGo (.octal (c.toNat - 48) 1) cs
        else if c = 120 then unescapeGo .hex0 cs
        else (bBackslash :: c :: ·) <$> unescapeGo .plain cs
  | .octal v _, [] => some [v.toUInt8]
  | .octal v n, c :: cs =>
    if n < 3 ∧ isOct c then unescapeGo (.octal (v * 8 + (c.toNat - 48)) (n + 1)) cs
    else (v.toUInt8 :: ·) <$> plainStep c (unescapeGo · cs)
  | .hex0, [] => none
  | .hex0, c :: cs => if isHex c then unescapeGo (.hex1 (hexVal c)) cs else none
  | .hex1 _, [] => none
  | .hex1 h, c :: cs =>
    if isHex c then ((h * 16 + hexVal c).toUInt8 :: ·) <$> unescapeGo .plain cs else none

/-- `s.decode('string_escape')`. -/
def unescape (s : Bytes) : Option Bytes := unescapeGo .plain s

theorem unescapeGo_plain_cons (c : UInt8) (cs : Bytes) :
    unescapeGo .plain (c :: cs) = plainStep c (unescapeGo · cs) := rfl

theorem hexVal_hexDigit : ∀ d < 16, isHex (hexDigit d) = true ∧ hexVal (hexDigit d) = d := by
  decide

theorem toUInt8_toNat (c : UInt8) : c.toNat.toUInt8 = c :=
  UInt8.toNat.inj (UInt8.toNat_ofNat_of_lt c.toNat_lt_size)

theorem unescapeGo_plain_of_ne {c : UInt8} (h : c ≠ bBackslash) (t : Bytes) :
    unescapeGo .plain (c :: t) = (c :: ·) <$> unescapeGo .plain t := by
  simp [unescapeGo_plain_cons, plainStep, h]

theorem unescapeGo_hex {a b : UInt8} (ha : isHex a = true) (hb : isHex b = true) (t : Bytes) :
    unescapeGo .plain (bBackslash :: 120 :: a :: b :: t) =
      ((hexVal a * 16 + hexVal b).toUInt8 :: ·) <$> unescapeGo .plain t := by
  have e : unescapeGo .plain (bBackslash :: 120 :: a :: b :: t) = unescapeGo .hex0 (a :: b :: t) :=
    rfl
  rw [e]; simp [unescapeGo, ha, hb]

/-- Decoding one escaped byte. -/
theorem unescapeGo_escapeByte (c : UInt8) (t : Bytes) :
    unescapeGo .plain (escapeByte bQuote c ++ t) = (c :: ·) <$> unescapeGo .plain t := by
  unfold escapeByte
  split
  · rename_i h
    rcases h with rfl | rfl <;> rfl
  · rename_i hq
    split
    · subst_vars; rfl
    split
    · subst_vars; rfl
    split
    · subst_vars; rfl
    split
    · have hi := c.toNat_lt_size
      obtain ⟨h1, v1⟩ := hexVal_hexDigit (c.toNat / 16) (by simp [UInt8.size] at hi; omega)
      obtain ⟨h2, v2⟩ := hexVal_hexDigit (c.toNat % 16) (Nat.mod_lt _ (by omega))
      have hc : (hexVal (hexDigit (c.toNat / 16)) * 16 + hexVal (hexDigit (c.toNat % 16))).toUInt8
          = c := by
        rw [v1, v2, Nat.div_add_mod', toUInt8_toNat]
      exact (unescapeGo_hex h1 h2 t).trans (by rw [hc])
    · exact unescapeGo_plain_of_ne (fun e => hq (Or.inr e)) t

/-- **`string_escape` undoes `qq`**: for every byte string `s`, decoding the inside of
`qq s` (followed by any text `t`) reads `s` and continues with `t`. -/
theorem unescapeGo_qqInner (s t : Bytes) :
    unescapeGo .plain (qqInner s ++ t) = (s ++ ·) <$> unescapeGo .plain t := by
  induction s with
  | nil => simp [qqInner]
  | cons c s ih =>
    simp only [qqInner, List.flatMap_cons, List.append_assoc] at ih ⊢
    rw [unescapeGo_escapeByte, ih, Functor.map_map]
    rfl

theorem unescape_qqInner (s : Bytes) : unescape (qqInner s) = some s := by
  simpa [unescape, unescapeGo] using unescapeGo_qqInner s []

end Lonet
