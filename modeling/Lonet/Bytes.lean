import Mathlib.Data.List.Basic

/-!
# Byte strings and the Python 2 scalar conversions lonet uses

lonet runs on Python 2, where `str` is a byte string. Host names, addresses and the
handshake lines are all `Bytes` here. This module fixes the byte constants the
handshake grammar names, `ascii` for writing literals, and the two conversions between
integers and text that `Addr` goes through: `"%d" % port` (`decimal`, `fmtInt`) and
`int(text)` (`pyInt`).
-/

namespace Lonet

/-- A Python 2 `str`. -/
abbrev Bytes := List UInt8

/-- The bytes of an ASCII literal. -/
def ascii (s : String) : Bytes := s.toList.map fun c => c.toNat.toUInt8

/-- `"`. -/
def bQuote : UInt8 := 34
/-- `\`. -/
def bBackslash : UInt8 := 92
/-- `\n`. -/
def bNewline : UInt8 := 10
/-- `:`. -/
def bColon : UInt8 := 58
/-- `-`. -/
def bMinus : UInt8 := 45
/-- `+`. -/
def bPlus : UInt8 := 43

/-- C `isspace`: space, `\t`, `\n`, `\v`, `\f`, `\r`. -/
def isSpace (b : UInt8) : Bool := b.toNat == 32 || (9 ≤ b.toNat && b.toNat ≤ 13)

/-- C `isdigit`. -/
def isDigit (b : UInt8) : Bool := 48 ≤ b.toNat && b.toNat ≤ 57

/-! ## Escapes -/

/-- The lower-case hex digit of `d < 16`. -/
def hexDigit (d : Nat) : UInt8 := if d < 10 then (48 + d).toUInt8 else (87 + d).toUInt8

/-- `"%02x" % c`. -/
def hex2 (c : UInt8) : Bytes := [hexDigit (c.toNat / 16), hexDigit (c.toNat % 16)]

/-- How Python 2 writes byte `c` inside a literal quoted with `q`: `\` before `q` and `\`,
`\t`, `\n`, `\r`, `\xhh` for the other bytes below `0x20` and from `0x7f`, the byte itself
otherwise (`PyString_Repr`). -/
def escapeByte (q c : UInt8) : Bytes :=
  if c = q ∨ c = bBackslash then [bBackslash, c]
  else if c = 9 then ascii "\\t" else if c = 10 then ascii "\\n" else if c = 13 then ascii "\\r"
  else if c.toNat < 32 ∨ 127 ≤ c.toNat then ascii "\\x" ++ hex2 c
  else [c]

/-! ## `"%d"` -/

/-- The decimal digit byte of `d < 10`. -/
def digitByte (d : Nat) : UInt8 := (48 + d).toUInt8

/-- The digits of `n` in front of `acc`, most significant first; `fuel` bounds the digit count. -/
def decimalAux : Nat → Nat → Bytes → Bytes
  | 0, _, acc => acc
  | fuel + 1, n, acc =>
    if n / 10 = 0 then digitByte (n % 10) :: acc
    else decimalAux fuel (n / 10) (digitByte (n % 10) :: acc)

/-- `"%d" % n` for `n ≥ 0`. -/
def decimal (n : Nat) : Bytes := decimalAux (n + 1) n []

/-- `"%d" % i`. -/
def fmtInt (i : Int) : Bytes :=
  if 0 ≤ i then decimal i.toNat else bMinus :: decimal i.natAbs

/-! ## `int()` -/

/-- The value of the digits `bs` read after the value `a`. -/
def digitsVal : Nat → Bytes → Nat
  | a, [] => a
  | a, b :: bs => digitsVal (a * 10 + (b.toNat - 48)) bs

/-- `int`'s optional sign in front of the digits: whether it is `-`, and what follows it. -/
def pySign : Bytes → Bool × Bytes
  | [] => (false, [])
  | b :: t => if b = bMinus then (true, t) else if b = bPlus then (false, t) else (false, b :: t)

/-- Python 2 `int(s)` in base 10 on a byte string: surrounding whitespace, an optional sign,
one or more decimal digits; anything else is a `ValueError` (`none`). -/
def pyInt (s : Bytes) : Option Int :=
  let (neg, r) := pySign (s.dropWhile isSpace)
  let ds := r.takeWhile isDigit
  if ds = [] ∨ (r.dropWhile isDigit).all isSpace = false then none
  else some (if neg then -(digitsVal 0 ds : Int) else digitsVal 0 ds)

theorem digitsVal_cons (a : Nat) (b : UInt8) (bs : Bytes) :
    digitsVal a (b :: bs) = digitsVal (a * 10 + (b.toNat - 48)) bs := rfl

theorem digitByte_isDigit : ∀ d < 10, isDigit (digitByte d) = true := by decide

theorem digitByte_toNat : ∀ d < 10, (digitByte d).toNat - 48 = d := by decide

theorem decimalAux_digits (fuel n : Nat) (acc : Bytes) (hacc : ∀ b ∈ acc, isDigit b = true) :
    ∀ b ∈ decimalAux fuel n acc, isDigit b = true := by
  induction fuel generalizing n acc with
  | zero => exact hacc
  | succ fuel ih =>
    have hd : ∀ b ∈ digitByte (n % 10) :: acc, isDigit b = true := by
      simpa [digitByte_isDigit _ (Nat.mod_lt n (by omega))] using hacc
    simp only [decimalAux]
    split
    · exact hd
    · exact ih _ _ hd

theorem decimalAux_ne_nil (fuel n : Nat) (acc : Bytes) (h : 0 < fuel ∨ acc ≠ []) :
    decimalAux fuel n acc ≠ [] := by
  induction fuel generalizing n acc with
  | zero => simpa using h
  | succ fuel ih =>
    simp only [decimalAux]
    split
    · simp
    · exact ih _ _ (Or.inr (by simp))

/-- Reading back the digits `decimalAux` writes: enough fuel gives the whole number. -/
theorem digitsVal_decimalAux (fuel n : Nat) (acc : Bytes) (h : n < fuel) :
    digitsVal 0 (decimalAux fuel n acc) = digitsVal n acc := by
  induction fuel generalizing n acc with
  | zero => omega
  | succ fuel ih =>
    have hd := digitByte_toNat _ (Nat.mod_lt n (show 10 > 0 by omega))
    simp only [decimalAux]
    split
    · rw [digitsVal_cons, hd, Nat.zero_mul, Nat.zero_add, Nat.mod_eq_of_lt (by omega)]
    · rw [ih _ _ (by omega), digitsVal_cons, hd, Nat.div_add_mod' n 10]

theorem decimal_digits (n : Nat) : ∀ b ∈ decimal n, isDigit b = true :=
  decimalAux_digits _ _ _ (by simp)

theorem decimal_ne_nil (n : Nat) : decimal n ≠ [] :=
  decimalAux_ne_nil _ _ _ (Or.inl (by omega))

@[simp] theorem digitsVal_decimal (n : Nat) : digitsVal 0 (decimal n) = n :=
  digitsVal_decimalAux _ _ _ (by omega)

theorem not_isSpace_of_isDigit {b : UInt8} (h : isDigit b = true) : isSpace b = false := by
  simp [isDigit, isSpace] at *
  omega

theorem ne_sign_of_isDigit {b : UInt8} (h : isDigit b = true) : b ≠ bMinus ∧ b ≠ bPlus := by
  constructor <;> rintro rfl <;> exact absurd h (by decide)

/-- `int` reads a nonempty run of digits as its value. -/
theorem pyInt_digits {ds : Bytes} (hne : ds ≠ []) (hd : ∀ b ∈ ds, isDigit b = true) :
    pyInt ds = some (digitsVal 0 ds) := by
  obtain ⟨b, bs, rfl⟩ := List.exists_cons_of_ne_nil hne
  have hb := hd b (List.mem_cons_self b bs)
  have hsign := ne_sign_of_isDigit hb
  have hsp : ¬ isSpace b = true := by simp [not_isSpace_of_isDigit hb]
  simp [pyInt, List.dropWhile_cons_of_neg hsp, pySign, hsign,
    List.takeWhile_eq_self_iff.2 hd, List.dropWhile_eq_nil_iff.2 hd]

/-- `int` reads `-` and a nonempty run of digits as the negated value. -/
theorem pyInt_minus_digits {ds : Bytes} (hne : ds ≠ []) (hd : ∀ b ∈ ds, isDigit b = true) :
    pyInt (bMinus :: ds) = some (-(digitsVal 0 ds : Int)) := by
  have hsp : ¬ isSpace bMinus = true := by decide
  simp [pyInt, List.dropWhile_cons_of_neg hsp, pySign, List.takeWhile_eq_self_iff.2 hd,
    List.dropWhile_eq_nil_iff.2 hd, hne]

/-- `int("%d" % i) == i`. -/
theorem pyInt_fmtInt (i : Int) : pyInt (fmtInt i) = some i := by
  unfold fmtInt
  split
  · rw [pyInt_digits (decimal_ne_nil _) (decimal_digits _), digitsVal_decimal]
    exact congrArg some (by omega)
  · rw [pyInt_minus_digits (decimal_ne_nil _) (decimal_digits _), digitsVal_decimal]
    exact congrArg some (by omega)

end Lonet
