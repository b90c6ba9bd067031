import Lonet.Regex

/-!
# The handshake lines

`dialLine` is what `__loconnect` writes (`xnet/lonet/__init__.py:879`), `replyLine` what
`__loaccept`'s `reply` writes (`:806-808`). Both regexes anchor on the quotes around the
fields. In a `qq` text every `"` follows a `\`, so the only quotes a match can anchor on are
the ones the line builder put there; `cuts` makes this precise by cutting a text at every
`"` that does not follow a `\`. Counting the cuts gives the main results:

* `lodialRe_dialLine`: if `_lodial_re` matches a dial line at all, its groups are exactly the
  quoted fields, each nonempty and not ending in `\`;
* `loreplyRe_replyLine`: the same for reply lines and `_loreply_re`.

A field that is empty or ends in `\` therefore makes the whole line unmatchable.
-/

namespace Lonet

/-- The dial line: `"> lonet %s dial %s %s\n" % (qq(network), qq(src), qq(dst))`. -/
def dialLine (network src dst : Bytes) : Bytes :=
  ascii "> lonet " ++ qq network ++ ascii " dial " ++ qq src ++ ascii " " ++ qq dst ++ ascii "\n"

/-- A reply line: `"< lonet %s %s\n" % (qq(network), verb + " " + qq(arg))`. -/
def replyLine (network verb arg : Bytes) : Bytes :=
  ascii "< lonet " ++ qq network ++ ascii " " ++ verb ++ ascii " " ++ qq arg ++ ascii "\n"

/-! ## Cutting at the anchoring quotes -/

/-- The last byte of `p :: xs`. -/
def lastOf : UInt8 → Bytes → UInt8
  | p, [] => p
  | _, c :: cs => lastOf c cs

/-- `xs` cut at each `"` that does not follow a `\` (`p` is the byte before `xs`). -/
def cuts (p : UInt8) : Bytes → List Bytes
  | [] => [[]]
  | c :: cs => match cuts c cs with
    | [] => [[c]]
    | s :: ss => if c = bQuote ∧ p ≠ bBackslash then [] :: s :: ss else (c :: s) :: ss

/-- Every `"` in `xs` follows a `\` (`p` is the byte before `xs`). -/
def QuoteSafe : UInt8 → Bytes → Prop
  | _, [] => True
  | p, c :: cs => (c = bQuote → p = bBackslash) ∧ QuoteSafe c cs

theorem cuts_ne_nil (p : UInt8) (xs : Bytes) : cuts p xs ≠ [] := by
  cases xs with
  | nil => simp [cuts]
  | cons c cs =>
    simp only [cuts]
    split
    · simp
    · split <;> simp

theorem length_cuts_cons (p c : UInt8) (cs : Bytes) :
    (cuts p (c :: cs)).length =
      (cuts c cs).length + if c = bQuote ∧ p ≠ bBackslash then 1 else 0 := by
  obtain ⟨s, ss, e⟩ := List.exists_cons_of_ne_nil (cuts_ne_nil c cs)
  simp only [cuts, e]
  split <;> simp

theorem length_cuts_append (p : UInt8) (xs ys : Bytes) :
    (cuts p (xs ++ ys)).length + 1 = (cuts p xs).length + (cuts (lastOf p xs) ys).length := by
  induction xs generalizing p with
  | nil => simp [cuts, lastOf]; omega
  | cons c cs ih =>
    rw [List.cons_append, length_cuts_cons, length_cuts_cons, lastOf]
    have := ih c
    split <;> omega

/-- How many pieces a text has around a quote: one fewer when the quote follows a `\`. -/
theorem length_cuts_quote (p : UInt8) (xs ys : Bytes) :
    (cuts p (xs ++ bQuote :: ys)).length + (if lastOf p xs = bBackslash then 1 else 0) =
      (cuts p xs).length + (cuts bQuote ys).length := by
  have h := length_cuts_append p xs (bQuote :: ys)
  rw [length_cuts_cons] at h
  split <;> simp_all
  omega

/-- A quote that does not follow a `\` separates pieces. -/
theorem cuts_append_quote {p : UInt8} {xs : Bytes} (h : lastOf p xs ≠ bBackslash) (ys : Bytes) :
    cuts p (xs ++ bQuote :: ys) = cuts p xs ++ cuts bQuote ys := by
  induction xs generalizing p with
  | nil =>
    obtain ⟨s, ss, e⟩ := List.exists_cons_of_ne_nil (cuts_ne_nil bQuote ys)
    simp [cuts, e, lastOf] at h ⊢
    exact h
  | cons c cs ih =>
    rw [List.cons_append]
    obtain ⟨s, ss, e⟩ := List.exists_cons_of_ne_nil (cuts_ne_nil c cs)
    have e' := ih (p := c) h
    rw [e] at e'
    simp only [cuts, e, e', List.cons_append]
    split <;> rfl

theorem cuts_of_quoteSafe {p : UInt8} {xs : Bytes} (h : QuoteSafe p xs) : cuts p xs = [xs] := by
  induction xs generalizing p with
  | nil => rfl
  | cons c cs ih =>
    obtain ⟨hq, hs⟩ := h
    have hc : ¬(c = bQuote ∧ p ≠ bBackslash) := fun ⟨e, hp⟩ => hp (hq e)
    simp [cuts, ih hs, hc]

theorem eq_of_cuts_eq_singleton {p : UInt8} {xs s : Bytes} (h : cuts p xs = [s]) : s = xs := by
  induction xs generalizing p s with
  | nil => simpa [cuts] using h.symm
  | cons c cs ih =>
    obtain ⟨t, ts, e⟩ := List.exists_cons_of_ne_nil (cuts_ne_nil c cs)
    simp only [cuts, e] at h
    split at h
    · simp at h
    · simp only [List.cons.injEq] at h
      obtain ⟨rfl, rfl⟩ := h
      rw [ih e]

theorem quoteSafe_append {p : UInt8} {xs ys : Bytes} (hx : QuoteSafe p xs)
    (hy : QuoteSafe (lastOf p xs) ys) : QuoteSafe p (xs ++ ys) := by
  induction xs generalizing p with
  | nil => exact hy
  | cons c cs ih => exact ⟨hx.1, ih hx.2 hy⟩

theorem quoteSafe_of_not_mem {p : UInt8} {xs : Bytes} (h : bQuote ∉ xs) : QuoteSafe p xs := by
  induction xs generalizing p with
  | nil => trivial
  | cons c cs ih =>
    simp only [List.mem_cons, not_or] at h
    exact ⟨fun e => absurd e.symm h.1, ih h.2⟩

theorem hexDigit_ne_quote : ∀ d < 16, hexDigit d ≠ bQuote := by decide

theorem quoteSafe_escapeByte (p c : UInt8) : QuoteSafe p (escapeByte bQuote c) := by
  unfold escapeByte
  split
  · exact ⟨fun e => absurd e (by decide), fun _ => rfl, trivial⟩
  · refine quoteSafe_of_not_mem ?_
    split
    · decide
    split
    · decide
    split
    · decide
    split
    · have hi : c.toNat / 16 < 16 := by have := c.toNat_lt_size; simp [UInt8.size] at this; omega
      have h1 := hexDigit_ne_quote _ hi
      have h2 := hexDigit_ne_quote _ (Nat.mod_lt c.toNat (show 16 > 0 by omega))
      simp only [hex2, List.mem_append, List.mem_cons, List.not_mem_nil, or_false, not_or]
      exact ⟨by decide, Ne.symm h1, Ne.symm h2⟩
    · simpa [bQuote] using fun e => ‹¬(c = bQuote ∨ c = bBackslash)› (Or.inl e.symm)

/-- The inside of `qq s` never has a quote that does not follow a `\`. -/
theorem quoteSafe_qqInner (p : UInt8) (s : Bytes) : QuoteSafe p (qqInner s) := by
  induction s generalizing p with
  | nil => trivial
  | cons c s ih =>
    simpa [qqInner] using quoteSafe_append (quoteSafe_escapeByte p c) (ih _)

theorem lastOf_snoc (p : UInt8) (a : Bytes) (c : UInt8) : lastOf p (a ++ [c]) = c := by
  induction a generalizing p with
  | nil => rfl
  | cons x a ih => exact ih x

theorem length_cuts_pos (p : UInt8) (xs : Bytes) : 1 ≤ (cuts p xs).length :=
  List.length_pos.2 (cuts_ne_nil p xs)

/-- The pieces of a text with quote-safe stretches between quotes: one per stretch, less one
for every quote that follows a `\`. -/
theorem length_cuts_quote_safe {p : UInt8} {xs : Bytes} (hx : QuoteSafe p xs) (ys : Bytes) :
    (cuts p (xs ++ bQuote :: ys)).length + (if lastOf p xs = bBackslash then 1 else 0) =
      1 + (cuts bQuote ys).length := by
  rw [length_cuts_quote, cuts_of_quoteSafe hx, List.length_singleton]

/-! ## Dial lines -/

/-- The literals of `_lodial_re` around its quotes. -/
theorem lodialRe_literals :
    ascii "> lonet \"" = ascii "> lonet " ++ [bQuote] ∧
    ascii "\" dial \"" = bQuote :: (ascii " dial " ++ [bQuote]) ∧
    ascii "\" \"" = bQuote :: (ascii " " ++ [bQuote]) ∧ ascii "\"\n" = bQuote :: ascii "\n" := by
  decide

theorem dialLine_eq (n s d : Bytes) :
    dialLine n s d = ascii "> lonet " ++ bQuote :: (qqInner n ++ bQuote :: (ascii " dial " ++
      bQuote :: (qqInner s ++ bQuote :: (ascii " " ++ bQuote :: (qqInner d ++ bQuote ::
        ascii "\n"))))) := by
  simp [dialLine, qq]

/-- `1` when the quote closing `qq x` follows a `\`, i.e. `x` ends in `\`. -/
def closesOnBackslash (x : Bytes) : Nat :=
  if lastOf bQuote (qqInner x) = bBackslash then 1 else 0

theorem length_cuts_dialLine (n s d : Bytes) :
    (cuts bNewline (dialLine n s d)).length + closesOnBackslash n + closesOnBackslash s +
      closesOnBackslash d = 7 := by
  have l0 := length_cuts_quote_safe (quoteSafe_of_not_mem (by decide) :
    QuoteSafe bNewline (ascii "> lonet ")) (qqInner n ++ bQuote :: (ascii " dial " ++
      bQuote :: (qqInner s ++ bQuote :: (ascii " " ++ bQuote :: (qqInner d ++ bQuote ::
        ascii "\n")))))
  have l1 := length_cuts_quote_safe (quoteSafe_qqInner bQuote n) (ascii " dial " ++
      bQuote :: (qqInner s ++ bQuote :: (ascii " " ++ bQuote :: (qqInner d ++ bQuote ::
        ascii "\n"))))
  have l2 := length_cuts_quote_safe (quoteSafe_of_not_mem (by decide) :
    QuoteSafe bQuote (ascii " dial ")) (qqInner s ++ bQuote :: (ascii " " ++ bQuote ::
      (qqInner d ++ bQuote :: ascii "\n")))
  have l3 := length_cuts_quote_safe (quoteSafe_qqInner bQuote s) (ascii " " ++ bQuote ::
      (qqInner d ++ bQuote :: ascii "\n"))
  have l4 := length_cuts_quote_safe (quoteSafe_of_not_mem (by decide) :
    QuoteSafe bQuote (ascii " ")) (qqInner d ++ bQuote :: ascii "\n")
  have l5 := length_cuts_quote_safe (quoteSafe_qqInner bQuote d) (ascii "\n")
  rw [cuts_of_quoteSafe (quoteSafe_of_not_mem (by decide) : QuoteSafe bQuote (ascii "\n"))] at l5
  have sp : lastOf bNewline (ascii "> lonet ") ≠ bBackslash ∧
      lastOf bQuote (ascii " dial ") ≠ bBackslash ∧ lastOf bQuote (ascii " ") ≠ bBackslash := by
    decide
  simp only [sp.1, sp.2.1, sp.2.2, if_false, Nat.add_zero] at l0 l2 l4
  rw [dialLine_eq]
  simp only [closesOnBackslash, List.length_singleton] at *
  omega

theorem cuts_dialLine {n s d : Bytes} (hn : closesOnBackslash n = 0)
    (hs : closesOnBackslash s = 0) (hd : closesOnBackslash d = 0) :
    cuts bNewline (dialLine n s d) = [ascii "> lonet ", qqInner n, ascii " dial ", qqInner s,
      ascii " ", qqInner d, ascii "\n"] := by
  simp only [closesOnBackslash, ite_eq_right_iff, Nat.one_ne_zero, imp_false] at hn hs hd
  rw [dialLine_eq, cuts_append_quote (by decide), cuts_append_quote hn,
    cuts_append_quote (by decide), cuts_append_quote hs, cuts_append_quote (by decide),
    cuts_append_quote hd,
    cuts_of_quoteSafe (quoteSafe_of_not_mem (by decide) : QuoteSafe bNewline (ascii "> lonet ")),
    cuts_of_quoteSafe (quoteSafe_qqInner _ n), cuts_of_quoteSafe (quoteSafe_qqInner _ s),
    cuts_of_quoteSafe (quoteSafe_qqInner _ d),
    cuts_of_quoteSafe (quoteSafe_of_not_mem (by decide) : QuoteSafe bQuote (ascii " dial ")),
    cuts_of_quoteSafe (quoteSafe_of_not_mem (by decide) : QuoteSafe bQuote (ascii " ")),
    cuts_of_quoteSafe (quoteSafe_of_not_mem (by decide) : QuoteSafe bQuote (ascii "\n"))]
  rfl

theorem LazyText.lastOf_ne {g : Bytes} (h : LazyText g) (p : UInt8) : lastOf p g ≠ bBackslash := by
  obtain ⟨a, c, rfl, hc⟩ := h
  rwa [lastOf_snoc]

/-- **A matched dial line gives back its fields.** Whatever `network`, `src` and `dst` are, if
`_lodial_re` matches the line `__loconnect` builds from them, its three groups are exactly
the quoted fields, and each is nonempty and does not end in `\`. -/
theorem lodialRe_dialLine {n s d : Bytes} {gs : List Bytes}
    (h : matchPieces lodialRe (dialLine n s d) = some gs) :
    gs = [qqInner n, qqInner s, qqInner d] ∧ LazyText (qqInner n) ∧ LazyText (qqInner s) ∧
      LazyText (qqInner d) := by
  obtain ⟨g1, g2, g3, rest, rfl, l1, l2, l3, e⟩ := lodialRe_sound h
  obtain ⟨L1, L2, L3, L4⟩ := lodialRe_literals
  have split : dialLine n s d = ascii "> lonet " ++ bQuote :: (g1 ++ bQuote :: (ascii " dial " ++
      bQuote :: (g2 ++ bQuote :: (ascii " " ++ bQuote :: (g3 ++ bQuote ::
        (ascii "\n" ++ rest)))))) := by
    rw [e, L1, L2, L3, L4]
    simp
  have hc := congrArg (cuts bNewline) split
  rw [cuts_append_quote (by decide), cuts_append_quote (l1.lastOf_ne _),
    cuts_append_quote (by decide), cuts_append_quote (l2.lastOf_ne _),
    cuts_append_quote (by decide), cuts_append_quote (l3.lastOf_ne _),
    cuts_of_quoteSafe (quoteSafe_of_not_mem (by decide) : QuoteSafe bNewline (ascii "> lonet ")),
    cuts_of_quoteSafe (quoteSafe_of_not_mem (by decide) : QuoteSafe bQuote (ascii " dial ")),
    cuts_of_quoteSafe (quoteSafe_of_not_mem (by decide) : QuoteSafe bQuote (ascii " "))] at hc
  have hl := congrArg List.length hc
  have hlen := length_cuts_dialLine n s d
  have k1 := length_cuts_pos bQuote g1
  have k2 := length_cuts_pos bQuote g2
  have k3 := length_cuts_pos bQuote g3
  have k4 := length_cuts_pos bQuote (ascii "\n" ++ rest)
  simp only [List.length_append, List.length_singleton] at hl
  rw [cuts_dialLine (by omega) (by omega) (by omega)] at hc
  obtain ⟨x1, hx1⟩ := List.length_eq_one.1 (show (cuts bQuote g1).length = 1 by omega)
  obtain ⟨x2, hx2⟩ := List.length_eq_one.1 (show (cuts bQuote g2).length = 1 by omega)
  obtain ⟨x3, hx3⟩ := List.length_eq_one.1 (show (cuts bQuote g3).length = 1 by omega)
  rw [hx1, hx2, hx3] at hc
  simp only [List.cons_append, List.singleton_append, List.nil_append, List.cons.injEq,
    true_and] at hc
  obtain ⟨e1, e2, e3, _⟩ := hc
  rw [eq_of_cuts_eq_singleton hx1] at e1
  rw [eq_of_cuts_eq_singleton hx2] at e2
  rw [eq_of_cuts_eq_singleton hx3] at e3
  subst e1 e2 e3
  exact ⟨rfl, l1, l2, l3⟩

/-- A dial line whose network, source or destination is empty or ends in `\` is never
matched. -/
theorem dialLine_unmatched {n s d : Bytes}
    (h : ¬(LazyText (qqInner n) ∧ LazyText (qqInner s) ∧ LazyText (qqInner d))) :
    matchPieces lodialRe (dialLine n s d) = none := by
  cases hm : matchPieces lodialRe (dialLine n s d) with
  | none => rfl
  | some gs => exact absurd (lodialRe_dialLine hm).2 h

/-- On the network `lonet\` (what `join("\\")` names its subnetworks) the dial line of every
dial is rejected by `_lodial_re`, although `qq` wrote it. -/
theorem dialLine_backslash_network_unmatched :
    matchPieces lodialRe (dialLine (ascii "lonet\\") (ascii "a:1") (ascii "b:1")) = none :=
  dialLine_unmatched fun ⟨h, _⟩ => h.lastOf_ne bQuote (by decide)

/-! ## Reply lines -/

/-- The literals of `_loreply_re` around its quotes. -/
theorem loreplyRe_literals :
    ascii "< lonet \"" = ascii "< lonet " ++ [bQuote] ∧ ascii "\" " = bQuote :: ascii " " ∧
    ascii " \"" = ascii " " ++ [bQuote] ∧ ascii "\"\n" = bQuote :: ascii "\n" := by
  decide

theorem replyLine_eq (n v a : Bytes) :
    replyLine n v a = ascii "< lonet " ++ bQuote :: (qqInner n ++ bQuote ::
      ((ascii " " ++ v ++ ascii " ") ++ bQuote :: (qqInner a ++ bQuote :: ascii "\n"))) := by
  simp [replyLine, qq]

theorem quoteSafe_verb {v : Bytes} (hv : bQuote ∉ v) :
    QuoteSafe bQuote (ascii " " ++ v ++ ascii " ") :=
  quoteSafe_of_not_mem (by simp [hv]; decide)

theorem lastOf_verb (v : Bytes) : lastOf bQuote (ascii " " ++ v ++ ascii " ") = 32 := by
  rw [show ascii " " = [32] from rfl, lastOf_snoc]

theorem length_cuts_replyLine (n : Bytes) {v : Bytes} (hv : bQuote ∉ v) (a : Bytes) :
    (cuts bNewline (replyLine n v a)).length + closesOnBackslash n + closesOnBackslash a = 5 := by
  have l0 := length_cuts_quote_safe (quoteSafe_of_not_mem (by decide) :
    QuoteSafe bNewline (ascii "< lonet ")) (qqInner n ++ bQuote ::
      ((ascii " " ++ v ++ ascii " ") ++ bQuote :: (qqInner a ++ bQuote :: ascii "\n")))
  have l1 := length_cuts_quote_safe (quoteSafe_qqInner bQuote n)
    ((ascii " " ++ v ++ ascii " ") ++ bQuote :: (qqInner a ++ bQuote :: ascii "\n"))
  have l2 := length_cuts_quote_safe (quoteSafe_verb hv) (qqInner a ++ bQuote :: ascii "\n")
  have l3 := length_cuts_quote_safe (quoteSafe_qqInner bQuote a) (ascii "\n")
  rw [cuts_of_quoteSafe (quoteSafe_of_not_mem (by decide) : QuoteSafe bQuote (ascii "\n"))] at l3
  have sp : lastOf bNewline (ascii "< lonet ") ≠ bBackslash := by decide
  simp only [sp, lastOf_verb, show (32 : UInt8) ≠ bBackslash by decide, if_false,
    Nat.add_zero] at l0 l2
  rw [replyLine_eq]
  simp only [closesOnBackslash, List.length_singleton] at *
  omega

theorem cuts_replyLine {n v a : Bytes} (hv : bQuote ∉ v) (hn : closesOnBackslash n = 0)
    (ha : closesOnBackslash a = 0) :
    cuts bNewline (replyLine n v a) =
      [ascii "< lonet ", qqInner n, ascii " " ++ v ++ ascii " ", qqInner a, ascii "\n"] := by
  simp only [closesOnBackslash, ite_eq_right_iff, Nat.one_ne_zero, imp_false] at hn ha
  rw [replyLine_eq, cuts_append_quote (by decide), cuts_append_quote hn,
    cuts_append_quote (by rw [lastOf_verb]; decide), cuts_append_quote ha,
    cuts_of_quoteSafe (quoteSafe_of_not_mem (by decide) : QuoteSafe bNewline (ascii "< lonet ")),
    cuts_of_quoteSafe (quoteSafe_qqInner _ n), cuts_of_quoteSafe (quoteSafe_verb hv),
    cuts_of_quoteSafe (quoteSafe_qqInner _ a),
    cuts_of_quoteSafe (quoteSafe_of_not_mem (by decide) : QuoteSafe bQuote (ascii "\n"))]
  rfl

/-- **A matched reply line gives back its fields.** For a verb without `"` (such as `E` and
`connected`) and any network and argument, if `_loreply_re` matches the reply line its groups
are exactly the quoted network, the verb and the quoted argument, the two quoted ones
nonempty and not ending in `\`. -/
theorem loreplyRe_replyLine {n v a : Bytes} (hv : bQuote ∉ v) {gs : List Bytes}
    (h : matchPieces loreplyRe (replyLine n v a) = some gs) :
    gs = [qqInner n, v, qqInner a] ∧ LazyText (qqInner n) ∧ LazyText (qqInner a) := by
  obtain ⟨g1, w, g3, rest, rfl, l1, -, -, l3, e⟩ := loreplyRe_sound h
  obtain ⟨L1, L2, L3, L4⟩ := loreplyRe_literals
  have split : replyLine n v a = ascii "< lonet " ++ bQuote :: (g1 ++ bQuote ::
      ((ascii " " ++ w ++ ascii " ") ++ bQuote :: (g3 ++ bQuote :: (ascii "\n" ++ rest)))) := by
    rw [e, L1, L2, L3, L4]
    simp
  have hc := congrArg (cuts bNewline) split
  rw [cuts_append_quote (by decide), cuts_append_quote (l1.lastOf_ne _),
    cuts_append_quote (by rw [lastOf_verb]; decide), cuts_append_quote (l3.lastOf_ne _),
    cuts_of_quoteSafe (quoteSafe_of_not_mem (by decide) :
      QuoteSafe bNewline (ascii "< lonet "))] at hc
  have hl := congrArg List.length hc
  have hlen := length_cuts_replyLine n hv a
  have k1 := length_cuts_pos bQuote g1
  have k2 := length_cuts_pos bQuote (ascii " " ++ w ++ ascii " ")
  have k3 := length_cuts_pos bQuote g3
  have k4 := length_cuts_pos bQuote (ascii "\n" ++ rest)
  simp only [List.length_append, List.length_singleton] at hl
  rw [cuts_replyLine hv (by omega) (by omega)] at hc
  obtain ⟨x1, hx1⟩ := List.length_eq_one.1 (show (cuts bQuote g1).length = 1 by omega)
  obtain ⟨x2, hx2⟩ := List.length_eq_one.1
    (show (cuts bQuote (ascii " " ++ w ++ ascii " ")).length = 1 by omega)
  obtain ⟨x3, hx3⟩ := List.length_eq_one.1 (show (cuts bQuote g3).length = 1 by omega)
  rw [hx1, hx2, hx3] at hc
  simp only [List.cons_append, List.singleton_append, List.nil_append, List.cons.injEq,
    true_and] at hc
  obtain ⟨e1, ev, e3, _⟩ := hc
  rw [eq_of_cuts_eq_singleton hx1] at e1
  rw [eq_of_cuts_eq_singleton hx2] at ev
  rw [eq_of_cuts_eq_singleton hx3] at e3
  simp only [List.append_cancel_left_eq, List.append_cancel_right_eq] at ev
  subst e1 ev e3
  exact ⟨rfl, l1, l3⟩

end Lonet
