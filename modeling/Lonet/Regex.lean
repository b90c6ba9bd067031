import Lonet.Quote

/-!
# The handshake regular expressions

`_lodial_re` and `_loreply_re` (`xnet/lonet/__init__.py:721-722`) use three kinds of piece:
literal text, the lazy group `(.*?[^\\])` and the greedy group `([^\s]+)`. `matchPieces`
is `re.match` on such a sequence, with Python's backtracking order: a lazy group tries its
shortest extent first, a greedy one its longest. The soundness lemmas at the end say what a
successful match consumed.
-/

namespace Lonet

/-- A piece of a handshake pattern. -/
inductive Piece where
  /-- Literal text. -/
  | lit (s : Bytes)
  /-- `(.*?[^\\])`: bytes other than `\n`, then one byte other than `\`, as few as possible. -/
  | lazy
  /-- `([^\s]+)`: one or more non-whitespace bytes, as many as possible. -/
  | word

/-- The lazy group followed by the rest of the pattern `k`, the group holding `acc` so far:
end the group at `c` when `c` is not `\` and the rest matches, else let `.` take `c`. -/
def lazyGroup (k : Bytes → Option (List Bytes)) (acc : Bytes) : Bytes → Option (List Bytes)
  | [] => none
  | c :: cs =>
    match (if c = bBackslash then none else k cs) with
    | some gs => some ((acc ++ [c]) :: gs)
    | none => if c = bNewline then none else lazyGroup k (acc ++ [c]) cs

/-- The greedy group over `cs` followed by `k`, trying its first `n`, then fewer, bytes. -/
def wordTry (k : Bytes → Option (List Bytes)) (cs : Bytes) : Nat → Option (List Bytes)
  | 0 => none
  | n + 1 =>
    match k (cs.drop (n + 1)) with
    | some gs => some (cs.take (n + 1) :: gs)
    | none => wordTry k cs n

/-- `re.match` of `ps` at the start of `cs`: the groups' texts in order, or `None`. -/
def matchPieces : List Piece → Bytes → Option (List Bytes)
  | [], _ => some []
  | .lit s :: ps, cs => if s.isPrefixOf cs then matchPieces ps (cs.drop s.length) else none
  | .lazy :: ps, cs => lazyGroup (matchPieces ps) [] cs
  | .word :: ps, cs => wordTry (matchPieces ps) cs (cs.takeWhile (!isSpace ·)).length

/-- `_lodial_re`: `> lonet "(.*?[^\\])" dial "(.*?[^\\])" "(.*?[^\\])"\n`. -/
def lodialRe : List Piece :=
  [.lit (ascii "> lonet \""), .lazy, .lit (ascii "\" dial \""), .lazy, .lit (ascii "\" \""),
    .lazy, .lit (ascii "\"\n")]

/-- `_loreply_re`: `< lonet "(.*?[^\\])" ([^\s]+) "(.*?[^\\])"\n`. -/
def loreplyRe : List Piece :=
  [.lit (ascii "< lonet \""), .lazy, .lit (ascii "\" "), .word, .lit (ascii " \""), .lazy,
    .lit (ascii "\"\n")]

/-! ## What a successful match consumed -/

/-- A lazy group's text: nonempty, ending in a byte other than `\`. -/
def LazyText (g : Bytes) : Prop := ∃ a c, g = a ++ [c] ∧ c ≠ bBackslash

theorem lazyGroup_sound {k : Bytes → Option (List Bytes)} {acc cs : Bytes} {r : List Bytes}
    (h : lazyGroup k acc cs = some r) :
    ∃ a c rest gs, cs = a ++ c :: rest ∧ c ≠ bBackslash ∧ k rest = some gs ∧
      r = (acc ++ a ++ [c]) :: gs := by
  induction cs generalizing acc with
  | nil => cases h
  | cons c cs ih =>
    simp only [lazyGroup] at h
    split at h
    · rename_i gs hk
      split at hk
      · cases hk
      · rename_i hc
        cases h
        exact ⟨[], c, cs, gs, rfl, hc, hk, by simp⟩
    · split at h
      · cases h
      · obtain ⟨a, c', rest, gs, rfl, hc, hk, rfl⟩ := ih h
        exact ⟨c :: a, c', rest, gs, rfl, hc, hk, by simp⟩

theorem wordTry_sound {k : Bytes → Option (List Bytes)} {cs : Bytes} {n : Nat}
    {r : List Bytes} (h : wordTry k cs n = some r) :
    ∃ m gs, 0 < m ∧ m ≤ n ∧ k (cs.drop m) = some gs ∧ r = cs.take m :: gs := by
  induction n with
  | zero => cases h
  | succ n ih =>
    simp only [wordTry] at h
    split at h
    · rename_i gs hk
      cases h
      exact ⟨n + 1, gs, by omega, le_refl _, hk, rfl⟩
    · obtain ⟨m, gs, hm, hmn, hk, rfl⟩ := ih h
      exact ⟨m, gs, hm, by omega, hk, rfl⟩

theorem mem_take_of_le_takeWhile {p : UInt8 → Bool} {l : Bytes} {m : Nat}
    (hm : m ≤ (l.takeWhile p).length) : ∀ b ∈ l.take m, p b = true := by
  intro b hb
  have e : l.take m = (l.takeWhile p).take m := by
    conv_lhs => rw [← List.takeWhile_append_dropWhile p l]
    rw [List.take_append_of_le_length hm]
  rw [e] at hb
  exact List.mem_takeWhile_imp (List.mem_of_mem_take hb)

theorem isPrefixOf_sound {s cs : Bytes} (h : s.isPrefixOf cs = true) :
    cs = s ++ cs.drop s.length := by
  obtain ⟨t, rfl⟩ := List.isPrefixOf_iff_prefix.1 h
  simp

/-- A matched `_lodial_re` line: the three groups are lazy texts between the literals. -/
theorem lodialRe_sound {cs : Bytes} {gs : List Bytes} (h : matchPieces lodialRe cs = some gs) :
    ∃ g1 g2 g3 rest, gs = [g1, g2, g3] ∧ LazyText g1 ∧ LazyText g2 ∧ LazyText g3 ∧
      cs = ascii "> lonet \"" ++ g1 ++ ascii "\" dial \"" ++ g2 ++ ascii "\" \"" ++ g3 ++
        ascii "\"\n" ++ rest := by
  simp only [lodialRe, matchPieces] at h
  split at h
  · rename_i h1
    obtain ⟨a1, c1, r1, gs1, e1, hc1, h2, rfl⟩ := lazyGroup_sound h
    split at h2
    · rename_i h3
      obtain ⟨a2, c2, r2, gs2, e2, hc2, h4, rfl⟩ := lazyGroup_sound h2
      split at h4
      · rename_i h5
        obtain ⟨a3, c3, r3, gs3, e3, hc3, h6, rfl⟩ := lazyGroup_sound h4
        split at h6
        · rename_i h7
          cases h6
          refine ⟨_, _, _, r3.drop (ascii "\"\n").length, rfl, ⟨a1, c1, by simp, hc1⟩, ⟨a2, c2, by simp, hc2⟩,
            ⟨a3, c3, by simp, hc3⟩, ?_⟩
          rw [isPrefixOf_sound h1, e1, isPrefixOf_sound h3, e2, isPrefixOf_sound h5, e3,
            isPrefixOf_sound h7]
          simp
        · cases h6
      · cases h4
    · cases h2
  · cases h

/-- A matched `_loreply_re` line: network and argument are lazy texts, the verb a nonempty
run of non-whitespace bytes. -/
theorem loreplyRe_sound {cs : Bytes} {gs : List Bytes} (h : matchPieces loreplyRe cs = some gs) :
    ∃ g1 v g3 rest, gs = [g1, v, g3] ∧ LazyText g1 ∧ v ≠ [] ∧ (∀ b ∈ v, isSpace b = false) ∧
      LazyText g3 ∧
      cs = ascii "< lonet \"" ++ g1 ++ ascii "\" " ++ v ++ ascii " \"" ++ g3 ++ ascii "\"\n" ++
        rest := by
  simp only [loreplyRe, matchPieces] at h
  split at h
  · rename_i h1
    obtain ⟨a1, c1, r1, gs1, e1, hc1, h2, rfl⟩ := lazyGroup_sound h
    split at h2
    · rename_i h3
      obtain ⟨m, gs2, hm, hmn, h4, rfl⟩ := wordTry_sound h2
      have hv := mem_take_of_le_takeWhile hmn
      have hmL : m ≤ (List.drop (ascii "\" ").length r1).length :=
        hmn.trans (List.takeWhile_sublist _).length_le
      split at h4
      · rename_i h5
        obtain ⟨a3, c3, r3, gs3, e3, hc3, h6, rfl⟩ := lazyGroup_sound h4
        split at h6
        · rename_i h7
          cases h6
          refine ⟨_, _, _, r3.drop (ascii "\"\n").length, rfl, ⟨a1, c1, by simp, hc1⟩, ?_,
            fun b hb => by simpa using hv b hb, ⟨a3, c3, by simp, hc3⟩, ?_⟩
          · intro e
            have := congrArg List.length e
            simp only [List.length_take, List.length_nil] at this
            omega
          · have hlen : (List.take m (List.drop (ascii "\" ").length r1)).length = m := by
              simp only [List.length_take]; omega
            rw [isPrefixOf_sound h1, e1, isPrefixOf_sound h3, ← List.take_append_drop m
              (List.drop _ r1), isPrefixOf_sound h5, e3, isPrefixOf_sound h7]
            simp [List.take_left' hlen]
        · cases h6
      · cases h4
    · cases h2
  · cases h

end Lonet
