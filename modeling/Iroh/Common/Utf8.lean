import Iroh.Common.Bytes

/-!
# UTF-8

`toValid` is what Go's text encoders do to a string that is not UTF-8: every byte that does not start a
well-formed sequence becomes U+FFFD.
-/

namespace Iroh.Utf8

/-! ## Sequences of one code point -/

/-- For the first byte of a longer sequence, the number of bytes that follow it and the range of the
second byte (`first` and `acceptRanges` of `unicode/utf8`). -/
def lead (a : UInt8) : Option (ℕ × UInt8 × UInt8) :=
  if 0xC2 ≤ a ∧ a ≤ 0xDF then some (1, 0x80, 0xBF)
  else if a = 0xE0 then some (2, 0xA0, 0xBF)
  else if a = 0xED then some (2, 0x80, 0x9F)
  else if 0xE1 ≤ a ∧ a ≤ 0xEF then some (2, 0x80, 0xBF)
  else if a = 0xF0 then some (3, 0x90, 0xBF)
  else if 0xF1 ≤ a ∧ a ≤ 0xF3 then some (3, 0x80, 0xBF)
  else if a = 0xF4 then some (3, 0x80, 0x8F)
  else none

def runeLength (a : UInt8) : Option ℕ :=
  if a < 0x80 then some 1 else (lead a).map fun l => l.1 + 1

def tailOk (a : UInt8) (rest : Bytes) : Bool :=
  match lead a, rest with
  | some (_, lo, hi), b :: rest => lo ≤ b && b ≤ hi && rest.all fun c => 0x80 ≤ c && c ≤ 0xBF
  | _, _ => a < 0x80

/-- The bytes are the sequence of one code point. -/
def isRune : Bytes → Bool
  | [] => false
  | a :: rest => runeLength a = some (rest.length + 1) && tailOk a rest

def runeError : Bytes := [0xEF, 0xBF, 0xBD]

lemma isRune_runeError : isRune runeError := by decide

def runeSize (b : Bytes) : Option ℕ := (b.head?.bind runeLength).filter fun n => isRune (b.take n)

/-- A sequence at the front is found, whatever follows it: its first byte says how long it is. -/
lemma runeSize_append {r : Bytes} (h : isRune r) (b : Bytes) : runeSize (r ++ b) = some r.length := by
  cases r with
  | nil => cases h
  | cons a rest =>
    have hlength : runeLength a = some (rest.length + 1) := by
      simp only [isRune, Bool.and_eq_true, decide_eq_true_eq] at h
      exact h.1
    simp [runeSize, hlength, h]

lemma isRune_take {b : Bytes} {n : ℕ} (h : runeSize b = some n) : isRune (b.take n) := by
  rw [runeSize, Option.filter_eq_some_iff] at h
  exact h.2

/-! ## Strings -/

/-- Replaces what is not UTF-8, copying the first `n` bytes as they are. -/
def replaceFrom : ℕ → Bytes → Bytes
  | _, [] => []
  | n + 1, b :: rest => b :: replaceFrom n rest
  | 0, b :: rest =>
    match runeSize (b :: rest) with
    | some n => b :: replaceFrom (n - 1) rest
    | none => runeError ++ replaceFrom 0 rest

/-- `strings.ToValidUTF8` byte by byte, as the encoders of the standard library do it. -/
def toValid (b : Bytes) : Bytes := replaceFrom 0 b

/-- A string of well-formed sequences. -/
inductive Valid : Bytes → Prop where
  | nil : Valid []
  | cons {r b : Bytes} : isRune r → Valid b → Valid (r ++ b)

lemma replaceFrom_eq (n : ℕ) (b : Bytes) : replaceFrom n b = b.take n ++ toValid (b.drop n) := by
  induction n generalizing b with
  | zero => rfl
  | succ n ih =>
    cases b with
    | nil => rfl
    | cons a rest => exact congrArg (a :: ·) (ih rest)

lemma toValid_of_runeSize {b : Bytes} {n : ℕ} (h : runeSize b = some n) :
    toValid b = b.take n ++ toValid (b.drop n) := by
  have hrune := isRune_take h
  cases b with
  | nil => cases h
  | cons a rest =>
    cases n with
    | zero => cases hrune
    | succ n =>
      rw [toValid, replaceFrom, h]
      exact congrArg (a :: ·) (replaceFrom_eq n rest)

lemma toValid_append {r : Bytes} (h : isRune r) (b : Bytes) : toValid (r ++ b) = r ++ toValid b := by
  rw [toValid_of_runeSize (runeSize_append h b), List.take_left' rfl, List.drop_left' rfl]

lemma valid_toValid (b : Bytes) : Valid (toValid b) := by
  -- each step takes at least one byte off the front
  induction hlen : b.length using Nat.strong_induction_on generalizing b with
  | _ len ih =>
    subst hlen
    cases b with
    | nil => exact .nil
    | cons a rest =>
      cases hsize : runeSize (a :: rest) with
      | some n =>
        have hrune := isRune_take hsize
        have hpos : 0 < n := by
          rcases Nat.eq_zero_or_pos n with rfl | hpos
          · cases hrune
          · exact hpos
        rw [toValid_of_runeSize hsize]
        refine .cons hrune (ih _ ?_ _ rfl)
        simp only [List.length_drop, List.length_cons]
        omega
      | none =>
        rw [toValid, replaceFrom, hsize]
        exact .cons isRune_runeError (ih _ (Nat.lt_succ_self _) _ rfl)

lemma toValid_of_valid {b : Bytes} (h : Valid b) : toValid b = b := by
  induction h with
  | nil => rfl
  | cons hrune _ ih => rw [toValid_append hrune, ih]

end Iroh.Utf8
