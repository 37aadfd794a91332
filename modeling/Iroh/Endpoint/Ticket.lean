import Iroh.Postcard.Decoder
import Mathlib.Data.Nat.Bitwise

/-!
# Numbers in endpoint tickets

Reference: `endpointticket/ticket.go` (`parser`).

The parser takes seven bits of a number from each byte and gives up after ten bytes.  Of the tenth byte
only the lowest bit has room in 64 bits.  The parsers of `docs` and `blobs` refuse a tenth byte with other
bits; this one shifts them out.
-/

namespace Iroh.EndpointTicket

open List
open Postcard (toNat_accumulate accumulate_lt accumulate_assoc)

inductive TicketError where
  | truncated
  | varintOverflow
deriving DecidableEq

def varintLoop (shift : ℕ) (n : UInt64) : Bytes → Except TicketError (UInt64 × Bytes)
  | [] => .error (if shift < 64 then .truncated else .varintOverflow)
  | b :: rest =>
    if shift < 64 then
      let n := n ||| (b &&& 0x7f).toUInt64 <<< UInt64.ofNat shift
      if b &&& 0x80 = 0 then .ok (n, rest) else varintLoop (shift + 7) n rest
    else .error .varintOverflow

/-- `parser.varint`: the number at the front, and what is left. -/
def varint (b : Bytes) : Except TicketError (UInt64 × Bytes) := varintLoop 0 0 b

def value : Bytes → ℕ
  | [] => 0
  | b :: e => b.toNat % 128 + 128 * value e

def IsEncoding (more : Bytes) (last : UInt8) : Prop := (∀ b ∈ more, 128 ≤ b.toNat) ∧ last.toNat < 128

/-- What is read is the value of the bytes consumed, and a value that does not fit is refused. -/
structure NeverWraps (b : Bytes) : Prop where
  read : ∀ n rest, varint b = .ok (n, rest) → ∃ e, b = e ++ rest ∧ n.toNat = value e
  refused : ∀ more last rest, IsEncoding more last → b = more ++ last :: rest →
    2 ^ 64 ≤ value (more ++ [last]) → varint b = .error .varintOverflow

def TenthByteFits (b : Bytes) : Prop :=
  ∀ more last rest, IsEncoding more last → b = more ++ last :: rest → more.length = 9 → last.toNat ≤ 1

variable {i : ℕ} {n w : UInt64} {b last : UInt8} {more rest : Bytes}

lemma and_high_eq_zero_iff (b : UInt8) : b &&& 0x80 = 0 ↔ b.toNat < 128 := by
  have hlt := b.toNat_lt
  rw [← UInt8.toNat_inj, UInt8.toNat_and]
  show b.toNat &&& 2 ^ 7 = 0 ↔ _
  rw [Nat.and_two_pow, Nat.testBit_eq_decide_div_mod_eq]
  simp only [Nat.mul_eq_zero, Bool.toNat_eq_zero, decide_eq_false_iff_not]
  omega

lemma varintLoop_more (hi : i ≤ 9) (hb : 128 ≤ b.toNat) (n : UInt64) (rest : Bytes) :
    varintLoop (7 * i) n (b :: rest) =
      varintLoop (7 * (i + 1)) (n ||| (b &&& 0x7f).toUInt64 <<< UInt64.ofNat (7 * i)) rest := by
  rw [varintLoop, if_pos (by omega)]
  exact if_neg fun h => Nat.not_lt.mpr hb ((and_high_eq_zero_iff b).mp h)

lemma varintLoop_last (hi : i ≤ 9) (hb : b.toNat < 128) (n : UInt64) (rest : Bytes) :
    varintLoop (7 * i) n (b :: rest) =
      .ok (n ||| (b &&& 0x7f).toUInt64 <<< UInt64.ofNat (7 * i), rest) := by
  rw [varintLoop, if_pos (by omega)]
  exact if_pos ((and_high_eq_zero_iff b).mpr hb)

/-! ## Whole numbers -/

lemma varintLoop_encoding (he : IsEncoding more last) (hlen : i + more.length ≤ 9)
    (hn : n.toNat < 2 ^ (7 * i)) (rest : Bytes) :
    ∃ w, varintLoop (7 * i) n (more ++ last :: rest) = .ok (w, rest) ∧
      ((i + more.length = 9 → last.toNat ≤ 1) →
        w.toNat = n.toNat + value (more ++ [last]) * 2 ^ (7 * i)) := by
  induction more generalizing i n with
  | nil =>
    rw [length_nil, Nat.add_zero] at *
    refine ⟨_, varintLoop_last hlen he.2 n rest, fun hfits => ?_⟩
    rw [toNat_accumulate hlen hn hfits, nil_append, value, value, Nat.mul_zero, Nat.add_zero]
  | cons b more ih =>
    obtain ⟨hb, hmore⟩ := forall_mem_cons.mp he.1
    rw [length_cons] at hlen
    have hacc := toNat_accumulate (b := b) (show i ≤ 9 by omega) hn (by omega)
    have hlt := accumulate_lt hn (Nat.mod_lt b.toNat (show 0 < 128 by decide))
    obtain ⟨w, hread, hw⟩ := ih (i := i + 1) ⟨hmore, he.2⟩ (by omega) (hacc ▸ hlt)
    refine ⟨w, (varintLoop_more (by omega) hb n _).trans hread, fun hfits => ?_⟩
    rw [hw fun h => hfits (by rw [length_cons]; omega), hacc, accumulate_assoc, cons_append, value]

lemma varintLoop_overflow (hmore : ∀ b ∈ more, 128 ≤ b.toNat) (hi : i ≤ 10)
    (hlen : 10 ≤ i + more.length) (n : UInt64) (rest : Bytes) :
    varintLoop (7 * i) n (more ++ rest) = .error .varintOverflow := by
  induction more generalizing i n with
  | nil =>
    have hi : ¬7 * i < 64 := by
      rw [length_nil] at hlen
      omega
    cases rest with
    | nil => rw [nil_append, varintLoop, if_neg hi]
    | cons b rest => rw [nil_append, varintLoop, if_neg hi]
  | cons b more ih =>
    obtain ⟨hb, hmore⟩ := forall_mem_cons.mp hmore
    rcases Nat.lt_or_eq_of_le hi with hlt | rfl
    · rw [cons_append, varintLoop_more (by omega) hb]
      exact ih hmore hlt (by rw [length_cons] at hlen; omega) _
    · rfl

lemma of_varintLoop_ok {b : Bytes} (hi : i ≤ 10) (h : varintLoop (7 * i) n b = .ok (w, rest)) :
    ∃ more last, b = more ++ last :: rest ∧ IsEncoding more last ∧ i + more.length ≤ 9 := by
  induction b generalizing i n with
  | nil => cases h
  | cons c b ih =>
    rcases Nat.lt_or_eq_of_le hi with hlt | rfl
    · rcases Nat.lt_or_ge c.toNat 128 with hc | hc
      · rw [varintLoop_last (by omega) hc] at h
        cases h
        exact ⟨[], c, rfl, ⟨nofun, hc⟩, Nat.le_of_lt_succ hlt⟩
      · rw [varintLoop_more (by omega) hc] at h
        obtain ⟨more, last, rfl, he, hlen⟩ := ih hlt h
        refine ⟨c :: more, last, rfl, ⟨forall_mem_cons.mpr ⟨hc, he.1⟩, he.2⟩, ?_⟩
        rw [length_cons]
        omega
    · cases h

lemma value_append (more : Bytes) (last : UInt8) :
    value (more ++ [last]) = value more + 128 ^ more.length * (last.toNat % 128) := by
  induction more with
  | nil => simp [value]
  | cons b more ih =>
    rw [cons_append, value, ih, value, length_cons, Nat.pow_succ, Nat.mul_add, Nat.add_assoc,
      Nat.mul_comm (128 ^ more.length) 128, Nat.mul_assoc]

/-- **The parser never wraps a number exactly if a tenth byte has at most one bit.** -/
theorem neverWraps_iff_tenthByteFits (b : Bytes) : NeverWraps b ↔ TenthByteFits b := by
  have hread : ∀ more last rest, IsEncoding more last → more.length ≤ 9 → b = more ++ last :: rest →
      ∃ w, varint b = .ok (w, rest) ∧
        ((more.length = 9 → last.toNat ≤ 1) → w.toNat = value (more ++ [last])) := by
    rintro more last rest he hlen rfl
    obtain ⟨w, hw, hval⟩ := varintLoop_encoding (i := 0) (n := 0) he (by omega) Nat.one_pos rest
    refine ⟨w, hw, fun hfits => (hval fun h => hfits (by omega)).trans ?_⟩
    simp
  constructor
  · intro h more last rest he hb hlen
    by_contra hbits
    -- the parser returns a number, which is to be refused
    have hlarge : 2 ^ 64 ≤ value (more ++ [last]) := by
      rw [value_append, hlen, Nat.mod_eq_of_lt he.2]
      omega
    obtain ⟨w, hw, -⟩ := hread more last rest he hlen.le hb
    cases hw.symm.trans (h.refused more last rest he hb hlarge)
  · intro h
    refine ⟨fun n rest hn => ?_, fun more last rest he hb hlarge => ?_⟩
    · obtain ⟨more, last, hb, he, hlen⟩ := of_varintLoop_ok (i := 0) (Nat.zero_le _) hn
      obtain ⟨w, hw, hval⟩ := hread more last rest he (by omega) hb
      cases hn.symm.trans hw
      exact ⟨more ++ [last], by rw [hb, append_assoc, singleton_append], hval (h more last rest he hb)⟩
    · rcases Nat.lt_or_ge more.length 10 with hlen | hlen
      · obtain ⟨w, -, hval⟩ := hread more last rest he (by omega) hb
        have hlt := w.toNat_lt
        rw [hval (h more last rest he hb)] at hlt
        exact absurd hlarge (Nat.not_le.mpr hlt)
      · rw [hb]
        exact varintLoop_overflow he.1 (Nat.zero_le _) (by omega) 0 (last :: rest)

/-- Nine bytes that continue and a two: the number is `2 ^ 64`, and is read as zero. -/
theorem tenth_byte_lost :
    let b : Bytes := replicate 9 128 ++ [2]
    varint b = .ok (0, []) ∧ value b = 2 ^ 64 ∧ ¬NeverWraps b := by
  have hread : varint (replicate 9 128 ++ [2]) = .ok (0, []) := by decide
  have hvalue : value (replicate 9 128 ++ [2]) = 2 ^ 64 := by decide
  refine ⟨hread, hvalue, fun h => ?_⟩
  have hmore : ∀ b ∈ replicate 9 (128 : UInt8), 128 ≤ b.toNat := fun b hb => by
    rw [eq_of_mem_replicate hb]
    decide
  have hrefused := h.refused (replicate 9 128) 2 [] ⟨hmore, by decide⟩ rfl hvalue.ge
  cases hread.symm.trans hrefused

end Iroh.EndpointTicket
