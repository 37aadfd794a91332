import Iroh.Postcard.Decoder
import Mathlib.Data.Nat.Log

/-!
# Reading and writing a snapshot's bytes

Reference: `docs/store_persist.go`; `io.ReadFull` and `binary.ReadUvarint` of the standard library.

On the reading side these are scanners.  `binary.ReadUvarint` accepts padded varints, which postcard's
own reader does not, so it reads at least what postcard writes; a number that does not fit 64 bits is an
overflow.

On the writing side an `io.Writer` may take only a part of what it is given.
-/

namespace Iroh.Docs

open List

open Postcard (varint readVarintLoop)

/-! ## Reading -/

/-- The errors of `io.ReadFull` and `binary.ReadUvarint` on a stream of bytes that ends. -/
inductive ReadError where
  | eof
  | unexpectedEOF
  | overflow
deriving DecidableEq

/-- `io.ReadFull` into a buffer of `n` bytes. -/
def readFull (n : ℕ) : Scanner UInt8 ReadError Bytes := fun b =>
  if n ≤ b.length then .ok (b.take n) (b.drop n)
  else .error (if b.isEmpty then .eof else .unexpectedEOF) []

lemma reads_readFull (p : Bytes) : Reads (readFull p.length) p p := by
  intro rest
  rw [readFull, if_pos (by simp), take_left, drop_left]

/-- The loop of `binary.ReadUvarint` at its `i`-th byte, `x` being what the bytes before it gave. -/
def readUvarintLoop (i : ℕ) (x : UInt64) : Bytes → EStateM.Result ReadError Bytes UInt64
  | [] =>
    if i ≥ 10 then .error .overflow []
    else .error (if i = 0 then .eof else .unexpectedEOF) []
  | b :: rest =>
    if i ≥ 10 then .error .overflow (b :: rest)
    else if b < 0x80 then
      if i = 9 ∧ b > 1 then .error .overflow rest
      else .ok (x ||| b.toUInt64 <<< UInt64.ofNat (7 * i)) rest
    else readUvarintLoop (i + 1) (x ||| (b &&& 0x7f).toUInt64 <<< UInt64.ofNat (7 * i)) rest

def readUvarint : Scanner UInt8 ReadError UInt64 := readUvarintLoop 0 0

lemma readUvarintLoop_of_readVarintLoop {b rest : Bytes} {i : ℕ} {v w : UInt64}
    (h : readVarintLoop i v b = .ok (w, rest)) : readUvarintLoop i v b = .ok w rest := by
  induction b generalizing i v with
  | nil => cases h
  | cons c b ih =>
    rw [readVarintLoop] at h
    rw [readUvarintLoop]
    split at h
    · cases h
    next hi =>
      rw [if_neg hi]
      split at h
      · cases h
      next hlast =>
        split at h
        next hend =>
          rw [if_pos hend, if_neg hlast]
          split at h
          · cases h
          · cases h
            -- `binary.ReadUvarint` does not mask the last byte
            rw [Postcard.and_low_of_lt hend]
        next hmore =>
          rw [if_neg hmore]
          exact ih h

lemma reads_readUvarint {x : ℕ} (hx : x < 2 ^ 64) : Reads readUvarint (varint x) (UInt64.ofNat x) := by
  intro rest
  obtain ⟨w, hread, hw⟩ := Postcard.readVarintLoop_varint (v := 0) rest (Nat.zero_le 9) hx (.inl rfl)
    Nat.one_pos
  have hw : w = UInt64.ofNat x := by
    refine UInt64.toNat_inj.mp (hw.trans ?_)
    rw [UInt64.toNat_ofNat', Nat.mod_eq_of_lt hx]
    simp
  exact hw ▸ readUvarintLoop_of_readVarintLoop hread

lemma readUvarintLoop_overflow {x i : ℕ} {v : UInt64} (rest : Bytes) (hi : i ≤ 10)
    (hx : 2 ^ (64 - 7 * i) ≤ x) :
    ∃ left, readUvarintLoop i v (varint x ++ rest) = .error .overflow left := by
  induction x using Nat.strongRecOn generalizing i v with
  | ind x ih =>
    by_cases hi10 : i ≥ 10
    · obtain ⟨c, b, hb⟩ := exists_cons_of_ne_nil (Postcard.varint_ne_nil x)
      rw [hb, cons_append, readUvarintLoop, if_pos hi10]
      exact ⟨_, rfl⟩
    · by_cases hsmall : x < 128
      · -- one byte is too much only in the tenth place, where it may be 0 or 1
        have hi9 : i = 9 := by
          by_contra hne
          have hpow : 2 ^ 8 ≤ 2 ^ (64 - 7 * i) := Nat.pow_le_pow_right (by decide) (by omega)
          omega
        subst hi9
        have hb : (UInt8.ofNat x).toNat = x := UInt8.toNat_ofNat_of_lt' (show _ < 256 by omega)
        have hend : UInt8.ofNat x < 0x80 := UInt8.lt_iff_toNat_lt.mpr (hb.symm ▸ hsmall)
        have hgt : UInt8.ofNat x > 1 := UInt8.lt_iff_toNat_lt.mpr (hb.symm ▸ hx)
        rw [Postcard.varint_small hsmall, singleton_append, readUvarintLoop, if_neg hi10,
          if_pos hend, if_pos ⟨rfl, hgt⟩]
        exact ⟨_, rfl⟩
      · have hb : (UInt8.ofNat (x % 128 + 128)).toNat = x % 128 + 128 :=
          UInt8.toNat_ofNat_of_lt' (show _ < 256 by omega)
        have hmore : ¬UInt8.ofNat (x % 128 + 128) < 0x80 := by
          rw [UInt8.lt_iff_toNat_lt, hb]
          exact Nat.not_lt.mpr (Nat.le_add_left _ _)
        have hx' : 2 ^ (64 - 7 * (i + 1)) ≤ x / 128 := by
          rcases Nat.lt_or_ge i 9 with hlt | hge
          · have hsplit : 64 - 7 * i = 64 - 7 * (i + 1) + 7 := by omega
            rw [hsplit, Nat.pow_add] at hx
            exact (Nat.le_div_iff_mul_le (by decide)).mpr hx
          · have hzero : 64 - 7 * (i + 1) = 0 := by omega
            rw [hzero]
            exact (Nat.le_div_iff_mul_le (by decide)).mpr (Nat.not_lt.mp hsmall)
        rw [Postcard.varint_large hsmall, cons_append, readUvarintLoop, if_neg hi10, if_neg hmore]
        exact ih (x / 128) (by omega) (by omega) hx'

lemma length_varint (x : ℕ) : (varint x).length = Nat.log 128 x + 1 := by
  induction x using Nat.strongRecOn with
  | ind x ih =>
    by_cases hsmall : x < 128
    · rw [Postcard.varint_small hsmall, Nat.log_of_lt hsmall]
      rfl
    · have hge : 128 ≤ x := Nat.not_lt.mp hsmall
      rw [Postcard.varint_large hsmall, length_cons, ih (x / 128) (by omega),
        Nat.log_of_one_lt_of_le (by decide) hge]

/-! ## Writing -/

inductive WriteError where
  | shortWrite
  | writer (text : String)
deriving DecidableEq

/-- An `io.Writer`: what its `n`-th `Write` takes of `p`, from the front, and the error it returns. -/
structure Writer where
  accept : ℕ → (p : Bytes) → Fin (p.length + 1) × Option String
  calls : ℕ
  written : Bytes

structure CountingWriter where
  w : Writer
  n : ℕ

/-- `countingWriter.Write`.  The bytes taken count even if the call fails. -/
def CountingWriter.write (p : Bytes) : EStateM WriteError CountingWriter ℕ := fun cw =>
  let out := cw.w.accept cw.w.calls p
  let w := { cw.w with calls := cw.w.calls + 1, written := cw.w.written ++ p.take out.1 }
  match out.2 with
  | none => .ok out.1 ⟨w, cw.n + out.1⟩
  | some text => .error (.writer text) ⟨w, cw.n + out.1⟩

def writeAll (p : Bytes) : EStateM WriteError CountingWriter Unit :=
  if _hp : p = [] then pure ()
  else do
    let n ← CountingWriter.write p
    if _hn : n = 0 then throw .shortWrite
    else writeAll (p.drop n)
termination_by p.length
decreasing_by
  have hpos := List.length_pos_of_ne_nil _hp
  rw [List.length_drop]
  omega

/-- `writeUvarint`, of a number that is a `len`. -/
def writeUvarint (x : ℕ) : EStateM WriteError CountingWriter Unit := writeAll (varint x)

/-- When `x` ends well, it has written `b`. -/
def Writes {α : Type} (x : EStateM WriteError CountingWriter α) (b : Bytes) : Prop :=
  ∀ cw a cw', x cw = .ok a cw' → cw'.w.written = cw.w.written ++ b ∧ cw'.n = cw.n + b.length

lemma writes_pure {α : Type} (a : α) : Writes (pure a : EStateM WriteError CountingWriter α) [] := by
  intro cw a' cw' h
  obtain ⟨-, rfl⟩ := pure_eq_ok.mp h
  exact ⟨(append_nil _).symm, rfl⟩

lemma Writes.bind {α β : Type} {x : EStateM WriteError CountingWriter α}
    {f : α → EStateM WriteError CountingWriter β} {b b' : Bytes} (h : Writes x b)
    (h' : ∀ a, Writes (f a) b') : Writes (x >>= f) (b ++ b') := by
  intro cw c cw' hrun
  obtain ⟨a, mid, hx, hf⟩ := bind_eq_ok.mp hrun
  obtain ⟨hb, hn⟩ := h cw a mid hx
  obtain ⟨hb', hn'⟩ := h' a mid c cw' hf
  refine ⟨?_, ?_⟩
  · rw [hb', hb, append_assoc]
  · rw [hn', hn, length_append, Nat.add_assoc]

lemma write_eq_ok {p : Bytes} {cw cw' : CountingWriter} {n : ℕ}
    (h : CountingWriter.write p cw = .ok n cw') :
    n ≤ p.length ∧ cw'.w.written = cw.w.written ++ p.take n ∧ cw'.n = cw.n + n := by
  unfold CountingWriter.write at h
  dsimp only at h
  split at h
  · cases h
    exact ⟨Nat.le_of_lt_succ (Fin.is_lt _), rfl, rfl⟩
  · cases h

lemma writes_writeAll (p : Bytes) : Writes (writeAll p) p := by
  induction p using writeAll.induct with
  | case1 =>
    rw [writeAll]
    exact writes_pure ()
  | case2 p hp ih =>
    rw [writeAll, dif_neg hp]
    intro cw a cw' hrun
    obtain ⟨n, mid, hwrite, hrun⟩ := bind_eq_ok.mp hrun
    obtain ⟨hle, hwritten, hn⟩ := write_eq_ok hwrite
    split at hrun
    · cases hrun
    next hpos =>
      obtain ⟨hwritten', hn'⟩ := ih n hpos mid a cw' hrun
      refine ⟨?_, ?_⟩
      · rw [hwritten', hwritten, append_assoc, take_append_drop]
      · rw [hn', length_drop]
        omega

end Iroh.Docs
