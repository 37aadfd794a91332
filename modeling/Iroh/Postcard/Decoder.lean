import Iroh.Common.Codec
import Iroh.Common.Postcard

/-!
# Decoding postcard primitives

Reference: `internal/postcard/postcard.go`.

A `Decoder` is a scanner of bytes: the source's `d.b[d.off:]` is what is left to scan.  Each primitive
comes with the two facts its users need, that it reads what its encoder writes and that it reads nothing
else.  For varints the second is the rule against padding: the last byte of several is not zero.
-/

namespace Iroh.Postcard

open List

/-- `16`, `32` or `64` bits. -/
inductive Width where
  | w16
  | w32
  | w64
deriving DecidableEq

def Width.bits : Width → ℕ
  | .w16 => 16
  | .w32 => 32
  | .w64 => 64

/-- The errors of `Decoder`'s methods and of `Unmarshal`. -/
inductive DecodeError where
  | short
  | overlongVarint
  | trailingBytes
  | invalidBool (x : UInt8)
  | invalidOption (x : UInt8)
  | invalidUTF8
  | overflowsUint (x : UInt64) (w : Width)
  | overflowsInt (x : Int64) (w : Width)
  | sequenceTooLarge
deriving DecidableEq

abbrev Decoder (α : Type) := Scanner UInt8 DecodeError α

/-! ## Varints -/

/-- The loop of `readVarint` at its `i`-th byte, `v` being what the bytes before it gave. -/
def readVarintLoop (i : ℕ) (v : UInt64) : Bytes → Except DecodeError (UInt64 × Bytes)
  | [] => .error .short
  | b :: rest =>
    if i ≥ 10 then .error .short
    else if i = 9 ∧ b > 1 then .error .overlongVarint
    else
      let v := v ||| (b &&& 0x7f).toUInt64 <<< UInt64.ofNat (7 * i)
      if b < 0x80 then
        if i > 0 ∧ b = 0 then .error .overlongVarint else .ok (v, rest)
      else readVarintLoop (i + 1) v rest

/-- `Decoder.Uint`: `readVarint` of what is left. -/
def Decoder.uint : Decoder UInt64 := fun b =>
  match readVarintLoop 0 0 b with
  | .ok q => .ok q.1 q.2
  | .error e => .error e b

variable {x i : ℕ} {v : UInt64} {b : UInt8}

lemma varint_small (h : x < 128) : varint x = [UInt8.ofNat x] := by
  rw [varint, if_pos h]

lemma varint_large (h : ¬x < 128) : varint x = UInt8.ofNat (x % 128 + 128) :: varint (x / 128) := by
  rw [varint, if_neg h]

lemma varint_ne_nil (x : ℕ) : varint x ≠ [] := by
  rw [varint]
  split <;> exact cons_ne_nil _ _

lemma and_low_of_lt (h : b < 0x80) : b &&& 0x7f = b := by
  refine UInt8.toNat_inj.mp ?_
  exact (Nat.and_two_pow_sub_one_eq_mod _ 7).trans (Nat.mod_eq_of_lt (UInt8.lt_iff_toNat_lt.mp h))

lemma toNat_accumulate (hi : i ≤ 9) (hv : v.toNat < 2 ^ (7 * i)) (hb : i = 9 → b.toNat ≤ 1) :
    (v ||| (b &&& 0x7f).toUInt64 <<< UInt64.ofNat (7 * i)).toNat =
      v.toNat + b.toNat % 128 * 2 ^ (7 * i) := by
  have hlow : (b &&& 0x7f).toNat = b.toNat % 128 := by
    exact Nat.and_two_pow_sub_one_eq_mod _ 7
  have hshift : (UInt64.ofNat (7 * i)).toNat % 64 = 7 * i := by
    rw [UInt64.toNat_ofNat']
    omega
  -- nothing is shifted out: the tenth byte has one bit at most
  have hfit : b.toNat % 128 * 2 ^ (7 * i) < 2 ^ 64 := by
    rcases Nat.lt_or_eq_of_le hi with hlt | rfl
    · have hpow : 2 ^ (7 * i) ≤ 2 ^ 56 := Nat.pow_le_pow_right (by decide) (by omega)
      have hmod : b.toNat % 128 < 128 := Nat.mod_lt _ (by decide)
      calc b.toNat % 128 * 2 ^ (7 * i) < 128 * 2 ^ (7 * i) :=
            Nat.mul_lt_mul_of_pos_right hmod (Nat.two_pow_pos _)
        _ ≤ 128 * 2 ^ 56 := Nat.mul_le_mul_left _ hpow
        _ ≤ 2 ^ 64 := by decide
    · omega
  rw [UInt64.toNat_or, UInt64.toNat_shiftLeft, hshift, UInt8.toNat_toUInt64, hlow,
    Nat.shiftLeft_eq, Nat.mod_eq_of_lt hfit, Nat.or_comm, Nat.mul_comm (b.toNat % 128),
    ← Nat.two_pow_add_eq_or_of_lt hv, Nat.add_comm]

lemma accumulate_lt {v m : ℕ} (hv : v < 2 ^ (7 * i)) (hm : m < 128) :
    v + m * 2 ^ (7 * i) < 2 ^ (7 * (i + 1)) := by
  have hpow : 2 ^ (7 * (i + 1)) = 128 * 2 ^ (7 * i) := by
    rw [Nat.mul_succ, Nat.pow_add, Nat.mul_comm]
  rw [hpow]
  calc v + m * 2 ^ (7 * i) < 2 ^ (7 * i) + m * 2 ^ (7 * i) := Nat.add_lt_add_right hv _
    _ = (m + 1) * 2 ^ (7 * i) := by rw [Nat.add_mul m 1, Nat.one_mul, Nat.add_comm]
    _ ≤ 128 * 2 ^ (7 * i) := Nat.mul_le_mul_right _ hm

lemma accumulate_assoc (v m x i : ℕ) :
    v + m * 2 ^ (7 * i) + x * 2 ^ (7 * (i + 1)) = v + (m + 128 * x) * 2 ^ (7 * i) := by
  rw [Nat.mul_succ, Nat.pow_add, Nat.add_mul, Nat.add_assoc, Nat.mul_comm 128 x, Nat.mul_assoc,
    Nat.mul_comm (2 ^ (7 * i)) (2 ^ 7)]

lemma readVarintLoop_last (hi : i ≤ 9) (hlast : i = 9 → b.toNat ≤ 1) (hend : b.toNat < 128)
    (hcanonical : i = 0 ∨ 0 < b.toNat) (v : UInt64) (rest : Bytes) : readVarintLoop i v (b :: rest) =
      .ok (v ||| (b &&& 0x7f).toUInt64 <<< UInt64.ofNat (7 * i), rest) := by
  have hnot : ¬(i = 9 ∧ b > 1) := by
    rintro ⟨h9, hgt⟩
    exact Nat.not_le.mpr (UInt8.lt_iff_toNat_lt.mp hgt) (hlast h9)
  have hlow : b < 0x80 := UInt8.lt_iff_toNat_lt.mpr hend
  have hzero : ¬(i > 0 ∧ b = 0) := by
    rintro ⟨hi0, rfl⟩
    exact hcanonical.elim hi0.ne' (Nat.lt_irrefl 0)
  rw [readVarintLoop, if_neg (by omega), if_neg hnot]
  rw [if_pos hlow, if_neg hzero]

lemma readVarintLoop_more (hi : i ≤ 8) (hmore : 128 ≤ b.toNat) (v : UInt64) (rest : Bytes) :
    readVarintLoop i v (b :: rest) =
      readVarintLoop (i + 1) (v ||| (b &&& 0x7f).toUInt64 <<< UInt64.ofNat (7 * i)) rest := by
  have hhigh : ¬b < 0x80 := fun hlt => Nat.not_lt.mpr hmore (UInt8.lt_iff_toNat_lt.mp hlt)
  rw [readVarintLoop, if_neg (by omega), if_neg (by omega)]
  rw [if_neg hhigh]

lemma readVarintLoop_varint (rest : Bytes) (hi : i ≤ 9) (hx : x < 2 ^ (64 - 7 * i))
    (hpos : i = 0 ∨ 0 < x) (hv : v.toNat < 2 ^ (7 * i)) :
    ∃ w, readVarintLoop i v (varint x ++ rest) = .ok (w, rest) ∧
      w.toNat = v.toNat + x * 2 ^ (7 * i) := by
  induction x using Nat.strongRecOn generalizing i v with
  | ind x ih =>
    have hlast : i = 9 → x ≤ 1 := by
      rintro rfl
      exact Nat.le_of_lt_succ hx
    by_cases hsmall : x < 128
    · have hb : (UInt8.ofNat x).toNat = x := UInt8.toNat_ofNat_of_lt' (show _ < 256 by omega)
      have hacc := toNat_accumulate hi hv (b := UInt8.ofNat x) (hb.symm ▸ hlast)
      rw [hb, Nat.mod_eq_of_lt hsmall] at hacc
      refine ⟨_, ?_, hacc⟩
      rw [varint_small hsmall]
      apply readVarintLoop_last hi <;> rwa [hb]
    · -- a tenth byte leaves no room for more
      have hi8 : i ≤ 8 := by
        by_contra h9
        omega
      have hm : x % 128 < 128 := Nat.mod_lt _ (by decide)
      have hb : (UInt8.ofNat (x % 128 + 128)).toNat = x % 128 + 128 :=
        UInt8.toNat_ofNat_of_lt' (show _ < 256 by omega)
      have hacc := toNat_accumulate hi hv (b := UInt8.ofNat (x % 128 + 128)) (by omega)
      rw [hb, Nat.add_mod_right, Nat.mod_mod] at hacc
      have hx' : x / 128 < 2 ^ (64 - 7 * (i + 1)) := by
        have hsplit : 64 - 7 * i = 64 - 7 * (i + 1) + 7 := by omega
        rw [hsplit, Nat.pow_add] at hx
        exact (Nat.div_lt_iff_lt_mul (by decide)).mpr hx
      obtain ⟨w, hread, hw⟩ := ih (x / 128) (by omega) (i := i + 1) (by omega) hx' (.inr (by omega))
        (hacc ▸ accumulate_lt hv hm)
      refine ⟨w, ?_, ?_⟩
      · have hmore : 128 ≤ (UInt8.ofNat (x % 128 + 128)).toNat := by
          rw [hb]
          exact Nat.le_add_left _ _
        rw [varint_large hsmall, cons_append, readVarintLoop_more hi8 hmore, hread]
      · rw [hw, hacc, accumulate_assoc, Nat.mod_add_div]

lemma of_readVarintLoop {b rest : Bytes} (hv : v.toNat < 2 ^ (7 * i))
    (h : readVarintLoop i v b = .ok (w, rest)) :
    ∃ x, b = varint x ++ rest ∧ w.toNat = v.toNat + x * 2 ^ (7 * i) ∧ (0 < i → 0 < x) := by
  induction b generalizing i v with
  | nil => cases h
  | cons c b ih =>
    rw [readVarintLoop] at h
    split at h
    · cases h
    · split at h
      · cases h
      next hlast =>
        have hc := c.toNat_lt
        have hbound : i = 9 → c.toNat ≤ 1 := by
          intro h9
          by_contra hgt
          exact hlast ⟨h9, UInt8.lt_iff_toNat_lt.mpr (Nat.lt_of_not_le hgt)⟩
        have hacc := toNat_accumulate (b := c) (by omega) hv hbound
        split at h
        next hend =>
          have hend : c.toNat < 128 := UInt8.lt_iff_toNat_lt.mp hend
          split at h
          · cases h
          next hcanonical =>
            -- the last byte is not zero, unless it is the only one
            cases h
            refine ⟨c.toNat, ?_, ?_, fun hi0 => ?_⟩
            · rw [varint_small hend, UInt8.ofNat_toNat, singleton_append]
            · rw [hacc, Nat.mod_eq_of_lt hend]
            · refine Nat.pos_of_ne_zero fun hzero => hcanonical ⟨hi0, ?_⟩
              exact UInt8.toNat_inj.mp hzero
        next hmore =>
          have hmore : 128 ≤ c.toNat := Nat.not_lt.mp fun hlt => hmore (UInt8.lt_iff_toNat_lt.mpr hlt)
          have hm : c.toNat % 128 < 128 := Nat.mod_lt _ (by decide)
          obtain ⟨x, rfl, hw, hx⟩ := ih (hacc ▸ accumulate_lt hv hm) h
          refine ⟨c.toNat % 128 + 128 * x, ?_, ?_, fun _ => by omega⟩
          · have hdiv : (c.toNat % 128 + 128 * x) / 128 = x := by omega
            have hmod : (c.toNat % 128 + 128 * x) % 128 + 128 = c.toNat := by omega
            have hlarge : ¬c.toNat % 128 + 128 * x < 128 := by omega
            rw [varint_large hlarge, hdiv, hmod, UInt8.ofNat_toNat, cons_append]
          · rw [hw, hacc, accumulate_assoc]

lemma reads_uint (x : UInt64) : Reads Decoder.uint (varint x.toNat) x := by
  intro rest
  obtain ⟨w, hread, hw⟩ := readVarintLoop_varint (v := 0) rest (Nat.zero_le 9) x.toNat_lt (.inl rfl)
    Nat.one_pos
  have hw : w = x := UInt64.toNat_inj.mp (hw.trans (by simp))
  rw [hw] at hread
  rw [Decoder.uint, hread]

lemma readsOnly_uint : ReadsOnly Decoder.uint fun x => varint x.toNat := by
  intro b w rest h
  unfold Decoder.uint at h
  split at h
  on_goal 2 => cases h
  rename_i q hread
  cases h
  obtain ⟨x, hb, hw, -⟩ := of_readVarintLoop (v := 0) (i := 0) Nat.one_pos hread
  have hw : q.1.toNat = x := hw.trans (by simp)
  rw [hb, ← hw]

/-! ## Zigzag -/

def zigzag (v : Int64) : UInt64 := (v <<< 1).toUInt64 ^^^ (v >>> 63).toUInt64

def unzigzag (v : UInt64) : Int64 := (v >>> 1).toInt64 ^^^ -(v &&& 1).toInt64

lemma getLsbD_zigzag (v : Int64) (hi : i < 64) : (zigzag v).toBitVec.getLsbD i =
      ((decide (0 < i) && v.toBitVec.getLsbD (i - 1)) ^^ v.toBitVec.msb) := by
  have hleft : (v <<< 1).toBitVec = v.toBitVec <<< 1 := Int64.toBitVec_shiftLeft v 1
  have hright : (v >>> 63).toBitVec = v.toBitVec.sshiftRight 63 := Int64.toBitVec_shiftRight v 63
  rw [zigzag, UInt64.toBitVec_xor, Int64.toBitVec_toUInt64, Int64.toBitVec_toUInt64, hleft, hright,
    BitVec.getLsbD_xor, BitVec.getLsbD_shiftLeft, BitVec.getLsbD_sshiftRight]
  rcases Nat.eq_zero_or_pos i with rfl | hpos
  · simp [BitVec.msb_eq_getLsbD_last]
  · have hout : ¬63 + i < 64 := by omega
    have h1 : ¬i < 1 := by omega
    simp [hi, hpos, h1, hout]

lemma getLsbD_unzigzag (x : UInt64) (hi : i < 64) :
    (unzigzag x).toBitVec.getLsbD i = (x.toBitVec.getLsbD (i + 1) ^^ x.toBitVec.getLsbD 0) := by
  have hright : (x >>> 1).toBitVec = x.toBitVec >>> 1 := UInt64.toBitVec_shiftRight x 1
  have hsign : (-(x.toBitVec &&& 1#64)).getLsbD i = x.toBitVec.getLsbD 0 := by
    rw [BitVec.and_one_eq_setWidth_ofBool_getLsbD]
    cases x.toBitVec.getLsbD 0 with
    | false => simp
    | true =>
      have hones : -(BitVec.setWidth 64 (BitVec.ofBool true)) = BitVec.allOnes 64 := by decide
      rw [hones, BitVec.getLsbD_allOnes]
      exact decide_eq_true hi
  rw [unzigzag, Int64.toBitVec_xor, UInt64.toBitVec_toInt64, hright, BitVec.getLsbD_xor,
    BitVec.getLsbD_ushiftRight, Nat.add_comm 1 i]
  exact congrArg _ hsign

lemma unzigzag_zigzag (v : Int64) : unzigzag (zigzag v) = v := by
  refine Int64.toBitVec_inj.mp (BitVec.eq_of_getLsbD_eq fun i hi => ?_)
  rw [getLsbD_unzigzag _ hi, getLsbD_zigzag v (by decide : 0 < 64)]
  by_cases hlast : i = 63
  · subst hlast
    simp [BitVec.msb_eq_getLsbD_last]
  · rw [getLsbD_zigzag v (by omega : i + 1 < 64)]
    simp

lemma zigzag_unzigzag (x : UInt64) : zigzag (unzigzag x) = x := by
  refine UInt64.toBitVec_inj.mp (BitVec.eq_of_getLsbD_eq fun i hi => ?_)
  have hmsb : (unzigzag x).toBitVec.msb = x.toBitVec.getLsbD 0 := by
    rw [BitVec.msb_eq_getLsbD_last, getLsbD_unzigzag x (by decide),
      BitVec.getLsbD_of_ge _ (64 - 1 + 1) (by decide), Bool.false_xor]
  rw [getLsbD_zigzag _ hi, hmsb]
  rcases Nat.eq_zero_or_pos i with rfl | hpos
  · simp
  · rw [getLsbD_unzigzag x (by omega), Nat.sub_add_cancel hpos]
    simp [hpos]

def int (v : Int64) : Bytes := varint (zigzag v).toNat

def Decoder.int : Decoder Int64 := do
  let x ← Decoder.uint
  return unzigzag x

lemma reads_int (x : Int64) : Reads Decoder.int (int x) x := by
  have hread := (reads_uint (zigzag x)).bind_pure unzigzag
  rwa [unzigzag_zigzag] at hread

lemma readsOnly_int : ReadsOnly Decoder.int int := by
  intro b x rest h
  obtain ⟨y, mid, hy, h⟩ := bind_eq_ok.mp h
  obtain ⟨rfl, rfl⟩ := pure_eq_ok.mp h
  rw [int, zigzag_unzigzag]
  exact readsOnly_uint b y _ hy

/-! ## Bytes, flags and strings -/

/-- `Decoder.byte`, and `Decoder.Uint8`. -/
def Decoder.byte : Decoder UInt8
  | [] => .error .short []
  | x :: rest => .ok x rest

def Decoder.int8 : Decoder Int8 := do
  let b ← Decoder.byte
  return b.toInt8

/-- `Decoder.Bool` and `Decoder.option`, which differ in the error for a byte above 1. -/
def Decoder.flag (invalid : UInt8 → DecodeError) : Decoder Bool := do
  let x ← Decoder.byte
  if x = 0 then return false
  else if x = 1 then return true
  else throw (invalid x)

def Decoder.bool : Decoder Bool := Decoder.flag .invalidBool

def Decoder.option : Decoder Bool := Decoder.flag .invalidOption

def Decoder.rawBytes (n : ℕ) : Decoder (List.Vector UInt8 n) := fun b =>
  if h : n > b.length then .error .short b
  else .ok ⟨b.take n, List.length_take_of_le (Nat.not_lt.mp h)⟩ (b.drop n)

/-- The bytes of a string, or of a slice: their number is a `uint64`. -/
abbrev ByteString := { b : Bytes // b.length < 2 ^ 64 }

/-- `Decoder.bytes`, and `Decoder.BytesValue`. -/
def Decoder.bytesValue : Decoder ByteString := do
  let n ← Decoder.uint
  let b ← Decoder.rawBytes n.toNat
  return ⟨b.toList, b.toList_length.trans_lt n.toNat_lt⟩

/-- `Decoder.String`; `utf8Valid` is `utf8.Valid`. -/
def Decoder.string (utf8Valid : Bytes → Bool) : Decoder ByteString := do
  let b ← Decoder.bytesValue
  if utf8Valid b.val then return b else throw .invalidUTF8

lemma reads_byte (x : UInt8) : Reads Decoder.byte [x] x := fun _ => rfl

lemma readsOnly_byte : ReadsOnly Decoder.byte fun x => [x] := by
  rintro (_ | ⟨y, b⟩) x rest h
  · cases h
  · cases h
    rfl

lemma reads_int8 (x : Int8) : Reads Decoder.int8 [x.toUInt8] x := by
  have hread := (reads_byte x.toUInt8).bind_pure UInt8.toInt8
  rwa [Int8.toInt8_toUInt8] at hread

lemma readsOnly_int8 : ReadsOnly Decoder.int8 fun x => [x.toUInt8] := by
  intro b x rest h
  obtain ⟨y, mid, hy, h⟩ := bind_eq_ok.mp h
  obtain ⟨rfl, rfl⟩ := pure_eq_ok.mp h
  exact readsOnly_byte b y _ hy

lemma reads_flag (invalid : UInt8 → DecodeError) (v : Bool) :
    Reads (Decoder.flag invalid) (bool v) v := by
  cases v <;> exact fun _ => rfl

lemma readsOnly_flag (invalid : UInt8 → DecodeError) : ReadsOnly (Decoder.flag invalid) bool := by
  intro b v rest h
  obtain ⟨x, mid, hx, h⟩ := bind_eq_ok.mp h
  have hb := readsOnly_byte b x mid hx
  split at h
  next hzero =>
    obtain ⟨rfl, rfl⟩ := pure_eq_ok.mp h
    rw [hb, hzero]
    rfl
  · split at h
    next hone =>
      obtain ⟨rfl, rfl⟩ := pure_eq_ok.mp h
      rw [hb, hone]
      rfl
    · cases h

lemma reads_rawBytes (b : List.Vector UInt8 n) : Reads (Decoder.rawBytes n) b.toList b := by
  intro rest
  have hlen := b.toList_length
  have hle : ¬n > (b.toList ++ rest).length := by
    rw [length_append]
    omega
  rw [Decoder.rawBytes, dif_neg hle]
  have htake : (b.toList ++ rest).take n = b.toList := take_left' hlen
  have hdrop : (b.toList ++ rest).drop n = rest := drop_left' hlen
  exact congrArg₂ EStateM.Result.ok (Subtype.ext htake) hdrop

lemma readsOnly_rawBytes (n : ℕ) : ReadsOnly (Decoder.rawBytes n) List.Vector.toList := by
  intro b x rest h
  unfold Decoder.rawBytes at h
  split at h
  · cases h
  · cases h
    exact (take_append_drop n b).symm

lemma reads_bytesValue (b : ByteString) : Reads Decoder.bytesValue (bytesValue b.val) b := by
  have hlen : (UInt64.ofNat b.val.length).toNat = b.val.length := UInt64.toNat_ofNat_of_lt' b.property
  have hread := reads_uint (UInt64.ofNat b.val.length)
  rw [hlen] at hread
  refine hread.bind ?_
  exact (reads_rawBytes ⟨b.val, hlen.symm⟩).bind_pure fun v =>
    (⟨v.toList, v.toList_length.trans_lt (UInt64.toNat_lt _)⟩ : ByteString)

lemma readsOnly_bytesValue : ReadsOnly Decoder.bytesValue fun b => bytesValue b.val := by
  intro b x rest h
  obtain ⟨n, mid, hn, h⟩ := bind_eq_ok.mp h
  obtain ⟨v, mid', hv, h⟩ := bind_eq_ok.mp h
  obtain ⟨rfl, rfl⟩ := pure_eq_ok.mp h
  dsimp only
  rw [readsOnly_uint b n mid hn, readsOnly_rawBytes _ _ _ _ hv, bytesValue, v.toList_length,
    append_assoc]

lemma reads_string {b : ByteString} (hvalid : utf8Valid b.val) :
    Reads (Decoder.string utf8Valid) (bytesValue b.val) b := by
  rw [← append_nil (bytesValue b.val)]
  refine (reads_bytesValue b).bind ?_
  rw [if_pos hvalid]
  exact reads_pure b

lemma readsOnly_string (utf8Valid : Bytes → Bool) :
    ReadsOnly (Decoder.string utf8Valid) fun b => bytesValue b.val := by
  intro b x rest h
  obtain ⟨y, mid, hy, h⟩ := bind_eq_ok.mp h
  split at h
  · obtain ⟨rfl, rfl⟩ := pure_eq_ok.mp h
    exact readsOnly_bytesValue b y _ hy
  · cases h

end Iroh.Postcard
