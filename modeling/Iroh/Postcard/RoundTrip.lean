import Iroh.Postcard.Value

/-!
# Postcard is a bijection onto its image

Reference: `internal/postcard/postcard.go`.

Both halves go by induction over types, with one lemma for the elements of arrays and slices and one for
the length of a slice.  The decoder refuses a slice with more elements than bytes are left, before it
reads any: a slice whose elements take no bytes is written and not read back.  `Ty.SlicesSized` leaves
such types out.  A nil slice is written as the empty one, and read as that (`Ty.canon`).
-/

namespace Iroh.Postcard

open List

/-! ## What can be read back, and as what -/

def contents {α : Type} : Option (Elems α) → Elems α
  | none => ⟨[], Nat.zero_le _⟩
  | some s => s

mutual

def Ty.SlicesSized : Ty → Prop
  | .array _ t => t.SlicesSized
  | .slice t => (∀ v : t.Value, Encoder.value t v ≠ []) ∧ t.SlicesSized
  | .pointer t => t.SlicesSized
  | .struct fs => fs.SlicesSized
  | _ => True

def Fields.SlicesSized : Fields → Prop
  | .nil => True
  | .cons t ts => t.SlicesSized ∧ ts.SlicesSized

end

mutual

def Ty.ValidStrings (utf8Valid : Bytes → Bool) : (t : Ty) → t.Value → Prop
  | .string, v => utf8Valid v.val
  | .array _ t, v => ∀ x ∈ v.toList, t.ValidStrings utf8Valid x
  | .slice t, v => ∀ x ∈ (contents v).toList, t.ValidStrings utf8Valid x
  | .pointer t, v => ∀ x, v = some x → t.ValidStrings utf8Valid x
  | .struct fs, v => fs.ValidStrings utf8Valid v
  | _, _ => True

def Fields.ValidStrings (utf8Valid : Bytes → Bool) : (fs : Fields) → fs.Values → Prop
  | .nil, _ => True
  | .cons t ts, v => t.ValidStrings utf8Valid v.1 ∧ ts.ValidStrings utf8Valid v.2

end

mutual

def Ty.canon : (t : Ty) → t.Value → t.Value
  | .array _ t, v => v.map t.canon
  | .slice t, v =>
    some ⟨(contents v).toList.map t.canon, (List.length_map _).trans_le (contents v).length_le⟩
  | .pointer t, v => v.map t.canon
  | .struct fs, v => fs.canon v
  | .bool, v => v
  | .u8, v => v
  | .i8, v => v
  | .uint _, v => v
  | .int _, v => v
  | .string, v => v

def Fields.canon : (fs : Fields) → fs.Values → fs.Values
  | .nil, v => v
  | .cons t ts, v => (t.canon v.1, ts.canon v.2)

end

/-! ## Elements -/

lemma elems_eq_flatMap (t : Ty) (l : List t.Value) :
    Encoder.elems t (Encoder.value t) l = l.flatMap (Encoder.value t) := by
  cases t with
  | u8 => exact (flatMap_singleton' l).symm
  | _ => rfl

variable {utf8Valid : Bytes → Bool} {t : Ty}

lemma reads_elems {n : ℕ} {v : List.Vector t.Value n}
    (h : ∀ x ∈ v.toList, Reads (Decoder.value utf8Valid t) (Encoder.value t x) (t.canon x)) :
    Reads (Decoder.elems t (Decoder.value utf8Valid t) n)
      (Encoder.elems t (Encoder.value t) v.toList) (v.map t.canon) := by
  cases t with
  | u8 =>
    have hid : v.map (Ty.canon .u8) = v := List.Vector.ext fun i => v.get_map (Ty.canon .u8) i
    rw [hid]
    exact reads_rawBytes v
  | _ => exact reads_vector h

lemma readsOnly_elems (h : ReadsOnly (Decoder.value utf8Valid t) (Encoder.value t)) (n : ℕ) :
    ReadsOnly (Decoder.elems t (Decoder.value utf8Valid t) n) fun v =>
      Encoder.elems t (Encoder.value t) v.toList := by
  cases t with
  | u8 => exact readsOnly_rawBytes n
  | _ => exact h.vector n

lemma length_le_length_elems (h : ∀ v : t.Value, Encoder.value t v ≠ []) (l : List t.Value) :
    l.length ≤ (Encoder.elems t (Encoder.value t) l).length := by
  rw [elems_eq_flatMap]
  induction l with
  | nil => exact Nat.zero_le _
  | cons v l ih =>
    have hpos := length_pos_iff.mpr (h v)
    rw [flatMap_cons, length_append, length_cons]
    omega

/-! ## The kinds of values -/

lemma reads_uintOf (v : { x : UInt64 // w.FitsUint x }) :
    Reads (Decoder.uintOf w) (varint v.val.toNat) v := by
  rw [← append_nil (varint _)]
  refine (reads_uint v.val).bind ?_
  rw [dif_pos v.property]
  exact reads_pure v

lemma readsOnly_uintOf (w : Width) : ReadsOnly (Decoder.uintOf w) fun v => varint v.val.toNat := by
  intro b v rest h
  obtain ⟨x, mid, hx, h⟩ := bind_eq_ok.mp h
  split at h
  · obtain ⟨rfl, rfl⟩ := pure_eq_ok.mp h
    exact readsOnly_uint b x _ hx
  · cases h

lemma reads_intOf (v : { x : Int64 // w.FitsInt x }) : Reads (Decoder.intOf w) (int v.val) v := by
  rw [← append_nil (int _)]
  refine (reads_int v.val).bind ?_
  rw [dif_pos v.property]
  exact reads_pure v

lemma readsOnly_intOf (w : Width) : ReadsOnly (Decoder.intOf w) fun v => int v.val := by
  intro b v rest h
  obtain ⟨x, mid, hx, h⟩ := bind_eq_ok.mp h
  split at h
  · obtain ⟨rfl, rfl⟩ := pure_eq_ok.mp h
    exact readsOnly_int b x _ hx
  · cases h

section Kinds

variable {α : Type}

lemma slice_eq (hnil : enc [] = []) (v : Option (Elems α)) :
    Encoder.slice enc v = varint (contents v).toList.length ++ enc (contents v).toList := by
  cases v with
  | none =>
    rw [contents, hnil]
    exact (append_nil _).symm
  | some s => rfl

variable {b : Bytes}

lemma checkLen_eq {n : { n : ℕ // n ≤ maxInt }} (hx : x.toNat = n.val)
    (hb : n.val ≤ b.length) : Decoder.checkLen x b = .ok n b := by
  have hint : ¬x.toNat > maxInt := hx.symm ▸ Nat.not_lt.mpr n.property
  have hleft : ¬x.toNat > b.length := hx.symm ▸ Nat.not_lt.mpr hb
  rw [Decoder.checkLen, dif_neg hint, if_neg hleft]
  exact congrArg (EStateM.Result.ok · b) (Subtype.ext hx)

lemma of_checkLen_eq_ok {n : { n : ℕ // n ≤ maxInt }}
    (h : Decoder.checkLen x b = .ok n rest) : x.toNat = n.val ∧ b = rest := by
  unfold Decoder.checkLen at h
  split at h
  · cases h
  · split at h
    · cases h
    · cases h
      exact ⟨rfl, rfl⟩

lemma reads_slice {dec : (n : ℕ) → Decoder (List.Vector α n)} {s : Elems α}
    {w : List.Vector α s.toList.length} (h : Reads (dec s.toList.length) b w)
    (hlen : s.toList.length ≤ b.length) : Reads (Decoder.slice dec) (varint s.toList.length ++ b)
      (some ⟨w.toList, w.toList_length.trans_le s.length_le⟩) := by
  intro rest
  have hmax : s.toList.length < 2 ^ 64 := Nat.lt_of_le_of_lt s.length_le (by decide)
  have hx : (UInt64.ofNat s.toList.length).toNat = s.toList.length := UInt64.toNat_ofNat_of_lt' hmax
  have hread := reads_uint (UInt64.ofNat s.toList.length) (b ++ rest)
  rw [hx] at hread
  have hleft : s.toList.length ≤ (b ++ rest).length := by
    rw [length_append]
    exact Nat.le_add_right_of_le hlen
  rw [append_assoc]
  refine bind_eq_ok.mpr ⟨_, _, hread, bind_eq_ok.mpr ⟨⟨_, s.length_le⟩, _, checkLen_eq hx hleft, ?_⟩⟩
  exact bind_eq_ok.mpr ⟨w, rest, h rest, rfl⟩

lemma readsOnly_slice {dec : (n : ℕ) → Decoder (List.Vector α n)}
    (h : ∀ n, ReadsOnly (dec n) fun v => enc v.toList) :
    ReadsOnly (Decoder.slice dec) (Encoder.slice enc) := by
  intro b v rest hb
  obtain ⟨x, mid, hx, hb⟩ := bind_eq_ok.mp hb
  obtain ⟨n, mid', hn, hb⟩ := bind_eq_ok.mp hb
  obtain ⟨w, mid'', hw, hb⟩ := bind_eq_ok.mp hb
  obtain ⟨rfl, rfl⟩ := pure_eq_ok.mp hb
  obtain ⟨hxn, rfl⟩ := of_checkLen_eq_ok hn
  rw [readsOnly_uint b x mid hx, h n.val mid w _ hw]
  dsimp only
  rw [hxn, Encoder.slice, w.toList_length, append_assoc]

lemma reads_pointer (h : ∀ x, v = some x → Reads dec (enc x) (f x)) :
    Reads (Decoder.pointer dec) (Encoder.pointer enc v) (v.map f) := by
  cases v with
  | none => exact (reads_flag .invalidOption false).bind (reads_pure none)
  | some x => exact (reads_flag .invalidOption true).bind ((h x rfl).bind_pure some)

lemma readsOnly_pointer (h : ReadsOnly dec enc) :
    ReadsOnly (Decoder.pointer dec) (Encoder.pointer enc) := by
  intro b v rest hb
  obtain ⟨flag, mid, hflag, hb⟩ := bind_eq_ok.mp hb
  have hfront := readsOnly_flag .invalidOption b flag mid hflag
  split at hb
  next hset =>
    obtain ⟨x, mid', hx, hb⟩ := bind_eq_ok.mp hb
    obtain ⟨rfl, rfl⟩ := pure_eq_ok.mp hb
    rw [hfront, hset, h mid x _ hx]
    rfl
  next hclear =>
    obtain ⟨rfl, rfl⟩ := pure_eq_ok.mp hb
    rw [hfront, Bool.eq_false_iff.mpr hclear]
    rfl

end Kinds

/-! ## Values -/

mutual

/-- **Reading back.**  From what was written of a value its canonical form is read, and nothing after
it is touched. -/
theorem reads_value {utf8Valid : Bytes → Bool} : (t : Ty) → t.SlicesSized → (v : t.Value) →
    t.ValidStrings utf8Valid v → Reads (Decoder.value utf8Valid t) (Encoder.value t v) (t.canon v)
  | .bool, _, v, _ => reads_flag .invalidBool v
  | .u8, _, v, _ => reads_byte v
  | .i8, _, v, _ => reads_int8 v
  | .uint _, _, v, _ => reads_uintOf v
  | .int _, _, v, _ => reads_intOf v
  | .string, _, _, hv => reads_string hv
  | .array _ t, hsized, _, hv => reads_elems fun x hx => reads_value t hsized x (hv x hx)
  | .slice t, hsized, v, hv => by
      have helems := reads_elems (n := (contents v).toList.length) (v := ⟨(contents v).toList, rfl⟩)
        fun x hx => reads_value t hsized.2 x (hv x hx)
      have hnil : Encoder.elems t (Encoder.value t) [] = [] := elems_eq_flatMap t []
      have hslice := reads_slice helems (length_le_length_elems hsized.1 (contents v).toList)
      exact (congrArg (Reads _ · _) (slice_eq hnil v)).mpr hslice
  | .pointer t, hsized, _, hv => reads_pointer fun x hx => reads_value t hsized x (hv x hx)
  | .struct fs, hsized, v, hv => reads_fields fs hsized v hv

theorem reads_fields {utf8Valid : Bytes → Bool} : (fs : Fields) → fs.SlicesSized →
    (v : fs.Values) → fs.ValidStrings utf8Valid v →
    Reads (Decoder.fields utf8Valid fs) (Encoder.fields fs v) (fs.canon v)
  | .nil, _, _, _ => reads_pure ()
  | .cons t ts, hsized, v, hv =>
    (reads_value t hsized.1 v.1 hv.1).bind ((reads_fields ts hsized.2 v.2 hv.2).bind_pure _)

end

mutual

/-- **Reading only what is written.**  A value is read from its own encoding and from no other. -/
theorem readsOnly_value {utf8Valid : Bytes → Bool} : (t : Ty) →
    ReadsOnly (Decoder.value utf8Valid t) (Encoder.value t)
  | .bool => readsOnly_flag .invalidBool
  | .u8 => readsOnly_byte
  | .i8 => readsOnly_int8
  | .uint w => readsOnly_uintOf w
  | .int w => readsOnly_intOf w
  | .string => readsOnly_string utf8Valid
  | .array n t => readsOnly_elems (readsOnly_value t) n
  | .slice t => readsOnly_slice (readsOnly_elems (readsOnly_value t))
  | .pointer t => readsOnly_pointer (readsOnly_value t)
  | .struct fs => readsOnly_fields fs

theorem readsOnly_fields {utf8Valid : Bytes → Bool} : (fs : Fields) →
    ReadsOnly (Decoder.fields utf8Valid fs) (Encoder.fields fs)
  | .nil => by
      intro b v rest h
      exact (pure_eq_ok.mp h).2
  | .cons t ts => by
      intro b v rest h
      obtain ⟨x, mid, hx, h⟩ := bind_eq_ok.mp h
      obtain ⟨xs, mid', hxs, h⟩ := bind_eq_ok.mp h
      obtain ⟨rfl, rfl⟩ := pure_eq_ok.mp h
      rw [readsOnly_value t b x mid hx, readsOnly_fields ts mid xs _ hxs, ← append_assoc]
      rfl

end

lemma unmarshal_eq_ok (h : unmarshal utf8Valid t b = .ok v) :
    Decoder.value utf8Valid t b = .ok v [] := by
  unfold unmarshal at h
  split at h
  · cases h
  next x rest hx =>
    split at h
    · cases h
    next hrest =>
      cases h
      rw [hx, not_not.mp hrest]

/-- **Postcard is a bijection onto its image.**  A value is read back from its encoding, up to nil slices, and
no two byte strings stand for one value. -/
theorem marshal_bijective (utf8Valid : Bytes → Bool) (t : Ty) (hsized : t.SlicesSized) :
    (∀ v : t.Value, t.ValidStrings utf8Valid v → ∀ suffix : Bytes,
      Decoder.value utf8Valid t (marshal t v ++ suffix) = .ok (t.canon v) suffix) ∧
    (∀ (b : Bytes) (v : t.Value), unmarshal utf8Valid t b = .ok v → marshal t v = b) ∧
    ∀ (b b' : Bytes) (v : t.Value), unmarshal utf8Valid t b = .ok v →
      unmarshal utf8Valid t b' = .ok v → b = b' := by
  have hback : ∀ (b : Bytes) (v : t.Value), unmarshal utf8Valid t b = .ok v → marshal t v = b := by
    intro b v h
    have hb := readsOnly_value t b v [] (unmarshal_eq_ok h)
    rw [append_nil] at hb
    exact hb.symm
  refine ⟨fun v hv => reads_value t hsized v hv, hback, ?_⟩
  intro b b' v h h'
  rw [← hback b v h, hback b' v h']

/-- A struct with a string, a slice of `uint16` that is nil and a pointer to an `int8`. -/
theorem marshal_bijective_struct :
    let t : Ty := .struct (.cons .string (.cons (.slice (.uint .w16)) (.cons (.pointer .i8) .nil)))
    let v : t.Value := (⟨[104, 105], by decide⟩, none, some (-2 : Int8), ())
    let ascii : Bytes → Bool := fun b => b.all (· < 128)
    t.SlicesSized ∧ marshal t v = [2, 104, 105, 0, 1, 254] ∧
      Decoder.value ascii t (marshal t v ++ [7]) = .ok (t.canon v) [7] := by
  intro t v ascii
  have hsized : t.SlicesSized := ⟨trivial, ⟨fun _ => varint_ne_nil _, trivial⟩, trivial, trivial⟩
  have hvalid : t.ValidStrings ascii v := by
    refine ⟨rfl, fun x hx => ?_, fun _ _ => trivial, trivial⟩
    exact absurd hx not_mem_nil
  have hstring : bytesValue [104, 105] = [2, 104, 105] := by
    rw [bytesValue, varint_small (by decide)]
    rfl
  have hnil : varint 0 = [0] := varint_small (by decide)
  refine ⟨hsized, ?_, (marshal_bijective ascii t hsized).1 v hvalid [7]⟩
  change bytesValue [104, 105] ++ (varint 0 ++ ([1] ++ [(-2 : Int8).toUInt8] ++ [])) = _
  rw [hstring, hnil]
  rfl

end Iroh.Postcard
