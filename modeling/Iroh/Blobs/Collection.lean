import Iroh.Blobs.RequestRoundTrip
import Iroh.Common.Utf8

/-!
# Collections

Reference: `blobs/collection.go`.

A collection is shared as a hash sequence, the first hash being that of the metadata with the names.  The
parser takes numbers that are not in their shortest form.  Metadata with such a number is parsed to a
collection with other metadata, and so with another root.
-/

namespace Iroh.Blobs

open List
open Postcard (varint bytesValue readVarintLoop)

structure CollectionEntry where
  name : Bytes
  hash : Hash
deriving DecidableEq

structure Collection where
  entries : List CollectionEntry
deriving DecidableEq

inductive CollectionError where
  | emptySequence
  | hashMismatch
  | header
  | name
  | decode (err : ParseError)
  | counts (names hashes : ℕ)
deriving DecidableEq

def collectionHeader : Bytes := [67, 111, 108, 108, 101, 99, 116, 105, 111, 110, 86, 48, 46]

namespace Collection

def metadataBytes (c : Collection) : Bytes :=
  collectionHeader ++ varint c.entries.length ++ c.entries.flatMap fun e => bytesValue e.name

def hashSequence (newHash : Bytes → Hash) (c : Collection) : List Hash :=
  newHash c.metadataBytes :: c.entries.map (·.hash)

def root (newHash : Bytes → Hash) (c : Collection) : Hash :=
  newHash ((c.hashSequence newHash).flatMap Vector.toList)

end Collection

def utf8Valid (b : Bytes) : Bool := Utf8.toValid b = b

def parseNames : ℕ → Bytes → Except CollectionError (List Bytes × Bytes)
  | 0, b => .ok ([], b)
  | n + 1, b =>
    match Parser.count 1 b with
    | .error err _ => .error (.decode err)
    | .ok size rest =>
      if utf8Valid (rest.take size) then
        (parseNames n (rest.drop size)).map fun q => (rest.take size :: q.1, q.2)
      else .error .name

def parseCollectionNames (b : Bytes) : Except CollectionError (List Bytes) :=
  if b.take collectionHeader.length = collectionHeader then
    match Parser.count 1 (b.drop collectionHeader.length) with
    | .error err _ => .error (.decode err)
    | .ok n rest => (parseNames n rest).bind fun q =>
        if q.2 = [] then .ok q.1 else .error (.decode (.postcard .trailingBytes))
  else .error .header

def parseCollection (newHash : Bytes → Hash) (seq : List Hash) (metadata : Bytes) :
    Except CollectionError Collection :=
  match seq with
  | [] => .error .emptySequence
  | metaHash :: hashes =>
    if newHash metadata = metaHash then
      (parseCollectionNames metadata).bind fun names =>
        if names.length + 1 = seq.length then .ok ⟨(names.zip hashes).map fun p => ⟨p.1, p.2⟩⟩
        else .error (.counts names.length seq.length)
    else .error .hashMismatch

/-- The bytes of the lengths of `n` names. -/
def lengthFields : ℕ → Bytes → List Bytes
  | 0, _ => []
  | n + 1, b =>
    match Parser.varint b with
    | .ok size rest => b.take (b.length - rest.length) :: lengthFields n (rest.drop size.toNat)
    | .error _ _ => []

def numberFields (metadata : Bytes) : List Bytes :=
  let b := metadata.drop collectionHeader.length
  match Parser.varint b with
  | .ok n rest => b.take (b.length - rest.length) :: lengthFields n.toNat rest
  | .error _ _ => []

def Shortest (v : Bytes) : Prop := v.length = 1 ∨ v.getLast? ≠ some 0

/-! ## Numbers -/

variable {i n size : ℕ} {x w : UInt64} {b rest body : Bytes} {names : List Bytes}

lemma getLast?_varint (hn : 0 < n) : (varint n).getLast? ≠ some 0 := by
  induction n using Nat.strongRecOn with
  | ind n ih =>
    by_cases hsmall : n < 128
    · rw [Postcard.varint_small hsmall, getLast?_singleton]
      intro h
      have hzero := congrArg UInt8.toNat (Option.some.inj h)
      rw [UInt8.toNat_ofNat_of_lt' (show n < 256 by omega)] at hzero
      exact hn.ne' hzero
    · rw [Postcard.varint_large hsmall, getLast?_cons_of_ne_nil (Postcard.varint_ne_nil _)]
      exact ih (n / 128) (by omega) (by omega)

lemma shortest_varint (n : ℕ) : Shortest (varint n) := by
  by_cases hsmall : n < 128
  · exact .inl (by rw [Postcard.varint_small hsmall, length_singleton])
  · exact .inr (getLast?_varint (by omega))

/-- What the parser reads is read by the strict reader of the postcard format if it is not padded. -/
lemma of_varintLoop (h : varintLoop i x b = .ok (w, rest)) :
    ∃ v, b = v ++ rest ∧ v ≠ [] ∧ i + v.length ≤ 10 ∧
      (i = 0 ∧ v.length = 1 ∨ v.getLast? ≠ some 0 → readVarintLoop i x b = .ok (w, rest)) := by
  induction b generalizing i x with
  | nil => cases h
  | cons c b ih =>
    have hshift : i ≤ 9 → ∀ y, shiftLeft64 y (7 * i) = y <<< UInt64.ofNat (7 * i) :=
      fun hi y => if_pos (by omega)
    rw [varintLoop] at h
    split at h
    next hend =>
      split at h
      · cases h
      next hfits =>
        obtain ⟨hi, hbits⟩ := not_or.mp hfits
        rw [hshift (by omega)] at h
        cases h
        refine ⟨[c], rfl, cons_ne_nil _ _, by rw [length_singleton]; omega, fun hshort => ?_⟩
        have hzero : i = 0 ∨ 0 < c.toNat := by
          refine hshort.imp And.left fun hlast => Nat.pos_of_ne_zero fun h0 => hlast ?_
          obtain rfl : c = 0 := UInt8.toNat_inj.mp h0
          rfl
        have hlast : i = 9 → c.toNat ≤ 1 := by
          intro h9
          by_contra hgt
          exact hbits ⟨h9, UInt8.lt_iff_toNat_lt.mpr (Nat.lt_of_not_le hgt)⟩
        rw [Postcard.readVarintLoop_last (by omega) hlast (UInt8.lt_iff_toNat_lt.mp hend) hzero,
          Postcard.and_low_of_lt hend]
    next hmore =>
      have hmore : 128 ≤ c.toNat := Nat.not_lt.mp fun hlt => hmore (UInt8.lt_iff_toNat_lt.mpr hlt)
      obtain ⟨v, rfl, hne, hlen, hread⟩ := ih h
      have hpos := length_pos_iff.mpr hne
      refine ⟨c :: v, rfl, cons_ne_nil _ _, by rw [length_cons]; omega, fun hshort => ?_⟩
      rw [Postcard.readVarintLoop_more (by omega) hmore, ← hshift (by omega)]
      refine hread (.inr ?_)
      have hlong : ¬(i = 0 ∧ (c :: v).length = 1) := by
        rw [length_cons]
        omega
      rw [← getLast?_cons_of_ne_nil hne]
      exact hshort.resolve_left hlong

lemma shortest_iff (h : Parser.varint b = .ok x rest) :
    Shortest (b.take (b.length - rest.length)) ↔ b = varint x.toNat ++ rest := by
  unfold Parser.varint at h
  split at h
  on_goal 2 => cases h
  next q hq =>
    cases h
    obtain ⟨v, rfl, -, -, hread⟩ := of_varintLoop hq
    rw [length_append, Nat.add_sub_cancel, take_left', append_cancel_right_eq]
    on_goal 2 => rfl
    constructor
    · intro hshort
      obtain ⟨y, hb, hy, -⟩ :=
        Postcard.of_readVarintLoop (v := 0) Nat.one_pos (hread (hshort.imp_left fun h => ⟨rfl, h⟩))
      have hy : q.1.toNat = y := hy.trans (by simp)
      rw [hy]
      exact append_cancel_right hb
    · intro hv
      rw [hv]
      exact shortest_varint _

lemma rest_eq_of_varint (h : Parser.varint b = .ok x rest) (hb : b = varint x.toNat ++ body) :
    rest = body := by
  have hread := reads_uint64 x body
  rw [← hb, h] at hread
  exact (EStateM.Result.ok.inj hread).2

lemma of_count (h : Parser.count 1 b = .ok n rest) :
    ∃ x, Parser.varint b = .ok x rest ∧ x.toNat = n ∧ n ≤ rest.length := by
  obtain ⟨x, b₁, hx, h⟩ := bind_eq_ok.mp h
  rw [get_bind_apply, Nat.div_one] at h
  split at h
  · cases h
  next hle =>
    obtain ⟨rfl, rfl⟩ := pure_eq_ok.mp h
    exact ⟨x, hx, rfl, Nat.not_lt.mp hle⟩

lemma count_varint (hn : n < 2 ^ 64) (hle : n ≤ b.length) :
    Parser.count 1 (varint n ++ b) = .ok n b := by
  refine bind_eq_ok.mpr ⟨_, _, reads_varint hn b, ?_⟩
  rw [get_bind_apply, UInt64.toNat_ofNat', Nat.mod_eq_of_lt hn, Nat.div_one,
    if_neg (Nat.not_lt.mpr hle)]
  rfl

/-! ## Names -/

lemma parseNames_flatMap (hvalid : ∀ name ∈ names, Utf8.Valid name)
    (hsize : ∀ name ∈ names, name.length < 2 ^ 64) (rest : Bytes) :
    parseNames names.length (names.flatMap bytesValue ++ rest) = .ok (names, rest) := by
  induction names with
  | nil => rfl
  | cons name names ih =>
    obtain ⟨hname, hvalid⟩ := forall_mem_cons.mp hvalid
    obtain ⟨hlt, hsize⟩ := forall_mem_cons.mp hsize
    rw [flatMap_cons, bytesValue, append_assoc, append_assoc, length_cons, parseNames,
      count_varint hlt (by simp)]
    have hok : utf8Valid name = true := decide_eq_true (Utf8.toValid_of_valid hname)
    dsimp only
    rw [take_left, drop_left, if_pos hok, ih hvalid hsize]
    rfl

lemma of_parseNames (h : parseNames n b = .ok (names, rest)) : names.length = n ∧
      ((∀ v ∈ lengthFields n b, Shortest v) ↔ b = names.flatMap bytesValue ++ rest) := by
  induction n generalizing b names with
  | zero =>
    cases h
    simp [lengthFields]
  | succ n ih =>
    rw [parseNames] at h
    split at h
    · cases h
    next size mid hcount =>
      obtain ⟨x, hx, rfl, hle⟩ := of_count hcount
      split at h
      on_goal 2 => cases h
      obtain ⟨⟨names, rest⟩, hnames, heq⟩ : ∃ q, parseNames n (mid.drop x.toNat) = .ok q ∧
          (mid.take x.toNat :: q.1, q.2) = (_, _) := by
        cases hq : parseNames n (mid.drop x.toNat) with
        | error err => rw [hq] at h; cases h
        | ok q => exact ⟨q, rfl, Except.ok.inj (hq ▸ h)⟩
      cases heq
      obtain ⟨hlen, hiff⟩ := ih hnames
      refine ⟨congrArg (· + 1) hlen, ?_⟩
      have htake : (mid.take x.toNat).length = x.toNat := length_take_of_le hle
      rw [lengthFields, hx, forall_mem_cons, shortest_iff hx, hiff, flatMap_cons, bytesValue, htake,
        append_assoc, append_assoc]
      constructor
      · rintro ⟨hb, hdrop⟩
        rw [← hdrop, take_append_drop]
        exact hb
      · intro hb
        have hmid := rest_eq_of_varint hx hb
        have hdrop := congrArg (drop x.toNat) hmid
        rw [drop_left' htake] at hdrop
        exact ⟨hb.trans (congrArg _ hmid.symm), hdrop⟩

lemma of_parseCollectionNames (h : parseCollectionNames b = .ok names) :
    (∀ v ∈ numberFields b, Shortest v) ↔
      b = collectionHeader ++ varint names.length ++ names.flatMap bytesValue := by
  unfold parseCollectionNames at h
  split at h
  on_goal 2 => cases h
  next hheader =>
    obtain ⟨tail, rfl⟩ : ∃ tail, b = collectionHeader ++ tail :=
      ⟨_, (take_append_drop collectionHeader.length b).symm.trans (by rw [hheader])⟩
    rw [drop_left] at h
    split at h
    · cases h
    next n rest hcount =>
      obtain ⟨x, hx, rfl, -⟩ := of_count hcount
      obtain ⟨⟨names, rest⟩, hnames, h⟩ := except_bind_eq_ok.mp h
      split at h
      on_goal 2 => cases h
      next hrest =>
        cases h
        obtain ⟨hlen, hiff⟩ := of_parseNames hnames
        obtain rfl : rest = [] := hrest
        rw [append_nil] at hiff
        dsimp only [numberFields]
        rw [drop_left, hx, hlen, append_assoc, append_cancel_left_eq, forall_mem_cons, shortest_iff hx,
          hiff]
        constructor
        · rintro ⟨hb, hmid⟩
          exact hb.trans (congrArg _ hmid)
        · intro hb
          have hmid := rest_eq_of_varint hx hb
          exact ⟨hb.trans (congrArg _ hmid.symm), hmid⟩

/-! ## Collections -/

lemma metadataBytes_eq (c : Collection) : c.metadataBytes = collectionHeader ++
    varint (c.entries.map (·.name)).length ++ (c.entries.map (·.name)).flatMap bytesValue := by
  rw [Collection.metadataBytes, length_map, flatMap_map]

/-- **A collection parses from what is made of it, and what was parsed is what is made of the collection
exactly if no number of the metadata is padded.**  The metadata of a collection is a Go slice, with fewer
than `2 ^ 63` bytes. -/
theorem parseCollection_spec (newHash : Bytes → Hash) :
    (∀ c : Collection, (∀ e ∈ c.entries, Utf8.Valid e.name) → c.metadataBytes.length < 2 ^ 63 →
      parseCollection newHash (c.hashSequence newHash) c.metadataBytes = .ok c) ∧
    ∀ seq metadata c, parseCollection newHash seq metadata = .ok c →
      (c.hashSequence newHash = seq ∧ c.metadataBytes = metadata ∧
          c.root newHash = newHash (seq.flatMap Vector.toList) ↔
        ∀ v ∈ numberFields metadata, Shortest v) := by
  constructor
  · intro c hvalid hsize
    have hnames : parseCollectionNames c.metadataBytes = .ok (c.entries.map (·.name)) := by
      have hflat : (c.entries.map (·.name)).length * 1 ≤
          ((c.entries.map (·.name)).flatMap bytesValue).length :=
        length_mul_le_flatMap fun name _ => by
          rw [bytesValue, length_append]
          exact (one_le_length_varint _).trans (Nat.le_add_right _ _)
      have hlen := congrArg length (metadataBytes_eq c)
      rw [length_append, length_append] at hlen
      have hshort : ∀ name ∈ c.entries.map (·.name), name.length < 2 ^ 64 := by
        intro name hname
        have hle := (sublist_flatten_of_mem (mem_map_of_mem (f := bytesValue) hname)).length_le
        rw [bytesValue, length_append, ← flatMap_def] at hle
        omega
      have hparse := parseNames_flatMap (forall_mem_map.mpr hvalid) hshort []
      rw [append_nil] at hparse
      rw [metadataBytes_eq, parseCollectionNames, append_assoc, take_left, if_pos rfl, drop_left,
        count_varint (by omega) (by omega)]
      dsimp only
      rw [hparse]
      rfl
    have hentries : ((c.entries.map (·.name)).zip (c.entries.map (·.hash))).map
        (fun p => (⟨p.1, p.2⟩ : CollectionEntry)) = c.entries := by
      rw [zip_map', map_map]
      exact map_id _
    unfold parseCollection Collection.hashSequence
    dsimp only
    rw [if_pos rfl, hnames]
    dsimp only [Except.bind]
    rw [hentries, if_pos (by simp)]
  · intro seq metadata c h
    cases seq with
    | nil => cases h
    | cons metaHash hashes =>
      rw [parseCollection] at h
      split at h
      on_goal 2 => cases h
      next hhash =>
        obtain ⟨names, hnames, h⟩ := except_bind_eq_ok.mp h
        split at h
        on_goal 2 => cases h
        next hcount =>
          cases h
          have hlen : names.length = hashes.length := Nat.succ.inj hcount
          have hname : ((names.zip hashes).map fun p => (⟨p.1, p.2⟩ : CollectionEntry)).map (·.name) =
              names := by
            rw [map_map]
            exact map_fst_zip hlen.le
          have hhashes : ((names.zip hashes).map fun p => (⟨p.1, p.2⟩ : CollectionEntry)).map (·.hash) =
              hashes := by
            rw [map_map]
            exact map_snd_zip hlen.ge
          rw [of_parseCollectionNames hnames]
          have hmeta := metadataBytes_eq ⟨(names.zip hashes).map fun p => ⟨p.1, p.2⟩⟩
          rw [hname] at hmeta
          constructor
          · rintro ⟨-, hsame, -⟩
            exact hsame.symm.trans hmeta
          · intro hspelled
            have hsame := hmeta.trans hspelled.symm
            have hseq : Collection.hashSequence newHash ⟨(names.zip hashes).map fun p => ⟨p.1, p.2⟩⟩ =
                metaHash :: hashes := by
              rw [Collection.hashSequence, hsame, hhash, hhashes]
            exact ⟨hseq, hsame, by rw [Collection.root, hseq]⟩

/-- The metadata of the empty collection, its count padded with a zero. -/
theorem padded_count_accepted :
    let padded := collectionHeader ++ [128, 0]
    (⟨[]⟩ : Collection).metadataBytes ≠ padded ∧
      ∀ newHash, parseCollection newHash [newHash padded] padded = .ok ⟨[]⟩ := by
  have hnames : parseCollectionNames (collectionHeader ++ [128, 0]) = .ok [] := by decide
  refine ⟨?_, fun newHash => ?_⟩
  · rw [Collection.metadataBytes, length_nil, Postcard.varint_small (by decide)]
    decide
  · rw [parseCollection, if_pos rfl, hnames]
    rfl

end Iroh.Blobs
