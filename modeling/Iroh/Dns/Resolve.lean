import Iroh.Dns.Server

/-!
# What DNS resolves

Reference: `dnsserver/server.go` (`ServeDNSPacket`, `lookupTXT`, `keyLabelFromQuery`), `dns/doh.go`
(`packTXTQuery`, `unpackTXTResponse`).

The server answers with one TXT record that has every value of the packet as a character-string, and the
client takes the strings of a record for one value.
-/

namespace Iroh.Dns

open List

inductive DnsError where
  | badName
  | pack
  | parseQuestion
  | noTXTAnswers
deriving DecidableEq

def packableName (name : Bytes) : Prop :=
  name.getLast? = some 46 ∧ (name = [46] ∨ ∀ label ∈ name.dropLast.splitOn 46, 0 < label.length ∧ label.length ≤ 63)

instance (name : Bytes) : Decidable (packableName name) := inferInstanceAs (Decidable (_ ∧ _))

def Message.pack (m : Message) : Except DnsError Message :=
  if (∀ q ∈ m.questions, packableName q.name) ∧
      ∀ r ∈ m.answers, packableName r.name ∧ ∀ string ∈ r.txt, string.length ≤ 255 then .ok m
  else .error .pack

def ensureTrailingDot (name : Bytes) : Bytes := if name.getLast? = some 46 then name else name ++ [46]

def packTXTQuery (name : Bytes) : Except DnsError Message :=
  let dnsName := ensureTrailingDot name
  if dnsName.length > 255 then .error .badName
  else Message.pack ⟨0, false, false, true, 0, [⟨dnsName, typeTXT, classINET⟩], []⟩

def unpackTXTResponse (m : Message) : Except DnsError (List Bytes) :=
  let out := m.txtAnswers.map Prod.snd
  if out = [] then .error .noTXTAnswers else .ok out

def irohTXTName : Bytes := ascii "_iroh"

/-- `keyLabelFromQuery`: the label after `_iroh`. -/
def keyLabelFromQuery (name : Bytes) : Option Bytes :=
  let name := SignedPacket.trimDot name
  match name.dropWhile (· ≠ 46) with
  | _ :: rest => if name.takeWhile (· ≠ 46) = irohTXTName then some (rest.takeWhile (· ≠ 46)) else none
  | [] => none

namespace Server

def lookupTXT (L : Lib) (s : Server) (now : ℤ) (q : Question) : Option (List Bytes) := do
  guard (q.type = typeTXT ∧ q.cls = classINET)
  let keyLabel ← keyLabelFromQuery q.name
  let payload ← (s.get now keyLabel).1
  let packet ← L.packetFromRelayPayload keyLabel payload
  let txt := packet.txtRecords L irohTXTName
  guard (txt ≠ [])
  return txt

def serveDNSPacket (L : Lib) (s : Server) (now : ℤ) (msg : Message) : Except DnsError Message :=
  match msg.questions with
  | [] => .error .parseQuestion
  | q :: _ =>
    let txt := s.lookupTXT L now q
    Message.pack ⟨msg.id, true, true, false, if txt = none ∧ q.type = typeTXT then 3 else 0, [q],
      txt.toList.map fun txt => ⟨q.name, typeTXT, classINET, 30, txt⟩⟩

def resolve (L : Lib) (s : Server) (now : ℤ) (query : Message) : Except DnsError (List Bytes) :=
  s.serveDNSPacket L now query >>= unpackTXTResponse

end Server

def irohName (keyLabel origin : Bytes) : Bytes := irohTXTName ++ 46 :: (keyLabel ++ 46 :: origin)

lemma dot_notMem_of_decode (h : decodeZBase32 s = some b) : 46 ∉ s := by
  intro hdot
  unfold decodeZBase32 at h
  dsimp only at h
  split at h
  next hall =>
    have hin := all_eq_true.mp hall 46 (mem_filter.mpr ⟨hdot, by decide⟩)
    exact absurd hin (by decide)
  · cases h

lemma trimDot_irohName (keyLabel origin : Bytes) : ∃ tail : Bytes, tail.takeWhile (· ≠ 46) = [] ∧
    SignedPacket.trimDot (ensureTrailingDot (irohName keyLabel origin)) = irohTXTName ++ 46 :: (keyLabel ++ tail) := by
  unfold ensureTrailingDot SignedPacket.trimDot
  by_cases hdot : (irohName keyLabel origin).getLast? = some 46
  · refine ⟨(46 :: origin).dropLast, by cases origin <;> simp, ?_⟩
    rw [if_pos hdot, if_pos hdot, irohName, ← cons_append, ← append_assoc, dropLast_append_of_ne_nil
      (by simp), append_assoc, cons_append]
  · refine ⟨46 :: origin, by simp, ?_⟩
    rw [if_neg hdot, if_pos (by simp), dropLast_concat, irohName]

lemma keyLabelFromQuery_irohName (h : 46 ∉ keyLabel) (origin : Bytes) :
    keyLabelFromQuery (ensureTrailingDot (irohName keyLabel origin)) = some keyLabel := by
  obtain ⟨tail, htail, hname⟩ := trimDot_irohName keyLabel origin
  have hiroh : irohTXTName = [95, 105, 114, 111, 104] := by decide
  have hlabel : (keyLabel ++ tail).takeWhile (· ≠ 46) = keyLabel := by
    rw [takeWhile_append_of_pos (by grind), htail, append_nil]
  unfold keyLabelFromQuery
  rw [hname, hiroh]
  simpa using hlabel

/-! ## The answer -/

lemma lookupTXT_irohName {s : Server} (hkept : s.Kept L) (hr : r ∈ s.records)
    (hstored : r.expired now = false) (origin : Bytes) :
    s.lookupTXT L now ⟨ensureTrailingDot (irohName r.keyLabel origin), typeTXT, classINET⟩ =
      if r.packet.txtRecords L irohTXTName = [] then none else some (r.packet.txtRecords L irohTXTName) := by
  have hpacket := hkept.packets r hr
  obtain ⟨id, hid, -⟩ := Option.bind_eq_some_iff.mp hpacket
  obtain ⟨b, hb, -⟩ := Option.bind_eq_some_iff.mp hid
  have hget : (s.get now r.keyLabel).1 = some r.payload := by
    simp [Server.get, hkept.find? hr, hstored]
  unfold Server.lookupTXT
  rw [keyLabelFromQuery_irohName (dot_notMem_of_decode hb)]
  by_cases htxt : r.packet.txtRecords L irohTXTName = [] <;> simp [hget, hpacket, htxt]

/-- Joining its values leaves a list as it is exactly if there is one. -/
theorem eq_flatten_iff {α : Type*} {l : List (List α)} : [l.flatten] = l ↔ ∃ v, l = [v] := by
  constructor
  · intro h
    exact ⟨_, h.symm⟩
  · rintro ⟨v, rfl⟩
    simp

/-- **A stored packet resolves to its values exactly when it has one, of at most 255 bytes.** -/
theorem resolves_iff_one_short_value (L : Lib) (as : List Action) (r : StoredPacket)
    (hr : r ∈ (as.foldl (Server.step L) .new).records) (now : ℤ) (hstored : r.expired now = false) (origin : Bytes)
    (query : Message) (hquery : packTXTQuery (irohName r.keyLabel origin) = .ok query) :
    (as.foldl (Server.step L) .new).resolve L now query = .ok (r.packet.txtRecords L irohTXTName) ↔
      ∃ v, r.packet.txtRecords L irohTXTName = [v] ∧ v.length ≤ 255 := by
  have hkept : (as.foldl (Server.step L) .new).Kept L :=
    eachState_of_inv (Server.Kept L) (fun _ a => Server.kept_step a) ⟨by simp [Server.new], by simp [Server.new]⟩ as
      as prefix_rfl
  generalize as.foldl (Server.step L) .new = s at hr hkept ⊢
  generalize htxt : r.packet.txtRecords L irohTXTName = txt
  have hlookup := lookupTXT_irohName hkept hr hstored origin
  rw [htxt] at hlookup
  -- the name was packed in the query
  unfold packTXTQuery Message.pack at hquery
  dsimp only at hquery
  split at hquery
  · cases hquery
  split at hquery
  swap
  · cases hquery
  rename_i hpack
  obtain rfl := Except.ok.inj hquery
  have hname := hpack.1 _ mem_cons_self
  rw [Server.resolve, Server.serveDNSPacket]
  dsimp only
  rw [hlookup]
  by_cases hnil : txt = []
  · rw [if_pos hnil, Message.pack, if_pos ⟨by simpa using hname, by simp⟩, hnil]
    exact iff_of_false (by rintro ⟨⟩) (by simp)
  rw [if_neg hnil, Message.pack]
  by_cases hshort : ∀ v ∈ txt, v.length ≤ 255
  · rw [if_pos ⟨by simpa using hname, by simpa using ⟨hname, hshort⟩⟩]
    show Except.ok [txt.flatten] = Except.ok txt ↔ _
    rw [Except.ok.injEq, eq_flatten_iff]
    refine exists_congr fun v => (and_iff_left_of_imp ?_).symm
    rintro rfl
    exact hshort v mem_cons_self
  · rw [if_neg fun h => hshort (h.2 _ mem_cons_self).2]
    refine iff_of_false (by rintro ⟨⟩) ?_
    rintro ⟨v, rfl, hv⟩
    exact hshort (by simpa using hv)

/-- A message with the TXT records `a` and `b`. -/
def wire : Bytes :=
  [0, 0, 128, 0, 0, 0, 0, 2, 0, 0, 0, 0, 5] ++ irohTXTName ++ 52 :: replicate 52 121 ++
    [0, 0, 16, 0, 1, 0, 0, 0, 30, 0, 2, 1, 97, 192, 12, 0, 16, 0, 1, 0, 0, 0, 30, 0, 2, 1, 98]

/-- Ed25519 takes this signature of `wire` at time 1 for the key of zeros, a point of order 4. -/
def wireSig : Bytes := 88 :: replicate 31 102 ++ 1 :: replicate 31 0

def twoValues : Lib where
  valid := (· = Vector.replicate 32 0)
  verify := fun _ m sig => m = signable 1 wire ∧ sig = wireSig
  unpack := fun b => if b = wire then some ⟨0, true, false, false, 0, [], [[97], [98]].map fun v =>
    ⟨irohName (replicate 52 121) [], typeTXT, classINET, 30, [v]⟩⟩ else none

def stored : StoredPacket :=
  ⟨replicate 52 121, wireSig ++ [0, 0, 0, 0, 0, 0, 0, 1] ++ wire,
    ⟨Vector.replicate 32 0, wireSig, 1, wire⟩, 0⟩

def queryStored : Message :=
  ⟨0, false, false, true, 0, [⟨irohName stored.keyLabel [], typeTXT, classINET⟩], []⟩

theorem resolves_iff_one_short_value_two :
    let s := [.put stored.keyLabel stored.payload 0].foldl (Server.step twoValues) .new
    stored ∈ s.records ∧ (s.resolve twoValues 0 queryStored = .ok (stored.packet.txtRecords twoValues irohTXTName) ↔
      ∃ v, stored.packet.txtRecords twoValues irohTXTName = [v] ∧ v.length ≤ 255) := by
  have hmem : stored ∈ ([.put stored.keyLabel stored.payload 0].foldl (Server.step twoValues) .new).records := by
    decide +kernel
  exact ⟨hmem, resolves_iff_one_short_value twoValues _ stored hmem 0 (by decide) [] queryStored
    (by decide)⟩

/-- Two values are resolved as one. -/
theorem two_values_joined :
    let s := [.put stored.keyLabel stored.payload 0].foldl (Server.step twoValues) .new
    stored ∈ s.records ∧ packTXTQuery (irohName stored.keyLabel []) = .ok queryStored ∧
      stored.packet.txtRecords twoValues irohTXTName = [[97], [98]] ∧
      s.resolve twoValues 0 queryStored = .ok [[97, 98]] := by
  decide +kernel

end Iroh.Dns
