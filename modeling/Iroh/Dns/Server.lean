import Iroh.Common.Runs
import Iroh.Dns.Packets

/-!
# The records of the DNS server

Reference: `dnsserver/server.go` (`ServeHTTP`, `put`, `get`, `remove`, `expired`).

The store and its order are one list, the record stored least recently first.  Records are found by the text
of their label, while a packet belongs to the key that the label decodes to.  Labels that decode alike are
different places, so a key has one record only as long as its packets come under one label
(`one_record_iff_label_kept`).
-/

namespace Iroh.Dns

open List

def maxPUTSize : ℕ := 1104 - 32

def maxStoredPackets : ℕ := 10000

/-- `packetRetention`, in nanoseconds. -/
def packetRetention : ℤ := 7 * 24 * 3600 * 1000000000

structure StoredPacket where
  keyLabel : Bytes
  payload : Bytes
  packet : SignedPacket
  storedAt : ℤ
deriving DecidableEq

/-- The records.  Recorded is whether a packet was stored although a more recent one of its key was. -/
structure Server where
  records : List StoredPacket
  tookStale : Bool
deriving DecidableEq

def StoredPacket.expired (now : ℤ) (r : StoredPacket) : Bool := now - r.storedAt ≥ packetRetention

namespace Server

def new : Server := ⟨[], false⟩

def find? (s : Server) (keyLabel : Bytes) : Option StoredPacket := s.records.find? (·.keyLabel = keyLabel)

/-- `get`; an expired record is removed. -/
def get (s : Server) (now : ℤ) (keyLabel : Bytes) : Option Bytes × Server :=
  match s.find? keyLabel with
  | none => (none, s)
  | some stored =>
    if stored.expired now then (none, { s with records := s.records.erase stored })
    else (some stored.payload, s)

/-- What `put` leaves of the records before it adds one. -/
def makeRoom (now : ℤ) (records : List StoredPacket) : List StoredPacket :=
  let records := records.dropWhile (·.expired now)
  if records.length ≥ maxStoredPackets then records.tail else records

/-- `put`: the records with the new one, if it is taken. -/
def put (s : Server) (now : ℤ) (keyLabel payload : Bytes) (packet : SignedPacket) : Option Server :=
  let cutoff := (now - packetRetention) / 1000
  if cutoff > 0 ∧ packet.timestamp < cutoff then none
  else if (s.find? keyLabel).any (·.packet.moreRecentThan packet) then none
  else
    let records := s.records.filter (·.keyLabel ≠ keyLabel)
    some ⟨makeRoom now records ++ [⟨keyLabel, payload, packet, now⟩], s.tookStale ||
      s.records.any fun r => r.packet.publicKey = packet.publicKey && r.packet.moreRecentThan packet⟩

def trimPrefix (p s : Bytes) : Bytes := if p <+: s then s.drop p.length else s

def keyLabel? (path : Bytes) : Option Bytes :=
  let keyLabel := trimPrefix (ascii "pkarr/") (trimPrefix (ascii "/") path)
  if keyLabel = [] ∨ keyLabel.contains 47 then none else some keyLabel

def putPacket? (L : Lib) (path body : Bytes) : Option (Bytes × SignedPacket) := do
  let keyLabel ← keyLabel? path
  guard (body.length ≤ maxPUTSize)
  let packet ← L.packetFromRelayPayload keyLabel body
  return (keyLabel, packet)

end Server

/-- A request to `ServeHTTP` or a look at a label, with the reading of the clock. -/
inductive Action where
  | put (path body : Bytes) (now : ℤ)
  | get (keyLabel : Bytes) (now : ℤ)

def Action.now : Action → ℤ
  | .put _ _ now | .get _ now => now

namespace Server

def step (L : Lib) (s : Server) : Action → Server
  | .put path body now => ((putPacket? L path body).bind fun p => s.put now p.1 body p.2).getD s
  | .get keyLabel now => (s.get now keyLabel).2

def Good (s : Server) : Prop :=
  s.records.Pairwise (fun r r' => r.packet.publicKey ≠ r'.packet.publicKey) ∧ s.tookStale = false

/-- A PUT that is taken finds the record of its key, if there is one, under its own label; or it finds one
that is not more recent and that has to go. -/
def LabelKept (L : Lib) (s : Server) : Action → Prop
  | .put path body now => ∀ keyLabel packet, putPacket? L path body = some (keyLabel, packet) →
      (s.put now keyLabel body packet).isSome →
      ∀ r ∈ s.records, r.packet.publicKey = packet.publicKey → r.keyLabel ≠ keyLabel →
        r.packet.moreRecentThan packet = false ∧ r ∉ makeRoom now (s.records.filter (·.keyLabel ≠ keyLabel))
  | .get _ _ => True

/-! ## Places of the store -/

/-- A label has one record, which holds the packet of its payload. -/
structure Kept (L : Lib) (s : Server) : Prop where
  labels : (s.records.map StoredPacket.keyLabel).Nodup
  packets : ∀ r ∈ s.records, L.packetFromRelayPayload r.keyLabel r.payload = some r.packet

variable {L : Lib} {s s' : Server} {now : ℤ} {keyLabel payload : Bytes} {packet : SignedPacket}

/-- A record is found under its label: no other one has it. -/
theorem Kept.find? {r : StoredPacket} (h : s.Kept L) (hr : r ∈ s.records) : s.find? r.keyLabel = some r := by
  cases hfind : s.find? r.keyLabel with
  | none =>
    have hnone := find?_eq_none.mp hfind r hr
    simp at hnone
  | some r' =>
    have hlabel : r'.keyLabel = r.keyLabel := by simpa using find?_some hfind
    rw [inj_on_of_nodup_map h.labels (mem_of_find?_eq_some hfind) hr hlabel]

lemma sublist_makeRoom (now : ℤ) (records : List StoredPacket) : (makeRoom now records).Sublist records := by
  unfold makeRoom
  dsimp only
  split
  · exact (tail_sublist _).trans (dropWhile_sublist _)
  · exact dropWhile_sublist _

/-- What a PUT that is taken has been compared with, and what it leaves. -/
lemma put_eq_some (h : s.put now keyLabel payload packet = some s') :
    (s.find? keyLabel).any (·.packet.moreRecentThan packet) = false ∧
      s'.records =
        makeRoom now (s.records.filter (·.keyLabel ≠ keyLabel)) ++ [⟨keyLabel, payload, packet, now⟩] ∧
      (s'.tookStale = false ↔ s.tookStale = false ∧ ∀ r ∈ s.records, r.packet.publicKey = packet.publicKey →
        r.packet.moreRecentThan packet = false) := by
  unfold put at h
  dsimp only at h
  split at h
  · cases h
  split at h
  · cases h
  rename_i hold
  cases h
  refine ⟨by simpa using hold, rfl, ?_⟩
  simp

/-- A call leaves out records, or it is a PUT that is taken. -/
lemma step_cases (L : Lib) (s : Server) (a : Action) :
    (((s.step L a).records.Sublist s.records ∧ (s.step L a).tookStale = s.tookStale) ∧ s.LabelKept L a) ∨
      ∃ path body now keyLabel packet, a = .put path body now ∧
        putPacket? L path body = some (keyLabel, packet) ∧ s.put now keyLabel body packet = some (s.step L a) := by
  cases a with
  | get keyLabel now =>
    refine .inl ⟨?_, trivial⟩
    unfold step get
    dsimp only
    split
    · exact ⟨.refl _, rfl⟩
    · split
      · exact ⟨erase_sublist, rfl⟩
      · exact ⟨.refl _, rfl⟩
  | put path body now =>
    cases hp : putPacket? L path body with
    | none => exact .inl ⟨by simp [step, hp], by simp [LabelKept, hp]⟩
    | some p =>
      obtain ⟨keyLabel, packet⟩ := p
      cases hs : s.put now keyLabel body packet with
      | none =>
        refine .inl ⟨by simp [step, hp, hs], fun _ _ h h' => ?_⟩
        cases hp.symm.trans h
        simp [hs] at h'
      | some s' => exact .inr ⟨path, body, now, keyLabel, packet, rfl, hp, by simp [step, hp, hs]⟩

lemma packet_of_putPacket? (h : putPacket? L path body = some (keyLabel, packet)) :
    L.packetFromRelayPayload keyLabel body = some packet := by
  simp only [putPacket?, Option.bind_eq_bind, Option.bind_eq_some_iff] at h
  obtain ⟨_, -, _, -, p, hp, heq⟩ := h
  cases heq
  exact hp

lemma kept_step (a : Action) (h : s.Kept L) : (s.step L a).Kept L := by
  rcases step_cases L s a with ⟨⟨hsub, -⟩, -⟩ | ⟨path, body, now, keyLabel, packet, rfl, hp, hs⟩
  · exact ⟨h.labels.sublist (hsub.map _), fun r hr => h.packets r (hsub.subset hr)⟩
  · obtain ⟨-, hrecords, -⟩ := put_eq_some hs
    have hsub := sublist_makeRoom now (s.records.filter (·.keyLabel ≠ keyLabel))
    have hold := hsub.subset
    constructor
    · rw [hrecords, map_append, nodup_append_comm, map_singleton, singleton_append,
        nodup_cons, mem_map]
      refine ⟨?_, h.labels.sublist ((hsub.trans filter_sublist).map _)⟩
      rintro ⟨r, hr, hlabel⟩
      simpa [hlabel] using (mem_filter.mp (hold hr)).2
    · intro r hr
      rw [hrecords] at hr
      rcases mem_append.mp hr with hr | hr
      · exact h.packets r (mem_filter.mp (hold hr)).1
      · obtain rfl := mem_singleton.mp hr
        exact packet_of_putPacket? hp

lemma good_step_iff (a : Action) (h : s.Kept L) (hg : s.Good) : (s.step L a).Good ↔ s.LabelKept L a := by
  rcases step_cases L s a with ⟨⟨hsub, hstale⟩, hkept⟩ | ⟨path, body, now, keyLabel, packet, rfl, hp, hs⟩
  · exact iff_of_true ⟨hg.1.sublist hsub, hstale.trans hg.2⟩ hkept
  obtain ⟨hfind, hrecords, hstale⟩ := put_eq_some hs
  have hsub := sublist_makeRoom now (s.records.filter (·.keyLabel ≠ keyLabel))
  have hmem : ∀ r ∈ makeRoom now (s.records.filter (·.keyLabel ≠ keyLabel)), r ∈ s.records ∧ r.keyLabel ≠ keyLabel := fun r hr => by
    simpa using mem_filter.mp (hsub.subset hr)
  have hlabel : s.LabelKept L (.put path body now) ↔ ∀ r ∈ s.records, r.packet.publicKey = packet.publicKey →
      r.keyLabel ≠ keyLabel → r.packet.moreRecentThan packet = false ∧
        r ∉ makeRoom now (s.records.filter (·.keyLabel ≠ keyLabel)) := by
    constructor
    · exact fun hk => hk _ _ hp (by rw [hs]; rfl)
    · rintro hk _ _ hp' -
      cases hp.symm.trans hp'
      exact hk
  rw [hlabel, Good, hstale, hrecords, pairwise_append]
  constructor
  · rintro ⟨⟨-, -, hkeys⟩, -, hrecent⟩ r hr hkey hne
    exact ⟨hrecent r hr hkey, fun hk => hkeys r hk _ mem_cons_self hkey⟩
  · intro hk
    refine ⟨⟨hg.1.sublist (hsub.trans filter_sublist), pairwise_singleton _ _, ?_⟩, hg.2, fun r hr hkey => ?_⟩
    · rintro r hr r' hr' hkey
      obtain rfl := mem_singleton.mp hr'
      exact (hk r (hmem r hr).1 hkey (hmem r hr).2).2 hr
    · by_cases hl : r.keyLabel = keyLabel
      · -- the packet was compared with this record
        rw [← hl, h.find? hr] at hfind
        simpa using hfind
      · exact (hk r hr hkey hl).1

/-- **A key has one record, and only the most recent packet is taken, exactly when every PUT that is taken
comes under the label of its key's record**, or that record has to go. -/
theorem one_record_iff_label_kept (L : Lib) (as : List Action) :
    EachState (step L) Good new as ↔ EachStep (step L) (LabelKept L) new as :=
  eachState_iff_of_inv (Kept L) (fun _ a => kept_step a) (fun _ a => good_step_iff a) ⟨by simp [new], by simp [new]⟩
    ⟨.nil, rfl⟩ as

/-- **Every record is the packet that its payload signs for its label**, and no label has two. -/
theorem records_verified (L : Lib) (as : List Action) : EachState (step L) (Kept L) new as :=
  eachState_of_inv (Kept L) (fun _ a => kept_step a) ⟨by simp [new], by simp [new]⟩ as

/-! ## The order of the records -/

/-- The store is not over its limit, and no record has expired when one behind it was stored. -/
def Fresh (s : Server) : Prop :=
  s.records.length ≤ maxStoredPackets ∧
    s.records.Pairwise fun r r' => r.storedAt ≤ r'.storedAt ∧ r.expired r'.storedAt = false

lemma not_expired_of_mem_dropWhile {records : List StoredPacket}
    (h : records.Pairwise (·.storedAt ≤ ·.storedAt)) :
    ∀ r ∈ records.dropWhile (·.expired now), r.expired now = false := by
  induction h with
  | nil => simp
  | @cons first rest hle _ ih =>
    rw [dropWhile_cons]
    split
    · exact ih
    next hfirst =>
      have hlater : ∀ r : StoredPacket, first.storedAt ≤ r.storedAt → r.expired now = false := fun r hr => by
        simp only [StoredPacket.expired, decide_eq_true_eq, decide_eq_false_iff_not] at hfirst ⊢
        omega
      exact forall_mem_cons.mpr ⟨hlater _ le_rfl, fun r hr => hlater r (hle r hr)⟩

lemma fresh_put (h : s.Fresh) (hpast : ∀ r ∈ s.records, r.storedAt ≤ now)
    (hput : s.put now keyLabel payload packet = some s') :
    s'.Fresh ∧ ∀ r ∈ s'.records, r ∈ s.records ∨ r.storedAt = now := by
  unfold put at hput
  simp only [Option.ite_none_left_eq_some, Option.some.injEq] at hput
  obtain ⟨-, -, rfl⟩ := hput
  have hsub := filter_sublist (p := (·.keyLabel ≠ keyLabel)) (l := s.records)
  have hpairs := h.2.sublist hsub
  have hlength := hsub.length_le.trans h.1
  generalize s.records.filter (·.keyLabel ≠ keyLabel) = records at hsub hpairs hlength
  have hroom : (makeRoom now records).Sublist records := sublist_makeRoom _ records
  have hmem : ∀ r ∈ makeRoom now records, r ∈ s.records := fun r hr => hsub.subset (hroom.subset hr)
  have hdropped : ∀ r ∈ records.dropWhile (·.expired now), r.expired now = false :=
    not_expired_of_mem_dropWhile (hpairs.imp And.left)
  refine ⟨⟨?_, pairwise_append.mpr ⟨hpairs.sublist hroom, pairwise_singleton _ _, ?_⟩⟩, ?_⟩
  · -- one of the oldest goes where the store is full
    have hle := (dropWhile_sublist (l := records) (·.expired now)).length_le
    have hpos : 0 < maxStoredPackets := by decide
    simp only [makeRoom, length_append, length_singleton]
    split
    · rw [length_tail]
      omega
    · omega
  · intro r hr r' hr'
    obtain rfl := mem_singleton.mp hr'
    refine ⟨hpast r (hmem r hr), hdropped r ?_⟩
    unfold makeRoom at hr
    dsimp only at hr
    split at hr
    · exact mem_of_mem_tail hr
    · exact hr
  · intro r hr
    rcases mem_append.mp hr with hr | hr
    · exact .inl (hmem r hr)
    · exact .inr (congrArg StoredPacket.storedAt (mem_singleton.mp hr))

lemma fresh_step (a : Action) (h : s.Fresh) (hpast : ∀ r ∈ s.records, r.storedAt ≤ a.now) :
    (s.step L a).Fresh ∧ ∀ r ∈ (s.step L a).records, r ∈ s.records ∨ r.storedAt = a.now := by
  rcases step_cases L s a with ⟨⟨hsub, -⟩, -⟩ | ⟨path, body, now, keyLabel, packet, rfl, -, hs⟩
  · exact ⟨⟨hsub.length_le.trans h.1, h.2.sublist hsub⟩, fun r hr => .inl (hsub.subset hr)⟩
  · exact fresh_put h hpast hs

lemma fresh_run (as : List Action) (h : s.Fresh) (hpast : ∀ r ∈ s.records, ∀ a ∈ as, r.storedAt ≤ a.now)
    (hclock : as.Pairwise (·.now ≤ ·.now)) : (as.foldl (step L) s).Fresh := by
  induction as generalizing s with
  | nil => exact h
  | cons a as ih =>
    obtain ⟨hfirst, hrest⟩ := pairwise_cons.mp hclock
    obtain ⟨hfresh, hnew⟩ := fresh_step (L := L) a h fun r hr => hpast r hr a mem_cons_self
    refine ih hfresh (fun r hr b hb => ?_) hrest
    rcases hnew r hr with hold | hnow
    · exact hpast r hold b (mem_cons_of_mem _ hb)
    · exact hnow.trans_le (hfirst b hb)

/-- **Expired records go, and the store is bounded**: unless the clock goes back, the records are in the order
of their times, and none is left that had expired when a later one was stored. -/
theorem records_in_order (L : Lib) (as : List Action) (hclock : as.Pairwise (·.now ≤ ·.now)) :
    EachState (step L) Fresh new as := by
  intro pre hpre
  exact fresh_run pre ⟨Nat.zero_le _, .nil⟩ (by simp [new]) (hclock.sublist hpre.sublist)

/-- A library that takes every key and signature, and reads an empty message everywhere. -/
def anyLib : Lib := ⟨fun _ => true, fun _ _ _ => true, fun _ => some ⟨0, true, false, false, 0, [], []⟩⟩

def payloadAt (timestamp : UInt8) : Bytes := replicate 71 0 ++ [timestamp]

/-- The second packet comes when the first one has expired, which goes. -/
theorem records_in_order_put_expired :
    let as : List Action := [.put (replicate 52 121) (payloadAt 2) 0,
      .put (121 :: replicate 51 98) (payloadAt 3) packetRetention, .get (replicate 52 121) packetRetention]
    ((as.foldl (step anyLib) new).records.map StoredPacket.storedAt) = [packetRetention] ∧
      EachState (step anyLib) Fresh new as :=
  ⟨by decide +kernel, records_in_order anyLib _ (by simp [Action.now, packetRetention])⟩

/-- An older packet is put under the same label with a line break. -/
theorem two_records_of_one_key :
    let label : Bytes := replicate 52 121
    let s := [.put label (payloadAt 2) 0, .put (label ++ [10]) (payloadAt 1) 0].foldl (step anyLib) new
    (s.records.map fun r => (r.packet.publicKey, r.packet.timestamp)) =
      [(Vector.replicate 32 0, 2), (Vector.replicate 32 0, 1)] ∧ s.tookStale = true ∧ ¬s.Good := by
  have hrun : ([.put (replicate 52 121) (payloadAt 2) 0, .put (replicate 52 121 ++ [10]) (payloadAt 1)
      0].foldl (step anyLib) new).tookStale = true := by decide
  exact ⟨by decide, hrun, fun h => Bool.false_ne_true (h.2.symm.trans hrun)⟩

end Server

end Iroh.Dns
