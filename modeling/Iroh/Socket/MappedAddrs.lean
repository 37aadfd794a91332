import Iroh.Common.Runs
import Iroh.Socket.RelayActor

/-!
# Relay mapped addresses

Reference: `internal/socket/mappedaddrs.go` (`AddrMap`), `internal/socket/socket.go`
(`RelayMappedAddrFor`, `LookupRelay`, `EvictRemote`).

QUIC sees an address that stands for a relay and the endpoint behind it.  A pair gets an address when it is
first used, and another one when it is used again after it was forgotten: addresses come from a counter.
A pair is forgotten when its remote is evicted, or when the table is full and it was used longest ago.
-/

namespace Iroh.Socket

open List

/-- `AddrMap`: `rev` is the inverse of `fwd`, and addresses from `next` on are unused. -/
structure AddrMap (κ : Type) [DecidableEq κ] where
  fwd : GoMap κ ℕ
  rev : GoMap ℕ κ
  next : ℕ
  inverse : ∀ k v, rev.get? v = some k ↔ fwd.get? k = some v
  fresh : ∀ k v, fwd.get? k = some v → v < next

namespace AddrMap

variable {κ : Type} [DecidableEq κ]

def new : AddrMap κ := ⟨.empty, .empty, 0, by simp, by simp⟩

def generate (m : AddrMap κ) (k : κ) (h : m.fwd.get? k = none) : AddrMap κ where
  fwd := m.fwd.set k m.next
  rev := m.rev.set m.next k
  next := m.next + 1
  inverse := by
    intro k' v
    rw [GoMap.get?_set, GoMap.get?_set]
    by_cases hk : k' = k
    · subst hk
      have hnot : m.rev.get? v ≠ some k' := by rw [Ne, m.inverse, h]; simp
      by_cases hv : v = m.next
      · simp [hv]
      · simp [hv, hnot, Ne.symm hv]
    · have hnot : m.fwd.get? k' ≠ some m.next := fun hk' => Nat.lt_irrefl _ (m.fresh _ _ hk')
      by_cases hv : v = m.next
      · simp [hv, hk, hnot, Ne.symm hk]
      · simp [hv, hk, m.inverse]
  fresh := by
    intro k' v hv
    rw [GoMap.get?_set] at hv
    split at hv
    · rw [← Option.some.inj hv]
      exact Nat.lt_succ_self _
    · exact Nat.lt_succ_of_lt (m.fresh k' v hv)

def get (m : AddrMap κ) (k : κ) : ℕ × AddrMap κ :=
  match h : m.fwd.get? k with
  | some v => (v, m)
  | none => (m.next, m.generate k h)

def delete (m : AddrMap κ) (k : κ) (v : ℕ) (h : m.fwd.get? k = some v) : AddrMap κ where
  fwd := m.fwd.delete k
  rev := m.rev.delete v
  next := m.next
  inverse := by
    intro k' v'
    rw [GoMap.get?_delete, GoMap.get?_delete]
    have hrev := (m.inverse k v).mpr h
    by_cases hk : k' = k
    · subst hk
      by_cases hv : v' = v
      · simp [hv]
      · simp [hv, m.inverse, h, Ne.symm hv]
    · by_cases hv : v' = v
      · subst hv
        simp [hk, ← m.inverse, hrev, Ne.symm hk]
      · simp [hk, hv, m.inverse]
  fresh := by
    intro k' v' hv
    rw [GoMap.get?_delete] at hv
    split at hv
    · cases hv
    · exact m.fresh k' v' hv

def remove (m : AddrMap κ) (k : κ) : AddrMap κ :=
  match h : m.fwd.get? k with
  | none => m
  | some v => m.delete k v h

lemma get_of_some {m : AddrMap κ} (h : m.fwd.get? k = some v) : m.get k = (v, m) := by
  unfold get
  split
  next v' hv =>
    rw [h, Option.some.injEq] at hv
    rw [hv]
  next hnone => cases h.symm.trans hnone

lemma get?_get (m : AddrMap κ) (k k' : κ) :
    (m.get k).2.fwd.get? k' = if k' = k then some (m.get k).1 else m.fwd.get? k' := by
  unfold get
  split
  next v hv =>
    split
    next hk => rw [hk, hv]
    · rfl
  · exact GoMap.get?_set _ _ _ _

lemma get?_remove (m : AddrMap κ) (k k' : κ) :
    (m.remove k).fwd.get? k' = if k' = k then none else m.fwd.get? k' := by
  unfold remove
  split
  next hnone =>
    split
    next hk => rw [hk, hnone]
    · rfl
  · exact GoMap.get?_delete _ _ _

/-- The address is given out, and nothing but `k` has it. -/
def Belongs (m : AddrMap κ) (v : ℕ) (k : κ) : Prop := v < m.next ∧ ∀ k', m.fwd.get? k' = some v → k' = k

variable {m : AddrMap κ} {v : ℕ} {k : κ}

lemma belongs_of_get? (h : m.fwd.get? k = some v) : m.Belongs v k := by
  refine ⟨m.fresh k v h, fun k' hk' => ?_⟩
  exact Option.some.inj (((m.inverse k' v).mpr hk').symm.trans ((m.inverse k v).mpr h))

lemma Belongs.remove (h : m.Belongs v k) (k₀ : κ) : (m.remove k₀).Belongs v k := by
  refine ⟨?_, fun k' hk' => ?_⟩
  · unfold AddrMap.remove
    split
    · exact h.1
    · exact h.1
  · rw [get?_remove] at hk'
    exact h.2 k' (Option.ite_none_left_eq_some.mp hk').2

lemma Belongs.get (h : m.Belongs v k) (k₀ : κ) : (m.get k₀).2.Belongs v k := by
  unfold AddrMap.get
  split
  · exact h
  · refine ⟨Nat.lt_succ_of_lt h.1, fun k' hk' => ?_⟩
    rcases GoMap.of_get?_set hk' with ⟨-, hv⟩ | ⟨-, hold⟩
    · exact absurd hv h.1.ne
    · exact h.2 k' hold

end AddrMap

abbrev RelayKey := RelayURL × EndpointID

def maxRelayAddrs : ℕ := 4096

/-- The relay mapped addresses of a `Socket`.  `heard` has the entries of `relayByKey` in the order of the
recency list, and these are the pairs that have an address. -/
structure RelayTable where
  heard : List RelayKey
  relayAddrs : AddrMap RelayKey
  listed : ∀ k, k ∈ heard ↔ ∃ v, relayAddrs.fwd.get? k = some v

namespace RelayTable

def addr? (t : RelayTable) (k : RelayKey) : Option ℕ := t.relayAddrs.fwd.get? k

def new : RelayTable := ⟨[], .new, by simp [AddrMap.new]⟩

def relayForget (t : RelayTable) (k : RelayKey) : RelayTable where
  heard := t.heard.filter (· ≠ k)
  relayAddrs := t.relayAddrs.remove k
  listed := by
    intro k'
    rw [mem_filter, AddrMap.get?_remove, decide_eq_true_eq, t.listed]
    by_cases hk : k' = k
    · simp [hk]
    · simp [hk]

def pushedOut (t : RelayTable) (k : RelayKey) : Option RelayKey :=
  if k ∈ t.heard ∨ t.heard.length < maxRelayAddrs then none else t.heard.getLast?

def use (t : RelayTable) (k : RelayKey) : ℕ × RelayTable :=
  ((t.relayAddrs.get k).1, {
    heard := k :: t.heard.filter (· ≠ k)
    relayAddrs := (t.relayAddrs.get k).2
    listed := by
      intro k'
      rw [mem_cons, mem_filter, AddrMap.get?_get, decide_eq_true_eq, t.listed]
      by_cases hk : k' = k
      · simp [hk]
      · simp [hk] })

def relayMappedAddrFor (t : RelayTable) (k : RelayKey) : ℕ × RelayTable :=
  match t.pushedOut k with
  | some oldest => (t.relayForget oldest).use k
  | none => t.use k

def lookupRelay (t : RelayTable) (m : ℕ) : Option RelayKey :=
  match t.relayAddrs.rev.get? m with
  | some k => if k ∈ t.heard then some k else none
  | none => none

def evictRemote (t : RelayTable) (id : EndpointID) : RelayTable :=
  (t.heard.filter (·.2 = id)).foldl relayForget t

variable {t : RelayTable} {k : RelayKey} {m : ℕ}

lemma addr?_relayForget (t : RelayTable) (k k' : RelayKey) :
    (t.relayForget k).addr? k' = if k' = k then none else t.addr? k' :=
  AddrMap.get?_remove _ _ _

lemma addr?_use (t : RelayTable) (k k' : RelayKey) :
    (t.use k).2.addr? k' = if k' = k then some (t.use k).1 else t.addr? k' :=
  AddrMap.get?_get _ _ _

lemma addr?_relayMappedAddrFor (t : RelayTable) (k k' : RelayKey) :
    (t.relayMappedAddrFor k).2.addr? k' = if k' = k then some (t.relayMappedAddrFor k).1
      else if t.pushedOut k = some k' then none else t.addr? k' := by
  unfold relayMappedAddrFor
  cases hout : t.pushedOut k with
  | none => simp [addr?_use]
  | some oldest => simp [addr?_use, addr?_relayForget, eq_comm]

lemma pushedOut_of_mem (h : k ∈ t.heard) : t.pushedOut k = none := if_pos (.inl h)

lemma addr?_evictRemote (t : RelayTable) (id : EndpointID) (k : RelayKey) :
    (t.evictRemote id).addr? k = if k.2 = id then none else t.addr? k := by
  have hfold : ∀ (l : List RelayKey) (t : RelayTable),
      (l.foldl relayForget t).addr? k = if k ∈ l then none else t.addr? k := by
    intro l
    induction l with
    | nil => exact fun t => rfl
    | cons k' l ih =>
      intro t
      rw [foldl_cons, ih, addr?_relayForget]
      by_cases hk : k = k'
      · simp [hk]
      · simp [hk]
  rw [evictRemote, hfold]
  by_cases hid : k.2 = id
  · by_cases hk : k ∈ t.heard
    · simp [hk]
    · have hnone : t.addr? k = none := by
        rw [t.listed, ← Option.isSome_iff_exists, Bool.not_eq_true, Option.isSome_eq_false_iff] at hk
        exact Option.isNone_iff_eq_none.mp hk
      simp [hid, hnone]
  · simp [hid]

/-- **When a mapped address stands for a pair, both ways.** -/
theorem mapped_iff_addr? : (t.lookupRelay m = some k ∧ (t.relayMappedAddrFor k).1 = m) ↔
    t.addr? k = some m := by
  have hlookup : t.lookupRelay m = some k ↔ t.addr? k = some m := by
    unfold lookupRelay
    rw [addr?, ← t.relayAddrs.inverse]
    cases hrev : t.relayAddrs.rev.get? m with
    | none => simp
    | some k' =>
      have hmem : k' ∈ t.heard := (t.listed k').mpr ⟨m, (t.relayAddrs.inverse k' m).mp hrev⟩
      simp [hmem]
  rw [hlookup, and_iff_left_iff_imp]
  intro h
  rw [relayMappedAddrFor, pushedOut_of_mem ((t.listed k).mpr ⟨m, h⟩)]
  exact congrArg Prod.fst (AddrMap.get_of_some h)

/-! ## Runs -/

inductive Action where
  | relayMappedAddrFor (k : RelayKey)
  | evictRemote (id : EndpointID)

def step (t : RelayTable) : Action → RelayTable
  | .relayMappedAddrFor k => (t.relayMappedAddrFor k).2
  | .evictRemote id => t.evictRemote id

lemma length_filter_lt (h : k ∈ t.heard) : (t.heard.filter (· ≠ k)).length < t.heard.length :=
  length_filter_lt_length_iff_exists.mpr ⟨k, h, by simp⟩

lemma length_relayMappedAddrFor (h : t.heard.length ≤ maxRelayAddrs) :
    (t.relayMappedAddrFor k).2.heard.length ≤ maxRelayAddrs := by
  unfold relayMappedAddrFor pushedOut
  split
  next oldest hout =>
    obtain ⟨-, hlast⟩ := Option.ite_none_left_eq_some.mp hout
    have hgone := length_filter_lt (mem_of_getLast? hlast)
    exact ((length_filter_le _ _).trans_lt hgone).trans_le h
  next hout =>
    by_cases hk : k ∈ t.heard
    · exact (length_filter_lt hk).trans_le h
    · refine Nat.succ_le_of_lt ((length_filter_le _ _).trans_lt ?_)
      by_contra hfull
      have hempty := (if_neg (by simp [hk, hfull])).symm.trans hout
      rw [getLast?_eq_none_iff.mp hempty] at hfull
      exact hfull (by decide)

lemma length_step (h : t.heard.length ≤ maxRelayAddrs) (a : Action) :
    (t.step a).heard.length ≤ maxRelayAddrs := by
  cases a with
  | relayMappedAddrFor k₀ => exact length_relayMappedAddrFor h
  | evictRemote id =>
    refine foldlRecOn (motive := fun t : RelayTable => t.heard.length ≤ maxRelayAddrs) _ _ h ?_
    exact fun t h k₀ _ => (length_filter_le _ _).trans h

lemma belongs_step (h : t.relayAddrs.Belongs m k) (a : Action) : (t.step a).relayAddrs.Belongs m k := by
  cases a with
  | evictRemote id =>
    exact foldlRecOn (motive := fun t : RelayTable => t.relayAddrs.Belongs m k) _ _ h fun _ h k₀ _ =>
      h.remove k₀
  | relayMappedAddrFor k₀ =>
    unfold step relayMappedAddrFor
    dsimp only
    split
    next oldest _ => exact (h.remove oldest).get k₀
    · exact h.get k₀

lemma addr?_of_lookupRelay (h : t.lookupRelay m = some k) : t.addr? k = some m := by
  unfold lookupRelay at h
  split at h
  next k' hrev =>
    cases (Option.ite_none_right_eq_some.mp h).2
    exact (t.relayAddrs.inverse k m).mp hrev
  · cases h

/-- **The table is bounded, and an address never stands for two pairs**, not even after the first was
forgotten. -/
theorem mapped_address_never_moves (as bs : List Action) (m : ℕ) (k k' : RelayKey) :
    let t := as.foldl step new
    t.heard.length ≤ maxRelayAddrs ∧
      (t.lookupRelay m = some k → (bs.foldl step t).lookupRelay m = some k' → k' = k) := by
  constructor
  · refine eachState_of_inv (fun t : RelayTable => t.heard.length ≤ maxRelayAddrs) (fun t a h => ?_)
      (Nat.zero_le _) as as prefix_rfl
    exact length_step h a
  · intro hk hk'
    have hrun := eachState_of_inv (fun t : RelayTable => t.relayAddrs.Belongs m k)
      (fun _ a h => belongs_step h a) (AddrMap.belongs_of_get? (addr?_of_lookupRelay hk)) bs bs prefix_rfl
    exact hrun.2 k' (addr?_of_lookupRelay hk')

end RelayTable

end Iroh.Socket
