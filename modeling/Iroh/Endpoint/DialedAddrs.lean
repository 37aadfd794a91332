import Iroh.Socket.MappedAddrs

/-!
# The addresses that are dialled

Reference: `iroh/endpoint.go` (`dialTargets`, `registerConn`), `internal/socket/remotemap.go` (`actor`,
`AddConnectionActor`), `internal/socket/remote_state.go` (`run`).

A dial has its mapped address from `dialTargets`, and counts for the remote's actor only when
`registerConn` has run after the handshake.  An actor without connections exits when it has been idle, and
its `onExit` evicts the remote's addresses, those of a dial in its handshake too.
-/

namespace Iroh.Endpoint

open Socket List

inductive ConnStage where
  | handshake
  | registered
  | closed
deriving DecidableEq

/-- A connection; `target` is the relay and the mapped address that it was dialled to, if any. -/
structure DialedConn where
  id : EndpointID
  target : Option (RelayURL × ℕ)
  stage : ConnStage
deriving DecidableEq

/-- The mapped addresses, the connections, and the places of those that each actor has. -/
structure Dials where
  table : RelayTable
  conns : List DialedConn
  actors : GoMap EndpointID (List ℕ)

namespace Dials

def new : Dials := ⟨.new, [], .empty⟩

inductive Action where
  /-- `dialTargets` gets an address for a relay of the remote, which is dialled. -/
  | dial (url : RelayURL) (id : EndpointID)
  /-- A connection without a relay mapped address is dialled or comes in. -/
  | connect (id : EndpointID)
  /-- A datagram is received from a relay, or a connection gets a fallback. -/
  | hear (url : RelayURL) (id : EndpointID)
  /-- `registerConn`. -/
  | register (k : ℕ)
  | close (k : ℕ)
  | connClosed (k : ℕ)
  /-- The actor of a remote is started without a connection. -/
  | actor (id : EndpointID)
  | idle (id : EndpointID)
deriving DecidableEq

def connsOf (s : Dials) (id : EndpointID) : List ℕ := (s.actors.get? id).getD []

def setStage (s : Dials) (k : ℕ) (stage : ConnStage) : Dials :=
  { s with conns := s.conns.modify k fun c => { c with stage } }

def setActor (s : Dials) (id : EndpointID) (l : List ℕ) : Dials :=
  { s with actors := s.actors.set id l }

def step (s : Dials) : Action → Dials
  | .dial url id =>
    let (m, table) := s.table.relayMappedAddrFor (url, id)
    { s with table, conns := s.conns ++ [⟨id, some (url, m), .handshake⟩] }
  | .connect id => { s with conns := s.conns ++ [⟨id, none, .handshake⟩] }
  | .hear url id => { s with table := (s.table.relayMappedAddrFor (url, id)).2 }
  | .register k =>
    match s.conns[k]? with
    | some ⟨id, _, .handshake⟩ => (s.setStage k .registered).setActor id (k :: s.connsOf id)
    | _ => s
  | .close k => s.setStage k .closed
  | .connClosed k =>
    match s.conns[k]? with
    | some ⟨id, _, .closed⟩ =>
      if s.actors.contains id then s.setActor id ((s.connsOf id).erase k) else s
    | _ => s
  | .actor id => s.setActor id (s.connsOf id)
  | .idle id =>
    if s.actors.get? id = some [] then
      { s with actors := s.actors.delete id, table := s.table.evictRemote id }
    else s

/-- The address that an open connection was dialled to stands for its relay and remote, both ways. -/
def Valid (s : Dials) : Prop :=
  ∀ c ∈ s.conns, c.stage ≠ .closed → ∀ url m, c.target = some (url, m) →
    s.table.lookupRelay m = some (url, c.id) ∧ (s.table.relayMappedAddrFor (url, c.id)).1 = m

def SafeUse (s : Dials) (key : RelayKey) : Prop :=
  ∀ c ∈ s.conns, c.stage ≠ .closed → ∀ url m, c.target = some (url, m) →
    s.table.pushedOut key ≠ some (url, c.id)

/-- No use of a pair pushes out one that is dialled, and no actor exits for being idle while a relay mapped
address of its remote is dialled and not registered. -/
def Safe (s : Dials) : Action → Prop
  | .dial url id | .hear url id => s.SafeUse (url, id)
  | .idle id => s.actors.get? id = some [] →
    ∀ c ∈ s.conns, c.id = id → c.stage = .handshake → c.target = none
  | _ => True

/-! ## Actors have the registered connections -/

def Kept (s : Dials) : Prop :=
  ∀ k c, s.conns[k]? = some c → c.stage = .registered → k ∈ s.connsOf c.id

variable {s : Dials}

lemma connsOf_setActor (s : Dials) (id id' : EndpointID) (l : List ℕ) :
    (s.setActor id l).connsOf id' = if id' = id then l else s.connsOf id' := by
  rw [connsOf, setActor, GoMap.get?_set]
  split
  · rfl
  · rfl

lemma getElem?_setStage (s : Dials) (k j : ℕ) (stage : ConnStage) : (s.setStage k stage).conns[j]? =
      (s.conns[j]?).map fun c => if k = j then { c with stage } else c :=
  (getElem?_modify _ _ _ _).trans (by cases s.conns[j]? <;> rfl)

lemma Kept.append (h : s.Kept) (c : DialedConn) (hc : c.stage = .handshake) (table : RelayTable) :
    Kept { s with table, conns := s.conns ++ [c] } := by
  intro k c' hk hregistered
  rw [getElem?_append] at hk
  split at hk
  · exact h k c' hk hregistered
  · rw [getElem?_singleton] at hk
    split at hk
    · cases hk
      cases hc.symm.trans hregistered
    · cases hk

lemma Kept.step (h : s.Kept) (action : Action) : (s.step action).Kept := by
  cases action with
  | hear url id => exact h
  | register k =>
    rw [Dials.step]
    split
    next id target hk =>
      intro j c hj hregistered
      rw [connsOf_setActor]
      rw [setActor, getElem?_setStage] at hj
      obtain ⟨c', hc', rfl⟩ := Option.map_eq_some_iff.mp hj
      by_cases hkj : k = j
      · subst hkj
        obtain rfl := Option.some.inj (hk.symm.trans hc')
        simp
      · rw [if_neg hkj] at hregistered ⊢
        have hmem := h j c' hc' hregistered
        split
        next hid => exact mem_cons_of_mem _ (hid ▸ hmem)
        · exact hmem
    · exact h
  | close k =>
    intro j c hj hregistered
    rw [Dials.step, getElem?_setStage] at hj
    obtain ⟨c', hc', rfl⟩ := Option.map_eq_some_iff.mp hj
    split at hregistered
    · cases hregistered
    next hkj =>
      rw [if_neg hkj]
      exact h j c' hc' hregistered
  | connClosed k =>
    rw [Dials.step]
    split
    next id target hk =>
      split
      · intro j c hj hregistered
        rw [connsOf_setActor]
        have hmem := h j c hj hregistered
        have hne : j ≠ k := by
          rintro rfl
          obtain rfl := Option.some.inj (hk.symm.trans hj)
          cases hregistered
        split
        next hid => exact (mem_erase_of_ne hne).mpr (hid ▸ hmem)
        · exact hmem
      · exact h
    · exact h
  | actor id =>
    intro j c hj hregistered
    rw [Dials.step, connsOf_setActor]
    have hmem := h j c hj hregistered
    split
    next hid => exact hid ▸ hmem
    · exact hmem
  | idle id =>
    rw [Dials.step]
    split
    next hidle =>
      intro j c hj hregistered
      have hmem := h j c hj hregistered
      have hne : c.id ≠ id := by
        rintro rfl
        rw [connsOf, hidle] at hmem
        cases hmem
      rwa [connsOf, GoMap.get?_delete, if_neg hne]
    · exact h
  | _ => exact h.append _ rfl _

/-! ## When an address stays valid -/

def Addressed (s : Dials) : Prop :=
  ∀ c ∈ s.conns, c.stage ≠ .closed → ∀ url m, c.target = some (url, m) →
    s.table.addr? (url, c.id) = some m

lemma valid_iff_addressed : s.Valid ↔ s.Addressed := by
  simp only [Valid, Addressed, RelayTable.mapped_iff_addr?]

lemma addressed_use (h : s.Addressed) (key : RelayKey) :
    Addressed { s with table := (s.table.relayMappedAddrFor key).2 } ↔ s.SafeUse key := by
  have hkey : ∀ {c : DialedConn} {url : RelayURL} {m : ℕ}, s.table.addr? (url, c.id) = some m →
      ((s.table.relayMappedAddrFor key).2.addr? (url, c.id) = some m ↔
        s.table.pushedOut key ≠ some (url, c.id)) := by
    intro c url m haddr
    have hmapped := RelayTable.mapped_iff_addr?.mpr haddr
    have hmem := (s.table.listed _).mpr ⟨m, haddr⟩
    rw [RelayTable.addr?_relayMappedAddrFor]
    split
    next heq =>
      rw [← heq, hmapped.2, RelayTable.pushedOut_of_mem hmem]
      simp
    · split
      next hout => simp [hout]
      next hout => simp [hout, haddr]
  constructor
  · intro h' c hc hopen url m htarget
    exact (hkey (h c hc hopen url m htarget)).mp (h' c hc hopen url m htarget)
  · intro hsafe c hc hopen url m htarget
    exact (hkey (h c hc hopen url m htarget)).mpr (hsafe c hc hopen url m htarget)

lemma addressed_append (s : Dials) (c : DialedConn)
    (hc : ∀ url m, c.target = some (url, m) → s.table.addr? (url, c.id) = some m) :
    Addressed { s with conns := s.conns ++ [c] } ↔ s.Addressed := by
  constructor
  · exact fun h c' hc' => h c' (mem_append_left _ hc')
  · intro h c' hc' hopen
    rcases mem_append.mp hc' with hc' | hc'
    · exact h c' hc' hopen
    · obtain rfl := mem_singleton.mp hc'
      exact hc

lemma addressed_setStage (h : s.Addressed)
    (hstage : stage = .closed ∨ ∀ c, s.conns[k]? = some c → c.stage ≠ .closed) :
    (s.setStage k stage).Addressed := by
  intro c hc hopen url m htarget
  obtain ⟨j, hj⟩ := mem_iff_getElem?.mp hc
  rw [getElem?_setStage] at hj
  obtain ⟨c', hc', rfl⟩ := Option.map_eq_some_iff.mp hj
  split at hopen
  next hkj =>
    subst hkj
    rw [if_pos rfl] at htarget ⊢
    rcases hstage with rfl | hstage
    · exact absurd rfl hopen
    · exact h c' (mem_of_getElem? hc') (hstage c' hc') url m htarget
  next hkj =>
    rw [if_neg hkj] at htarget ⊢
    exact h c' (mem_of_getElem? hc') hopen url m htarget

lemma addressed_step (hk : s.Kept) (h : s.Addressed) (action : Action) :
    (s.step action).Addressed ↔ s.Safe action := by
  cases action with
  | dial url id =>
    have happend := addressed_append { s with table := (s.table.relayMappedAddrFor (url, id)).2 }
      ⟨id, some (url, (s.table.relayMappedAddrFor (url, id)).1), .handshake⟩ (by
        intro url' m htarget
        obtain ⟨rfl, rfl⟩ := Prod.mk.inj (Option.some.inj htarget)
        exact (RelayTable.addr?_relayMappedAddrFor _ _ _).trans (if_pos rfl))
    exact happend.trans (addressed_use h (url, id))
  | connect id =>
    refine iff_of_true ((addressed_append s _ ?_).mpr h) trivial
    intro url m htarget
    cases htarget
  | hear url id => exact addressed_use h (url, id)
  | register k =>
    refine iff_of_true ?_ trivial
    rw [Dials.step]
    split
    next id target hget =>
      refine addressed_setStage h (.inr fun c hc => ?_)
      obtain rfl := Option.some.inj (hget.symm.trans hc)
      simp
    · exact h
  | close k => exact iff_of_true (addressed_setStage h (.inl rfl)) trivial
  | connClosed k =>
    refine iff_of_true ?_ trivial
    rw [Dials.step]
    split
    · split
      · exact h
      · exact h
    · exact h
  | actor id => exact iff_of_true h trivial
  | idle id =>
    rw [Dials.step]
    split
    next hidle =>
      constructor
      · intro h' _ c hc hid hstage
        cases htarget : c.target with
        | none => rfl
        | some target =>
          have haddr := h' c hc (by simp [hstage]) target.1 target.2 htarget
          rw [RelayTable.addr?_evictRemote, if_pos hid] at haddr
          cases haddr
      · intro hsafe c hc hopen url m htarget
        have hne : c.id ≠ id := by
          intro hid
          obtain ⟨k, hget⟩ := mem_iff_getElem?.mp hc
          cases hstage : c.stage with
          | handshake =>
            rw [hsafe hidle c hc hid hstage] at htarget
            cases htarget
          | registered =>
            have hmem := hk k c hget hstage
            rw [hid, connsOf, hidle] at hmem
            cases hmem
          | closed => exact hopen hstage
        rw [RelayTable.addr?_evictRemote, if_neg hne]
        exact h c hc hopen url m htarget
    next hidle => exact iff_of_true h fun hidle' => absurd hidle' hidle

/-- **A mapped address stays valid for the connection that uses it exactly in the safe runs.** -/
theorem valid_iff_safe (actions : List Action) :
    EachState step Valid new actions ↔ EachStep step Safe new actions := by
  refine eachState_iff_of_inv Kept (fun s action h => h.step action) ?_ ?_ ?_ actions
  · intro s action hk h
    rw [valid_iff_addressed] at h ⊢
    exact addressed_step hk h action
  · intro k c hget
    cases hget
  · intro c hc
    cases hc

/-- A connection to remote 7 has ended.  The remote is dialled again through relay 1, and its actor exits
before the handshake is done. -/
def idleWhileDialed : List Action :=
  [.connect 7, .register 0, .close 0, .connClosed 0, .dial 1 7, .idle 7]

theorem dialed_address_forgotten : ¬EachState step Valid new idleWhileDialed := by
  intro h
  have hvalid := h idleWhileDialed prefix_rfl ⟨7, some (1, 0), .handshake⟩ (by decide)
    (by decide) 1 0 rfl
  exact absurd hvalid.1 (by decide)

end Dials

end Iroh.Endpoint
