import Iroh.Qng.NatConvergence

/-!
# The number of addresses that a client takes

A server holds no more addresses at a time than its client has said it takes, and its frames arrive in the
order they were queued.  The client counts the addresses of these frames and those it was given by its own
application (which have numbers from `qntSyntheticRemoteSeqBase` on) together, so it may refuse an address of
a server that keeps to the limit.

The server holds an address, as far as its client can know, until the REMOVE_ADDRESS frame is queued,
which happens after the address has been taken from the list.
-/

namespace Iroh.Qng

open QntConn List GoMap

namespace NatAddressLimit

open NatConvergence

structure Pair where
  server : QntConn
  client : QntConn
  /-- Addresses taken from the server's list whose REMOVE_ADDRESS is not queued yet. -/
  removing : List QntLocalAddress
  /-- The frames that the server has queued and the client has not handled, each with the number of
  addresses with a port that the server held then. -/
  wire : List (QntFrame × ℕ)
  /-- A frame of the server was refused for the number of addresses. -/
  refused : Bool

def withPort (l : List QntLocalAddress) : List QntLocalAddress := l.filter fun a => a.addr.port ≠ 0

namespace Pair

/-- The client has advertised `limit`, the server `serverLimit`. -/
def start (limit serverLimit : ℕ) : Pair where
  server := .new true limit serverLimit
  client := .new false serverLimit limit
  removing := []
  wire := []
  refused := false

/-- The addresses with a port that the server holds, or whose removal it has not announced. -/
def held (s : Pair) : List QntLocalAddress := withPort (s.server.localAddrs ++ s.removing)

def transmit (s : Pair) : Pair :=
  { s with
    server := { s.server with queued := [] }
    wire := s.wire ++ s.server.queued.map fun f => (f, s.held.length) }

end Pair

inductive Action where
  /-- `AddNATTraversalAddress` on the server. -/
  | add (addr : NetipAddrPort)
  /-- `RemoveNATTraversalAddress` on the server, up to where it releases the mutex. -/
  | remove (addr : NetipAddrPort)
  /-- The rest of a `RemoveNATTraversalAddress`. -/
  | queueRemoval (seq : ℕ)
  /-- `AddRemoteNATTraversalAddress` on the client. -/
  | addRemote (addr : NetipAddrPort)
  | receive

/-- Sequence numbers are variable-length integers: the server has no number for a further address once
they reach `qntSyntheticRemoteSeqBase`. -/
def step (s : Pair) : Action → Pair
  | .add addr =>
    if qntSyntheticRemoteSeqBase ≤ s.server.nextLocalAddressSeqNo then s
    else { s with server := LocalCall.run s.server (.add addr) }.transmit
  | .remove addr =>
    match s.server.removeLocalAddress addr with
    | .ok (server, some a) => { s with server := server, removing := s.removing ++ [a] }
    | _ => s
  | .queueRemoval seq =>
    if s.removing.any fun a => a.seq = seq then
      { s with
        server := s.server.queueRemoval seq
        removing := s.removing.filter fun a => a.seq ≠ seq }.transmit
    else s
  | .addRemote addr =>
    match s.client.addRemoteNATTraversalAddress addr with
    | .ok client => { s with client := client }
    | .error _ => s
  | .receive =>
    match s.wire with
    | [] => s
    | (f, _) :: wire =>
      { s with
        client := NatConvergence.receive s.client f
        wire := wire
        refused := s.refused || (s.client.handleFrame f).2 = some .tooManyAddresses }

def seeded (c : QntConn) : ℕ :=
  c.remote.addrs.toList.countP fun e => qntSyntheticRemoteSeqBase ≤ e.1

/-- If the next frame announces an address with a port, there is room beside the addresses the client was
given for all that the server held when it queued the frame, with this one. -/
def Room (s : Pair) : Action → Prop
  | .receive => ∀ seq addr n wire, s.wire = (announce seq addr, n) :: wire → addr.port ≠ 0 →
      seeded s.client + n ≤ s.client.remote.max
  | _ => True

/-! ## Replaying the wire -/

def announced (c : QntConn) : List (ℕ × AddrPort) :=
  c.remote.addrs.toList.filter fun e => e.1 < qntSyntheticRemoteSeqBase

def after (entries : List (ℕ × AddrPort)) : QntFrame → List (ℕ × AddrPort)
  | .addAddress ⟨seq, .plain addr⟩ => if addr.port = 0 then entries else entries ++ [(seq, addr)]
  | .removeAddress ⟨seq⟩ => entries.filter fun e => e.1 ≠ seq
  | _ => entries

inductive Fits (entries : List (ℕ × AddrPort)) : QntFrame → ℕ → Prop where
  | announce {seq n : ℕ} {addr : AddrPort} (hseq : seq < qntSyntheticRemoteSeqBase)
      (hnew : seq ∉ entries.map Prod.fst) (hnote : addr.port ≠ 0 → n = entries.length + 1) :
      Fits entries (announce seq addr) n
  | withdraw {seq n : ℕ} (hseq : seq < qntSyntheticRemoteSeqBase) : Fits entries (withdraw seq) n

def Leads (held : List (ℕ × AddrPort)) : List (ℕ × AddrPort) → List (QntFrame × ℕ) → Prop
  | entries, [] => entries.Perm held
  | entries, (f, n) :: wire => Fits entries f n ∧ Leads held (after entries f) wire

variable {entries : List (ℕ × AddrPort)} {f : QntFrame} {n seq : ℕ} {wire : List (QntFrame × ℕ)}

lemma after_perm (h : entries.Perm entries') (f : QntFrame) :
    (after entries f).Perm (after entries' f) := by
  unfold after
  split
  · split
    · exact h
    · exact h.append_right _
  · exact h.filter _
  · exact h

lemma Fits.perm (h : Fits entries f n) (hperm : entries.Perm entries') : Fits entries' f n := by
  cases h with
  | announce hseq hnew hnote =>
    exact .announce hseq (by rwa [← (hperm.map Prod.fst).mem_iff]) (by rwa [← hperm.length_eq])
  | withdraw hseq => exact .withdraw hseq

lemma Leads.perm (hperm : held.Perm held')
    (h : Leads held entries wire) : Leads held' entries wire := by
  induction wire generalizing entries with
  | nil => exact List.Perm.trans h hperm
  | cons x wire ih => exact ⟨h.1, ih h.2⟩

lemma Leads.concat (hfits : Fits held f n)
    (hheld : (after held f).Perm held') (h : Leads held entries wire) :
    Leads held' entries (wire ++ [(f, n)]) := by
  induction wire generalizing entries with
  | nil => exact ⟨hfits.perm (List.Perm.symm h), (after_perm h f).trans hheld⟩
  | cons x wire ih => exact ⟨h.1, ih h.2⟩

/-! ## The client -/

variable {c : QntConn}

lemma len_eq_announced_add_seeded (c : QntConn) :
    c.remote.addrs.len = (announced c).length + seeded c := by
  have hsplit := length_eq_length_filter_add (l := c.remote.addrs.toList)
    fun e => decide (e.1 < qntSyntheticRemoteSeqBase)
  rw [len, hsplit, seeded, countP_eq_length_filter]
  congr 2
  refine filter_congr fun e _ => ?_
  rw [← decide_not]
  exact decide_eq_decide.mpr Nat.not_lt

lemma not_mem_keys_of_announced (hseq : seq < qntSyntheticRemoteSeqBase)
    (h : seq ∉ (announced c).map Prod.fst) : seq ∉ c.remote.addrs.keys := by
  intro hmem
  obtain ⟨e, he, rfl⟩ := mem_map.mp hmem
  exact h (mem_map.mpr ⟨e, mem_filter.mpr ⟨he, by simpa using hseq⟩, rfl⟩)

section

variable (hneg : c.qntAPINegotiated = true)
include hneg

lemma handleFrame_announce (hseq : seq < qntSyntheticRemoteSeqBase)
    (hnew : seq ∉ (announced c).map Prod.fst) : c.handleFrame (announce seq addr) =
      if addr.port = 0 then (c, none)
      else if c.remote.max ≤ (announced c).length + seeded c then (c, some .tooManyAddresses)
      else ({ c with remote := { c.remote with addrs := c.remote.addrs.set seq addr } }, none) := by
  have hget : c.remote.addrs.get? seq = none := by
    have hkeys := not_mem_keys_of_announced hseq hnew
    rw [mem_keys_iff, not_exists] at hkeys
    exact Option.eq_none_iff_forall_ne_some.mpr hkeys
  rw [← len_eq_announced_add_seeded]
  simp only [handleFrame, announce, addRemoteNATTraversalAddressFrame, hneg,
    QntRemoteAddressState.add, canonicalNATTraversalAddr, hget]
  by_cases hport : addr.port = 0
  · simp [hport]
  · by_cases hfull : c.remote.max ≤ c.remote.addrs.len
    · simp [hport, hfull]
    · simp [hport, hfull]

lemma refused_announce_iff (h : Fits (announced c) (announce seq addr) n) :
    (c.handleFrame (announce seq addr)).2 = some .tooManyAddresses ↔
      addr.port ≠ 0 ∧ c.remote.max < seeded c + n := by
  generalize hf : announce seq addr = f at h
  cases h with
  | withdraw hseq => exact absurd hf announce_ne_withdraw
  | announce hseq hnew hnote =>
    obtain ⟨rfl, rfl⟩ := announce_inj.mp hf
    rw [handleFrame_announce hneg hseq hnew]
    by_cases hport : addr.port = 0
    · simp [hport]
    · rw [if_neg hport, hnote hport]
      split
      · exact iff_of_true rfl ⟨hport, by omega⟩
      · exact iff_of_false (by simp) fun h => by omega

lemma announced_receive (h : Fits (announced c) f n)
    (hroom : (c.handleFrame f).2 ≠ some .tooManyAddresses) :
    announced (NatConvergence.receive c f) = after (announced c) f := by
  cases h with
  | @announce seq n addr hseq hnew hnote =>
    unfold NatConvergence.receive
    rw [handleFrame_announce hneg hseq hnew] at hroom ⊢
    show _ = if addr.port = 0 then announced c else announced c ++ [(seq, addr)]
    split at hroom
    case isTrue hport => rw [if_pos hport, if_pos hport]
    case isFalse hport =>
      split at hroom
      case isTrue hfull => exact absurd rfl hroom
      case isFalse hfull =>
        rw [if_neg hport, if_neg hport, if_neg hfull]
        show (c.remote.addrs.set seq addr).toList.filter _ = _
        rw [set_of_not_mem (not_mem_keys_of_announced hseq hnew), filter_append]
        congr 1
        simp [hseq]
  | @withdraw seq n hseq =>
    have hremove : (c.remote.remove ⟨seq⟩).1.addrs.toList =
        c.remote.addrs.toList.filter fun e => e.1 ≠ seq := by
      unfold QntRemoteAddressState.remove
      split
      case h_1 hget =>
        refine (filter_eq_self.mpr fun e he => ?_).symm
        have hne : e.1 ≠ seq := by
          rintro rfl
          exact absurd (get?_eq_some.mpr he) (by rw [hget]; simp)
        simpa using hne
      case h_2 => simp [delete, rangeDelete]
    simp only [NatConvergence.receive, handleFrame, withdraw, removeRemoteNATTraversalAddressFrame,
      hneg, announced, Bool.not_true, Bool.false_eq_true, if_false, hremove]
    exact filter_comm _ _ _

end

lemma addRemote_cases (h : c.addRemoteNATTraversalAddress addr = .ok c') :
    c' = c ∨ ∃ a seq, (seq = qntSyntheticRemoteSeqBase ∨ seq = c.nextRemoteAddressSeqNo ∧ seq ≠ 0) ∧
      c' = { c with
        nextRemoteAddressSeqNo := seq + 1
        remote := { c.remote with addrs := c.remote.addrs.set seq a } } := by
  unfold addRemoteNATTraversalAddress at h
  split at h
  · cases h
  · split at h
    · exact .inl (Except.ok.inj h).symm
    · split at h
      · exact .inl (Except.ok.inj h).symm
      · split at h
        · cases h
        · refine .inr ⟨_, _, ?_, (Except.ok.inj h).symm⟩
          split
          case isTrue => exact .inl rfl
          case isFalse hne => exact .inr ⟨rfl, hne⟩

lemma announced_set (hseq : qntSyntheticRemoteSeqBase ≤ seq) (a : AddrPort) (n : ℕ) : announced { c with
      nextRemoteAddressSeqNo := n
      remote := { c.remote with addrs := c.remote.addrs.set seq a } } = announced c := by
  show (toList (c.remote.addrs.set seq a)).filter _ = _
  simp only [GoMap.set, GoMap.delete, GoMap.rangeDelete, filter_append, filter_filter]
  have hlast : ([(seq, a)].filter fun e => decide (e.1 < qntSyntheticRemoteSeqBase)) = [] := by
    simp [hseq]
  rw [hlast, append_nil]
  refine filter_congr fun e _ => ?_
  by_cases hlt : e.1 < qntSyntheticRemoteSeqBase
  · have hne : e.1 ≠ seq := fun heq => absurd hseq (Nat.not_le.mpr (heq ▸ hlt))
    simp [hne]
  · simp [hlt]

/-! ## The pair -/

def entry (a : QntLocalAddress) : ℕ × AddrPort := (a.seq, a.addr)

/-- The client's table and the frames under way match the server's list. -/
structure Linked (s : Pair) : Prop where
  server : s.server.server = true
  sent : s.server.queued = []
  distinct : (s.server.localAddrs.map QntLocalAddress.addr).Nodup
  numbered : ((s.server.localAddrs ++ s.removing).map QntLocalAddress.seq).Nodup
  numbered_lt : ∀ a ∈ s.server.localAddrs ++ s.removing, a.seq < s.server.nextLocalAddressSeqNo
  next_le : s.server.nextLocalAddressSeqNo ≤ qntSyntheticRemoteSeqBase
  remote : s.client.nextRemoteAddressSeqNo = 0 ∨
    qntSyntheticRemoteSeqBase ≤ s.client.nextRemoteAddressSeqNo
  negotiated : s.wire ≠ [] → s.client.qntAPINegotiated = true
  same : s.client.qntAPINegotiated = s.server.qntAPINegotiated
  idle : s.server.qntAPINegotiated = false → s.removing = []
  leads : s.refused = false → Leads (s.held.map entry) (announced s.client) s.wire

lemma Linked.start (limit serverLimit : ℕ) : Linked (.start limit serverLimit) where
  server := rfl
  sent := rfl
  distinct := nodup_nil
  numbered := nodup_nil
  numbered_lt _ h := absurd h not_mem_nil
  next_le := Nat.zero_le _
  remote := .inl rfl
  negotiated h := absurd rfl h
  same := Bool.and_comm _ _
  idle _ := rfl
  leads _ := List.Perm.refl _

variable {s : Pair}

lemma fits_announce (h : Linked s) (hnext : s.server.nextLocalAddressSeqNo < qntSyntheticRemoteSeqBase)
    (hnote : a.port ≠ 0 → n = s.held.length + 1) :
    Fits (s.held.map entry) (announce s.server.nextLocalAddressSeqNo a) n := by
  refine .announce hnext (fun hmem => ?_) fun hport => by rw [length_map, hnote hport]
  rw [map_map, mem_map] at hmem
  obtain ⟨x, hx, hseq⟩ := hmem
  exact absurd (h.numbered_lt x (mem_of_mem_filter hx)) (Nat.not_lt.mpr (Nat.le_of_eq hseq.symm))

lemma Linked.transmit_nothing (h : Linked s) : Linked s.transmit := by
  have hsame : s.transmit = s := by
    obtain ⟨⟨_, _⟩, _⟩ := s
    simpa [Pair.transmit] using h.sent.symm
  rwa [hsame]

lemma nodup_map_concat {β : Type} {g : QntLocalAddress → β} {l : List QntLocalAddress}
    (h : (l.map g).Nodup) {x : QntLocalAddress} (hnew : ∀ y ∈ l, g y ≠ g x) :
    ((l ++ [x]).map g).Nodup := by
  rw [map_append]
  exact h.append (nodup_singleton _) (by simpa using hnew)

lemma Linked.add (h : Linked s) (addr : NetipAddrPort) : Linked (step s (.add addr)) := by
  simp only [step]
  split
  case isTrue => exact h
  case isFalse hnext =>
    have hnext := Nat.not_le.mp hnext
    rcases run_add_cases h.server addr with heq | ⟨a, hneg, hnew, heq⟩
    · rw [heq]
      exact h.transmit_nothing
    · rw [heq]
      set x : QntLocalAddress := ⟨a, s.server.nextLocalAddressSeqNo⟩ with hx
      -- the new address is the last one
      have hlast : ((s.server.localAddrs ++ [x]) ++ s.removing).Perm
          ((s.server.localAddrs ++ s.removing) ++ [x]) := by
        rw [append_assoc, append_assoc]
        exact perm_append_comm.append_left _
      have hheld : (withPort ((s.server.localAddrs ++ [x]) ++ s.removing)).Perm (s.held ++ withPort [x]) :=
        (hlast.filter _).trans (List.Perm.of_eq (filter_append ..))
      refine ⟨h.server, rfl, nodup_map_concat h.distinct hnew, ?_, ?_, hnext, h.remote, ?_, h.same,
        h.idle, ?_⟩
      · refine ((hlast.map QntLocalAddress.seq).nodup_iff).mpr ?_
        exact nodup_map_concat h.numbered fun y hy => Nat.ne_of_lt (h.numbered_lt y hy)
      · intro y hy
        rcases mem_append.mp (hlast.mem_iff.mp hy) with hy | hy
        · exact Nat.lt_succ_of_lt (h.numbered_lt y hy)
        · rw [mem_singleton.mp hy]
          exact Nat.lt_succ_self _
      · exact fun _ => h.same.trans hneg
      · intro hrefused
        simp only [h.sent]
        refine (h.leads hrefused).concat (fits_announce h hnext fun hport => ?_) ?_
        · refine hheld.length_eq.trans ?_
          rw [length_append, withPort, filter_cons_of_pos (by simpa using hport)]
          rfl
        · refine List.Perm.trans ?_ (hheld.map entry).symm
          show (if a.port = 0 then _ else _ : List (ℕ × AddrPort)).Perm _
          split
          case isTrue hport => simp [hx, hport, withPort]
          case isFalse hport => simp [hx, hport, withPort, entry]

lemma perm_filter_concat (h : (l.map QntLocalAddress.addr).Nodup)
    (ha : a ∈ l) : (l.filter (fun x => x.addr ≠ a.addr) ++ [a]).Perm l := by
  have herase : l.filter (fun x => x.addr ≠ a.addr) = l.erase a := by
    rw [h.of_map.erase_eq_filter]
    refine filter_congr fun x hx => ?_
    have heq : x.addr = a.addr ↔ x = a := ⟨inj_on_of_nodup_map h hx ha, congrArg _⟩
    rw [Bool.eq_iff_iff]
    simp [heq]
  rw [herase]
  exact (perm_append_singleton a _).trans (perm_cons_erase ha).symm

section

variable (h : Linked s)
include h

lemma Linked.remove (addr : NetipAddrPort) : Linked (step s (.remove addr)) := by
  simp only [step]
  split
  case h_2 => exact h
  case h_1 server a hr =>
    rcases removeLocalAddress_cases h.distinct hr with heq | ⟨a', ha, hneg, heq⟩
    · cases heq
    · cases heq
      -- the address goes from one list to the other
      have hmove : ((s.server.localAddrs.filter fun x => x.addr ≠ a.addr) ++ (s.removing ++ [a])).Perm
          (s.server.localAddrs ++ s.removing) := by
        rw [← append_assoc]
        refine List.Perm.trans ?_ ((perm_filter_concat h.distinct ha).append_right s.removing)
        rw [append_assoc, append_assoc]
        exact perm_append_comm.append_left _
      refine ⟨h.server, h.sent, h.distinct.sublist (filter_sublist.map _), ?_, ?_, h.next_le,
        h.remote, h.negotiated, h.same, ?_, ?_⟩
      · exact ((hmove.map QntLocalAddress.seq).nodup_iff).mpr h.numbered
      · exact fun y hy => h.numbered_lt y (hmove.mem_iff.mp hy)
      · exact fun hidle => absurd (hneg.symm.trans hidle) (by simp)
      · intro hrefused
        exact (h.leads hrefused).perm (((hmove.filter _).map entry).symm)

lemma Linked.queueRemoval (seq : ℕ) : Linked (step s (.queueRemoval seq)) := by
  simp only [step]
  split
  case isFalse => exact h
  case isTrue hany =>
    obtain ⟨a, ha, hseq⟩ := any_eq_true.mp hany
    obtain rfl : a.seq = seq := of_decide_eq_true hseq
    have hneg : s.server.qntAPINegotiated = true := by
      by_contra hidle
      rw [h.idle (Bool.eq_false_iff.mpr hidle)] at ha
      exact absurd ha not_mem_nil
    -- the address is not among those of the list
    have hlocal : s.server.localAddrs.filter (fun x => decide (x.seq ≠ a.seq)) = s.server.localAddrs := by
      refine filter_eq_self.mpr fun x hx => decide_eq_true fun heq => ?_
      have hnodup := h.numbered
      rw [map_append, nodup_append] at hnodup
      exact hnodup.2.2 _ (mem_map_of_mem hx) _ (mem_map_of_mem ha) heq
    have hsub : (s.server.localAddrs ++ s.removing.filter fun x => x.seq ≠ a.seq) =
        (s.server.localAddrs ++ s.removing).filter fun x => x.seq ≠ a.seq := by
      rw [filter_append, hlocal]
    have hqueue : s.server.queueRemoval a.seq = s.server.queueLocalRemoveAddressFrame a.seq :=
      if_pos h.server
    simp only [Pair.transmit, hqueue, queueLocalRemoveAddressFrame, h.sent]
    refine ⟨h.server, rfl, h.distinct, ?_, ?_, h.next_le, h.remote, ?_, h.same, ?_, ?_⟩
    · rw [hsub]
      exact h.numbered.sublist (filter_sublist.map _)
    · intro y hy
      rw [hsub] at hy
      exact h.numbered_lt y (mem_of_mem_filter hy)
    · exact fun _ => h.same.trans hneg
    · exact fun hidle => absurd (hneg.symm.trans hidle) (by simp)
    · intro hrefused
      refine (h.leads hrefused).concat (.withdraw ?_) ?_
      · exact Nat.lt_of_lt_of_le (h.numbered_lt a (mem_append_right _ ha)) h.next_le
      · show ((s.held.map entry).filter fun e => e.1 ≠ a.seq).Perm
          ((withPort (s.server.localAddrs ++ s.removing.filter fun x => x.seq ≠ a.seq)).map entry)
        rw [hsub, filter_map, withPort, filter_comm]
        exact List.Perm.refl _

lemma Linked.addRemote (addr : NetipAddrPort) : Linked (step s (.addRemote addr)) := by
  simp only [step]
  split
  case h_2 => exact h
  case h_1 c' hc' =>
    rcases addRemote_cases hc' with rfl | ⟨a, seq, hseq, rfl⟩
    · exact h
    · have hbase : qntSyntheticRemoteSeqBase ≤ seq := by
        rcases hseq with rfl | ⟨rfl, hne⟩
        · exact Nat.le_refl _
        · exact h.remote.resolve_left hne
      exact { h with
          remote := .inr (Nat.le_succ_of_le hbase)
          leads := fun hrefused => by
            rw [announced_set hbase]
            exact h.leads hrefused }

lemma Linked.fits (hrefused : s.refused = false) (hwire : s.wire = (f, n) :: wire) :
    Fits (announced s.client) f n := by
  have hleads := h.leads hrefused
  rw [hwire] at hleads
  exact hleads.1

lemma Linked.receive : Linked (step s .receive) := by
  simp only [step]
  split
  case h_1 => exact h
  case h_2 f n wire hwire =>
    have hneg := h.negotiated (by simp [hwire])
    obtain ⟨hsame, hnext⟩ := receive_frame s.client f
    refine { h with remote := ?_, negotiated := fun _ => hsame.trans hneg, same := ?_, leads := ?_ }
    · rw [hnext]
      exact h.remote
    · exact hsame.trans h.same
    · intro hrefused
      obtain ⟨hold, hroom⟩ := Bool.or_eq_false_iff.mp hrefused
      have hleads := h.leads hold
      rw [hwire] at hleads
      rw [announced_receive hneg hleads.1 (of_decide_eq_false hroom)]
      exact hleads.2

lemma Linked.step (action : Action) : Linked (step s action) := by
  cases action with
  | add addr => exact h.add addr
  | remove addr => exact h.remove addr
  | queueRemoval seq => exact h.queueRemoval seq
  | addRemote addr => exact h.addRemote addr
  | receive => exact h.receive

end

lemma refused_step (s : Pair) (h : action ≠ .receive) : (step s action).refused = s.refused := by
  cases action with
  | receive => exact absurd rfl h
  | _ =>
    simp only [step]
    split <;> rfl

theorem refused_step_iff (h : Linked s) (hrefused : s.refused = false) (action : Action) :
    (step s action).refused = false ↔ Room s action := by
  by_cases haction : action = .receive
  case neg =>
    rw [refused_step s haction]
    refine iff_of_true hrefused ?_
    cases action with
    | receive => exact absurd rfl haction
    | _ => trivial
  case pos =>
    subst haction
    simp only [step]
    split
    case h_1 hwire => exact iff_of_true hrefused fun seq addr n wire heq => by simp [hwire] at heq
    case h_2 f n wire hwire =>
      have hfits := h.fits hrefused hwire
      have hneg := h.negotiated (by simp [hwire])
      rw [hrefused, Bool.false_or, decide_eq_false_iff_not]
      cases hfits with
      | @announce seq n addr hseq hnew hnote =>
        rw [refused_announce_iff hneg (.announce hseq hnew hnote), not_and, Nat.not_lt]
        constructor
        · intro hroom seq' addr' n' wire' heq
          rw [hwire] at heq
          obtain ⟨⟨⟨-, rfl⟩, rfl⟩, -⟩ := heq
          exact hroom
        · exact fun hroom => hroom seq addr n wire hwire
      | withdraw hseq =>
        refine iff_of_true ?_ fun seq' addr' n' wire' heq => ?_
        · simp [handleFrame, withdraw, removeRemoteNATTraversalAddressFrame, hneg]
        · rw [hwire] at heq
          simp only [cons.injEq, Prod.mk.injEq, withdraw_ne_announce, false_and] at heq

/-- **No address of the server is ever refused, exactly if each ADD_ADDRESS frame with a port finds room
for the addresses that the server held when it queued the frame.** -/
theorem never_refused_iff_room (limit serverLimit : ℕ) (actions : List Action) :
    EachState step (fun s => s.refused = false) (.start limit serverLimit) actions ↔
      EachStep step Room (.start limit serverLimit) actions :=
  eachState_iff_of_inv Linked (fun _ action h => h.step action)
    (fun _ action h hrefused => refused_step_iff h hrefused action) (.start limit serverLimit) rfl actions

def sameAddressTwice : List Action := [.addRemote (.plain ⟨1, 1⟩), .add (.plain ⟨1, 1⟩), .receive]

/-- The one address of the server fills the table twice, and is refused. -/
theorem announced_seed_refused :
    (sameAddressTwice.foldl step (.start 1 1)).server.localAddrs.length ≤ 1 ∧
      (sameAddressTwice.foldl step (.start 1 1)).client.remote.addresses = [⟨1, 1⟩] ∧
      (sameAddressTwice.foldl step (.start 1 1)).refused = true := by
  decide

end NatAddressLimit

end Iroh.Qng
