import Iroh.Common.Runs
import Iroh.Qng.NatTraversal

/-!
# The client's view of the server's addresses

A server announces each address that it adds and each that it removes.  The frames that carry this are
retransmitted on their own, so the client handles each of them once but in any order.

The server's addresses are the ones whose ADD_ADDRESS was queued and whose REMOVE_ADDRESS was not
(`ServerRun.mem_localAddrs`).  The client's are those that no REMOVE_ADDRESS followed (`Standing`,
`get?_foldl_receive`).  Addresses have no IPv6 zones here: the wire codec of the frames writes the 16 bytes
of an address only, so an address with a zone would reach the client without it.
-/

namespace Iroh.Qng

open QntConn List

namespace NatConvergence

/-! ## The server -/

inductive LocalCall where
  | add (addr : NetipAddrPort)
  | remove (addr : NetipAddrPort)

def LocalCall.run (c : QntConn) : LocalCall → QntConn
  | .add addr => (c.addNATTraversalAddress addr).toOption.getD c
  | .remove addr => (c.removeNATTraversalAddress addr).toOption.getD c

def announce (seq : ℕ) (addr : AddrPort) : QntFrame := .addAddress ⟨seq, .plain addr⟩

def withdraw (seq : ℕ) : QntFrame := .removeAddress ⟨seq⟩

variable {seq seq' : ℕ} {addr : AddrPort} {frames : List QntFrame}

@[simp] lemma announce_inj : announce seq addr = announce seq' addr' ↔ seq = seq' ∧ addr = addr' := by
  simp [announce]

@[simp] lemma withdraw_inj : withdraw seq = withdraw seq' ↔ seq = seq' := by
  simp [withdraw]

@[simp] lemma announce_ne_withdraw : announce seq addr ≠ withdraw seq' := by
  simp [announce, withdraw]

@[simp] lemma withdraw_ne_announce : withdraw seq' ≠ announce seq addr := announce_ne_withdraw.symm

def number : QntFrame → ℕ
  | .addAddress frame => frame.seqNo
  | .removeAddress frame => frame.seqNo
  | .reachOut _ => 0

/-- A number is announced for one address, and withdrawn once. -/
structure WellNumbered (frames : List QntFrame) : Prop where
  shape : ∀ f ∈ frames, (∃ seq addr, f = announce seq addr) ∨ ∃ seq, f = withdraw seq
  nodup : frames.Nodup
  unique : ∀ seq addr addr', announce seq addr ∈ frames → announce seq addr' ∈ frames → addr = addr'

/-- The server's list is what its frames say. -/
structure ServerRun (c : QntConn) : Prop where
  server : c.server = true
  numbered : WellNumbered c.queued
  number_lt : ∀ f ∈ c.queued, number f < c.nextLocalAddressSeqNo
  mem_localAddrs : ∀ addr seq,
    ⟨addr, seq⟩ ∈ c.localAddrs ↔ announce seq addr ∈ c.queued ∧ withdraw seq ∉ c.queued
  distinct : (c.localAddrs.map QntLocalAddress.addr).Nodup

lemma ServerRun.new (localAddressLimit remoteAddressLimit : ℕ) :
    ServerRun (.new true localAddressLimit remoteAddressLimit) where
  server := rfl
  numbered := ⟨by simp [QntConn.new], List.nodup_nil, by simp [QntConn.new]⟩
  number_lt _ h := by cases h
  mem_localAddrs _ _ := by simp [QntConn.new]
  distinct := nodup_nil

variable {c : QntConn}

lemma WellNumbered.concat (h : WellNumbered frames)
    (hshape : (∃ seq addr, f = announce seq addr) ∨ ∃ seq, f = withdraw seq) (hnew : f ∉ frames)
    (hunique : ∀ seq addr addr', f = announce seq addr → announce seq addr' ∉ frames) :
    WellNumbered (frames ++ [f]) where
  shape f' hf' := by
    rcases mem_append.mp hf' with hf' | hf'
    · exact h.shape f' hf'
    · rwa [mem_singleton.mp hf']
  nodup := nodup_append.mpr ⟨h.nodup, nodup_singleton f, by
    rintro f' hf' _ hmem rfl
    exact hnew (mem_singleton.mp hmem ▸ hf')⟩
  unique seq addr addr' ha ha' := by
    rw [mem_append, mem_singleton] at ha ha'
    rcases ha with ha | rfl
    · rcases ha' with ha' | rfl
      · exact h.unique seq addr addr' ha ha'
      · exact absurd ha (hunique seq addr' addr rfl)
    · rcases ha' with ha' | ha'
      · exact absurd ha' (hunique seq addr addr' rfl)
      · exact (announce_inj.mp ha').2.symm

lemma run_add_cases (hserver : c.server = true) (addr : NetipAddrPort) :
    LocalCall.run c (.add addr) = c ∨
      ∃ a, c.qntAPINegotiated = true ∧ (∀ x ∈ c.localAddrs, x.addr ≠ a) ∧
        LocalCall.run c (.add addr) = { c with
          nextLocalAddressSeqNo := c.nextLocalAddressSeqNo + 1
          localAddrs := c.localAddrs ++ [⟨a, c.nextLocalAddressSeqNo⟩]
          queued := c.queued ++ [announce c.nextLocalAddressSeqNo a] } := by
  simp only [LocalCall.run, addNATTraversalAddress]
  split
  · exact .inl rfl
  next hneg =>
    split
    · exact .inl rfl
    · split
      · exact .inl rfl
      · split
        · exact .inl rfl
        next a _ hnew _ =>
          refine .inr ⟨a, by simpa using hneg, ?_, rfl⟩
          simpa using hnew

lemma eraseP_eq_filter {l : List QntLocalAddress} (h : (l.map QntLocalAddress.addr).Nodup)
    (addr : AddrPort) : l.eraseP (fun a => a.addr = addr) = l.filter fun a => a.addr ≠ addr := by
  induction l with
  | nil => rfl
  | cons a l ih =>
    rw [map_cons, nodup_cons] at h
    by_cases ha : a.addr = addr
    · subst ha
      have hothers : ∀ x ∈ l, x.addr ≠ a.addr := fun x hx heq =>
        h.1 (mem_map.mpr ⟨x, hx, heq⟩)
      rw [eraseP_cons_of_pos (by simp), filter_cons_of_neg (by simp)]
      exact (filter_eq_self.mpr fun x hx => by simpa using hothers x hx).symm
    · rw [eraseP_cons_of_neg (by simpa using ha), filter_cons_of_pos (by simpa using ha), ih h.2]

lemma removeLocalAddress_cases {addr : NetipAddrPort}
    (hdistinct : (c.localAddrs.map QntLocalAddress.addr).Nodup)
    (hr : c.removeLocalAddress addr = .ok r) :
    r = (c, none) ∨ ∃ a ∈ c.localAddrs, c.qntAPINegotiated = true ∧
      r = ({ c with localAddrs := c.localAddrs.filter fun x => x.addr ≠ a.addr }, some a) := by
  unfold removeLocalAddress at hr
  split at hr
  · cases hr
  next hneg =>
    split at hr
    · exact .inl (Except.ok.inj hr).symm
    · split at hr
      · exact .inl (Except.ok.inj hr).symm
      next a' _ _ a hfind =>
        have haddr : a.addr = a' := by simpa using find?_some hfind
        refine .inr ⟨a, mem_of_find?_eq_some hfind, by simpa using hneg, ?_⟩
        rw [← Except.ok.inj hr, haddr, eraseP_eq_filter hdistinct]

section

variable (h : ServerRun c) (addr : NetipAddrPort)
include h

lemma run_remove_cases : LocalCall.run c (.remove addr) = c ∨
      ∃ a ∈ c.localAddrs, LocalCall.run c (.remove addr) = { c with
        localAddrs := c.localAddrs.filter fun x => x.addr ≠ a.addr
        queued := c.queued ++ [withdraw a.seq] } := by
  simp only [LocalCall.run, removeNATTraversalAddress]
  cases hr : c.removeLocalAddress addr with
  | error e => exact .inl rfl
  | ok r =>
    rcases removeLocalAddress_cases h.distinct hr with rfl | ⟨a, ha, -, rfl⟩
    · exact .inl rfl
    · refine .inr ⟨a, ha, ?_⟩
      simp [queueRemoval, h.server, queueLocalRemoveAddressFrame, withdraw, Except.toOption]

lemma ServerRun.run_add : ServerRun (LocalCall.run c (.add addr)) := by
  rcases run_add_cases h.server addr with heq | ⟨a, -, hnew, heq⟩
  · rwa [heq]
  · rw [heq]
    have hfresh : ∀ f, number f = c.nextLocalAddressSeqNo → f ∉ c.queued := fun f hf hmem =>
      (h.number_lt f hmem).ne hf
    refine ⟨h.server, h.numbered.concat (.inl ⟨_, _, rfl⟩) (hfresh _ rfl) ?_, ?_, ?_, ?_⟩
    · intro seq addr addr' heq
      obtain ⟨rfl, rfl⟩ := announce_inj.mp heq
      exact hfresh _ rfl
    · refine forall_mem_append.mpr ⟨fun f hf => Nat.lt_succ_of_lt (h.number_lt f hf), ?_⟩
      exact forall_mem_singleton.mpr (Nat.lt_succ_self _)
    · intro addr seq
      simp only [mem_append, mem_singleton, QntLocalAddress.mk.injEq, announce_inj,
        withdraw_ne_announce, or_false, h.mem_localAddrs]
      constructor
      · rintro (⟨hmem, hnot⟩ | ⟨rfl, rfl⟩)
        · exact ⟨.inl hmem, hnot⟩
        · exact ⟨.inr ⟨rfl, rfl⟩, hfresh _ rfl⟩
      · rintro ⟨hmem | ⟨rfl, rfl⟩, hnot⟩
        · exact .inl ⟨hmem, hnot⟩
        · exact .inr ⟨rfl, rfl⟩
    · rw [map_append, nodup_append]
      refine ⟨h.distinct, by simp, ?_⟩
      rintro _ hmem _ hmem' rfl
      obtain ⟨x, hx, rfl⟩ := mem_map.mp hmem
      exact hnew x hx (by simpa using hmem')

lemma ServerRun.run_remove : ServerRun (LocalCall.run c (.remove addr)) := by
  rcases run_remove_cases h addr with heq | ⟨a, ha, heq⟩
  · rwa [heq]
  · rw [heq]
    obtain ⟨hannounced, hstanding⟩ := (h.mem_localAddrs a.addr a.seq).mp ha
    refine ⟨h.server, h.numbered.concat (.inr ⟨_, rfl⟩) hstanding ?_, ?_, ?_, ?_⟩
    · intro seq addr addr' heq
      exact absurd heq withdraw_ne_announce
    · refine forall_mem_append.mpr ⟨h.number_lt, ?_⟩
      have hlt : a.seq < c.nextLocalAddressSeqNo := h.number_lt _ hannounced
      exact forall_mem_singleton.mpr hlt
    · intro addr seq
      -- among the server's addresses, the one withdrawn is told by its address or by its number
      have hsame : ⟨addr, seq⟩ ∈ c.localAddrs → (addr = a.addr ↔ seq = a.seq) := by
        intro hmem
        constructor
        · rintro rfl
          have := inj_on_of_nodup_map h.distinct hmem ha rfl
          exact congrArg QntLocalAddress.seq this
        · rintro rfl
          exact h.numbered.unique _ _ _ ((h.mem_localAddrs _ _).mp hmem).1 hannounced
      simp only [mem_filter, mem_append, mem_singleton, announce_ne_withdraw, or_false,
        withdraw_inj, not_or, decide_not, Bool.not_eq_true', decide_eq_false_iff_not]
      constructor
      · rintro ⟨hmem, hne⟩
        obtain ⟨hann, hnot⟩ := (h.mem_localAddrs addr seq).mp hmem
        exact ⟨hann, hnot, fun heq => hne ((hsame hmem).mpr heq)⟩
      · rintro ⟨hann, hnot, hne⟩
        have hmem := (h.mem_localAddrs addr seq).mpr ⟨hann, hnot⟩
        exact ⟨hmem, fun heq => hne ((hsame hmem).mp heq)⟩
    · exact h.distinct.sublist (filter_sublist.map _)

end

lemma ServerRun.foldl (h : ServerRun c) (calls : List LocalCall) :
    ServerRun (calls.foldl LocalCall.run c) := by
  induction calls generalizing c with
  | nil => exact h
  | cons call calls ih =>
    cases call with
    | add addr => exact ih (h.run_add addr)
    | remove addr => exact ih (h.run_remove addr)

/-! ## The client -/

def Standing (frames : List QntFrame) (seq : ℕ) (addr : AddrPort) : Prop :=
  ∃ before after, frames = before ++ announce seq addr :: after ∧ withdraw seq ∉ after

def LeftBehind (frames : List QntFrame) (seq : ℕ) (addr : AddrPort) : Prop :=
  ∃ before after, frames = before ++ announce seq addr :: after ∧ withdraw seq ∈ before

lemma standing_concat : Standing (frames ++ [f]) seq addr ↔
      f = announce seq addr ∨ Standing frames seq addr ∧ f ≠ withdraw seq := by
  constructor
  · rintro ⟨before, after, heq, hnot⟩
    rcases eq_nil_or_concat after with rfl | ⟨after, g, rfl⟩
    · exact .inl (singleton_inj.mp (append_inj' heq rfl).2)
    · rw [concat_eq_append] at heq hnot
      rw [← cons_append, ← append_assoc] at heq
      obtain ⟨hframes, hlast⟩ := append_inj' heq rfl
      obtain rfl := singleton_inj.mp hlast
      refine .inr ⟨⟨before, after, hframes, fun hmem => hnot (mem_append_left _ hmem)⟩, ?_⟩
      rintro rfl
      exact hnot (mem_append_right _ (mem_singleton.mpr rfl))
  · rintro (rfl | ⟨⟨before, after, rfl, hnot⟩, hne⟩)
    · exact ⟨frames, [], rfl, not_mem_nil⟩
    · refine ⟨before, after ++ [f], by simp, ?_⟩
      rw [mem_append, mem_singleton, not_or]
      exact ⟨hnot, hne.symm⟩

lemma mem_of_standing (h : Standing frames seq addr) : announce seq addr ∈ frames := by
  obtain ⟨before, after, rfl, -⟩ := h
  exact mem_append_right _ mem_cons_self

def receive (c : QntConn) (f : QntFrame) : QntConn := (c.handleFrame f).1

def NotRefused (c : QntConn) (f : QntFrame) : Prop := (c.handleFrame f).2 ≠ some .tooManyAddresses

instance (c : QntConn) (f : QntFrame) : Decidable (NotRefused c f) :=
  inferInstanceAs (Decidable (_ ≠ _))

@[simp] lemma remove_addrs_get? (s : QntRemoteAddressState) (seq k : ℕ) :
    (s.remove ⟨seq⟩).1.addrs.get? k = if k = seq then none else s.addrs.get? k := by
  unfold QntRemoteAddressState.remove
  cases hget : s.addrs.get? seq with
  | none => by_cases hk : k = seq <;> simp [hk, hget]
  | some addr => simp

lemma get?_receive_announce (hneg : c.qntAPINegotiated = true)
    (hnew : c.remote.addrs.get? seq = none) (hroom : NotRefused c (announce seq addr)) (k : ℕ) :
    (receive c (announce seq addr)).remote.addrs.get? k =
      if k = seq ∧ addr.port ≠ 0 then some addr else c.remote.addrs.get? k := by
  unfold NotRefused at hroom
  simp only [receive, handleFrame, announce, addRemoteNATTraversalAddressFrame, hneg,
    QntRemoteAddressState.add, canonicalNATTraversalAddr, hnew] at hroom ⊢
  by_cases hport : addr.port = 0
  · simp [hport]
  · by_cases hfull : c.remote.max ≤ c.remote.addrs.len
    · simp [hport, hfull] at hroom
    · simp [hport, hfull]

lemma get?_receive_withdraw (hneg : c.qntAPINegotiated = true) (seq k : ℕ) :
    (receive c (withdraw seq)).remote.addrs.get? k =
      if k = seq then none else c.remote.addrs.get? k := by
  simp [receive, handleFrame, withdraw, removeRemoteNATTraversalAddressFrame, hneg]

lemma receive_frame (c : QntConn) (f : QntFrame) : (receive c f).qntAPINegotiated = c.qntAPINegotiated ∧
      (receive c f).nextRemoteAddressSeqNo = c.nextRemoteAddressSeqNo := by
  cases f with
  | addAddress frame =>
    simp only [receive, handleFrame]
    split
    · exact ⟨rfl, rfl⟩
    · obtain ⟨remote, rfl⟩ := addRemoteFrame_eq_ok ‹_›
      exact ⟨rfl, rfl⟩
  | removeAddress frame =>
    simp only [receive, handleFrame]
    split
    · exact ⟨rfl, rfl⟩
    · obtain ⟨remote, rfl⟩ := removeRemoteFrame_eq_ok ‹_›
      exact ⟨rfl, rfl⟩
  | reachOut frame =>
    simp only [receive, handleFrame, handleReachOutFrame, qntQueueReachOutProbe]
    repeat' split
    all_goals exact ⟨rfl, rfl⟩

lemma WellNumbered.mono (h : WellNumbered frames)
    (hsub : ∀ f ∈ frames', f ∈ frames) (hnodup : frames'.Nodup) : WellNumbered frames' :=
  ⟨fun f hf => h.shape f (hsub f hf), hnodup,
    fun seq addr addr' ha ha' => h.unique seq addr addr' (hsub _ ha) (hsub _ ha')⟩

lemma get?_foldl_receive (hneg : c.qntAPINegotiated = true) (hempty : ∀ k, c.remote.addrs.get? k = none)
    (frames : List QntFrame) (h : WellNumbered frames) (hroom : EachStep receive NotRefused c frames) :
    (frames.foldl receive c).qntAPINegotiated = true ∧ ∀ seq addr,
      (frames.foldl receive c).remote.addrs.get? seq = some addr ↔
        Standing frames seq addr ∧ addr.port ≠ 0 := by
  induction frames using reverseRecOn with
  | nil =>
    refine ⟨hneg, fun seq addr => iff_of_false (by simp [hempty]) ?_⟩
    rintro ⟨⟨before, after, heq, -⟩, -⟩
    simp at heq
  | append_singleton frames f ih =>
    have hbefore := h.mono (fun _ => mem_append_left [f]) h.nodup.of_append_left
    obtain ⟨hneg', hget⟩ := ih hbefore fun pre e hpre =>
      hroom pre e (hpre.trans (prefix_append _ _))
    rw [foldl_append, foldl_cons, foldl_nil]
    rcases h.shape f (by simp) with ⟨s, a, rfl⟩ | ⟨s, rfl⟩
    · -- the number is new, so the announcement does not replace an address
      have hfresh : ∀ addr, ¬ Standing frames s addr := by
        intro addr hstanding
        have hmem := mem_of_standing hstanding
        obtain rfl := h.unique s addr a (mem_append_left _ hmem) (by simp)
        exact (nodup_append.mp h.nodup).2.2 _ hmem _ (by simp) rfl
      have hnew : (frames.foldl receive c).remote.addrs.get? s = none := by
        refine Option.eq_none_iff_forall_ne_some.mpr fun addr haddr => ?_
        exact hfresh addr ((hget s addr).mp haddr).1
      refine ⟨(receive_frame _ _).1.trans hneg', fun seq addr => ?_⟩
      rw [get?_receive_announce hneg' hnew (hroom frames _ prefix_rfl), standing_concat, announce_inj]
      split
      case isTrue hseq =>
        obtain ⟨rfl, hport⟩ := hseq
        constructor
        · rintro ⟨⟩
          exact ⟨.inl ⟨rfl, rfl⟩, hport⟩
        · rintro ⟨⟨-, rfl⟩ | ⟨hstanding, -⟩, -⟩
          · rfl
          · exact absurd hstanding (hfresh addr)
      case isFalse hseq =>
        rw [hget]
        constructor
        · rintro ⟨hstanding, hport⟩
          exact ⟨.inr ⟨hstanding, announce_ne_withdraw⟩, hport⟩
        · rintro ⟨⟨rfl, rfl⟩ | ⟨hstanding, -⟩, hport⟩
          · exact absurd ⟨rfl, hport⟩ hseq
          · exact ⟨hstanding, hport⟩
    · refine ⟨(receive_frame _ _).1.trans hneg', fun seq addr => ?_⟩
      rw [get?_receive_withdraw hneg', standing_concat, Ne, withdraw_inj]
      split
      case isTrue hseq =>
        refine iff_of_false (by simp) ?_
        rintro ⟨heq | ⟨-, hne⟩, -⟩
        · exact absurd heq withdraw_ne_announce
        · exact hne hseq.symm
      case isFalse hseq =>
        rw [hget]
        constructor
        · rintro ⟨hstanding, hport⟩
          exact ⟨.inr ⟨hstanding, fun heq => hseq heq.symm⟩, hport⟩
        · rintro ⟨heq | ⟨hstanding, -⟩, hport⟩
          · exact absurd heq withdraw_ne_announce
          · exact ⟨hstanding, hport⟩

lemma mem_addresses {s : QntRemoteAddressState} :
    addr ∈ s.addresses ↔ ∃ seq, s.addrs.get? seq = some addr := by
  unfold QntRemoteAddressState.addresses
  rw [mem_filterMap]
  constructor
  · rintro ⟨seq, -, hget⟩
    exact ⟨seq, hget⟩
  · rintro ⟨seq, hget⟩
    exact ⟨seq, (mem_insertionSort _).mpr (GoMap.mem_keys_iff.mpr ⟨addr, hget⟩), hget⟩

/-! ## Convergence -/

def Agree (client server : QntConn) : Prop :=
  ∀ addr, addr ∈ client.remote.addresses ↔ addr ∈ server.localAddrs.map QntLocalAddress.addr

lemma WellNumbered.perm (h : WellNumbered frames)
    (hperm : frames'.Perm frames) : WellNumbered frames' :=
  h.mono (fun _ => hperm.mem_iff.mp) (hperm.nodup_iff.mpr h.nodup)

lemma standing_iff_leftBehind (h : WellNumbered frames) (hwithdrawn : withdraw seq ∈ frames) :
    Standing frames seq addr ↔ LeftBehind frames seq addr := by
  constructor
  · rintro ⟨before, after, rfl, hnot⟩
    refine ⟨before, after, rfl, ?_⟩
    rcases mem_append.mp hwithdrawn with hmem | hmem
    · exact hmem
    · exact absurd ((mem_cons.mp hmem).resolve_left withdraw_ne_announce) hnot
  · rintro ⟨before, after, rfl, hmem⟩
    refine ⟨before, after, rfl, fun hafter => ?_⟩
    exact (nodup_append.mp h.nodup).2.2 _ hmem _ (mem_cons_of_mem _ hafter) rfl

lemma standing_of_mem (hmem : announce seq addr ∈ frames) (hnot : withdraw seq ∉ frames) :
    Standing frames seq addr := by
  obtain ⟨before, after, rfl⟩ := append_of_mem hmem
  exact ⟨before, after, rfl, fun h => hnot (mem_append_right _ (mem_cons_of_mem _ h))⟩

lemma foldl_run_of_not_negotiated (hneg : c.qntAPINegotiated = false) (calls : List LocalCall) :
    calls.foldl LocalCall.run c = c := by
  induction calls with
  | nil => rfl
  | cons call calls ih =>
    have hcall : LocalCall.run c call = c := by
      cases call with
      | add addr => simp [LocalCall.run, addNATTraversalAddress, hneg, Except.toOption]
      | remove addr =>
        simp [LocalCall.run, removeNATTraversalAddress, removeLocalAddress, hneg, Except.toOption]
    rw [foldl_cons, hcall, ih]

lemma ServerRun.mem_localAddrs_iff {server : QntConn} (h : ServerRun server)
    {delivered : List QntFrame} (hdelivered : delivered.Perm server.queued) (addr : AddrPort) :
    addr ∈ server.localAddrs.map QntLocalAddress.addr ↔
      ∃ seq, announce seq addr ∈ delivered ∧ withdraw seq ∉ delivered := by
  simp only [hdelivered.mem_iff, ← h.mem_localAddrs, mem_map]
  constructor
  · rintro ⟨a, ha, rfl⟩
    exact ⟨a.seq, ha⟩
  · rintro ⟨seq, ha⟩
    exact ⟨_, ha, rfl⟩

lemma mem_addresses_iff_standing {limit serverLimit : ℕ} {calls : List LocalCall}
    (hdelivered : delivered.Perm (calls.foldl LocalCall.run (.new true limit serverLimit)).queued)
    (hroom : EachStep receive NotRefused (.new false serverLimit limit) delivered) (addr : AddrPort) :
    addr ∈ (delivered.foldl receive (.new false serverLimit limit)).remote.addresses ↔
      ∃ seq, Standing delivered seq addr ∧ addr.port ≠ 0 := by
  rw [mem_addresses]
  refine exists_congr fun seq => ?_
  cases hneg : (QntConn.new true limit serverLimit).qntAPINegotiated with
  | true =>
    have hneg' : (QntConn.new false serverLimit limit).qntAPINegotiated = true := by
      rw [← hneg]
      exact Bool.and_comm _ _
    have hnumbered := ((ServerRun.new limit serverLimit).foldl calls).numbered.perm hdelivered
    exact (get?_foldl_receive hneg' (fun _ => rfl) delivered hnumbered hroom).2 seq addr
  | false =>
    -- no frame was queued
    rw [foldl_run_of_not_negotiated hneg] at hdelivered
    obtain rfl := hdelivered.eq_nil
    refine iff_of_false (by simp [QntConn.new, QntRemoteAddressState.new]) ?_
    rintro ⟨⟨before, after, heq, -⟩, -⟩
    simp at heq

/-- **After all frames of a server were handled, in any order and without a refusal, client and server
agree exactly if the server's addresses all have a port, and every address that was withdrawn before it
was announced is one that the server has again.** -/
theorem converges_iff_none_left_behind (limit serverLimit : ℕ) (calls : List LocalCall)
    (delivered : List QntFrame)
    (hdelivered : delivered.Perm (calls.foldl LocalCall.run (.new true limit serverLimit)).queued)
    (hroom : EachStep receive NotRefused (.new false serverLimit limit) delivered) :
    Agree (delivered.foldl receive (.new false serverLimit limit))
        (calls.foldl LocalCall.run (.new true limit serverLimit)) ↔
      (∀ a ∈ (calls.foldl LocalCall.run (.new true limit serverLimit)).localAddrs, a.addr.port ≠ 0) ∧
        ∀ seq addr, addr.port ≠ 0 → LeftBehind delivered seq addr →
          addr ∈ (calls.foldl LocalCall.run (.new true limit serverLimit)).localAddrs.map
            QntLocalAddress.addr := by
  have hserver := (ServerRun.new limit serverLimit).foldl calls
  have hremote := mem_addresses_iff_standing hdelivered hroom
  generalize calls.foldl LocalCall.run (.new true limit serverLimit) = server at hserver hdelivered ⊢
  have hnumbered := hserver.numbered.perm hdelivered
  have hlocal := hserver.mem_localAddrs_iff hdelivered
  constructor
  · intro hagree
    constructor
    · intro a ha
      obtain ⟨seq, -, hport⟩ := (hremote a.addr).mp ((hagree a.addr).mpr (mem_map.mpr ⟨a, ha, rfl⟩))
      exact hport
    · rintro seq addr hport hleft
      have hwithdrawn : withdraw seq ∈ delivered := by
        obtain ⟨before, after, rfl, hmem⟩ := hleft
        exact mem_append_left _ hmem
      have hstanding := (standing_iff_leftBehind hnumbered hwithdrawn).mpr hleft
      exact (hagree addr).mp ((hremote addr).mpr ⟨seq, hstanding, hport⟩)
  · rintro ⟨hports, hleft⟩ addr
    constructor
    · intro hmem
      obtain ⟨seq, hstanding, hport⟩ := (hremote addr).mp hmem
      by_cases hwithdrawn : withdraw seq ∈ delivered
      · exact hleft seq addr hport ((standing_iff_leftBehind hnumbered hwithdrawn).mp hstanding)
      · exact (hlocal addr).mpr ⟨seq, mem_of_standing hstanding, hwithdrawn⟩
    · intro hmem
      obtain ⟨seq, hann, hnot⟩ := (hlocal addr).mp hmem
      obtain ⟨a, ha, rfl⟩ := mem_map.mp hmem
      exact (hremote a.addr).mpr ⟨seq, standing_of_mem hann hnot, hports a ha⟩

def addAndRemove : List LocalCall := [.add (.plain ⟨1, 1⟩), .remove (.plain ⟨1, 1⟩)]

def removalFirst : List QntFrame := [withdraw 0, announce 0 ⟨1, 1⟩]

lemma notRefused_removalFirst : EachStep receive NotRefused (.new false 2 2) removalFirst :=
  eachStep_cons.mpr ⟨by decide, eachStep_cons.mpr ⟨by decide, eachStep_nil _ _⟩⟩

theorem converges_iff_none_left_behind_removalFirst :
    ¬ Agree (removalFirst.foldl receive (.new false 2 2))
        (addAndRemove.foldl LocalCall.run (.new true 2 2)) := by
  intro hagree
  obtain ⟨-, hleft⟩ :=
    (converges_iff_none_left_behind 2 2 addAndRemove removalFirst (by decide)
      notRefused_removalFirst).mp hagree
  exact absurd (hleft 0 ⟨1, 1⟩ (by decide) ⟨[withdraw 0], [], rfl, by decide⟩) (by decide)

/-- The REMOVE_ADDRESS finds nothing to remove, and the client keeps the address that the server has
given up. -/
theorem removed_address_kept :
    removalFirst.Perm (addAndRemove.foldl LocalCall.run (.new true 2 2)).queued ∧
      (addAndRemove.foldl LocalCall.run (.new true 2 2)).localAddrs = [] ∧
      (removalFirst.foldl receive (.new false 2 2)).remote.addresses = [⟨1, 1⟩] ∧
      ¬ Agree (removalFirst.foldl receive (.new false 2 2))
        (addAndRemove.foldl LocalCall.run (.new true 2 2)) := by
  refine ⟨by decide, by decide, by decide, fun hagree => ?_⟩
  exact absurd ((hagree ⟨1, 1⟩).mp (by decide)) (by decide)

end NatConvergence

end Iroh.Qng
