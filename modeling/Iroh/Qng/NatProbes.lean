import Mathlib.Data.Finset.Card
import Iroh.Common.Runs
import Iroh.Qng.NatTraversal

/-!
# Probes and the paths they open

The life of a probed address: it is queued by a round of the connection itself or by a REACH_OUT frame, is
sent challenges until it answers or its attempts are used up, waits among the validated addresses, and
becomes the route of a path.

A REACH_OUT frame is refused when there are too many probes.  An address that was tried again counts once
for each challenge that is still out, one that has become a path does not count any more, and one that was
validated in an earlier round of a client still does.  Where none of this happens, the probes are the
addresses of the round (`Once`).

`Probing.seen` holds the addresses queued in the current round.  No function reads it.
-/

namespace Iroh.Qng

open QntConn List

namespace NatProbes

structure Probing where
  conn : QntConn
  multipath : MultipathConn
  seen : Finset AddrPort

def Probing.start (server : Bool) (localAddressLimit remoteAddressLimit : ℕ) : Probing where
  conn := .new server localAddressLimit remoteAddressLimit
  multipath := .new
  seen := ∅

/-- What may happen.  The challenges are random, the order of a retry is that of a Go map. -/
inductive Action where
  | addNATTraversalAddress (addr : NetipAddrPort)
  | removeNATTraversalAddress (addr : NetipAddrPort)
  | addRemoteNATTraversalAddress (addr : NetipAddrPort)
  | initiateNATTraversalRound
  | frame (f : QntFrame)
  | send (challenge : Token) (now initialRTT : ℕ)
  | retry (now : ℕ) (order : List AddrPort)
  | pathResponse (data : Token) (source : NetipAddrPort)
  /-- `qntOpenValidatedPathLocked`; `possible` is that the path can be opened and allocated. -/
  | openValidated (possible : Bool)
  /-- `openPathLocked`, once the path can be opened. -/
  | openPath (allocated : Bool)
  /-- `maybeJoinPath`. -/
  | join (pid : ℕ)

/-- The connection goes on to a state.  A new round begins with the addresses that it queues. -/
def Probing.goOn (s : Probing) (conn : QntConn) : Probing :=
  { s with
    conn := conn
    seen := (if conn.round = s.conn.round then s.seen else ∅) ∪ conn.pendingProbes.toFinset }

def Probing.qntOpenValidatedPathLocked (s : Probing) (possible : Bool) : Probing :=
  match s.conn.validatedProbes with
  | [] => s
  | route :: rest =>
    if !possible then s
    else
      { s with
        conn := { s.conn with validatedProbes := rest }
        multipath := s.multipath.openPath (.new true (some route)) }

def Probing.openPathLocked (s : Probing) (allocated : Bool) : Probing :=
  { s with
    multipath :=
      if allocated then s.multipath.openPath (.new false none)
      else { s.multipath with nextPathID := s.multipath.nextPathID + 1 } }

def step (s : Probing) : Action → Probing
  | .addNATTraversalAddress addr => s.goOn ((s.conn.addNATTraversalAddress addr).toOption.getD s.conn)
  | .removeNATTraversalAddress addr =>
    s.goOn ((s.conn.removeNATTraversalAddress addr).toOption.getD s.conn)
  | .addRemoteNATTraversalAddress addr =>
    s.goOn ((s.conn.addRemoteNATTraversalAddress addr).toOption.getD s.conn)
  | .initiateNATTraversalRound =>
    s.goOn (match s.conn.initiateNATTraversalRound with
      | .ok (conn, _) => conn
      | .error _ => s.conn)
  | .frame f => s.goOn (s.conn.handleFrame f).1
  | .send challenge now initialRTT => s.goOn (s.conn.sendProbe challenge now initialRTT)
  | .retry now order => s.goOn (s.conn.qntHandleRetryDeadline now order)
  | .pathResponse data source => s.goOn (s.conn.handleQNTPathResponseFrame data source)
  | .openValidated possible => s.qntOpenValidatedPathLocked possible
  | .openPath allocated => s.openPathLocked allocated
  | .join pid => { s with multipath := s.multipath.maybeJoinPath pid }

/-! ## What the calls leave alone -/

variable {c c' : QntConn} {s : Probing}

/-- What is probed, and in which round. -/
def probes (c : QntConn) : ℕ × List AddrPort × GoMap Token AddrPort × List AddrPort :=
  (c.round, c.pendingProbes, c.sentProbes, c.validatedProbes)

lemma probes_addNATTraversalAddress (addr : NetipAddrPort) :
    probes ((c.addNATTraversalAddress addr).toOption.getD c) = probes c := by
  unfold addNATTraversalAddress
  repeat' split
  all_goals rfl

lemma probes_of_removeLocalAddress (h : c.removeLocalAddress addr = .ok (c', a)) : probes c' = probes c := by
  unfold removeLocalAddress at h
  split at h
  · cases h
  · split at h
    · cases h
      rfl
    · split at h <;> cases h <;> rfl

lemma probes_removeNATTraversalAddress (addr : NetipAddrPort) :
    probes ((c.removeNATTraversalAddress addr).toOption.getD c) = probes c := by
  unfold removeNATTraversalAddress
  split
  · rfl
  next h => exact probes_of_removeLocalAddress h
  next c' a h =>
    refine Eq.trans ?_ (probes_of_removeLocalAddress h)
    simp only [Except.toOption, Option.getD, queueRemoval]
    split <;> rfl

lemma probes_addRemoteNATTraversalAddress (addr : NetipAddrPort) :
    probes ((c.addRemoteNATTraversalAddress addr).toOption.getD c) = probes c := by
  unfold addRemoteNATTraversalAddress
  repeat' split
  all_goals rfl

lemma probes_addRemoteFrame (frame : AddAddressFrame) : probes (c.handleFrame (.addAddress frame)).1 = probes c := by
  simp only [handleFrame]
  split
  · rfl
  next h =>
    obtain ⟨remote, rfl⟩ := addRemoteFrame_eq_ok h
    rfl

lemma probes_removeRemoteFrame (frame : RemoveAddressFrame) :
    probes (c.handleFrame (.removeAddress frame)).1 = probes c := by
  simp only [handleFrame]
  split
  · rfl
  next h =>
    obtain ⟨remote, rfl⟩ := removeRemoteFrame_eq_ok h
    rfl

/-! ## Each address is probed once -/

def live (c : QntConn) : Finset AddrPort :=
  (c.pendingProbes ++ c.validatedProbes ++ c.sentProbes.values).toFinset

lemma mem_live : addr ∈ live c ↔ c.qntHasProbeLocked addr = true := by
  simp [live, qntHasProbeLocked, qntHasSentProbeLocked, or_assoc]

/-- An address is queued at most once, has at most one challenge out and is not queued when it is validated. -/
structure OnceConn (c : QntConn) : Prop where
  pending : c.pendingProbes.Nodup
  validated : c.validatedProbes.Nodup
  apart : ∀ addr ∈ c.pendingProbes, addr ∉ c.validatedProbes
  sent : c.sentProbes.values.Nodup
  ports : ∀ addr ∈ c.sentProbes.values, addr.port ≠ 0

lemma OnceConn.count_eq (h : OnceConn c) : c.qntProbeCountLocked = (live c).card := by
  let outside : AddrPort → Bool := fun sent => sent ∉ c.pendingProbes && sent ∉ c.validatedProbes
  have hnodup : (c.pendingProbes ++ c.validatedProbes ++ c.sentProbes.values.filter outside).Nodup := by
    refine (h.pending.append h.validated fun a ha hv => h.apart a ha hv).append (h.sent.filter _) fun a ha hs => ?_
    have hout := of_mem_filter hs
    simp only [outside, Bool.and_eq_true, decide_eq_true_eq] at hout
    exact (mem_append.mp ha).elim hout.1 hout.2
  have hlive : (c.pendingProbes ++ c.validatedProbes ++ c.sentProbes.values.filter outside).toFinset = live c := by
    ext a
    simp only [live, outside, mem_toFinset, mem_append, mem_filter, Bool.and_eq_true, decide_eq_true_eq]
    tauto
  rw [← hlive, toFinset_card_of_nodup hnodup, length_append, length_append, qntProbeCountLocked,
    countP_eq_length_filter]

/-- The probes are those of the addresses of the round. -/
structure Once (s : Probing) : Prop where
  conn : OnceConn s.conn
  seen : s.seen = live s.conn

lemma Once.goOn (h : Once s) (hconn : OnceConn c)
    (hlive : ∀ addr, addr ∈ live c ↔ addr ∈ c.pendingProbes ∨ c.round = s.conn.round ∧ addr ∈ live s.conn) :
    Once (s.goOn c) := by
  refine ⟨hconn, Finset.ext fun addr => ?_⟩
  show addr ∈ (if c.round = s.conn.round then s.seen else ∅) ∪ c.pendingProbes.toFinset ↔ addr ∈ live c
  rw [hlive, Finset.mem_union, mem_toFinset, h.seen, or_comm]
  split <;> simp [*]

lemma live_same (hprobes : probes c' = probes c) : live c' = live c ∧ c'.round = c.round := by
  simp only [probes, Prod.mk.injEq] at hprobes
  obtain ⟨hround, hpending, hsent, hvalidated⟩ := hprobes
  exact ⟨by rw [live, live, hpending, hsent, hvalidated], hround⟩

lemma OnceConn.same (h : OnceConn c) (hprobes : probes c' = probes c) : OnceConn c' := by
  simp only [probes, Prod.mk.injEq] at hprobes
  obtain ⟨-, hpending, hsent, hvalidated⟩ := hprobes
  constructor
  · exact hpending ▸ h.pending
  · exact hvalidated ▸ h.validated
  · rw [hpending, hvalidated]
    exact h.apart
  · exact hsent ▸ h.sent
  · exact hsent ▸ h.ports

lemma mem_live_of_pending (h : addr ∈ c.pendingProbes) : addr ∈ live c := by simp [live, h]

/-- A call that leaves the addresses that have probes as they are. -/
lemma Once.stay (h : Once s) (hconn : OnceConn c) (hlive : live c = live s.conn) (hround : c.round = s.conn.round) :
    Once (s.goOn c) := by
  refine h.goOn hconn fun addr => ?_
  rw [and_iff_right hround, ← hlive, iff_or_self]
  exact mem_live_of_pending

lemma Once.same (h : Once s) (hprobes : probes c = probes s.conn) : Once (s.goOn c) :=
  h.stay (h.conn.same hprobes) (live_same hprobes).1 (live_same hprobes).2

lemma nodup_append_singleton {l : List AddrPort} (hl : l.Nodup) (h : addr ∉ l) : (l ++ [addr]).Nodup := by
  rw [← concat_eq_append]
  exact hl.concat h

/-- The connection with a probe of `addr` queued. -/
def queued (c : QntConn) (addr : AddrPort) : QntConn :=
  { c with
    pendingProbes := c.pendingProbes ++ [addr]
    probeAttempts := c.probeAttempts.set addr (qntMaxProbeAttempts - 1) }

/-- A REACH_OUT frame may start its round, and may queue an address that has no probe in it. -/
lemma reachOut_cases (c : QntConn) (frame : ReachOutFrame) :
    ∃ base, (base = c ∨ c.round < frame.round ∧ base = c.enterRound frame.round) ∧
      ((c.handleReachOutFrame frame).1 = base ∨
        ∃ addr, ¬ base.qntHasProbeLocked addr ∧ (c.handleReachOutFrame frame).1 = queued base addr) := by
  unfold handleReachOutFrame
  split
  · exact ⟨c, .inl rfl, .inl rfl⟩
  · unfold qntQueueReachOutProbe
    split
    · exact ⟨c, .inl rfl, .inl rfl⟩
    next addr _ =>
      split
      · exact ⟨c, .inl rfl, .inl rfl⟩
      · split
        · exact ⟨c, .inl rfl, .inl rfl⟩
        · dsimp only
          generalize hbase : (if c.round < frame.round then c.enterRound frame.round else c) = base
          refine ⟨base, ?_, ?_⟩
          · split at hbase
            next hnew => exact .inr ⟨hnew, hbase.symm⟩
            · exact .inl hbase.symm
          · split
            · exact .inl rfl
            next hnot =>
              split
              · exact .inl rfl
              · exact .inr ⟨addr, hnot, rfl⟩

lemma not_mem_live_enterRound (round : ℕ) : addr ∉ live (c.enterRound round) := by
  simp [live, enterRound, GoMap.values, GoMap.empty]

lemma onceConn_enterRound (c : QntConn) (round : ℕ) : OnceConn (c.enterRound round) :=
  ⟨nodup_nil, nodup_nil, fun _ _ => not_mem_nil, nodup_nil, fun _ ha => absurd ha not_mem_nil⟩

lemma OnceConn.queued (h : OnceConn c) (hnot : addr ∉ live c) : OnceConn (queued c addr) := by
  simp only [live, mem_toFinset, mem_append, not_or] at hnot
  refine ⟨nodup_append_singleton h.pending hnot.1.1, h.validated, fun a ha => ?_, h.sent, h.ports⟩
  rcases mem_append.mp ha with ha | ha
  · exact h.apart a ha
  · exact mem_singleton.mp ha ▸ hnot.1.2

lemma Once.reachOut (h : Once s) (frame : ReachOutFrame) : Once (s.goOn (s.conn.handleReachOutFrame frame).1) := by
  obtain ⟨base, hbase, hcases⟩ := reachOut_cases s.conn frame
  have hbase : OnceConn base ∧ ∀ a, a ∈ live base ↔ base.round = s.conn.round ∧ a ∈ live s.conn := by
    rcases hbase with rfl | ⟨hnew, rfl⟩
    · exact ⟨h.conn, fun a => (and_iff_right rfl).symm⟩
    · -- a new round has no other probes
      exact ⟨onceConn_enterRound _ _, fun a =>
        iff_of_false (not_mem_live_enterRound _) fun hold => absurd hold.1 (Nat.ne_of_gt hnew)⟩
  rcases hcases with heq | ⟨addr, hnot, heq⟩
  · rw [heq]
    refine h.goOn hbase.1 fun a => ?_
    rw [← hbase.2, iff_or_self]
    exact mem_live_of_pending
  · rw [heq]
    refine h.goOn (hbase.1.queued (mt mem_live.mp hnot)) fun a => ?_
    show _ ↔ _ ∨ base.round = s.conn.round ∧ _
    rw [← hbase.2]
    simp only [live, NatProbes.queued, mem_toFinset, mem_append, mem_singleton]
    tauto

/-- A round probes the remote addresses and keeps the validated ones. -/
lemma initiate_ok (h : c.initiateNATTraversalRound = .ok (c', addrs)) :
    c'.pendingProbes = c.remote.addresses ∧ c'.validatedProbes = c.validatedProbes ∧ c'.sentProbes = .empty ∧
      c'.round = c.round + 1 := by
  unfold initiateNATTraversalRound at h
  split at h
  · cases h
  · split at h
    · cases h
    · dsimp only at h
      split at h
      · cases h
      · cases h
        exact ⟨rfl, rfl, rfl, rfl⟩

lemma Once.initiate (h : Once s) (hvalidated : s.conn.validatedProbes = []) (hnodup : s.conn.remote.addresses.Nodup) :
    Once (step s .initiateNATTraversalRound) := by
  simp only [step]
  split
  next hok =>
    obtain ⟨hpending, hkept, hsent, hround⟩ := initiate_ok hok
    rw [hvalidated] at hkept
    refine h.goOn ⟨hpending ▸ hnodup, hkept ▸ nodup_nil, ?_, hsent ▸ nodup_nil, ?_⟩ fun a => ?_
    · rw [hkept]
      exact fun _ _ => not_mem_nil
    · rw [hsent]
      exact fun _ ha => absurd ha not_mem_nil
    · simp [live, hkept, hsent, hround, GoMap.values, GoMap.empty]
  · exact h.same rfl

/-- The challenge and the address it is for have no other challenge out. -/
def FreshProbe (c : QntConn) (challenge : Token) : Prop :=
  challenge ∉ c.sentProbes.keys ∧ ∀ addr ∈ c.pendingProbes.head?, addr.port ≠ 0 ∧ addr ∉ c.sentProbes.values

instance (c : QntConn) (challenge : Token) : Decidable (FreshProbe c challenge) :=
  inferInstanceAs (Decidable (_ ∧ _))

lemma probes_qntArmNextRetry (now initialRTT : ℕ) : probes (c.qntArmNextRetry now initialRTT) = probes c := by
  unfold qntArmNextRetry
  dsimp only
  split <;> rfl

lemma Once.send (h : Once s) (hfresh : FreshProbe s.conn challenge) (now initialRTT : ℕ) :
    Once (s.goOn (s.conn.sendProbe challenge now initialRTT)) := by
  unfold sendProbe qntPopPendingProbe
  cases hpending : s.conn.pendingProbes with
  | nil => exact h.same rfl
  | cons addr rest =>
    obtain ⟨hport, hout⟩ := hfresh.2 addr (by rw [hpending]; rfl)
    dsimp only
    rw [if_neg hport]
    dsimp only
    have hvalues : (s.conn.sentProbes.set challenge addr).values = s.conn.sentProbes.values ++ [addr] := by
      rw [GoMap.values, GoMap.set_of_not_mem hfresh.1, map_append]
      rfl
    have hnodup := h.conn.pending
    have hapart := h.conn.apart
    rw [hpending] at hnodup hapart
    have hsent : OnceConn { s.conn with pendingProbes := rest, sentProbes := s.conn.sentProbes.set challenge addr } := by
      refine ⟨hnodup.of_cons, h.conn.validated, fun a ha => hapart a (mem_cons_of_mem _ ha), ?_, ?_⟩
      · rw [hvalues]
        exact nodup_append_singleton h.conn.sent hout
      · rw [hvalues]
        intro a ha
        rcases mem_append.mp ha with ha | ha
        · exact h.conn.ports a ha
        · exact mem_singleton.mp ha ▸ hport
    have hprobes := probes_qntArmNextRetry
      (c := { s.conn with pendingProbes := rest, sentProbes := s.conn.sentProbes.set challenge addr }) now initialRTT
    refine h.stay (hsent.same hprobes) ((live_same hprobes).1.trans ?_) (live_same hprobes).2
    ext a
    simp only [live, hvalues, hpending, mem_toFinset, mem_append, mem_cons]
    tauto

lemma OnceConn.queueProbeRetry (h : OnceConn c) (b : Bool) (addr : AddrPort) :
    OnceConn (queueProbeRetry (c, b) addr).1 ∧ live (queueProbeRetry (c, b) addr).1 = live c ∧
      (queueProbeRetry (c, b) addr).1.round = c.round := by
  unfold QntConn.queueProbeRetry
  split
  · exact ⟨h, rfl, rfl⟩
  · dsimp only
    split
    next hcan =>
      simp only [qntCanRetryProbeLocked, qntHasSentProbeLocked, Bool.and_eq_true, decide_eq_true_eq, any_eq_true] at hcan
      obtain ⟨⟨⟨-, hpending⟩, hvalidated⟩, sent, hsent, rfl⟩ := hcan
      refine ⟨⟨?_, h.validated, ?_, h.sent, h.ports⟩, ?_, rfl⟩
      · exact nodup_append_singleton h.pending hpending
      · intro a ha
        rcases mem_append.mp ha with ha | ha
        · exact h.apart a ha
        · exact mem_singleton.mp ha ▸ hvalidated
      · ext a
        simp only [live, mem_toFinset, mem_append, mem_singleton]
        constructor
        · rintro (((ha | rfl) | ha) | ha) <;> tauto
        · tauto
    · exact ⟨h, rfl, rfl⟩

lemma OnceConn.retries (h : OnceConn c) (order : List AddrPort) (b : Bool) :
    OnceConn (order.foldl QntConn.queueProbeRetry (c, b)).1 ∧
      live (order.foldl QntConn.queueProbeRetry (c, b)).1 = live c ∧
      (order.foldl QntConn.queueProbeRetry (c, b)).1.round = c.round := by
  induction order generalizing c b with
  | nil => exact ⟨h, rfl, rfl⟩
  | cons addr order ih =>
    obtain ⟨honce, hlive, hround⟩ := h.queueProbeRetry b addr
    obtain ⟨honce', hlive', hround'⟩ := ih honce (QntConn.queueProbeRetry (c, b) addr).2
    exact ⟨honce', hlive'.trans hlive, hround'.trans hround⟩

lemma Once.retry (h : Once s) (now : ℕ) (order : List AddrPort) :
    Once (s.goOn (s.conn.qntHandleRetryDeadline now order)) := by
  unfold qntHandleRetryDeadline qntQueueProbeRetries
  split
  · exact h.same rfl
  · obtain ⟨honce, hlive, hround⟩ := h.conn.retries order false
    generalize order.foldl QntConn.queueProbeRetry (s.conn, false) = r at honce hlive hround
    obtain ⟨c, b⟩ := r
    cases b with
    | true => exact h.stay (honce.same rfl) hlive hround
    | false => exact h.stay (honce.same rfl) hlive hround

lemma OnceConn.queueValidated (h : OnceConn c) (hport : addr.port ≠ 0) (hpending : addr ∉ c.pendingProbes) :
    OnceConn (c.qntQueueValidatedProbe addr) ∧ live (c.qntQueueValidatedProbe addr) = insert addr (live c) ∧
      (c.qntQueueValidatedProbe addr).round = c.round := by
  rw [qntQueueValidatedProbe, if_neg hport]
  split
  next hold =>
    refine ⟨h, (Finset.insert_eq_of_mem ?_).symm, rfl⟩
    simp [live, hold]
  next hnew =>
    refine ⟨⟨h.pending, nodup_append_singleton h.validated hnew, fun a ha hmem => ?_, h.sent, h.ports⟩, ?_, rfl⟩
    · rcases mem_append.mp hmem with hmem | hmem
      · exact h.apart a ha hmem
      · exact hpending (mem_singleton.mp hmem ▸ ha)
    · ext a
      simp only [live, mem_toFinset, mem_append, mem_singleton, Finset.mem_insert]
      tauto

/-- The connection when `remote` has answered, just before it is validated. -/
def answered (c : QntConn) (data : Token) (remote : AddrPort) (nextRetry : ℕ) : QntConn :=
  { c with
    sentProbes := c.sentProbes.delete data
    probeAttempts := c.probeAttempts.delete remote
    pendingProbes := c.pendingProbes.filter fun addr => addr ≠ remote
    nextRetry := nextRetry }

/-- A response is ignored, or the address of its challenge has answered. -/
lemma pathResponse_cases (c : QntConn) (data : Token) (source : NetipAddrPort) :
    c.handleQNTPathResponseFrame data source = c ∨
      ∃ remote nextRetry, c.sentProbes.get? data = some remote ∧
        c.handleQNTPathResponseFrame data source =
          (answered c data remote nextRetry).qntQueueValidatedProbe remote := by
  unfold handleQNTPathResponseFrame qntConsumePathResponse
  cases canonicalNATTraversalAddr source with
  | none => exact .inl rfl
  | some source =>
    dsimp only
    cases c.sentProbes.get? data with
    | none => exact .inl rfl
    | some remote =>
      dsimp only
      by_cases hne : remote ≠ source
      · rw [if_pos hne]
        exact .inl rfl
      · rw [if_neg hne]
        exact .inr ⟨remote, _, rfl, rfl⟩

lemma values_delete_sublist (m : GoMap Token AddrPort) (data : Token) : (m.delete data).values.Sublist m.values :=
  filter_sublist.map _

lemma mem_values_delete {m : GoMap Token AddrPort} (hget : m.get? data = some addr) (hne : a ≠ addr) :
    a ∈ (m.delete data).values ↔ a ∈ m.values := by
  refine ⟨fun h => (values_delete_sublist m data).subset h, fun h => ?_⟩
  obtain ⟨k, hk⟩ := GoMap.mem_values_iff.mp h
  refine GoMap.mem_values_iff.mpr ⟨k, ?_⟩
  rw [GoMap.get?_delete, if_neg ?_]
  · exact hk
  · rintro rfl
    exact hne (Option.some.inj (hk.symm.trans hget))

lemma OnceConn.answered (h : OnceConn c) (data : Token) (remote : AddrPort) (nextRetry : ℕ) :
    OnceConn (answered c data remote nextRetry) :=
  have hsub := values_delete_sublist c.sentProbes data
  ⟨h.pending.filter _, h.validated, fun a ha => h.apart a (mem_of_mem_filter ha), h.sent.sublist hsub,
    fun a ha => h.ports a (hsub.subset ha)⟩

lemma insert_live_answered (hget : c.sentProbes.get? data = some addr) (nextRetry : ℕ) :
    insert addr (live (answered c data addr nextRetry)) = live c := by
  ext a
  by_cases ha : a = addr
  · subst ha
    simp [live, GoMap.mem_values_iff.mpr ⟨data, hget⟩]
  · have hvalues := mem_values_delete hget ha
    simp only [live, NatProbes.answered, Finset.mem_insert, mem_toFinset, mem_append, mem_filter, decide_eq_true_eq]
    tauto

/-- The probed address moves on to the validated ones, whichever of its challenges is answered. -/
lemma Once.pathResponse (h : Once s) (data : Token) (source : NetipAddrPort) :
    Once (s.goOn (s.conn.handleQNTPathResponseFrame data source)) := by
  rcases pathResponse_cases s.conn data source with heq | ⟨remote, nextRetry, hget, heq⟩
  · rw [heq]
    exact h.same rfl
  · obtain ⟨honce, hlive, hround⟩ := (h.conn.answered data remote nextRetry).queueValidated
      (h.conn.ports remote (GoMap.mem_values_iff.mpr ⟨data, hget⟩)) (by simp [NatProbes.answered])
    rw [heq]
    exact h.stay honce (hlive.trans (insert_live_answered hget nextRetry)) hround

/-- No challenge follows another to the same address, no validated address becomes a path, and a client
begins a round with no validated address left. -/
def Plain (s : Probing) : Action → Prop
  | .send challenge _ _ => FreshProbe s.conn challenge
  | .openValidated possible => possible = false ∨ s.conn.validatedProbes = []
  | .initiateNATTraversalRound => s.conn.validatedProbes = [] ∧ s.conn.remote.addresses.Nodup
  | _ => True

/-- A step of a plain run keeps the probes those of the round. -/
lemma once_step (action : Action) (hplain : Plain s action) (h : Once s) : Once (step s action) := by
  cases action with
  | addNATTraversalAddress addr => exact h.same (probes_addNATTraversalAddress addr)
  | removeNATTraversalAddress addr => exact h.same (probes_removeNATTraversalAddress addr)
  | addRemoteNATTraversalAddress addr => exact h.same (probes_addRemoteNATTraversalAddress addr)
  | initiateNATTraversalRound => exact h.initiate hplain.1 hplain.2
  | frame f =>
    cases f with
    | reachOut frame => exact h.reachOut frame
    | addAddress frame => exact h.same (probes_addRemoteFrame frame)
    | removeAddress frame => exact h.same (probes_removeRemoteFrame frame)
  | send challenge now initialRTT => exact h.send hplain now initialRTT
  | retry now order => exact h.retry now order
  | pathResponse data source => exact h.pathResponse data source
  | openValidated possible =>
    have hnone : step s (.openValidated possible) = s := by
      rcases hplain with rfl | hnil
      · simp only [step, Probing.qntOpenValidatedPathLocked]
        split <;> rfl
      · simp only [step, Probing.qntOpenValidatedPathLocked, hnil]
    rwa [hnone]
  | openPath allocated => exact ⟨h.conn, h.seen⟩
  | join pid => exact ⟨h.conn, h.seen⟩

/-! ## REACH_OUT frames -/

def Probing.seenIn (s : Probing) (round : ℕ) : Finset AddrPort :=
  if s.conn.round < round then ∅ else s.seen

/-- A REACH_OUT frame is refused for the number of addresses only if its address is new in the round and
the addresses of the round have reached the limit. -/
def RefusedOnlyIfFull (s : Probing) : Action → Prop
  | .frame (.reachOut frame) =>
    (s.conn.handleReachOutFrame frame).2 = some .tooManyAddresses →
      ∀ addr, canonicalNATTraversalAddr frame.addr = some addr →
        addr ∉ s.seenIn frame.round ∧ s.conn.remoteAddressLimit ≤ (s.seenIn frame.round).card
  | _ => True

/-- When a REACH_OUT frame is refused for the number of addresses. -/
lemma refused_iff (c : QntConn) (frame : ReachOutFrame) :
    (c.handleReachOutFrame frame).2 = some .tooManyAddresses ↔
      ∃ addr, canonicalNATTraversalAddr frame.addr = some addr ∧ addr.port ≠ 0 ∧
        c.qntAPINegotiated = true ∧ frame.round = c.round ∧ addr ∉ live c ∧
          c.remoteAddressLimit ≤ c.qntProbeCountLocked := by
  simp only [handleReachOutFrame, qntQueueReachOutProbe]
  cases hneg : c.qntAPINegotiated with
  | false => simp
  | true =>
    have hlimit : c.remoteAddressLimit ≠ 0 := by
      simp only [qntAPINegotiated, Bool.and_eq_true, decide_eq_true_eq] at hneg
      exact hneg.1
    cases haddr : canonicalNATTraversalAddr frame.addr with
    | none => simp
    | some addr =>
      by_cases hport : addr.port = 0
      · simp [hport]
      · rcases Nat.lt_trichotomy frame.round c.round with hround | hround | hround
        · simp [hround, Nat.ne_of_lt hround]
        · by_cases hlive : c.qntHasProbeLocked addr = true
          · simp [hround, hlive, mem_live]
          · by_cases hfull : c.remoteAddressLimit ≤ c.qntProbeCountLocked
            · simp [hport, hround, hlive, hfull, mem_live]
            · simp [hport, hround, hlive, hfull]
        · -- the new round has no probes
          have hnone : (c.enterRound frame.round).qntHasProbeLocked addr = false := by
            simp [enterRound, qntHasProbeLocked, qntHasSentProbeLocked, GoMap.values, GoMap.empty]
          have hzero : (c.enterRound frame.round).qntProbeCountLocked = 0 := by
            simp [enterRound, qntProbeCountLocked, GoMap.values, GoMap.empty]
          have hsame : (c.enterRound frame.round).remoteAddressLimit = c.remoteAddressLimit := rfl
          simp [hport, hround, Nat.not_lt.mpr (Nat.le_of_lt hround), hnone, hzero, hsame, hlimit,
            Nat.ne_of_gt hround]

/-- **In a run without second challenges, openings and left validated addresses, REACH_OUT frames are refused
for the number of addresses only.** -/
theorem refused_only_if_full_of_plain (server : Bool) (localAddressLimit remoteAddressLimit : ℕ)
    (actions : List Action)
    (hplain : EachStep step Plain (.start server localAddressLimit remoteAddressLimit) actions) :
    EachStep step RefusedOnlyIfFull (.start server localAddressLimit remoteAddressLimit) actions := by
  have hstart : Once (.start server localAddressLimit remoteAddressLimit) :=
    ⟨⟨nodup_nil, nodup_nil, nofun, nodup_nil, nofun⟩, rfl⟩
  have honce : EachState step Once _ actions :=
    eachState_of_eachStep (fun _ action => once_step action) hstart hplain
  intro pre action hpre
  have h := honce pre ((prefix_append pre [action]).trans hpre)
  generalize pre.foldl step _ = s at h
  cases action with
  | frame f =>
    cases f with
    | reachOut frame =>
      intro hrefused addr haddr
      obtain ⟨addr', haddr', -, -, hround, hnew, hfull⟩ := (refused_iff s.conn frame).mp hrefused
      obtain rfl : addr' = addr := Option.some.inj (haddr'.symm.trans haddr)
      rw [Probing.seenIn, if_neg (by omega), h.seen, ← h.conn.count_eq]
      exact ⟨hnew, hfull⟩
    | _ => trivial
  | _ => trivial

/-- A server that takes two addresses probes two, the first of which answers, and refuses a third. -/
def threeAddresses : List Action :=
  [.frame (.reachOut ⟨1, .plain ⟨1, 1⟩⟩), .send 1 0 100, .frame (.reachOut ⟨1, .plain ⟨2, 1⟩⟩),
    .pathResponse 1 (.plain ⟨1, 1⟩), .send 2 10 100, .retry 20 [⟨2, 1⟩], .frame (.reachOut ⟨1, .plain ⟨3, 1⟩⟩)]

theorem refused_only_if_full_of_plain_three :
    ((threeAddresses.dropLast.foldl step (.start true 2 2)).conn.handleReachOutFrame ⟨1, .plain ⟨3, 1⟩⟩).2 =
        some .tooManyAddresses ∧
      EachStep step RefusedOnlyIfFull (.start true 2 2) threeAddresses := by
  refine ⟨by decide, refused_only_if_full_of_plain true 2 2 threeAddresses ?_⟩
  simp only [threeAddresses, eachStep_cons, eachStep_nil, Plain, and_true, true_and]
  decide

/-- A server that takes two addresses probes one, tries it again, and is asked to probe another. -/
def triedAgain : List Action :=
  [.frame (.reachOut ⟨1, .plain ⟨1, 1⟩⟩), .send 1 0 100, .retry 10 [⟨1, 1⟩], .send 2 10 100]

/-- The second address of the round is refused: the first one counts twice. -/
theorem second_address_refused : (triedAgain.foldl step (.start true 2 2)).seen = {⟨1, 1⟩} ∧
      ((triedAgain.foldl step (.start true 2 2)).conn.handleReachOutFrame ⟨1, .plain ⟨2, 1⟩⟩).2 =
        some .tooManyAddresses ∧
      ¬ EachStep step RefusedOnlyIfFull (.start true 2 2)
        (triedAgain ++ [.frame (.reachOut ⟨1, .plain ⟨2, 1⟩⟩)]) := by
  have hseen : (triedAgain.foldl step (.start true 2 2)).seen = {⟨1, 1⟩} := by decide
  have hrefused : ((triedAgain.foldl step (.start true 2 2)).conn.handleReachOutFrame
      ⟨1, .plain ⟨2, 1⟩⟩).2 = some .tooManyAddresses := by decide
  refine ⟨hseen, hrefused, fun h => ?_⟩
  have hfull := (h triedAgain (.frame (.reachOut ⟨1, .plain ⟨2, 1⟩⟩)) prefix_rfl hrefused ⟨2, 1⟩
    rfl).2
  exact absurd hfull (by decide)

end NatProbes

end Iroh.Qng
