import Iroh.Common.Claims
import Iroh.Common.Runs
import Iroh.Docs.PeerSync
import Mathlib.Algebra.Order.BigOperators.Group.Finset

/-!
# No peer sync is lost

`l.syncing` is a table of claims: each entry belongs to exactly one call, the one that is syncing with
that peer (`Owned`).  So at most one attempt runs for a peer.

A call that has come to a peer is owed an attempt (`Owed`): the call that is syncing has been left a note, or
it is about to start with the very address that is recorded.
-/

namespace Iroh.Docs.PeerSync

open GoMap Function

/-! ## Who is syncing -/

section Owned

variable {ι : Type} {s : PeerSync ι}

/-- The claims are those of the calls, on peers that are recorded. -/
structure Owned (s : PeerSync ι) : Prop where
  claims : Claims s.syncing s.holds s.fresh
  recorded : ∀ {c p r}, s.holds c = some (p, r) → ∃ peer, s.peers.get? p = some peer
  keyed : ∀ {p peer}, s.peers.get? p = some peer → peer.id = p

lemma holds_of_call (hc : s.call c = pc) : s.holds c = pc.syncing := congrArg SyncCall.syncing hc

lemma ne_of_holds (hd : s.holds d = some x) (hc : s.holds c = none) : d ≠ c := by
  rintro rfl
  cases hc.symm.trans hd

lemma Owned.of_idle (h : Idle args s) : s.Owned := by
  obtain ⟨hpeers, hsyncing, hcall⟩ := h
  have hnone : ∀ c, s.holds c = none := fun c => holds_of_call (hcall c)
  refine ⟨?_, fun hc => ?_, fun hp => ?_⟩
  · rw [hsyncing]
    exact .of_empty hnone
  · rw [hnone] at hc
    cases hc
  · rw [hpeers] at hp
    cases hp

lemma Owned.set_peers (h : s.Owned) (peer : EndpointAddr) :
    { s with peers := s.peers.set peer.id peer }.Owned := by
  refine ⟨h.claims, fun {c p r} hc => ?_, fun {p a} ha => ?_⟩
  · rw [get?_set]
    split
    · exact ⟨peer, rfl⟩
    · exact h.recorded hc
  · rcases of_get?_set ha with ⟨rfl, rfl⟩ | ⟨-, ha⟩
    · rfl
    · exact h.keyed ha

end Owned

/-! ## What is owed -/

section Owed

variable {ι : Type}

def Begun (s : PeerSync ι) (c : ι) : Prop := ∀ peers, s.call c ≠ .waiting peers

/-- In a run with these states, latest first, an attempt for `p` has started after `c` had begun, with
the address recorded for `p` at that moment. -/
def Served (states : List (PeerSync ι)) (c : ι) (p : EndpointID) : Prop :=
  ∃ u u' d peer running rest, [u', u] <:+: states ∧ u.Begun c ∧
    u.call d = .starting peer running rest ∧ u'.call d = .attempting peer running rest ∧
    peer.id = p ∧ u.peers.get? p = some peer

/-- The call that is syncing with `p` will start another attempt: there is a note, or it is about to
start one with the recorded address. -/
def Owed (s : PeerSync ι) (p : EndpointID) : Prop :=
  ∃ c r, s.holds c = some (p, r) ∧ (s.again r = true ∨
    ∃ peer rest, s.call c = .starting peer r rest ∧ s.peers.get? p = some peer)

lemma Served.cons (h : Served states c p) (u : PeerSync ι) : Served (u :: states) c p := by
  obtain ⟨v, v', d, peer, running, rest, hinfix, hstart⟩ := h
  exact ⟨v, v', d, peer, running, rest, hinfix.trans (List.suffix_cons u states).isInfix, hstart⟩

lemma Owed.of_holder {s t : PeerSync ι} (hd : s.holds d = some (p, r)) (howed : s.again r = true ∨
      ∃ peer rest, s.call d = .starting peer r rest ∧ s.peers.get? p = some peer)
    (hcall : t.call d = s.call d) (hpeers : t.peers.get? p = s.peers.get? p)
    (hagain : s.again r = true → t.again r = true) : t.Owed p := by
  refine ⟨d, r, ?_, ?_⟩
  · rw [holds, hcall]
    exact hd
  · rw [hcall, hpeers]
    exact howed.imp_left hagain

end Owed

/-! ## Moving on -/

variable {ι : Type} [DecidableEq ι] {s s' : PeerSync ι}

@[simp] lemma call_move_self (s : PeerSync ι) (c : ι) (pc : SyncCall) : (s.move c pc).call c = pc :=
  update_self ..

variable {c : ι} {pc : SyncCall} {peer : EndpointAddr} {rest : List EndpointAddr} {running : ℕ}
  {p : EndpointID} {past : List (PeerSync ι)}

lemma call_move_of_ne (s : PeerSync ι) (h : d ≠ c) (pc : SyncCall) : (s.move c pc).call d = s.call d :=
  update_of_ne h ..

section

variable (s : PeerSync ι) (c : ι) (peer : EndpointAddr)

lemma cancelled_record (rest : List EndpointAddr) : (s.record c peer rest).cancelled = s.cancelled := by
  unfold PeerSync.record
  dsimp only
  split <;> rfl

lemma cancelled_finish (running : ℕ) (rest : List EndpointAddr) :
    (s.finish c peer running rest).cancelled = s.cancelled := by
  unfold PeerSync.finish
  dsimp only
  split <;> rfl

lemma holds_move (pc : SyncCall) : (s.move c pc).holds = Function.update s.holds c pc.syncing := by
  funext d
  by_cases hd : d = c
  · rw [hd, holds, call_move_self, update_self]
  · rw [holds, call_move_of_ne s hd, update_of_ne hd, holds]

end

lemma of_holds_move (h : (s.move c pc).holds d = some x) :
    pc.syncing = some x ∨ s.holds d = some x := by
  rw [holds_move, update_apply] at h
  split at h
  · exact .inl h
  · exact .inr h

lemma Owned.move (h : s.Owned) (hpc : pc.syncing = s.holds c) : (s.move c pc).Owned := by
  have hholds : (s.move c pc).holds = s.holds := by
    rw [holds_move, hpc, update_eq_self]
  refine ⟨?_, fun {d p r} hd => ?_, h.keyed⟩
  · rw [hholds]
    exact h.claims
  · rw [hholds] at hd
    exact h.recorded hd

lemma Owned.record (h : s.Owned) (hc : s.call c = .next (peer :: rest)) :
    (s.record c peer rest).Owned := by
  have hfree : s.holds c = none := holds_of_call hc
  have hpeers := h.set_peers peer
  unfold PeerSync.record
  dsimp only
  split
  · exact Owned.move { hpeers with } hfree.symm
  next hnone =>
    refine ⟨?_, fun {d p r} hd => ?_, hpeers.keyed⟩
    · rw [holds_move]
      exact h.claims.claim hfree hnone
    · rcases of_holds_move hd with heq | hd
      · cases heq
        exact ⟨peer, (get?_set ..).trans (if_pos rfl)⟩
      · exact hpeers.recorded hd

lemma Owned.finish (h : s.Owned) (hc : s.call c = .finishing peer running rest) :
    (s.finish c peer running rest).Owned := by
  have hheld : s.holds c = some (peer.id, running) := holds_of_call hc
  unfold PeerSync.finish
  dsimp only
  split
  · obtain ⟨a, ha⟩ := h.recorded hheld
    refine Owned.move { h with } ?_
    rw [ha]
    exact (congrArg (fun p => some (p, running)) (h.keyed ha)).trans hheld.symm
  · refine ⟨?_, fun {d p r} hd => ?_, h.keyed⟩
    · rw [holds_move]
      exact h.claims.release hheld
    · rcases of_holds_move hd with heq | hd
      · cases heq
      · exact h.recorded hd

lemma Owned.step (h : s.Owned) (hs : Step s s') : s'.Owned := by
  cases hs with
  | cancel => exact { h with }
  | enter c peers hc | start c peer running rest hc | attempted c peer running rest hc =>
    exact h.move (holds_of_call hc).symm
  | record c peer rest hc => exact h.record hc
  | finish c peer running rest hc => exact h.finish hc

/-! ## Debts are kept -/

lemma Owed.move_of_free (h : s.Owed p) (hc : s.holds c = none) (pc : SyncCall) :
    (s.move c pc).Owed p := by
  obtain ⟨d, r, hd, howed⟩ := h
  exact .of_holder hd howed (call_move_of_ne s (ne_of_holds hd hc) pc) rfl id

lemma Owed.move (h : s.Owed p) (pc : SyncCall) (hpc : pc.syncing = s.holds c) : (s.move c pc).Owed p ∨
      ∃ peer r rest, s.call c = .starting peer r rest ∧ peer.id = p ∧ s.peers.get? p = some peer := by
  obtain ⟨d, r, hd, howed⟩ := h
  have hholds : (s.move c pc).holds d = some (p, r) := by
    rw [holds_move, hpc, update_eq_self, hd]
  rcases howed with hagain | ⟨peer, rest, hstart, hpeer⟩
  · exact .inl ⟨d, r, hholds, .inl hagain⟩
  · by_cases hdc : d = c
    · subst hdc
      rw [holds, hstart] at hd
      exact .inr ⟨peer, r, rest, hstart, (Prod.mk.inj (Option.some.inj hd)).1, hpeer⟩
    · refine .inl ⟨d, r, hholds, .inr ⟨peer, rest, ?_, hpeer⟩⟩
      rw [call_move_of_ne s hdc, hstart]

lemma Owned.owed_record (h : s.Owned) (hc : s.call c = .next (peer :: rest)) :
    (s.record c peer rest).Owed peer.id := by
  have hfree : s.holds c = none := holds_of_call hc
  unfold PeerSync.record
  dsimp only
  split
  next running hrunning =>
    refine Owed.move_of_free ?_ ?_ _
    on_goal 2 => exact hfree
    obtain ⟨d, hd⟩ := (h.claims.table_iff _ _).mp hrunning
    exact ⟨d, running, hd, .inl (update_self ..)⟩
  · refine ⟨c, s.fresh, ?_, .inr ⟨peer, rest, ?_, ?_⟩⟩
    · rw [holds, call_move_self]
      rfl
    · rw [call_move_self]
    · exact (get?_set ..).trans (if_pos rfl)

lemma Owed.record (h : s.Owed p) (howned : s.Owned) (hc : s.call c = .next (peer :: rest)) :
    (s.record c peer rest).Owed p := by
  -- a new address of `p` itself: the note makes up for it
  by_cases hp : p = peer.id
  · rw [hp]
    exact howned.owed_record hc
  obtain ⟨d, r, hd, howed⟩ := h
  have hdc : d ≠ c := ne_of_holds hd (holds_of_call hc)
  have hpeers : (s.peers.set peer.id peer).get? p = s.peers.get? p :=
    (get?_set ..).trans (if_neg hp)
  unfold PeerSync.record
  dsimp only
  split
  · refine .of_holder hd howed (call_move_of_ne _ hdc _) hpeers fun hagain => ?_
    refine (update_apply ..).trans ?_
    split
    · rfl
    · exact hagain
  · refine .of_holder hd howed (call_move_of_ne _ hdc _) hpeers fun hagain => ?_
    exact (update_of_ne (howned.claims.token_lt hd).ne ..).trans hagain

lemma Owed.finish (h : s.Owed p) (howned : s.Owned) (hlive : s.cancelled = false)
    (hc : s.call c = .finishing peer running rest) : (s.finish c peer running rest).Owed p := by
  have hheld : s.holds c = some (peer.id, running) := holds_of_call hc
  obtain ⟨d, r, hd, howed⟩ := h
  by_cases hdc : d = c
  · subst hdc
    cases hheld.symm.trans hd
    have hagain : s.again running = true := by
      rcases howed with hagain | ⟨a, rest', hstart, -⟩
      · exact hagain
      · cases hc.symm.trans hstart
    obtain ⟨a, ha⟩ := howned.recorded hheld
    unfold PeerSync.finish
    rw [if_pos (by simp [hagain, hlive]), ha, Option.getD_some]
    refine ⟨d, running, ?_, .inr ⟨a, rest, ?_, ha⟩⟩
    · rw [holds, call_move_self]
      exact congrArg (fun p => some (p, running)) (howned.keyed ha)
    · rw [call_move_self]
  · -- another call's note is not the one that is cleared
    have hne : r ≠ running := by
      rintro rfl
      exact hdc (howned.claims.token_unique hd hheld)
    have hkeep : s.again r = true → update s.again running false r = true :=
      fun hagain => (update_of_ne hne ..).trans hagain
    unfold PeerSync.finish
    dsimp only
    split <;> exact .of_holder hd howed (call_move_of_ne _ hdc _) rfl hkeep

/-! ## One step -/

lemma Step.call_cases (h : Step s s') :
    s'.call = s.call ∨ ∃ c pc, s'.call = Function.update s.call c pc ∧ (∀ peers, pc ≠ .waiting peers) ∧
      (pc.left = (s.call c).left ∨
        ∃ peer, s.call c = .next (peer :: pc.left) ∧ s' = s.record c peer pc.left) := by
  cases h with
  | cancel => exact .inl rfl
  | enter c peers hc => exact .inr ⟨c, .next peers, rfl, nofun, .inl (by rw [hc]; rfl)⟩
  | record c peer rest hc =>
    have hcall : ∃ pc, (s.record c peer rest).call = update s.call c pc ∧
        (∀ peers, pc ≠ .waiting peers) ∧ pc.left = rest := by
      unfold PeerSync.record
      dsimp only
      split
      · exact ⟨.next rest, rfl, nofun, rfl⟩
      · exact ⟨.starting peer s.fresh rest, rfl, nofun, rfl⟩
    obtain ⟨pc, hpc, hbegun, rfl⟩ := hcall
    exact .inr ⟨c, pc, hpc, hbegun, .inr ⟨peer, hc, rfl⟩⟩
  | start c peer running rest hc =>
    exact .inr ⟨c, .attempting peer running rest, rfl, nofun, .inl (by rw [hc]; rfl)⟩
  | attempted c peer running rest hc =>
    exact .inr ⟨c, .finishing peer running rest, rfl, nofun, .inl (by rw [hc]; rfl)⟩
  | finish c peer running rest hc =>
    unfold PeerSync.finish
    dsimp only
    split
    · exact .inr ⟨c, _, rfl, nofun, .inl (by rw [hc]; rfl)⟩
    · exact .inr ⟨c, .next rest, rfl, nofun, .inl (by rw [hc]; rfl)⟩

lemma Begun.step (h : s.Begun c) (hs : Step s s') : s'.Begun c := by
  intro peers
  rcases hs.call_cases with hcall | ⟨d, pc, hcall, hpc, -⟩
  · rw [hcall]
    exact h peers
  · rw [hcall, update_apply]
    split
    · exact hpc peers
    · exact h peers

lemma Owned.left_step (howned : s.Owned) (hs : Step s s') (h : peer ∈ (s.call c).left) :
    peer ∈ (s'.call c).left ∨ (s'.Begun c ∧ s'.Owed peer.id) := by
  rcases hs.call_cases with hcall | ⟨d, pc, hcall, hpc, hleft⟩
  · rw [hcall]
    exact .inl h
  · by_cases hcd : c = d
    · subst hcd
      have hself : s'.call c = pc := by rw [hcall, update_self]
      rcases hleft with hsame | ⟨first, hc, rfl⟩
      · rw [hself, hsame]
        exact .inl h
      · rw [hc] at h
        rcases List.mem_cons.mp h with rfl | hrest
        · refine .inr ⟨fun peers => ?_, howned.owed_record hc⟩
          rw [hself]
          exact hpc peers
        · rw [hself]
          exact .inl hrest
    · rw [hcall, update_of_ne hcd]
      exact .inl h

/-- **A debt is kept, or paid by an attempt that starts with the recorded address.** -/
theorem Owed.step (h : s.Owed p) (howned : s.Owned) (hlive : s.cancelled = false) (hc : s.Begun c)
    (hs : Step s s') : Served (s' :: s :: past) c p ∨ s'.Owed p := by
  cases hs with
  | cancel => exact .inr h
  | enter d peers hd => exact .inr (h.move_of_free (holds_of_call hd) _)
  | record d peer rest hd => exact .inr (h.record howned hd)
  | finish d peer running rest hd => exact .inr (h.finish howned hlive hd)
  | start d peer running rest hd =>
    rcases h.move (.attempting peer running rest) (holds_of_call hd).symm with
      howed | ⟨a, r, rest', hstart, hp, ha⟩
    · exact .inr howed
    · -- the attempt starts now, with the address that is recorded
      cases hd.symm.trans hstart
      refine .inl ⟨s, _, d, peer, running, rest, ?_, hc, hd, call_move_self s d _, hp, ha⟩
      exact (List.prefix_append [_, s] past).isInfix
  | attempted d peer running rest hd =>
    rcases h.move (.finishing peer running rest) (holds_of_call hd).symm with
      howed | ⟨a, r, rest', hstart, -⟩
    · exact .inr howed
    · cases hd.symm.trans hstart

/-- Every peer a call names is yet to come, or it has been served or is owed an attempt. -/
def Kept (args : ι → List EndpointAddr) (past : List (PeerSync ι)) (s : PeerSync ι) : Prop :=
  ∀ c, ∀ peer ∈ args c, peer ∈ (s.call c).left ∨
    (s.Begun c ∧ (Served (s :: past) c peer.id ∨ s.Owed peer.id))

lemma Kept.step (h : Kept args past s) (howned : s.Owned)
    (hlive : s.cancelled = false) (hs : Step s s') : Kept args (s :: past) s' := by
  intro c peer hpeer
  rcases h c peer hpeer with hleft | ⟨hbegun, hserved | howed⟩
  · rcases howned.left_step hs hleft with hleft' | ⟨hbegun, howed⟩
    · exact .inl hleft'
    · exact .inr ⟨hbegun, .inr howed⟩
  · exact .inr ⟨hbegun.step hs, .inl (hserved.cons s')⟩
  · exact .inr ⟨hbegun.step hs, howed.step howned hlive hbegun hs⟩

lemma Step.live (h : Step s s') (hlive : s'.cancelled = false) : s.cancelled = false := by
  cases h with
  | cancel => cases hlive
  | record c peer rest _ => exact (cancelled_record ..).symm.trans hlive
  | finish c peer running rest _ => exact (cancelled_finish ..).symm.trans hlive
  | _ => exact hlive

lemma kept_of_trace (h : Trace (Idle args) Step past s) :
    s.Owned ∧ (s.cancelled = false → Kept args past s) := by
  refine h.invariant (fun past s => s.Owned ∧ (s.cancelled = false → Kept args past s)) ?_ ?_
  · intro s hs
    refine ⟨.of_idle hs, fun _ c peer hpeer => .inl ?_⟩
    rw [hs.2.2 c]
    exact hpeer
  · rintro past s s' ⟨howned, hkept⟩ hs
    refine ⟨howned.step hs, fun hlive => ?_⟩
    have hlive := hs.live hlive
    exact (hkept hlive).step howned hlive hs

lemma exists_liveStep (hlive : s.cancelled = false) (h : s.call c ≠ .next []) :
    ∃ s', LiveStep s s' := by
  cases hc : s.call c with
  | waiting peers => exact ⟨_, .enter s c peers hc, hlive⟩
  | next peers =>
    cases peers with
    | nil => exact absurd hc h
    | cons peer rest =>
      exact ⟨_, .record s c peer rest hc, (cancelled_record ..).trans hlive⟩
  | starting peer running rest => exact ⟨_, .start s c peer running rest hc, hlive⟩
  | attempting peer running rest => exact ⟨_, .attempted s c peer running rest hc, hlive⟩
  | finishing peer running rest =>
    exact ⟨_, .finish s c peer running rest hc, (cancelled_finish ..).trans hlive⟩

/-! ## Runs end -/

def toRecord : SyncCall → ℕ
  | .waiting peers => peers.length + 1
  | pc => pc.left.length

def toFinish (again : ℕ → Bool) : SyncCall → ℕ
  | .waiting _ => 0
  | .next _ => 0
  | .starting _ running _ => 3 + 4 * (again running).toNat
  | .attempting _ running _ => 2 + 4 * (again running).toNat
  | .finishing _ running _ => 1 + 4 * (again running).toNat

lemma toFinish_update_false (again : ℕ → Bool) (r : ℕ) (pc : SyncCall) :
    toFinish (Function.update again r false) pc ≤ toFinish again pc := by
  have hle : ∀ running, (update again r false running).toNat ≤ (again running).toNat := by
    intro running
    rw [update_apply]
    split
    · exact Nat.zero_le _
    · exact Nat.le_refl _
  cases pc with
  | waiting peers | next peers => exact Nat.le_refl _
  | starting peer running rest | attempting peer running rest | finishing peer running rest =>
    exact Nat.add_le_add_left (Nat.mul_le_mul_left 4 (hle running)) _

variable [Fintype ι]

def work (s : PeerSync ι) : ℕ × ℕ := (∑ c, toRecord (s.call c), ∑ c, toFinish s.again (s.call c))

lemma sum_move_lt {f g : SyncCall → ℕ} (hle : ∀ pc, g pc ≤ f pc) (hlt : g pc < f (s.call c)) :
    ∑ d, g ((s.move c pc).call d) < ∑ d, f (s.call d) := by
  refine Finset.sum_lt_sum (fun d _ => ?_) ⟨c, Finset.mem_univ c, ?_⟩
  · by_cases hdc : d = c
    · rw [hdc, call_move_self]
      exact hlt.le
    · rw [call_move_of_ne s hdc]
      exact hle _
  · rw [call_move_self]
    exact hlt

lemma sum_move_eq {f : SyncCall → ℕ} (heq : f pc = f (s.call c)) :
    ∑ d, f ((s.move c pc).call d) = ∑ d, f (s.call d) := by
  refine Finset.sum_congr rfl fun d _ => ?_
  by_cases hdc : d = c
  · rw [hdc, call_move_self, heq]
  · rw [call_move_of_ne s hdc]

lemma work_finish (hc : s.call c = .finishing peer running rest) :
    (s.finish c peer running rest).work.1 = s.work.1 ∧
      (s.finish c peer running rest).work.2 < s.work.2 := by
  have hle := toFinish_update_false s.again running
  unfold PeerSync.finish
  dsimp only
  split
  next hagain =>
    have hagain : s.again running = true := (Bool.and_eq_true_iff.mp hagain).1
    -- another round costs less than the note that asked for it
    refine ⟨sum_move_eq (by rw [hc]; rfl), sum_move_lt hle ?_⟩
    rw [hc]
    simp only [toFinish, move, update_self, hagain]
    decide
  · refine ⟨sum_move_eq (by rw [hc]; rfl), sum_move_lt hle ?_⟩
    rw [hc]
    exact Nat.lt_add_right _ Nat.one_pos

lemma work_step (h : LiveStep s s') : Prod.Lex (· < ·) (· < ·) s'.work s.work := by
  obtain ⟨hs, hlive⟩ := h
  cases hs with
  | cancel => cases hlive
  | enter c peers hc =>
    refine .left _ _ (sum_move_lt (fun _ => Nat.le_refl _) ?_)
    rw [hc]
    exact Nat.lt_succ_self _
  | record c peer rest hc =>
    refine .left _ _ ?_
    have hlt : ∀ pc : SyncCall, toRecord pc = rest.length → toRecord pc < toRecord (s.call c) := by
      intro pc hpc
      rw [hpc, hc]
      exact Nat.lt_succ_self _
    unfold PeerSync.record
    dsimp only
    split <;> exact sum_move_lt (fun _ => Nat.le_refl _) (hlt _ rfl)
  | start c peer running rest hc | attempted c peer running rest hc =>
    refine Prod.Lex.right' _ (sum_move_eq (by rw [hc]; rfl)).le ?_
    refine sum_move_lt (fun _ => Nat.le_refl _) ?_
    rw [hc]
    exact Nat.add_lt_add_right (by decide) _
  | finish c peer running rest hc =>
    obtain ⟨heq, hlt⟩ := work_finish hc
    exact Prod.Lex.right' _ heq.le hlt

/-- **No run goes on forever without being cancelled.** -/
theorem wellFounded_liveStep : WellFounded fun s' s : PeerSync ι => LiveStep s s' :=
  Subrelation.wf (fun h => work_step h)
    (InvImage.wf work (WellFounded.prod_lex Nat.lt_wfRel.wf Nat.lt_wfRel.wf))

/-! ## Every request is followed by an attempt -/

/-- **Coalesced syncs lose no request**, whatever the interleaving of any number of calls. -/
theorem syncPeers_followed {args : ι → List EndpointAddr} {past : List (PeerSync ι)}
    (h : Trace (Idle args) Step past s) :
    (∀ c d peer peer' running running' rest rest', s.call c = .attempting peer running rest →
        s.call d = .attempting peer' running' rest' → peer.id = peer'.id → c = d) ∧
      (s.cancelled = false → ∀ c, ∀ peer ∈ args c,
        Inevitable LiveStep (fun past s => Served (s :: past) c peer.id) past s) := by
  obtain ⟨howned, hkept⟩ := kept_of_trace h
  constructor
  · intro c d peer peer' running running' rest rest' hc hd hid
    have hheld : s.holds c = some (peer'.id, running) := hid ▸ holds_of_call hc
    exact howned.claims.key_unique hheld (holds_of_call hd)
  · intro hlive c peer hpeer
    refine inevitable_of_wellFounded
      (fun past s => s.Owned ∧ Kept args past s ∧ s.cancelled = false) ?_ wellFounded_liveStep ?_
      ⟨howned, hkept hlive, hlive⟩
    · rintro past s s' ⟨howned, hkept, hlive⟩ ⟨hs, hlive'⟩
      exact ⟨howned.step hs, hkept.step howned hlive hs, hlive'⟩
    · rintro past s ⟨-, hkept, hlive⟩
      by_cases hreturned : ∀ d, s.call d = .next []
      · -- nobody is syncing any more, so nothing is owed
        rcases hkept c peer hpeer with hleft | ⟨-, hserved | ⟨d, r, hd, -⟩⟩
        · rw [hreturned c] at hleft
          exact absurd hleft List.not_mem_nil
        · exact .inr hserved
        · rw [holds, hreturned d] at hd
          cases hd
      · push Not at hreturned
        obtain ⟨d, hd⟩ := hreturned
        exact .inl (exists_liveStep hlive hd)

/-- Two calls that name one peer, by two addresses. -/
theorem syncPeers_followed_two :
    let args : Fin 2 → List EndpointAddr := fun c =>
      if c = 0 then [⟨Vector.replicate 32 1, ["a"]⟩] else [⟨Vector.replicate 32 1, ["b"]⟩]
    let idle : PeerSync (Fin 2) :=
      ⟨.empty, .empty, fun _ => false, 0, false, fun c => .waiting (args c)⟩
    ∀ c, ∀ peer ∈ args c,
      Inevitable LiveStep (fun past s => Served (s :: past) c peer.id) [] idle := by
  intro args idle
  have hidle : Idle args idle := ⟨rfl, rfl, fun _ => rfl⟩
  exact (syncPeers_followed (.start hidle)).2 rfl

end Iroh.Docs.PeerSync
