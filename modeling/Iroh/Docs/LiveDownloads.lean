import Iroh.Common.Runs
import Iroh.Docs.LiveQueue

/-!
# No download is lost or made twice

What a step does to the requests is one of three things: it keeps them, it adds one whose hash is not
pending, or it drops one and its `pending` entry (`Step.effect`).  From there:

* `Matched`: the requests have pairwise different hashes, and `pending` points to exactly them;
* `Fed`: unless the downloader has just received, a backlog means a full channel.
-/

namespace Iroh.Docs.LiveQueue

open List Function

variable {configured : Bool} {l l' : LiveQueue}

/-! ## The backlog -/

/-- Nothing waits in the backlog while the queue has room. -/
structure Fed (l : LiveQueue) : Prop where
  bounded : l.downloads.length ≤ liveDownloadQueueSize
  full : l.backlog ≠ [] → (∃ req, l.downloader = .scheduling req) ∨
    l.downloads.length = liveDownloadQueueSize

lemma Fed.of_started (h : l.Started) : l.Fed := by
  obtain ⟨hdownloads, hbacklog, -, -⟩ := h
  exact ⟨by simp [hdownloads], fun hne => absurd hbacklog hne⟩

lemma Fed.of_same (h : l.Fed) (hpc : ∀ req, .scheduling req ≠ l.downloader)
    (hdownloads : l'.downloads = l.downloads) (hbacklog : l'.backlog = l.backlog) : l'.Fed := by
  refine ⟨hdownloads ▸ h.bounded, fun hne => ?_⟩
  rw [hbacklog] at hne
  rcases h.full hne with ⟨req, hreq⟩ | hfull
  · exact absurd hreq.symm (hpc req)
  · exact .inr (hdownloads ▸ hfull)

lemma scheduleLoop_full (downloads backlog : List LiveDownload)
    (h : downloads.length ≤ liveDownloadQueueSize) :
    (scheduleLoop downloads backlog).1.length ≤ liveDownloadQueueSize ∧
      ((scheduleLoop downloads backlog).2 ≠ [] →
        (scheduleLoop downloads backlog).1.length = liveDownloadQueueSize) := by
  induction backlog generalizing downloads with
  | nil => exact ⟨h, fun hne => absurd rfl hne⟩
  | cons req backlog ih =>
    unfold scheduleLoop
    split
    next hroom =>
      refine ih _ ?_
      rw [length_append]
      exact hroom
    next hfull => exact ⟨h, fun _ => Nat.le_antisymm h (Nat.not_lt.mp hfull)⟩

lemma Fed.enqueue (h : l.Fed) (req : LiveDownload) : (l.enqueue req).Fed := by
  unfold LiveQueue.enqueue
  split
  next hroom =>
    refine ⟨?_, fun hne => .inl ?_⟩
    · rw [length_append]
      exact hroom
    · exact (h.full hne).resolve_right hroom.ne
  next hfull => exact ⟨h.bounded, fun _ => .inr (Nat.le_antisymm h.bounded (Nat.not_lt.mp hfull))⟩

/-! ## The effect of one step -/

lemma scheduleLoop_append (downloads backlog : List LiveDownload) :
    (scheduleLoop downloads backlog).1 ++ (scheduleLoop downloads backlog).2 =
      downloads ++ backlog := by
  induction backlog generalizing downloads with
  | nil => rfl
  | cons req backlog ih =>
    unfold scheduleLoop
    split
    · rw [ih, append_assoc, singleton_append]
    · rfl

/-- The downloader is done with the request: no provider is left, or it is about to forget it. -/
def DoneWith (l : LiveQueue) (req : LiveDownload) : Prop :=
  (∃ tried, l.downloader = .asking req tried ∧ (l.untried req tried).2 = []) ∨
    ∃ ready, l.downloader = .forgetting req ready

variable {req : LiveDownload} {downloader : Downloader} {tried : ℕ} {hash : Hash}
  {states past : List LiveQueue}

lemma DoneWith.inFlight (h : l.DoneWith req) : l.downloader.inFlight = some req := by
  rcases h with ⟨tried, hpc, -⟩ | ⟨ready, hpc⟩ <;> rw [hpc] <;> rfl

lemma DoneWith.ne_scheduling (h : l.DoneWith req) (req' : LiveDownload) :
    .scheduling req' ≠ l.downloader := by
  rcases h with ⟨tried, hpc, -⟩ | ⟨ready, hpc⟩ <;> simp [hpc]

inductive Effect (l l' : LiveQueue) : Prop where
  | keep : l'.requests.Perm l.requests → l'.pending = l.pending → l'.next = l.next → Effect l l'
  | add (hash : Hash) : l.pending.get? hash = none →
      l'.requests.Perm (⟨hash, l.next⟩ :: l.requests) → l'.pending = l.pending.set hash l.next →
      l'.next = l.next + 1 → Effect l l'
  | drop (req : LiveDownload) : l.DoneWith req →
      l.requests.Perm (req :: l'.requests) → l'.pending = (l.forget req).pending →
      l'.next = l.next → Effect l l'

def FedEffect (l l' : LiveQueue) : Prop := Effect l l' ∧ (l.Fed → l'.Fed)

lemma effect_of_inFlight (hpc : l.downloader = before)
    (h : downloader.inFlight = before.inFlight) (hnot : ∀ req, .scheduling req ≠ before)
    (complete : Hash → Bool) :
    FedEffect l { l with downloader := downloader, complete := complete } := by
  subst hpc
  refine ⟨.keep ?_ rfl rfl, fun hfed => hfed.of_same hnot rfl rfl⟩
  rw [requests, requests, h]

lemma forget_eq (req : LiveDownload) : l.forget req = { l with pending := (l.forget req).pending } := by
  unfold forget
  split <;> rfl

lemma effect_of_forget (hreq : l.DoneWith req) (hnone : downloader.inFlight = none) :
    FedEffect l { l.forget req with downloader := downloader } := by
  rw [forget_eq]
  refine ⟨.drop req hreq ?_ rfl rfl, fun hfed => hfed.of_same hreq.ne_scheduling rfl rfl⟩
  rw [requests, requests, hreq.inFlight, hnone, Option.toList_none, append_nil]
  exact perm_append_singleton req _

lemma requests_enqueue (req : LiveDownload) : (l.enqueue req).requests.Perm (req :: l.requests) := by
  unfold enqueue
  split
  · simp only [requests, append_assoc]
    exact perm_middle
  · simp only [requests, append_assoc]
    refine List.Perm.trans (.append_left _ perm_middle) ?_
    exact perm_middle

lemma enqueue_eq (req : LiveDownload) : l.enqueue req =
    { l with downloads := (l.enqueue req).downloads, backlog := (l.enqueue req).backlog } := by
  unfold enqueue
  split <;> rfl

lemma effect_queueDownload (hash : Hash) (addr : EndpointAddr) :
    Effect l (l.queueDownload hash addr) := by
  unfold queueDownload
  split
  · exact .keep .rfl rfl rfl
  next hnone =>
    exact .add hash hnone (requests_enqueue _) (congrArg pending (enqueue_eq _))
      (congrArg next (enqueue_eq _))

lemma untried_of_ne_nil (h : (l.untried req tried).2 ≠ []) : (l.untried req tried).1 = l := if_neg h

lemma untried_of_eq_nil (h : (l.untried req tried).2 = []) : (l.untried req tried).1 = l.forget req :=
  if_pos h

/-- **Every step keeps the requests, adds one or drops one**, and the channel is fed. -/
theorem Step.effect (h : Step configured l l') : FedEffect l l' := by
  cases h with
  | announce hash addr _ =>
    refine ⟨effect_queueDownload hash addr, fun hfed => ?_⟩
    unfold queueDownload
    split
    · exact { hfed with }
    · refine Fed.enqueue ?_ _
      exact { hfed with }
  | blobs complete => exact ⟨.keep .rfl rfl rfl, fun hfed => { hfed with }⟩
  | receive req rest hpc hdownloads =>
    refine ⟨.keep ?_ rfl rfl, fun hfed => ⟨?_, fun _ => .inl ⟨req, rfl⟩⟩⟩
    · -- the request is in flight instead of in the channel
      simp only [requests, hpc, hdownloads, Downloader.inFlight, Option.toList_none, append_nil]
      exact perm_append_singleton req _
    · -- the one moment at which there may be a backlog and room in the channel
      have hle := hfed.bounded
      rw [hdownloads] at hle
      exact Nat.le_of_succ_le hle
  | schedule req hpc =>
    refine ⟨.keep ?_ rfl rfl, fun hfed => ?_⟩
    · simp only [requests, scheduleDownloads, scheduleLoop_append, hpc]
      exact .rfl
    · obtain ⟨hle, hfull⟩ := scheduleLoop_full l.downloads l.backlog hfed.bounded
      exact ⟨hle, fun hne => .inr (hfull hne)⟩
  | stop hpc | published hpc | held req tried hpc _ | missing req tried hpc _
  | unconfigured req tried hpc _ | failed req tried ps hpc | downloaded req tried ps hpc =>
    exact effect_of_inFlight hpc (by rfl) (by simp) _
  | attempt req tried hpc hsome =>
    rw [untried_of_ne_nil hsome]
    exact effect_of_inFlight hpc (by rfl) (by simp) _
  | giveUp req tried hpc hnone =>
    rw [untried_of_eq_nil hnone]
    exact effect_of_forget (.inl ⟨tried, hpc, hnone⟩) rfl
  | forget req ready hpc =>
    refine effect_of_forget (.inr ⟨ready, hpc⟩) ?_
    cases ready <;> rfl

/-! ## Requests and `pending` -/

/-- The pending records are those of the requests, one for each hash. -/
structure Matched (l : LiveQueue) : Prop where
  nodup : (l.requests.map LiveDownload.hash).Nodup
  pending_iff : ∀ req : LiveDownload, l.pending.get? req.hash = some req.pending ↔ req ∈ l.requests
  fresh : ∀ req ∈ l.requests, req.pending < l.next

lemma Matched.of_started (h : l.Started) : l.Matched := by
  obtain ⟨hdownloads, hbacklog, hpending, hpc⟩ := h
  have hnone : l.requests = [] := by
    simp [requests, hdownloads, hbacklog, hpc, Downloader.inFlight]
  exact ⟨by simp [hnone], fun req => by simp [hpending, hnone], by simp [hnone]⟩

lemma Matched.keep (h : l.Matched) (hperm : l'.requests.Perm l.requests)
    (hpending : l'.pending = l.pending) (hnext : l'.next = l.next) : l'.Matched := by
  refine ⟨(hperm.map _).nodup_iff.mpr h.nodup, fun req => ?_, fun req hreq => ?_⟩
  · rw [hpending, h.pending_iff, hperm.mem_iff]
  · rw [hnext]
    exact h.fresh req (hperm.mem_iff.mp hreq)

lemma Matched.hash_ne (h : l.Matched) (hnone : l.pending.get? hash = none) :
    ∀ req ∈ l.requests, req.hash ≠ hash := by
  rintro req hreq rfl
  have hsome := (h.pending_iff req).mpr hreq
  cases hnone.symm.trans hsome

lemma Matched.add (h : l.Matched) (hnone : l.pending.get? hash = none)
    (hperm : l'.requests.Perm (⟨hash, l.next⟩ :: l.requests))
    (hpending : l'.pending = l.pending.set hash l.next) (hnext : l'.next = l.next + 1) : l'.Matched := by
  have hnew := h.hash_ne hnone
  refine ⟨?_, fun req => ?_, fun req hreq => ?_⟩
  · refine (hperm.map _).nodup_iff.mpr (nodup_cons.mpr ⟨?_, h.nodup⟩)
    intro hmem
    obtain ⟨req, hreq, heq⟩ := mem_map.mp hmem
    exact hnew req hreq heq
  · rw [hpending, hperm.mem_iff, mem_cons, GoMap.get?_set]
    split
    next heq =>
      constructor
      · intro hsome
        refine .inl ?_
        cases req
        simp_all
      · rintro (rfl | hreq)
        · rfl
        · exact absurd heq (hnew req hreq)
    next hne =>
      rw [h.pending_iff]
      exact (or_iff_right fun heq => hne (congrArg LiveDownload.hash heq)).symm
  · rw [hnext]
    rcases mem_cons.mp (hperm.mem_iff.mp hreq) with rfl | hold
    · exact Nat.lt_succ_self _
    · exact Nat.lt_succ_of_lt (h.fresh req hold)

lemma Matched.drop (h : l.Matched) (hperm : l.requests.Perm (req :: l'.requests))
    (hpending : l'.pending = (l.forget req).pending) (hnext : l'.next = l.next) : l'.Matched := by
  have hnodup := (hperm.map LiveDownload.hash).nodup_iff.mp h.nodup
  obtain ⟨hout, hnodup⟩ := nodup_cons.mp hnodup
  -- `pending` still points to the request, so that `forget` does delete its entry
  have hreq : l.pending.get? req.hash = some req.pending :=
    (h.pending_iff req).mpr (hperm.mem_iff.mpr mem_cons_self)
  have hdelete : l'.pending = l.pending.delete req.hash := by
    rw [hpending, forget, if_pos hreq]
  refine ⟨hnodup, fun req' => ?_, fun req' hreq' => ?_⟩
  · rw [hdelete, GoMap.get?_delete]
    split
    next heq =>
      refine iff_of_false nofun fun hmem => hout ?_
      exact mem_map.mpr ⟨req', hmem, heq⟩
    next hne =>
      rw [h.pending_iff, hperm.mem_iff, mem_cons]
      exact or_iff_right fun heq => hne (congrArg LiveDownload.hash heq)
  · rw [hnext]
    exact h.fresh req' (hperm.mem_iff.mpr (mem_cons_of_mem _ hreq'))

lemma Matched.of_effect (h : l.Matched) (he : Effect l l') : l'.Matched := by
  cases he with
  | keep hperm hpending hnext => exact h.keep hperm hpending hnext
  | add hash hnone hperm hpending hnext => exact h.add hnone hperm hpending hnext
  | drop req _ hperm hpending hnext => exact h.drop hperm hpending hnext

/-! ## What has been tried -/

/-- In some state of `states`, `downloadBlob` was at work on the request with this provider. -/
def Tried (states : List LiveQueue) (req : LiveDownload) (addr : EndpointAddr) : Prop :=
  ∃ u ∈ states, ∃ tried providers,
    u.downloader = .downloading req tried providers ∧ addr ∈ providers

/-- In some state of `states`, the blob store had the content of the request while it was served. -/
def SeenComplete (states : List LiveQueue) (req : LiveDownload) : Prop :=
  ∃ u ∈ states, u.downloader.inFlight = some req ∧ u.complete req.hash = true

lemma Tried.cons (h : Tried states req addr) (u : LiveQueue) : Tried (u :: states) req addr :=
  exists_mem_cons_of_exists h

lemma SeenComplete.cons (h : SeenComplete states req) (u : LiveQueue) :
    SeenComplete (u :: states) req :=
  exists_mem_cons_of_exists h

def TriedFirst (states : List LiveQueue) (l : LiveQueue) (req : LiveDownload) (tried : ℕ) : Prop :=
  tried ≤ (l.providers req).length ∧ ∀ addr ∈ (l.providers req).take tried, Tried states req addr

lemma TriedFirst.mono (h : TriedFirst states l req tried)
    (hadded : l.providers req <+: l'.providers req) (u : LiveQueue) :
    TriedFirst (u :: states) l' req tried := by
  refine ⟨h.1.trans hadded.length_le, fun addr haddr => ?_⟩
  obtain ⟨more, hmore⟩ := hadded
  rw [← hmore, take_append_of_le_length h.1] at haddr
  exact (h.2 addr haddr).cons u

def AccountedAt (past : List LiveQueue) (l : LiveQueue) : Downloader → Prop
  | .checking req tried => TriedFirst past l req tried
  | .asking req tried => TriedFirst past l req tried
  | .downloading req tried _ => TriedFirst (l :: past) l req tried
  | .forgetting req _ => SeenComplete (l :: past) req
  | _ => True

/-- The downloader's count of tried providers, and its reason to forget, are borne out by the past. -/
def Accounted (past : List LiveQueue) (l : LiveQueue) : Prop := AccountedAt past l l.downloader

lemma AccountedAt.mono (h : AccountedAt past l downloader)
    (hadded : ∀ req, downloader.inFlight = some req → l.providers req <+: l'.providers req) :
    AccountedAt (l :: past) l' downloader := by
  cases downloader with
  | checking req tried | asking req tried => exact TriedFirst.mono h (hadded req rfl) l
  | downloading req tried ps => exact TriedFirst.mono h (hadded req rfl) l'
  | forgetting req ready => exact SeenComplete.cons h l'
  | _ => trivial

lemma providers_queueDownload (hfresh : req.pending < l.next) (hash : Hash) (addr : EndpointAddr) :
    l.providers req <+: (l.queueDownload hash addr).providers req := by
  unfold queueDownload
  split
  next p _ =>
    by_cases hp : req.pending = p
    · simp only [providers, hp, update_self]
      exact PendingDownload.providers_prefix_add _ _
    · simp only [providers, update_of_ne hp]
      exact prefix_rfl
  · rw [enqueue_eq]
    simp only [providers, update_of_ne hfresh.ne]
    exact prefix_rfl

lemma downloader_queueDownload (hash : Hash) (addr : EndpointAddr) :
    (l.queueDownload hash addr).downloader = l.downloader := by
  unfold queueDownload
  split
  · rfl
  · rw [enqueue_eq]

lemma triedFirst_attempt (h : TriedFirst past l req tried)
    (hdownloader : downloader = .downloading req (tried + (l.untried req tried).2.length)
      (l.untried req tried).2) :
    TriedFirst ({ l with downloader := downloader } :: l :: past) { l with downloader := downloader }
      req (tried + (l.untried req tried).2.length) := by
  have hsnd : (l.untried req tried).2 = (l.providers req).drop tried := rfl
  refine ⟨?_, fun addr haddr => ?_⟩
  · rw [hsnd, length_drop, Nat.add_sub_cancel' h.1]
    exact Nat.le_refl _
  · have hmem : addr ∈ (l.providers req).take tried ++ (l.providers req).drop tried := by
      rw [take_append_drop]
      exact mem_of_mem_take haddr
    rcases mem_append.mp hmem with hold | hnew
    · exact ((h.2 addr hold).cons l).cons _
    · exact ⟨_, mem_cons_self, _, _, hdownloader, hnew⟩

lemma Accounted.step (h : Accounted past l) (hmatched : l.Matched) (hs : Step true l l') :
    Accounted (l :: past) l' := by
  unfold Accounted at h ⊢
  cases hs with
  | announce hash addr _ =>
    rw [downloader_queueDownload]
    refine h.mono fun req hreq => providers_queueDownload (hmatched.fresh req ?_) hash addr
    rw [requests, hreq]
    exact mem_append_right _ (mem_singleton_self req)
  | blobs complete => exact h.mono fun req _ => prefix_rfl
  | schedule req _ => exact ⟨Nat.zero_le _, fun addr haddr => by simp at haddr⟩
  | held req tried hpc hcomplete =>
    refine ⟨l, mem_cons_of_mem _ mem_cons_self, ?_, hcomplete⟩
    rw [hpc]
    rfl
  | missing req tried hpc _ =>
    rw [hpc] at h
    exact TriedFirst.mono h prefix_rfl l
  | unconfigured req tried _ hfalse => cases hfalse
  | attempt req tried hpc hsome =>
    -- the providers handed to `downloadBlob` count as tried from this state on
    rw [hpc] at h
    rw [untried_of_ne_nil hsome]
    exact triedFirst_attempt h rfl
  | failed req tried ps hpc =>
    rw [hpc] at h
    exact h
  | downloaded req tried ps hpc =>
    exact ⟨_, mem_cons_self, rfl, update_self ..⟩
  | forget req ready _ => cases ready <;> trivial
  | _ => trivial

/-! ## Whole runs -/

lemma sound_of_trace (h : Trace Started (Step true) past l) : l.Matched ∧ l.Fed ∧ Accounted past l := by
  refine h.invariant (fun past l => l.Matched ∧ l.Fed ∧ Accounted past l) ?_ ?_
  · intro l hl
    refine ⟨.of_started hl, .of_started hl, ?_⟩
    rw [Accounted, hl.2.2.2]
    trivial
  · rintro past l l' ⟨hmatched, hfed, haccounted⟩ hs
    exact ⟨hmatched.of_effect hs.effect.1, hs.effect.2 hfed, haccounted.step hmatched hs⟩

lemma DoneWith.tried_or_complete (h : l.DoneWith req) (haccounted : Accounted past l) :
    (∀ addr ∈ l.providers req, Tried (l :: past) req addr) ∨ SeenComplete (l :: past) req := by
  unfold Accounted at haccounted
  rcases h with ⟨tried, hpc, hnone⟩ | ⟨ready, hpc⟩
  · rw [hpc] at haccounted
    refine .inl fun addr haddr => (haccounted.2 addr ?_).cons l
    rwa [take_of_length_le (drop_eq_nil_iff.mp hnone)]
  · rw [hpc] at haccounted
    exact .inr haccounted

lemma Step.doneWith (h : Step configured l l') (hreq : req ∈ l.requests) (hgone : req ∉ l'.requests) :
    l.DoneWith req := by
  cases h.effect.1 with
  | keep hperm _ _ => exact absurd (hperm.mem_iff.mpr hreq) hgone
  | add hash _ hperm _ _ =>
    exact absurd (hperm.mem_iff.mpr (mem_cons_of_mem _ hreq)) hgone
  | drop req' hdone hperm _ _ =>
    rcases mem_cons.mp (hperm.mem_iff.mp hreq) with rfl | hmem
    · exact hdone
    · exact absurd hmem hgone

lemma Matched.exists_request_queueDownload
    (h : (l.queueDownload hash addr).Matched) (hpeer : ¬addr.isZero) :
    ∃ req ∈ (l.queueDownload hash addr).requests, req.hash = hash ∧
      ∃ a ∈ (l.queueDownload hash addr).providers req, a.id = addr.id := by
  have hpending : ∃ p, (l.queueDownload hash addr).pending.get? hash = some p ∧
      ∃ a ∈ ((l.queueDownload hash addr).heap p).providers, a.id = addr.id := by
    unfold queueDownload
    split
    next p hp =>
      refine ⟨p, hp, ?_⟩
      dsimp only
      rw [update_self]
      exact PendingDownload.exists_mem_providers_add _ hpeer
    · rw [enqueue_eq]
      refine ⟨l.next, (GoMap.get?_set ..).trans (if_pos rfl), ?_⟩
      dsimp only
      rw [update_self]
      exact PendingDownload.exists_mem_providers_add _ hpeer
  obtain ⟨p, hp, hadded⟩ := hpending
  exact ⟨⟨hash, p⟩, (h.pending_iff ⟨hash, p⟩).mp hp, rfl, hadded⟩

/-- **Downloads are neither lost nor duplicated**, in every state that a run reaches. -/
theorem downloads_kept {past : List LiveQueue} (h : Trace Started (Step true) past l) :
    (l.requests.map LiveDownload.hash).Nodup ∧
      (∀ hash, (l.pending.get? hash).isSome ↔ ∃ req ∈ l.requests, req.hash = hash) ∧
      (l.downloader = .receiving → l.backlog ≠ [] → l.downloads ≠ []) ∧
      (∀ hash addr, ¬addr.isZero → ∃ req ∈ (l.queueDownload hash addr).requests, req.hash = hash ∧
        ∃ a ∈ (l.queueDownload hash addr).providers req, a.id = addr.id) ∧
      ∀ l' req, Step true l l' → req ∈ l.requests → req ∉ l'.requests →
        (∀ addr ∈ l.providers req, Tried (l :: past) req addr) ∨ SeenComplete (l :: past) req := by
  obtain ⟨hmatched, hfed, haccounted⟩ := sound_of_trace h
  refine ⟨hmatched.nodup, fun hash => ?_, fun hpc hne hempty => ?_, fun hash addr hpeer => ?_, ?_⟩
  · rw [Option.isSome_iff_exists]
    constructor
    · rintro ⟨p, hp⟩
      exact ⟨⟨hash, p⟩, (hmatched.pending_iff ⟨hash, p⟩).mp hp, rfl⟩
    · rintro ⟨req, hreq, rfl⟩
      exact ⟨req.pending, (hmatched.pending_iff req).mpr hreq⟩
  · rcases hfed.full hne with ⟨req, hreq⟩ | hfull
    · cases hpc.symm.trans hreq
    · rw [hempty] at hfull
      cases hfull
  · have hafter := hmatched.of_effect (effect_queueDownload hash addr)
    exact hafter.exists_request_queueDownload hpeer
  · intro l' req hs hreq hgone
    exact (hs.doneWith hreq hgone).tried_or_complete haccounted

/-- A request that is announced, received and given up after its one provider failed. -/
theorem downloads_kept_one_failure :
    let addr : EndpointAddr := ⟨Vector.replicate 32 1, []⟩
    let req : LiveDownload := ⟨Vector.replicate 32 2, 0⟩
    let start : LiveQueue := ⟨[], [], .empty, fun _ => .empty, 0, .receiving, fun _ => false⟩
    let announced := start.queueDownload req.hash addr
    let received := { announced with downloads := [], downloader := .scheduling req }
    let checked := { received.scheduleDownloads with downloader := .checking req 0 }
    let asked := { checked with downloader := .asking req 0 }
    let tried := { asked with downloader := .downloading req 1 [addr] }
    let failed := { tried with downloader := .checking req 1 }
    let last := { failed with downloader := .asking req 1 }
    let after := { (last.untried req 1).1 with downloader := .receiving }
    req ∈ last.requests ∧ req ∉ after.requests ∧ ((∀ addr ∈ last.providers req,
          Tried [last, failed, tried, asked, checked, received, announced, start] req addr) ∨
        SeenComplete [last, failed, tried, asked, checked, received, announced, start] req) := by
  intro addr req start announced received checked asked tried failed last after
  have h₀ : Trace Started (Step true) [] start := .start ⟨rfl, rfl, rfl, rfl⟩
  have h₁ := h₀.next (.announce start req.hash addr (by decide))
  have h₂ : Trace _ _ _ received := h₁.next (.receive announced req [] rfl rfl)
  have h₃ : Trace _ _ _ checked := h₂.next (.schedule received req rfl)
  have h₄ : Trace _ _ _ asked := h₃.next (.missing checked req 0 rfl rfl)
  have h₅ : Trace _ _ _ tried := h₄.next (.attempt asked req 0 rfl (by decide))
  have h₆ : Trace _ _ _ failed := h₅.next (.failed tried req 1 [addr] rfl)
  have h₇ : Trace _ _ _ last := h₆.next (.missing failed req 1 rfl rfl)
  have hreq : req ∈ last.requests := by decide
  have hgone : req ∉ after.requests := by decide
  refine ⟨hreq, hgone, ?_⟩
  exact (downloads_kept h₇).2.2.2.2 after req (.giveUp last req 1 rfl (by decide)) hreq hgone

end Iroh.Docs.LiveQueue
