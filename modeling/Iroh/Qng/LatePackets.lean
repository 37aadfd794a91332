import Iroh.Common.Runs
import Iroh.Qng.ConnIDGenerator

/-!
# Are late packets attributed to their path?

Reference: `internal/qng/conn_id_generator.go`, `connection.go`.

A packet that was sent before its connection ID was retired may arrive after, while the ID is still
registered.  `RetirePath` takes the ID out of `cidPath` at once, and a packet whose ID is not there
counts as one of path 0.  That is right for the IDs of path 0 only.

Every operation issues IDs, and `Extends` says what that does to the IDs that were there; besides, one
ID is dropped, or some are no longer registered.
-/

namespace Iroh.Qng.ConnIDGenerator

open List GoMap

variable {ID : Type} [DecidableEq ID] {n : Bool} {g g₀ g₁ : ConnIDGenerator ID}

def Attributed (n : Bool) (g : ConnIDGenerator ID) : Prop :=
  ∀ connID pid, (connID, pid) ∈ g.issued → connID ∈ g.registered →
    g.pathForReceivedConnID n connID = pid

/-! ## The invariant -/

/-- An entry of a path: issued for it, registered and routed to it. -/
structure PathEntry (g : ConnIDGenerator ID) (pid seq : ℕ) (connID : ID) : Prop where
  ne_zero : pid ≠ 0
  issued : (connID, pid) ∈ g.issued
  registered : connID ∈ g.registered
  lookup : g.cidPath.get? connID = some pid
  seq_lt : seq < (g.pathHighestSeq.get? pid).getD 0

/-- Connection IDs are issued once and are known where they are used. -/
structure Ok (n : Bool) (g : ConnIDGenerator ID) : Prop where
  fresh : (g.issued.map Prod.fst ++ g.supply.filterMap id).Nodup
  active : ∀ seq connID, g.activeSrcConnIDs.get? seq = some connID → (connID, 0) ∈ g.issued
  dest : ∀ connID, g.initialClientDestConnID = some connID → (connID, 0) ∈ g.issued
  path : ∀ pid seq connID, (g.pathIDs pid).get? seq = some connID → g.PathEntry pid seq connID
  distinct : ∀ pid seq seq' connID, (g.pathIDs pid).get? seq = some connID →
    (g.pathIDs pid).get? seq' = some connID → seq = seq'
  retired : ∀ c ∈ g.connIDsToRetire, c.2 ∈ g.issued.map Prod.fst ∧ g.cidPath.get? c.2 = none
  off : n = false → g.maxPathIDWithCIDs = 0 ∧ ∀ e ∈ g.issued, e.2 = 0

variable {connID : ID} {pid seq : ℕ} {supply : List (Option ID)}

lemma Ok.path_unique (h : Ok n g) (hpid : (connID, pid) ∈ g.issued)
    (hpid' : (connID, pid') ∈ g.issued) : pid = pid' := by
  have hnodup : (g.issued.map Prod.fst).Nodup := h.fresh.of_append_left
  exact congrArg Prod.snd (inj_on_of_nodup_map hnodup hpid hpid' rfl)

lemma snd_of_mem_issued_new {zeroLength : Bool}
    (h : e ∈ (new zeroLength initial clientDest supply).issued) : e.2 = 0 := by
  rcases mem_cons.mp h with rfl | h
  · rfl
  · obtain ⟨connID, -, rfl⟩ := mem_map.mp h
    rfl

lemma ok_new (n zeroLength : Bool) {initial : ID}
    (h : (initial :: clientDest.toList ++ supply.filterMap id).Nodup) :
    Ok n (new zeroLength initial clientDest supply) where
  fresh := by cases clientDest <;> exact h
  active := by
    intro seq connID hget
    rcases of_get?_set hget with ⟨-, rfl⟩ | ⟨-, hget⟩
    · exact mem_cons_self
    · cases hget
  dest := by
    rintro connID rfl
    exact mem_cons_of_mem _ mem_cons_self
  path := fun pid seq connID hget => by cases hget
  distinct := fun pid seq seq' connID hget => by cases hget
  retired := fun c hc => absurd hc not_mem_nil
  off := fun _ => ⟨rfl, fun _ => snd_of_mem_issued_new⟩

/-! ## Issuing -/

/-- What was issued stays issued to its path. -/
structure Extends (g g' : ConnIDGenerator ID) : Prop where
  issued : ∀ e ∈ g.issued, e ∈ g'.issued
  new : ∀ connID pid, (connID, pid) ∈ g'.issued →
    (connID, pid) ∈ g.issued ∨ connID ∉ g.issued.map Prod.fst ∧ g'.cidPath.get? connID = some pid
  lookup : ∀ connID ∈ g.issued.map Prod.fst, g'.cidPath.get? connID = g.cidPath.get? connID
  registered : ∀ connID ∈ g.issued.map Prod.fst, connID ∈ g'.registered ↔ connID ∈ g.registered

lemma Extends.refl (g : ConnIDGenerator ID) : Extends g g :=
  ⟨fun _ => id, fun _ _ => .inl, fun _ _ => rfl, fun _ _ => .rfl⟩

lemma Extends.mem_map (h : Extends g₀ g) (hmem : connID ∈ g₀.issued.map Prod.fst) :
    connID ∈ g.issued.map Prod.fst := by
  obtain ⟨e, he, rfl⟩ := List.mem_map.mp hmem
  exact mem_map_of_mem (h.issued e he)

lemma Extends.trans (h : Extends g₀ g) (h' : Extends g g₁) : Extends g₀ g₁ where
  issued := fun e he => h'.issued e (h.issued e he)
  new := by
    intro connID pid hmem
    rcases h'.new connID pid hmem with hmem | ⟨hnew, hlookup⟩
    · rcases h.new connID pid hmem with hold | ⟨hnew, hlookup⟩
      · exact .inl hold
      · exact .inr ⟨hnew, (h'.lookup connID (mem_map_of_mem (f := Prod.fst) hmem)).trans hlookup⟩
    · exact .inr ⟨fun hold => hnew (h.mem_map hold), hlookup⟩
  lookup := fun connID hold => (h'.lookup connID (h.mem_map hold)).trans (h.lookup connID hold)
  registered := fun connID hold =>
    (h'.registered connID (h.mem_map hold)).trans (h.registered connID hold)

lemma Attributed.extends (h : Attributed n g) (hext : Extends g g₁) (hok : Ok n g₁) :
    Attributed n g₁ := by
  intro connID pid hmem hreg
  rcases hext.new connID pid hmem with hold | ⟨-, hlookup⟩
  · have hissued := mem_map_of_mem (f := Prod.fst) hold
    have hattr := h connID pid hold ((hext.registered connID hissued).mp hreg)
    unfold pathForReceivedConnID at hattr ⊢
    rw [hext.lookup connID hissued]
    exact hattr
  · cases n with
    | false => exact ((hok.off rfl).2 _ hmem).symm
    | true =>
      unfold pathForReceivedConnID
      rw [hlookup]
      rfl

/-- What can be reached from `g₀` by issuing. -/
def From (n : Bool) (g₀ g : ConnIDGenerator ID) : Prop := Ok n g ∧ Extends g₀ g

lemma From.update (h : From n g₀ g) (hsupply : supply.Sublist g.supply)
    (hoff : n = false → maxPathID = 0) : From n g₀ { g with
      supply := supply, peerActiveConnIDLimit := limit, maxPathIDWithCIDs := maxPathID } := by
  obtain ⟨hok, hext⟩ := h
  refine ⟨{ hok with
    fresh := hok.fresh.sublist ((hsupply.filterMap id).append_left _)
    path := fun pid seq c hc => { hok.path pid seq c hc with }
    off := fun hn => ⟨hoff hn, (hok.off hn).2⟩ }, { hext with }⟩

lemma not_mem_issued (h : Ok n g) (hsupply : g.supply = some connID :: supply) :
    connID ∉ g.issued.map Prod.fst := by
  have hfresh := h.fresh
  rw [hsupply, nodup_append] at hfresh
  exact fun hmem => hfresh.2.2 connID hmem connID mem_cons_self rfl

lemma fresh_cons (h : Ok n g) (hsupply : g.supply = some connID :: supply) :
    (connID :: g.issued.map Prod.fst ++ supply.filterMap id).Nodup := by
  have hfresh := h.fresh
  rw [hsupply] at hfresh
  exact nodup_middle.mp hfresh

lemma extends_set (hnew : connID ∉ g.issued.map Prod.fst)
    (hissued : g₁.issued = (connID, pid) :: g.issued)
    (hregistered : g₁.registered = connID :: g.registered)
    (hlookup : g₁.cidPath = g.cidPath.set connID pid) : Extends g g₁ where
  issued := fun e he => hissued ▸ mem_cons_of_mem _ he
  new := by
    intro connID' pid' hmem
    rw [hissued] at hmem
    rcases mem_cons.mp hmem with heq | hmem
    · cases heq
      exact .inr ⟨hnew, by rw [hlookup, get?_set, if_pos rfl]⟩
    · exact .inl hmem
  lookup := by
    intro connID' hold
    rw [hlookup, get?_set, if_neg]
    rintro rfl
    exact hnew hold
  registered := by
    intro connID' hold
    rw [hregistered, mem_cons]
    refine or_iff_right ?_
    rintro rfl
    exact hnew hold

lemma PathEntry.extends (h : g.PathEntry pid seq connID) (hext : Extends g g₁)
    (hseq : (g.pathHighestSeq.get? pid).getD 0 ≤ (g₁.pathHighestSeq.get? pid).getD 0) :
    g₁.PathEntry pid seq connID := by
  have hissued := mem_map_of_mem (f := Prod.fst) h.issued
  exact ⟨h.ne_zero, hext.issued _ h.issued, (hext.registered connID hissued).mpr h.registered,
    (hext.lookup connID hissued).trans h.lookup, h.seq_lt.trans_le hseq⟩

lemma retired_extends (h : Ok n g) (hext : Extends g g₁)
    (hretire : g₁.connIDsToRetire = g.connIDsToRetire) :
    ∀ c ∈ g₁.connIDsToRetire, c.2 ∈ g₁.issued.map Prod.fst ∧ g₁.cidPath.get? c.2 = none := by
  intro c hc
  obtain ⟨hissued, hnone⟩ := h.retired c (hretire ▸ hc)
  exact ⟨hext.mem_map hissued, (hext.lookup c.2 hissued).trans hnone⟩

lemma from_addConnID (h : Ok n g) (hsupply : g.supply = some connID :: supply) :
    From n g (addConnID connID { g with supply := supply }) := by
  have hext : Extends g (addConnID connID { g with supply := supply }) :=
    extends_set (not_mem_issued h hsupply) rfl rfl rfl
  refine ⟨⟨fresh_cons (g := g) h hsupply, ?_, fun c hc => hext.issued _ (h.dest c hc), ?_, h.distinct,
    retired_extends h hext rfl, fun hn => ⟨(h.off hn).1, ?_⟩⟩, hext⟩
  · intro seq connID' hget
    rcases of_get?_set hget with ⟨-, rfl⟩ | ⟨-, hget⟩
    · exact mem_cons_self
    · exact hext.issued _ (h.active seq connID' hget)
  · exact fun pid seq connID' hget => (h.path pid seq connID' hget).extends hext (Nat.le_refl _)
  · exact forall_mem_cons.mpr ⟨rfl, (h.off hn).2⟩

lemma pathIDs_addPathConnID (pid pid' : ℕ) (connID : ID) (g : ConnIDGenerator ID) :
    (addPathConnID pid connID g).pathIDs pid' =
      if pid' = pid then (g.pathIDs pid).set ((g.pathHighestSeq.get? pid).getD 0) connID
      else g.pathIDs pid' := by
  rw [addPathConnID, pathIDs, get?_set]
  split <;> rfl

lemma from_addPathConnID (h : Ok true g) (hpid : pid ≠ 0) (hsupply : g.supply = some connID :: supply) :
    From true g (addPathConnID pid connID { g with supply := supply }) := by
  have hnew := not_mem_issued h hsupply
  have hext : Extends g (addPathConnID pid connID { g with supply := supply }) :=
    extends_set hnew rfl rfl rfl
  have hnext : ∀ pid', ((addPathConnID pid connID { g with supply := supply }).pathHighestSeq.get?
      pid').getD 0 = (g.pathHighestSeq.get? pid').getD 0 + if pid' = pid then 1 else 0 := by
    intro pid'
    simp only [addPathConnID, get?_set]
    split
    · subst pid'
      rfl
    · rfl
  -- an entry is the new one or an old one
  have hcases : ∀ pid' seq connID',
      ((addPathConnID pid connID { g with supply := supply }).pathIDs pid').get? seq = some connID' →
      pid' = pid ∧ seq = (g.pathHighestSeq.get? pid).getD 0 ∧ connID' = connID ∨
        (g.pathIDs pid').get? seq = some connID' := by
    intro pid' seq connID' hget
    rw [pathIDs_addPathConnID] at hget
    split at hget
    next heq =>
      rcases of_get?_set hget with ⟨hseq, hc⟩ | ⟨-, hget⟩
      · exact .inl ⟨heq, hseq, hc⟩
      · exact .inr (heq ▸ hget)
    · exact .inr hget
  refine ⟨⟨fresh_cons (g := g) h hsupply, fun seq c hc => hext.issued _ (h.active seq c hc),
    fun c hc => hext.issued _ (h.dest c hc), ?_, ?_, retired_extends h hext rfl,
    fun hn => by cases hn⟩, hext⟩
  · intro pid' seq connID' hget
    rcases hcases pid' seq connID' hget with ⟨rfl, rfl, rfl⟩ | hget
    · refine ⟨hpid, mem_cons_self, mem_cons_self, ?_, ?_⟩
      · exact (get?_set ..).trans (if_pos rfl)
      · rw [hnext, if_pos rfl]
        exact Nat.lt_succ_self _
    · refine (h.path pid' seq connID' hget).extends hext ?_
      rw [hnext]
      exact Nat.le_add_right _ _
  · intro pid' seq seq' connID' hget hget'
    have hold : ∀ {seq}, (g.pathIDs pid').get? seq = some connID' → connID' ≠ connID := by
      rintro seq hentry rfl
      exact hnew (mem_map_of_mem (f := Prod.fst) (h.path pid' seq connID' hentry).issued)
    rcases hcases pid' seq connID' hget with ⟨-, hseq, heq⟩ | hget
    · rcases hcases pid' seq' connID' hget' with ⟨-, hseq', -⟩ | hget'
      · rw [hseq, hseq']
      · exact absurd heq (hold hget')
    · rcases hcases pid' seq' connID' hget' with ⟨-, -, heq⟩ | hget'
      · exact absurd heq (hold hget)
      · exact h.distinct pid' seq seq' connID' hget hget'

lemma keeps_issue {add : ID → ConnIDGenerator ID → ConnIDGenerator ID}
    (hadd : ∀ {g connID supply}, Ok n g → g.supply = some connID :: supply →
      From n g (add connID { g with supply := supply })) :
    Keeps (From n g₀) (do
      let connID ← generateConnectionID
      modify (add connID)) := by
  rintro g ⟨hok, hext⟩
  show From n g₀ (stateOf (EStateM.bind generateConnectionID (fun connID => modify (add connID)) g))
  unfold EStateM.bind generateConnectionID
  rcases hsupply : g.supply with _ | ⟨_ | connID, supply⟩
  · exact ⟨hok, hext⟩
  · have hsub : supply.Sublist g.supply := hsupply ▸ sublist_cons_self _ _
    exact From.update ⟨hok, hext⟩ hsub fun hn => (hok.off hn).1
  · obtain ⟨hok', hext'⟩ := hadd hok hsupply
    exact ⟨hok', hext.trans hext'⟩

lemma keeps_issueNewConnID : Keeps (From n g₀) issueNewConnID :=
  keeps_issue fun hok => from_addConnID hok

lemma keeps_issuePathConnID (pid : ℕ) : Keeps (From true g₀) (issuePathConnID pid) := by
  unfold issuePathConnID
  split
  · exact .throw _
  next hpid =>
    exact .get_bind fun g _ => .ite (.pure _) (keeps_issue fun hok => from_addPathConnID hok hpid)

lemma issuePathConnID_ok (hok : Ok true g) (hlen : g.zeroLength = false)
    (h : issuePathConnID pid g = .ok () g₁) :
    Ok true g₁ ∧ g₁.zeroLength = false ∧ (g₁.pathIDs pid).len = (g.pathIDs pid).len + 1 := by
  have hkeeps : Keeps (From true g) (issuePathConnID pid) := keeps_issuePathConnID pid
  have hok₁ := (hkeeps g ⟨hok, .refl g⟩).1
  rw [h] at hok₁
  unfold issuePathConnID at h
  split at h
  · cases h
  rw [get_bind_apply, hlen] at h
  obtain ⟨connID, g₂, hgen, h⟩ := bind_eq_ok.mp h
  obtain ⟨supply, rfl⟩ : ∃ supply, g₂ = { g with supply := supply } := by
    unfold generateConnectionID at hgen
    split at hgen <;> cases hgen
    exact ⟨_, rfl⟩
  cases h
  refine ⟨hok₁, hlen, ?_⟩
  rw [pathIDs_addPathConnID, if_pos rfl]
  refine len_set_of_not_mem fun hmem => ?_
  obtain ⟨c, hc⟩ := mem_keys_iff.mp hmem
  exact Nat.lt_irrefl _ (hok.path pid _ c hc).seq_lt

lemma keeps_fillPath (pid budget fuel : ℕ) : Keeps (From true g₀) (fillPath pid budget fuel) := by
  induction fuel with
  | zero => exact .pure _
  | succ fuel ih =>
    exact .get_bind fun g _ => .ite ((keeps_issuePathConnID pid).bind fun _ => ih) (.pure _)

lemma length_of_fillPath (hok : Ok true g) (hlen : g.zeroLength = false)
    (hfuel : budget ≤ (g.pathIDs pid).len + fuel) (h : fillPath pid budget fuel g = .ok () g₁) :
    budget ≤ (g₁.pathIDs pid).len := by
  induction fuel generalizing g with
  | zero =>
    obtain ⟨-, rfl⟩ := pure_eq_ok.mp h
    exact hfuel
  | succ fuel ih =>
    rw [fillPath, get_bind_apply] at h
    split at h
    · obtain ⟨_, g₂, hissue, h⟩ := bind_eq_ok.mp h
      obtain ⟨hok₂, hlen₂, hmore⟩ := issuePathConnID_ok hok hlen hissue
      exact ih hok₂ hlen₂ (by omega) h
    · obtain ⟨-, rfl⟩ := pure_eq_ok.mp h
      omega

lemma keeps_topUpPath (budget pid : ℕ) : Keeps (From true g₀) (topUpPath budget pid) :=
  .get_bind fun _ _ => (keeps_issuePathConnID pid).times _

lemma keeps_setMaxActiveConnIDs (limit : ℕ) : Keeps (From n g₀) (setMaxActiveConnIDs limit) := by
  refine .bind (.modify ?_) fun _ => .get_bind fun g hg => .ite (.pure _) ?_
  · exact fun g hg => hg.update (List.Sublist.refl _) fun hn => (hg.1.off hn).1
  · refine (keeps_issueNewConnID.times _).bind fun _ => ?_
    cases n with
    | false =>
      rw [(hg.1.off rfl).1]
      exact .pure _
    | true => exact .forM fun pid _ => keeps_topUpPath _ pid

lemma keeps_issueFirstPathCIDs (maxPathID : ℕ) :
    Keeps (From true g₀) (issueFirstPathCIDs maxPathID) := by
  have hraise : ∀ g, From true g₀ g → From true g₀
      { g with maxPathIDWithCIDs := max maxPathID g.maxPathIDWithCIDs } := by
    exact fun g hg => hg.update (List.Sublist.refl _) fun hn => by cases hn
  refine .get_bind fun g _ => .ite (.modify hraise) (.bind (.forM fun pid _ => ?_) fun _ => .modify hraise)
  exact keeps_topUpPath _ pid

lemma keeps_ensurePathCIDs (pid : ℕ) : Keeps (From true g₀) (ensurePathCIDs pid) :=
  .get_bind fun _ _ => .ite (.pure _) (keeps_fillPath pid _ _)

/-! ## Dropping -/

/-- Entries go, and nothing is issued. -/
structure Drops (connID : ID) (g g' : ConnIDGenerator ID) : Prop where
  supply : g'.supply = g.supply
  issued : g'.issued = g.issued
  registered : g'.registered = g.registered
  cidPath : g'.cidPath = g.cidPath.delete connID
  toRetire : ∀ c ∈ g'.connIDsToRetire, c.2 = connID ∨ c ∈ g.connIDsToRetire
  active : ∀ seq c, g'.activeSrcConnIDs.get? seq = some c → g.activeSrcConnIDs.get? seq = some c
  dest : ∀ c, g'.initialClientDestConnID = some c → g.initialClientDestConnID = some c
  path : ∀ pid seq c, (g'.pathIDs pid).get? seq = some c →
    c ≠ connID ∧ (g.pathIDs pid).get? seq = some c
  highest : g'.pathHighestSeq = g.pathHighestSeq
  maxPathID : g'.maxPathIDWithCIDs = g.maxPathIDWithCIDs

lemma Ok.drops (h : Ok n g) (hdrops : Drops connID g g₁) (hissued : connID ∈ g.issued.map Prod.fst) :
    Ok n g₁ where
  fresh := by
    rw [hdrops.issued, hdrops.supply]
    exact h.fresh
  active := fun seq c hc => hdrops.issued ▸ h.active seq c (hdrops.active seq c hc)
  dest := fun c hc => hdrops.issued ▸ h.dest c (hdrops.dest c hc)
  path := by
    intro pid seq c hc
    obtain ⟨hne, hc⟩ := hdrops.path pid seq c hc
    obtain ⟨hpid, hmem, hreg, hlookup, hseq⟩ := h.path pid seq c hc
    refine ⟨hpid, hdrops.issued ▸ hmem, hdrops.registered ▸ hreg, ?_, hdrops.highest ▸ hseq⟩
    rwa [hdrops.cidPath, get?_delete, if_neg hne]
  distinct := fun pid seq seq' c hc hc' =>
    h.distinct pid seq seq' c (hdrops.path pid seq c hc).2 (hdrops.path pid seq' c hc').2
  retired := by
    intro c hc
    rw [hdrops.issued, hdrops.cidPath, get?_delete]
    rcases hdrops.toRetire c hc with heq | hc
    · rw [if_pos heq, heq]
      exact ⟨hissued, rfl⟩
    · obtain ⟨hold, hnone⟩ := h.retired c hc
      exact ⟨hold, by rw [hnone, ite_self]⟩
  off := fun hn => ⟨hdrops.maxPathID.trans (h.off hn).1, hdrops.issued ▸ (h.off hn).2⟩

lemma Attributed.drops (h : Attributed n g) (hok : Ok n g) (hdrops : Drops connID g g₁)
    (hissued : (connID, 0) ∈ g.issued) : Attributed n g₁ := by
  intro c pid hmem hreg
  rw [hdrops.issued] at hmem
  rw [hdrops.registered] at hreg
  have hattr := h c pid hmem hreg
  unfold pathForReceivedConnID at hattr ⊢
  rw [hdrops.cidPath, get?_delete]
  by_cases hc : c = connID
  · obtain rfl : pid = 0 := hok.path_unique hmem (hc ▸ hissued)
    rw [if_pos hc, ite_self]
  · rw [if_neg hc]
    exact hattr

def Lost (g : ConnIDGenerator ID) (connID : ID) (pid : ℕ) : Prop :=
  pid ≠ 0 ∧ (connID, pid) ∈ g.issued ∧ connID ∈ g.registered ∧ g.cidPath.get? connID = none

lemma Lost.not_attributed (h : g.Lost connID pid) : ¬ Attributed true g := by
  obtain ⟨hpid, hissued, hreg, hnone⟩ := h
  intro hattr
  have hzero := hattr connID pid hissued hreg
  unfold pathForReceivedConnID at hzero
  rw [hnone] at hzero
  exact hpid hzero.symm

lemma Lost.extends (h : g.Lost connID pid) (hext : Extends g g₁) : g₁.Lost connID pid := by
  obtain ⟨hpid, hissued, hreg, hnone⟩ := h
  have hmem := mem_map_of_mem (f := Prod.fst) hissued
  exact ⟨hpid, hext.issued _ hissued, (hext.registered connID hmem).mpr hreg,
    (hext.lookup connID hmem).trans hnone⟩

omit [DecidableEq ID] in
lemma mem_queueConnIDForRetiring (hc : c ∈ (g.queueConnIDForRetiring connID expiry).connIDsToRetire) :
    c.2 = connID ∨ c ∈ g.connIDsToRetire := by
  simp only [queueConnIDForRetiring, span_eq_takeWhile_dropWhile, mem_append, mem_cons] at hc
  rcases hc with hc | rfl | hc
  · exact .inr ((takeWhile_sublist _).mem hc)
  · exact .inl rfl
  · exact .inr ((dropWhile_sublist _).mem hc)

lemma Ok.path_ne (h : Ok n g) (hissued : (connID, 0) ∈ g.issued)
    (hc : (g.pathIDs pid).get? seq = some c) : c ≠ connID := by
  rintro rfl
  have hentry := h.path pid seq c hc
  exact hentry.ne_zero (h.path_unique hentry.issued hissued)

lemma Ok.dropConnID (h : Ok n g) (hget : g.activeSrcConnIDs.get? seq = some connID) (expiry : ℕ) :
    Drops connID g (g.dropConnID seq connID expiry) :=
  ⟨rfl, rfl, rfl, rfl, fun _ => mem_queueConnIDForRetiring, fun _ _ hc => (of_get?_delete hc).2,
    fun _ => id, fun _ _ _ hc => ⟨h.path_ne (h.active seq connID hget) hc, hc⟩, rfl, rfl⟩

lemma Ok.setHandshakeComplete (h : Ok n g) (hdest : g.initialClientDestConnID = some connID)
    (expiry : ℕ) : Drops connID g (g.setHandshakeComplete expiry) := by
  unfold ConnIDGenerator.setHandshakeComplete
  rw [hdest]
  exact ⟨rfl, rfl, rfl, rfl, fun _ => mem_queueConnIDForRetiring, fun _ _ => id,
    fun c hc => absurd hc (Option.some_ne_none c).symm,
    fun pid seq c hc => ⟨h.path_ne (h.dest connID hdest) hc, hc⟩, rfl, rfl⟩

lemma pathIDs_dropPathConnID (pid seq expiry pid' : ℕ) (connID : ID) (g : ConnIDGenerator ID) (k : ℕ) :
    ((g.dropPathConnID pid seq connID expiry).pathIDs pid').get? k =
      if pid' = pid ∧ k = seq then none else (g.pathIDs pid').get? k := by
  unfold dropPathConnID
  dsimp only
  rw [pathIDs]
  by_cases hpid : pid' = pid
  · subst hpid
    split
    next hlen =>
      -- nothing is left of the path's table
      have hnone : (if k = seq then none else (g.pathIDs pid').get? k) = none :=
        (get?_delete ..).symm.trans (get?_eq_none.mpr (len_eq_zero.mp hlen k))
      simpa using hnone.symm
    · simp [queueConnIDForRetiring, pathIDs]
  · split <;> simp [hpid, queueConnIDForRetiring, pathIDs]

lemma Ok.dropPathConnID (h : Ok n g) (hget : (g.pathIDs pid).get? seq = some connID) (expiry : ℕ) :
    Drops connID g (g.dropPathConnID pid seq connID expiry) := by
  refine ⟨rfl, rfl, rfl, rfl, fun _ => mem_queueConnIDForRetiring, fun _ _ => id, fun _ => id, ?_, rfl,
    rfl⟩
  intro pid' seq' c hc
  rw [pathIDs_dropPathConnID] at hc
  split at hc
  · cases hc
  next hother =>
    refine ⟨?_, hc⟩
    rintro rfl
    obtain rfl : pid' = pid :=
      h.path_unique (h.path pid' seq' c hc).issued (h.path pid seq c hget).issued
    exact hother ⟨rfl, h.distinct pid' seq' seq c hc hget⟩

lemma Ok.removeRetiredConnIDs (h : Ok n g) (now : ℕ) : Ok n (g.removeRetiredConnIDs now) := by
  rw [ConnIDGenerator.removeRetiredConnIDs, span_eq_takeWhile_dropWhile]
  refine { h with path := ?_, retired := fun c hc => h.retired c ((dropWhile_sublist _).mem hc) }
  intro pid seq connID hget
  have hentry := h.path pid seq connID hget
  refine { hentry with registered := mem_filter.mpr ⟨hentry.registered, ?_⟩ }
  refine decide_eq_true fun hexpired => ?_
  obtain ⟨c, hc, rfl⟩ := mem_map.mp hexpired
  cases hentry.lookup.symm.trans (h.retired c ((takeWhile_sublist _).mem hc)).2

lemma Attributed.removeRetiredConnIDs (h : Attributed n g) (now : ℕ) :
    Attributed n (g.removeRetiredConnIDs now) :=
  fun connID pid hmem hreg => h connID pid hmem (mem_of_mem_filter hreg)

/-! ## Runs -/

def ActionOk (n : Bool) (g : ConnIDGenerator ID) : Action ID → Prop
  | .retirePath pid seq sentWithDestConnID _ => n = true → pid ≠ 0 → ∀ connID,
      (g.pathIDs pid).get? seq = some connID → connID = sentWithDestConnID
  | _ => True

def Harmless (n : Bool) (g g' : ConnIDGenerator ID) : Prop :=
  Ok n g' ∧ (Attributed n g → Attributed n g')

lemma Harmless.iff (h : Harmless n g g₁) (hp : p) :
    Ok n g₁ ∧ (Attributed n g → (Attributed n g₁ ↔ p)) :=
  ⟨h.1, fun hattr => iff_of_true (h.2 hattr) hp⟩

lemma harmless_of_keeps (hx : Keeps (From n g) x) (hok : Ok n g) : Harmless n g (stateOf (x g)) := by
  obtain ⟨hok', hext⟩ := hx g ⟨hok, .refl g⟩
  exact ⟨hok', fun hattr => hattr.extends hext hok'⟩

lemma Ok.harmless_of_drops (hok : Ok n g) (hdrops : Drops connID g g₁)
    (hissued : (connID, 0) ∈ g.issued) : Harmless n g g₁ :=
  ⟨hok.drops hdrops (mem_map_of_mem (f := Prod.fst) hissued),
    fun hattr => hattr.drops hok hdrops hissued⟩

lemma harmless_retire (hok : Ok n g) (seq : ℕ) (sentWithDestConnID : ID) (expiry : ℕ) :
    Harmless n g (stateOf (retire seq sentWithDestConnID expiry g)) := by
  unfold retire
  split
  · exact ⟨hok, id⟩
  · split
    · exact ⟨hok, id⟩
    next connID hget =>
      split
      · exact ⟨hok, id⟩
      · have hdrop := hok.harmless_of_drops (hok.dropConnID hget expiry) (hok.active seq connID hget)
        split
        · exact hdrop
        · exact (harmless_of_keeps keeps_issueNewConnID hdrop.1).imp_right fun h => h ∘ hdrop.2

lemma retirePath_cases (hok : Ok true g) (hpid : pid ≠ 0) (seq : ℕ) (sentWithDestConnID : ID)
    (expiry : ℕ) : stateOf (retirePath pid seq sentWithDestConnID expiry g) = g ∧
        (∀ connID, (g.pathIDs pid).get? seq = some connID → connID = sentWithDestConnID) ∨
      Ok true (stateOf (retirePath pid seq sentWithDestConnID expiry g)) ∧
        ∃ connID, (g.pathIDs pid).get? seq = some connID ∧ connID ≠ sentWithDestConnID ∧
          (stateOf (retirePath pid seq sentWithDestConnID expiry g)).Lost connID pid := by
  unfold retirePath
  rw [if_neg hpid]
  split
  next hle =>
    refine .inl ⟨rfl, fun connID hget => ?_⟩
    exact absurd (hok.path pid seq connID hget).seq_lt (Nat.not_lt.mpr hle)
  · split
    next hnone =>
      refine .inl ⟨rfl, fun connID hget => ?_⟩
      rw [hnone] at hget
      cases hget
    next connID hget =>
      split
      next heq =>
        refine .inl ⟨rfl, fun connID' hget' => ?_⟩
        rw [← heq]
        exact Option.some.inj (hget'.symm.trans hget)
      next hne =>
        have hentry := hok.path pid seq connID hget
        have hdrops := hok.dropPathConnID hget expiry
        have hok' := hok.drops hdrops (mem_map_of_mem (f := Prod.fst) hentry.issued)
        have hlost : (g.dropPathConnID pid seq connID expiry).Lost connID pid :=
          ⟨hpid, hentry.issued, hentry.registered, (get?_delete ..).trans (if_pos rfl)⟩
        have hkeeps : Keeps (From true (g.dropPathConnID pid seq connID expiry)) _ :=
          keeps_fillPath pid g.issueCIDsLimit g.issueCIDsLimit
        have hfill := hkeeps _ ⟨hok', .refl _⟩
        exact .inr ⟨hfill.1, connID, hget, hne, hlost.extends hfill.2⟩

lemma step_spec (hok : Ok n g) (a : Action ID) :
    Ok n (g.step n a) ∧ (Attributed n g → (Attributed n (g.step n a) ↔ g.ActionOk n a)) := by
  cases a with
  | setMaxActiveConnIDs limit =>
    exact (harmless_of_keeps (keeps_setMaxActiveConnIDs limit) hok).iff trivial
  | issueFirstPathCIDs maxPathID =>
    cases n with
    | false => exact Harmless.iff ⟨hok, id⟩ trivial
    | true => exact (harmless_of_keeps (keeps_issueFirstPathCIDs maxPathID) hok).iff trivial
  | ensurePathCIDs pid =>
    cases n with
    | false => exact Harmless.iff ⟨hok, id⟩ trivial
    | true => exact (harmless_of_keeps (keeps_ensurePathCIDs pid) hok).iff trivial
  | retirePath pid seq sentWithDestConnID expiry =>
    unfold step ActionOk
    dsimp only
    by_cases hpid : pid = 0
    · have hretire : retirePath pid seq sentWithDestConnID expiry g =
          retire seq sentWithDestConnID expiry g := if_pos hpid
      rw [if_pos (by simp [hpid]), hretire]
      exact (harmless_retire hok seq sentWithDestConnID expiry).iff fun _ hne => absurd hpid hne
    · cases n with
      | false =>
        rw [if_neg (by simp [hpid])]
        exact Harmless.iff ⟨hok, id⟩ fun hfalse => by cases hfalse
      | true =>
        rw [if_pos (by simp)]
        rcases retirePath_cases hok hpid seq sentWithDestConnID expiry with
          ⟨hsame, hall⟩ | ⟨hok', connID, hget, hne, hlost⟩
        · rw [hsame]
          exact Harmless.iff ⟨hok, id⟩ fun _ _ => hall
        · refine ⟨hok', fun _ => iff_of_false hlost.not_attributed fun hall => ?_⟩
          exact hne (hall rfl hpid connID hget)
  | setHandshakeComplete connIDExpiry =>
    cases hdest : g.initialClientDestConnID with
    | none =>
      have hsame : g.step n (.setHandshakeComplete connIDExpiry) = g := by
        unfold step setHandshakeComplete
        rw [hdest]
      rw [hsame]
      exact Harmless.iff ⟨hok, id⟩ trivial
    | some connID =>
      have hdrops := hok.setHandshakeComplete hdest connIDExpiry
      exact (hok.harmless_of_drops hdrops (hok.dest connID hdest)).iff trivial
  | removeRetiredConnIDs now =>
    exact Harmless.iff ⟨hok.removeRetiredConnIDs now, (·.removeRetiredConnIDs now)⟩ trivial

lemma attributed_new (n zeroLength : Bool) (initial : ID) (clientDest : Option ID)
    (supply : List (Option ID)) : Attributed n (new zeroLength initial clientDest supply) := by
  intro connID pid hmem _
  -- all IDs are of path 0, and so is everything that is looked up
  obtain rfl : pid = 0 := snd_of_mem_issued_new hmem
  unfold pathForReceivedConnID
  split
  · rfl
  · split
    · rfl
    next pid' hget =>
      have hfirst : (set .empty initial 0).get? connID = some pid' → pid' = 0 := by
        simp +contextual
      cases clientDest with
      | none => exact hfirst hget
      | some dest =>
        rcases of_get?_set hget with ⟨-, heq⟩ | ⟨-, hget⟩
        · exact heq
        · exact hfirst hget

/-- **Registered connection IDs are attributed to their paths along a run exactly when no ID of another
path than path 0 is retired.** -/
theorem attributed_iff_none_retired (n zeroLength : Bool) (initial : ID) (clientDest : Option ID)
    (supply : List (Option ID)) (h : (initial :: clientDest.toList ++ supply.filterMap id).Nodup)
    (actions : List (Action ID)) :
    EachState (step n) (Attributed n) (new zeroLength initial clientDest supply) actions ↔
      EachStep (step n) (ActionOk n) (new zeroLength initial clientDest supply) actions := by
  refine eachState_iff_of_inv (Ok n) ?_ ?_ (ok_new n zeroLength h)
    (attributed_new n zeroLength initial clientDest supply) actions
  · exact fun g a hok => (step_spec hok a).1
  · exact fun g a hok => (step_spec hok a).2

/-- A server issues IDs for paths 0 and 1, and the client retires the first ID of path 1. -/
def retiring : List (Action ℕ) := [.setMaxActiveConnIDs 2, .issueFirstPathCIDs 1, .retirePath 1 0 10 5]

theorem attributed_iff_none_retired_retiring :
    EachState (step true) (Attributed true) (new false 10 (some 11) ((range' 20 4).map some))
        retiring ↔
      EachStep (step true) (ActionOk true) (new false 10 (some 11) ((range' 20 4).map some))
        retiring :=
  attributed_iff_none_retired true false 10 (some 11) _ (by decide) retiring

/-- **A path gets its budget back when one of its IDs is retired**, in every state of a run, unless no ID can
be generated. -/
theorem budget_restored (zeroLength : Bool) (initial : ID) (clientDest : Option ID)
    (supply : List (Option ID)) (h : (initial :: clientDest.toList ++ supply.filterMap id).Nodup)
    (actions : List (Action ID)) :
    EachState (step true) (fun g => ∀ pid seq connID sentWithDestConnID expiry g', pid ≠ 0 →
        g.zeroLength = false → (g.pathIDs pid).get? seq = some connID →
        retirePath pid seq sentWithDestConnID expiry g = .ok () g' →
        g.issueCIDsLimit ≤ (g'.pathIDs pid).len)
      (new zeroLength initial clientDest supply) actions := by
  intro pre hpre pid seq connID sentWithDestConnID expiry g' hpid hlen hget hretire
  have hok := eachState_of_inv (Ok true) (fun g a hok => (step_spec hok a).1) (ok_new true zeroLength h)
    actions pre hpre
  have hentry := hok.path pid seq connID hget
  unfold retirePath at hretire
  rw [if_neg hpid, if_neg (Nat.not_le.mpr hentry.seq_lt), hget] at hretire
  dsimp only at hretire
  split at hretire
  · cases hretire
  · have hissued := mem_map_of_mem (f := Prod.fst) hentry.issued
    exact length_of_fillPath (hok.drops (hok.dropPathConnID hget expiry) hissued) hlen
      (Nat.le_add_left ..) hretire

theorem budget_restored_retiring :
    EachState (step true) (fun g => ∀ pid seq connID sentWithDestConnID expiry g', pid ≠ 0 →
        g.zeroLength = false → (g.pathIDs pid).get? seq = some connID →
        retirePath pid seq sentWithDestConnID expiry g = .ok () g' →
        g.issueCIDsLimit ≤ (g'.pathIDs pid).len)
      (new false 10 (some 11) ((range' 20 4).map some)) retiring :=
  budget_restored false 10 (some 11) _ (by decide) retiring

/-- The retired ID was issued for path 1 and is registered until time 5, but looked up as one of path
0. -/
theorem retired_id_misattributed :
    let g := retiring.foldl (step true) (new false 10 (some 11) ((range' 20 4).map some))
    (21, 1) ∈ g.issued ∧ 21 ∈ (g.removeRetiredConnIDs 4).registered ∧
      (g.removeRetiredConnIDs 4).pathForReceivedConnID true 21 = 0 ∧
      ¬ EachState (step true) (Attributed true)
        (new false 10 (some 11) ((range' 20 4).map some)) retiring := by
  refine ⟨by decide, by decide, by decide, fun h => ?_⟩
  have hpath := h retiring prefix_rfl 21 1 (by decide) (by decide)
  exact absurd hpath (by decide)

end Iroh.Qng.ConnIDGenerator
