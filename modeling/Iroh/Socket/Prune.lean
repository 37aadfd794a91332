import Iroh.Socket.PathState

/-!
# What `Prune` keeps

Reference: `internal/socket/path_state.go` (`Prune`).

The unusable paths go, and the inactive ones but for those closed last.  The loop sees the paths in any
order, which decides between paths closed at one time, and which of the paths stay when all are unusable.
-/

universe u v

namespace Iroh.Socket

open List PathAddr

variable {α : Type u} {κ : Type v} [DecidableEq κ] [PathAddr α κ]

def PathEntry.Inactive (e : PathEntry α) : Prop := isRelayAddr e.addr = false ∧ e.state.status = .inactive

def PathEntry.Failed (e : PathEntry α) : Prop := isRelayAddr e.addr = false ∧ e.state.status = .unusable

namespace RemotePathState

def nonRelay (p : RemotePathState α κ) : ℕ := (p.paths.values.filter fun e => !isRelayAddr e.addr).length

/-- What pruning leaves of `p`. -/
structure Pruned (p q : RemotePathState α κ) : Prop where
  old : ∀ k e, q.paths.get? k = some e → p.paths.get? k = some e
  kept : ∀ k e, p.paths.get? k = some e → ¬e.Inactive → ¬e.Failed → q.paths.get? k = some e
  failed : (∃ k e, p.paths.get? k = some e ∧ ¬e.Failed) → ∀ k e, q.paths.get? k = some e → ¬e.Failed
  allFailed : (∀ k e, p.paths.get? k = some e → e.Failed) → q.paths.len = maxNonRelayPaths
  count : q.inactive.length = min maxInactiveNonRelayPaths p.inactive.length
  latest : ∀ k e k' e', q.paths.get? k = some e → e.Inactive → p.paths.get? k' = some e' → e'.Inactive →
    q.paths.get? k' = none → e'.state.closedAt ≤ e.state.closedAt

variable {p q : RemotePathState α κ} {k : κ} {e : PathEntry α}

lemma mem_take_iff {β : Type*} {l : List β} (h : l.Nodup) (m : ℕ) (x : β) :
    (x ∈ l.take m ↔ x ∈ l ∧ x ∉ l.drop m) ∧ (x ∈ l.drop m ↔ x ∈ l ∧ x ∉ l.take m) := by
  have hmem : x ∈ l ↔ x ∈ l.take m ∨ x ∈ l.drop m := by rw [← mem_append, take_append_drop]
  have hdisjoint : x ∈ l.take m → x ∈ l.drop m → False :=
    fun htake hdrop => disjoint_take_drop h (Nat.le_refl m) htake hdrop
  tauto

lemma mem_failed : k ∈ p.failed ↔ ∃ e, p.paths.get? k = some e ∧ e.Failed := by
  simp [failed, PathEntry.Failed, GoMap.get?_eq_some]

lemma mem_inactive {t : ℤ} :
    (k, t) ∈ p.inactive ↔ ∃ e, p.paths.get? k = some e ∧ e.Inactive ∧ e.state.closedAt = t := by
  simp only [inactive, mem_mergeSort, PathEntry.Inactive, GoMap.get?_eq_some]
  simp [and_assoc]

lemma mem_inactive_keys : k ∈ p.inactive.map Prod.fst ↔ ∃ e, p.paths.get? k = some e ∧ e.Inactive := by
  simp [mem_inactive]

lemma nodup_inactive (p : RemotePathState α κ) : (p.inactive.map Prod.fst).Nodup := by
  refine ((mergeSort_perm _ _).map Prod.fst).nodup_iff.mpr ?_
  rw [map_map]
  exact p.paths.nodup.sublist (filter_sublist.map _)

lemma inactive_sorted (p : RemotePathState α κ) : p.inactive.Pairwise fun x y => y.2 ≤ x.2 := by
  have htrans : ∀ a b c : κ × ℤ, decide (b.2 ≤ a.2) = true → decide (c.2 ≤ b.2) = true →
      decide (c.2 ≤ a.2) = true := by
    simp only [decide_eq_true_eq]
    exact fun a b c hab hbc => Int.le_trans hbc hab
  have htotal : ∀ a b : κ × ℤ, (decide (b.2 ≤ a.2) || decide (a.2 ≤ b.2)) = true := by
    simp only [Bool.or_eq_true, decide_eq_true_eq]
    exact fun a b => Int.le_total b.2 a.2
  exact (pairwise_mergeSort htrans htotal _).imp of_decide_eq_true

lemma nonRelay_le_len (p : RemotePathState α κ) : p.nonRelay ≤ p.paths.len := by
  refine Nat.le_trans (length_filter_le _ _) (Nat.le_of_eq ?_)
  exact length_map _

lemma get?_prune (h : maxNonRelayPaths ≤ p.nonRelay) :
    p.prune.paths.get? k = some e ↔ p.paths.get? k = some e ∧ k ∉ p.pruned := by
  have hlen := Nat.le_trans h p.nonRelay_le_len
  unfold nonRelay at h
  rw [prune, if_neg (Nat.not_lt.mpr hlen), if_neg (Nat.not_lt.mpr h), GoMap.get?_rangeDelete,
    Option.filter_eq_some_iff]
  simp

lemma prune_of_lt (h : p.nonRelay < maxNonRelayPaths) : p.prune = p := by
  rw [prune]
  split
  · rfl
  · exact if_pos h

lemma mem_pruned_of_inactive (hk : p.paths.get? k = some e) (he : e.Inactive) :
    k ∈ p.pruned ↔ k ∈ (p.inactive.map Prod.fst).drop maxInactiveNonRelayPaths := by
  have hnot : k ∉ p.failed := by
    rw [mem_failed]
    rintro ⟨e', hk', hfailed⟩
    cases hk.symm.trans hk'
    cases he.2.symm.trans hfailed.2
  rw [pruned, mem_append, map_drop]
  refine or_iff_right ?_
  split
  · exact fun hmem => hnot (mem_of_mem_take hmem)
  · exact hnot

lemma length_failed (p : RemotePathState α κ) :
    p.failed.length = p.paths.len ↔ ∀ k e, p.paths.get? k = some e → e.Failed := by
  rw [failed, length_map, GoMap.len, length_filter_eq_length_iff]
  simp [PathEntry.Failed, GoMap.get?_eq_some]

lemma pruned_prune (h : maxNonRelayPaths ≤ p.nonRelay) : Pruned p p.prune where
  old k e hk := ((get?_prune h).mp hk).1
  kept k e hk hinactive hfailed := by
    refine (get?_prune h).mpr ⟨hk, fun hmem => ?_⟩
    rcases mem_append.mp hmem with hmem | hmem
    · have hmem : k ∈ p.failed := by
        split at hmem
        · exact mem_of_mem_take hmem
        · exact hmem
      obtain ⟨e', hk', he'⟩ := mem_failed.mp hmem
      cases hk.symm.trans hk'
      exact hfailed he'
    · obtain ⟨e', hk', he'⟩ := mem_inactive_keys.mp (mem_of_mem_drop (map_drop ▸ hmem))
      cases hk.symm.trans hk'
      exact hinactive he'
  failed hsome k e hk hfailed := by
    obtain ⟨hk, hnot⟩ := (get?_prune h).mp hk
    refine hnot (mem_append_left _ ?_)
    rw [if_neg]
    · exact mem_failed.mpr ⟨e, hk, hfailed⟩
    · rw [length_failed]
      obtain ⟨k', e', hk', he'⟩ := hsome
      exact fun hall => he' (hall k' e' hk')
  allFailed hall := by
    have hlen := (length_failed p).mpr hall
    have hfailed : p.failed = p.paths.keys := by
      refine congrArg (map Prod.fst) (filter_eq_self.mpr fun x hx => ?_)
      have hx := hall x.1 x.2 (GoMap.get?_eq_some.mpr hx)
      simp [hx.1, hx.2]
    have hnone : p.inactive = [] := by
      refine eq_nil_iff_forall_not_mem.mpr fun x hx => ?_
      obtain ⟨e, hk, he, -⟩ := mem_inactive.mp hx
      cases he.2.symm.trans (hall x.1 e hk).2
    have hpruned : p.pruned = p.paths.keys.take (p.paths.len - maxNonRelayPaths) := by
      rw [pruned, if_pos hlen, hnone, hfailed]
      exact append_nil _
    have hperm : p.prune.paths.keys.Perm (p.paths.keys.drop (p.paths.len - maxNonRelayPaths)) := by
      refine (perm_ext_iff_of_nodup p.prune.paths.nodup (p.paths.nodup.sublist (drop_sublist _ _))).mpr
        fun k => ?_
      show k ∈ p.prune.paths.keys ↔ _
      rw [(mem_take_iff p.paths.nodup _ k).2, GoMap.mem_keys_iff]
      simp only [get?_prune h, hpruned, exists_and_right]
      rw [← GoMap.mem_keys_iff]
      rfl
    have hle := Nat.le_trans h p.nonRelay_le_len
    have hcount := hperm.length_eq
    rw [length_drop, GoMap.keys, GoMap.keys, length_map, length_map] at hcount
    rw [GoMap.len] at *
    omega
  count := by
    have hperm : (p.prune.inactive.map Prod.fst).Perm
        ((p.inactive.map Prod.fst).take maxInactiveNonRelayPaths) := by
      refine (perm_ext_iff_of_nodup p.prune.nodup_inactive
        (p.nodup_inactive.sublist (take_sublist _ _))).mpr fun k => ?_
      rw [(mem_take_iff p.nodup_inactive _ k).1, mem_inactive_keys, mem_inactive_keys]
      constructor
      · rintro ⟨e, hk, he⟩
        obtain ⟨hk, hnot⟩ := (get?_prune h).mp hk
        exact ⟨⟨e, hk, he⟩, (mem_pruned_of_inactive hk he).not.mp hnot⟩
      · rintro ⟨⟨e, hk, he⟩, hnot⟩
        exact ⟨e, (get?_prune h).mpr ⟨hk, (mem_pruned_of_inactive hk he).not.mpr hnot⟩, he⟩
    have hlen := hperm.length_eq
    rwa [length_take, length_map, length_map] at hlen
  latest k e k' e' hk he hk' he' hgone := by
    obtain ⟨hk, hnot⟩ := (get?_prune h).mp hk
    have hdropped : k' ∈ p.pruned := by
      by_contra hnot'
      cases hgone.symm.trans ((get?_prune h).mpr ⟨hk', hnot'⟩)
    rw [mem_pruned_of_inactive hk he, ← map_drop] at hnot
    rw [mem_pruned_of_inactive hk' he', ← map_drop] at hdropped
    obtain ⟨⟨k', t⟩, hdrop, rfl⟩ := mem_map.mp hdropped
    obtain ⟨e'', hk'', -, rfl⟩ := mem_inactive.mp (mem_of_mem_drop hdrop)
    cases hk'.symm.trans hk''
    have hmem : (k, e.state.closedAt) ∈ p.inactive := mem_inactive.mpr ⟨e, hk, he, rfl⟩
    rw [← take_append_drop maxInactiveNonRelayPaths p.inactive, mem_append] at hmem
    have htake := hmem.resolve_right fun hin => hnot (mem_map_of_mem hin)
    have hsorted := p.inactive_sorted
    rw [← take_append_drop maxInactiveNonRelayPaths p.inactive] at hsorted
    exact (pairwise_append.mp hsorted).2.2 _ htake _ hdrop

/-- **`Prune` keeps what must be kept.** -/
theorem prune_spec (p : RemotePathState α κ) :
    (p.nonRelay < maxNonRelayPaths → p.prune = p) ∧
    (maxNonRelayPaths ≤ p.nonRelay → Pruned p p.prune) ∧
    ∀ k e, ¬e.Failed → (p.prune.prune.paths.get? k = some e ↔ p.prune.paths.get? k = some e) := by
  refine ⟨prune_of_lt, pruned_prune, fun k e hfailed => ?_⟩
  rcases Nat.lt_or_ge p.nonRelay maxNonRelayPaths with hlt | hge
  · rw [prune_of_lt hlt, prune_of_lt hlt]
  · rcases Nat.lt_or_ge p.prune.nonRelay maxNonRelayPaths with hlt' | hge'
    · rw [prune_of_lt hlt']
    · refine ⟨(pruned_prune hge').old k e, fun hk => ?_⟩
      by_cases he : e.Inactive
      · -- so few inactive paths are left that none of them goes
        refine (get?_prune hge').mpr ⟨hk, ?_⟩
        have hfew : (p.prune.inactive.map Prod.fst).length ≤ maxInactiveNonRelayPaths := by
          rw [length_map, (pruned_prune hge).count]
          exact Nat.min_le_left _ _
        rw [mem_pruned_of_inactive hk he, drop_eq_nil_of_le hfew]
        exact not_mem_nil
      · exact (pruned_prune hge').kept k e hk he hfailed

end RemotePathState

end Iroh.Socket
