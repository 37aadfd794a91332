import Iroh.Qng.SentPacketHandler

/-!
# The packets an ACK takes out

Reference: `internal/qng/internal/ackhandler/sent_packet_handler.go`, `detectAndRemoveAckedPackets`.

The loop goes through the packets and the ranges of the frame at once, both from the lowest number on.
-/

namespace Iroh.Qng.AckHandler.SentPacketHandler

open List

lemma skipRanges_spec (pn : ℕ) {ranges : List AckRange} (hne : ranges ≠ []) :
    ∃ skipped r rest, ranges = skipped ++ r :: rest ∧ skipRanges pn ranges = r :: rest ∧
      (∀ r' ∈ skipped, r'.largest < pn) ∧ (pn ≤ r.largest ∨ rest = []) := by
  fun_induction skipRanges pn ranges with
  | case1 r r' ranges hlt ih =>
    obtain ⟨skipped, cur, rest, heq, hskip, hbelow, hcur⟩ := ih (cons_ne_nil _ _)
    refine ⟨r :: skipped, cur, rest, congrArg (r :: ·) heq, hskip, ?_, hcur⟩
    exact forall_mem_cons.mpr ⟨hlt, hbelow⟩
  | case2 r r' ranges hge =>
    refine ⟨[], r, r' :: ranges, rfl, rfl, ?_, .inl (Nat.le_of_not_lt hge)⟩
    exact fun r' hr' => absurd hr' not_mem_nil
  | case3 ranges hshort =>
    cases ranges with
    | nil => exact absurd rfl hne
    | cons r rest =>
      cases rest with
      | nil => exact ⟨[], r, [], rfl, rfl, fun r' hr' => absurd hr' not_mem_nil, .inr rfl⟩
      | cons r' rest => exact absurd rfl (hshort r r' rest)

lemma acks_iff_current {ack : AckFrame}
    (hranges : ack.ackRanges.reverse = done ++ r :: rest) (hdone : ∀ r' ∈ done, r'.largest < pn)
    (hle : pn ≤ r.largest) : ack.Acks pn ↔ r.smallest ≤ pn := by
  have hmem : ∀ r', r' ∈ ack.ackRanges ↔ r' ∈ done ++ r :: rest := by
    intro r'
    rw [← hranges, mem_reverse]
  constructor
  · rintro ⟨r', hr', hsmall, hlarge⟩
    rcases mem_append.mp ((hmem r').mp hr') with hr' | hr'
    · have hlt := hdone r' hr'
      omega
    · rcases mem_cons.mp hr' with rfl | hr'
      · exact hsmall
      · have hpair := ack.reverse_ranges_pairwise
        rw [hranges] at hpair
        have hlt := (pairwise_cons.mp (pairwise_append.mp hpair).2.1).1 r' hr'
        omega
  · intro hsmall
    exact ⟨r, (hmem r).mpr (mem_append_right _ mem_cons_self), hsmall, hle⟩

lemma single_range {ack : AckFrame} {done ranges : List AckRange}
    (hranges : ack.ackRanges.reverse = done ++ ranges) (hne : ranges ≠ [])
    (hone : ¬ 1 < ack.ackRanges.length) : done = [] ∧ ∃ r, ranges = [r] := by
  have hlen := congrArg length hranges
  have hpos := length_pos_iff.mpr hne
  rw [length_reverse, length_append] at hlen
  exact ⟨length_eq_zero_iff.mp (by omega), length_eq_one_iff.mp (by omega)⟩

lemma current_range {ack : AckFrame} {done ranges : List AckRange}
    (hranges : ack.ackRanges.reverse = done ++ ranges) (hne : ranges ≠ [])
    (hdone : ∀ r ∈ done, r.largest < pn) (hpn : pn ≤ ack.largestAcked) :
    ∃ done' r rest, ack.ackRanges.reverse = done' ++ r :: rest ∧
      (if 1 < ack.ackRanges.length then skipRanges pn ranges else ranges) = r :: rest ∧
      (∀ r' ∈ done', r'.largest < pn) ∧ pn ≤ r.largest := by
  obtain ⟨skipped, r, rest, heq, hrun, hskipped, hle⟩ := skipRanges_spec pn hne
  have hcur : (if 1 < ack.ackRanges.length then skipRanges pn ranges else ranges) = r :: rest := by
    split
    case isTrue => exact hrun
    case isFalse hone =>
      obtain ⟨-, r', rfl⟩ := single_range hranges hne hone
      exact hrun
  rw [heq, ← append_assoc] at hranges
  refine ⟨_, r, rest, hranges, hcur, forall_mem_append.mpr ⟨hdone, hskipped⟩, ?_⟩
  rcases hle with hle | rfl
  · exact hle
  · -- the last range ends with the largest number
    have hlast := ack.getLast_reverse_ranges (r := r) (by rw [hranges]; simp)
    omega

lemma lowestAcked_of_single {ack : AckFrame}
    (hranges : ack.ackRanges.reverse = done ++ r :: rest) (hone : ¬ 1 < ack.ackRanges.length) :
    ack.lowestAcked = r.smallest := by
  obtain ⟨rfl, r', hr'⟩ := single_range hranges (cons_ne_nil r rest) hone
  obtain ⟨rfl, rfl⟩ := cons.inj hr'
  rw [reverse_eq_iff] at hranges
  simp [AckFrame.lowestAcked, hranges]

def FewerProbes (history history' : SentPacketHistory) : Prop :=
  ∃ probes, history' = { history with pathProbePackets := probes } ∧
    ∀ e ∈ probes, e ∈ history.pathProbePackets

lemma FewerProbes.refl (history : SentPacketHistory) : FewerProbes history history :=
  ⟨history.pathProbePackets, rfl, fun _ he => he⟩

lemma FewerProbes.trans (h : FewerProbes h₁ h₂) (h' : FewerProbes h₂ h₃) : FewerProbes h₁ h₃ := by
  obtain ⟨probes, rfl, hprobes⟩ := h
  obtain ⟨probes', rfl, hprobes'⟩ := h'
  exact ⟨probes', rfl, fun e he => hprobes e (hprobes' e he)⟩

lemma FewerProbes.mem (h : FewerProbes history history')
    (he : e ∈ history'.pathProbePackets) : e ∈ history.pathProbePackets := by
  obtain ⟨probes, rfl, hprobes⟩ := h
  exact hprobes e he

/-- Packets of the list, or path probes for their placeholders, in order. -/
structure Acked (ack : AckFrame) (l : List (ℕ × Packet)) (history : SentPacketHistory)
    (acked : List (ℕ × Packet)) (history' : SentPacketHistory) : Prop where
  fewer : FewerProbes history history'
  sorted : acked.Pairwise fun e e' => e.1 < e'.1
  source : ∀ e ∈ acked, ∃ e' ∈ l, e'.1 = e.1 ∧
    (e' = e ∨ e'.2.isPathProbePacket = true ∧ e ∈ history.pathProbePackets)
  acked_iff : ∀ e ∈ l, e.2.isPathProbePacket = false → (e ∈ acked ↔ ack.Acks e.1)

section

variable {ack : AckFrame} {e : ℕ × Packet} {l acked : List (ℕ × Packet)}
  {history middle history' : SentPacketHistory} {E : HandlerError → Prop}

lemma fewerProbes_removePathProbe (history : SentPacketHistory) (pn : ℕ) :
    FewerProbes history (history.removePathProbe pn).1 :=
  ⟨_, rfl, fun _ he => mem_of_mem_eraseP he⟩

lemma mem_of_removePathProbe (h : (history.removePathProbe pn).2 = some p) :
    (pn, p) ∈ history.pathProbePackets := by
  have hfound : (history.pathProbePackets.find? (·.1 = pn)).map Prod.snd = some p := h
  obtain ⟨q, hq, rfl⟩ := Option.map_eq_some_iff.mp hfound
  have hnum : q.1 = pn := by simpa using find?_some hq
  rw [← hnum]
  exact mem_of_find?_eq_some hq

lemma Acked.stop (h : ∀ e ∈ l, ack.largestAcked < e.1) : Acked ack l history [] history where
  fewer := .refl history
  sorted := .nil
  source := fun e he => absurd he List.not_mem_nil
  acked_iff := by
    intro e he _
    refine iff_of_false not_mem_nil fun hacks => ?_
    have hbounds := ack.acks_bounds hacks
    have hlt := h e he
    omega

lemma Acked.cons (h : Acked ack l middle acked history') (hmiddle : FewerProbes history middle)
    (hlt : ∀ e' ∈ l, e.1 < e'.1) (taken : List (ℕ × Packet))
    (hsorted : taken.Pairwise fun e e' => e.1 < e'.1) (htaken : ∀ a ∈ taken, e.1 = a.1 ∧
      (e = a ∨ e.2.isPathProbePacket = true ∧ a ∈ history.pathProbePackets))
    (hacks : e.2.isPathProbePacket = false → (e ∈ taken ↔ ack.Acks e.1)) :
    Acked ack (e :: l) history (taken ++ acked) history' := by
  have hlater : ∀ a ∈ acked, e.1 < a.1 := by
    intro a ha
    obtain ⟨e', he', heq, -⟩ := h.source a ha
    exact heq ▸ hlt e' he'
  refine ⟨hmiddle.trans h.fewer, ?_, ?_, ?_⟩
  · refine pairwise_append.mpr ⟨hsorted, h.sorted, fun a ha a' ha' => ?_⟩
    exact (htaken a ha).1 ▸ hlater a' ha'
  · refine forall_mem_append.mpr ⟨fun a ha => ?_, fun a ha => ?_⟩
    · exact ⟨e, mem_cons_self, htaken a ha⟩
    · obtain ⟨e', he', heq, hrest⟩ := h.source a ha
      exact ⟨e', mem_cons_of_mem _ he', heq, hrest.imp id (And.imp id hmiddle.mem)⟩
  · refine forall_mem_cons.mpr ⟨fun hprobe => ?_, fun e' he' hprobe => ?_⟩
    · rw [mem_append, hacks hprobe]
      exact or_iff_left fun hmem => Nat.lt_irrefl _ (hlater e hmem)
    · rw [mem_append, h.acked_iff e' he' hprobe]
      exact or_iff_right fun hmem => Nat.ne_of_lt (hlt e' he') (htaken e' hmem).1

lemma Acked.skip (h : Acked ack l middle acked history') (hmiddle : FewerProbes history middle)
    (hlt : ∀ e' ∈ l, e.1 < e'.1) (hnot : e.2.isPathProbePacket = false → ¬ ack.Acks e.1) :
    Acked ack (e :: l) history acked history' :=
  h.cons hmiddle hlt [] .nil (fun _ ha => absurd ha not_mem_nil)
    fun hprobe => iff_of_false not_mem_nil (hnot hprobe)

/-- **The loop takes exactly the acknowledged packets.**  `done` are the ranges left behind. -/
theorem ackedLoop_spec (history : SentPacketHistory) {done ranges : List AckRange}
    (hranges : ack.ackRanges.reverse = done ++ ranges) (hne : ranges ≠ [])
    (hdone : ∀ r ∈ done, ∀ e ∈ l, r.largest < e.1) (hsorted : l.Pairwise fun e e' => e.1 < e'.1) :
    Ends E (fun r => Acked ack l history r.1 r.2) (ackedLoop ack ranges l history) := by
  induction l generalizing done ranges history with
  | nil => exact .stop fun e he => absurd he not_mem_nil
  | cons e l ih =>
    obtain ⟨hlt, hsorted⟩ := pairwise_cons.mp hsorted
    unfold ackedLoop
    by_cases hlow : e.1 < ack.lowestAcked
    · rw [if_pos hlow]
      refine (ih history hranges hne (fun r hr e' he' => hdone r hr e' (mem_cons_of_mem _ he'))
        hsorted).mono fun r hacked => hacked.skip (.refl history) hlt fun _ hacks => ?_
      have hbounds := ack.acks_bounds hacks
      omega
    rw [if_neg hlow]
    by_cases hhigh : ack.largestAcked < e.1
    · rw [if_pos hhigh]
      exact .stop (forall_mem_cons.mpr ⟨hhigh, fun e' he' => hhigh.trans (hlt e' he')⟩)
    rw [if_neg hhigh]
    obtain ⟨done', r, rest, hranges, hcur, hdone', hle⟩ := current_range hranges hne
      (fun r hr => hdone r hr e mem_cons_self) (Nat.le_of_not_lt hhigh)
    have hcurrent := acks_iff_current hranges hdone' hle
    have hrec := fun history => ih history hranges (cons_ne_nil r rest)
      (fun r' hr' e' he' => (hdone' r' hr').trans (hlt e' he')) hsorted
    rw [hcur]
    dsimp only
    split
    next hbelow =>
      simp only [head?_cons, Option.any_some, Bool.and_eq_true, decide_eq_true_eq] at hbelow
      exact (hrec history).mono fun r hacked => hacked.skip (.refl history) hlt fun _ hacks =>
        Nat.not_lt_of_le (hcurrent.mp hacks) hbelow.2
    next hbelow =>
      have hacks : ack.Acks e.1 := by
        refine hcurrent.mpr ?_
        simp only [head?_cons, Option.any_some, Bool.and_eq_true, decide_eq_true_eq] at hbelow
        by_cases hmany : 1 < ack.ackRanges.length
        · exact Nat.le_of_not_lt fun hlt' => hbelow ⟨hmany, hlt'⟩
        · have hlowest := lowestAcked_of_single hranges hmany
          omega
      rw [if_neg (by simp [hle])]
      split
      next hprobe =>
        have hnot : e.2.isPathProbePacket ≠ false := by rw [hprobe]; exact Bool.noConfusion
        have hmiddle := fewerProbes_removePathProbe history e.1
        have hacked := hrec (history.removePathProbe e.1).1
        cases hfind : history.removePathProbe e.1 with
        | mk middle found =>
          rw [hfind] at hmiddle hacked
          cases found with
          | none => exact hacked.mono fun r hacked => hacked.skip hmiddle hlt fun h => absurd h hnot
          | some p =>
            have hmem := mem_of_removePathProbe (congrArg Prod.snd hfind)
            refine hacked.bind fun r hacked => hacked.cons hmiddle hlt [(e.1, p)]
              (pairwise_singleton _ _) (forall_mem_singleton.mpr ⟨rfl, .inr ⟨hprobe, hmem⟩⟩)
              fun h => absurd h hnot
      · exact (hrec history).bind fun r hacked => hacked.cons (.refl history) hlt [e]
          (pairwise_singleton _ _) (forall_mem_singleton.mpr ⟨rfl, .inl rfl⟩)
          fun _ => iff_of_true mem_cons_self hacks

lemma removeAll_spec (w : ℕ × Packet → ℕ) (hok : history.Ok)
    (hsorted : acked.Pairwise fun e e' => e.1 < e'.1)
    (hsource : ∀ e ∈ acked, ∃ e' ∈ history.entries, e'.1 = e.1 ∧ w e' = w e) :
    Ends E (fun history' => history.Without (acked.map Prod.fst) history' ∧
      totalBy w history'.entries + totalBy w acked = totalBy w history.entries)
      (removeAll history acked) := by
  induction acked generalizing history with
  | nil =>
    exact ⟨⟨hok, (filter_eq_self.mpr fun e _ => by simp).symm, rfl, fun _ => id⟩, rfl⟩
  | cons e acked ih =>
    obtain ⟨hlt, hsorted⟩ := pairwise_cons.mp hsorted
    obtain ⟨e', he', hnum, hweight⟩ := hsource e mem_cons_self
    unfold removeAll
    rw [← hnum]
    refine (hok.remove he').bind fun middle hwithout => ?_
    have hmem : ∀ a, a ∈ middle.entries ↔ a ∈ history.entries ∧ a.1 ≠ e'.1 := by
      simp [hwithout.entries]
    refine (ih hwithout.ok hsorted fun a ha => ?_).mono ?_
    · obtain ⟨a', ha', hnum', hweight'⟩ := hsource a (mem_cons_of_mem _ ha)
      have hlt' := hlt a ha
      exact ⟨a', (hmem a').mpr ⟨ha', by omega⟩, hnum', hweight'⟩
    · rintro history' ⟨hrest, htotal⟩
      have htake := totalBy_filter_ne w history.entries_pairwise he'
      refine ⟨⟨hrest.ok, ?_, hrest.highest.trans hwithout.highest,
        fun e he => hwithout.probes e (hrest.probes e he)⟩, ?_⟩
      · rw [hrest.entries, hwithout.entries, filter_filter]
        refine filter_congr fun a _ => ?_
        rw [map_cons, ← hnum, Bool.eq_iff_iff]
        simp [and_comm]
      · simp only [hwithout.entries, mem_singleton] at htotal
        rw [totalBy, ← htake, ← Nat.add_right_cancel_iff.mpr htotal]
        omega

end

end Iroh.Qng.AckHandler.SentPacketHandler
