import Mathlib.Data.List.Infix

/-!
# Admissions

Reference: `iroh/admit.go`.

A new admission goes to the end of the list.  If the list is full, `add` takes out the first and notes its
abandonment under the same lock; the `abandon` of that admission runs after the lock is released, which is
a step of its own.  A finisher may be called any number of times.

An admission is its place in the order of the `add` calls.  `owed` and `ran` are the calls of `abandon` that
are still to come and those that were made.  Contexts are left out.
-/

namespace Iroh.Endpoint

structure Admission where
  elem : Bool
  abandoned : Bool
deriving DecidableEq

structure Admissions where
  max : ℕ
  list : List ℕ
  all : List Admission
  owed : List ℕ
  ran : List ℕ
deriving DecidableEq

inductive AdmitStep where
  | add
  /-- The call that took out this admission runs its `abandon`. -/
  | abandon (i : ℕ)
  | finish (i : ℕ)

namespace Admissions

open List

def new (max : ℕ) : Admissions := ⟨max, [], [], [], []⟩

/-- Whether the `elem` of an admission is not nil. -/
def listed (s : Admissions) (i : ℕ) : Bool := s.all[i]?.any (·.elem)

/-- Whether a finisher that takes the lock reports `errAdmissionAbandoned`. -/
def reports (s : Admissions) (i : ℕ) : Bool := s.all[i]?.any (·.abandoned)

def makeRoom (s : Admissions) : Admissions :=
  match s.list with
  | [] => s
  | oldest :: rest =>
    if s.max ≤ s.list.length then
      { s with list := rest, all := s.all.modify oldest fun _ => ⟨false, true⟩, owed := oldest :: s.owed }
    else s

def push (s : Admissions) : Admissions :=
  { s with list := s.list ++ [s.all.length], all := s.all ++ [⟨true, false⟩] }

def add (s : Admissions) : Admissions := s.makeRoom.push

def finish (s : Admissions) (i : ℕ) : Admissions :=
  if s.listed i then
    { s with list := s.list.erase i, all := s.all.modify i fun ad => { ad with elem := false } }
  else s

def step (s : Admissions) : AdmitStep → Admissions
  | .add => s.add
  | .abandon i => if i ∈ s.owed then { s with owed := s.owed.erase i, ran := i :: s.ran } else s
  | .finish i => s.finish i

def Oldest (s : Admissions) (i : ℕ) : Prop := i ∈ s.list ∧ ∀ j ∈ s.list, i ≤ j

/-- An `add` of the run found the list full, and this admission the oldest on it. -/
def AbandonedBy (m : ℕ) (steps : List AdmitStep) (i : ℕ) : Prop :=
  ∃ pre, pre ++ [.add] <+: steps ∧ (pre.foldl step (new m)).list.length = m ∧
    (pre.foldl step (new m)).Oldest i

/-- The list holds what is listed, in order. -/
structure Ok (m : ℕ) (s : Admissions) : Prop where
  max : s.max = m
  sorted : s.list.Pairwise (· < ·)
  mem : ∀ i, i ∈ s.list ↔ s.listed i = true
  short : s.list.length ≤ m
  apart : ∀ i ∈ s.list, s.reports i = false
  counted : ∀ i, (s.owed ++ s.ran).count i = (s.reports i).toNat

/-! ## One step -/

variable {m i : ℕ} {s : Admissions} {steps : List AdmitStep}

lemma Ok.nodup (h : Ok m s) : s.list.Nodup := h.sorted.imp Nat.ne_of_lt

lemma any_modify (p : Admission → Bool) (f : Admission → Admission) (l : List Admission) (o i : ℕ) :
    (l.modify o f)[i]?.any p = if o = i then l[i]?.any (p ∘ f) else l[i]?.any p := by
  rw [getElem?_modify]
  cases l[i]? <;> split <;> simp_all

lemma lt_of_listed (h : s.listed i = true) : i < s.all.length := by
  by_contra hle
  simp [listed, getElem?_eq_none (Nat.not_lt.mp hle)] at h

lemma ok_new (m : ℕ) : Ok m (new m) :=
  ⟨rfl, .nil, by simp [new, listed], Nat.zero_le m, nofun, by simp [new, reports]⟩

lemma makeRoom_spec (hm : 0 < m) (h : Ok m s) : Ok m s.makeRoom ∧ s.makeRoom.list.length < m ∧
      ∀ i, s.makeRoom.reports i = true ↔ s.reports i = true ∨ s.list.length = m ∧ s.Oldest i := by
  obtain ⟨hmax, hsorted, hmem, hshort, hapart, hcounted⟩ := id h
  unfold makeRoom
  split
  next hnil =>
    refine ⟨h, by rwa [hnil], fun i => (or_iff_left ?_).symm⟩
    rw [hnil, length_nil]
    exact fun hfull => hm.ne hfull.1
  next o rest hlist =>
    rw [hlist] at hsorted hshort hapart
    rw [length_cons] at hshort
    obtain ⟨hfirst, hrest⟩ := pairwise_cons.mp hsorted
    rw [hmax, hlist, length_cons]
    split
    next hfull =>
      have ho : s.listed o = true := (hmem o).mp (by rw [hlist]; exact mem_cons_self)
      have hreports : ∀ i, (s.all.modify o fun _ => ⟨false, true⟩)[i]?.any (·.abandoned) =
          if o = i then true else s.reports i := by
        intro i
        rw [any_modify]
        refine if_ctx_congr Iff.rfl (fun heq => ?_) fun _ => rfl
        subst heq
        rw [getElem?_eq_getElem (lt_of_listed ho)]
        rfl
      have holdest : ∀ i, s.Oldest i ↔ o = i := by
        intro i
        rw [Oldest, hlist]
        constructor
        · rintro ⟨hi, hle⟩
          rcases mem_cons.mp hi with rfl | hi
          · rfl
          · exact absurd (hle o mem_cons_self) (Nat.not_le.mpr (hfirst i hi))
        · rintro rfl
          exact ⟨mem_cons_self, fun j hj => (mem_cons.mp hj).elim Eq.ge fun hj => (hfirst j hj).le⟩
      refine ⟨⟨rfl, hrest, fun i => ?_, (Nat.le_succ _).trans hshort, fun i hi => ?_, fun i => ?_⟩, hshort,
        fun i => ?_⟩
      · rw [listed, any_modify, Function.comp_def]
        by_cases heq : o = i
        · subst heq
          simpa using fun ho' => Nat.lt_irrefl _ (hfirst o ho')
        · rw [if_neg heq]
          have hi := hmem i
          rwa [hlist, mem_cons, or_iff_right (Ne.symm heq)] at hi
      · rw [reports, hreports, if_neg (hfirst i hi).ne]
        exact hapart i (mem_cons_of_mem o hi)
      · rw [reports, hreports, cons_append, count_cons, hcounted]
        by_cases heq : o = i
        · subst heq
          simp [hapart o mem_cons_self]
        · simp [heq]
      · rw [reports, hreports, holdest, and_iff_right (Nat.le_antisymm hshort hfull)]
        by_cases heq : o = i <;> simp [heq]
    next hroom =>
      refine ⟨h, by rw [hlist, length_cons]; omega, fun i => (or_iff_left ?_).symm⟩
      exact fun hfull => hroom hfull.1.ge

lemma reports_push (s : Admissions) (i : ℕ) : s.push.reports i = s.reports i := by
  rw [reports, reports, push, getElem?_append]
  split
  · rfl
  next hle =>
    rw [getElem?_eq_none (Nat.not_lt.mp hle)]
    cases i - s.all.length <;> rfl

lemma ok_push (h : Ok m s) (hroom : s.list.length < m) : Ok m s.push := by
  have hlt : ∀ i ∈ s.list, i < s.all.length := fun i hi => lt_of_listed ((h.mem i).mp hi)
  refine ⟨h.max, ?_, fun i => ?_, ?_, fun i hi => ?_, fun i => ?_⟩
  · exact pairwise_append.mpr ⟨h.sorted, pairwise_singleton _ _, fun i hi j hj =>
      mem_singleton.mp hj ▸ hlt i hi⟩
  · simp only [push, mem_append, mem_singleton, h.mem, listed, getElem?_append]
    rcases Nat.lt_trichotomy i s.all.length with hi | rfl | hi
    · simp [hi, hi.ne]
    · simp
    · simp [hi.ne', Nat.not_lt.mpr hi.le, Nat.sub_ne_zero_of_lt hi]
  · rw [push, length_append]
    exact hroom
  · rw [reports_push]
    rcases mem_append.mp hi with hi | hi
    · exact h.apart i hi
    · simp [reports, mem_singleton.mp hi]
  · rw [reports_push]
    exact h.counted i

lemma reports_finish (s : Admissions) (i j : ℕ) : (s.finish i).reports j = s.reports j := by
  unfold finish
  split
  · rw [reports, any_modify]
    exact ite_self _
  · rfl

lemma ok_finish (h : Ok m s) (i : ℕ) : Ok m (s.finish i) := by
  have hreports := s.reports_finish i
  unfold finish at hreports ⊢
  split
  next hi =>
    rw [if_pos hi] at hreports
    have hsub : s.list.erase i <+ s.list := erase_sublist
    refine ⟨h.max, h.sorted.sublist hsub, fun j => ?_, hsub.length_le.trans h.short,
      fun j hj => (hreports j).trans (h.apart j (hsub.mem hj)), fun j => ?_⟩
    · rw [h.nodup.mem_erase_iff, listed, any_modify, Function.comp_def, h.mem, listed]
      by_cases heq : i = j
      · simp [heq]
      · simp [heq, Ne.symm heq]
    · rw [hreports]
      exact h.counted j
  · exact h

lemma ok_step (hm : 0 < m) (h : Ok m s) (a : AdmitStep) : Ok m (s.step a) := by
  cases a with
  | add => exact ok_push (makeRoom_spec hm h).1 (makeRoom_spec hm h).2.1
  | finish i => exact ok_finish h i
  | abandon i =>
    rw [step]
    split
    next hi =>
      refine ⟨h.max, h.sorted, h.mem, h.short, h.apart, fun j => ?_⟩
      have hperm : (s.owed.erase i ++ i :: s.ran).Perm (s.owed ++ s.ran) :=
        perm_middle.trans ((perm_cons_erase hi).symm.append_right s.ran)
      exact (hperm.count_eq j).trans (h.counted j)
    · exact h

lemma reports_step (hm : 0 < m) (h : Ok m s) (a : AdmitStep) (i : ℕ) : (s.step a).reports i = true ↔
      s.reports i = true ∨ a = .add ∧ s.list.length = m ∧ s.Oldest i := by
  cases a with
  | add =>
    rw [step, add, reports_push, (makeRoom_spec hm h).2.2]
    simp
  | finish j => simp [step, reports_finish]
  | abandon j =>
    rw [step]
    split <;> simp [reports]

/-! ## Whole runs -/

lemma ok_run (hm : 0 < m) (steps : List AdmitStep) : Ok m (steps.foldl step (new m)) :=
  foldlRecOn (motive := Ok m) steps step (ok_new m) fun _ h a _ => ok_step hm h a

lemma reports_iff_abandonedBy (hm : 0 < m) (steps : List AdmitStep) (i : ℕ) :
    (steps.foldl step (new m)).reports i = true ↔ AbandonedBy m steps i := by
  induction steps using reverseRecOn with
  | nil => simp [AbandonedBy, new, reports]
  | append_singleton steps a ih =>
    rw [foldl_append, foldl_cons, foldl_nil, reports_step hm (ok_run hm steps), ih]
    constructor
    · rintro (⟨pre, hpre, habandons⟩ | ⟨rfl, habandons⟩)
      · exact ⟨pre, hpre.trans (prefix_append _ _), habandons⟩
      · exact ⟨steps, prefix_rfl, habandons⟩
    · rintro ⟨pre, hpre, habandons⟩
      rcases prefix_concat_iff.mp hpre with heq | hpre
      · obtain ⟨rfl, hadd⟩ := append_inj' heq rfl
        cases hadd
        exact .inr ⟨rfl, habandons⟩
      · exact .inl ⟨pre, hpre, habandons⟩

lemma gone_finish (h : Ok m s) (i : ℕ) :
    (s.finish i).all.length = s.all.length ∧ i ∉ (s.finish i).list := by
  unfold finish
  split
  · exact ⟨length_modify _ _ _, h.nodup.not_mem_erase⟩
  next hi => exact ⟨rfl, fun hmem => hi ((h.mem i).mp hmem)⟩

lemma gone_run (hi : i < s.all.length) (hgone : i ∉ s.list) (steps : List AdmitStep) :
    i ∉ (steps.foldl step s).list := by
  induction steps generalizing s with
  | nil => exact hgone
  | cons a steps ih =>
    refine ih (s := s.step a) ?_ ?_ <;> cases a <;> grind [step, add, push, makeRoom, finish]

/-- **Admission abandons the oldest, and only the oldest.** -/
theorem abandons_oldest (m : ℕ) (hm : 1 ≤ m) (steps : List AdmitStep) :
    let s := steps.foldl step (new m)
    s.list.length ≤ m ∧
      (∀ i, s.reports i = true ↔ AbandonedBy m steps i) ∧
      (∀ i, AbandonedBy m steps i → (s.owed ++ s.ran).count i = 1) ∧
      (∀ i ∈ s.owed ++ s.ran, AbandonedBy m steps i) ∧
      ∀ pre i, pre ++ [.finish i] <+: steps → i < (pre.foldl step (new m)).all.length →
        AbandonedBy m steps i → AbandonedBy m pre i := by
  have hok := ok_run hm steps
  have hiff := reports_iff_abandonedBy hm steps
  refine ⟨hok.short, hiff, fun i hi => ?_, fun i hi => ?_, ?_⟩
  · rw [hok.counted, (hiff i).mpr hi]
    rfl
  · rw [← hiff]
    by_contra hnot
    have hzero := hok.counted i
    rw [(Bool.not_eq_true _).mp hnot] at hzero
    exact count_eq_zero.mp hzero hi
  · rintro pre i hpre hlt ⟨pre', hpre', hfull, holdest⟩
    rcases prefix_or_prefix_of_prefix hpre' hpre with hle | hle
    · rcases prefix_concat_iff.mp hle with heq | hle
      · cases (append_inj' heq rfl).2
      · exact ⟨pre', hle, hfull, holdest⟩
    · -- the finisher ran before, so that the admission is not listed any more
      rcases prefix_concat_iff.mp hle with heq | ⟨post, rfl⟩
      · cases (append_inj' heq rfl).2
      · refine absurd holdest.1 ?_
        rw [foldl_append, foldl_append, foldl_cons, foldl_nil]
        obtain ⟨hlen, hgone⟩ := gone_finish (ok_run hm pre) i
        exact gone_run (hlen.symm ▸ hlt) hgone post

/-- Two admissions are added to a list of one. -/
theorem abandons_oldest_of_two :
    AbandonedBy 1 [.add, .add] 0 ∧ ([.add, .add].foldl step (new 1)).reports 0 = true := by
  have h : AbandonedBy 1 [.add, .add] 0 :=
    ⟨[.add], prefix_rfl, by decide, by decide, by decide⟩
  exact ⟨h, ((abandons_oldest 1 le_rfl [.add, .add]).2.1 0).mpr h⟩

end Admissions

end Iroh.Endpoint
