import Mathlib.Data.List.Forall2
import Mathlib.Data.List.Infix

/-!
# Runs of a machine

A machine takes one input at a time; a run is a fold of its step function, and the states of a run are
those after the prefixes of its inputs.  `eachState_iff_eachStep` is the rule for a property that some
inputs break: if a good state stays good under exactly the inputs that are `ok` in it, a run stays good
exactly when each of its inputs was.

A program of several threads is a transition relation instead (`Trace`).  Its runs carry the states they
passed, so that a property may speak of what happened before.

A machine with timers runs against a caller that holds the timers it was asked to schedule
(`TimedMachine`).  An input that reports a timer uses up one of them.
-/

namespace Iroh

open List

universe u v w x

/-! ## States of a run -/

section Runs

variable {σ : Type u} {ε : Type v} {step : σ → ε → σ}

/-- Each input of a run satisfies `p` in the state that it meets. -/
def EachStep (step : σ → ε → σ) (p : σ → ε → Prop) (s : σ) (es : List ε) : Prop :=
  ∀ pre e, pre ++ [e] <+: es → p (pre.foldl step s) e

lemma eachStep_nil (p : σ → ε → Prop) (s : σ) : EachStep step p s [] := by
  intro pre e h
  simp at h

variable {s : σ} {es : List ε} {p : σ → Prop} {ok : σ → ε → Prop}

lemma eachStep_cons {p : σ → ε → Prop} {e : ε} :
    EachStep step p s (e :: es) ↔ p s e ∧ EachStep step p (step s e) es := by
  constructor
  · intro h
    refine ⟨h [] e (by simp), fun pre e' hpre => h (e :: pre) e' ?_⟩
    exact cons_prefix_cons.mpr ⟨rfl, hpre⟩
  · rintro ⟨hhead, htail⟩ pre e' hpre
    cases pre with
    | nil =>
      obtain rfl : e' = e := (cons_prefix_cons.mp hpre).1
      exact hhead
    | cons a pre =>
      obtain ⟨rfl, hrest⟩ := cons_prefix_cons.mp hpre
      exact htail pre e' hrest

/-- Every state of a run satisfies `p`. -/
def EachState (step : σ → ε → σ) (p : σ → Prop) (s : σ) (es : List ε) : Prop :=
  ∀ pre, pre <+: es → p (pre.foldl step s)

lemma eachState_nil : EachState step p s [] ↔ p s := by
  constructor
  · exact fun h => h [] prefix_rfl
  · intro h pre hpre
    rw [prefix_nil.mp hpre]
    exact h

lemma eachState_cons {e : ε} : EachState step p s (e :: es) ↔ p s ∧ EachState step p (step s e) es := by
  constructor
  · intro h
    refine ⟨h [] nil_prefix, fun pre hpre => h (e :: pre) ?_⟩
    exact cons_prefix_cons.mpr ⟨rfl, hpre⟩
  · rintro ⟨hhead, htail⟩ pre hpre
    cases pre with
    | nil => exact hhead
    | cons a pre =>
      obtain ⟨rfl, hrest⟩ := cons_prefix_cons.mp hpre
      exact htail pre hrest

instance decidableEachStep {p : σ → ε → Prop} [∀ s e, Decidable (p s e)] :
    (s : σ) → (es : List ε) → Decidable (EachStep step p s es)
  | s, [] => isTrue (eachStep_nil p s)
  | s, e :: es =>
    have := decidableEachStep (p := p) (step s e) es
    decidable_of_iff' _ eachStep_cons

instance decidableEachState [DecidablePred p] : (s : σ) → (es : List ε) → Decidable (EachState step p s es)
  | _, [] => decidable_of_iff' _ eachState_nil
  | s, e :: es =>
    have := decidableEachState (step s e) es
    decidable_of_iff' _ eachState_cons

lemma EachState.head (h : EachState step p s es) : p s := h [] nil_prefix

lemma eachState_of_eachStep {inv : σ → Prop} (hinv : ∀ s e, ok s e → inv s → inv (step s e))
    (hs : inv s) (hok : EachStep step ok s es) : EachState step inv s es := by
  induction es generalizing s with
  | nil => exact eachState_nil.mpr hs
  | cons e es ih =>
    obtain ⟨hhead, htail⟩ := eachStep_cons.mp hok
    exact eachState_cons.mpr ⟨hs, ih (hinv s e hhead hs) htail⟩

variable (inv : σ → Prop)

lemma eachState_of_inv (hinv : ∀ s e, inv s → inv (step s e)) (hs : inv s) (es : List ε) :
    EachState step inv s es := by
  induction es generalizing s with
  | nil => exact eachState_nil.mpr hs
  | cons e es ih => exact eachState_cons.mpr ⟨hs, ih (hinv s e hs)⟩

/-- **A run stays good exactly when each of its inputs is ok**, if that is so of single steps. -/
theorem eachState_iff_eachStep (legal : σ → ε → Prop) (inv : σ → Prop) {good : σ → Prop}
    (hinv : ∀ s e, legal s e → inv s → inv (step s e))
    (hgood : ∀ s e, legal s e → inv s → good s → (good (step s e) ↔ ok s e)) (hs : inv s) (hg : good s)
    (es : List ε) (hlegal : EachStep step legal s es) :
    EachState step good s es ↔ EachStep step ok s es := by
  induction es generalizing s with
  | nil => exact iff_of_true (eachState_nil.mpr hg) (eachStep_nil ok s)
  | cons e es ih =>
    obtain ⟨hhead, htail⟩ := eachStep_cons.mp hlegal
    have hstep := hgood s e hhead hs hg
    rw [eachState_cons, eachStep_cons, and_iff_right hg]
    constructor
    · intro h
      exact ⟨hstep.mp h.head, (ih (hinv s e hhead hs) h.head htail).mp h⟩
    · rintro ⟨hok, h⟩
      exact (ih (hinv s e hhead hs) (hstep.mpr hok) htail).mpr h

lemma eachState_iff_of_inv {good : σ → Prop} (hinv : ∀ s e, inv s → inv (step s e))
    (hgood : ∀ s e, inv s → good s → (good (step s e) ↔ ok s e)) (hs : inv s) (hg : good s)
    (es : List ε) : EachState step good s es ↔ EachStep step ok s es :=
  eachState_iff_eachStep (fun _ _ => True) inv (fun s e _ => hinv s e) (fun s e _ => hgood s e) hs hg es
    fun _ _ _ => trivial

lemma eachState_iff_of_good {good : σ → Prop} (hgood : ∀ s e, good s → (good (step s e) ↔ ok s e))
    (hg : good s) (es : List ε) : EachState step good s es ↔ EachStep step ok s es :=
  eachState_iff_of_inv (fun _ => True) (fun _ _ => id) (fun s e _ => hgood s e) trivial hg es

lemma foldl_iff_eachStep {good : σ → Prop} (hinv : ∀ s e, inv s → inv (step s e))
    (hgood : ∀ s e, inv s → (good (step s e) ↔ good s ∧ ok s e)) (hs : inv s) (es : List ε) :
    good (es.foldl step s) ↔ good s ∧ EachStep step ok s es := by
  induction es generalizing s with
  | nil => exact (and_iff_left (eachStep_nil ok s)).symm
  | cons e es ih =>
    rw [foldl_cons, ih (hinv s e hs), hgood s e hs, eachStep_cons, and_assoc]

lemma eachStep_congr {p q : σ → ε → Prop} (hinv : ∀ s e, inv s → inv (step s e))
    (hpq : ∀ s e, inv s → (p s e ↔ q s e)) (hs : inv s) (es : List ε) :
    EachStep step p s es ↔ EachStep step q s es := by
  induction es generalizing s with
  | nil => exact iff_of_true (eachStep_nil p s) (eachStep_nil q s)
  | cons e es ih => rw [eachStep_cons, eachStep_cons, hpq s e hs, ih (hinv s e hs)]

/-! ### What some inputs bring about -/

end Runs

/-! ## Runs of a transition relation -/

/-- A run of `step` from a state that `init` allows: the states it passed, the latest first, and the
state it has reached. -/
inductive Trace {σ : Type u} (init : σ → Prop) (step : σ → σ → Prop) : List σ → σ → Prop where
  | start {s : σ} : init s → Trace init step [] s
  | next {past : List σ} {s s' : σ} :
      Trace init step past s → step s s' → Trace init step (s :: past) s'

/-- **What holds at the start and is kept by every step, whatever came before, holds at the end.** -/
theorem Trace.invariant {σ : Type u} {init : σ → Prop} {step : σ → σ → Prop}
    {past : List σ} {s : σ} (h : Trace init step past s) (inv : List σ → σ → Prop)
    (hinit : ∀ s, init s → inv [] s)
    (hstep : ∀ past s s', inv past s → step s s' → inv (s :: past) s') : inv past s := by
  induction h with
  | start hs => exact hinit _ hs
  | next _ hs ih => exact hstep _ _ _ ih hs

/-- From here on, every run comes to a state where `p` holds of it and its past, as long as it goes on
while it can. -/
inductive Inevitable {σ : Type u} (step : σ → σ → Prop) (p : List σ → σ → Prop) :
    List σ → σ → Prop where
  | now {past : List σ} {s : σ} : p past s → Inevitable step p past s
  | later {past : List σ} {s : σ} : (∃ s', step s s') →
      (∀ s', step s s' → Inevitable step p (s :: past) s') → Inevitable step p past s

/-- **What holds wherever a run can stop is inevitable, if no run goes on forever.** -/
theorem inevitable_of_wellFounded {σ : Type u} {step : σ → σ → Prop} {p : List σ → σ → Prop}
    (inv : List σ → σ → Prop) (hinv : ∀ past s s', inv past s → step s s' → inv (s :: past) s')
    (hwf : WellFounded fun s' s => step s s')
    (hstuck : ∀ past s, inv past s → (∃ s', step s s') ∨ p past s) {past : List σ} {s : σ}
    (h : inv past s) : Inevitable step p past s := by
  induction s using hwf.induction generalizing past with
  | _ s ih =>
    rcases hstuck past s h with hstep | hp
    · exact .later hstep fun s' hs => ih s' hs (hinv past s s' h hs)
    · exact .now hp

/-! ## Machines with timers -/

/-- A machine that asks its caller to schedule timers. -/
structure TimedMachine (σ : Type u) (ε : Type v) (τ : Type w) where
  step : σ → ε → σ
  /-- The timers a step schedules. -/
  scheduled : σ → ε → List τ
  /-- The timer whose expiry an input reports. -/
  fired : ε → Option τ

namespace TimedMachine

variable {σ : Type u} {ε : Type v} {τ : Type w} [DecidableEq τ]

/-- The timers left when an input has used up the one it reports. -/
def remaining (m : TimedMachine σ ε τ) (timers : List τ) (e : ε) : List τ :=
  match m.fired e with
  | some t => timers.erase t
  | none => timers

def next (m : TimedMachine σ ε τ) (q : σ × List τ) (e : ε) : σ × List τ :=
  (m.step q.1 e, m.remaining q.2 e ++ m.scheduled q.1 e)

/-- A timer is only reported when it is outstanding. -/
def Legal (m : TimedMachine σ ε τ) (q : σ × List τ) (e : ε) : Prop := ∀ t, m.fired e = some t → t ∈ q.2

lemma mem_next {m : TimedMachine σ ε τ} {q : σ × List τ} {e : ε} {t : τ} (ht : t ∈ q.2)
    (hne : m.fired e ≠ some t) : t ∈ (m.next q e).2 := by
  refine mem_append_left _ ?_
  unfold remaining
  split
  next t' hfired =>
    refine (mem_erase_of_ne ?_).mpr ht
    rintro rfl
    exact hne hfired
  · exact ht

end TimedMachine

end Iroh
