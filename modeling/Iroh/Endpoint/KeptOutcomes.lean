import Iroh.Endpoint.AcceptResults
import Mathlib.Algebra.BigOperators.Group.List.Basic
import Mathlib.Algebra.GroupWithZero.Nat

/-!
# Kept outcomes

Reference: `iroh/endpoint.go` (`accept`, `finishAccept`), `iroh/admit.go` (`add`).

No connection is pulled while an outcome is kept, so the list grows only by what was pulled before the first
one (`Few`).  The admissions do not bound that: a `finishAccept` holds none before it is admitted, nor between
its release and its append, and nothing bounds how many are there at once.
-/

namespace Iroh.Endpoint

open List

def FinishStage.undone : FinishStage → ℕ
  | .done _ => 0
  | _ => 1

namespace Accepting

variable {s : Accepting} {c : AcceptCall} {i : ℕ}

/-- `action` is the append of an outcome that is kept: the endpoint is open, its generation current. -/
def keeps (s : Accepting) : Action → Bool
  | .append i =>
    match s.finishers[i]? with
    | some ⟨gen, _, .released _⟩ => !s.closed && s.acceptGen == gen
    | _ => false
  | _ => false

def pulling (call : Option AcceptCall) : ℕ := if call.map (·.pull) = some .pulling then 1 else 0

/-- The `finishAccept` goroutines not done yet, with the one that a pulled connection is about to get. -/
def coming (s : Accepting) : ℕ := (s.finishers.map (·.stage.undone)).sum + pulling s.call

/-- No outcome is added, and while one is kept none is on its way that was not before. -/
structure Shrinks (s s' : Accepting) : Prop where
  accepted : s'.accepted.length ≤ s.accepted.length
  coming : s.accepted ≠ [] → s'.coming ≤ s.coming

lemma Shrinks.refl (s : Accepting) : Shrinks s s := ⟨le_rfl, fun _ => le_rfl⟩

lemma sum_map_modify {α : Type*} (w : α → ℕ) (g : α → α) (l : List α) (i : ℕ) :
    ((l.modify i g).map w).sum + l[i]?.elim 0 w = (l.map w).sum + l[i]?.elim 0 (w ∘ g) := by
  induction l generalizing i with
  | nil => simp
  | cons a l ih =>
    cases i with
    | zero =>
      simp only [modify_zero_cons, map_cons, sum_cons, getElem?_cons_zero,
        Option.elim_some, Function.comp_apply]
      omega
    | succ i =>
      have h := ih i
      simp only [modify_succ_cons, map_cons, sum_cons, getElem?_cons_succ]
      omega

lemma coming_setStage (hi : s.stage? i = some stage) (stage' : FinishStage) :
    (s.setStage i stage').coming + stage.undone = s.coming + stage'.undone := by
  obtain ⟨f, hf, rfl⟩ := Option.map_eq_some_iff.mp hi
  have h := sum_map_modify (·.stage.undone) (fun f => { f with stage := stage' }) s.finishers i
  rw [hf] at h
  simp only [Option.elim_some, Function.comp_apply] at h
  simp only [coming, setStage]
  omega

lemma Quiet.coming (h : Quiet s s') : s'.coming = s.coming := by
  have hstages : s'.finishers.map (·.stage) = s.finishers.map (·.stage) := by
    refine ext_getElem? fun j => ?_
    rw [getElem?_map, getElem?_map]
    exact h.stage? j
  have hsum := congrArg (fun l : List FinishStage => (l.map FinishStage.undone).sum) hstages
  simp only [map_map] at hsum
  rw [Accepting.coming, h.call]
  exact congrArg (· + pulling s.call) hsum

lemma Shrinks.of_call (haccepted : s'.accepted.length ≤ s.accepted.length)
    (hfinishers : s'.finishers = s.finishers)
    (hpulling : s.accepted ≠ [] → pulling s'.call ≤ pulling s.call) : Shrinks s s' := by
  refine ⟨haccepted, fun hne => ?_⟩
  rw [Accepting.coming, hfinishers]
  exact Nat.add_le_add_left (hpulling hne) _

lemma shrinks_popped (hc : s.call = some c)
    (hr : s.accepted = r :: rest) : Shrinks s (s.popped c r rest) := by
  refine .of_call ?_ rfl fun _ => ?_
  · simp [popped, hr]
  · simp [popped, pulling, hc]

lemma shrinks_callStep (hc : s.call = some c) (a : CallAction) : Shrinks s (s.callStep c a) := by
  have hsame : ∀ {ready : Bool} {returned : List (Option Outcome)} {c' : AcceptCall}, c'.pull = c.pull →
      Shrinks s { s with acceptReady := ready, returned, call := some c' } := by
    intro ready returned c' hpull
    exact .of_call le_rfl rfl fun _ => by simp [pulling, hc, hpull]
  cases a with
  | main =>
    rw [callStep]
    unfold goOn
    split
    · exact .of_call le_rfl rfl fun hne => absurd ‹_› hne
    next hr => exact .of_call (by simp [popped, hr]) rfl fun _ => by simp [popped, pulling]
    · exact hsame rfl
    · exact shrinks_popped hc ‹_›
    · exact hsame rfl
    · exact shrinks_popped hc ‹_›
    · split
      · exact .of_call le_rfl rfl fun _ => by simp [pulling]
      · exact .refl s
    · exact .refl s
  | cancel => exact hsame rfl
  | pull =>
    rw [callStep]
    unfold pullOn
    split
    · exact .of_call le_rfl rfl fun hne => by simp [pulling, hne]
    · exact .of_call le_rfl rfl fun _ => by simp [pulling]
    · exact .refl s
  | pulled err =>
    rw [callStep]
    unfold pulled
    split
    · exact .of_call le_rfl rfl fun _ => by simp [pulling]
    next hpull => exact ⟨le_rfl, fun _ => by simp [coming, pulling, hc, hpull, FinishStage.undone]⟩
    · exact .refl s
  | _ =>
    rw [callStep]
    split
    · exact hsame rfl
    · exact .refl s

lemma undone_eq_one {stage : FinishStage} (hnot : ∀ f, stage ≠ .done f) : stage.undone = 1 := by
  cases stage with
  | done f => exact absurd rfl (hnot f)
  | _ => rfl

lemma Effect.shrinks {s' : Accepting} (h : Effect s action s')
    (hnot : ¬s.keeps action) : Shrinks s s' := by
  cases h with
  | quiet h => exact ⟨(congrArg length h.accepted).le, fun _ => h.coming.le⟩
  | @moved _ s' i stage stage' h hi hstage hstage' =>
    refine ⟨(congrArg length h.accepted).le, fun _ => ?_⟩
    have hcoming := coming_setStage ((h.stage? i).trans hi) stage'
    rw [undone_eq_one hstage, undone_eq_one hstage', h.coming] at hcoming
    exact (Nat.add_right_cancel hcoming).le
  | @dropped _ s' i stage h hi hstage f =>
    refine ⟨(congrArg length h.accepted).le, fun _ => ?_⟩
    have hcoming := coming_setStage ((h.stage? i).trans hi) (.done f)
    rw [undone_eq_one hstage, h.coming] at hcoming
    exact (Nat.le_succ _).trans_eq hcoming
  | kept hi hopen hgen => exact absurd (by simp [keeps, hi, hopen, hgen]) hnot
  | emptied => exact ⟨Nat.zero_le _, fun _ => le_rfl⟩
  | started => exact .of_call le_rfl rfl fun _ => by simp [pulling]
  | called hc => exact shrinks_callStep hc _

/-- An outcome that is kept is one that was coming. -/
lemma step_cases (s : Accepting) (action : Action) :
    (s.keeps action ∧ (s.step action).accepted.length = s.accepted.length + 1 ∧
      (s.step action).coming + 1 = s.coming) ∨ ¬s.keeps action ∧ Shrinks s (s.step action) := by
  by_cases hkeeps : s.keeps action
  · refine .inl ⟨hkeeps, ?_⟩
    unfold keeps at hkeeps
    split at hkeeps
    next i =>
      split at hkeeps
      next gen abandoned f hi =>
        simp only [Bool.and_eq_true, Bool.not_eq_true', beq_iff_eq] at hkeeps
        have hstep : s.step (.append i) = s.keep i f := by simp [step, append, hi, hkeeps]
        rw [hstep]
        refine ⟨?_, coming_setStage (congrArg (Option.map Finisher.stage) hi) (.done f)⟩
        simp [keep, setStage]
      · cases hkeeps
    · cases hkeeps
  · exact .inr ⟨hkeeps, (effect_step s action).shrinks hkeeps⟩

/-- While outcomes are kept, those kept and those coming are together at most `limit`. -/
def Few (limit : ℕ) (s : Accepting) : Prop := s.accepted ≠ [] → s.accepted.length + s.coming ≤ limit

lemma few_step {limit : ℕ} (s : Accepting) (action : Action)
    (hfirst : s.keeps action → s.accepted = [] → s.coming ≤ limit) (h : Few limit s) :
    Few limit (s.step action) := by
  intro hne
  rcases step_cases s action with ⟨hkeeps, hlength, hcoming⟩ | ⟨-, hshrinks⟩
  · by_cases hempty : s.accepted = []
    · have := hfirst hkeeps hempty
      rw [hempty, length_nil] at hlength
      omega
    · have := h hempty
      omega
  · have hne' : s.accepted ≠ [] := by
      intro hempty
      have hlength := hshrinks.accepted
      rw [hempty, length_nil] at hlength
      exact hne (length_eq_zero_iff.mp (Nat.le_zero.mp hlength))
    exact (Nat.add_le_add hshrinks.accepted (hshrinks.coming hne')).trans (h hne')

/-- **How many outcomes are kept.**  The first one kept stops the pulling, so that what is coming then is all
that can be kept with it. -/
theorem bounded_of_few_coming (maxAdmitting : ℕ) (actions : List Action)
    (hfew : EachStep step (fun s action => s.keeps action → s.accepted = [] → s.coming ≤ maxAdmitting + 1)
      (new maxAdmitting) actions) :
    EachState step (fun s => s.accepted.length ≤ maxAdmitting + 1) (new maxAdmitting) actions := by
  have hinv : EachState step (Few (maxAdmitting + 1)) (new maxAdmitting) actions :=
    eachState_of_eachStep few_step (fun h => absurd rfl h) hfew
  intro pre hpre
  by_cases hempty : (pre.foldl step (new maxAdmitting)).accepted = []
  · simp [hempty]
  · exact (Nat.le_add_right _ _).trans (hinv pre hpre hempty)

/-- Two connections are pulled before the first outcome is kept, and both outcomes are. -/
def twoPulled : List Action :=
  [.start, .call .main, .call .pull, .call (.pulled false), .call .pull, .call (.pulled false), .admitConn 0,
    .finish 0 .conn, .release 0, .append 0, .admitConn 1, .finish 1 .conn, .call .pull, .release 1, .append 1]

theorem bounded_of_few_coming_two : (twoPulled.foldl step (new 1)).accepted.length = 2 ∧
    EachState step (fun s => s.accepted.length ≤ 1 + 1) (new 1) twoPulled :=
  ⟨by decide, bounded_of_few_coming 1 twoPulled (by decide)⟩

/-- Three connections are pulled, and each is admitted after the one before has released its admission.
Their outcomes are appended after that. -/
def threeReleased : List Action :=
  [.start, .call .main, .call .pull, .call (.pulled false), .call .pull, .call (.pulled false), .call .pull,
    .call (.pulled false), .admitConn 0, .finish 0 .conn, .release 0, .admitConn 1, .finish 1 .conn, .release 1,
    .admitConn 2, .finish 2 .conn, .release 2, .append 0, .append 1, .append 2]

theorem three_kept_with_one_admission :
    ¬EachState step (fun s => s.accepted.length ≤ 1 + 1) (new 1) threeReleased := by
  decide

end Accepting

end Iroh.Endpoint
