import Mathlib.Tactic.Common

/-!
# Programs with a state and errors

Code that reads from one stream and writes to another, and may stop with an error half way, runs in
`EStateM`.  The lemmas invert a run that ended well, one bind at a time, so that no proof unfolds the
monad.
-/

namespace Iroh

universe u v

variable {ε σ : Type u} {α β : Type u}

/-- Results are compared field by field. -/
instance decidableEqResult [DecidableEq ε] [DecidableEq σ] [DecidableEq α] :
    DecidableEq (EStateM.Result ε σ α)
  | .ok a s, .ok b t => decidable_of_iff (a = b ∧ s = t) (by simp)
  | .error a s, .error b t => decidable_of_iff (a = b ∧ s = t) (by simp)
  | .ok _ _, .error _ _ => isFalse nofun
  | .error _ _, .ok _ _ => isFalse nofun

variable {x : EStateM ε σ α} {s s' s₁ : σ} {a : α} {e : ε}

lemma bind_eq_ok {f : α → EStateM ε σ β} {b : β} :
    (x >>= f) s = .ok b s' ↔ ∃ a s₁, x s = .ok a s₁ ∧ f a s₁ = .ok b s' := by
  show EStateM.bind x f s = .ok b s' ↔ _
  unfold EStateM.bind
  cases x s with
  | _ => simp

lemma bind_of_ok (h : x s = .ok a s₁) (f : α → EStateM ε σ β) : (x >>= f) s = f a s₁ := by
  show EStateM.bind x f s = _
  rw [EStateM.bind, h]

lemma bind_of_error (h : x s = .error e s₁) (f : α → EStateM ε σ β) : (x >>= f) s = .error e s₁ := by
  show EStateM.bind x f s = _
  rw [EStateM.bind, h]

lemma get_bind_apply (f : σ → EStateM ε σ α) (s : σ) : (get >>= f) s = f s s := rfl

@[simp] lemma pure_eq_ok {b : α} : (pure a : EStateM ε σ α) s = .ok b s' ↔ a = b ∧ s = s' := by
  show EStateM.pure a s = .ok b s' ↔ _
  simp [EStateM.pure]

@[simp] lemma throw_ne_ok {b : α} : ¬ (throw e : EStateM ε σ α) s = .ok b s' := by
  intro h
  cases h

lemma adaptExcept_eq_ok {ε' : Type u} {f : ε → ε'} :
    (x.adaptExcept f) s = .ok a s' ↔ x s = .ok a s' := by
  unfold EStateM.adaptExcept
  cases x s with
  | _ => simp

lemma adaptExcept_of_error {ε' : Type u} (h : x s = .error e s₁) (f : ε → ε') :
    (x.adaptExcept f) s = .error (f e) s₁ := by
  rw [EStateM.adaptExcept, h]

/-- The state a run ends in, well or not. -/
def stateOf : EStateM.Result ε σ α → σ
  | .ok _ s => s
  | .error _ s => s

/-! ## What a program keeps -/

/-- `P` survives the program, whether it ends well or not. -/
def Keeps (P : σ → Prop) (x : EStateM ε σ α) : Prop := ∀ s, P s → P (stateOf (x s))

namespace Keeps

variable {P : σ → Prop}

lemma pure (a : α) : Keeps P (Pure.pure a : EStateM ε σ α) := fun _ h => h

lemma throw (e : ε) : Keeps P (MonadExcept.throw e : EStateM ε σ α) := fun _ h => h

lemma modify {ε : Type u} {f : σ → σ} (hf : ∀ s, P s → P (f s)) :
    Keeps P (modifyGet fun s => (⟨⟩, f s) : EStateM ε σ PUnit) := hf

lemma bind {x : EStateM ε σ α} {f : α → EStateM ε σ β} (hx : Keeps P x)
    (hf : ∀ a, Keeps P (f a)) : Keeps P (x >>= f) := by
  intro s hs
  have hmiddle := hx s hs
  cases hrun : x s with
  | ok a s₁ =>
    rw [hrun] at hmiddle
    rw [bind_of_ok hrun]
    exact hf a s₁ hmiddle
  | error e s₁ =>
    rw [hrun] at hmiddle
    rw [bind_of_error hrun]
    exact hmiddle

lemma get_bind {f : σ → EStateM ε σ α} (hf : ∀ s, P s → Keeps P (f s)) :
    Keeps P (MonadState.get >>= f) := fun s h => hf s h s h

lemma ite {c : Prop} [Decidable c] {x y : EStateM ε σ α} (hx : Keeps P x) (hy : Keeps P y) :
    Keeps P (if c then x else y) := by
  split
  · exact hx
  · exact hy

end Keeps

/-- A program run `n` times, until it fails. -/
def times (x : EStateM ε σ PUnit) : ℕ → EStateM ε σ PUnit
  | 0 => pure ⟨⟩
  | n + 1 => do
      x
      times x n

lemma Keeps.times {P : σ → Prop} {x : EStateM ε σ PUnit} (hx : Keeps P x) (n : ℕ) :
    Keeps P (times x n) := by
  induction n with
  | zero => exact .pure _
  | succ n ih => exact hx.bind fun _ => ih

lemma Keeps.forM {P : σ → Prop} {x : β → EStateM ε σ PUnit} {l : List β}
    (hx : ∀ b ∈ l, Keeps P (x b)) : Keeps P (l.forM x) := by
  induction l with
  | nil => exact .pure _
  | cons b l ih =>
    exact (hx b List.mem_cons_self).bind fun _ => ih fun c hc => hx c (List.mem_cons_of_mem _ hc)

/-! ## Without a state -/

lemma except_bind_eq_ok {x : Except ε α} {f : α → Except ε β} {b : β} :
    (x >>= f) = .ok b ↔ ∃ a, x = .ok a ∧ f a = .ok b := by
  cases x with
  | ok a =>
    constructor
    · exact fun h => ⟨a, rfl, h⟩
    · rintro ⟨a', ha, h⟩
      cases ha
      exact h
  | error e =>
    constructor
    · intro h
      cases h
    · rintro ⟨a, ha, -⟩
      cases ha

/-- The program ends with a value that satisfies `P` or an error that satisfies `E`. -/
def Ends (E : ε → Prop) (P : α → Prop) : Except ε α → Prop
  | .ok a => P a
  | .error e => E e

section

variable {E : ε → Prop} {P : α → Prop} {x : Except ε α}

lemma Ends.bind {Q : β → Prop} {f : α → Except ε β} (hx : Ends E P x)
    (hf : ∀ a, P a → Ends E Q (f a)) : Ends E Q (x >>= f) := by
  cases x with
  | ok a => exact hf a hx
  | error e => exact hx

lemma Ends.mono {Q : α → Prop} (hx : Ends E P x) (h : ∀ a, P a → Q a) : Ends E Q x := by
  cases x with
  | ok a => exact h a hx
  | error e => exact hx

end

end Iroh
