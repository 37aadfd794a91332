import Iroh.Common.EState
import Mathlib.Data.Vector.Basic

/-!
# Scanners and what they invert

A scanner takes a value off the front of a string of tokens and leaves the rest, or fails.  Against an
encoder two things can be said of it, and both compose along `bind`:

* `Reads p b a`: from `b`, with anything after it, `p` takes `a` and stops at the end of `b`;
* `ReadsOnly p enc`: whatever `p` takes was spelled by `enc`, so a value has one spelling.
-/

namespace Iroh

open List

universe u

abbrev Scanner (τ ε α : Type u) := EStateM ε (List τ) α

section Scanner

variable {τ ε α β : Type u}

/-- `p` takes `a` from `b` and stops there, whatever follows. -/
def Reads (p : Scanner τ ε α) (b : List τ) (a : α) : Prop := ∀ rest, p (b ++ rest) = .ok a rest

/-- What `p` takes is spelled by `enc`. -/
def ReadsOnly (p : Scanner τ ε α) (enc : α → List τ) : Prop :=
  ∀ b a rest, p b = .ok a rest → b = enc a ++ rest

lemma reads_pure (a : α) : Reads (pure a : Scanner τ ε α) [] a := fun _ => rfl

variable {p : Scanner τ ε α} {b : List τ} {a : α}

lemma Reads.bind {f : α → Scanner τ ε β} {b' : List τ} {x : β} (h : Reads p b a)
    (h' : Reads (f a) b' x) : Reads (p >>= f) (b ++ b') x := by
  intro rest
  rw [append_assoc]
  exact bind_eq_ok.mpr ⟨a, b' ++ rest, h (b' ++ rest), h' rest⟩

lemma Reads.bind_pure (h : Reads p b a) (f : α → β) : Reads (p >>= fun a => pure (f a)) b (f a) := by
  have hbind : Reads (p >>= fun a => pure (f a)) (b ++ []) (f a) := h.bind (reads_pure (f a))
  rwa [append_nil] at hbind

lemma Reads.bind_pure_eq {f : α → β} {x : β} (h : Reads p b a) (hx : f a = x) :
    Reads (p >>= fun a => pure (f a)) b x :=
  hx ▸ h.bind_pure f

lemma Reads.adaptExcept {ε' : Type u} (h : Reads p b a) (f : ε → ε') :
    Reads (EStateM.adaptExcept f p) b a :=
  fun rest => adaptExcept_eq_ok.mpr (h rest)

/-! ## Repetition -/

/-- The scanner of `n` values, one after the other. -/
def Scanner.vector (p : Scanner τ ε α) : (n : ℕ) → Scanner τ ε (List.Vector α n)
  | 0 => pure .nil
  | n + 1 => do
      let a ← p
      let v ← Scanner.vector p n
      return a ::ᵥ v

lemma reads_vector {enc : β → List τ} {f : β → α} {n : ℕ} {v : List.Vector β n}
    (h : ∀ a ∈ v.toList, Reads p (enc a) (f a)) :
    Reads (p.vector n) (v.toList.flatMap enc) (v.map f) := by
  induction v with
  | nil => exact reads_pure List.Vector.nil
  | @cons n a v ih =>
    have htail := ih fun a' ha' => h a' (mem_cons_of_mem _ ha')
    exact (h a mem_cons_self).bind (htail.bind_pure _)

lemma ReadsOnly.vector {enc : α → List τ} (h : ReadsOnly p enc) (n : ℕ) :
    ReadsOnly (p.vector n) fun v => v.toList.flatMap enc := by
  induction n with
  | zero =>
    intro b v rest hp
    obtain ⟨rfl, rfl⟩ := pure_eq_ok.mp hp
    rfl
  | succ n ih =>
    intro b v rest hp
    obtain ⟨a, mid, ha, hp⟩ := bind_eq_ok.mp hp
    obtain ⟨v', mid', hv', hp⟩ := bind_eq_ok.mp hp
    obtain ⟨rfl, rfl⟩ := pure_eq_ok.mp hp
    dsimp only
    rw [List.Vector.toList_cons, flatMap_cons, append_assoc, ← ih _ _ _ hv']
    exact h b a mid ha

end Scanner

end Iroh
