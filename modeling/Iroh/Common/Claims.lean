import Iroh.Common.GoMap

/-!
# Claims on keys

Several parties claim keys through a shared table: a party that finds no entry for its key puts a token
of its own there and takes it out when it is done.  `Claims table holds fresh` says that the table is
exactly what the parties hold, that no key and no token is held twice, and that tokens from `fresh` on
have not been given out.  Claiming a free key and releasing a held one keep it so.
-/

namespace Iroh

open Function

section Update

variable {ι α : Type} [DecidableEq ι] {holds : ι → Option α} {c d : ι} {x y : α}

lemma update_eq_some {y : Option α} :
    Function.update holds c y d = some x ↔ (d = c ∧ y = some x) ∨ (d ≠ c ∧ holds d = some x) := by
  rw [update_apply]
  split
  next hdc => simp [hdc]
  next hdc => simp [hdc]

lemma exists_update_of_none (hc : holds c = none) :
    (∃ d, Function.update holds c (some y) d = some x) ↔ y = x ∨ ∃ d, holds d = some x := by
  constructor
  · rintro ⟨d, hd⟩
    rcases update_eq_some.mp hd with ⟨-, hy⟩ | ⟨-, hold⟩
    · exact .inl (Option.some.inj hy)
    · exact .inr ⟨d, hold⟩
  · rintro (rfl | ⟨d, hd⟩)
    · exact ⟨c, update_self ..⟩
    · refine ⟨d, update_eq_some.mpr (.inr ⟨?_, hd⟩)⟩
      rintro rfl
      cases hc.symm.trans hd

end Update

variable {κ ι : Type} [DecidableEq κ] {table : GoMap κ ℕ} {holds : ι → Option (κ × ℕ)} {fresh : ℕ}

/-- The table is what the parties hold, each key and each token once. -/
structure Claims (table : GoMap κ ℕ) (holds : ι → Option (κ × ℕ)) (fresh : ℕ) : Prop where
  table_iff : ∀ k t, table.get? k = some t ↔ ∃ c, holds c = some (k, t)
  key_unique : ∀ {c d k t t'}, holds c = some (k, t) → holds d = some (k, t') → c = d
  token_unique : ∀ {c d k k' t}, holds c = some (k, t) → holds d = some (k', t) → c = d
  token_lt : ∀ {c k t}, holds c = some (k, t) → t < fresh

namespace Claims

lemma of_empty (h : ∀ c, holds c = none) : Claims .empty holds fresh := by
  have hno : ∀ {c : ι} {x : κ × ℕ}, ¬holds c = some x := by
    intro c x hc
    rw [h c] at hc
    cases hc
  refine ⟨fun k t => ?_, fun hc => absurd hc hno, fun hc => absurd hc hno, fun hc => absurd hc hno⟩
  exact iff_of_false (Option.some_ne_none t).symm fun hc => hc.elim fun _ => hno

lemma not_holds (h : Claims table holds fresh) {k : κ} (hk : table.get? k = none) {d : ι} {t : ℕ} :
    ¬holds d = some (k, t) := by
  intro hd
  have hsome := (h.table_iff k t).mpr ⟨d, hd⟩
  cases hk.symm.trans hsome

variable [DecidableEq ι]

lemma claim (h : Claims table holds fresh) {c : ι} {k : κ} (hc : holds c = none)
    (hk : table.get? k = none) :
    Claims (table.set k fresh) (Function.update holds c (some (k, fresh))) (fresh + 1) := by
  -- what anyone holds now is the new claim or an old one
  have hcases : ∀ {d k' t}, update holds c (some (k, fresh)) d = some (k', t) →
      (d = c ∧ k = k' ∧ fresh = t) ∨ holds d = some (k', t) := by
    intro d k' t hd
    refine (update_eq_some.mp hd).imp (fun hnew => ⟨hnew.1, ?_⟩) And.right
    exact Prod.mk.inj (Option.some.inj hnew.2)
  refine ⟨fun k' t => ?_, ?_, ?_, ?_⟩
  · rw [GoMap.get?_set, exists_update_of_none hc, ← h.table_iff]
    split
    next hkk =>
      rw [hkk, hk]
      simp
    next hkk => exact (or_iff_right fun hx => hkk (Prod.mk.inj hx).1.symm).symm
  · intro d d' k' t t' hd hd'
    rcases hcases hd with ⟨rfl, rfl, rfl⟩ | hold <;> rcases hcases hd' with ⟨rfl, hkey, htoken⟩ | hold'
    · rfl
    · exact absurd hold' (h.not_holds hk)
    · exact absurd (hkey ▸ hold) (h.not_holds hk)
    · exact h.key_unique hold hold'
  · intro d d' k' k'' t hd hd'
    rcases hcases hd with ⟨rfl, rfl, rfl⟩ | hold <;> rcases hcases hd' with ⟨rfl, hkey, htoken⟩ | hold'
    · rfl
    · exact absurd (h.token_lt hold') (Nat.lt_irrefl _)
    · exact absurd (h.token_lt (htoken ▸ hold)) (Nat.lt_irrefl _)
    · exact h.token_unique hold hold'
  · intro d k' t hd
    rcases hcases hd with ⟨-, -, rfl⟩ | hold
    · exact Nat.lt_succ_self _
    · exact Nat.lt_succ_of_lt (h.token_lt hold)

lemma release (h : Claims table holds fresh) {c : ι} {k : κ} {t : ℕ} (hc : holds c = some (k, t)) :
    Claims (table.delete k) (Function.update holds c none) fresh := by
  have hcases : ∀ {d x}, update holds c none d = some x → d ≠ c ∧ holds d = some x :=
    fun hd => (update_eq_some.mp hd).resolve_left fun hnone => Option.some_ne_none _ hnone.2.symm
  refine ⟨fun k' t' => ?_, fun hd hd' => h.key_unique (hcases hd).2 (hcases hd').2,
    fun hd hd' => h.token_unique (hcases hd).2 (hcases hd').2, fun hd => h.token_lt (hcases hd).2⟩
  rw [GoMap.get?_delete]
  split
  next hkk =>
    refine iff_of_false (Option.some_ne_none t').symm ?_
    rintro ⟨d, hd⟩
    obtain ⟨hdc, hold⟩ := hcases hd
    exact hdc (h.key_unique (hkk ▸ hold) hc)
  next hkk =>
    rw [h.table_iff]
    refine exists_congr fun d => ⟨fun hd => ?_, fun hd => (hcases hd).2⟩
    refine update_eq_some.mpr (.inr ⟨?_, hd⟩)
    rintro rfl
    rw [hc] at hd
    exact hkk (Prod.mk.inj (Option.some.inj hd)).1.symm

end Claims

end Iroh
