import Mathlib.Data.List.Induction

/-!
# Bounded queues that report what they drop

A queue between a sender that never waits and one reader.  When the queue is full its oldest element
is dropped and counted, and the reader is told the count before it gets another element.

`Accounts` is the relation between what was pushed, what the reader has got and the queue.
-/

namespace Iroh

open List

universe u

/-- A queue, the number of elements dropped since the reader was last told, and whether to tell. -/
structure LagRing (α : Type u) where
  ring : List α
  missed : ℕ
  lagged : Bool
deriving DecidableEq

/-- What the reader gets: an element, or the number of elements dropped before the next one. -/
inductive Report (α : Type u) where
  | event (a : α)
  | missed (n : ℕ)
deriving DecidableEq

variable {α : Type u}

/-! ## What the reader has got -/

namespace Report

def event? : Report α → Option α
  | event a => some a
  | missed _ => none

def missedCount : Report α → ℕ
  | event _ => 0
  | missed n => n

end Report

def received (out : List (Report α)) : List α := out.filterMap Report.event?

/-- The drops that the reports tell of. -/
def missedTotal : List (Report α) → ℕ
  | [] => 0
  | r :: out => r.missedCount + missedTotal out

/-- How far into the pushes the reports go. -/
def covered (out : List (Report α)) : ℕ := (received out).length + missedTotal out

section

variable (out out' : List (Report α))

lemma received_append : received (out ++ out') = received out ++ received out' := filterMap_append

lemma missedTotal_append : missedTotal (out ++ out') = missedTotal out + missedTotal out' := by
  induction out with
  | nil => simp [missedTotal]
  | cons r out ih => rw [cons_append, missedTotal, missedTotal, ih, Nat.add_assoc]

lemma covered_append : covered (out ++ out') = covered out + covered out' := by
  rw [covered, received_append, length_append, missedTotal_append, covered, covered]
  omega

end

@[simp] lemma received_event (a : α) : received [Report.event a] = [a] := rfl

@[simp] lemma received_missed (n : ℕ) : received [(Report.missed n : Report α)] = [] := rfl

@[simp] lemma covered_event (a : α) : covered [Report.event a] = 1 := rfl

@[simp] lemma covered_missed (n : ℕ) : covered [(Report.missed n : Report α)] = n := by
  simp [covered, missedTotal, Report.missedCount]

namespace LagRing

def empty : LagRing α := ⟨[], 0, false⟩

def push (cap : ℕ) (q : LagRing α) (a : α) : LagRing α :=
  if cap ≤ q.ring.length then ⟨q.ring.tail ++ [a], q.missed + 1, true⟩
  else { q with ring := q.ring ++ [a] }

def pop (q : LagRing α) : Option (Report α × LagRing α) :=
  if q.lagged then some (.missed q.missed, { q with missed := 0, lagged := false })
  else match q.ring with
    | [] => none
    | a :: rest => some (.event a, { q with ring := rest })

lemma pop_cases {q q' : LagRing α} {r : Report α} (h : q.pop = some (r, q')) :
    (q.lagged = true ∧ r = .missed q.missed ∧ q' = ⟨q.ring, 0, false⟩) ∨
      (q.lagged = false ∧ ∃ a rest, q.ring = a :: rest ∧ r = .event a ∧
        q' = ⟨rest, q.missed, false⟩) := by
  obtain ⟨ring, missed, lagged⟩ := q
  cases lagged with
  | true =>
    obtain ⟨rfl, rfl⟩ : Report.missed missed = r ∧ ⟨ring, 0, false⟩ = q' := by
      simpa [pop] using h
    exact .inl ⟨rfl, rfl, rfl⟩
  | false =>
    cases ring with
    | nil => simp [pop] at h
    | cons a rest =>
      obtain ⟨rfl, rfl⟩ : Report.event a = r ∧ ⟨rest, missed, false⟩ = q' := by
        simpa [pop] using h
      exact .inr ⟨rfl, a, rest, rfl, rfl, rfl⟩

/-! ## The account -/

/-- What left the ring, what was missed and what is in it make up what was sent. -/
structure Accounts (sent : List α) (out : List (Report α)) (q : LagRing α) : Prop where
  le : covered out + q.missed ≤ sent.length
  ring : q.ring = sent.drop (covered out + q.missed)
  lagged : q.lagged = false → q.missed = 0
  placed : ∀ pre a post, out = pre ++ .event a :: post → sent[covered pre]? = some a

namespace Accounts

variable {sent : List α} {out : List (Report α)} {q q' : LagRing α}

lemma empty : Accounts ([] : List α) [] LagRing.empty where
  le := Nat.le_refl 0
  ring := rfl
  lagged := fun _ => rfl
  placed := by
    intro pre a post h
    simp at h

variable (h : Accounts sent out q)
include h

lemma push {cap : ℕ} (hcap : 0 < cap) (a : α) : Accounts (sent ++ [a]) out (q.push cap a) := by
  have hplaced : ∀ pre b post, out = pre ++ .event b :: post →
      (sent ++ [a])[covered pre]? = some b := by
    intro pre b post hout
    have hb := h.placed pre b post hout
    have hlt : covered pre < sent.length := (List.getElem?_eq_some_iff.mp hb).1
    rw [getElem?_append_left hlt]
    exact hb
  have hlength : (sent ++ [a]).length = sent.length + 1 := by simp
  have hle := h.le
  unfold LagRing.push
  split
  case isTrue hfull =>
    -- a full queue is not empty, so the drop stays within what was pushed
    have hring : q.ring.length = sent.length - (covered out + q.missed) := by
      rw [h.ring, length_drop]
    have hlt : covered out + (q.missed + 1) ≤ sent.length := by omega
    refine ⟨by dsimp only; omega, ?_, by simp, hplaced⟩
    rw [drop_append_of_le_length hlt]
    rw [h.ring, tail_drop, Nat.add_assoc]
  case isFalse =>
    refine ⟨by dsimp only; omega, ?_, h.lagged, hplaced⟩
    rw [drop_append_of_le_length hle, h.ring]

lemma pop {r : Report α} (hpop : q.pop = some (r, q')) : Accounts sent (out ++ [r]) q' := by
  have hsplit : ∀ pre a post, out ++ [r] = pre ++ .event a :: post →
      (∃ rest, out = pre ++ .event a :: rest) ∨ (pre = out ∧ r = .event a) := by
    intro pre a post hout
    rcases eq_nil_or_concat post with rfl | ⟨rest, c, rfl⟩
    · obtain ⟨hpre, hr⟩ := append_inj' hout rfl
      exact .inr ⟨hpre.symm, singleton_inj.mp hr⟩
    · rw [concat_eq_append, ← cons_append, ← append_assoc] at hout
      exact .inl ⟨rest, (append_inj' hout rfl).1⟩
  rcases pop_cases hpop with ⟨hlagged, rfl, rfl⟩ | ⟨hlagged, b, rest, hring, rfl, rfl⟩
  · refine ⟨?_, ?_, fun _ => rfl, ?_⟩
    · rw [covered_append, covered_missed]
      exact h.le
    · rw [covered_append, covered_missed]
      exact h.ring
    · intro pre a post hout
      rcases hsplit pre a post hout with ⟨rest, hrest⟩ | ⟨-, hr⟩
      · exact h.placed pre a rest hrest
      · cases hr
  · have hzero : q.missed = 0 := h.lagged hlagged
    have hdrop : b :: rest = sent.drop (covered out) := by
      rw [← hring, h.ring, hzero, Nat.add_zero]
    have hget : sent[covered out]? = some b := by
      rw [← head?_drop, ← hdrop]
      rfl
    have hlt : covered out < sent.length := (List.getElem?_eq_some_iff.mp hget).1
    refine ⟨?_, ?_, fun _ => hzero, ?_⟩
    · rw [covered_append, covered_event, hzero]
      omega
    · rw [covered_append, covered_event, hzero, ← tail_drop, ← hdrop]
      rfl
    · intro pre a post hout
      rcases hsplit pre a post hout with ⟨rest, hrest⟩ | ⟨rfl, hr⟩
      · exact h.placed pre a rest hrest
      · cases hr
        exact hget

lemma received_sublist : (received out).Sublist sent := by
  -- by induction from the back: the elements up to a report lie in the part of `sent` it covers
  have key : ∀ out : List (Report α),
      (∀ pre a post, out = pre ++ .event a :: post → sent[covered pre]? = some a) →
      (received out).Sublist (sent.take (covered out)) := by
    intro out
    induction out using reverseRecOn with
    | nil => exact fun _ => nil_sublist _
    | append_singleton out r ih =>
      intro hplaced
      have hout := ih fun pre a post hpre => hplaced pre a (post ++ [r]) (by simp [hpre])
      rw [received_append, covered_append]
      cases r with
      | event a =>
        have ha : sent[covered out]? = some a := hplaced out a [] rfl
        rw [covered_event, take_add_one, ha]
        exact hout.append (List.Sublist.refl _)
      | missed n =>
        rw [received_missed, append_nil]
        exact hout.trans ((take_prefix_take_left (Nat.le_add_right _ _)).sublist)
  exact (key out h.placed).trans (take_sublist _ _)

end Accounts

end LagRing

end Iroh
