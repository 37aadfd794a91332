import Iroh.Socket.RemoteState

/-!
# Closing a connection

Reference: `internal/socket/remote_state.go` (`handleConnClosed`, `multipathPathOpenLocked`).

An address may serve several connections of one actor: as the own address of one, and as a recorded path of
another.  When a connection closes, its own address is closed in any case.  A path that it has recorded is
spared if another connection has recorded it, but not if it is another connection's own address.
-/

namespace Iroh.Socket

open PathAddr List

universe u v w

variable {α : Type u} {κ : Type v} {γ : Type w} [DecidableEq κ] [PathAddr α κ]

lemma containsAddr_iff {addr : α} :
    containsAddr addrs addr = true ↔ ∃ x ∈ addrs, pathKey x = pathKey addr := by
  simp [containsAddr]

lemma exists_mem_appendUniqueAddr {addr : α} : (∃ x ∈ appendUniqueAddr addrs addr, pathKey x = k) ↔
      (∃ x ∈ addrs, pathKey x = k) ∨ pathKey addr = k := by
  unfold appendUniqueAddr
  split
  next h =>
    refine ⟨.inl, fun hk => hk.elim id ?_⟩
    rintro rfl
    exact containsAddr_iff.mp h
  · simp

namespace RemoteStateActor

variable [DecidableEq γ]

/-- A connection other than `conn` has the address as its own. -/
def OtherOwns (a : RemoteStateActor α κ γ) (conn : γ) (k : κ) : Prop :=
  ∃ c cs, c ≠ conn ∧ a.conns.get? c = some cs ∧ pathKey cs.addr = k

/-- A connection other than `conn` has the address in its recorded paths. -/
def OtherRecords (a : RemoteStateActor α κ γ) (conn : γ) (k : κ) : Prop :=
  ∃ c cs, c ≠ conn ∧ a.conns.get? c = some cs ∧ ∃ x ∈ cs.paths, pathKey x = k

/-- The address serves a connection other than `conn`. -/
def ServesOther (a : RemoteStateActor α κ γ) (conn : γ) (k : κ) : Prop :=
  a.OtherOwns conn k ∨ a.OtherRecords conn k

/-- When `conn` closes, the address is marked closed, a Closed event is sent for it, or it is cleared as
the selection. -/
def Disturbs (env : Surroundings α γ) (a : RemoteStateActor α κ γ) (conn : γ) (k : κ) : Prop :=
  (a.handleConnClosed env conn).paths.paths.get? k ≠ a.paths.paths.get? k ∨
    (∃ x, .closed x ∈ (a.handleConnClosed env conn).events.drop a.events.length ∧ pathKey x = k) ∨
      ∃ selected, a.selected = some selected ∧ pathKey selected = k ∧
        (a.handleConnClosed env conn).selected = none

/-- Nothing that serves another connection is disturbed when `conn` closes. -/
def Undisturbed (env : Surroundings α γ) (a : RemoteStateActor α κ γ) (conn : γ) : Prop :=
  ∀ k, a.Disturbs env conn k → ¬a.ServesOther conn k

/-- The own address of `conn` serves no other connection, and a recorded path of `conn` that is another
connection's own address is recorded by another connection as well. -/
def Separate (a : RemoteStateActor α κ γ) (conn : γ) : Prop :=
  ∀ cs, a.conns.get? conn = some cs → ¬a.ServesOther conn (pathKey cs.addr) ∧
    ∀ x ∈ cs.paths, a.OtherOwns conn (pathKey x) → a.OtherRecords conn (pathKey x)

/-! ## What is closed -/

variable {env : Surroundings α γ} {a : RemoteStateActor α κ γ} {conn : γ} {cs : ConnState α} {now : ℤ}

omit [DecidableEq γ] in
lemma exists_mem_foldl_closePath (paths : List α) (k : κ) : ∀ r : RemotePathState α κ × List α,
      (∃ x ∈ (paths.foldl (a.closePath now) r).2, pathKey x = k) ↔ (∃ x ∈ r.2, pathKey x = k) ∨
          ∃ x ∈ paths, a.multipathPathOpenLocked x = false ∧ pathKey x = k := by
  induction paths with
  | nil => simp
  | cons x paths ih =>
    intro r
    rw [foldl_cons, ih, closePath]
    simp only [mem_cons]
    split
    next hopen => simp [hopen]
    next hclosed => simp [exists_mem_appendUniqueAddr, hclosed, or_assoc]

omit [DecidableEq γ] in
lemma get?_foldl_closePath (paths : List α) : ∀ r : RemotePathState α κ × List α,
      (∀ x ∈ paths, a.multipathPathOpenLocked x = false → pathKey x ≠ k) →
        (paths.foldl (a.closePath now) r).1.paths.get? k = r.1.paths.get? k := by
  induction paths with
  | nil => exact fun _ _ => rfl
  | cons x paths ih =>
    intro r hne
    rw [foldl_cons, ih _ fun y hy => hne y (mem_cons_of_mem x hy), closePath]
    split
    · rfl
    next hclosed =>
      rw [Bool.not_eq_true] at hclosed
      exact RemotePathState.get?_setClosed_ne fun hk => hne x mem_cons_self hclosed hk.symm

lemma multipathPathOpenLocked_iff :
    multipathPathOpenLocked { a with conns := a.conns.delete conn, ticks := a.ticks + 1 } x = true ↔
      a.OtherRecords conn (pathKey x) := by
  simp only [multipathPathOpenLocked, any_eq_true, GoMap.mem_values_iff, GoMap.get?_delete,
    containsAddr_iff]
  constructor
  · rintro ⟨cs, ⟨c, hc⟩, hx⟩
    split at hc
    · cases hc
    next hne => exact ⟨c, cs, hne, hc, hx⟩
  · rintro ⟨c, cs, hne, hc, hx⟩
    exact ⟨cs, ⟨c, by rw [if_neg hne, hc]⟩, hx⟩

/-- The addresses that `handleConnClosed` closes. -/
def Closes (a : RemoteStateActor α κ γ) (conn : γ) (cs : ConnState α) (k : κ) : Prop :=
  pathKey cs.addr = k ∨ ∃ x ∈ cs.paths, ¬a.OtherRecords conn (pathKey x) ∧ pathKey x = k

lemma handleConnClosed_spec (env : Surroundings α γ) (hconn : a.conns.get? conn = some cs) :
    ∃ closed : List α, (∀ k, (∃ x ∈ closed, pathKey x = k) ↔ a.Closes conn cs k) ∧
      (a.handleConnClosed env conn).events = a.events ++ closed.map .closed ∧
      (∀ k, ¬a.Closes conn cs k →
        (a.handleConnClosed env conn).paths.paths.get? k = a.paths.paths.get? k) ∧
      ∀ selected, a.selected = some selected → (a.handleConnClosed env conn).selected = none →
        a.Closes conn cs (pathKey selected) := by
  have hopen : ∀ x, multipathPathOpenLocked
      { a with conns := a.conns.delete conn, ticks := a.ticks + 1 } x = false ↔
        ¬a.OtherRecords conn (pathKey x) := by
    intro x
    rw [← multipathPathOpenLocked_iff, Bool.not_eq_true]
  have hcloses : ∀ k, (∃ x ∈ (cs.paths.foldl
      (closePath { a with conns := a.conns.delete conn, ticks := a.ticks + 1 } (env.clock a.ticks))
      (a.paths.setClosed cs.addr (env.clock a.ticks), [cs.addr])).2, pathKey x = k) ↔
        a.Closes conn cs k := by
    intro k
    simp [exists_mem_foldl_closePath, hopen, Closes, exists_eq_left]
  rw [handleConnClosed, hconn]
  refine ⟨_, hcloses, rfl, fun k hk => ?_, fun selected hselected hnone => ?_⟩
  · rw [Closes, not_or] at hk
    refine (get?_foldl_closePath cs.paths _ fun x hx hclosed hkey => hk.2 ⟨x, hx, ?_, hkey⟩).trans ?_
    · exact (hopen x).mp hclosed
    · exact RemotePathState.get?_setClosed_ne fun heq => hk.1 heq.symm
  · rw [← hcloses, ← containsAddr_iff]
    simp only [send, hselected, Option.filter_eq_none_iff] at hnone
    have hcleared := hnone selected rfl
    rw [Bool.not_eq_true, Bool.not_eq_false', Bool.or_eq_true, decide_eq_true_eq] at hcleared
    rcases hcleared with hown | hclosed
    · exact containsAddr_iff.mpr ((hcloses _).mpr (.inl hown.symm))
    · exact hclosed

lemma disturbs_iff (hconn : a.conns.get? conn = some cs) (k : κ) :
    a.Disturbs env conn k ↔ a.Closes conn cs k := by
  obtain ⟨closed, hcloses, hevents, hpaths, hselected⟩ := handleConnClosed_spec env hconn
  constructor
  · rintro (hchanged | ⟨x, hx, rfl⟩ | ⟨selected, hsome, rfl, hnone⟩)
    · by_contra hnot
      exact hchanged (hpaths k hnot)
    · rw [hevents, drop_left, mem_map] at hx
      obtain ⟨y, hy, heq⟩ := hx
      cases heq
      exact (hcloses _).mp ⟨x, hy, rfl⟩
    · exact hselected selected hsome hnone
  · intro hk
    obtain ⟨x, hx, rfl⟩ := (hcloses k).mpr hk
    refine .inr (.inl ⟨x, ?_, rfl⟩)
    rw [hevents, drop_left]
    exact mem_map.mpr ⟨x, hx, rfl⟩

/-- **Which connections close without disturbing another**: exactly those that are separate from the
connections that remain. -/
theorem undisturbed_iff_separate (env : Surroundings α γ) (a : RemoteStateActor α κ γ) (conn : γ) :
    a.Undisturbed env conn ↔ a.Separate conn := by
  cases hconn : a.conns.get? conn with
  | none =>
    -- an unknown connection changes nothing
    have hsame : a.handleConnClosed env conn = a := by rw [handleConnClosed, hconn]
    refine iff_of_true ?_ ?_
    · rintro k (h | ⟨x, hx, -⟩ | ⟨selected, hsome, -, hnone⟩)
      · exact absurd rfl (hsame ▸ h)
      · rw [hsame, drop_length] at hx
        cases hx
      · rw [hsame, hsome] at hnone
        cases hnone
    · intro cs hcs
      cases hconn.symm.trans hcs
  | some cs =>
    simp only [Undisturbed, disturbs_iff hconn]
    constructor
    · intro h cs' hcs'
      cases hconn.symm.trans hcs'
      refine ⟨h _ (.inl rfl), fun x hx howns => ?_⟩
      by_contra hnot
      exact h _ (.inr ⟨x, hx, hnot, rfl⟩) (.inl howns)
    · intro h k hcloses hserves
      obtain ⟨hown, hpaths⟩ := h cs hconn
      rcases hcloses with rfl | ⟨x, hx, hnot, rfl⟩
      · exact hown hserves
      · exact hnot (hserves.elim (hpaths x hx) id)

def firstCandidate : Surroundings Addr ℕ where
  clock := fun n => n
  monotone := monotone_ticks
  selector := fun _ candidates => candidates.head?.map (·.addr)
  multipathNegotiated := fun _ => true
  natTraversal := fun _ => true

def noPaths : Observed Addr ℕ := ⟨fun _ => 0, fun _ => []⟩

def twoConns : RemoteStateActor Addr Addr ℕ :=
  [.addConnection 0 (.ip ⟨1, 7⟩) [] noPaths, .addConnection 1 (.ip ⟨1, 7⟩) [] noPaths].foldl
    (step firstCandidate) new

/-- When the first closes, the address that the second is using is reported closed. -/
theorem shared_address_disturbed : ¬twoConns.Undisturbed firstCandidate 0 := by
  intro h
  refine h (.ip ⟨1, 7⟩) (.inr (.inl ⟨.ip ⟨1, 7⟩, by decide, rfl⟩)) (.inl ?_)
  exact ⟨1, ⟨.ip ⟨1, 7⟩, []⟩, by decide, by decide, rfl⟩

end RemoteStateActor

end Iroh.Socket
