import Iroh.Common.Runs
import Iroh.Qng.MultipathOutgoing

/-!
# Migrating to a direct route and back

Reference: `migrateOrdinarySendToQNTRoute` and `revertQNTMigration` of
`internal/qng/multipath_outgoing.go`.

Once a direct route is validated, the client points the send connection of path 0 at it.  When the route stops
answering, it goes back to the address it used before, and the route is refused for a while.
-/

namespace Iroh.Qng

open List

/-- `qntRemigrationCooldown`, in nanoseconds. -/
def qntRemigrationCooldown : ℕ := 30 * 1000000000

/-- The fields of `multipathOutgoing` about migration, with the remote address of the send connection. -/
structure QntMigration where
  remote : AddrPort
  migratedRemote : Option AddrPort
  premigrationRemote : Option AddrPort
  revertedRoute : Option AddrPort
  revertedRouteUntil : ℕ
deriving DecidableEq

namespace QntMigration

def new (remote : AddrPort) : QntMigration where
  remote := remote
  migratedRemote := none
  premigrationRemote := none
  revertedRoute := none
  revertedRouteUntil := 0

/-- `migrateOrdinarySendToQNTRoute`.  There is no result where it returns without migrating. -/
def migrateOrdinarySendToQNTRoute (m : QntMigration) (handshakeConfirmed : Bool)
    (route : Option AddrPort) (now : ℕ) : Option QntMigration :=
  match route with
  | none => none
  | some route =>
    if !handshakeConfirmed || route.port == 0 then none
    else if m.migratedRemote = some route ∨
        (m.revertedRoute = some route ∧ now < m.revertedRouteUntil) then none
    else
      some { m with
        premigrationRemote := some (m.premigrationRemote.getD m.remote)
        remote := route
        migratedRemote := some route }

/-- `revertQNTMigration`, with the route that is given up.  There is no result where nothing is
reverted. -/
def revertQNTMigration (m : QntMigration) (now : ℕ) : Option (AddrPort × QntMigration) :=
  match m.migratedRemote, m.premigrationRemote with
  | some route, some back =>
    some (route, { m with
        remote := back
        revertedRoute := some route
        revertedRouteUntil := now + qntRemigrationCooldown
        migratedRemote := none })
  | _, _ => none

end QntMigration

/-! ## Runs -/

namespace RouteMigration

/-- What happened to the send connection: it was pointed at a route, or taken off a route and pointed at
a remote address. -/
inductive Move where
  | migrated (route : AddrPort) (time : ℕ)
  | reverted (route : AddrPort) (time : ℕ) (remote : AddrPort)
deriving DecidableEq

inductive Call where
  | migrate (elapsed : ℕ) (handshakeConfirmed : Bool) (route : Option AddrPort)
  | revert (elapsed : ℕ)

structure Run where
  conn : QntMigration
  clock : ℕ
  moves : List Move

def Run.start (remote : AddrPort) : Run := ⟨.new remote, 0, []⟩

def step (s : Run) : Call → Run
  | .migrate elapsed handshakeConfirmed route =>
    match s.conn.migrateOrdinarySendToQNTRoute handshakeConfirmed route (s.clock + elapsed) with
    | none => { s with clock := s.clock + elapsed }
    | some conn => ⟨conn, s.clock + elapsed, .migrated conn.remote (s.clock + elapsed) :: s.moves⟩
  | .revert elapsed =>
    match s.conn.revertQNTMigration (s.clock + elapsed) with
    | none => { s with clock := s.clock + elapsed }
    | some (route, conn) =>
      ⟨conn, s.clock + elapsed, .reverted route (s.clock + elapsed) conn.remote :: s.moves⟩

/-- Whether a move respects an earlier one: a route that was reverted is not migrated to before its
cooldown is over. -/
def Move.Respects : Move → Move → Prop
  | .migrated route time, .reverted route' time' _ =>
    route = route' → time' + qntRemigrationCooldown ≤ time
  | _, _ => True

def Move.ReturnsTo (remote : AddrPort) : Move → Prop
  | .reverted _ _ back => back = remote
  | .migrated .. => True

def CooldownKept (moves : List Move) : Prop := moves.Pairwise Move.Respects

/-- A route is cooling down at a time: it was reverted less than `qntRemigrationCooldown` ago. -/
def CoolingDown (moves : List Move) (route : AddrPort) (now : ℕ) : Prop :=
  ∃ time remote, .reverted route time remote ∈ moves ∧ now < time + qntRemigrationCooldown

/-- If the call offers a usable route that is cooling down and that the connection is not on, then it is
the route reverted last. -/
def LastReverted (s : Run) : Call → Prop
  | .revert _ => True
  | .migrate elapsed handshakeConfirmed route =>
    ∀ r, route = some r → handshakeConfirmed = true → r.port ≠ 0 → s.conn.migratedRemote ≠ some r →
      CoolingDown s.moves r (s.clock + elapsed) → s.conn.revertedRoute = some r

/-! ## What a run keeps -/

/-- What the connection keeps of its moves agrees with their record. -/
structure Recorded (remote : AddrPort) (s : Run) : Prop where
  past : ∀ route time back, .reverted route time back ∈ s.moves → time ≤ s.clock
  slot : ∀ r, s.conn.revertedRoute = some r → ∀ route time back, .reverted route time back ∈ s.moves →
    time + qntRemigrationCooldown ≤ s.conn.revertedRouteUntil
  origin : s.conn.premigrationRemote.getD s.conn.remote = remote
  returns : ∀ move ∈ s.moves, move.ReturnsTo remote

lemma Recorded.start (remote : AddrPort) : Recorded remote (.start remote) where
  past _ _ _ h := by cases h
  slot _ h := by cases h
  origin := rfl
  returns _ h := by cases h

variable {remote : AddrPort} {s : Run}

lemma Recorded.wait (h : Recorded remote s) (elapsed : ℕ) :
    Recorded remote { s with clock := s.clock + elapsed } where
  past route time back hmem := Nat.le_trans (h.past route time back hmem) (Nat.le_add_right ..)
  slot := h.slot
  origin := h.origin
  returns := h.returns

variable {m m' : QntMigration} {now : ℕ}

lemma migrate_eq_some (h : m.migrateOrdinarySendToQNTRoute handshakeConfirmed route now = some m') :
    m'.revertedRoute = m.revertedRoute ∧ m'.revertedRouteUntil = m.revertedRouteUntil ∧
      m'.premigrationRemote = some (m.premigrationRemote.getD m.remote) := by
  unfold QntMigration.migrateOrdinarySendToQNTRoute at h
  split at h
  · cases h
  · split at h
    · cases h
    · split at h
      · cases h
      · cases h
        exact ⟨rfl, rfl, rfl⟩

lemma revert_eq_some (h : m.revertQNTMigration now = some (route, m')) :
    m'.revertedRouteUntil = now + qntRemigrationCooldown ∧
      m'.premigrationRemote = m.premigrationRemote ∧ m.premigrationRemote = some m'.remote := by
  unfold QntMigration.revertQNTMigration at h
  split at h
  next route' back hmigrated hback =>
    cases h
    exact ⟨rfl, rfl, hback⟩
  · cases h

lemma Recorded.step (h : Recorded remote s) (call : Call) : Recorded remote (step s call) := by
  cases call with
  | migrate elapsed handshakeConfirmed route =>
    simp only [RouteMigration.step]
    cases hm : s.conn.migrateOrdinarySendToQNTRoute handshakeConfirmed route (s.clock + elapsed) with
    | none => exact h.wait elapsed
    | some conn =>
      obtain ⟨hslot, huntil, hback⟩ := migrate_eq_some hm
      refine ⟨fun r time back hmem => ?_, fun r hr r' time back hmem => ?_, ?_, fun move hmem => ?_⟩
      · have hmem := (mem_cons.mp hmem).resolve_left (by simp)
        exact (h.wait elapsed).past r time back hmem
      · have hmem := (mem_cons.mp hmem).resolve_left (by simp)
        rw [huntil]
        exact h.slot r (hslot ▸ hr) r' time back hmem
      · rw [hback]
        exact h.origin
      · rcases mem_cons.mp hmem with rfl | hmem
        · trivial
        · exact h.returns move hmem
  | revert elapsed =>
    simp only [RouteMigration.step]
    cases hm : s.conn.revertQNTMigration (s.clock + elapsed) with
    | none => exact h.wait elapsed
    | some reverted =>
      obtain ⟨route, conn⟩ := reverted
      obtain ⟨huntil, hsame, hback⟩ := revert_eq_some hm
      have horigin : conn.remote = remote := by
        have := h.origin
        rw [hback] at this
        exact this
      have hpast : ∀ r time back, Move.reverted r time back ∈
          .reverted route (s.clock + elapsed) conn.remote :: s.moves → time ≤ s.clock + elapsed := by
        intro r time back hmem
        rcases mem_cons.mp hmem with heq | hmem
        · exact Nat.le_of_eq (Move.reverted.inj heq).2.1
        · exact (h.wait elapsed).past r time back hmem
      refine ⟨hpast, fun _ _ r time back hmem => ?_, ?_, fun move hmem => ?_⟩
      · rw [huntil]
        exact Nat.add_le_add_right (hpast r time back hmem) _
      · rw [hsame, hback]
        exact horigin
      · rcases mem_cons.mp hmem with rfl | hmem
        · exact horigin
        · exact h.returns move hmem

/-- **Every revert returns to the address from before the first migration.** -/
theorem returns_of_run (remote : AddrPort) (calls : List Call) :
    ∀ move ∈ (calls.foldl step (.start remote)).moves, move.ReturnsTo remote := by
  have hrun := eachState_of_inv (Recorded remote) (fun _ call h => h.step call) (.start remote) calls
  exact (hrun calls prefix_rfl).returns

/-! ## The cooldown -/

lemma migrate_eq_none_iff (hport : r.port ≠ 0) (hroute : m.migratedRemote ≠ some r) :
    m.migrateOrdinarySendToQNTRoute true (some r) now = none ↔
      m.revertedRoute = some r ∧ now < m.revertedRouteUntil := by
  simp [QntMigration.migrateOrdinarySendToQNTRoute, hport, hroute]

lemma usable_of_migrate (h : m.migrateOrdinarySendToQNTRoute handshakeConfirmed route now = some m') :
    route = some m'.remote ∧ handshakeConfirmed = true ∧ m'.remote.port ≠ 0 ∧
      m.migratedRemote ≠ some m'.remote := by
  unfold QntMigration.migrateOrdinarySendToQNTRoute at h
  split at h
  · cases h
  · split at h
    · cases h
    next husable =>
      split at h
      · cases h
      next hnew =>
        cases h
        simp only [Bool.or_eq_true, Bool.not_eq_true', beq_iff_eq, not_or, Bool.not_eq_false] at husable
        exact ⟨rfl, husable.1, husable.2, fun hr => hnew (.inl hr)⟩

lemma respects_iff_not_coolingDown :
    (∀ move ∈ moves, (Move.migrated r now).Respects move) ↔ ¬ CoolingDown moves r now := by
  constructor
  · rintro h ⟨time, remote, hmem, hlt⟩
    exact absurd (h _ hmem rfl) (Nat.not_le.mpr hlt)
  · intro h move hmem
    cases move with
    | migrated route time => trivial
    | reverted route time remote =>
      rintro rfl
      exact Nat.not_lt.mp fun hlt => h ⟨time, remote, hmem, hlt⟩

lemma cooldownKept_step_iff (h : Recorded remote s) (call : Call) :
    CooldownKept (step s call).moves ↔ CooldownKept s.moves ∧ LastReverted s call := by
  cases call with
  | revert elapsed =>
    refine Iff.trans ?_ (and_iff_left trivial).symm
    simp only [step]
    cases s.conn.revertQNTMigration (s.clock + elapsed) with
    | none => exact Iff.rfl
    | some reverted => exact pairwise_cons.trans (and_iff_right fun _ _ => trivial)
  | migrate elapsed handshakeConfirmed route =>
    simp only [step]
    cases hm : s.conn.migrateOrdinarySendToQNTRoute handshakeConfirmed route (s.clock + elapsed) with
    | none =>
      refine (and_iff_left ?_).symm
      rintro r rfl rfl hport hroute -
      exact ((migrate_eq_none_iff hport hroute).mp hm).1
    | some conn =>
      obtain ⟨rfl, rfl, hport, hroute⟩ := usable_of_migrate hm
      -- the route was not refused, so if it is the last reverted one, its cooldown is over
      have hfree : ¬ (s.conn.revertedRoute = some conn.remote ∧
          s.clock + elapsed < s.conn.revertedRouteUntil) := by
        rw [← migrate_eq_none_iff hport hroute, hm]
        exact Option.some_ne_none _
      refine pairwise_cons.trans (and_comm.trans (and_congr_right fun _ => ?_))
      rw [respects_iff_not_coolingDown]
      constructor
      · rintro hcool r ⟨⟩ - - - hcooling
        exact absurd hcooling hcool
      · rintro hlast ⟨time, back, hmem, hlt⟩
        have hslot := hlast conn.remote rfl rfl hport hroute ⟨time, back, hmem, hlt⟩
        have huntil := h.slot _ hslot _ time back hmem
        exact hfree ⟨hslot, Nat.lt_of_lt_of_le hlt huntil⟩

/-- **No route is retried during its cooldown, and every revert goes back to the first remote address,
exactly if every route that is offered while it is cooling down is the one that was reverted last.** -/
theorem cooldown_kept_iff_last_reverted (remote : AddrPort) (calls : List Call) :
    (CooldownKept (calls.foldl step (.start remote)).moves ∧
        ∀ move ∈ (calls.foldl step (.start remote)).moves, move.ReturnsTo remote) ↔
      EachStep step LastReverted (.start remote) calls := by
  have hrun := @foldl_iff_eachStep _ _ step _ LastReverted (Recorded remote) (fun s => CooldownKept s.moves)
    (fun _ call h => h.step call) (fun _ call h => cooldownKept_step_iff h call) (.start remote) calls
  rw [and_iff_left (returns_of_run remote calls)]
  exact hrun.trans (and_iff_right .nil)

/-- Two routes fail one after the other, and the first is tried again two seconds later. -/
def flappingRoutes : List Call :=
  [.migrate 0 true (some ⟨1, 1⟩), .revert 1000000000, .migrate 0 true (some ⟨2, 1⟩), .revert 1000000000,
    .migrate 1000000000 true (some ⟨1, 1⟩)]

/-- The second revert overwrites the slot, and the route reverted two seconds ago is migrated to. -/
theorem reverted_route_retried : (flappingRoutes.foldl step (.start ⟨9, 1⟩)).moves =
        [.migrated ⟨1, 1⟩ 3000000000, .reverted ⟨2, 1⟩ 2000000000 ⟨9, 1⟩, .migrated ⟨2, 1⟩ 1000000000,
          .reverted ⟨1, 1⟩ 1000000000 ⟨9, 1⟩, .migrated ⟨1, 1⟩ 0] ∧
      ¬ CooldownKept (flappingRoutes.foldl step (.start ⟨9, 1⟩)).moves := by
  have hmoves : (flappingRoutes.foldl step (.start ⟨9, 1⟩)).moves =
      [.migrated ⟨1, 1⟩ 3000000000, .reverted ⟨2, 1⟩ 2000000000 ⟨9, 1⟩, .migrated ⟨2, 1⟩ 1000000000,
        .reverted ⟨1, 1⟩ 1000000000 ⟨9, 1⟩, .migrated ⟨1, 1⟩ 0] := by
    decide
  refine ⟨hmoves, fun h => ?_⟩
  rw [hmoves] at h
  have hearly := (pairwise_cons.mp h).1 (.reverted ⟨1, 1⟩ 1000000000 ⟨9, 1⟩) (by decide) rfl
  exact absurd hearly (by decide)

end RouteMigration

end Iroh.Qng
