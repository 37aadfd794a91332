import Iroh.Common.Runs
import Iroh.Socket.RemoteState

/-!
# Idle paths

Reference: `internal/socket/remote_state.go` (`reselect`, `syncMultipathPathsLocked`),
`internal/socket/path_state.go` (`ExpireIdle`).

`reselect` refreshes the own address of every connection and then closes the paths that were not refreshed for
their timeout.  A path that a connection reports is opened by `syncMultipathPathsLocked` when it is not open,
and left alone when it is: its time is the one at which it was first seen.
-/

namespace Iroh.Socket

open PathAddr List

universe u v w

variable {α : Type u} {κ : Type v} {γ : Type w} [DecidableEq κ] [PathAddr α κ] [DecidableEq γ]

namespace RemotePathState

/-! ## What the loop does to the table -/

def IsOpen (p : RemotePathState α κ) (k : κ) : Prop :=
  ∃ e, p.paths.get? k = some e ∧ e.state.status = .opened

/-- The path is open, and was active at `t` or later. -/
def OpenSince (p : RemotePathState α κ) (k : κ) (t : ℤ) : Prop :=
  ∃ e, p.paths.get? k = some e ∧ e.state.status = .opened ∧ t ≤ e.state.lastActive

lemma OpenSince.isOpen {p : RemotePathState α κ} (h : p.OpenSince k t) : p.IsOpen k := by
  obtain ⟨e, he, hopen, -⟩ := h
  exact ⟨e, he, hopen⟩

def Refreshed (now : ℤ) (own : κ → Prop) (p p' : RemotePathState α κ) : Prop :=
  ∀ k, p'.paths.get? k = p.paths.get? k ∨ p'.OpenSince k now ∧ (own k ∨ ¬p.IsOpen k)

variable {now t : ℤ} {own : κ → Prop} {p p' p'' : RemotePathState α κ} {k : κ} {addr : α}

lemma Refreshed.refl (now : ℤ) (own : κ → Prop) (p : RemotePathState α κ) : Refreshed now own p p :=
  fun _ => .inl rfl

lemma Refreshed.isOpen (h : Refreshed now own p p') (hk : p.IsOpen k) : p'.IsOpen k := by
  rcases h k with heq | ⟨hopen, -⟩
  · unfold IsOpen
    rw [heq]
    exact hk
  · exact hopen.isOpen

lemma Refreshed.openSince (h : Refreshed now own p p') (hk : p.OpenSince k now) :
    p'.OpenSince k now := by
  rcases h k with heq | ⟨hopen, -⟩
  · unfold OpenSince
    rw [heq]
    exact hk
  · exact hopen

lemma Refreshed.trans (h : Refreshed now own p p') (h' : Refreshed now own p' p'') :
    Refreshed now own p p'' := by
  intro k
  rcases h' k with heq' | ⟨hopen', hwhy⟩
  · rcases h k with heq | ⟨hopen, hwhy⟩
    · exact .inl (heq'.trans heq)
    · exact .inr ⟨h'.openSince hopen, hwhy⟩
  · exact .inr ⟨hopen', hwhy.imp_right fun hclosed hopen => hclosed (h.isOpen hopen)⟩

lemma openSince_setOpenAt (ht : now ≤ t) : (p.setOpenAt addr t).OpenSince (pathKey addr) now := by
  obtain ⟨e, he, hstate⟩ := entryAt?_setOpenAt_self p addr t
  refine ⟨e, he, ?_, ?_⟩
  · rw [hstate]
  · rw [hstate]
    exact ht

lemma refreshed_setOpenAt (ht : now ≤ t) (hwhy : own (pathKey addr) ∨ ¬p.IsOpen (pathKey addr)) :
    Refreshed now own p (p.setOpenAt addr t) := by
  intro k
  by_cases hk : k = pathKey addr
  · subst hk
    exact .inr ⟨openSince_setOpenAt ht, hwhy⟩
  · left
    rw [setOpenAt, get?_put, if_neg hk]

lemma status_eq_opened : p.status addr = some .opened ↔ p.IsOpen (pathKey addr) := by
  rw [status, Option.map_eq_some_iff]
  rfl

end RemotePathState

namespace RemoteStateActor

open RemotePathState

/-! ## The loop of `reselect` -/

/-- Paths are refreshed, the ticks go on and the connections stay. -/
structure Onward (now : ℤ) (own : κ → Prop) (a a' : RemoteStateActor α κ γ) : Prop where
  paths : Refreshed now own a.paths a'.paths
  ticks : a.ticks ≤ a'.ticks
  conns : ∀ conn, a'.conns.get? conn = none ↔ a.conns.get? conn = none

variable {env : Surroundings α γ} {now : ℤ} {own : κ → Prop} {a a' a'' : RemoteStateActor α κ γ}

lemma Onward.refl (now : ℤ) (own : κ → Prop) (a : RemoteStateActor α κ γ) : Onward now own a a :=
  ⟨.refl now own _, le_rfl, fun _ => Iff.rfl⟩

lemma Onward.trans (h : Onward now own a a') (h' : Onward now own a' a'') : Onward now own a a'' :=
  ⟨h.paths.trans h'.paths, h.ticks.trans h'.ticks, fun conn => (h'.conns conn).trans (h.conns conn)⟩

lemma Onward.le_clock (h : Onward now own a a') (hnow : now ≤ env.clock a.ticks) :
    now ≤ env.clock a'.ticks :=
  hnow.trans (env.monotone h.ticks)

lemma onward_syncPath (own : κ → Prop) (hnow : now ≤ env.clock r.1.ticks) (conn : γ) (p : PathInfo α) :
    Onward now own r.1 (syncPath env conn r p).1 := by
  have hconns : ∀ c, (r.1.recordPath conn p.addr).conns.get? c = none ↔ r.1.conns.get? c = none := by
    intro c
    rw [recordPath, GoMap.get?_rangeUpdate, Option.map_eq_none_iff]
  unfold syncPath
  split
  · exact .refl now own _
  · simp only
    split
    · exact ⟨.refl now own _, le_rfl, hconns⟩
    next hclosed =>
      rw [status_eq_opened] at hclosed
      exact ⟨refreshed_setOpenAt hnow (.inr hclosed), Nat.le_succ _, hconns⟩

lemma isOpen_syncPath {r : RemoteStateActor α κ γ × List α}
    (hvalidated : p.validated = true) (haddr : p.hasAddr = true) :
    (syncPath env conn r p).1.paths.IsOpen (pathKey p.addr) := by
  rw [syncPath, if_neg (by simp [hvalidated, haddr])]
  simp only
  split
  next hopen => exact status_eq_opened.mp hopen
  · exact (openSince_setOpenAt le_rfl).isOpen

lemma onward_foldl_syncPath (own : κ → Prop) (conn : γ) (paths : List (PathInfo α))
    (r : RemoteStateActor α κ γ × List α) (hnow : now ≤ env.clock r.1.ticks) :
    Onward now own r.1 (paths.foldl (syncPath env conn) r).1 := by
  refine foldlRecOn (motive := fun r' : _ × List α => Onward now own r.1 r'.1) paths _
    (.refl now own _) ?_
  intro r' h p _
  exact h.trans (onward_syncPath own (h.le_clock hnow) conn p)

lemma isOpen_foldl_syncPath {paths : List (PathInfo α)}
    (hp : p ∈ paths) (hvalidated : p.validated = true) (haddr : p.hasAddr = true)
    (r : RemoteStateActor α κ γ × List α) (hnow : now ≤ env.clock r.1.ticks) :
    (paths.foldl (syncPath env conn) r).1.paths.IsOpen (pathKey p.addr) := by
  obtain ⟨before, after, rfl⟩ := append_of_mem hp
  rw [foldl_append]
  have hbefore := onward_foldl_syncPath (fun _ => True) conn before r hnow
  have hstep := onward_syncPath (fun _ => True) (hbefore.le_clock hnow) conn p
  have hafter := onward_foldl_syncPath (fun _ => True) conn after _
    (hstep.le_clock (hbefore.le_clock hnow))
  exact hafter.paths.isOpen (isOpen_syncPath hvalidated haddr)

lemma onward_visit (hnow : now ≤ env.clock r.actor.ticks)
    (hown : own (pathKey snap.addr)) : Onward now own r.actor (visit env now r snap).actor := by
  unfold visit
  split
  · exact .refl now own _
  · have hopened : Onward now own r.actor
        { r.actor with paths := r.actor.paths.setOpenAt snap.addr now } :=
      ⟨refreshed_setOpenAt le_rfl (.inl hown), le_rfl, fun _ => Iff.rfl⟩
    have hsynced := onward_foldl_syncPath own snap.conn snap.paths
      ({ r.actor with paths := r.actor.paths.setOpenAt snap.addr now }, []) hnow
    exact hopened.trans hsynced

lemma openSince_visit (hnow : now ≤ env.clock r.actor.ticks) (snap : Snapshot α γ)
    (hconn : r.actor.conns.get? snap.conn ≠ none) :
    (visit env now r snap).actor.paths.OpenSince (pathKey snap.addr) now ∧
      ∀ p ∈ snap.paths, p.validated = true → p.hasAddr = true →
        (visit env now r snap).actor.paths.IsOpen (pathKey p.addr) := by
  unfold visit
  split
  next hnone => exact absurd hnone hconn
  · constructor
    · exact (onward_foldl_syncPath (fun _ => True) snap.conn snap.paths _ hnow).paths.openSince
        (openSince_setOpenAt le_rfl)
    · intro p hp hvalidated haddr
      exact isOpen_foldl_syncPath hp hvalidated haddr _ hnow

lemma onward_foldl_visit {snaps : List (Snapshot α γ)} (hown : ∀ s ∈ snaps, own (pathKey s.addr))
    (r : Round α κ γ) (hnow : now ≤ env.clock r.actor.ticks) :
    Onward now own r.actor (snaps.foldl (visit env now) r).actor := by
  refine foldlRecOn (motive := fun r' : Round α κ γ => Onward now own r.actor r'.actor) snaps _
    (.refl now own _) ?_
  intro r' h s hs
  exact h.trans (onward_visit (h.le_clock hnow) (hown s hs))

/-! ## Paths in use -/

def Owned (a : RemoteStateActor α κ γ) (k : κ) : Prop :=
  ∃ conn cs, a.conns.get? conn = some cs ∧ pathKey cs.addr = k

def Reported (a : RemoteStateActor α κ γ) (obs : Observed α γ) (k : κ) : Prop :=
  ∃ conn cs, a.conns.get? conn = some cs ∧
    ∃ p ∈ obs.paths conn, p.validated = true ∧ p.hasAddr = true ∧ pathKey p.addr = k

/-- The address is in use by a connection in the snapshot that `reselect` takes. -/
def InUse (a : RemoteStateActor α κ γ) (obs : Observed α γ) (k : κ) : Prop :=
  a.Owned k ∨ a.Reported obs k

/-- No path in use is due to expire: one that is reported, and is no connection's own address, was not
recorded as open for its timeout or longer. -/
def NoneDue (env : Surroundings α γ) (a : RemoteStateActor α κ γ) (obs : Observed α γ) : Prop :=
  ∀ k, a.Reported obs k → ¬a.Owned k → ∀ e, a.paths.paths.get? k = some e →
    ¬e.Idle (env.clock a.ticks)

/-- `reselect` expires no path in use. -/
def ExpiresUnused (env : Surroundings α γ) (a : RemoteStateActor α κ γ) (obs : Observed α γ) : Prop :=
  ∀ x ∈ (a.expireIdle env obs).2, ¬a.InUse obs (pathKey x)

variable {obs : Observed α γ}

lemma owned_of_mem_snapshots (hs : s ∈ a.connectionPathSnapshots obs) : a.Owned (pathKey s.addr) := by
  obtain ⟨e, he, rfl⟩ := mem_map.mp hs
  exact ⟨e.1, e.2, GoMap.get?_eq_some.mpr he, rfl⟩

lemma onward_refresh (env : Surroundings α γ) (a : RemoteStateActor α κ γ) (obs : Observed α γ) :
    Onward (env.clock a.ticks) a.Owned { a with ticks := a.ticks + 1 } (a.refresh env obs).actor := by
  have hstart : env.clock a.ticks ≤ env.clock (a.ticks + 1) := env.monotone (Nat.le_succ _)
  exact onward_foldl_visit (fun _ hs => owned_of_mem_snapshots hs)
    ⟨{ a with ticks := a.ticks + 1 }, [], []⟩ hstart

lemma refresh_spec {conn : γ} (hconn : a.conns.get? conn = some cs) :
    (a.refresh env obs).actor.paths.OpenSince (pathKey cs.addr) (env.clock a.ticks) ∧
      ∀ p ∈ obs.paths conn, p.validated = true → p.hasAddr = true →
        (a.refresh env obs).actor.paths.IsOpen (pathKey p.addr) := by
  have hsnap : (⟨conn, cs.addr, obs.rtt conn, obs.paths conn⟩ : Snapshot α γ) ∈
      a.connectionPathSnapshots obs :=
    mem_map.mpr ⟨(conn, cs), GoMap.get?_eq_some.mp hconn, rfl⟩
  obtain ⟨before, after, hsplit⟩ := append_of_mem hsnap
  have hown : ∀ s ∈ before ++ ⟨conn, cs.addr, obs.rtt conn, obs.paths conn⟩ :: after,
      a.Owned (pathKey s.addr) := by
    intro s hs
    rw [← hsplit] at hs
    exact owned_of_mem_snapshots hs
  rw [forall_mem_append, forall_mem_cons] at hown
  rw [refresh, hsplit, foldl_append]
  have hstart : env.clock a.ticks ≤ env.clock (a.ticks + 1) := env.monotone (Nat.le_succ _)
  have hbefore := onward_foldl_visit hown.1 ⟨{ a with ticks := a.ticks + 1 }, [], []⟩ hstart
  have hnow := hbefore.le_clock hstart
  have hstep := onward_visit hnow hown.2.1
  have hafter := onward_foldl_visit hown.2.2 _ (hstep.le_clock hnow)
  -- the connection is still registered when it is visited
  have hregistered : (before.foldl (visit env (env.clock a.ticks))
      ⟨{ a with ticks := a.ticks + 1 }, [], []⟩).actor.conns.get? conn ≠ none := by
    rw [Ne, hbefore.conns conn, hconn]
    exact Option.some_ne_none cs
  obtain ⟨hown, hpaths⟩ := openSince_visit hnow ⟨conn, cs.addr, obs.rtt conn, obs.paths conn⟩
    hregistered
  refine ⟨hafter.paths.openSince hown, fun p hp hvalidated haddr => ?_⟩
  exact hafter.paths.isOpen (hpaths p hp hvalidated haddr)

lemma idle_in_use (huse : a.InUse obs k)
    (he : (a.refresh env obs).actor.paths.paths.get? k = some e) (hidle : e.Idle (env.clock a.ticks)) :
    a.Reported obs k ∧ ¬a.Owned k ∧ a.paths.paths.get? k = some e := by
  have hrefreshed := (onward_refresh env a obs).paths k
  have hstale : ¬(a.refresh env obs).actor.paths.OpenSince k (env.clock a.ticks) := by
    rintro ⟨e', he', -, hactive⟩
    cases he.symm.trans he'
    exact PathEntry.not_idle_of_le hactive hidle
  have hnot : ¬a.Owned k := by
    rintro ⟨conn, cs, hconn, rfl⟩
    exact hstale (refresh_spec hconn).1
  refine ⟨huse.resolve_left hnot, hnot, ?_⟩
  rcases hrefreshed with heq | ⟨hopen, -⟩
  · exact heq.symm.trans he
  · exact absurd hopen hstale

lemma get?_refresh_of_isOpen (hopen : a.paths.IsOpen k) (hnot : ¬a.Owned k) :
    (a.refresh env obs).actor.paths.paths.get? k = a.paths.paths.get? k := by
  rcases (onward_refresh env a obs).paths k with heq | ⟨-, hown | hclosed⟩
  · exact heq
  · exact absurd hown hnot
  · exact absurd hopen hclosed

lemma expiresUnused_iff : a.ExpiresUnused env obs ↔ a.NoneDue env obs := by
  constructor
  · intro h k hreported hnot e he hidle
    have hafter : (a.refresh env obs).actor.paths.paths.get? k = some e :=
      (get?_refresh_of_isOpen ⟨e, he, hidle.1⟩ hnot).trans he
    have hkey := (a.refresh env obs).actor.paths.keyed k e hafter
    refine h e.addr (mem_expireIdle.mpr ⟨e, ?_, rfl, hidle⟩) ?_
    · rw [entryAt?, hkey]
      exact hafter
    · rw [hkey]
      exact .inr hreported
  · intro h x hx huse
    obtain ⟨e, he, rfl, hidle⟩ := mem_expireIdle.mp hx
    obtain ⟨hreported, hnot, hbefore⟩ := idle_in_use huse he hidle
    exact h _ hreported hnot e hbefore hidle

/-- The state in which a call comes to `reselect`, and what the connections report there. -/
def reselecting (env : Surroundings α γ) (a : RemoteStateActor α κ γ) :
    Call α κ γ → Option (RemoteStateActor α κ γ × Observed α γ)
  | .addConnection conn addr paths obs => some (a.register env conn addr paths, obs)
  | .resolved addr provenance obs => some (a.resolve addr provenance, obs)
  | .reselect obs => some (a, obs)
  | _ => none

/-- **No path in use expires exactly in the runs in which none is due when `reselect` runs.** -/
theorem expires_unused_iff_none_due (env : Surroundings α γ) (a : RemoteStateActor α κ γ)
    (calls : List (Call α κ γ)) :
    EachStep (step env)
        (fun a call => ∀ s ∈ a.reselecting env call, s.1.ExpiresUnused env s.2) a calls ↔
      EachStep (step env) (fun a call => ∀ s ∈ a.reselecting env call, s.1.NoneDue env s.2) a calls := by
  refine eachStep_congr (fun _ => True) (fun _ _ _ => trivial) ?_ trivial calls
  intro a call _
  exact forall₂_congr fun s _ => expiresUnused_iff

/-! ### Heartbeats

A connection over a relay reports a direct path.  It is registered, and the actor reselects every five
seconds. -/

def relayedAddr : Addr := .relay 0 0

def directAddr : Addr := .ip ⟨1, 7⟩

def directReport : Observed Addr Unit := ⟨fun _ => 0, fun _ => [⟨true, directAddr, true, 0, false⟩]⟩

/-- The clock is read three times when the connection is registered, and once for each heartbeat. -/
def heartbeats : Surroundings Addr Unit where
  clock := fun n => 1 + 5 * 1000000000 * ((n - 2 : ℕ) : ℤ)
  monotone := by
    intro m n h
    dsimp only
    omega
  selector := fun current _ => current
  multipathNegotiated := fun _ => true
  natTraversal := fun _ => true

def tenSeconds : List (Call Addr Addr Unit) :=
  [.addConnection () relayedAddr (directReport.paths ()) directReport, .reselect directReport,
    .reselect directReport]

/-- The third heartbeat closes the direct path, which the connection still reports. -/
theorem reported_path_expires : ¬EachStep (step heartbeats)
      (fun a call => ∀ s ∈ a.reselecting heartbeats call, s.1.ExpiresUnused heartbeats s.2) new
      (tenSeconds ++ [.reselect directReport]) := by
  intro h
  have hlast := h tenSeconds (.reselect directReport) prefix_rfl _ rfl
  refine hlast directAddr (by decide) (.inr ⟨(), ⟨relayedAddr, [directAddr]⟩, ?_, ?_⟩)
  · decide
  · exact ⟨⟨true, directAddr, true, 0, false⟩, mem_cons_self, rfl, rfl, rfl⟩

end RemoteStateActor

end Iroh.Socket
