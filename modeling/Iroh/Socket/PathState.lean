import Iroh.Common.GoMap
import Mathlib.Data.Int.Order.Basic

/-!
# The paths to a remote

Reference: `internal/socket/path_state.go`, the timeouts of `internal/socket/remote_state.go`.

The table has one entry for each address that may reach the remote.  It is keyed by `Addr.String()`, and
nothing here asks more of an address than its key and whether it belongs to a relay (`PathAddr`).  An
entry is always stored under the key of its own address, which is a field of the table.

A `time.Time` is a number of nanoseconds, and the zero time is `0`.
-/

namespace Iroh.Socket

universe u v

/-- What the path table asks of an `Addr`: `pathKey` and `isRelayAddr`. -/
class PathAddr (α : Type u) (κ : outParam (Type v)) where
  pathKey : α → κ
  isRelayAddr : α → Bool

open PathAddr

/-- `PathStatus`; `opened` is `PathStatusOpen`. -/
inductive PathStatus where
  | unknown
  | opened
  | inactive
  | unusable
deriving DecidableEq

structure PathState where
  status : PathStatus
  lastActive : ℤ
  closedAt : ℤ
deriving DecidableEq

structure PathEntry (α : Type u) where
  addr : α
  state : PathState
  provenance : String
deriving DecidableEq

def pathMaxIdleTimeout : ℤ := 15 * 1000000000

def relayPathMaxIdleTimeout : ℤ := 30 * 1000000000

def maxNonRelayPaths : ℕ := 30

def maxInactiveNonRelayPaths : ℕ := 10

def PathState.close (s : PathState) (now : ℤ) : PathState :=
  match s.status with
  | .opened | .inactive => { s with status := .inactive, closedAt := now }
  | .unusable | .unknown => { s with status := .unusable }

namespace PathEntry

variable {α : Type u} {κ : Type v} [PathAddr α κ]

/-- The timeout that `ExpireIdle` applies to a path. -/
def idleTimeout (e : PathEntry α) : ℤ :=
  if isRelayAddr e.addr then relayPathMaxIdleTimeout else pathMaxIdleTimeout

/-- `ExpireIdle` closes the path. -/
def Idle (e : PathEntry α) (now : ℤ) : Prop :=
  e.state.status = .opened ∧ e.state.lastActive ≠ 0 ∧ e.idleTimeout ≤ now - e.state.lastActive

instance (e : PathEntry α) (now : ℤ) : Decidable (e.Idle now) := by
  unfold Idle
  infer_instance

/-- What `ExpireIdle` leaves of a path. -/
def expire (e : PathEntry α) (now : ℤ) : PathEntry α :=
  if e.Idle now then { e with state := { e.state with status := .inactive, closedAt := now } } else e

@[simp] lemma addr_expire (e : PathEntry α) (now : ℤ) : (e.expire now).addr = e.addr := by
  unfold expire
  split <;> rfl

lemma idleTimeout_pos (e : PathEntry α) : 0 < e.idleTimeout := by
  unfold idleTimeout
  split <;> decide

lemma not_idle_of_le {e : PathEntry α} (h : now ≤ e.state.lastActive) : ¬e.Idle now := by
  rintro ⟨-, -, hidle⟩
  have hpos := e.idleTimeout_pos
  omega

end PathEntry

structure RemotePathState (α : Type u) (κ : Type v) [DecidableEq κ] [PathAddr α κ] where
  paths : GoMap κ (PathEntry α)
  keyed : ∀ k e, paths.get? k = some e → pathKey e.addr = k

namespace RemotePathState

variable {α : Type u} {κ : Type v} [DecidableEq κ] [PathAddr α κ]

def new : RemotePathState α κ := ⟨.empty, by simp⟩

/-- The store `p.paths[k] = e` under the key of `e.addr`. -/
def put (p : RemotePathState α κ) (e : PathEntry α) : RemotePathState α κ where
  paths := p.paths.set (pathKey e.addr) e
  keyed := by
    intro k e' h
    rw [GoMap.get?_set] at h
    split at h
    next hk =>
      cases h
      exact hk.symm
    · exact p.keyed k e' h

@[simp] lemma get?_put (p : RemotePathState α κ) (e : PathEntry α) (k : κ) :
    (p.put e).paths.get? k = if k = pathKey e.addr then some e else p.paths.get? k :=
  GoMap.get?_set _ _ _ _

/-- The lookup `p.paths[pathKey(addr)]`. -/
def entryAt? (p : RemotePathState α κ) (addr : α) : Option (PathEntry α) := p.paths.get? (pathKey addr)

lemma pathKey_of_entryAt? {p : RemotePathState α κ}
    (h : p.entryAt? addr = some e) : pathKey e.addr = pathKey addr :=
  p.keyed _ e h

def status (p : RemotePathState α κ) (addr : α) : Option PathStatus :=
  (p.entryAt? addr).map fun e => e.state.status

def addWithProvenance (p : RemotePathState α κ) (addr : α) (provenance : String) :
    RemotePathState α κ :=
  match p.entryAt? addr with
  | some e => if e.provenance = "" ∧ provenance ≠ "" then p.put { e with provenance } else p
  | none => p.put ⟨addr, ⟨.unknown, 0, 0⟩, provenance⟩

def add (p : RemotePathState α κ) (addr : α) : RemotePathState α κ := p.addWithProvenance addr ""

def setOpenAt (p : RemotePathState α κ) (addr : α) (now : ℤ) : RemotePathState α κ :=
  p.put ⟨addr, ⟨.opened, now, 0⟩, ((p.entryAt? addr).map (·.provenance)).getD ""⟩

def setClosed (p : RemotePathState α κ) (addr : α) (now : ℤ) : RemotePathState α κ :=
  match p.entryAt? addr with
  | none => p
  | some e => p.put { e with state := e.state.close now }

/-- `ExpireIdle`: the table after the loop, and the addresses it has closed. -/
def expireIdle (p : RemotePathState α κ) (now : ℤ) : RemotePathState α κ × List α :=
  (⟨p.paths.rangeUpdate fun _ e => e.expire now, by
      intro k e h
      rw [GoMap.get?_rangeUpdate, Option.map_eq_some_iff] at h
      obtain ⟨e', he', rfl⟩ := h
      rw [PathEntry.addr_expire]
      exact p.keyed k e' he'⟩,
    (p.paths.values.filter fun e => e.Idle now).map (·.addr))

/-- The keys of the paths that `Prune` calls failed. -/
def failed (p : RemotePathState α κ) : List κ :=
  (p.paths.toList.filter fun e => !isRelayAddr e.2.addr && e.2.state.status = .unusable).map Prod.fst

def inactive (p : RemotePathState α κ) : List (κ × ℤ) :=
  let entries := p.paths.toList.filter fun e =>
    !isRelayAddr e.2.addr && e.2.state.status = .inactive
  (entries.map fun e => (e.1, e.2.state.closedAt)).mergeSort fun x y => y.2 ≤ x.2

/-- The keys that `Prune` deletes once there are too many paths. -/
def pruned (p : RemotePathState α κ) : List κ :=
  -- if every path failed, some of them are kept
  let failed := if p.failed.length = p.paths.len then
    p.failed.take (p.paths.len - maxNonRelayPaths) else p.failed
  failed ++ (p.inactive.drop maxInactiveNonRelayPaths).map Prod.fst

def prune (p : RemotePathState α κ) : RemotePathState α κ :=
  if p.paths.len < maxNonRelayPaths then p
  else if (p.paths.values.filter fun e => !isRelayAddr e.addr).length < maxNonRelayPaths then p
  else
    ⟨p.paths.rangeDelete fun k _ => k ∈ p.pruned, by
      intro k e h
      rw [GoMap.get?_rangeDelete, Option.filter_eq_some_iff] at h
      exact p.keyed k e h.1⟩

/-! ## Lookups -/

variable {p : RemotePathState α κ} {addr : α} {now : ℤ}

lemma entryAt?_put (e : PathEntry α) :
    (p.put e).entryAt? addr = if pathKey addr = pathKey e.addr then some e else p.entryAt? addr :=
  get?_put p e _

lemma entryAt?_setOpenAt_self (p : RemotePathState α κ) (addr : α) (now : ℤ) :
    ∃ e, (p.setOpenAt addr now).entryAt? addr = some e ∧ e.state = ⟨.opened, now, 0⟩ :=
  ⟨_, by rw [setOpenAt, entryAt?_put, if_pos rfl], rfl⟩

lemma get?_setClosed_ne {k : κ} (h : k ≠ pathKey addr) :
    (p.setClosed addr now).paths.get? k = p.paths.get? k := by
  unfold setClosed
  cases hentry : p.entryAt? addr with
  | none => rfl
  | some e =>
    have hkey := pathKey_of_entryAt? hentry
    simp [hkey, if_neg h]

theorem mem_expireIdle :
    x ∈ (p.expireIdle now).2 ↔ ∃ e, p.entryAt? x = some e ∧ e.addr = x ∧ e.Idle now := by
  simp only [expireIdle, List.mem_map, List.mem_filter, GoMap.mem_values_iff, decide_eq_true_eq]
  constructor
  · rintro ⟨e, ⟨⟨k, hk⟩, hidle⟩, rfl⟩
    refine ⟨e, ?_, rfl, hidle⟩
    rw [entryAt?, p.keyed k e hk]
    exact hk
  · rintro ⟨e, he, rfl, hidle⟩
    exact ⟨e, ⟨⟨_, he⟩, hidle⟩, rfl⟩

end RemotePathState

end Iroh.Socket
