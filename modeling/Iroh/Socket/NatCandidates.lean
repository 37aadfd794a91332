import Iroh.Common.Runs
import Iroh.Socket.RemoteState

/-!
# Local candidates

Reference: `internal/socket/remote_state.go` (`AddNATTraversalAddresses`, `seedNATTraversalAddresses`).

A connection that is registered is given all local candidates.  When the candidates change, the difference is
applied to one connection, the first that the loop over the map meets.  So each of the others keeps what it
held.
-/

namespace Iroh.Socket

open PathAddr List GoMap
open Qng (AddrPort NetipAddrPort)

universe u v w

/-! ## Canonical addresses -/

lemma canonicalNATAddr_plain
    (h : canonicalNATAddr addr = some canon) : canonicalNATAddr (.plain canon) = some canon := by
  cases addr with
  | invalid => cases h
  | _ =>
    rw [canonicalNATAddr] at h
    split at h
    · cases h
    · cases h
      rename_i hport
      exact if_neg hport

lemma mem_natCandidates : x ∈ natCandidates addrs ↔ ∃ addr ∈ addrs, canonicalNATAddr addr = some x := by
  induction addrs using reverseRecOn with
  | nil => simp [natCandidates]
  | append_singleton addrs addr ih =>
    have hlast : natCandidates (addrs ++ [addr]) = (canonicalNATAddr addr).elim (natCandidates addrs)
        fun canon => appendUniqueNATAddr (natCandidates addrs) (.plain canon) := by
      rw [natCandidates, foldl_append, foldl_cons, foldl_nil]
      cases canonicalNATAddr addr <;> rfl
    simp only [mem_append, mem_singleton, or_and_right, exists_or, exists_eq_left, ← ih, hlast]
    cases hcanon : canonicalNATAddr addr with
    | none => simp
    | some canon =>
      simp only [Option.elim_some, appendUniqueNATAddr, canonicalNATAddr_plain hcanon, Option.some.injEq]
      split
      next hmem =>
        refine ⟨.inl, fun h => h.elim id ?_⟩
        rintro rfl
        exact hmem
      · rw [mem_append, mem_singleton, @eq_comm _ canon x]

namespace RemoteStateActor

variable {α : Type u} {κ : Type v} {γ : Type w} [DecidableEq κ] [PathAddr α κ] [DecidableEq γ]

/-! ## What leaves the candidates alone -/

/-- The candidates stay as they are. -/
structure SameNAT (a a' : RemoteStateActor α κ γ) : Prop where
  conns : ∀ conn, conn ∈ a'.conns.keys ↔ conn ∈ a.conns.keys
  localNAT : a'.localNAT = a.localNAT
  held : a'.held = a.held

variable {env : Surroundings α γ} {a a' a'' : RemoteStateActor α κ γ}

omit [DecidableEq γ] in
lemma SameNAT.refl (a : RemoteStateActor α κ γ) : SameNAT a a := ⟨fun _ => Iff.rfl, rfl, rfl⟩

omit [DecidableEq γ] in
lemma SameNAT.trans (h : SameNAT a a') (h' : SameNAT a' a'') : SameNAT a a'' :=
  ⟨fun conn => (h'.conns conn).trans (h.conns conn), h'.localNAT.trans h.localNAT,
    h'.held.trans h.held⟩

lemma sameNAT_syncPath (conn : γ) (r : RemoteStateActor α κ γ × List α) (p : PathInfo α) :
    SameNAT r.1 (syncPath env conn r p).1 := by
  have hconns : ∀ c, c ∈ (r.1.recordPath conn p.addr).conns.keys ↔ c ∈ r.1.conns.keys := by
    intro c
    simp only [mem_keys_iff, recordPath, get?_rangeUpdate, Option.map_eq_some_iff]
    constructor
    · rintro ⟨_, cs, hcs, _⟩
      exact ⟨cs, hcs⟩
    · rintro ⟨cs, hcs⟩
      exact ⟨_, cs, hcs, rfl⟩
  unfold syncPath
  split
  · exact .refl _
  · simp only
    split
    · exact ⟨hconns, rfl, rfl⟩
    · exact ⟨hconns, rfl, rfl⟩

lemma sameNAT_syncMultipathPathsLocked (env : Surroundings α γ) (a : RemoteStateActor α κ γ)
    (conn : γ) (paths : List (PathInfo α)) : SameNAT a (a.syncMultipathPathsLocked env conn paths).1 := by
  refine foldlRecOn (motive := fun r : _ × List α => SameNAT a r.1) paths _ (.refl a) ?_
  intro r h p _
  exact h.trans (sameNAT_syncPath conn r p)

lemma sameNAT_refresh (env : Surroundings α γ) (a : RemoteStateActor α κ γ) (obs : Observed α γ) :
    SameNAT a (a.refresh env obs).actor := by
  refine foldlRecOn (motive := fun r : Round α κ γ => SameNAT a r.actor)
    (a.connectionPathSnapshots obs) _ ⟨fun _ => Iff.rfl, rfl, rfl⟩ ?_
  intro r h snap _
  refine h.trans ?_
  unfold visit
  split
  · exact .refl _
  · have hsynced := sameNAT_syncMultipathPathsLocked env
      { r.actor with paths := r.actor.paths.setOpenAt snap.addr (env.clock a.ticks) } snap.conn
      snap.paths
    exact ⟨hsynced.conns, hsynced.localNAT, hsynced.held⟩

lemma sameNAT_reselect (env : Surroundings α γ) (a : RemoteStateActor α κ γ) (obs : Observed α γ) :
    SameNAT a (a.reselect env obs) := by
  obtain ⟨hconns, hlocal, hheld⟩ := sameNAT_refresh env a obs
  unfold reselect
  simp only
  split
  · exact ⟨hconns, hlocal, hheld⟩
  · split
    · exact ⟨hconns, hlocal, hheld⟩
    · exact ⟨hconns, hlocal, hheld⟩

/-! ## What the connections hold -/

/-- Only what one connection holds changes. -/
structure OnlyHeld (conn : γ) (a a' : RemoteStateActor α κ γ) : Prop where
  conns : a'.conns = a.conns
  localNAT : a'.localNAT = a.localNAT
  others : ∀ c, c ≠ conn → a'.held c = a.held c

lemma foldl_addHeld (conn : γ) (addrs : List AddrPort) : ∀ a : RemoteStateActor α κ γ,
      OnlyHeld conn a (addrs.foldl (fun a addr => a.addHeld conn addr) a) ∧
        ∀ x, x ∈ (addrs.foldl (fun a addr => a.addHeld conn addr) a).held conn ↔
          x ∈ a.held conn ∨ x ∈ addrs := by
  induction addrs with
  | nil => exact fun a => ⟨⟨rfl, rfl, fun _ _ => rfl⟩, by simp⟩
  | cons addr addrs ih =>
    intro a
    obtain ⟨honly, hmem⟩ := ih (a.addHeld conn addr)
    refine ⟨⟨honly.conns, honly.localNAT, fun c hc => ?_⟩, fun x => ?_⟩
    · rw [foldl_cons, honly.others c hc]
      exact if_neg hc
    · have hadd : x ∈ (a.addHeld conn addr).held conn ↔ x ∈ a.held conn ∨ x = addr := by
        simp only [addHeld, if_true]
        split
        next hin =>
          refine ⟨.inl, fun h => h.elim id ?_⟩
          rintro rfl
          exact hin
        · rw [mem_append, mem_singleton]
      rw [foldl_cons, hmem x, hadd, mem_cons, or_assoc]

lemma foldl_removeHeld (conn : γ) (addrs : List AddrPort) : ∀ a : RemoteStateActor α κ γ,
      OnlyHeld conn a (addrs.foldl (fun a addr => a.removeHeld conn addr) a) ∧
        ∀ x, x ∈ (addrs.foldl (fun a addr => a.removeHeld conn addr) a).held conn ↔
          x ∈ a.held conn ∧ x ∉ addrs := by
  induction addrs with
  | nil => exact fun a => ⟨⟨rfl, rfl, fun _ _ => rfl⟩, by simp⟩
  | cons addr addrs ih =>
    intro a
    obtain ⟨honly, hmem⟩ := ih (a.removeHeld conn addr)
    refine ⟨⟨honly.conns, honly.localNAT, fun c hc => ?_⟩, fun x => ?_⟩
    · rw [foldl_cons, honly.others c hc]
      exact if_neg hc
    · have hremove : x ∈ (a.removeHeld conn addr).held conn ↔ x ∈ a.held conn ∧ x ≠ addr := by
        simp [removeHeld]
      rw [foldl_cons, hmem x, hremove, mem_cons, not_or, and_assoc]

def Traversing (env : Surroundings α γ) (a : RemoteStateActor α κ γ) (conn : γ) : Prop :=
  conn ∈ a.conns.keys ∧ env.multipathNegotiated conn = true ∧ env.natTraversal conn = true

def Advertised (env : Surroundings α γ) (a : RemoteStateActor α κ γ) : Prop :=
  ∀ conn, a.Traversing env conn → ∀ x, x ∈ a.held conn ↔ x ∈ a.localNAT

def Alone (env : Surroundings α γ) (a : RemoteStateActor α κ γ) : Call α κ γ → Prop
  | .addNATTraversalAddresses addrs =>
    (∀ x, x ∈ natCandidates addrs ↔ x ∈ a.localNAT) ∨
      ∀ c d, a.Traversing env c → a.Traversing env d → c = d
  | _ => True

omit [DecidableEq γ] in
lemma SameNAT.advertised (h : SameNAT a a') (ha : a.Advertised env) : a'.Advertised env := by
  rintro conn ⟨hconn, hneg⟩ x
  rw [h.held, h.localNAT]
  exact ha conn ⟨(h.conns conn).mp hconn, hneg⟩ x

lemma seedNATTraversalAddresses_spec (env : Surroundings α γ) (a : RemoteStateActor α κ γ) (conn : γ)
    (candidates : List AddrPort) : OnlyHeld conn a (a.seedNATTraversalAddresses env conn candidates) ∧
      (env.multipathNegotiated conn = true ∧ env.natTraversal conn = true →
        ∀ x, x ∈ (a.seedNATTraversalAddresses env conn candidates).held conn ↔
          x ∈ a.held conn ∨ x ∈ candidates) := by
  have hsame : OnlyHeld conn a a := ⟨rfl, rfl, fun _ _ => rfl⟩
  unfold seedNATTraversalAddresses
  split
  next hneg => exact ⟨hsame, fun h => by simp [h.1] at hneg⟩
  · split
    next hneg => exact ⟨hsame, fun h => by simp [h.2] at hneg⟩
    · obtain ⟨honly, hmem⟩ := foldl_addHeld conn candidates a
      exact ⟨honly, fun _ => hmem⟩

lemma advertised_seed (ha : a.Advertised env) (hsame : SameNAT (a.enter conn addr) a') :
    (a'.seedNATTraversalAddresses env conn a'.localNAT).Advertised env := by
  obtain ⟨honly, hmem⟩ := seedNATTraversalAddresses_spec env a' conn a'.localNAT
  rintro c ⟨hc, hneg⟩ x
  have hc' : c = conn ∨ c ∈ a.conns.keys := by
    rw [honly.conns, hsame.conns, enter, mem_keys_set] at hc
    exact hc
  have hlocal : a'.localNAT = a.localNAT := hsame.localNAT
  have hheld : a'.held c = if c = conn ∧ a.conns.contains conn = false then [] else a.held c := by
    rw [hsame.held]
    rfl
  rw [honly.localNAT]
  by_cases hcc : c = conn
  · subst hcc
    rw [hmem hneg, hheld, hlocal]
    split
    · simp
    next hknown =>
      have hin : c ∈ a.conns.keys := by
        simpa [← GoMap.contains_iff] using hknown
      rw [ha c ⟨hin, hneg⟩ x, or_self]
  · rw [honly.others c hcc, hheld, if_neg fun h => hcc h.1, hlocal]
    exact ha c ⟨hc'.resolve_left hcc, hneg⟩ x

lemma advertised_register (ha : a.Advertised env) (conn : γ) (addr : α) (paths : List (PathInfo α)) :
    (a.register env conn addr paths).Advertised env := by
  obtain ⟨hconns, hlocal, hheld⟩ := sameNAT_syncMultipathPathsLocked env
    ((a.enter conn addr).setOpen env addr) conn paths
  have hsame : SameNAT (a.enter conn addr) ((a.enter conn addr).openPaths env conn addr paths).1 :=
    ⟨hconns, hlocal, hheld⟩
  exact advertised_seed ha hsame

/-! ## Updates -/

omit [DecidableEq γ] in
lemma traversing_of_natTarget (h : a.natTarget env = some target) : a.Traversing env target := by
  have hflags := find?_some h
  rw [Bool.and_eq_true] at hflags
  exact ⟨mem_of_find?_eq_some h, hflags⟩

omit [DecidableEq γ] in
lemma not_traversing_of_natTarget (h : a.natTarget env = none) (conn : γ) : ¬a.Traversing env conn := by
  rintro ⟨hconn, hflags⟩
  have hnot := find?_eq_none.mp h conn hconn
  rw [Bool.and_eq_true] at hnot
  exact hnot hflags

lemma updateHeld_spec (a : RemoteStateActor α κ γ) (target : γ) (removed added : List AddrPort) :
    OnlyHeld target a (a.updateHeld target removed added) ∧
      ∀ x, x ∈ (a.updateHeld target removed added).held target ↔
        (x ∈ a.held target ∧ x ∉ removed) ∨ x ∈ added := by
  obtain ⟨hfewer, hmem⟩ := foldl_removeHeld target removed a
  obtain ⟨hmore, hmem'⟩ := foldl_addHeld target added
    (removed.foldl (fun a addr => a.removeHeld target addr) a)
  refine ⟨⟨hmore.conns.trans hfewer.conns, hmore.localNAT.trans hfewer.localNAT, fun c hc => ?_⟩,
    fun x => ?_⟩
  · exact (hmore.others c hc).trans (hfewer.others c hc)
  · rw [updateHeld, hmem', hmem]

/-- **One update.**  All connections hold the new candidates exactly when these are the old ones, or there
is no connection but the one that is updated. -/
theorem advertised_addNATTraversalAddresses (ha : a.Advertised env) (addrs : List NetipAddrPort) :
    (a.addNATTraversalAddresses env addrs).Advertised env ↔
      a.Alone env (.addNATTraversalAddresses addrs) := by
  unfold addNATTraversalAddresses
  split
  case h_1 hnone =>
    -- there is no connection to update
    have hno := not_traversing_of_natTarget hnone
    exact iff_of_true (fun conn hconn => absurd hconn (hno conn))
      (.inr fun c _ hc => absurd hc (hno c))
  case h_2 target htarget =>
    have htraversing := traversing_of_natTarget htarget
    obtain ⟨honly, hmem⟩ := updateHeld_spec { a with localNAT := natCandidates addrs } target
      (a.localNAT.filter fun addr => addr ∉ natCandidates addrs)
      ((natCandidates addrs).filter fun addr => addr ∉ a.localNAT)
    -- what each connection holds after the update
    have hupdated : ∀ c, a.Traversing env c → ∀ x, x ∈ (updateHeld
        { a with localNAT := natCandidates addrs } target
        (a.localNAT.filter fun addr => addr ∉ natCandidates addrs)
        ((natCandidates addrs).filter fun addr => addr ∉ a.localNAT)).held c ↔
          if c = target then x ∈ natCandidates addrs else x ∈ a.localNAT := by
      intro c hc x
      split
      next hcc =>
        subst hcc
        rw [hmem]
        simp only [ha c hc x, mem_filter, decide_eq_true_eq]
        tauto
      next hcc =>
        rw [honly.others c hcc]
        exact ha c hc x
    generalize updateHeld { a with localNAT := natCandidates addrs } target
      (a.localNAT.filter fun addr => addr ∉ natCandidates addrs)
      ((natCandidates addrs).filter fun addr => addr ∉ a.localNAT) = b at honly hupdated
    have hlocal : b.localNAT = natCandidates addrs := honly.localNAT
    have htrav : ∀ c, b.Traversing env c ↔ a.Traversing env c := by
      intro c
      rw [Traversing, honly.conns]
      rfl
    simp only [Advertised, htrav, hlocal]
    constructor
    · intro h
      by_cases hone : ∀ c, a.Traversing env c → c = target
      · exact .inr fun c d hc hd => (hone c hc).trans (hone d hd).symm
      · push Not at hone
        obtain ⟨c, hc, hne⟩ := hone
        refine .inl fun x => ?_
        rw [← h c hc x, hupdated c hc x, if_neg hne]
    · rintro (hsame | hone) c hc x
      · rw [hupdated c hc x, hsame x, ite_self]
      · rw [hupdated c hc x, if_pos (hone c target hc htraversing)]

lemma advertised_step (ha : a.Advertised env) (call : Call α κ γ) :
    (a.step env call).Advertised env ↔ a.Alone env call := by
  cases call with
  | addConnection conn addr paths obs =>
    exact iff_of_true ((sameNAT_reselect env _ obs).advertised (advertised_register ha conn addr paths))
      trivial
  | connClosed conn =>
    refine iff_of_true ?_ trivial
    rw [step, handleConnClosed]
    split
    · exact ha
    · rintro c ⟨hc, hneg⟩ x
      rw [send, mem_keys_delete] at hc
      exact ha c ⟨hc.2, hneg⟩ x
  | resolve addrs => exact iff_of_true ha trivial
  | resolved addr provenance obs =>
    have hresolve : SameNAT a (a.resolve addr provenance) := ⟨fun _ => Iff.rfl, rfl, rfl⟩
    exact iff_of_true ((sameNAT_reselect env _ obs).advertised (hresolve.advertised ha)) trivial
  | reselect obs => exact iff_of_true ((sameNAT_reselect env a obs).advertised ha) trivial
  | addNATTraversalAddresses addrs => exact advertised_addNATTraversalAddresses ha addrs
  | rangeOrder paths conns =>
    refine iff_of_true ?_ trivial
    rintro c ⟨hc, hneg⟩ x
    rw [step, mem_keys_iff, get?_arrange, ← mem_keys_iff] at hc
    exact ha c ⟨hc, hneg⟩ x

/-! ## Runs -/

def Call.given : Call α κ γ → Option (List NetipAddrPort)
  | .addNATTraversalAddresses addrs => some addrs
  | _ => none

def lastGiven (calls : List (Call α κ γ)) : List NetipAddrPort :=
  (calls.reverse.findSome? Call.given).getD []

lemma localNAT_step (env : Surroundings α γ) (a : RemoteStateActor α κ γ) (call : Call α κ γ) :
    (a.step env call).localNAT = match call.given with
      | some addrs => natCandidates addrs
      | none => a.localNAT := by
  cases call with
  | addConnection conn addr paths obs =>
    have hsynced := sameNAT_syncMultipathPathsLocked env ((a.enter conn addr).setOpen env addr) conn paths
    have hseed := (seedNATTraversalAddresses_spec env
      ((a.enter conn addr).openPaths env conn addr paths).1 conn
      ((a.enter conn addr).openPaths env conn addr paths).1.localNAT).1
    exact (sameNAT_reselect env _ obs).localNAT.trans (hseed.localNAT.trans hsynced.localNAT)
  | connClosed conn =>
    rw [step, handleConnClosed]
    split <;> rfl
  | resolved addr provenance obs => exact (sameNAT_reselect env (a.resolve addr provenance) obs).localNAT
  | reselect obs => exact (sameNAT_reselect env a obs).localNAT
  | addNATTraversalAddresses addrs =>
    rw [step, addNATTraversalAddresses]
    split
    · rfl
    · exact (updateHeld_spec _ _ _ _).1.localNAT
  | _ => rfl

lemma mem_localNAT_foldl (env : Surroundings α γ) (calls : List (Call α κ γ)) (x : AddrPort) :
    x ∈ (calls.foldl (step env) new).localNAT ↔
      ∃ addr ∈ lastGiven calls, canonicalNATAddr addr = some x := by
  rw [← mem_natCandidates]
  induction calls using reverseRecOn with
  | nil => rfl
  | append_singleton calls call ih =>
    rw [foldl_append, foldl_cons, foldl_nil, localNAT_step, lastGiven,
      reverse_append, reverse_singleton, singleton_append, findSome?_cons]
    cases call.given with
    | none => exact ih
    | some addrs => rfl

/-- **All connections stay up to date exactly in the runs in which each call that changes the candidates meets
at most one connection.** -/
theorem advertised_iff_alone (env : Surroundings α γ) (calls : List (Call α κ γ)) :
    (∀ pre, pre <+: calls → ∀ conn, (pre.foldl (step env) new).Traversing env conn →
        ∀ x, x ∈ (pre.foldl (step env) new).held conn ↔
          ∃ addr ∈ lastGiven pre, canonicalNATAddr addr = some x) ↔
      EachStep (step env) (Alone env) (new : RemoteStateActor α κ γ) calls := by
  have hiff : EachState (step env) (Advertised env) (new : RemoteStateActor α κ γ) calls ↔
      EachStep (step env) (Alone env) new calls := by
    refine eachState_iff_of_good ?_ ?_ calls
    · exact fun a call ha => advertised_step ha call
    · exact fun _ _ _ => Iff.rfl
  rw [← hiff]
  simp only [EachState, Advertised, mem_localNAT_foldl]

def allNegotiated : Surroundings Addr ℕ where
  clock := fun n => n
  monotone := monotone_ticks
  selector := fun current _ => current
  multipathNegotiated := fun _ => true
  natTraversal := fun _ => true

def oneUpdate : List (Call Addr Addr ℕ) :=
  [.addConnection 0 (.relay 0 0) [] ⟨fun _ => 0, fun _ => []⟩,
    .addConnection 1 (.relay 0 0) [] ⟨fun _ => 0, fun _ => []⟩,
    .addNATTraversalAddresses [.plain ⟨1, 7⟩]]

/-- The second connection does not hold the address. -/
theorem candidate_missing_on_second :
    (oneUpdate.foldl (step allNegotiated) new).Traversing allNegotiated 1 ∧
      lastGiven oneUpdate = [.plain ⟨1, 7⟩] ∧
        (oneUpdate.foldl (step allNegotiated) new).held 1 = [] := by
  refine ⟨⟨?_, rfl, rfl⟩, rfl, ?_⟩
  · decide
  · decide

end RemoteStateActor

end Iroh.Socket
