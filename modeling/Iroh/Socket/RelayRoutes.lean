import Iroh.Socket.RelayActor

/-!
# The routes of a relay

Reference: `internal/socket/relay_actor.go` (`hasRoute`, `noteRoute`, `dropRoute`, `handleFrameAt`).

An active relay keeps the endpoints that it has heard from.  A datagram from the endpoint that the last
datagram came from is not entered again.  An EndpointGone frame takes the endpoint out of the table, but
the relay still remembers it as the last source, and so does not enter it when it comes back.
-/

namespace Iroh.Socket

open List

/-! ## Since the last frame of a kind -/

section Since

variable {α : Type*} {p : List α → α → Prop} {stop : α}

/-- An element that satisfies `p` after what came before it is followed by no `stop`. -/
def Since (p : List α → α → Prop) (stop : α) (l : List α) : Prop :=
  ∃ pre x post, l = pre ++ x :: post ∧ p pre x ∧ stop ∉ post

lemma not_since_nil : ¬Since p stop [] := by
  rintro ⟨pre, x, post, h, -⟩
  simp at h

lemma since_concat : Since p stop (l ++ [y]) ↔ p l y ∨ (y ≠ stop ∧ Since p stop l) := by
  constructor
  · rintro ⟨pre, x, post, heq, hx, hpost⟩
    rcases eq_nil_or_concat' post with rfl | ⟨post, z, rfl⟩
    · obtain ⟨rfl, hy⟩ := append_inj' heq rfl
      obtain rfl := singleton_inj.mp hy
      exact .inl hx
    · rw [← cons_append, ← append_assoc] at heq
      obtain ⟨rfl, hy⟩ := append_inj' heq rfl
      obtain rfl := singleton_inj.mp hy
      rw [mem_append, mem_singleton, not_or] at hpost
      exact .inr ⟨Ne.symm hpost.2, pre, x, post, rfl, hx, hpost.1⟩
  · rintro (hy | ⟨hne, pre, x, post, rfl, hx, hpost⟩)
    · exact ⟨l, y, [], rfl, hy, not_mem_nil⟩
    · refine ⟨pre, x, post ++ [y], by simp, hx, ?_⟩
      rw [mem_append, mem_singleton, not_or]
      exact ⟨hpost, Ne.symm hne⟩

lemma Since.imp (hpq : ∀ pre x, p pre x → q pre x) (h : Since p stop l) : Since q stop l := by
  obtain ⟨pre, x, post, heq, hx, hpost⟩ := h
  exact ⟨pre, x, post, heq, hpq pre x hx, hpost⟩

end Since

def RelayToClientMsg.source : RelayToClientMsg → Option EndpointID
  | .datagram eid _ | .datagramBatch eid _ => some eid
  | _ => none

def lastSource (frames : List RelayToClientMsg) : Option EndpointID :=
  (frames.filterMap RelayToClientMsg.source).getLast?

/-- A datagram from the endpoint was handled after the last time that it was reported gone. -/
def Heard (frames : List RelayToClientMsg) (eid : EndpointID) : Prop :=
  Since (fun _ m => m.source = some eid) (.endpointGone eid) frames

/-- One of these datagrams was the first of all, or the datagram before it came from another endpoint. -/
def HeardAnew (frames : List RelayToClientMsg) (eid : EndpointID) : Prop :=
  Since (fun pre m => m.source = some eid ∧ lastSource pre ≠ some eid) (.endpointGone eid) frames

lemma HeardAnew.heard (h : HeardAnew frames eid) : Heard frames eid :=
  h.imp fun _ _ hx => hx.1

lemma lastSource_concat (frames : List RelayToClientMsg) (m : RelayToClientMsg) :
    lastSource (frames ++ [m]) = m.source.or (lastSource frames) := by
  rw [lastSource]
  cases hm : m.source with
  | none => simp [hm, lastSource]
  | some eid => simp [hm]

/-! ## The table -/

namespace ActiveRelay

variable {r : ActiveRelay}

lemma hasRoute_noteRoute :
    (r.noteRoute eid).hasRoute e = true ↔ r.hasRoute e = true ∨ (e = eid ∧ r.lastSrc ≠ some eid) := by
  unfold noteRoute
  split
  next hlast => simp [hlast]
  next hlast =>
    simp only [hasRoute, GoMap.contains_iff, GoMap.mem_keys_set, hlast, not_false_eq_true, Ne, and_true]
    exact Or.comm

lemma hasRoute_dropRoute : (r.dropRoute eid).hasRoute e = true ↔ e ≠ eid ∧ r.hasRoute e = true := by
  simp [hasRoute, dropRoute]

lemma lastSrc_handleRoutes (r : ActiveRelay) (m : RelayToClientMsg) :
    (r.handleRoutes m).lastSrc = m.source.or r.lastSrc := by
  have hnote : ∀ eid, (r.noteRoute eid).lastSrc = some eid := by
    intro eid
    unfold noteRoute
    split
    · assumption
    · rfl
  cases m with
  | datagram eid d | datagramBatch eid d => exact hnote eid
  | _ => rfl

lemma hasRoute_handleRoutes (m : RelayToClientMsg) (e : EndpointID) :
    (r.handleRoutes m).hasRoute e = true ↔
      (m.source = some e ∧ r.lastSrc ≠ some e) ∨ (m ≠ .endpointGone e ∧ r.hasRoute e = true) := by
  have hnote : ∀ eid, (r.noteRoute eid).hasRoute e = true ↔
      (some eid = some e ∧ r.lastSrc ≠ some e) ∨ r.hasRoute e = true := by
    intro eid
    rw [hasRoute_noteRoute, or_comm, Option.some.injEq, @eq_comm _ e eid]
    refine or_congr_left (and_congr_right ?_)
    rintro rfl
    rfl
  cases m with
  | datagram eid d | datagramBatch eid d =>
    simpa [handleRoutes, RelayToClientMsg.source] using hnote eid
  | endpointGone eid =>
    simp [handleRoutes, RelayToClientMsg.source, hasRoute_dropRoute, @eq_comm _ e eid]
  | _ => simp [handleRoutes, RelayToClientMsg.source]

def afterFrames (url : RelayURL) (home : Bool) (frames : List RelayToClientMsg) : ActiveRelay :=
  frames.foldl handleRoutes (new url home)

variable {url : RelayURL} {home : Bool}

variable (frames : List RelayToClientMsg)

lemma afterFrames_concat (m : RelayToClientMsg) :
    afterFrames url home (frames ++ [m]) = (afterFrames url home frames).handleRoutes m := by
  rw [afterFrames, foldl_append]
  rfl

lemma lastSrc_afterFrames : (afterFrames url home frames).lastSrc = lastSource frames := by
  induction frames using reverseRecOn with
  | nil => rfl
  | append_singleton frames m ih => rw [afterFrames_concat, lastSrc_handleRoutes, ih, lastSource_concat]

/-- **What the table holds**: the endpoints that were heard anew since they were reported gone. -/
theorem hasRoute_afterFrames (e : EndpointID) :
    (afterFrames url home frames).hasRoute e = true ↔ HeardAnew frames e := by
  induction frames using reverseRecOn with
  | nil => exact iff_of_false (by simp [afterFrames, new, hasRoute]) not_since_nil
  | append_singleton frames m ih =>
    rw [afterFrames_concat, hasRoute_handleRoutes, lastSrc_afterFrames, ih]
    unfold HeardAnew
    rw [since_concat]

/-- **When the table reflects what was heard**: every endpoint that was heard since it was last reported
gone was heard anew. -/
theorem routes_reflect_iff_heard_anew (url : RelayURL) (home : Bool) (frames : List RelayToClientMsg) :
    (∀ e, (afterFrames url home frames).hasRoute e = true ↔ Heard frames e) ↔
      ∀ e, Heard frames e → HeardAnew frames e := by
  simp only [hasRoute_afterFrames]
  exact forall_congr' fun e => ⟨fun h => h.mpr, fun h => ⟨HeardAnew.heard, h⟩⟩

def goneAndBack : List RelayToClientMsg := [.datagram 1 [], .endpointGone 1, .datagram 1 []]

/-- The relay has no route to it. -/
theorem no_route_after_return :
    Heard goneAndBack 1 ∧ (afterFrames 0 false goneAndBack).hasRoute 1 = false := by
  refine ⟨⟨[.datagram 1 [], .endpointGone 1], .datagram 1 [], [], rfl, rfl, not_mem_nil⟩, ?_⟩
  decide

end ActiveRelay

end Iroh.Socket
