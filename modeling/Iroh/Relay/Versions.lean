import Iroh.Common.EState
import Iroh.Relay.Server

/-!
# Frames and versions

What a session is written was queued by the server, for the most part as the answer to a frame that the
server has parsed.  Such a frame is read back whatever the version; the one exception is the status that a
session is replaced, which exists from the second version on and is written without a look at the version.
-/

namespace Iroh.Relay

lemma toArray?_toList (v : Vector UInt8 n) : toArray? n v.toList = some v := by
  obtain ⟨a, rfl⟩ := v
  exact dif_pos a.length_toList

open List

variable {valid : Bytes32 → Bool}

/-! ## Reading frames back -/

lemma readFrameType_write (f : FrameType) (rest : Bytes) :
    readFrameType (writeFrameType f ++ rest) = .ok (f, rest) := by
  cases f <;> rfl

lemma endpointID_toList (id : EndpointID valid) : endpointID id.1.toList = .ok id := by
  unfold endpointID
  rw [toArray?_toList]
  exact dif_pos id.2

lemma datagramsFromBytes_appendTo (d : Datagrams) : datagramsFromBytes d.isBatch d.appendTo = .ok d := by
  obtain ⟨ecn, seg, contents⟩ := d
  have hecn : Fin.ofNat 4 (UInt8.ofNat ecn).toNat = ecn := by
    revert ecn
    decide
  by_cases hseg : seg = 0
  · subst hseg
    show Except.ok (Datagrams.mk (.ofNat 4 _) 0 contents) = _
    rw [hecn]
  · have hbytes : (UInt8.ofNat (seg.toNat / 256)).toNat * 256 + (UInt8.ofNat seg.toNat).toNat = seg.toNat := by
      have := seg.toNat_lt
      simp only [UInt8.toNat_ofNat']
      omega
    rw [Datagrams.isBatch, Datagrams.appendTo, if_pos hseg, decide_eq_true hseg]
    show Except.ok (Datagrams.mk _ (.ofNat _) _) = _
    rw [hecn, hbytes, UInt16.ofNat_toNat]
    rfl

def RelayToClientMsg.onWire : RelayToClientMsg valid → RelayToClientMsg valid
  | .datagram _ remote d => .datagram d.isBatch remote d
  | msg => msg

def RelayToClientMsg.FromServer : RelayToClientMsg valid → Prop
  | .datagram _ _ d => 32 + d.appendTo.length ≤ maxPacketSize
  | .endpointGone _ | .pong _ => True
  | .status s => s = statusSameEndpointIDConnected
  | _ => False

lemma idAndDatagrams_append (id : EndpointID valid) (d : Datagrams) :
    idAndDatagrams d.isBatch (id.1.toList ++ d.appendTo) = .ok (id, d) := by
  have hlen : ¬(id.1.toList ++ d.appendTo).length < 32 := by simp
  have htake : (id.1.toList ++ d.appendTo).take 32 = id.1.toList := take_left' (by simp)
  have hdrop : (id.1.toList ++ d.appendTo).drop 32 = d.appendTo := drop_left' (by simp)
  rw [idAndDatagrams, if_neg hlen, htake, hdrop, endpointID_toList, datagramsFromBytes_appendTo]
  rfl

lemma parse_appendTo {m : RelayToClientMsg valid} (h : m.FromServer) (version : ProtocolVersion) :
    parseRelayToClientMsg m.appendTo version = .ok m.onWire ↔
      ¬(version = .v1 ∧ m = .status statusSameEndpointIDConnected) := by
  have hsmall : ∀ n : ℕ, n ≤ 32 → ¬n > maxPacketSize := fun n hn => by
    unfold maxPacketSize
    omega
  cases m with
  | datagram batch id d =>
    refine iff_of_true ?_ (by simp)
    have hlen : ¬(id.1.toList ++ d.appendTo).length > maxPacketSize := by
      rw [length_append, length_toList32, not_lt]
      exact h
    have hread := idAndDatagrams_append id d
    rw [parseRelayToClientMsg, RelayToClientMsg.appendTo, readFrameType_write]
    refine (if_neg hlen).trans ?_
    rw [RelayToClientMsg.onWire]
    cases hbatch : d.isBatch with
    | false | true =>
      rw [hbatch] at hread
      rw [hread]
      rfl
  | endpointGone id =>
    refine iff_of_true ?_ (by simp)
    rw [parseRelayToClientMsg, RelayToClientMsg.appendTo, readFrameType_write]
    refine (if_neg (hsmall _ (length_toList32 _).le)).trans ((if_neg (by simp)).trans ?_)
    rw [endpointID_toList]
    rfl
  | pong p =>
    refine iff_of_true ?_ (by simp)
    rw [parseRelayToClientMsg, RelayToClientMsg.appendTo, readFrameType_write]
    refine (if_neg (hsmall _ (by simp))).trans ?_
    rw [fixed, toArray?_toList]
    rfl
  | status s =>
    obtain rfl := h
    cases version with
    | v1 => exact iff_of_false (by rintro ⟨⟩) (by simp)
    | v2 => exact iff_of_true rfl (by simp)
  | _ => exact h.elim

lemma length_of_datagramsFromBytes
    (h : datagramsFromBytes isBatch b = .ok d) : d.appendTo.length ≤ b.length := by
  unfold datagramsFromBytes at h
  split at h
  · obtain rfl := Except.ok.inj h
    grind [Datagrams.appendTo]
  · obtain rfl := Except.ok.inj h
    simp [Datagrams.appendTo]
  · cases h

lemma length_of_idAndDatagrams
    (h : idAndDatagrams isBatch rest = .ok p) : 32 + p.2.appendTo.length ≤ rest.length := by
  unfold idAndDatagrams at h
  split at h
  · cases h
  obtain ⟨id, -, h⟩ := except_bind_eq_ok.mp h
  obtain ⟨d, hd, h⟩ := except_bind_eq_ok.mp h
  obtain rfl := Except.ok.inj h
  have hlen := length_of_datagramsFromBytes hd
  rw [length_drop] at hlen
  show 32 + d.appendTo.length ≤ _
  omega

lemma length_of_parse
    (h : parseClientToRelayMsg content = .ok (.datagram dst d)) : 32 + d.appendTo.length ≤ maxPacketSize := by
  obtain ⟨⟨ft, rest⟩, -, h⟩ := except_bind_eq_ok.mp h
  dsimp only at h
  split at h
  · cases h
  rename_i hlen
  cases ft with
  | clientToRelayDatagram | clientToRelayDatagramBat =>
    obtain ⟨p, hp, h⟩ := except_bind_eq_ok.mp h
    cases h
    exact (length_of_idAndDatagrams hp).trans (not_lt.mp hlen)
  | ping | pong =>
    obtain ⟨p, hp, h⟩ := except_bind_eq_ok.mp h
    cases h
  | _ => cases h

/-! ## What the sessions hold -/

/-- All frames of the session are ones that the server makes. -/
structure Session.Fit (s : Session valid) : Prop where
  queued : ∀ m ∈ s.send, m.FromServer
  told : ∀ m ∈ s.replaced, m.FromServer
  wrote : ∀ m ∈ s.written, m.FromServer
  stage : ∀ j dst d, s.stage = .forwarding j dst d → 32 + d.appendTo.length ≤ maxPacketSize

namespace Server

def Fit (s : Server valid) : Prop := ∀ sess ∈ s.sessions, sess.Fit

variable {s : Server valid}

lemma Fit.update (h : s.Fit) (i : ℕ) (hf : ∀ sess, sess.Fit → (f sess).Fit) : (s.update i f).Fit := by
  intro sess hsess
  obtain ⟨j, hj⟩ := getElem?_of_mem hsess
  rw [Server.update, getElem?_modify, Option.map_eq_map, Option.map_eq_some_iff] at hj
  obtain ⟨sess', hsess', rfl⟩ := hj
  have hfit := h sess' (mem_of_getElem? hsess')
  split
  · exact hf sess' hfit
  · exact hfit

lemma Fit.enqueue (h : s.Fit) (i : ℕ) (hm : m.FromServer)
    (events : List (Event valid)) : (s.enqueue i m events).Fit := by
  unfold Server.enqueue
  split
  swap
  · exact h
  rename_i sess' heq
  obtain ⟨sess, hsess, henq⟩ := Option.bind_eq_some_iff.mp heq
  have hfit := h sess (mem_of_getElem? hsess)
  intro x hx
  rcases mem_or_eq_of_mem_set hx with hx | rfl
  · exact h x hx
  · unfold Session.enqueue at henq
    grind [Session.Fit]

lemma Fit.notify (h : s.Fit) (id peer : EndpointID valid) : (s.notify id peer).Fit := by
  unfold Server.notify
  split
  · exact h.enqueue _ (m := .endpointGone id) trivial _
  · exact h

lemma Fit.step (h : s.Fit) (a : Action valid) : (s.step a).Fit := by
  cases a with
  | register id version =>
    intro sess hsess
    rcases mem_append.mp hsess with hsess | hsess
    · exact h sess hsess
    · obtain rfl := mem_singleton.mp hsess
      cases hold : s.clients id <;> exact ⟨by simp, by simp, by simp, by simp⟩
  | replace i =>
    unfold Server.step Server.replace
    dsimp only
    split
    · refine (h.update _ fun sess hsess => ?_).update _ fun sess hsess => { hsess with stage := by simp }
      unfold Session.replace
      split
      · exact hsess
      · exact { hsess with told := by simp [RelayToClientMsg.FromServer] }
    · exact h
  | receive i content =>
    unfold Server.step Server.receive
    dsimp only
    split
    swap
    · exact h
    rename_i msg _ hmsg
    unfold Server.handleClientMsg
    split
    · split
      · exact h
      · refine h.update _ fun sess hsess => { hsess with stage := ?_ }
        rintro _ _ _ ⟨⟩
        exact length_of_parse hmsg
    · exact h.enqueue _ (m := .pong _) trivial _
    · exact h
  | forward i =>
    unfold Server.step Server.forward
    dsimp only
    split
    swap
    · exact h
    rename_i src hsrc
    split
    swap
    · exact h
    rename_i j dst d hstage
    have hm := (h src (mem_of_getElem? hsrc)).stage j dst d hstage
    exact (h.enqueue j (m := .datagram false src.id d) hm _).update i fun sess hsess => { hsess with stage := by simp }
  | unregister i =>
    unfold Server.step Server.unregister
    dsimp only
    split
    swap
    · exact h
    rename_i sess hsess
    split
    · exact h
    split
    · exact h.update i fun sess hsess => { hsess with stage := by simp }
    · have hfold := foldlRecOn (motive := Fit) sess.sentTo (Server.notify sess.id)
        (b := { s with clients := Function.update s.clients sess.id none }) h fun s hs peer _ => hs.notify _ peer
      exact hfold.update i fun sess hsess => { hsess with stage := by simp }
  | writeReplaced i =>
    refine h.update i fun sess hsess => ?_
    unfold Session.writeReplaced
    grind [Session.Fit]
  | writeNext i =>
    refine h.update i fun sess hsess => ?_
    unfold Session.writeNext
    grind [Session.Fit]

/-- Every frame written to a session is read as it was meant, in the version of the session. -/
def Understood (s : Server valid) : Prop :=
  ∀ sess ∈ s.sessions, ∀ m ∈ sess.written, parseRelayToClientMsg m.appendTo sess.version = .ok m.onWire

/-- **The frames of the server are understood exactly when no session of the first version was written that it
is replaced**, in every state of every run. -/
theorem understood_iff_no_status_in_v1 (valid : Bytes32 → Bool) (maxQueuedBytes : ℕ) (as : List (Action valid)) :
    (as.foldl step (new maxQueuedBytes)).Understood ↔
      ∀ sess ∈ (as.foldl step (new maxQueuedBytes)).sessions, sess.version = .v1 →
        .status statusSameEndpointIDConnected ∉ sess.written := by
  have hfit : (as.foldl step (new maxQueuedBytes)).Fit :=
    eachState_of_inv Fit (fun _ a h => h.step a) (fun _ h => by simp [new] at h) as as prefix_rfl
  refine forall₂_congr fun sess hsess => ?_
  have hread : ∀ m ∈ sess.written, (parseRelayToClientMsg m.appendTo sess.version = .ok m.onWire ↔
      ¬(sess.version = .v1 ∧ m = .status statusSameEndpointIDConnected)) :=
    fun m hm => parse_appendTo ((hfit sess hsess).wrote m hm) sess.version
  constructor
  · intro h hv hm
    exact (hread _ hm).mp (h _ hm) ⟨hv, rfl⟩
  · intro h m hm
    refine (hread m hm).mpr ?_
    rintro ⟨hv, rfl⟩
    exact h hv hm

/-- A session of the first version is replaced by one of the second. -/
theorem status_written_in_v1 :
    let id : EndpointID fun _ => true := ⟨Vector.replicate 32 0, rfl⟩
    let s := [.register id .v1, .register id .v2, .replace 1, .writeReplaced 0].foldl step (new 0)
    (s.sessions.head?.map (·.written) = some [.status 1]) ∧
      (parseRelayToClientMsg [13, 1] .v1 : Except _ (RelayToClientMsg fun _ => true)) =
        .error .frameNotAllowedInVersion ∧ ¬s.Understood := by
  refine ⟨rfl, rfl, fun h => ?_⟩
  have hread := h _ mem_cons_self (.status 1) mem_cons_self
  cases hread

end Server

end Iroh.Relay
