import Iroh.Relay.Server

/-!
# Who is told that an endpoint is gone

A session notes whom it has sent a datagram to, and when it leaves these are told that its endpoint is gone.
A datagram of another session of the endpoint is not in its notes: the clients that only a replaced session
wrote to are not told, nor are those that it writes to when the endpoint is already gone.
-/

namespace Iroh.Relay

open List

variable {valid : Bytes32 → Bool}

/-- What a departure reads of a session. -/
structure Note (valid : Bytes32 → Bool) where
  id : EndpointID valid
  sentTo : List (EndpointID valid)
  stage : Stage valid

def Session.note (s : Session valid) : Note valid := ⟨s.id, s.sentTo, s.stage⟩

/-- A datagram of `id` was queued for `client` since it is registered, and since then not that `id` is gone. -/
def Awaits (id client : EndpointID valid) : List (Event valid) → Prop
  | [] => False
  | .forwarded _ src dst :: events => (src = id ∧ dst = client) ∨ Awaits id client events
  | .gone gone dst :: events => ¬(gone = id ∧ dst = client) ∧ Awaits id client events
  | .arrived arrived :: events => arrived ≠ client ∧ Awaits id client events

instance decidableAwaits (id client : EndpointID valid) :
    (events : List (Event valid)) → Decidable (Awaits id client events)
  | [] => inferInstanceAs (Decidable False)
  | .forwarded _ _ _ :: events | .gone _ _ :: events | .arrived _ :: events =>
    have := decidableAwaits id client events
    by unfold Awaits; infer_instance

namespace Server

def notes (s : Server valid) : List (Note valid) := s.sessions.map Session.note

/-- Session `i` has sent a datagram to `client`. -/
def Forwarded (s : Server valid) (i : ℕ) (client : EndpointID valid) : Prop :=
  ∃ src, .forwarded i src client ∈ s.events

/-- Session `i` leaves as the registered one of its endpoint. -/
def Departs (s : Server valid) (a : Action valid) (i : ℕ) (n : Note valid) : Prop :=
  a = .unregister i ∧ s.notes[i]? = some n ∧ n.stage = .reading ∧ s.clients n.id = some i

/-- No queue was full, and every session has room for more destinations. -/
def Ample (s : Server valid) : Prop := s.dropped = false ∧ ∀ n ∈ s.notes, n.sentTo.length < maxSentTo

variable {s : Server valid} {i : ℕ}

/-! ## What a step does -/

lemma notes_update (hn : s.notes[i]? = some n)
    (g : Note valid → Note valid) (h : ∀ x, (f x).note = g x.note) :
    (s.update i f).notes = s.notes.set i (g n) := by
  refine ext_getElem? fun j => ?_
  simp only [notes, update, getElem?_map, getElem?_set] at hn ⊢
  grind

lemma notes_update_same (h : ∀ x, (f x).note = x.note) : (s.update i f).notes = s.notes := by
  refine ext_getElem? fun j => ?_
  simp only [notes, update]
  grind

/-- A frame for which there is room is queued. -/
lemma enqueue_of_room {events : List (Event valid)} (hroom : (s.enqueue i m events).dropped = false) :
    s.dropped = false ∧ (s.enqueue i m events).clients = s.clients ∧ (s.enqueue i m events).notes = s.notes ∧
      (s.enqueue i m events).events = events ++ s.events := by
  unfold enqueue at hroom ⊢
  split at hroom
  next sess' heq =>
    obtain ⟨sess, hsess, henq⟩ := Option.bind_eq_some_iff.mp heq
    have hnote : sess'.note = sess.note := by
      unfold Session.enqueue at henq
      grind [Session.note]
    refine ⟨hroom, rfl, ext_getElem? fun j => ?_, rfl⟩
    simp only [notes, getElem?_map]
    grind
  · cases hroom

/-- Telling the peers queues one notice for each that is registered. -/
lemma foldl_notify {id : EndpointID valid} {peers : List (EndpointID valid)}
    (hroom : (peers.foldl (notify id) s).dropped = false) :
    s.dropped = false ∧ (peers.foldl (notify id) s).clients = s.clients ∧
      (peers.foldl (notify id) s).notes = s.notes ∧ (peers.foldl (notify id) s).events =
        ((peers.filter fun p => (s.clients p).isSome).map (.gone id)).reverse ++ s.events := by
  induction peers generalizing s with
  | nil => exact ⟨hroom, rfl, rfl, rfl⟩
  | cons p peers ih =>
    rw [foldl_cons] at hroom ⊢
    obtain ⟨hroom', hclients, hnotes, hevents⟩ := ih hroom
    cases hp : s.clients p with
    | none =>
      have hsame : notify id s p = s := by rw [notify, hp]
      rw [hsame] at hroom' hclients hnotes hevents ⊢
      rw [filter_cons_of_neg (by simp [hp])]
      exact ⟨hroom', hclients, hnotes, hevents⟩
    | some j =>
      have hsame : notify id s p = s.enqueue j (.endpointGone id) [.gone id p] := by rw [notify, hp]
      rw [hsame] at hroom' hclients hnotes hevents ⊢
      obtain ⟨hs, hc, hn, he⟩ := enqueue_of_room hroom'
      rw [filter_cons_of_pos (by simp [hp]), hclients, hnotes, hevents, hc, he]
      exact ⟨hs, rfl, hn, by simp⟩

/-- How the note of session `i` changes, with the events of the step. -/
inductive Turn (i : ℕ) : Note valid → Note valid → List (Event valid) → Prop where
  | stage {n : Note valid} {stage : Stage valid} {events : List (Event valid)}
      (hold : ∀ j dst d, n.stage ≠ .forwarding j dst d) (hstage : ∀ j dst d, stage ≠ .forwarding j dst d)
      (hevents : ∀ j src dst, .forwarded j src dst ∉ events) : Turn i n { n with stage } events
  | noted {n : Note valid} {j : ℕ} {dst : EndpointID valid} {d : Datagrams} (hold : n.stage = .reading) :
      Turn i n ⟨n.id, noteSentTo n.sentTo dst, .forwarding j dst d⟩ []
  | forwarded {n : Note valid} {j : ℕ} {dst : EndpointID valid} {d : Datagrams} (hold : n.stage = .forwarding j dst d) :
      Turn i n { n with stage := .reading } [.forwarded i n.id dst]

/-- What a step does to the clients, the notes and the events, if no endpoint departs. -/
inductive Effect (s : Server valid) (a : Action valid) (s' : Server valid) : Prop where
  | quiet (hclients : s'.clients = s.clients) (hnotes : s'.notes = s.notes) (hevents : s'.events = s.events)
  | registered (id : EndpointID valid) (stage : Stage valid) (hstage : ∀ j dst d, stage ≠ .forwarding j dst d)
      (hclients : s'.clients = Function.update s.clients id s.notes.length)
      (hnotes : s'.notes = s.notes ++ [⟨id, [], stage⟩])
      (hevents : s'.events = (if (s.clients id).isNone then [.arrived id] else []) ++ s.events)
  | turned (i : ℕ) (n n' : Note valid) (events : List (Event valid)) (hn : s.notes[i]? = some n)
      (hturn : Turn i n n' events) (hclients : s'.clients = s.clients)
      (hquiet : events = [] ∨ ∃ j dst d, a = .forward i ∧ n.stage = .forwarding j dst d)
      (hnotes : s'.notes = s.notes.set i n') (hevents : s'.events = events ++ s.events)

lemma getElem?_notes (h : s.sessions[i]? = some sess) : s.notes[i]? = some sess.note := by
  rw [notes, getElem?_map, h]
  rfl

/-- What a step does other than a departure. -/
lemma effect_step (hroom : (s.step a).dropped = false) (hstay : ∀ i n, ¬s.Departs a i n) :
    Effect s a (s.step a) := by
  cases a with
  | register id version =>
    refine .registered id (((s.clients id).map .replacing).getD .reading) (fun j dst d => ?_) ?_ ?_ rfl
    · cases s.clients id <;> simp
    · simp [step, register, notes]
    · simp [step, register, notes, Session.note]
  | replace i =>
    unfold step replace
    dsimp only
    split
    swap
    · exact .quiet rfl rfl rfl
    rename_i old hstage
    obtain ⟨sess, hsess, hold⟩ := Option.map_eq_some_iff.mp hstage
    have hsame : (s.update old (.replace (.status statusSameEndpointIDConnected))).notes = s.notes :=
      notes_update_same fun x => by unfold Session.replace; split <;> rfl
    refine .turned i _ { sess.note with stage := .reading } [] (getElem?_notes hsess)
      (.stage (by simp [Session.note, hold]) (by simp) (by simp)) rfl (.inl rfl) ?_ rfl
    rw [notes_update (hsame ▸ getElem?_notes hsess) ({ · with stage := .reading }) fun _ => rfl, hsame]
  | receive i content =>
    unfold step receive at hroom ⊢
    dsimp only at hroom ⊢
    split at hroom
    swap
    · exact .quiet rfl rfl rfl
    rename_i msg hstage _
    obtain ⟨sess, hsess, hold⟩ := Option.map_eq_some_iff.mp hstage
    cases msg with
    | datagram dst d =>
      unfold handleClientMsg
      dsimp only
      split
      · exact .quiet rfl rfl rfl
      next j _ =>
        exact .turned i _ _ [] (getElem?_notes hsess) (.noted hold) rfl (.inl rfl) (notes_update (getElem?_notes hsess)
          (fun n => ⟨n.id, noteSentTo n.sentTo dst, .forwarding j dst d⟩) fun _ => rfl) rfl
    | ping p =>
      obtain ⟨-, hclients, hnotes, hevents⟩ := enqueue_of_room hroom
      exact .quiet hclients hnotes hevents
    | pong p => exact .quiet rfl rfl rfl
  | forward i =>
    unfold step forward at hroom ⊢
    dsimp only at hroom ⊢
    split at hroom
    swap
    · exact .quiet rfl rfl rfl
    rename_i src hsrc
    split at hroom
    swap
    · exact .quiet rfl rfl rfl
    rename_i j dst d hold
    obtain ⟨-, hclients, hnotes, hevents⟩ := enqueue_of_room hroom
    refine .turned i _ { src.note with stage := .reading } _ (getElem?_notes hsrc) (.forwarded hold) hclients
      (.inr ⟨j, dst, d, rfl, hold⟩) ?_ hevents
    rw [notes_update (hnotes.symm ▸ getElem?_notes hsrc) ({ · with stage := .reading }) fun _ => rfl, hnotes]
  | unregister i =>
    unfold step unregister
    dsimp only
    split
    swap
    · exact .quiet rfl rfl rfl
    rename_i sess hsess
    split
    · exact .quiet rfl rfl rfl
    rename_i hold
    split
    · refine .turned i _ { sess.note with stage := .gone } [] (getElem?_notes hsess)
        (.stage (by simp [Session.note, not_not.mp hold]) (by simp) (by simp)) rfl (.inl rfl)
        (notes_update (getElem?_notes hsess) ({ · with stage := .gone }) fun _ => rfl) rfl
    next hlast =>
      exact absurd ⟨rfl, getElem?_notes hsess, not_not.mp hold, not_not.mp hlast⟩ (hstay i _)
  | writeReplaced i =>
    exact .quiet rfl (notes_update_same fun x => by unfold Session.writeReplaced; split <;> rfl) rfl
  | writeNext i =>
    exact .quiet rfl (notes_update_same fun x => by unfold Session.writeNext; split <;> rfl) rfl

/-- A departure tells those to whom the session has sent. -/
lemma unregister_of_departs (hroom : (s.step a).dropped = false) (h : s.Departs a i n) :
    (s.step a).clients = Function.update s.clients n.id none ∧
      (s.step a).notes = s.notes.set i { n with stage := .gone } ∧ (s.step a).events =
        ((n.sentTo.filter fun p => ((s.step a).clients p).isSome).map (.gone n.id)).reverse ++ s.events := by
  obtain ⟨rfl, hn, hold, hlast⟩ := h
  rw [notes, getElem?_map, Option.map_eq_some_iff] at hn
  obtain ⟨sess, hsess, rfl⟩ := hn
  have hstep : s.step (.unregister i) = (sess.sentTo.foldl (notify sess.id)
      { s with clients := Function.update s.clients sess.id none }).update i ({ · with stage := .gone }) := by
    rw [step, unregister, hsess]
    exact (if_neg (not_not.mpr hold)).trans (if_neg (not_not.mpr hlast))
  rw [hstep] at hroom ⊢
  obtain ⟨-, hclients, hnotes, hevents⟩ := foldl_notify hroom
  refine ⟨hclients, ?_, ?_⟩
  · rw [notes_update (hnotes.symm ▸ getElem?_notes hsess) ({ · with stage := .gone }) fun _ => rfl, hnotes]
    rfl
  · rw [show (update _ i _).clients = _ from hclients]
    exact hevents

/-! ## What the notes say -/

/-- A session has noted those that it has forwarded to, and the one it is about to. -/
structure Noted (s : Server valid) : Prop where
  notes : ∀ i n, s.notes[i]? = some n →
    ∀ c, c ∈ n.sentTo ↔ s.Forwarded i c ∨ ∃ j d, n.stage = .forwarding j c d
  known : ∀ i c, s.Forwarded i c → i < s.notes.length

lemma mem_noteSentTo (h : sentTo.length < maxSentTo) (id c : EndpointID valid) :
    c ∈ noteSentTo sentTo id ↔ c = id ∨ c ∈ sentTo := by
  unfold noteSentTo
  grind

lemma Noted.of_turn {s' : Server valid} {events : List (Event valid)} (h : s.Noted)
    (hsmall : n.sentTo.length < maxSentTo) (hn : s.notes[i]? = some n) (hturn : Turn i n n' events)
    (hnotes : s'.notes = s.notes.set i n') (hevents : s'.events = events ++ s.events) : s'.Noted := by
  have hi := (List.getElem?_eq_some_iff.mp hn).1
  have hold := h.notes i n hn
  have hnoted := mem_noteSentTo hsmall
  have hforwarded : ∀ j c, s'.Forwarded j c ↔ (∃ src, .forwarded j src c ∈ events) ∨ s.Forwarded j c := by
    intro j c
    simp only [Forwarded, hevents, mem_append, exists_or]
  constructor
  · intro j m hm c
    rw [hnotes, getElem?_set] at hm
    have hother := h.notes j m
    cases hturn <;> grind
  · intro j c hj
    rw [hnotes, length_set]
    have hknown := h.known j c
    cases hturn <;> grind

/-- A step keeps the notes. -/
lemma Noted.step {a : Action valid} (h : s.Noted) (hs : s.Ample) (hroom : (s.step a).dropped = false) :
    (s.step a).Noted := by
  by_cases hd : ∃ i n, s.Departs a i n
  · obtain ⟨i, n, hd⟩ := hd
    obtain ⟨-, hnotes, hevents⟩ := unregister_of_departs hroom hd
    exact h.of_turn (hs.2 n (mem_of_getElem? hd.2.1)) hd.2.1
      (.stage (by simp [hd.2.2.1]) (by simp) (by simp)) hnotes hevents
  · rcases effect_step hroom fun i n h => hd ⟨i, n, h⟩ with
      ⟨-, hnotes, hevents⟩ | ⟨id, stage, hstage, -, hnotes, hevents⟩ | ⟨i, n, n', events, hn, hturn, -, -, hnotes, hevents⟩
    · constructor
      · simpa only [Forwarded, hnotes, hevents] using h.notes
      · simpa only [Forwarded, hnotes, hevents] using h.known
    · have hforwarded : ∀ j c, (s.step a).Forwarded j c ↔ s.Forwarded j c := fun j c => by
        rw [Forwarded, hevents, Forwarded]
        split <;> simp
      constructor
      · intro i n hi c
        rw [hforwarded]
        rw [hnotes] at hi
        rcases Nat.lt_or_ge i s.notes.length with hlt | hge
        · exact h.notes i n (getElem?_append_left hlt ▸ hi) c
        · have hnot : ¬s.Forwarded i c := fun hc => (h.known i c hc).not_ge hge
          rw [getElem?_append_right hge] at hi
          obtain rfl := mem_singleton.mp (mem_of_getElem? hi)
          simp [hnot, hstage]
      · intro i c hc
        rw [hnotes, length_append]
        exact Nat.lt_add_right _ (h.known i c ((hforwarded i c).mp hc))
    · exact h.of_turn (hs.2 n (mem_of_getElem? hn)) hn hturn hnotes hevents

/-! ## Who is told -/

instance (s : Server valid) : Decidable s.Ample :=
  inferInstanceAs (Decidable (s.dropped = false ∧ ∀ n ∈ s.notes, n.sentTo.length < maxSentTo))

def idOf (b : UInt8) : EndpointID fun _ => true := ⟨Vector.replicate 32 b, rfl⟩

end Server

end Iroh.Relay
