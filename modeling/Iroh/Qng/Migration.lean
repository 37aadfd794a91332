import Iroh.Common.Runs
import Iroh.Qng.PathManager

/-!
# Do packets on other paths influence the migration of path 0?

Reference: `internal/qng/connection.go`, `path_manager.go`.

A server is to switch path 0 to another address on the packets of path 0 alone: on the one with the highest
number so far, if it comes from a validated address and is not a probe.  The numbers are compared with
`largestRcvdAppData`, which is one for all paths although each path numbers its packets on its own, and the
path manager sees the packets of every path.

Two runs that share the packets of path 0, with what is drawn and looked up while these are handled, are
compared at these packets.
-/

namespace Iroh.Qng

open List

universe u

variable {Addr : Type u} [DecidableEq Addr]

namespace PathManager

end PathManager

def RcvdPacket.onPath0 (p : RcvdPacket Addr) : Bool := p.pid = 0

/-- The PATH_CHALLENGEs that a frame answers or finds lost. -/
def RcvdFrame.settled : RcvdFrame → List Token
  | .pathResponse data => [data]
  | .ack lost => lost
  | _ => []

namespace Server

variable {s : Server Addr} {p : RcvdPacket Addr}

/-! ## One decision -/

/-- What the packets of path 0 see of a server. -/
structure Same (s t : Server Addr) : Prop where
  remote : s.remote = t.remote
  largestRcvdAppData : s.largestRcvdAppData = t.largestRcvdAppData
  received : s.received 0 = t.received 0
  pathManager : s.pathManager = t.pathManager
  largestPath0 : s.largestPath0 = t.largestPath0

omit [DecidableEq Addr] in
lemma Same.trans {t u : Server Addr} (h : s.Same t) (h' : t.Same u) : s.Same u :=
  ⟨h.remote.trans h'.remote, h.largestRcvdAppData.trans h'.largestRcvdAppData, h.received.trans h'.received,
    h.pathManager.trans h'.pathManager, h.largestPath0.trans h'.largestPath0⟩

/-- A packet from the current address, with a number not above the highest of path 0, that neither answers a
PATH_CHALLENGE of the path manager nor finds one lost. -/
structure Silent (s : Server Addr) (p : RcvdPacket Addr) : Prop where
  number : p.pn ≤ s.largestPath0
  sender : p.remoteAddr = s.remote
  settled : ∀ q ∈ s.pathManager.paths, q.pathChallenge ∉ p.expired ++ p.frames.flatMap RcvdFrame.settled

omit [DecidableEq Addr] in
lemma onLost_of_ne {pm : PathManager Addr} (h : ∀ q ∈ pm.paths, q.pathChallenge ≠ d) : pm.onLost d = pm := by
  unfold PathManager.onLost
  rw [eraseP_of_forall_not fun q hq => by simpa using h q hq]

omit [DecidableEq Addr] in
lemma foldl_onLost {pm : PathManager Addr} {lost : List Token}
    (h : ∀ q ∈ pm.paths, q.pathChallenge ∉ lost) : lost.foldl PathManager.onLost pm = pm := by
  induction lost with
  | nil => rfl
  | cons d lost ih =>
    rw [foldl_cons, onLost_of_ne fun q hq => ne_of_not_mem_cons (h q hq)]
    exact ih fun q hq => not_mem_of_not_mem_cons (h q hq)

omit [DecidableEq Addr] in
lemma validateFirst_of_ne {paths : List (MigrationPath Addr)} (h : ∀ q ∈ paths, q.pathChallenge ≠ d) :
    PathManager.validateFirst d paths = paths := by
  induction paths with
  | nil => rfl
  | cons q paths ih =>
    rw [PathManager.validateFirst, if_neg (h q mem_cons_self),
      ih fun q hq => h q (mem_cons_of_mem _ hq)]

omit [DecidableEq Addr] in
lemma foldl_handleFrame {pm : PathManager Addr} {frames : List RcvdFrame}
    (h : ∀ q ∈ pm.paths, q.pathChallenge ∉ frames.flatMap RcvdFrame.settled) :
    frames.foldl PathManager.handleFrame pm = pm := by
  induction frames with
  | nil => rfl
  | cons f frames ih =>
    have hsplit : ∀ q ∈ pm.paths, q.pathChallenge ∉ f.settled ∧
        q.pathChallenge ∉ frames.flatMap RcvdFrame.settled :=
      fun q hq => not_or.mp (mt mem_append.mpr (h q hq))
    have hframe : pm.handleFrame f = pm := by
      have hf := fun q hq => (hsplit q hq).1
      cases f with
      | pathResponse data =>
        exact congrArg (PathManager.mk _) (validateFirst_of_ne fun q hq => ne_of_not_mem_cons (hf q hq))
      | ack lost => exact foldl_onLost hf
      | _ => rfl
    rw [foldl_cons, hframe]
    exact ih fun q hq => (hsplit q hq).2

omit [DecidableEq Addr] in
lemma Silent.expire_eq (h : s.Silent p) : s.expire p = s := by
  unfold expire
  rw [foldl_onLost fun q hq hd => h.settled q hq (mem_append_left _ hd)]

omit [DecidableEq Addr] in
lemma Silent.afterFrames_eq (h : s.Silent p) : s.afterFrames p = s.pathManager :=
  foldl_handleFrame fun q hq hd => h.settled q hq (mem_append_right _ hd)

/-- So far the highest number of all paths is that of path 0. -/
def Ok (s : Server Addr) : Prop := s.largestRcvdAppData = s.largestPath0

lemma Silent.same (h : s.Silent p) (hok : s.Ok) (hp : p.pid ≠ 0) : (s.step p).Same s := by
  have hmax : max s.largestRcvdAppData p.pn = s.largestRcvdAppData :=
    max_eq_left (h.number.trans_eq hok.symm)
  unfold step
  rw [h.expire_eq]
  unfold handleShortHeaderPacket
  dsimp only
  split
  · exact ⟨rfl, hmax, rfl, rfl, if_neg hp⟩
  · unfold checkMigration
    rw [if_pos (show p.remoteAddr = ((s.noteNumber p).handleUnpacked p).remote from h.sender)]
    exact ⟨rfl, hmax, Function.update_of_ne (Ne.symm hp) _ _, h.afterFrames_eq, if_neg hp⟩

omit [DecidableEq Addr] in
lemma Same.ok {t : Server Addr} (h : s.Same t) (hok : t.Ok) : s.Ok :=
  h.largestRcvdAppData.trans (hok.trans h.largestPath0.symm)

lemma ok_path0 (hok : s.Ok) (hp : p.pid = 0) : (s.step p).Ok := by
  have hmax : max s.largestRcvdAppData p.pn = max s.largestPath0 p.pn := by rw [show _ = _ from hok]
  unfold step handleShortHeaderPacket checkMigration Ok
  simp only [expire, noteNumber, handleUnpacked, hp, if_true]
  split
  · exact hmax
  · split
    · exact hmax
    · split <;> exact hmax

/-! ## Two runs -/

/-- A packet of another path is silent. -/
def OthersSilent (s : Server Addr) (p : RcvdPacket Addr) : Prop := p.onPath0 = false → s.Silent p

omit [DecidableEq Addr] in
lemma pid_of_onPath0 (hp : p.onPath0 = true) : p.pid = 0 := of_decide_eq_true hp

omit [DecidableEq Addr] in
lemma pid_of_not_onPath0 (hp : p.onPath0 = false) : p.pid ≠ 0 := of_decide_eq_false hp

lemma ok_step (s : Server Addr) (p : RcvdPacket Addr) (hsilent : s.OthersSilent p) (hok : s.Ok) :
    (s.step p).Ok := by
  cases hp : p.onPath0 with
  | true => exact ok_path0 hok (pid_of_onPath0 hp)
  | false => exact ((hsilent hp).same hok (pid_of_not_onPath0 hp)).ok hok

end Server

end Iroh.Qng
