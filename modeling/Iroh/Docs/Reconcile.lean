import Iroh.Docs.Split
import Mathlib.Data.Set.Card

/-!
# Range reconciliation converges

Two stores exchange messages until one has nothing to reply.  Let `U` be the entries of the
namespace that the two stores start with, and call its unshadowed triples the *goal*.  At every point
of the exchange (`Invariant`)

* both stores hold the maximal elements of a subset of `U`, and every goal triple is in one of them;
* the parts of the message in flight are honest: a fingerprint is the sender's, a range item that
  wants an answer carries all the sender has in the range;
* a goal triple that is not in both stores yet is covered by a part of the message.

The exchange ends because parts lose weight: a fingerprint is answered by the entries of its range,
by nothing, or by parts about ranges that hold fewer entries of `U` (`splitRange_piece`); a range
item is answered by a last range item, and that by nothing.
-/

namespace Iroh.Docs

open MemoryStore List

/-! ## The exchange -/

/-- A point of the exchange: the store that is to process the message, the one that sent it, and the
message, or `none` when there was no reply. -/
structure Turn where
  receiver : MemoryStore
  sender : MemoryStore
  message : Option Message

/-- What the two sides bring to an exchange in one namespace.  The `k`-th call of `processMessage`
is made with callbacks `env k` and configuration `config k`; the initiator makes the odd ones. -/
structure Session where
  namespaceID : NamespaceID
  blake3 : Blake3
  env : ℕ → Env
  config : ℕ → SyncConfig
  blake3_eq : ∀ k, (env k).blake3 = blake3

namespace Session

def scope (session : Session) : NamespaceScope := .inNamespace session.namespaceID

def next (session : Session) (k : ℕ) (t : Turn) : Except SaveError Turn :=
  match t.message with
  | none => .ok t
  | some message =>
    let done := t.receiver.processMessage (session.env k) session.scope (session.config k) message
    done.reply.map fun reply => ⟨t.sender, done.store, reply⟩

/-- The exchange after `k` calls, started by `a.InitialMessageInNamespace` sent to `b`. -/
def run (session : Session) (a b : MemoryStore) : ℕ → Except SaveError Turn
  | 0 => .ok ⟨b, a, some (a.initialMessage session.blake3 session.scope)⟩
  | k + 1 => (session.run a b k).bind (session.next k)

end Session

/-! ## Assumptions -/

/-- `acceptTimestamp` and `validate` let every value through, the `i`-th at clock reading
`ticks + i`. -/
def Accepts (env : Env) (ticks : ℕ) (values : List RangeValue) : Prop :=
  ∀ i v, values[i]? = some v →
    acceptTimestamp (env.clock (ticks + i)) v.entry.entry ∧ env.validates v.entry v.status

/-- The entries of two stores in a range are the same triples if they have the same fingerprint. -/
def ToldApart (blake3 : Blake3) (sc : NamespaceScope) (s s' : MemoryStore) (r : Range) : Prop :=
  s.scopeFingerprint blake3 sc r = s'.scopeFingerprint blake3 sc r →
    (s.scopeRange sc r).map SignedEntry.triple = (s'.scopeRange sc r).map SignedEntry.triple

instance (blake3 : Blake3) (sc : NamespaceScope) (s s' : MemoryStore) (r : Range) :
    Decidable (ToldApart blake3 sc s s' r) :=
  inferInstanceAs (Decidable (_ → _))

namespace MemoryStore

def Reachable (s : MemoryStore) : Prop :=
  ∃ (env : Env) (s₀ : MemoryStore) (ops : List Insert), s₀.entries = .empty ∧ InsertRun env s₀ ops s

def triplesIn (s : MemoryStore) (N : NamespaceID) : Set Triple :=
  {t ∈ s.triples | t.id.namespaceID = N}

end MemoryStore

lemma Accepts.cons_iff : Accepts env ticks (v :: values) ↔
      (acceptTimestamp (env.clock ticks) v.entry.entry ∧ env.validates v.entry v.status) ∧
        Accepts env (ticks + 1) values := by
  rw [Accepts, ← Nat.and_forall_add_one]
  simp [Accepts, Nat.add_assoc, Nat.add_comm 1]

lemma Accepts.append_iff : Accepts env ticks (values ++ values') ↔
      Accepts env ticks values ∧ Accepts env (ticks + values.length) values' := by
  induction values generalizing ticks with
  | nil => simp [Accepts]
  | cons v values ih =>
    rw [cons_append, Accepts.cons_iff, Accepts.cons_iff, ih, show ticks + 1 + values.length = ticks + (values.length + 1) by omega]
    exact and_assoc.symm

namespace MemoryStore

/-! ## What a store holds of the namespace -/

variable {N : NamespaceID}

variable {s : MemoryStore} {r : Range} {env : Env} {p : Progress}

lemma mem_triplesIn_iff :
    (t ∈ s.triplesIn N ∧ r.contains t.id) ↔ ∃ e ∈ s.scopeRange (.inNamespace N) r, e.triple = t := by
  simp only [mem_scopeRange, NamespaceScope.contains_inNamespace]
  constructor
  · rintro ⟨⟨⟨e, he, rfl⟩, hN⟩, hr⟩
    exact ⟨e, ⟨he, hN, hr⟩, rfl⟩
  · rintro ⟨e, ⟨he, hN, hr⟩, rfl⟩
    exact ⟨⟨⟨e, he, rfl⟩, hN⟩, hr⟩

lemma mem_triplesIn_of_mem_scopeRange (h : e ∈ s.scopeRange (.inNamespace N) r) :
    e.triple ∈ s.triplesIn N :=
  (mem_triplesIn_iff.mpr ⟨e, h, rfl⟩).1

lemma mem_triplesIn_congr {s' : MemoryStore}
    (h : (s.scopeRange (.inNamespace N) r).map SignedEntry.triple =
      (s'.scopeRange (.inNamespace N) r).map SignedEntry.triple) (hr : r.contains t.id) :
    t ∈ s.triplesIn N ↔ t ∈ s'.triplesIn N := by
  have hmem : t ∈ (s.scopeRange (.inNamespace N) r).map SignedEntry.triple ↔
      t ∈ (s'.scopeRange (.inNamespace N) r).map SignedEntry.triple := by rw [h]
  simpa only [mem_map, ← mem_triplesIn_iff, hr, and_true] using hmem

lemma triplesIn_putWithOrigin (env : Env) (s : MemoryStore)
    (hN : entry.entry.namespaceID = N) (origin : InsertOrigin) :
    (s.putWithOrigin env entry origin).1.triplesIn N = insertMax (s.triplesIn N) entry.triple := by
  have hsep := insertMax_sep (S := s.triples) (x := entry.triple)
    (p := fun t => t.id.namespaceID = N) hN ?_
  · rw [triplesIn, triples_putWithOrigin, hsep]
    rfl
  · rintro e (hle | hle)
    · exact hle.1.trans hN
    · exact hle.1.symm.trans hN

lemma Reachable.maximals_triplesIn (hs : s.Reachable) (N : NamespaceID) :
    maximals (s.triplesIn N) = s.triplesIn N := by
  obtain ⟨env, s₀, ops, hempty, hrun⟩ := hs
  refine maximals_eq_self (L := inserted ops) fun t ht => ?_
  rw [← hrun.triples_of_empty hempty]
  exact ht.1

/-! ## The loops over values and range items -/

def valueTriples (values : List RangeValue) : Set Triple := {t | ∃ v ∈ values, v.entry.triple = t}

lemma valueTriples_cons (v : RangeValue) (values : List RangeValue) :
    valueTriples (v :: values) = insert v.entry.triple (valueTriples values) := by
  ext t
  simp [valueTriples, eq_comm (a := t)]

lemma valueTriples_append (values values' : List RangeValue) :
    valueTriples (values ++ values') = valueTriples values ∪ valueTriples values' := by
  ext t
  simp only [valueTriples, mem_append, Set.mem_union, Set.mem_ofPred_eq, or_and_right, exists_or]

lemma valueTriples_finite (values : List RangeValue) : (valueTriples values).Finite :=
  (finite_toSet values).image _

lemma putValue_accepted (hN : v.entry.entry.namespaceID = N)
    (htime : acceptTimestamp (env.clock p.ticks) v.entry.entry)
    (hvalid : env.validates v.entry v.status) :
    (putValue env (.inNamespace N) p v).1.store = (p.store.putWithOrigin env v.entry
        ⟨.insertOriginRemote, env.fromPeer, v.status⟩).1 ∧
      (putValue env (.inNamespace N) p v).1.ticks = p.ticks + 1 := by
  have hsc : (NamespaceScope.inNamespace N).contains v.entry := by simpa using hN
  simp [putValue, hsc, htime, hvalid]

lemma putValues_triplesIn (hacc : Accepts env p.ticks values)
    (hN : ∀ v ∈ values, v.entry.entry.namespaceID = N)
    (hok : (putValues env (.inNamespace N) p values).2 = none) (hL : L.Finite)
    (hp : p.store.triplesIn N = maximals L) :
    (putValues env (.inNamespace N) p values).1.store.triplesIn N = maximals (valueTriples values ∪ L) ∧
      (putValues env (.inNamespace N) p values).1.ticks = p.ticks + values.length := by
  induction values generalizing p L with
  | nil => simp [putValues, valueTriples, hp]
  | cons v values ih =>
    obtain ⟨⟨htime, hvalid⟩, hrest⟩ := Accepts.cons_iff.mp hacc
    have hv : v.entry.entry.namespaceID = N := hN v mem_cons_self
    obtain ⟨hstore, hticks⟩ := putValue_accepted hv htime hvalid
    unfold putValues at hok ⊢
    dsimp only at hok ⊢
    split at hok
    · simp at hok
    · have hstep : (putValue env (.inNamespace N) p v).1.store.triplesIn N =
          maximals (insert v.entry.triple L) := by
        rw [hstore, triplesIn_putWithOrigin env p.store hv, hp, insertMax_maximals hL]
      obtain ⟨htriples, hlen⟩ := ih (by rwa [hticks])
        (fun w hw => hN w (mem_cons_of_mem _ hw)) hok (hL.insert _) hstep
      refine ⟨?_, ?_⟩
      · rw [htriples, valueTriples_cons, Set.union_insert, Set.insert_union]
      · rw [length_cons]
        omega

lemma valueTriples_itemDiff_subset (env : Env) (s : MemoryStore) (item : RangeItem) :
    valueTriples (itemDiff env s (.inNamespace N) item) ⊆ s.triplesIn N := by
  rintro _ ⟨w, hw, rfl⟩
  exact mem_triplesIn_of_mem_scopeRange (mem_itemDiff hw).1

lemma exists_mem_itemAnswer (env : Env) (hm : m ∈ s.triplesIn N)
    (hr : item.range.contains m.id) (hlocal : item.haveLocal = false)
    (hnewer : ∀ t ∈ valueTriples item.values, t.id = m.id → ¬ m.stamp ≤ t.stamp) :
    ∃ diff, .rangeItem ⟨item.range, diff, true⟩ ∈ itemAnswer env s (.inNamespace N) item ∧
      m ∈ valueTriples diff := by
  obtain ⟨e, he, rfl⟩ := mem_triplesIn_iff.mp ⟨hm, hr⟩
  have hpeer : ¬ peerHasNewerValue item.values e := by
    rw [peerHasNewerValue_iff]
    rintro ⟨v, hv, hid, hstamp⟩
    exact hnewer v.entry.triple ⟨v, hv, rfl⟩ hid hstamp
  obtain ⟨v, hv, rfl⟩ := exists_mem_itemDiff env he hlocal hpeer
  exact ⟨_, mem_itemAnswer.mpr ⟨ne_nil_of_mem hv, rfl⟩, v, hv, rfl⟩

/-- What the loop over the range items does: it adds their values to what the store was given, and answers
with entries the store had.  A triple `m` the store holds is sent back unless the item brings the same
identifier with a stamp not older. -/
lemma processItems_spec {items : List RangeItem}
    (hacc : Accepts env p.ticks (items.flatMap RangeItem.values))
    (hN : ∀ v ∈ items.flatMap RangeItem.values, v.entry.entry.namespaceID = N)
    (hok : (processItems env (.inNamespace N) p items).2 = .ok parts)
    (hL : L.Finite) (hp : p.store.triplesIn N = maximals L) :
    (processItems env (.inNamespace N) p items).1.store.triplesIn N =
        maximals (valueTriples (items.flatMap RangeItem.values) ∪ L) ∧
      (∀ part ∈ parts, ∃ item ∈ items, ∃ diff, item.haveLocal = false ∧
        part = .rangeItem ⟨item.range, diff, true⟩ ∧
        valueTriples diff ⊆ valueTriples (items.flatMap RangeItem.values) ∪ L) ∧
      ∀ item ∈ items, item.haveLocal = false → ∀ m, item.range.contains m.id →
        (∀ t ∈ valueTriples item.values, t.id = m.id → ¬ m.stamp ≤ t.stamp) →
        (∀ L', L ⊆ L' → L' ⊆ valueTriples (items.flatMap RangeItem.values) ∪ L → m ∈ maximals L') →
        ∃ diff, .rangeItem ⟨item.range, diff, true⟩ ∈ parts ∧ m ∈ valueTriples diff := by
  induction items generalizing p parts L with
  | nil =>
    cases hok
    simpa [processItems, valueTriples] using hp
  | cons item items ih =>
    rw [flatMap_cons] at hacc hN ⊢
    obtain ⟨hhead, htail⟩ := Accepts.append_iff.mp hacc
    obtain ⟨herr, hdone, rest, hrest, rfl⟩ := processItems_cons_ok hok
    have hNhead := fun v hv => hN v (mem_append_left _ hv)
    have hNtail := fun v hv => hN v (mem_append_right _ hv)
    obtain ⟨hput, hticks⟩ := putValues_triplesIn hhead hNhead herr hL hp
    obtain ⟨hstore, hparts, hanswer⟩ :=
      ih (by rwa [hticks]) hNtail hrest ((valueTriples_finite _).union hL) hput
    have hunion : valueTriples (item.values ++ items.flatMap RangeItem.values) ∪ L =
        valueTriples (items.flatMap RangeItem.values) ∪ (valueTriples item.values ∪ L) := by
      rw [valueTriples_append, Set.union_comm (valueTriples item.values), Set.union_assoc]
    rw [hunion]
    refine ⟨by rw [hdone, hstore], ?_, ?_⟩
    · intro part hpart
      rcases mem_append.mp hpart with hpart | hpart
      · obtain ⟨hne, rfl⟩ := mem_itemAnswer.mp hpart
        obtain ⟨v, hv⟩ := exists_mem_of_ne_nil _ hne
        refine ⟨item, mem_cons_self, _, (mem_itemDiff hv).2, rfl, fun t ht => ?_⟩
        have hmem := valueTriples_itemDiff_subset env p.store item ht
        rw [hp] at hmem
        exact Or.inr (Or.inr (maximals_subset L hmem))
      · obtain ⟨item', hitem', hrest'⟩ := hparts part hpart
        exact ⟨item', mem_cons_of_mem _ hitem', hrest'⟩
    · intro item' hitem' hlocal m hr hnewer hmax
      rcases mem_cons.mp hitem' with rfl | hitem'
      · -- the answer is taken from the store before the item's own values go in
        have hm : m ∈ p.store.triplesIn N := by
          rw [hp]
          exact hmax L subset_rfl (fun t ht => Or.inr (Or.inr ht))
        obtain ⟨diff, hdiff, hmem⟩ := exists_mem_itemAnswer env hm hr hlocal hnewer
        exact ⟨diff, mem_append_left _ hdiff, hmem⟩
      · obtain ⟨diff, hdiff, hm⟩ := hanswer item' hitem' hlocal m hr hnewer fun L' hlow hup =>
          hmax L' (Set.subset_union_right.trans hlow) hup
        exact ⟨diff, mem_append_right _ hdiff, hm⟩

end MemoryStore

/-! ## The invariant -/

section

variable (blake3 : Blake3) (N : NamespaceID) (U : Set Triple)

/-- What `sender` says in a part is true of it.  Goal triples it mentions it holds. -/
def Honest (sender : MemoryStore) : MessagePart → Prop
  | .rangeFingerprint remote =>
    remote.fingerprint = sender.scopeFingerprint blake3 (.inNamespace N) remote.range
  | .rangeItem item =>
    (∀ t ∈ valueTriples item.values, t ∈ U ∧ (t ∈ maximals U → t ∈ sender.triplesIn N)) ∧
      (item.haveLocal = false → ∀ t ∈ sender.triplesIn N, item.range.contains t.id →
        t ∈ valueTriples item.values)
  | .unknown _ => True

/-- The part will bring `m` to the side that lacks it. -/
def Covers (m : Triple) : MessagePart → Prop
  | .rangeFingerprint remote => remote.range.contains m.id
  | .rangeItem item =>
    if item.haveLocal then m ∈ valueTriples item.values else item.range.contains m.id
  | .unknown _ => False

def HoldsMax (s : MemoryStore) : Prop := ∃ L ⊆ U, s.triplesIn N = maximals L

/-- What holds at every point of an exchange; see above. -/
structure Invariant (receiver sender : MemoryStore) (parts : List MessagePart) : Prop where
  receiver_max : HoldsMax N U receiver
  sender_max : HoldsMax N U sender
  complete : ∀ m ∈ maximals U, m ∈ receiver.triplesIn N ∨ m ∈ sender.triplesIn N
  honest : ∀ part ∈ parts, Honest blake3 N U sender part
  covered : ∀ m ∈ maximals U, (m ∈ receiver.triplesIn N ∧ m ∈ sender.triplesIn N) ∨
    ∃ part ∈ parts, Covers m part

/-- What a part can still cause.  A fingerprint counts the triples of `U` in its range. -/
noncomputable def weight : MessagePart → ℕ
  | .rangeFingerprint remote => 2 + {t ∈ U | remote.range.contains t.id}.ncard
  | .rangeItem item => if item.haveLocal then 0 else 1
  | .unknown _ => 0

end

section

variable {blake3 : Blake3} {N : NamespaceID} {U : Set Triple}

variable {s : MemoryStore} {m : Triple} {env : Env} {config : SyncConfig} {remote : RangeFingerprint}
  {part : MessagePart}

lemma HoldsMax.subset (h : HoldsMax N U s) : s.triplesIn N ⊆ U := by
  obtain ⟨L, hL, hs⟩ := h
  rw [hs]
  exact (maximals_subset L).trans hL

lemma weight_le (hU : U.Finite) (part : MessagePart) : weight U part ≤ 2 + U.ncard := by
  cases part with
  | rangeFingerprint remote =>
    exact Nat.add_le_add_left (Set.ncard_le_ncard (fun t ht => ht.1) hU) 2
  | rangeItem item =>
    simp only [weight]
    split <;> omega
  | unknown kind => exact Nat.zero_le _

lemma mem_of_mem_maximals (hL : L ⊆ U) (hs : s.triplesIn N = maximals L)
    (hm : m ∈ maximals U) (hmL : m ∈ L) : m ∈ s.triplesIn N := by
  rw [hs]
  exact mem_maximals_of_subset hL hm hmL

/-! ## Answering a fingerprint -/

lemma mem_answerFingerprint (h : part ∈ answerFingerprint env s sc config remote) :
    part = .rangeItem ⟨remote.range, rangeValues env (s.scopeRange sc remote.range), false⟩ ∨
      (2 ≤ (s.scopeRange sc remote.range).length ∧
        ∃ r ∈ s.splitRange sc remote.range config.splitFactor,
          part = s.fingerprintPart env.blake3 sc r ∨
            part = .rangeItem ⟨r, rangeValues env (s.scopeRange sc r), false⟩) := by
  unfold answerFingerprint at h
  split at h
  · simp at h
  · dsimp only at h
    split at h
    · exact Or.inl (mem_singleton.mp h)
    next hcond =>
      obtain ⟨r, hr, rfl⟩ := mem_map.mp h
      refine Or.inr ⟨?_, r, hr, ?_⟩
      · simp only [Bool.or_eq_true, decide_eq_true_eq] at hcond
        omega
      · split
        · exact Or.inl rfl
        · exact Or.inr rfl

lemma honest_rangeItem (env : Env) (hs : s.triplesIn N ⊆ U) (r : Range) : Honest blake3 N U s
      (.rangeItem ⟨r, rangeValues env (s.scopeRange (.inNamespace N) r), false⟩) := by
  have hvalues : ∀ t, t ∈ valueTriples (rangeValues env (s.scopeRange (.inNamespace N) r)) ↔
      t ∈ s.triplesIn N ∧ r.contains t.id := by
    intro t
    rw [mem_triplesIn_iff]
    simp [valueTriples, rangeValues]
  refine ⟨fun t ht => ?_, fun _ t ht hr => (hvalues t).mpr ⟨ht, hr⟩⟩
  have hmem := ((hvalues t).mp ht).1
  exact ⟨hs hmem, fun _ => hmem⟩

lemma honest_answerFingerprint (hblake : env.blake3 = blake3) (hs : s.triplesIn N ⊆ U)
    (h : part ∈ answerFingerprint env s (.inNamespace N) config remote) : Honest blake3 N U s part := by
  obtain rfl | ⟨-, r, -, rfl | rfl⟩ := mem_answerFingerprint h
  · exact honest_rangeItem env hs _
  · rw [hblake]
    rfl
  · exact honest_rangeItem env hs _

lemma covers_answerFingerprint (config : SyncConfig)
    (hdiff : s.scopeFingerprint env.blake3 sc remote.range ≠ remote.fingerprint)
    (hm : remote.range.contains m.id) :
    ∃ part ∈ answerFingerprint env s sc config remote, Covers m part := by
  unfold answerFingerprint
  rw [if_neg hdiff]
  dsimp only
  split
  · exact ⟨_, mem_singleton_self _, hm⟩
  next hcond =>
    simp only [Bool.or_eq_true, decide_eq_true_eq] at hcond
    have hn : 2 ≤ (s.scopeRange sc remote.range).length := by omega
    obtain ⟨r, hr, hmr⟩ := splitRange_cover hn config.splitFactor hm
    refine ⟨_, mem_map_of_mem hr, ?_⟩
    split <;> exact hmr

lemma weight_answerFingerprint (hU : U.Finite) (hs : s.triplesIn N ⊆ U)
    (h : part ∈ answerFingerprint env s (.inNamespace N) config remote) :
    weight U part < weight U (.rangeFingerprint remote) := by
  obtain rfl | ⟨hn, r, hr, rfl | rfl⟩ := mem_answerFingerprint h
  · simp only [weight, Bool.false_eq_true, if_false]
    omega
  · obtain ⟨hsub, e, he, hmiss⟩ := splitRange_piece hn config.splitFactor hr
    have hlt : {t ∈ U | r.contains t.id}.ncard < {t ∈ U | remote.range.contains t.id}.ncard := by
      refine Set.ncard_lt_ncard ?_ (hU.subset (Set.sep_subset _ _))
      refine ⟨fun t ht => ⟨ht.1, hsub _ ht.2⟩, fun hsup => hmiss ?_⟩
      have hmem : e.triple ∈ {t ∈ U | remote.range.contains t.id} :=
        ⟨hs (mem_triplesIn_of_mem_scopeRange he), (mem_scopeRange.mp he).2.2⟩
      exact (hsup hmem).2
    simpa [weight, fingerprintPart] using hlt
  · simp only [weight, Bool.false_eq_true, if_false]
    omega

/-! ## One call -/

variable {env : Env} {config : SyncConfig} {receiver sender : MemoryStore} {message : Message}
  {out : List MessagePart}

lemma Invariant.valueTriples_subset (hinv : Invariant blake3 N U receiver sender message.parts) :
    valueTriples message.values ⊆ U := by
  rintro _ ⟨v, hv, rfl⟩
  rw [values_eq_flatMap_items] at hv
  obtain ⟨item, hitem, hv⟩ := mem_flatMap.mp hv
  exact ((hinv.honest _ (mem_items.mp hitem)).1 _ ⟨v, hv, rfl⟩).1

lemma Invariant.not_le_of_not_mem_sender (hinv : Invariant blake3 N U receiver sender message.parts)
    (hpart : .rangeItem item ∈ message.parts) (hm : m ∈ maximals U) (hs : m ∉ sender.triplesIn N) :
    ∀ t ∈ valueTriples item.values, t.id = m.id → ¬ m.stamp ≤ t.stamp := by
  intro t ht hid hstamp
  obtain ⟨hvals, -⟩ := hinv.honest _ hpart
  have heq := hm.eq_of_le (hvals t ht).1 (Triple.le_of_id_eq hid.symm hstamp)
  exact hs (heq ▸ (hvals t ht).2 (heq ▸ hm))

lemma Invariant.mem_or_covers_of_fingerprint (hblake : env.blake3 = blake3)
    (hfree : ToldApart blake3 (.inNamespace N) store sender remote.range)
    (hinv : Invariant blake3 N U receiver sender message.parts)
    (hpart : .rangeFingerprint remote ∈ message.parts) (hcomplete : m ∈ sender.triplesIn N ∨ m ∈ store.triplesIn N)
    (hm : remote.range.contains m.id) (config : SyncConfig) :
    (m ∈ sender.triplesIn N ∧ m ∈ store.triplesIn N) ∨
      ∃ part ∈ answerFingerprint env store (.inNamespace N) config remote, Covers m part := by
  have hfp : remote.fingerprint = sender.scopeFingerprint blake3 (.inNamespace N) remote.range :=
    hinv.honest _ hpart
  by_cases hsame : store.scopeFingerprint env.blake3 (.inNamespace N) remote.range =
      remote.fingerprint
  · rw [hblake, hfp] at hsame
    have hiff := mem_triplesIn_congr (hfree hsame) hm
    rcases hcomplete with hs | hstored
    · exact Or.inl ⟨hs, hiff.mpr hs⟩
    · exact Or.inl ⟨hiff.mp hstored, hstored⟩
  · exact Or.inr (covers_answerFingerprint config hsame hm)

/-- **The step.**  Processing a message keeps the invariant, with the roles exchanged, and every part
of the reply weighs less than some part of the message. -/
theorem Invariant.step (hblake : env.blake3 = blake3) (hU : U.Finite)
    (hUN : ∀ t ∈ U, t.id.namespaceID = N)
    (hfree : ∀ remote ∈ fingerprints message, ToldApart blake3 (.inNamespace N)
      (receiver.replyParts env (.inNamespace N) config message).1.store sender remote.range)
    (hinv : Invariant blake3 N U receiver sender message.parts) (hacc : Accepts env 0 message.values)
    (hok : (receiver.replyParts env (.inNamespace N) config message).2 = .ok out) :
    Invariant blake3 N U sender (receiver.replyParts env (.inNamespace N) config message).1.store out ∧
      ∀ part ∈ out, ∃ part' ∈ message.parts, weight U part < weight U part' := by
  obtain ⟨hdone, answers, hanswers, rfl⟩ := replyParts_ok hok
  rw [hdone] at hfree ⊢
  obtain ⟨L, hLU, hreceiver⟩ := hinv.receiver_max
  have hL : L.Finite := hU.subset hLU
  have hvalues := hinv.valueTriples_subset
  rw [values_eq_flatMap_items] at hacc hvalues
  obtain ⟨hstore, hparts, hsent⟩ := processItems_spec (p := ⟨receiver, 0, []⟩) hacc
    (fun v hv => hUN _ (hvalues ⟨v, hv, rfl⟩)) hanswers hL hreceiver
  set store := (processItems env (.inNamespace N) ⟨receiver, 0, []⟩ (items message)).1.store
  set L' := valueTriples ((items message).flatMap RangeItem.values) ∪ L with hL'
  have hL'U : L' ⊆ U := Set.union_subset hvalues hLU
  have hstoreU : store.triplesIn N ⊆ U := HoldsMax.subset ⟨L', hL'U, hstore⟩
  -- what the store was given it still has, if it is a goal triple
  have hkeep : ∀ m ∈ maximals U, m ∈ L' → m ∈ store.triplesIn N :=
    fun m hm hmem => mem_of_mem_maximals hL'U hstore hm hmem
  have hold : ∀ m ∈ maximals U, m ∈ receiver.triplesIn N → m ∈ store.triplesIn N := by
    intro m hm hmem
    rw [hreceiver] at hmem
    exact hkeep m hm (Or.inr (maximals_subset L hmem))
  have hnew : ∀ m ∈ maximals U, ∀ item ∈ items message, m ∈ valueTriples item.values →
      m ∈ store.triplesIn N := by
    rintro m hm item hitem ⟨v, hv, rfl⟩
    exact hkeep _ hm (Or.inl ⟨v, mem_flatMap.mpr ⟨item, hitem, hv⟩, rfl⟩)
  have hcomplete : ∀ m ∈ maximals U, m ∈ sender.triplesIn N ∨ m ∈ store.triplesIn N := by
    intro m hm
    exact (hinv.complete m hm).symm.imp_right (hold m hm)
  refine ⟨⟨hinv.sender_max, ⟨L', hL'U, hstore⟩, hcomplete, ?_, ?_⟩, ?_⟩
  · -- every part of the reply is honest
    intro part hpart
    rcases mem_append.mp hpart with hpart | hpart
    · obtain ⟨item, -, diff, -, rfl, hdiff⟩ := hparts part hpart
      refine ⟨fun t ht => ⟨hL'U (hdiff ht), fun hm => hkeep t hm (hdiff ht)⟩, ?_⟩
      intro hlocal
      exact absurd hlocal Bool.noConfusion
    · obtain ⟨remote, -, hpart⟩ := mem_flatMap.mp hpart
      exact honest_answerFingerprint hblake hstoreU hpart
  · -- a goal triple is on both sides now, or a part of the reply is about it
    intro m hm
    rcases hinv.covered m hm with ⟨hr, hs⟩ | ⟨part, hpart, hcovers⟩
    · exact Or.inl ⟨hs, hold m hm hr⟩
    cases part with
    | unknown kind => exact absurd hcovers id
    | rangeItem item =>
      have hitem := mem_items.mpr hpart
      obtain ⟨hvals, hall⟩ := hinv.honest _ hpart
      rcases hlocal : item.haveLocal with _ | _
      · simp only [Covers, hlocal] at hcovers
        by_cases hs : m ∈ sender.triplesIn N
        · exact Or.inl ⟨hs, hnew m hm item hitem (hall hlocal m hs hcovers)⟩
        · -- the sender lacks `m`, so no value of the item is as new, and `m` is sent back
          have hmL : m ∈ L := by
            have hr := (hinv.complete m hm).resolve_right hs
            rw [hreceiver] at hr
            exact maximals_subset L hr
          obtain ⟨diff, hdiff, hmem⟩ := hsent item hitem hlocal m hcovers
            (hinv.not_le_of_not_mem_sender hpart hm hs)
            fun L'' hlow hup => mem_maximals_of_subset (hup.trans hL'U) hm (hlow hmL)
          exact Or.inr ⟨_, mem_append_left _ hdiff, by simpa [Covers] using hmem⟩
      · simp only [Covers, hlocal] at hcovers
        exact Or.inl ⟨(hvals m hcovers).2 hm, hnew m hm item hitem hcovers⟩
    | rangeFingerprint remote =>
      have hremote := mem_fingerprints.mpr hpart
      refine (hinv.mem_or_covers_of_fingerprint hblake (hfree remote hremote) hpart (hcomplete m hm) hcovers
        config.withDefaults).imp_right ?_
      rintro ⟨part, hpart', hcovers'⟩
      exact ⟨part, mem_append_right _ (mem_flatMap.mpr ⟨remote, hremote, hpart'⟩), hcovers'⟩
  · -- every part of the reply weighs less than what it answers
    intro part hpart
    rcases mem_append.mp hpart with hpart | hpart
    · obtain ⟨item, hitem, diff, hlocal, rfl, -⟩ := hparts part hpart
      exact ⟨_, mem_items.mp hitem, by simp [weight, hlocal]⟩
    · obtain ⟨remote, hremote, hpart⟩ := mem_flatMap.mp hpart
      exact ⟨_, mem_fingerprints.mp hremote, weight_answerFingerprint hU hstoreU hpart⟩

lemma Invariant.final (hU : U.Finite) (hinv : Invariant blake3 N U receiver sender []) :
    receiver.triplesIn N = maximals U ∧ sender.triplesIn N = maximals U := by
  have hboth : ∀ m ∈ maximals U, m ∈ receiver.triplesIn N ∧ m ∈ sender.triplesIn N := by
    intro m hm
    rcases hinv.covered m hm with hboth | ⟨part, hpart, -⟩
    · exact hboth
    · exact absurd hpart not_mem_nil
  have hgoal : ∀ s, HoldsMax N U s → (∀ m ∈ maximals U, m ∈ s.triplesIn N) →
      s.triplesIn N = maximals U := by
    rintro s ⟨L, hLU, hs⟩ hall
    rw [hs]
    refine maximals_eq_of_subset hU hLU fun m hm => ?_
    have hmem := hall m hm
    rw [hs] at hmem
    exact maximals_subset L hmem
  exact ⟨hgoal _ hinv.receiver_max fun m hm => (hboth m hm).1,
    hgoal _ hinv.sender_max fun m hm => (hboth m hm).2⟩

end

/-! ## The whole exchange -/

namespace Session

lemma invariant_start (blake3 : Blake3) (N : NamespaceID) (ha : a.Reachable) (hb : b.Reachable) :
    Invariant blake3 N (a.triplesIn N ∪ b.triplesIn N) b a
      (a.initialMessage blake3 (.inNamespace N)).parts := by
  refine ⟨⟨_, Set.subset_union_right, (hb.maximals_triplesIn N).symm⟩,
    ⟨_, Set.subset_union_left, (ha.maximals_triplesIn N).symm⟩, ?_, ?_, ?_⟩
  · intro m hm
    exact (maximals_subset _ hm).symm
  · intro part hpart
    obtain rfl := mem_singleton.mp hpart
    simp only [Honest]
    congr 1
    exact a.scopeRange_all _ _ _
  · intro m _
    exact Or.inr ⟨_, mem_singleton_self _, Range.contains_iff.mpr (Or.inl rfl)⟩

def reply (session : Session) (k : ℕ) (t : Turn) (message : Message) :
    Progress × Except SaveError (List MessagePart) :=
  t.receiver.replyParts (session.env k) session.scope (session.config k) message

/-- Nothing outside the algorithm gets in the way of an exchange. -/
structure Undisturbed (session : Session) (a b : MemoryStore) : Prop where
  /-- A call that finds a fingerprint of the message to be its own has the entries of the sender there. -/
  toldApart : ∀ k t message, session.run a b k = .ok t → t.message = some message →
    ∀ remote ∈ fingerprints message, ToldApart session.blake3 session.scope
      (session.reply k t message).1.store t.sender remote.range
  saves : ∀ k err, session.run a b k ≠ .error err
  /-- Every exchanged value passes `acceptTimestamp` and `validate`. -/
  accepts : ∀ k t message, session.run a b k = .ok t → t.message = some message →
    Accepts (session.env k) 0 message.values
  /-- Every reply fits one frame: `boundedMessage` leaves it as it is. -/
  fits : ∀ k t message parts, session.run a b k = .ok t → t.message = some message →
    (session.reply k t message).2 = .ok parts →
    (session.reply k t message).1.store.boundedMessage session.blake3 session.scope parts = ⟨parts⟩

variable {session : Session} {a b : MemoryStore}

lemma Undisturbed.run_succ (h : session.Undisturbed a b)
    (hrun : session.run a b k = .ok t) (hmessage : t.message = some message) :
    ∃ out, (session.reply k t message).2 = .ok out ∧
      session.run a b (k + 1) = .ok ⟨t.sender, (session.reply k t message).1.store,
        if out.isEmpty then none else some ⟨out⟩⟩ := by
  have hnext : session.run a b (k + 1) = session.next k t := by
    rw [run, hrun]
    rfl
  simp only [next, hmessage, processMessage, session.blake3_eq] at hnext
  rcases hout : (session.reply k t message).2 with err | out
  · simp only [reply] at hout
    rw [hout] at hnext
    exact absurd hnext (h.saves _ err)
  · have hbounded := h.fits k t message out hrun hmessage hout
    simp only [reply] at hout hbounded
    rw [hout] at hnext
    refine ⟨out, rfl, hnext.trans ?_⟩
    simp [Except.map, hbounded, reply]

/-- The exchange reaches a turn without a message: the weights of the parts in flight are bounded. -/
lemma Undisturbed.exists_final (h : session.Undisturbed a b) {U : Set Triple}
    (hU : U.Finite) (hUN : ∀ t ∈ U, t.id.namespaceID = session.namespaceID) (n : ℕ) :
    ∀ k t message, session.run a b k = .ok t → t.message = some message →
      Invariant session.blake3 session.namespaceID U t.receiver t.sender message.parts →
      (∀ part ∈ message.parts, weight U part < n) →
      ∃ k t, session.run a b k = .ok t ∧ t.message = none ∧
        t.receiver.triplesIn session.namespaceID = maximals U ∧
        t.sender.triplesIn session.namespaceID = maximals U := by
  induction n using Nat.strong_induction_on with
  | h n ih =>
    intro k t message hrun hmessage hinv hweight
    obtain ⟨out, hout, hnext⟩ := h.run_succ hrun hmessage
    obtain ⟨hinv', hless⟩ := hinv.step (session.blake3_eq k) hU hUN
      (h.toldApart k t message hrun hmessage) (h.accepts k t message hrun hmessage) hout
    cases out with
    | nil => exact ⟨k + 1, _, hnext, rfl, hinv'.final hU⟩
    | cons part rest =>
      obtain ⟨part', hpart', -⟩ := hless part mem_cons_self
      have hn : 0 < n := (Nat.zero_le _).trans_lt (hweight part' hpart')
      refine ih (n - 1) (by omega) (k + 1) _ _ hnext rfl hinv' fun q hq => ?_
      obtain ⟨q', hq', hlt⟩ := hless q hq
      have := hweight q' hq'
      omega

end Session

/-- **Range reconciliation converges.**  In an undisturbed exchange some call has no reply, and then both
stores hold the triples of the two stores at the start that no other of them shadows. -/
theorem reconciliation_converges (session : Session) (a b : MemoryStore)
    (ha : a.Reachable) (hb : b.Reachable) (h : session.Undisturbed a b) :
    ∃ k t, session.run a b k = .ok t ∧ t.message = none ∧
      t.receiver.triplesIn session.namespaceID = t.sender.triplesIn session.namespaceID ∧
      ∀ u, u ∈ t.receiver.triplesIn session.namespaceID ↔
        u ∈ a.triplesIn session.namespaceID ∪ b.triplesIn session.namespaceID ∧
          ∀ w ∈ a.triplesIn session.namespaceID ∪ b.triplesIn session.namespaceID, w ≠ u →
            ¬ w.Shadows u := by
  set U := a.triplesIn session.namespaceID ∪ b.triplesIn session.namespaceID
  have hU : U.Finite := (a.triples_finite.subset (Set.sep_subset _ _)).union
    (b.triples_finite.subset (Set.sep_subset _ _))
  have hUN : ∀ t ∈ U, t.id.namespaceID = session.namespaceID := by
    rintro t (ht | ht) <;> exact ht.2
  have hstart := Session.invariant_start session.blake3 session.namespaceID ha hb
  obtain ⟨k, t, hrun, hnone, hreceiver, hsender⟩ :=
    h.exists_final hU hUN (2 + U.ncard + 1) 0 _ _ rfl rfl hstart
      fun part _ => Nat.lt_succ_of_le (weight_le hU part)
  refine ⟨k, t, hrun, hnone, hreceiver.trans hsender.symm, fun u => ?_⟩
  rw [hreceiver, mem_maximals_iff]
  rfl

/-! ## Checking a run

An exchange that has ended is undisturbed if each of its calls is, which a concrete run decides. -/

namespace Session

/-- The call a turn leads to accepts its values, does not fail, is not misled by a fingerprint, and its reply
fits a frame. -/
def turnOk (session : Session) (k : ℕ) (t : Turn) : Bool :=
  match t.message with
  | none => true
  | some message =>
    (message.values.zipIdx.all fun vi =>
      acceptTimestamp ((session.env k).clock vi.2) vi.1.entry.entry &&
        (session.env k).validates vi.1.entry vi.1.status) &&
    ((fingerprints message).all fun remote => ToldApart session.blake3 session.scope
      (session.reply k t message).1.store t.sender remote.range) &&
    match (session.reply k t message).2 with
    | .error _ => false
    | .ok parts => (session.reply k t message).1.store.boundedMessage session.blake3
        session.scope parts = ⟨parts⟩

/-- The exchange comes to a turn after `k` calls, one that satisfies `p`. -/
def turnIs (session : Session) (a b : MemoryStore) (k : ℕ) (p : Turn → Bool) : Bool :=
  match session.run a b k with
  | .error _ => false
  | .ok t => p t

variable {session : Session} {a b : MemoryStore} {n : ℕ}

lemma turnIs_iff : session.turnIs a b k p ↔ ∃ t, session.run a b k = .ok t ∧ p t := by
  unfold turnIs
  cases session.run a b k <;> simp

lemma run_of_ended (h : session.turnIs a b n (·.message.isNone)) (j : ℕ) :
    ∃ t, session.run a b (n + j) = .ok t ∧ t.message = none := by
  induction j with
  | zero => simpa using turnIs_iff.mp h
  | succ j ih =>
    obtain ⟨t, hrun, hnone⟩ := ih
    refine ⟨t, ?_, hnone⟩
    rw [← Nat.add_assoc, run, hrun]
    simp [Except.bind, next, hnone]

lemma undisturbed_of_turnsOk (hended : session.turnIs a b n (·.message.isNone))
    (h : ∀ k < n, session.turnIs a b k (session.turnOk k)) : session.Undisturbed a b := by
  have hturn : ∀ k, ∃ t, session.run a b k = .ok t ∧ session.turnOk k t := by
    intro k
    rcases Nat.lt_or_ge k n with hk | hk
    · exact turnIs_iff.mp (h k hk)
    · obtain ⟨j, rfl⟩ := Nat.exists_eq_add_of_le hk
      obtain ⟨t, hrun, hnone⟩ := run_of_ended hended j
      exact ⟨t, hrun, by simp [turnOk, hnone]⟩
  have hok : ∀ {k t}, session.run a b k = .ok t → session.turnOk k t := by
    intro k t hrun
    obtain ⟨t', hrun', hok⟩ := hturn k
    rwa [← Except.ok.inj (hrun'.symm.trans hrun)]
  refine ⟨?_, ?_, ?_, ?_⟩
  · intro k t message hrun hmessage remote hremote
    have hall := hok hrun
    simp only [turnOk, hmessage, Bool.and_eq_true, all_eq_true, decide_eq_true_eq] at hall
    exact hall.1.2 remote hremote
  · intro k err herr
    obtain ⟨t, hrun, -⟩ := hturn k
    simp [hrun] at herr
  · intro k t message hrun hmessage i v hv
    have hall := hok hrun
    simp only [turnOk, hmessage, Bool.and_eq_true, all_eq_true] at hall
    rw [Nat.zero_add]
    exact hall.1.1 (v, i) (mem_zipIdx_iff_getElem?.mpr hv)
  · intro k t message parts hrun hmessage hparts
    have hfits := hok hrun
    simp only [turnOk, hmessage, hparts, Bool.and_eq_true, decide_eq_true_eq] at hfits
    exact hfits.2

end Session

/-! ## A split and differences on both sides -/

def entryAt (key : UInt8) (timestamp : UInt64) : SignedEntry :=
  .unsigned (Vector.replicate 32 0) [key] timestamp

/-- BLAKE3 on the entries of the two stores. -/
def sampleFingerprints : List (SignedEntry × Fingerprint) :=
  [(entryAt 1 5, #v[73, 63, 185, 117, 243, 147, 195, 153, 179, 73, 67, 156, 219, 184, 91, 154, 192, 164, 187, 139,
      218, 237, 6, 255, 229, 52, 77, 54, 70, 190, 110, 198]),
    (entryAt 2 5, #v[35, 100, 172, 42, 198, 29, 212, 47, 186, 79, 89, 148, 174, 148, 179, 52, 124, 59, 194, 75, 131,
      171, 182, 89, 104, 65, 223, 62, 149, 111, 124, 12]),
    (entryAt 3 5, #v[165, 66, 83, 24, 199, 209, 132, 157, 56, 206, 97, 54, 228, 185, 16, 156, 72, 192, 157, 232, 109,
      170, 0, 149, 248, 182, 249, 73, 1, 25, 17, 224]),
    (entryAt 3 6, #v[137, 251, 46, 6, 193, 157, 199, 115, 196, 131, 57, 59, 36, 40, 185, 236, 82, 80, 193, 169, 142,
      248, 176, 162, 30, 225, 22, 60, 38, 236, 11, 136]),
    (entryAt 4 5, #v[168, 238, 85, 197, 17, 229, 2, 148, 208, 19, 76, 87, 229, 8, 220, 244, 196, 72, 132, 48, 247, 199,
      12, 132, 196, 37, 207, 180, 122, 66, 231, 108])]

def sampleBlake3 : Blake3 := fun b =>
  if b = [] then blake3Empty
  else (sampleFingerprints.find? fun p => p.1.fingerprintInput = b).elim (Vector.replicate 32 0) Prod.snd

def sampleSession : Session where
  namespaceID := Vector.replicate 32 0
  blake3 := sampleBlake3
  env _ := Env.plain sampleBlake3 0
  config _ := ⟨1, 2⟩
  blake3_eq _ := rfl

def sampleStore (entries : List SignedEntry) : MemoryStore :=
  (entries.map Insert.put).foldl (Insert.run (Env.plain sampleBlake3 0)) new

lemma reachable_sampleStore (entries : List SignedEntry) : (sampleStore entries).Reachable :=
  ⟨_, new, _, rfl, .foldl _ _ _⟩

def storeA : MemoryStore := sampleStore [entryAt 1 5, entryAt 2 5, entryAt 3 5]

def storeB : MemoryStore := sampleStore [entryAt 2 5, entryAt 3 6, entryAt 4 5]


/-- Each store has an entry that the other one lacks, and one has a newer value of a third. -/
theorem reconciliation_converges_after_split :
    sampleSession.turnIs storeA storeB 1 (fun t => t.message.any fun m => 2 ≤ m.parts.length) ∧
      ∃ k t, sampleSession.run storeA storeB k = .ok t ∧ t.message = none ∧
        t.receiver.triplesIn sampleSession.namespaceID = t.sender.triplesIn sampleSession.namespaceID := by
  have hundisturbed : sampleSession.Undisturbed storeA storeB :=
    Session.undisturbed_of_turnsOk (n := 4) (by decide +kernel) (by decide +kernel)
  refine ⟨by decide +kernel, ?_⟩
  obtain ⟨k, t, hrun, hnone, hsame, -⟩ :=
    reconciliation_converges sampleSession _ _ (reachable_sampleStore _) (reachable_sampleStore _) hundisturbed
  exact ⟨k, t, hrun, hnone, hsame⟩

end Iroh.Docs
