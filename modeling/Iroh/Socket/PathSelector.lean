import Iroh.Socket.RemoteState

/-!
# The path selector

Reference: `internal/socket/path_selector.go`.

`Select` passes once over the candidates.  It keeps the candidate with the lowest key and the lowest key under
which the current path is offered, and leaves the current path for another tier, or for a gain of
`RttSwitchingMin`.

RTTs are `int64`, and both sums are taken there.  They are the sums of the numbers for RTTs that are not
within milliseconds of the ends of `int64` (`PathCandidate.InRange`).
-/

namespace Iroh.Socket

universe u v

/-- What the selector asks of an `Addr` besides its key: whether it is an IPv6 address.  The key shows
this, and whether the address belongs to a relay. -/
class SelectorAddr (α : Type u) (κ : outParam (Type v)) extends PathAddr α κ where
  is6 : α → Bool
  is6_of_key : ∀ a b, pathKey a = pathKey b → is6 a = is6 b
  relay_of_key : ∀ a b, pathKey a = pathKey b → isRelayAddr a = isRelayAddr b

/-- An IPv4 address is the number of its 32 bits, an IPv6 address is `2 ^ 32` more than that of its 128. -/
def Addr.is6 : Addr → Bool
  | .ip ap => 2 ^ 32 ≤ ap.addr
  | _ => false

instance : SelectorAddr Addr Addr where
  is6 := Addr.is6
  is6_of_key _ _ h := congrArg Addr.is6 h
  relay_of_key _ _ h := congrArg PathAddr.isRelayAddr h

open PathAddr SelectorAddr List

/-- `IPv6RttAdvantage`, in nanoseconds. -/
def ipv6RttAdvantage : Int64 := 3 * 1000000

/-- `RttSwitchingMin`, in nanoseconds. -/
def rttSwitchingMin : Int64 := 5 * 1000000

inductive TransportTier where
  | primary
  | backup
deriving DecidableEq

section Selector

variable {α : Type u} {κ : Type v} [SelectorAddr α κ]

def bias (a : α) : TransportTier × Int64 :=
  if isRelayAddr a then (.backup, 0)
  else if is6 a then (.primary, -ipv6RttAdvantage)
  else (.primary, 0)

def sortKey (a : α) (rtt : Int64) : TransportTier × Int64 := ((bias a).1, rtt + (bias a).2)

def keyLess (x y : TransportTier × Int64) : Bool :=
  if x.1 ≠ y.1 then x.1 = .primary else x.2 < y.2

def PathCandidate.key (c : PathCandidate α) : TransportTier × Int64 := sortKey c.addr c.rtt

def PathCandidate.Is (a : α) (c : PathCandidate α) : Prop := pathKey c.addr = pathKey a

/-- The RTT of a candidate with the bias of its address, as numbers. -/
def PathCandidate.biased (c : PathCandidate α) : ℤ := c.rtt.toInt + (bias c.addr).2.toInt

/-- Neither the biased RTT nor `RttSwitchingMin` more leaves `int64`. -/
def PathCandidate.InRange (c : PathCandidate α) : Prop :=
  -2 ^ 63 ≤ c.biased ∧ c.biased + rttSwitchingMin.toInt < 2 ^ 63

instance (c : PathCandidate α) : Decidable c.InRange := inferInstanceAs (Decidable (_ ∧ _))

lemma toInt_rttSwitchingMin : rttSwitchingMin.toInt = 5000000 := by decide

lemma toInt_add_of_lt {a b : Int64} (hle : -2 ^ 63 ≤ a.toInt + b.toInt) (hlt : a.toInt + b.toInt < 2 ^ 63) :
    (a + b).toInt = a.toInt + b.toInt := by
  rw [Int64.toInt_add]
  exact Int.bmod_eq_of_le (by simpa using hle) (by simpa using hlt)

lemma PathCandidate.InRange.toInt_key {c : PathCandidate α} (h : c.InRange) : c.key.2.toInt = c.biased := by
  obtain ⟨hle, hlt⟩ := h
  rw [toInt_rttSwitchingMin] at hlt
  exact toInt_add_of_lt hle (by unfold biased at hlt; omega)

lemma PathCandidate.InRange.toInt_key_add {c : PathCandidate α} (h : c.InRange) :
    (c.key.2 + rttSwitchingMin).toInt = c.biased + rttSwitchingMin.toInt := by
  have hkey := h.toInt_key
  obtain ⟨hle, hlt⟩ := h
  have hmin := toInt_rttSwitchingMin
  rw [toInt_add_of_lt (by rw [hkey]; omega) (by rw [hkey]; exact hlt), hkey]

lemma PathCandidate.Is.tier_eq {c : PathCandidate α} (h : c.Is a) : c.key.1 = (bias a).1 := by
  rw [PathCandidate.key, sortKey, bias, bias, relay_of_key _ _ h, is6_of_key _ _ h]

variable [DecidableEq κ]

instance (a : α) (c : PathCandidate α) : Decidable (c.Is a) := inferInstanceAs (Decidable (_ = _))

/-- The variables of the loop of `Select`. -/
structure Scan (α : Type u) where
  best : Option (PathCandidate α)
  cur : Option (TransportTier × Int64)

/-- The body of the loop of `Select`. -/
def Scan.visit (current : Option α) (s : Scan α) (c : PathCandidate α) : Scan α where
  best := if s.best.all (keyLess c.key ·.key) then some c else s.best
  cur :=
    if current.any (c.Is ·) then if s.cur.all (keyLess c.key) then some c.key else s.cur else s.cur

def select (current : Option α) (candidates : List (PathCandidate α)) : Option α :=
  let s := candidates.foldl (Scan.visit current) ⟨none, none⟩
  match s.best, s.cur with
  | none, _ => none
  | some best, none => some best.addr
  | some best, some cur =>
    if cur.1 ≠ best.key.1 then some best.addr
    else if best.key.2 + rttSwitchingMin ≤ cur.2 then some best.addr
    else none

/-- The path in use after `Select`: the one it returns, or else the current one, if it is a candidate. -/
def inUse (current : Option α) (candidates : List (PathCandidate α)) : Option α :=
  (select current candidates).or (current.filter fun a => candidates.any (·.Is a))

/-! ## The two minima -/

def rank (k : TransportTier × Int64) : Bool ×ₗ ℤ := toLex (decide (k.1 = .backup), k.2.toInt)

lemma keyLess_eq (x y : TransportTier × Int64) : keyLess x y = decide (rank x < rank y) := by
  obtain ⟨tx, rx⟩ := x
  obtain ⟨ty, ry⟩ := y
  cases tx <;> cases ty <;> simp [keyLess, rank, Prod.Lex.toLex_lt_toLex, Int64.lt_iff_toInt_lt]

def offered (current : Option α) (candidates : List (PathCandidate α)) : List (TransportTier × Int64) :=
  (candidates.filter fun c => current.any (c.Is ·)).map PathCandidate.key

lemma mem_offered {candidates : List (PathCandidate α)} :
    k ∈ offered current candidates ↔ ∃ a ∈ current, ∃ c ∈ candidates, c.Is a ∧ c.key = k := by
  cases current <;> simp [offered, and_assoc]

lemma foldl_visit (current : Option α) (candidates : List (PathCandidate α)) :
    candidates.foldl (Scan.visit current) ⟨none, none⟩ =
      ⟨candidates.argmin (rank ·.key), (offered current candidates).argmin rank⟩ := by
  have hpair : ∀ s : Scan α, candidates.foldl (Scan.visit current) s =
      ⟨candidates.foldl (fun o c => if o.all (keyLess c.key ·.key) then some c else o) s.best,
        (offered current candidates).foldl (fun o k => if o.all (keyLess k) then some k else o)
          s.cur⟩ := by
    unfold offered
    induction candidates with
    | nil => exact fun s => rfl
    | cons c candidates ih =>
      intro s
      rw [foldl_cons, ih, filter_cons, foldl_cons]
      by_cases hc : current.any (c.Is ·) <;> simp [Scan.visit, hc]
  rw [hpair]
  congr
  · funext o c
    cases o <;> simp [argAux, keyLess_eq]
  · funext o k
    cases o <;> simp [argAux, keyLess_eq]

lemma rank_le_iff : rank x ≤ rank y ↔ x.1 = .primary ∧ y.1 = .backup ∨ x.1 = y.1 ∧ x.2.toInt ≤ y.2.toInt := by
  obtain ⟨tx, rx⟩ := x
  obtain ⟨ty, ry⟩ := y
  cases tx <;> cases ty <;> simp [rank, Prod.Lex.toLex_le_toLex]

/-- `b` is a candidate, and each candidate is of a worse tier or of the same and no faster. -/
structure Lowest (candidates : List (PathCandidate α)) (b : PathCandidate α) : Prop where
  mem : b ∈ candidates
  le : ∀ c ∈ candidates, b.key.1 = .primary ∧ c.key.1 = .backup ∨ b.key.1 = c.key.1 ∧ b.biased ≤ c.biased

variable {current : Option α} {candidates candidates' : List (PathCandidate α)}

/-- **What `Select` does.**  It returns the best candidate, which is better by `RttSwitchingMin` than the
current path if that is of the same tier, or keeps a current path that is worse by less. -/
theorem select_spec (current : Option α) (hne : candidates ≠ []) (hrange : ∀ c ∈ candidates, c.InRange) :
    ∃ b, Lowest candidates b ∧
    (select current candidates = some b.addr ∧ (∀ a ∈ current, ∀ c ∈ candidates, c.Is a →
        b.key.1 = c.key.1 → b.biased + rttSwitchingMin.toInt ≤ c.biased) ∨
      select current candidates = none ∧ ∃ a ∈ current, ∃ c ∈ candidates, c.Is a ∧
        c.key.1 = b.key.1 ∧ c.biased < b.biased + rttSwitchingMin.toInt) := by
  unfold select
  rw [foldl_visit]
  cases hbest : candidates.argmin (rank ·.key) with
  | none => exact absurd (argmin_eq_none.mp hbest) hne
  | some b =>
    have hb : b ∈ candidates := argmin_mem hbest
    have hlowest : Lowest candidates b := by
      refine ⟨hb, fun c hc => ?_⟩
      have hle := rank_le_iff.mp (le_of_mem_argmin (f := (rank ·.key)) hc hbest)
      rwa [(hrange b hb).toInt_key, (hrange c hc).toInt_key] at hle
    refine ⟨b, hlowest, ?_⟩
    cases hcur : (offered current candidates).argmin rank with
    | none =>
      refine .inl ⟨rfl, fun a ha c hc his => ?_⟩
      have hkey := mem_offered.mpr ⟨a, ha, c, hc, his, rfl⟩
      rw [argmin_eq_none.mp hcur] at hkey
      cases hkey
    | some k =>
      obtain ⟨a, rfl, c₀, hc₀, ha, rfl⟩ := mem_offered.mp (argmin_mem hcur)
      have htiers : ∀ c : PathCandidate α, c.Is a → c₀.key.1 = c.key.1 :=
        fun c his => ha.tier_eq.trans his.tier_eq.symm
      have hgains : b.key.2 + rttSwitchingMin ≤ c₀.key.2 ↔
          b.biased + rttSwitchingMin.toInt ≤ c₀.biased := by
        rw [Int64.le_iff_toInt_le, (hrange b hb).toInt_key_add, (hrange c₀ hc₀).toInt_key]
      dsimp only
      split
      next htier =>
        refine .inl ⟨rfl, ?_⟩
        rintro _ ⟨⟩ c hc his heq
        exact absurd ((htiers c his).trans heq.symm) htier
      next htier =>
        split
        next hgain =>
          refine .inl ⟨rfl, ?_⟩
          rintro _ ⟨⟩ c hc his -
          have hkey := mem_offered.mpr ⟨a, rfl, c, hc, his, rfl⟩
          rcases rank_le_iff.mp (le_of_mem_argmin hkey hcur) with ⟨h, h'⟩ | ⟨-, hle⟩
          · rw [htiers c his, h'] at h
            cases h
          · rw [(hrange c₀ hc₀).toInt_key, (hrange c hc).toInt_key] at hle
            exact (hgains.mp hgain).trans hle
        next hgain =>
          exact .inr ⟨rfl, a, rfl, c₀, hc₀, ha, not_not.mp htier, Int.not_le.mp (mt hgains.mpr hgain)⟩

/-! ## The path in use -/

/-- The path is a candidate, in the tier of the best one and worse by less than `RttSwitchingMin`. -/
def Settled (candidates : List (PathCandidate α)) (p : α) : Prop :=
  ∃ b, Lowest candidates b ∧ ∃ c ∈ candidates, c.Is p ∧ c.key.1 = b.key.1 ∧
    c.biased < b.biased + rttSwitchingMin.toInt

lemma Settled.inUse_eq (h : Settled candidates p) (hrange : ∀ c ∈ candidates, c.InRange)
    (hperm : candidates'.Perm candidates) : inUse (some p) candidates' = some p := by
  obtain ⟨b, ⟨hb, hlow⟩, c, hc, his, htier, hgain⟩ := h
  have hc' := hperm.mem_iff.mpr hc
  obtain ⟨b', ⟨hb', hlow'⟩, ⟨-, hswitch⟩ | ⟨hselect, -⟩⟩ :=
    select_spec (some p) (ne_nil_of_mem hc') fun c hc => hrange c (hperm.mem_iff.mp hc)
  · -- both minima are the same, so that there is nothing to gain
    have hle := hlow b' (hperm.mem_iff.mp hb')
    have hle' := hlow' b (hperm.mem_iff.mpr hb)
    have hnot := hswitch p rfl c hc' his
    rcases hle with ⟨h₁, h₂⟩ | ⟨h₁, h₂⟩ <;> rcases hle' with ⟨h₃, h₄⟩ | ⟨h₃, h₄⟩
    · simp [h₁] at h₄
    · simp [h₁, h₂] at h₃
    · simp [h₃, h₄] at h₁
    · have := hnot (h₃.trans htier.symm)
      omega
  · have hany : candidates'.any (·.Is p) = true := any_eq_true.mpr ⟨c, hc', by simpa using his⟩
    rw [inUse, hselect, Option.none_or, Option.filter_some, if_pos hany]

/-- The path is a candidate that none beats by the margin. -/
structure NearOptimal (current : Option α) (candidates : List (PathCandidate α)) (p : α) : Prop where
  candidate : ∃ c ∈ candidates, c.Is p
  primary : (∃ c ∈ candidates, c.key.1 = .primary) → (bias p).1 = .primary
  near : ∃ c ∈ candidates, c.Is p ∧ ∀ c' ∈ candidates, c'.key.1 = (bias p).1 →
    c.biased < c'.biased + rttSwitchingMin.toInt
  switched : ∀ a ∈ current, pathKey p ≠ pathKey a → (bias p).1 = (bias a).1 →
    ∃ b ∈ candidates, b.Is p ∧ ∀ c ∈ candidates, c.Is a → b.biased + rttSwitchingMin.toInt ≤ c.biased
  stable : ∀ candidates', candidates'.Perm candidates → inUse (some p) candidates' = some p

lemma Settled.nearOptimal (h : Settled candidates p) (hrange : ∀ c ∈ candidates, c.InRange)
    (hswitched : ∀ a ∈ current, pathKey p ≠ pathKey a → (bias p).1 = (bias a).1 →
      ∃ b ∈ candidates, b.Is p ∧ ∀ c ∈ candidates, c.Is a → b.biased + rttSwitchingMin.toInt ≤ c.biased) :
    NearOptimal current candidates p := by
  obtain ⟨b, ⟨hb, hlow⟩, c, hc, his, htier, hgain⟩ := id h
  have hbias : (bias p).1 = b.key.1 := his.tier_eq.symm.trans htier
  refine ⟨⟨c, hc, his⟩, ?_, ⟨c, hc, his, fun c' hc' hsame => ?_⟩, hswitched,
    fun _ => h.inUse_eq hrange⟩
  · rintro ⟨c', hc', hprimary⟩
    rcases hlow c' hc' with ⟨hb, -⟩ | ⟨hb, -⟩
    · exact hbias.trans hb
    · exact hbias.trans (hb.trans hprimary)
  · rcases hlow c' hc' with ⟨hb, hc'⟩ | ⟨-, hle⟩
    · rw [hsame, hbias, hb] at hc'
      cases hc'
    · omega

/-- **The path in use is near optimal and stable**; there is none only if there are no candidates. -/
theorem inUse_nearOptimal (current : Option α) (candidates : List (PathCandidate α))
    (hrange : ∀ c ∈ candidates, c.InRange) :
    (inUse current candidates).elim (candidates = []) (NearOptimal current candidates) := by
  rcases eq_or_ne candidates [] with rfl | hne
  · have hnone : inUse current ([] : List (PathCandidate α)) = none := by
      cases current <;> rfl
    rw [hnone]
    rfl
  · obtain ⟨b, hb, ⟨hselect, hswitch⟩ | ⟨hselect, a, ha, c, hc, his, htier, hgain⟩⟩ :=
      select_spec current hne hrange
    · rw [inUse, hselect]
      have hsettled : Settled candidates b.addr :=
        ⟨b, hb, b, hb.mem, rfl, rfl, Int.lt_add_of_pos_right _ (by decide)⟩
      refine hsettled.nearOptimal hrange fun a ha _ htier => ⟨b, hb.mem, rfl, fun c hc his => ?_⟩
      exact hswitch a ha c hc his (htier.trans his.tier_eq.symm)
    · have hany : candidates.any (·.Is a) = true := any_eq_true.mpr ⟨c, hc, by simpa using his⟩
      rw [inUse, hselect, ha, Option.none_or, Option.filter_some, if_pos hany]
      refine Settled.nearOptimal ⟨b, hb, c, hc, his, htier, hgain⟩ hrange ?_
      exact fun a' ha' hne => absurd (congrArg pathKey (Option.some.inj ha')) hne

/-- A relay path in use, an IPv4 path offered twice and an IPv6 path that is slower by two milliseconds. -/
def threePaths : List (PathCandidate Addr) :=
  [⟨.relay 1 1, 1000000⟩, ⟨.ip ⟨1, 1⟩, 30000000⟩, ⟨.ip ⟨2 ^ 32 + 1, 1⟩, 27000000⟩, ⟨.ip ⟨1, 1⟩, 25000000⟩]

theorem inUse_nearOptimal_threePaths :
    inUse (some (.relay 1 1)) threePaths = some (.ip ⟨2 ^ 32 + 1, 1⟩) ∧
      NearOptimal (some (.relay 1 1)) threePaths (.ip ⟨2 ^ 32 + 1, 1⟩) := by
  have hinUse : inUse (some (.relay 1 1)) threePaths = some (.ip ⟨2 ^ 32 + 1, 1⟩) := by
    decide +kernel
  have h := inUse_nearOptimal (some (.relay 1 1)) threePaths (by decide +kernel)
  rw [hinUse] at h
  exact ⟨hinUse, h⟩

/-- Two IPv4 paths at the upper end of `int64`, one nanosecond apart. -/
def slowPaths : List (PathCandidate Addr) :=
  [⟨.ip ⟨1, 1⟩, Int64.maxValue⟩, ⟨.ip ⟨2, 1⟩, Int64.maxValue - 1⟩]

/-- The sum with `RttSwitchingMin` is negative there, and the gain of one nanosecond is enough. -/
theorem switch_for_one_nanosecond : inUse (some (.ip ⟨1, 1⟩)) slowPaths = some (.ip ⟨2, 1⟩) ∧
    ¬NearOptimal (some (.ip ⟨1, 1⟩)) slowPaths (.ip ⟨2, 1⟩) := by
  refine ⟨by decide +kernel, fun h => ?_⟩
  obtain ⟨b, hb, -, hgain⟩ := h.switched (.ip ⟨1, 1⟩) rfl (by decide) (by decide)
  have hnone : ∀ b ∈ slowPaths,
      ¬b.biased + rttSwitchingMin.toInt ≤ (⟨.ip ⟨1, 1⟩, Int64.maxValue⟩ : PathCandidate Addr).biased := by
    decide +kernel
  exact hnone b hb (hgain _ mem_cons_self rfl)

end Selector

end Iroh.Socket
