import Iroh.Common.GoMap
import Iroh.Common.Runs

/-!
# Provider connections of the downloader

Reference: `blobs/downloader.go`, `fetch`, `connection`, `drop` and `Close`.

Any number of fetches share a cache of connections, keyed by the text of the provider's address.  A
fetch looks into the cache, connects if there is nothing there, and puts what it got into the cache
unless another connection or the end of the downloader was faster; each of these is a critical section
of its own.  A connection is closed outside the lock, after the section that took it out.

When opening a stream fails, the fetch drops what the cache holds for the address.  That need not be
the connection the stream was to be opened on: between, another fetch can have dropped it and a third
one have cached another (`lateDrop_closes_other`).
-/

namespace Iroh.Blobs

open List GoMap

universe u

/-- `downloader.go::Downloader`, with connections of any type. -/
structure Downloader (C : Type u) where
  closed : Bool
  conns : GoMap String C

/-! ## Fetches -/

inductive Fetch (C : Type u) where
  | absent
  /-- `connection` is about to look into the cache. -/
  | started (key : String)
  /-- `Connect` runs. -/
  | connecting (key : String)
  /-- `Connect` has returned. -/
  | connected (key : String) (conn : C)
  /-- `CloseWithError` of `conn` comes next, outside the lock.  The fetch goes on with `uses`, or ends. -/
  | closing (conn : C) (uses : Option (String × C))
  /-- `connection` has returned. -/
  | holding (key : String) (conn : C)
  /-- `OpenStreamSync` has failed, and not because of the context. -/
  | failed (key : String) (conn : C)
  | streaming
  | ended
deriving DecidableEq

/-- The connection that the fetch alone has: just got from `Connect`, or about to be closed. -/
def Fetch.keeps {C : Type u} : Fetch C → Option C
  | .connected _ conn => some conn
  | .closing conn _ => some conn
  | _ => none

/-- The connection from the cache that the fetch opens its stream on, with its address. -/
def Fetch.uses {C : Type u} : Fetch C → Option (String × C)
  | .closing _ uses => uses
  | .holding key conn => some (key, conn)
  | .failed key conn => some (key, conn)
  | _ => none

/-- What happened to the cache. -/
inductive CacheEvent where
  /-- `connection` found or put a connection there for the fetch. -/
  | got (f : ℕ)
  | cached (key : String)
  | dropped (key : String)
deriving DecidableEq

def CacheEvent.changes (key : String) : CacheEvent → Bool
  | .got _ => false
  | .cached k => k = key
  | .dropped k => k = key

/-- The downloader and its fetches, with the connections that `Connect` has returned, those that `Close`
has taken out and not closed yet, and those that were closed; `log` has the newest event first. -/
structure Downloads (C : Type u) where
  d : Downloader C
  fetches : ℕ → Fetch C
  returned : List C
  closing : List C
  shut : List C
  log : List CacheEvent

/-- The steps of the fetches, by number, and of the caller of `Close`. -/
inductive DownloadStep (C : Type u) where
  | start (f : ℕ) (key : String)
  | lookup (f : ℕ)
  | connect (f : ℕ) (conn : Option C)
  | install (f : ℕ)
  /-- The fetch closes the connection that it has to close. -/
  | closeConn (f : ℕ)
  | openStream (f : ℕ) (ok ctxErr : Bool)
  | drop (f : ℕ)
  | finish (f : ℕ)
  | close
  /-- `Close` closes the `i`-th of the connections it has left. -/
  | closeNext (i : ℕ)
deriving DecidableEq

namespace Downloads

variable {C : Type u}

def new : Downloads C := ⟨⟨false, .empty⟩, fun _ => .absent, [], [], [], []⟩

def goto (s : Downloads C) (f : ℕ) (p : Fetch C) : Downloads C :=
  { s with fetches := Function.update s.fetches f p }

/-- The first critical section of `connection`. -/
def lookup (s : Downloads C) (f : ℕ) (key : String) : Downloads C :=
  if s.d.closed then s.goto f .ended
  else match s.d.conns.get? key with
    | some conn => { s.goto f (.holding key conn) with log := .got f :: s.log }
    | none => s.goto f (.connecting key)

/-- The second critical section of `connection`. -/
def install (s : Downloads C) (f : ℕ) (key : String) (conn : C) : Downloads C :=
  if s.d.closed then s.goto f (.closing conn none)
  else match s.d.conns.get? key with
    | some old => { s.goto f (.closing conn (some (key, old))) with log := .got f :: s.log }
    | none =>
      { s.goto f (.holding key conn) with
        d := { s.d with conns := s.d.conns.set key conn }
        log := .got f :: .cached key :: s.log }

/-- The critical section of `drop`. -/
def drop (s : Downloads C) (f : ℕ) (key : String) : Downloads C :=
  { s.goto f ((s.d.conns.get? key).elim .ended (.closing · none)) with
    d := { s.d with conns := s.d.conns.delete key }
    log := .dropped key :: s.log }

def step (s : Downloads C) : DownloadStep C → Downloads C
  | .start f key => match s.fetches f with
      | .absent => s.goto f (.started key)
      | _ => s
  | .lookup f => match s.fetches f with
      | .started key => s.lookup f key
      | _ => s
  | .connect f conn => match s.fetches f, conn with
      | .connecting _, none => s.goto f .ended
      | .connecting key, some conn =>
        { s.goto f (.connected key conn) with returned := conn :: s.returned }
      | _, _ => s
  | .install f => match s.fetches f with
      | .connected key conn => s.install f key conn
      | _ => s
  | .closeConn f => match s.fetches f with
      | .closing conn uses =>
        { s.goto f (uses.elim .ended fun x => .holding x.1 x.2) with shut := conn :: s.shut }
      | _ => s
  | .openStream f ok ctxErr => match s.fetches f with
      | .holding key conn =>
        if ok then s.goto f .streaming
        else if ctxErr then s.goto f .ended
        else s.goto f (.failed key conn)
      | _ => s
  | .drop f => match s.fetches f with
      | .failed key _ => s.drop f key
      | _ => s
  | .finish f => match s.fetches f with
      | .streaming => s.goto f .ended
      | _ => s
  | .close => { s with d := ⟨true, .empty⟩, closing := s.closing ++ s.d.conns.values }
  | .closeNext i => match s.closing[i]? with
      | some conn => { s with closing := s.closing.eraseIdx i, shut := conn :: s.shut }
      | none => s

/-! ## No connection is lost -/

/-- A connection is where it should be: in the cache, with the one fetch that has it, with `Close`, or
closed. -/
def Placed (s : Downloads C) (conn : C) : Prop :=
  (∃ key, s.d.conns.get? key = some conn) ∨ (∃ f, (s.fetches f).keeps = some conn) ∨
    conn ∈ s.closing ∨ conn ∈ s.shut

def Quiet (s : Downloads C) : Prop :=
  s.closing = [] ∧ ∀ f, s.fetches f = .absent ∨ s.fetches f = .ended

/-- No connection is lost, and none is open after `Close` and the end of the fetches. -/
structure Tidy (s : Downloads C) : Prop where
  placed : ∀ conn ∈ s.returned, s.Placed conn
  shut : s.d.closed → s.Quiet → ∀ conn ∈ s.returned, conn ∈ s.shut

/-! ## Since a fetch got its connection -/

/-- What last changed the cache at `key` since the fetch got the connection that it uses. -/
def lastChange (log : List CacheEvent) (f : ℕ) (key : String) : Option CacheEvent :=
  (log.takeWhile (· ≠ .got f)).find? (·.changes key)

/-- A drop whose address has got another connection since the dropping fetch got its own. -/
def dropsLate (s : Downloads C) : DownloadStep C → Bool
  | .drop f => match s.fetches f with
      | .failed key _ => lastChange s.log f key = some (.cached key)
      | _ => false
  | _ => false

/-- What the cache holds at the address of a connection in use, unless it was filled again. -/
structure Found (d : Downloader C) (log : List CacheEvent) (f : ℕ) (key : String) (conn : C) : Prop where
  same : lastChange log f key = none → d.closed ∨ d.conns.get? key = some conn
  gone : lastChange log f key = some (.dropped key) → d.conns.get? key = none

/-- No connection is lost, and what a fetch uses is as the log says. -/
structure Inv (s : Downloads C) : Prop where
  placed : ∀ conn ∈ s.returned, s.Placed conn
  empty : s.d.closed → s.d.conns = .empty
  found : ∀ f key conn, (s.fetches f).uses = some (key, conn) → Found s.d s.log f key conn

variable {s s' : Downloads C} {conn c : C} {f g : ℕ} {key k : String} {q : Fetch C} {e : CacheEvent}
  {log l : List CacheEvent} {d d' : Downloader C}

lemma inv_new : (new : Downloads C).Inv := ⟨nofun, fun _ => rfl, nofun⟩

lemma Inv.tidy (h : s.Inv) : s.Tidy := by
  refine ⟨h.placed, ?_⟩
  rintro hclosed ⟨hnone, hquiet⟩ conn hconn
  rcases h.placed conn hconn with ⟨key, hkey⟩ | ⟨f, hf⟩ | hclosing | hshut
  · rw [h.empty hclosed] at hkey
    cases hkey
  · rcases hquiet f with hf' | hf' <;> rw [hf'] at hf <;> cases hf
  · rw [hnone] at hclosing
    cases hclosing
  · exact hshut

/-- A fetch sees the events that came after it got its connection. -/
lemma lastChange_cons (log : List CacheEvent) (key : String) (he : e ≠ .got f) :
    lastChange (e :: log) f key = if e.changes key then some e else lastChange log f key := by
  simp only [lastChange, takeWhile_cons, ne_eq, he, not_false_eq_true, decide_true, if_true, find?_cons]
  cases e.changes key <;> rfl

lemma lastChange_got : lastChange (.got f :: log) f key = none := by simp [lastChange]

lemma Found.got (h : Found d log g key conn) (hne : g ≠ f) : Found d (.got f :: log) g key conn := by
  have hlast : lastChange (.got f :: log) g key = lastChange log g key :=
    lastChange_cons log key fun heq => hne (CacheEvent.got.inj heq).symm
  exact ⟨fun hl => h.same (hlast ▸ hl), fun hl => h.gone (hlast ▸ hl)⟩

lemma found_got (hget : d.conns.get? key = some conn) : Found d (.got f :: log) f key conn :=
  ⟨fun _ => .inr hget, fun hl => nomatch lastChange_got.symm.trans hl⟩

lemma Found.cached (h : Found d log g key conn) (k : String) (c : C) :
    Found { d with conns := d.conns.set k c } (.cached k :: log) g key conn := by
  have hlast := lastChange_cons (e := .cached k) (f := g) log key nofun
  by_cases hk : k = key
  · rw [if_pos (by simpa [CacheEvent.changes] using hk)] at hlast
    exact ⟨fun hl => (nomatch hlast.symm.trans hl), fun hl => nomatch hlast.symm.trans hl⟩
  · rw [if_neg (by simpa [CacheEvent.changes] using hk)] at hlast
    have hget : (d.conns.set k c).get? key = d.conns.get? key := by
      rw [get?_set, if_neg (Ne.symm hk)]
    exact ⟨fun hl => (h.same (hlast ▸ hl)).imp_right hget.trans, fun hl => hget.trans (h.gone (hlast ▸ hl))⟩

lemma Found.dropped (h : Found d log g key conn) (k : String) :
    Found { d with conns := d.conns.delete k } (.dropped k :: log) g key conn := by
  have hlast := lastChange_cons (e := .dropped k) (f := g) log key nofun
  have hget : (d.conns.delete k).get? key = if key = k then none else d.conns.get? key := get?_delete _ _ _
  by_cases hk : k = key
  · rw [if_pos hk.symm] at hget
    rw [if_pos (by simpa [CacheEvent.changes] using hk)] at hlast
    exact ⟨fun hl => (nomatch hlast.symm.trans hl), fun _ => hget⟩
  · rw [if_neg (Ne.symm hk)] at hget
    rw [if_neg (by simpa [CacheEvent.changes] using hk)] at hlast
    exact ⟨fun hl => (h.same (hlast ▸ hl)).imp_right hget.trans, fun hl => hget.trans (h.gone (hlast ▸ hl))⟩

/-- The step of one fetch: what happens to the connections in the cache and with the fetch, and what the
fetches find afterwards. -/
lemma Inv.update (h : s.Inv) (q : Fetch C) (hfetches : s'.fetches = Function.update s.fetches f q)
    (hreturned : s'.returned = s.returned) (hclosing : s'.closing = s.closing) (hshut : s.shut ⊆ s'.shut)
    (hcached : ∀ k c, s.d.conns.get? k = some c → s'.Placed c)
    (hself : ∀ c, (s.fetches f).keeps = some c → s'.Placed c)
    (hempty : s'.d.closed → s'.d.conns = .empty)
    (hown : ∀ k c, q.uses = some (k, c) → Found s'.d s'.log f k c)
    (hothers : ∀ g ≠ f, ∀ k c, Found s.d s.log g k c → Found s'.d s'.log g k c) : s'.Inv where
  placed c hc := by
    rcases h.placed c (hreturned ▸ hc) with ⟨k, hk⟩ | ⟨g, hg⟩ | hc | hc
    · exact hcached k c hk
    · by_cases hgf : g = f
      · exact hself c (hgf ▸ hg)
      · exact .inr (.inl ⟨g, by rwa [hfetches, Function.update_of_ne hgf]⟩)
    · exact .inr (.inr (.inl (hclosing ▸ hc)))
    · exact .inr (.inr (.inr (hshut hc)))
  empty := hempty
  found g k c hg := by
    rw [hfetches] at hg
    by_cases hgf : g = f
    · subst hgf
      rw [Function.update_self] at hg
      exact hown k c hg
    · rw [Function.update_of_ne hgf] at hg
      exact hothers g hgf k c (h.found g k c hg)

lemma placed_keeps (hfetches : s'.fetches = Function.update s.fetches f q) (hq : q.keeps = some c) :
    s'.Placed c :=
  .inr (.inl ⟨f, by rw [hfetches, Function.update_self]; exact hq⟩)

/-- A step of a fetch that has no connection of its own, within what it uses. -/
lemma Inv.goto (h : s.Inv) (q : Fetch C) (hkeeps : (s.fetches f).keeps = none)
    (huses : ∀ x, q.uses = some x → (s.fetches f).uses = some x) : (s.goto f q).Inv :=
  h.update q rfl rfl rfl (fun _ => id) (fun k _ hk => .inl ⟨k, hk⟩)
    (fun _ hc => nomatch hkeeps.symm.trans hc) h.empty (fun k c hq => h.found f k c (huses _ hq))
    fun _ _ _ _ => id

lemma Inv.lookup (h : s.Inv) (hf : s.fetches f = .started key) : (s.lookup f key).Inv := by
  have hkeeps : (s.fetches f).keeps = none := by rw [hf]; rfl
  unfold Downloads.lookup
  split
  · exact h.goto .ended hkeeps fun _ hq => by cases hq
  · split
    next conn hget =>
      exact h.update _ rfl rfl rfl (fun _ => id) (fun k _ hk => .inl ⟨k, hk⟩)
        (fun _ hc => by cases hkeeps.symm.trans hc) h.empty
        (fun k c hq => by cases hq; exact found_got hget) fun _ hg _ _ hfound => hfound.got hg
    · exact h.goto _ hkeeps fun _ hq => by cases hq

lemma Inv.connect (h : s.Inv) (hf : s.fetches f = .connecting key) (conn : C) :
    Inv { s.goto f (.connected key conn) with returned := conn :: s.returned } := by
  have hgoto : (s.goto f (.connected key conn)).Inv := h.goto _ (by rw [hf]; rfl) nofun
  refine ⟨fun c hc => ?_, hgoto.empty, hgoto.found⟩
  rcases mem_cons.mp hc with rfl | hc
  · exact placed_keeps (s := s) rfl rfl
  · exact hgoto.placed c hc

lemma Inv.install (h : s.Inv) (hf : s.fetches f = .connected key conn) : (s.install f key conn).Inv := by
  have hkeeps : (s.fetches f).keeps = some conn := by rw [hf]; rfl
  have hclosing : ∀ {s' : Downloads C} {uses}, s'.fetches = Function.update s.fetches f (.closing conn uses) →
      ∀ c, (s.fetches f).keeps = some c → s'.Placed c := by
    intro s' uses hs' c hc
    exact placed_keeps hs' (hkeeps.symm.trans hc)
  unfold Downloads.install
  split
  · exact h.update _ rfl rfl rfl (fun _ => id) (fun k _ hk => .inl ⟨k, hk⟩) (hclosing rfl) h.empty
      (fun k c hq => by cases hq) fun _ _ _ _ => id
  next hopen =>
    split
    next old hget =>
      exact h.update _ rfl rfl rfl (fun _ => id) (fun k _ hk => .inl ⟨k, hk⟩) (hclosing rfl) h.empty
        (fun k c hq => by cases hq; exact found_got hget) fun _ hg _ _ hfound => hfound.got hg
    next hnone =>
      have hopen : s.d.closed = false := Bool.not_eq_true _ ▸ hopen
      have hown : (s.d.conns.set key conn).get? key = some conn := by rw [get?_set, if_pos rfl]
      refine h.update _ rfl rfl rfl (fun _ => id) (fun k c hk => .inl ⟨k, ?_⟩)
        (fun c hc => .inl ⟨key, hown.trans (hkeeps.symm.trans hc)⟩) (fun hc => by cases hopen.symm.trans hc)
        (fun k c hq => by cases hq; exact found_got hown)
        fun _ hg _ _ hfound => (hfound.cached key conn).got hg
      have hne : k ≠ key := by
        rintro rfl
        cases hnone.symm.trans hk
      exact (get?_set _ _ _ _).trans ((if_neg hne).trans hk)

lemma Inv.closeConn (h : s.Inv) (hf : s.fetches f = .closing conn uses) :
    Inv { s.goto f (uses.elim .ended fun x => .holding x.1 x.2) with shut := conn :: s.shut } := by
  refine h.update _ rfl rfl rfl (subset_cons_self _ _) (fun k _ hk => .inl ⟨k, hk⟩) (fun c hc => ?_) h.empty
    (fun k c hq => h.found f k c ?_) fun _ _ _ _ => id
  · rw [hf] at hc
    cases hc
    exact .inr (.inr (.inr mem_cons_self))
  · rw [hf]
    cases uses with
    | none => cases hq
    | some x => exact hq

lemma Inv.drop (h : s.Inv) (hf : s.fetches f = .failed key conn) : (s.drop f key).Inv := by
  refine h.update _ rfl rfl rfl (fun _ => id) (fun k c hk => ?_) (fun c hc => by rw [hf] at hc; cases hc)
    (fun hc => by dsimp only [Downloads.drop]; rw [h.empty hc]; rfl) (fun k c hq => ?_)
    fun _ _ _ _ hfound => hfound.dropped key
  · by_cases hkey : k = key
    · subst hkey
      exact placed_keeps (s := s) rfl (by rw [hk]; rfl)
    · exact .inl ⟨k, (get?_delete _ _ _).trans ((if_neg hkey).trans hk)⟩
  · cases hget : s.d.conns.get? key <;> rw [hget] at hq <;> cases hq

lemma Inv.close (h : s.Inv) :
    Inv { s with d := ⟨true, .empty⟩, closing := s.closing ++ s.d.conns.values } where
  placed c hc := by
    rcases h.placed c hc with ⟨k, hk⟩ | hfetch | hclosing | hshut
    · refine .inr (.inr (.inl (mem_append_right _ ?_)))
      exact mem_map.mpr ⟨(k, c), get?_eq_some.mp hk, rfl⟩
    · exact .inr (.inl hfetch)
    · exact .inr (.inr (.inl (mem_append_left _ hclosing)))
    · exact .inr (.inr (.inr hshut))
  empty _ := rfl
  found _ _ _ _ := ⟨fun _ => .inl rfl, fun _ => rfl⟩

lemma Inv.closeNext (h : s.Inv) (hi : s.closing[i]? = some conn) :
    Inv { s with closing := s.closing.eraseIdx i, shut := conn :: s.shut } where
  placed c hc := by
    rcases h.placed c hc with hcached | hfetch | hclosing | hshut
    · exact .inl hcached
    · exact .inr (.inl hfetch)
    · by_cases hne : c = conn
      · exact .inr (.inr (.inr (hne ▸ mem_cons_self)))
      · obtain ⟨j, hj⟩ := mem_iff_getElem?.mp hclosing
        refine .inr (.inr (.inl (mem_eraseIdx_iff_getElem?.mpr ⟨j, ?_, hj⟩)))
        rintro rfl
        exact hne (Option.some.inj (hj.symm.trans hi))
    · exact .inr (.inr (.inr (mem_cons_of_mem _ hshut)))
  empty := h.empty
  found := h.found

lemma inv_step (s : Downloads C) (a : DownloadStep C) (h : s.Inv) : (s.step a).Inv := by
  cases a with
  | start f key =>
    dsimp only [step]
    split
    next hf => exact h.goto _ (by rw [hf]; rfl) nofun
    · exact h
  | lookup f =>
    dsimp only [step]
    split
    next hf => exact h.lookup hf
    · exact h
  | connect f conn =>
    dsimp only [step]
    split
    next hf => exact h.goto _ (by rw [hf]; rfl) nofun
    next hf => exact h.connect hf _
    · exact h
  | install f =>
    dsimp only [step]
    split
    next hf => exact h.install hf
    · exact h
  | closeConn f =>
    dsimp only [step]
    split
    next hf => exact h.closeConn hf
    · exact h
  | openStream f ok ctxErr =>
    dsimp only [step]
    split
    next hf =>
      have hkeeps : (s.fetches f).keeps = none := by rw [hf]; rfl
      split
      · exact h.goto _ hkeeps nofun
      · split
        · exact h.goto _ hkeeps nofun
        · exact h.goto _ hkeeps fun x hx => by rw [hf]; exact hx
    · exact h
  | drop f =>
    dsimp only [step]
    split
    next hf => exact h.drop hf
    · exact h
  | finish f =>
    dsimp only [step]
    split
    next hf => exact h.goto _ (by rw [hf]; rfl) nofun
    · exact h
  | close => exact h.close
  | closeNext i =>
    dsimp only [step]
    split
    next hi => exact h.closeNext hi
    · exact h

/-! ## Whose connection is dropped -/

/-- A connection that a drop takes out of the cache is the one that failed the dropping fetch. -/
def DropsOwn (s : Downloads C) (a : DownloadStep C) : Prop :=
  ∀ f key conn, a = .drop f → s.fetches f = .failed key conn →
    ∀ key' conn', s.d.conns.get? key' = some conn' →
      (s.step a).d.conns.get? key' ≠ some conn' → conn' = conn

lemma Inv.dropsOwn (h : s.Inv) {a : DownloadStep C} (ha : s.dropsLate a = false) : s.DropsOwn a := by
  rintro f key conn rfl hf key' conn' hconn' hgone
  have hdrop : (s.step (.drop f)).d.conns.get? key' = if key' = key then none else s.d.conns.get? key' := by
    simp only [step, hf]
    exact get?_delete _ _ _
  rw [hdrop] at hgone
  split at hgone
  next hkey =>
    subst hkey
    obtain ⟨hsame, hempty⟩ := h.found f key' conn (by rw [hf]; rfl)
    simp only [dropsLate, hf, decide_eq_false_iff_not] at ha
    cases hlast : lastChange s.log f key' with
    | none =>
      rcases hsame hlast with hclosed | hget
      · rw [h.empty hclosed] at hconn'
        cases hconn'
      · exact Option.some.inj (hconn'.symm.trans hget)
    | some e =>
      have hkey : e.changes key' := find?_some (p := CacheEvent.changes key') hlast
      cases e with
      | got g => cases hkey
      | cached k => exact absurd (of_decide_eq_true hkey ▸ hlast) ha
      | dropped k => cases hconn'.symm.trans (hempty (of_decide_eq_true hkey ▸ hlast))
  next => exact absurd hconn' hgone

/-- **A fetch drops only the connection that failed it** if no fetch drops an address that has got another
connection since it got its own.  Whatever the fetches do, no connection is lost, and none stays open after
`Close` and the end of the fetches. -/
theorem drops_own_of_none_late (steps : List (DownloadStep C))
    (hlate : EachStep step (fun s a => s.dropsLate a = false) new steps) :
    EachStep step DropsOwn new steps ∧ EachState step Tidy new steps := by
  have hinv : EachState step Inv (new : Downloads C) steps := eachState_of_inv _ inv_step inv_new steps
  refine ⟨fun pre a hpre => ?_, fun pre hpre => (hinv pre hpre).tidy⟩
  exact (hinv pre ((prefix_append pre [a]).trans hpre)).dropsOwn (hlate pre a hpre)

/-- Two fetches share a connection and fail on it.  Both drop it, before a third connects again. -/
def twoDrops : List (DownloadStep ℕ) :=
  [.start 0 "a", .lookup 0, .connect 0 (some 1), .install 0, .start 1 "a", .lookup 1,
    .openStream 0 false false, .openStream 1 false false, .drop 0, .drop 1, .closeConn 0,
    .start 2 "a", .lookup 2, .connect 2 (some 2), .install 2, .openStream 2 false false, .close, .drop 2,
    .closeNext 0]

theorem drops_own_of_none_late_two : (twoDrops.foldl step new).shut = [2, 1] ∧
    EachStep step DropsOwn new twoDrops ∧ EachState step Tidy new twoDrops :=
  ⟨by decide, drops_own_of_none_late twoDrops (by decide)⟩

/-- Two fetches fail on one connection; between their drops a third has connected again. -/
def lateDrop : List (DownloadStep ℕ) :=
  [.start 0 "a", .lookup 0, .connect 0 (some 1), .install 0,
    .start 1 "a", .lookup 1, .openStream 0 false false, .openStream 1 false false, .drop 0,
    .start 2 "a", .lookup 2, .connect 2 (some 2), .install 2, .drop 1]

/-- The second drop takes out the new connection, and is about to close it. -/
theorem lateDrop_closes_other : (lateDrop.foldl step new).fetches 1 = .closing 2 none ∧
    ¬EachStep step DropsOwn new lateDrop := by
  refine ⟨by decide, fun h => ?_⟩
  have hdrop := h (lateDrop.take 13) (.drop 1) (by decide) 1 "a" 1 rfl (by decide) "a" 2
    (by decide) (by decide)
  omega

end Downloads

end Iroh.Blobs
