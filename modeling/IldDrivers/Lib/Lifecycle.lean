import IldDrivers.Lib.Ledger
import IldDrivers.Lib.Transition
import Mathlib.Data.Finset.Union
import Mathlib.Data.Fintype.Basic

/-!
# Setting up and taking down a component with activities

A component acquires resources when it is set up, and releases them when it is taken down or when a
later acquisition fails. Meanwhile its activities (interrupt handlers, what they leave for later,
timers, threads, callers) start by themselves: some as long as a resource is held, the others when
they have been armed. An activity uses resources and arms activities, and it must find what it uses.

* `Code`: the calls of the set-up and the take-down, with what follows when one fails;
* `Workers`: the activities; `Workers.step`: the calls and the activities, in any order, any number
  of activities at once;
* `Workers.Safe`: a condition on the code, which can be decided; it follows which activities may
  still be alive;
* `Workers.correct_of_safe`: in every run of safe code nothing is used or released that is not held,
  at the end nothing is held and no activity is left, and this end can always be reached.
-/

/-- What an activity does. -/
inductive Deed (ρ ι : Type*)
  | use (r : ρ)
  | arm (i : ι)
  deriving DecidableEq

/-- The calls of a set-up and a take-down. -/
inductive Code (ρ ι : Type*)
  | done
  /-- Acquire a resource, if there is one to acquire, or fail. -/
  | attempt (r : Option ρ) (next failed : Code ρ ι)
  /-- Acquire a resource without failure. -/
  | setup (r : ρ) (next : Code ρ ι)
  | release (r : ρ) (next : Code ρ ι)
  | arm (i : ι) (next : Code ρ ι)
  /-- Wait until an activity is not running. -/
  | synchronize (i : ι) (next : Code ρ ι)
  /-- Wait until an activity is neither armed nor running. -/
  | flush (i : ι) (next : Code ρ ι)
  /-- Disarm an activity that is not running, and wait for this if it is. -/
  | cancel (i : ι) (next : Code ρ ι)
  /-- Release the resource on which an activity depends while it is not running. -/
  | retire (i : ι) (r : ρ) (next : Code ρ ι)

/-- The activities of a component. -/
structure Workers (ρ ι : Type*) where
  /-- The resource as long as which is held the activity can start by itself. -/
  source : ι → Option ρ
  body : ι → List (Deed ρ ι)

namespace Workers

variable {ρ ι : Type*}

structure State (ρ ι : Type*) where
  code : Code ρ ι
  held : Finset ρ
  armed : ι → Bool
  /-- What is left to do for each activity that is running. -/
  running : ι → List (List (Deed ρ ι))

inductive Act (ι : Type*)
  /-- The next call of the code, and whether it succeeds. -/
  | call (ok : Bool)
  /-- An activity starts by itself. -/
  | fire (i : ι)
  /-- An activity starts that has been armed. -/
  | expire (i : ι)
  /-- The next deed of the `k`-th activity `i`, or its end. -/
  | go (i : ι) (k : ℕ)

variable [DecidableEq ρ] [DecidableEq ι]

/-- Acquire `r` and go on with the code `next`. -/
def State.acquire (s : State ρ ι) (r : ρ) (next : Code ρ ι) :
    Option (State ρ ι × List (LedgerEntry ρ)) :=
  some ({ s with code := next, held := insert r s.held }, [.acquire r])

def State.release (s : State ρ ι) (r : ρ) (next : Code ρ ι) :
    Option (State ρ ι × List (LedgerEntry ρ)) :=
  some ({ s with code := next, held := s.held.erase r }, [.release r])

/-- The next call, which succeeds if it can fail and `ok` says so. -/
def callStep (s : State ρ ι) (ok : Bool) : Option (State ρ ι × List (LedgerEntry ρ)) :=
  match s.code with
  | .done => none
  | .attempt (some r) next failed =>
      if ok then s.acquire r next else some ({ s with code := failed }, [])
  | .attempt none next failed => some ({ s with code := if ok then next else failed }, [])
  | .setup r next => s.acquire r next
  | .release r next => s.release r next
  | .arm i next => some ({ s with code := next, armed := Function.update s.armed i true }, [])
  | .synchronize i next => if s.running i = [] then some ({ s with code := next }, []) else none
  | .flush i next =>
      if s.running i = [] ∧ s.armed i = false then some ({ s with code := next }, []) else none
  | .cancel i next =>
      if s.running i = [] then
        some ({ s with code := next, armed := Function.update s.armed i false }, [])
      else none
  | .retire i r next => if s.running i = [] then s.release r next else none

variable (W : Workers ρ ι)

/-- A new activity `i` is running. -/
def start (s : State ρ ι) (i : ι) : State ρ ι :=
  { s with running := Function.update s.running i (s.running i ++ [W.body i]) }

/-- The next deed of an activity, or its end. -/
def goStep (s : State ρ ι) (i : ι) (k : ℕ) : Option (State ρ ι × List (LedgerEntry ρ)) :=
  match (s.running i)[k]? with
  | none => none
  | some [] => some ({ s with running := Function.update s.running i ((s.running i).eraseIdx k) }, [])
  | some (d :: ds) =>
      let running := Function.update s.running i ((s.running i).set k ds)
      match d with
      | .use r => some ({ s with running := running }, [.use r])
      | .arm j => some ({ s with running := running, armed := Function.update s.armed j true }, [])

def step (s : State ρ ι) : Act ι → Option (State ρ ι × List (LedgerEntry ρ))
  | .call ok => callStep s ok
  | .fire i =>
      match W.source i with
      | some r => if r ∈ s.held then some (W.start s i, []) else none
      | none => none
  | .expire i =>
      if s.armed i = true then
        some (W.start { s with armed := Function.update s.armed i false } i, [])
      else none
  | .go i k => goStep s i k

/-- The code and the activities. -/
def system : System (State ρ ι) (Act ι) (LedgerEntry ρ) := ⟨W.step⟩

/-- Nothing has been set up. -/
def init (code : Code ρ ι) : State ρ ι := ⟨code, ∅, fun _ => false, fun _ => []⟩

/-! ### The condition on the code -/

variable [Fintype ι]

/-- A deed of an activity finds what it uses, and arms only what is known to be alive. -/
def Fits (held : Finset ρ) (live : Finset ι) : Deed ρ ι → Prop
  | .use r => r ∈ held
  | .arm j => j ∈ live ∧ W.source j = none

instance (held : Finset ρ) (live : Finset ι) : ∀ d : Deed ρ ι, Decidable (W.Fits held live d)
  | .use r => inferInstanceAs (Decidable (r ∈ held))
  | .arm j => inferInstanceAs (Decidable (_ ∧ W.source j = none))

/-- With `held` held, the activities in `live` find what they use, and keep no others alive. -/
def Contained (held : Finset ρ) (live : Finset ι) : Prop :=
  (∀ i ∈ live, ∀ d ∈ W.body i, W.Fits held live d) ∧
    ∀ i, ∀ r ∈ W.source i, r ∈ held → i ∈ live

instance (held : Finset ρ) (live : Finset ι) : Decidable (W.Contained held live) :=
  inferInstanceAs (Decidable (_ ∧ _))

/-- An activity and those that it arms. -/
def reach (i : ι) : Finset ι :=
  insert i (Finset.univ.filter fun j => Deed.arm j ∈ W.body i)

/-- The activities that may be alive when `r` is held. -/
def startedBy (r : ρ) : Finset ι := (Finset.univ.filter fun i => W.source i = some r).biUnion W.reach

/-- The code is safe to execute with `held` held, when at most the activities in `live` are alive;
`kept` is what may remain held in the end. -/
def Safe (kept : Finset ρ) (held : Finset ρ) (live : Finset ι) : Code ρ ι → Prop
  | .done => live = ∅ ∧ held ⊆ kept
  | .attempt (some r) next failed =>
      r ∉ held ∧ Safe kept held live failed ∧
        W.Contained (insert r held) (live ∪ W.startedBy r) ∧
        Safe kept (insert r held) (live ∪ W.startedBy r) next
  | .attempt none next failed => Safe kept held live next ∧ Safe kept held live failed
  | .setup r next =>
      r ∉ held ∧ W.Contained (insert r held) (live ∪ W.startedBy r) ∧
        Safe kept (insert r held) (live ∪ W.startedBy r) next
  | .release r next =>
      r ∈ held ∧ W.Contained (held.erase r) live ∧ Safe kept (held.erase r) live next
  | .arm i next =>
      W.source i = none ∧ W.Contained held (live ∪ W.reach i) ∧
        Safe kept held (live ∪ W.reach i) next
  | .synchronize i next =>
      W.source i ≠ none ∧ W.Contained held (live.erase i) ∧ Safe kept held (live.erase i) next
  | .flush i next =>
      Deed.arm i ∉ W.body i ∧ W.Contained held (live.erase i) ∧ Safe kept held (live.erase i) next
  | .cancel i next =>
      W.Contained held (live.erase i) ∧ Safe kept held (live.erase i) next
  | .retire i r next =>
      W.source i ≠ none ∧ r ∈ held ∧ W.Contained (held.erase r) (live.erase i) ∧
        Safe kept (held.erase r) (live.erase i) next

instance decidableSafe (kept : Finset ρ) : ∀ (held : Finset ρ) (live : Finset ι) (code : Code ρ ι),
    Decidable (W.Safe kept held live code)
  | held, live, .done => inferInstanceAs (Decidable (live = ∅ ∧ held ⊆ kept))
  | held, live, .attempt (some r) next failed =>
      have := decidableSafe kept held live failed
      have := decidableSafe kept (insert r held) (live ∪ W.startedBy r) next
      inferInstanceAs (Decidable (_ ∧ _ ∧ _ ∧ _))
  | held, live, .attempt none next failed =>
      have := decidableSafe kept held live next
      have := decidableSafe kept held live failed
      inferInstanceAs (Decidable (_ ∧ _))
  | held, live, .setup r next =>
      have := decidableSafe kept (insert r held) (live ∪ W.startedBy r) next
      inferInstanceAs (Decidable (_ ∧ _ ∧ _))
  | held, live, .release r next =>
      have := decidableSafe kept (held.erase r) live next
      inferInstanceAs (Decidable (_ ∧ _ ∧ _))
  | held, live, .arm i next =>
      have := decidableSafe kept held (live ∪ W.reach i) next
      inferInstanceAs (Decidable (W.source i = none ∧ _ ∧ _))
  | held, live, .synchronize i next =>
      have := decidableSafe kept held (live.erase i) next
      inferInstanceAs (Decidable (W.source i ≠ none ∧ _ ∧ _))
  | held, live, .flush i next =>
      have := decidableSafe kept held (live.erase i) next
      inferInstanceAs (Decidable (Deed.arm i ∉ W.body i ∧ _ ∧ _))
  | held, live, .cancel i next =>
      have := decidableSafe kept held (live.erase i) next
      inferInstanceAs (Decidable (_ ∧ _))
  | held, live, .retire i r next =>
      have := decidableSafe kept (held.erase r) (live.erase i) next
      inferInstanceAs (Decidable (W.source i ≠ none ∧ _ ∧ _ ∧ _))

/-! ### Its meaning -/

/-- Not armed and not running. -/
def State.Idle (s : State ρ ι) (i : ι) : Prop := s.armed i = false ∧ s.running i = []

/-- What holds in every state of a run of safe code, `live` being the activities that may be alive. -/
structure Ruled (kept : Finset ρ) (live : Finset ι) (s : State ρ ι) (log : List (LedgerEntry ρ)) :
    Prop where
  contained : W.Contained s.held live
  safe : W.Safe kept s.held live s.code
  idle : ∀ i ∉ live, s.Idle i
  /-- What starts by itself is not armed. -/
  external : ∀ i, W.source i ≠ none → s.armed i = false
  bodies : ∀ i, ∀ l ∈ s.running i, ∀ d ∈ l, d ∈ W.body i
  sound : Ledger.Sound (fun _ => 0) log
  after : ∀ r, Ledger.after (fun _ => 0) log r = if r ∈ s.held then 1 else 0

variable {W} {kept : Finset ρ} {live : Finset ι} {s s' : State ρ ι} {log out : List (LedgerEntry ρ)}

theorem ruled_init {code : Code ρ ι} (h : W.Safe kept ∅ ∅ code) :
    W.Ruled kept ∅ (init code) [] where
  contained := ⟨fun i hi => absurd hi (Finset.notMem_empty i),
    fun _ r _ hr => absurd hr (Finset.notMem_empty r)⟩
  safe := h
  idle _ _ := ⟨rfl, rfl⟩
  external _ _ := rfl
  bodies _ _ h := by cases h
  sound := trivial
  after _ := rfl

omit [DecidableEq ι] [Fintype ι] in
/-- A resource that is not held is acquired. -/
theorem after_acquire {r : ρ} (hr : r ∉ s.held)
    (h : ∀ r, Ledger.after (fun _ => 0) log r = if r ∈ s.held then 1 else 0) (r' : ρ) :
    Ledger.after (fun _ => 0) (log ++ [.acquire r]) r' = if r' ∈ insert r s.held then 1 else 0 := by
  rw [Ledger.after_append]
  change Function.update _ r _ r' = _
  by_cases hrr : r' = r
  · rw [hrr, Function.update_self, h, if_neg hr, if_pos (Finset.mem_insert_self r s.held)]
  · rw [Function.update_of_ne hrr, h]
    simp [hrr]

omit [DecidableEq ι] [Fintype ι] in
/-- A resource that is held is released. -/
theorem after_release {r : ρ} (hr : r ∈ s.held)
    (h : ∀ r, Ledger.after (fun _ => 0) log r = if r ∈ s.held then 1 else 0) (r' : ρ) :
    Ledger.after (fun _ => 0) (log ++ [.release r]) r' = if r' ∈ s.held.erase r then 1 else 0 := by
  rw [Ledger.after_append]
  change Function.update _ r _ r' = _
  by_cases hrr : r' = r
  · rw [hrr, Function.update_self, h, if_pos hr, if_neg (Finset.notMem_erase r s.held)]
  · rw [Function.update_of_ne hrr, h]
    simp [hrr]

theorem sound_snoc {held : ρ → ℕ} {e : LedgerEntry ρ} (h : Ledger.Sound held log)
    (he : Ledger.Allowed (Ledger.after held log) e) : Ledger.Sound held (log ++ [e]) :=
  Ledger.sound_append.2 ⟨h, he, trivial⟩

/-- The activities that are not in a smaller set are idle. -/
theorem Ruled.idle_erase (h : W.Ruled kept live s log) {i : ι} (hi : s.Idle i) :
    ∀ j ∉ live.erase i, s.Idle j := by
  intro j hj
  by_cases hji : j = i
  · exact hji ▸ hi
  · exact h.idle j fun hlive => hj (Finset.mem_erase.2 ⟨hji, hlive⟩)

/-- What is armed or running may be alive. -/
theorem Ruled.mem_live (h : W.Ruled kept live s log) {i : ι}
    (hi : s.armed i = true ∨ s.running i ≠ []) : i ∈ live := by
  by_contra hlive
  obtain ⟨harmed, hrunning⟩ := h.idle i hlive
  rcases hi with hi | hi
  · rw [harmed] at hi
    cases hi
  · exact hi hrunning

theorem Ruled.acquire (h : W.Ruled kept live s log) {r : ρ} {next : Code ρ ι} (hr : r ∉ s.held)
    (hcontained : W.Contained (insert r s.held) (live ∪ W.startedBy r))
    (hsafe : W.Safe kept (insert r s.held) (live ∪ W.startedBy r) next) :
    W.Ruled kept (live ∪ W.startedBy r) { s with code := next, held := insert r s.held }
      (log ++ [.acquire r]) where
  contained := hcontained
  safe := hsafe
  idle i hi := h.idle i fun hlive => hi (Finset.mem_union_left _ hlive)
  external := h.external
  bodies := h.bodies
  sound := sound_snoc h.sound trivial
  after := after_acquire hr h.after

theorem Ruled.release (h : W.Ruled kept live s log) {r : ρ} {next : Code ρ ι} {live' : Finset ι}
    (hr : r ∈ s.held) (hidle : ∀ i ∉ live', s.Idle i)
    (hcontained : W.Contained (s.held.erase r) live')
    (hsafe : W.Safe kept (s.held.erase r) live' next) :
    W.Ruled kept live' { s with code := next, held := s.held.erase r } (log ++ [.release r]) where
  contained := hcontained
  safe := hsafe
  idle := hidle
  external := h.external
  bodies := h.bodies
  sound := sound_snoc h.sound (by
    change 0 < Ledger.after _ log r
    rw [h.after, if_pos hr]
    exact Nat.one_pos)
  after := after_release hr h.after

/-- A call that leaves the resources alone. -/
theorem Ruled.pass (h : W.Ruled kept live s log) {next : Code ρ ι} {live' : Finset ι}
    {armed : ι → Bool} (hidle : ∀ i ∉ live', armed i = false ∧ s.running i = [])
    (hexternal : ∀ i, W.source i ≠ none → armed i = false)
    (hcontained : W.Contained s.held live') (hsafe : W.Safe kept s.held live' next) :
    W.Ruled kept live' { s with code := next, armed := armed } (log ++ []) where
  contained := hcontained
  safe := hsafe
  idle := hidle
  external := hexternal
  bodies := h.bodies
  sound := by
    rw [List.append_nil]
    exact h.sound
  after := by
    rw [List.append_nil]
    exact h.after

/-- A call. -/
theorem ruled_call (h : W.Ruled kept live s log) {ok : Bool}
    (hstep : callStep s ok = some (s', out)) : ∃ live', W.Ruled kept live' s' (log ++ out) := by
  have hsafe := h.safe
  unfold callStep at hstep
  split at hstep
  · cases hstep
  · next r next failed hcode =>
    rw [hcode] at hsafe
    obtain ⟨hr, hfailed, hcontained, hnext⟩ := hsafe
    split_ifs at hstep
    · cases hstep
      exact ⟨_, h.acquire hr hcontained hnext⟩
    · cases hstep
      exact ⟨live, h.pass h.idle h.external h.contained hfailed⟩
  · next next failed hcode =>
    rw [hcode] at hsafe
    cases hstep
    refine ⟨live, h.pass h.idle h.external h.contained ?_⟩
    split_ifs
    · exact hsafe.1
    · exact hsafe.2
  · next r next hcode =>
    rw [hcode] at hsafe
    cases hstep
    exact ⟨_, h.acquire hsafe.1 hsafe.2.1 hsafe.2.2⟩
  · next r next hcode =>
    rw [hcode] at hsafe
    cases hstep
    exact ⟨live, h.release hsafe.1 h.idle hsafe.2.1 hsafe.2.2⟩
  · next i next hcode =>
    rw [hcode] at hsafe
    obtain ⟨hsource, hcontained, hnext⟩ := hsafe
    cases hstep
    refine ⟨_, h.pass (fun j hj => ?_) (fun j hj => ?_) hcontained hnext⟩
    · have hj' : j ∉ live := fun hlive => hj (Finset.mem_union_left _ hlive)
      have hji : j ≠ i := fun hji => hj (Finset.mem_union_right _ (by simp [hji, reach]))
      rw [Function.update_of_ne hji]
      exact h.idle j hj'
    · have hji : j ≠ i := fun hji => hj (hji ▸ hsource)
      rw [Function.update_of_ne hji]
      exact h.external j hj
  · next i next hcode =>
    rw [hcode] at hsafe
    split_ifs at hstep with hrunning
    cases hstep
    exact ⟨_, h.pass (h.idle_erase ⟨h.external i hsafe.1, hrunning⟩) h.external hsafe.2.1 hsafe.2.2⟩
  · next i next hcode =>
    rw [hcode] at hsafe
    split_ifs at hstep with hidle
    cases hstep
    exact ⟨_, h.pass (h.idle_erase hidle.symm) h.external hsafe.2.1 hsafe.2.2⟩
  · next i next hcode =>
    rw [hcode] at hsafe
    split_ifs at hstep with hrunning
    cases hstep
    refine ⟨_, h.pass (fun j hj => ?_) (fun j hj => ?_) hsafe.1 hsafe.2⟩
    · by_cases hji : j = i
      · rw [hji, Function.update_self]
        exact ⟨rfl, hrunning⟩
      · rw [Function.update_of_ne hji]
        exact h.idle j fun hlive => hj (Finset.mem_erase.2 ⟨hji, hlive⟩)
    · by_cases hji : j = i
      · rw [hji, Function.update_self]
      · rw [Function.update_of_ne hji]
        exact h.external j hj
  · next i r next hcode =>
    rw [hcode] at hsafe
    obtain ⟨hsource, hr, hcontained, hnext⟩ := hsafe
    split_ifs at hstep with hrunning
    cases hstep
    exact ⟨_, h.release hr (h.idle_erase ⟨h.external i hsource, hrunning⟩) hcontained hnext⟩

/-- An activity starts or goes on: what is left of it and of the others of its kind is part of the
body. -/
theorem Ruled.move (h : W.Ruled kept live s log) {i : ι} (hi : i ∈ live)
    {running : List (List (Deed ρ ι))} {armed : ι → Bool}
    (hrunning : ∀ l ∈ running, ∀ d ∈ l, d ∈ W.body i)
    (harmed : ∀ j, armed j = true → s.armed j = true ∨ j ∈ live ∧ W.source j = none)
    (hsound : Ledger.Sound (fun _ => 0) (log ++ out))
    (hafter : Ledger.after (fun _ => 0) (log ++ out) = Ledger.after (fun _ => 0) log) :
    W.Ruled kept live
      { s with armed := armed, running := Function.update s.running i running } (log ++ out) where
  contained := h.contained
  safe := h.safe
  idle j hj := by
    have hji : j ≠ i := fun hji => hj (hji ▸ hi)
    refine ⟨?_, (Function.update_of_ne hji ..).trans (h.idle j hj).2⟩
    change armed j = false
    by_contra hne
    rcases harmed j (by simpa using hne) with hsame | ⟨hlive, -⟩
    · rw [(h.idle j hj).1] at hsame
      cases hsame
    · exact hj hlive
  external j hj := by
    change armed j = false
    by_contra hne
    rcases harmed j (by simpa using hne) with hsame | ⟨-, hsource⟩
    · rw [h.external j hj] at hsame
      cases hsame
    · exact hj hsource
  bodies j l hl d hd := by
    change l ∈ Function.update s.running i running j at hl
    by_cases hji : j = i
    · subst hji
      rw [Function.update_self] at hl
      exact hrunning l hl d hd
    · rw [Function.update_of_ne hji] at hl
      exact h.bodies j l hl d hd
  sound := hsound
  after r := by rw [hafter, h.after]

/-- An activity starts. -/
theorem Ruled.start (h : W.Ruled kept live s log) {i : ι} (hi : i ∈ live) {armed : ι → Bool}
    (harmed : ∀ j, armed j = true → s.armed j = true) :
    W.Ruled kept live (W.start { s with armed := armed } i) (log ++ []) := by
  refine h.move hi (fun l hl d hd => ?_) (fun j hj => .inl (harmed j hj)) ?_ ?_
  · rcases List.mem_append.1 hl with hl | hl
    · exact h.bodies i l hl d hd
    · rw [List.mem_singleton.1 hl] at hd
      exact hd
  · rw [List.append_nil]
    exact h.sound
  · rw [List.append_nil]

/-- A deed of an activity, or its end. -/
theorem ruled_go (h : W.Ruled kept live s log) {i : ι} {k : ℕ}
    (hstep : goStep s i k = some (s', out)) : W.Ruled kept live s' (log ++ out) := by
  unfold goStep at hstep
  have hmem : ∀ {l}, (s.running i)[k]? = some l → l ∈ s.running i ∧ i ∈ live := fun {l} hl =>
    have hl' := List.mem_of_getElem? hl
    ⟨hl', h.mem_live (.inr (List.ne_nil_of_mem hl'))⟩
  split at hstep
  · cases hstep
  · next hl =>
    cases hstep
    refine h.move (hmem hl).2 (fun l hl' => ?_) (fun j => .inl) ?_ ?_
    · exact h.bodies i l (List.mem_of_mem_eraseIdx hl')
    · rw [List.append_nil]
      exact h.sound
    · rw [List.append_nil]
  · next d ds hl =>
    obtain ⟨hl', hi⟩ := hmem hl
    have hrest : ∀ l ∈ (s.running i).set k ds, ∀ d ∈ l, d ∈ W.body i := by
      intro l hset d' hd'
      rcases List.mem_or_eq_of_mem_set hset with hold | rfl
      · exact h.bodies i l hold d' hd'
      · exact h.bodies i _ hl' d' (List.mem_cons_of_mem d hd')
    have hfits := h.contained.1 i hi d (h.bodies i _ hl' d List.mem_cons_self)
    cases d with
    | use r =>
      cases hstep
      refine h.move hi hrest (fun j => .inl) (sound_snoc h.sound ?_) ?_
      · have hr : r ∈ s.held := hfits
        change 0 < Ledger.after _ log r
        rw [h.after, if_pos hr]
        exact Nat.one_pos
      · rw [Ledger.after_append]
        rfl
    | arm j =>
      cases hstep
      refine h.move hi hrest (fun j' harmed => ?_) ?_ ?_
      · by_cases hj : j' = j
        · exact .inr (hj ▸ hfits)
        · exact .inl ((Function.update_of_ne hj ..).symm.trans harmed)
      · rw [List.append_nil]
        exact h.sound
      · rw [List.append_nil]

theorem ruled_step (h : W.Ruled kept live s log) {a : Act ι} (hstep : W.step s a = some (s', out)) :
    ∃ live', W.Ruled kept live' s' (log ++ out) := by
  cases a with
  | call ok => exact ruled_call h hstep
  | go i k => exact ⟨live, ruled_go h hstep⟩
  | fire i =>
    simp only [step] at hstep
    split at hstep
    · next r hr =>
      split_ifs at hstep with hheld
      cases hstep
      exact ⟨live, h.start (h.contained.2 i r hr hheld) fun _ => id⟩
    · cases hstep
  | expire i =>
    simp only [step] at hstep
    split_ifs at hstep with harmed
    cases hstep
    refine ⟨live, h.start (h.mem_live (.inl harmed)) fun j hj => ?_⟩
    by_cases hji : j = i
    · exact hji ▸ harmed
    · exact (Function.update_of_ne hji ..).symm.trans hj

theorem Ruled.exec (h : W.Ruled kept live s log) {acts : List (Act ι)} {log' : List (LedgerEntry ρ)}
    (hrun : W.system.exec s acts = some (s', log')) : ∃ live', W.Ruled kept live' s' (log ++ log') :=
  System.exec_induction_from (I := fun s log => ∃ live, W.Ruled kept live s log)
    (fun _ _ _ _ _ ⟨_, h⟩ _ hstep => ruled_step h hstep) ⟨live, h⟩ (System.along_true s acts) hrun

theorem ruled_of_run {code : Code ρ ι} (hsafe : W.Safe kept ∅ ∅ code) {acts : List (Act ι)}
    (hrun : W.system.exec (init code) acts = some (s, log)) : ∃ live, W.Ruled kept live s log :=
  (ruled_init hsafe).exec hrun

/-- Nothing is left of the component: all that may be held is kept, and no activity is armed, is
running, or can start. -/
def Gone (W : Workers ρ ι) (kept : Finset ρ) (s : State ρ ι) : Prop :=
  s.held ⊆ kept ∧ ∀ i, s.Idle i ∧ W.step s (.fire i) = none

/-! ### The code can always come to its end -/

omit [Fintype ι] in
/-- One activity can be brought to its end: only what it arms changes. -/
theorem exists_finish {i : ι} (l : List (Deed ρ ι)) {ls : List (List (Deed ρ ι))} (s : State ρ ι)
    (hs : s.running i = l :: ls) : ∃ acts s' log, W.system.exec s acts = some (s', log) ∧
      s'.code = s.code ∧ s'.running i = ls ∧ (Deed.arm i ∉ l → s'.armed i = s.armed i) := by
  induction l generalizing s with
  | nil =>
    have hgo : W.step s (.go i 0) =
        some ({ s with running := Function.update s.running i ls }, []) := by
      simp [step, goStep, hs]
    exact ⟨[.go i 0], _, [], System.exec_cons.2 ⟨_, [], [], hgo, rfl, rfl⟩, rfl,
      Function.update_self .., fun _ => rfl⟩
  | cons d ds ih =>
    obtain ⟨t, out, hgo, hcode, hrunning, harmed⟩ : ∃ t out, W.step s (.go i 0) = some (t, out) ∧
        t.code = s.code ∧ t.running i = ds :: ls ∧ (Deed.arm i ≠ d → t.armed i = s.armed i) := by
      cases d with
      | use r =>
        exact ⟨{ s with running := Function.update s.running i (ds :: ls) }, [.use r],
          by simp [step, goStep, hs], rfl, Function.update_self .., fun _ => rfl⟩
      | arm j =>
        refine ⟨{ s with running := Function.update s.running i (ds :: ls)
                         armed := Function.update s.armed j true }, [],
          by simp [step, goStep, hs], rfl, Function.update_self .., fun hne => ?_⟩
        exact Function.update_of_ne (fun hij => hne (by rw [hij])) ..
    obtain ⟨acts, s', log, hrun, hcode', hrunning', harmed'⟩ := ih t hrunning
    refine ⟨.go i 0 :: acts, s', out ++ log, System.exec_cons.2 ⟨t, out, log, hgo, hrun, rfl⟩,
      hcode'.trans hcode, hrunning', fun hnot => ?_⟩
    rw [List.mem_cons, not_or] at hnot
    rw [harmed' hnot.2, harmed hnot.1]

omit [Fintype ι] in
/-- All activities of a kind can be brought to their end. -/
theorem exists_drain {i : ι} (ls : List (List (Deed ρ ι))) (s : State ρ ι) (hs : s.running i = ls) :
    ∃ acts s' log, W.system.exec s acts = some (s', log) ∧ s'.code = s.code ∧ s'.running i = [] ∧
      ((∀ l ∈ ls, Deed.arm i ∉ l) → s'.armed i = s.armed i) := by
  induction ls generalizing s with
  | nil => exact ⟨[], s, [], rfl, rfl, hs, fun _ => rfl⟩
  | cons l ls ih =>
    obtain ⟨acts, t, log, hrun, hcode, hrunning, harmed⟩ := exists_finish (W := W) l s hs
    obtain ⟨acts', s', log', hrun', hcode', hrunning', harmed'⟩ := ih t hrunning
    refine ⟨acts ++ acts', s', log ++ log', System.exec_append hrun hrun', hcode'.trans hcode,
      hrunning', fun hnot => ?_⟩
    rw [harmed' fun l' hl' => hnot l' (List.mem_cons_of_mem l hl'), harmed (hnot l List.mem_cons_self)]

omit [Fintype ι] in
/-- An activity that does not arm itself can be brought to rest. -/
theorem exists_rest (s : State ρ ι) {i : ι} (hself : Deed.arm i ∉ W.body i) :
    ∃ acts s' log, W.system.exec s acts = some (s', log) ∧ s'.code = s.code ∧ s'.Idle i := by
  obtain ⟨acts, t, log₁, hrun, hcode, hrunning, -⟩ := exists_drain (W := W) (s.running i) s rfl
  cases harmed : t.armed i with
  | false => exact ⟨acts, t, log₁, hrun, hcode, harmed, hrunning⟩
  | true =>
    -- it runs once more
    have hexpire : W.step t (.expire i) =
        some (W.start { t with armed := Function.update t.armed i false } i, []) := if_pos harmed
    have honce : (W.start { t with armed := Function.update t.armed i false } i).running i =
        [W.body i] := by
      simp [Workers.start, hrunning]
    obtain ⟨acts', s', log₂, hrun', hcode', hrunning', harmed'⟩ :=
      exists_drain (W := W) [W.body i] _ honce
    refine ⟨acts ++ (.expire i :: acts'), s', log₁ ++ ([] ++ log₂),
      System.exec_append hrun (System.exec_cons.2 ⟨_, [], log₂, hexpire, hrun', rfl⟩),
      hcode'.trans hcode, ?_, hrunning'⟩
    rw [harmed' fun l hl => List.mem_singleton.1 hl ▸ hself]
    exact Function.update_self ..

/-- The code after a call that succeeds. -/
def next : Code ρ ι → Code ρ ι
  | .done => .done
  | .attempt _ next _ | .setup _ next | .release _ next | .arm _ next | .synchronize _ next
  | .flush _ next | .cancel _ next | .retire _ _ next => next

omit [Fintype ι] in
/-- A call can follow when the activities have gone on for a while. -/
theorem exec_call {t : State ρ ι} {acts : List (Act ι)} {code : Code ρ ι}
    (hrun : W.system.exec s acts = some (t, log))
    (hcall : ∃ u out, callStep t true = some (u, out) ∧ u.code = code) :
    ∃ acts u log, W.system.exec s acts = some (u, log) ∧ u.code = code := by
  obtain ⟨u, out, hstep, hcode⟩ := hcall
  have hstep' : W.system.step t (.call true) = some (u, out) := hstep
  exact ⟨acts ++ [.call true], u, log ++ (out ++ []),
    System.exec_append hrun (System.exec_cons.2 ⟨u, out, [], hstep', rfl, rfl⟩), hcode⟩

omit [Fintype ι] in
/-- The next call can be made, when the activities have gone on for a while. -/
theorem exists_next (hne : s.code ≠ .done)
    (hflush : ∀ i next, s.code = .flush i next → Deed.arm i ∉ W.body i) :
    ∃ acts u log, W.system.exec s acts = some (u, log) ∧ u.code = next s.code := by
  have hnow : W.system.exec s [] = some (s, []) := rfl
  cases hs : s.code with
  | done => exact absurd hs hne
  | attempt r next failed =>
    refine exec_call hnow ?_
    cases r with
    | none => exact ⟨{ s with code := next }, [], by simp [callStep, hs], rfl⟩
    | some r =>
      exact ⟨{ s with code := next, held := insert r s.held }, [.acquire r],
        by simp [callStep, hs, State.acquire], rfl⟩
  | setup r next =>
    exact exec_call hnow ⟨{ s with code := next, held := insert r s.held }, [.acquire r],
      by simp [callStep, hs, State.acquire], rfl⟩
  | release r next =>
    exact exec_call hnow ⟨{ s with code := next, held := s.held.erase r }, [.release r],
      by simp [callStep, hs, State.release], rfl⟩
  | arm i next =>
    exact exec_call hnow ⟨{ s with code := next, armed := Function.update s.armed i true }, [],
      by simp [callStep, hs], rfl⟩
  | synchronize i next | cancel i next | retire i r next =>
    -- the activity comes to its end first
    obtain ⟨acts, t, log, hrun, hcode, hrunning, -⟩ := exists_drain (W := W) (s.running i) s rfl
    rw [hs] at hcode
    refine exec_call hrun ?_
    simp [callStep, hcode, hrunning, State.release, Workers.next]
  | flush i next =>
    obtain ⟨acts, t, log, hrun, hcode, hidle⟩ := exists_rest s (hflush i next hs)
    rw [hs] at hcode
    refine exec_call hrun ?_
    simp [callStep, hcode, hidle.1, hidle.2, Workers.next]

theorem Ruled.arm_notMem (h : W.Ruled kept live s log) {i : ι} {next : Code ρ ι}
    (hs : s.code = .flush i next) : Deed.arm i ∉ W.body i := by
  have hsafe := h.safe
  rw [hs] at hsafe
  exact hsafe.1

/-- The code can come to its end from every state of a run of safe code. -/
theorem Ruled.exists_done {code : Code ρ ι} (h : W.Ruled kept live s log) (hs : s.code = code) :
    ∃ acts s' log', W.system.exec s acts = some (s', log') ∧ s'.code = .done := by
  induction code generalizing live s log with
  | done => exact ⟨[], s, [], rfl, hs⟩
  | attempt _ _ _ ih | setup _ _ ih | release _ _ ih | arm _ _ ih | synchronize _ _ ih
  | flush _ _ ih | cancel _ _ ih | retire _ _ _ ih =>
    obtain ⟨acts, u, log₁, hrun, hu⟩ := exists_next (by rw [hs]; simp) fun _ _ => h.arm_notMem
    rw [hs] at hu
    obtain ⟨live', hruled⟩ := h.exec hrun
    obtain ⟨acts', s', log₂, hrun', hdone⟩ := ih hruled hu
    exact ⟨acts ++ acts', s', log₁ ++ log₂, System.exec_append hrun hrun', hdone⟩

/-- In every run, whatever fails and whenever the activities start and go on: nothing is used or
released that is not held; when the code has come to its end, nothing is left and every resource that
is not kept has been released as often as it has been acquired; and the code can come to its end. -/
def Correct (W : Workers ρ ι) (kept : Finset ρ) (code : Code ρ ι) : Prop :=
  ∀ acts s log, W.system.exec (init code) acts = some (s, log) →
    Ledger.Sound (fun _ => 0) log ∧
      (s.code = .done → W.Gone kept s ∧
        ∀ r ∉ kept, log.count (.release r) = log.count (.acquire r)) ∧
      ∃ acts' s' log', W.system.exec s acts' = some (s', log') ∧ s'.code = .done

/-- **Safe code is correct.** -/
theorem correct_of_safe {code : Code ρ ι} (hsafe : W.Safe kept ∅ ∅ code) : W.Correct kept code := by
  intro acts s log hrun
  obtain ⟨live, h⟩ := ruled_of_run hsafe hrun
  refine ⟨h.sound, fun hdone => ?_, h.exists_done rfl⟩
  have hend := h.safe
  rw [hdone] at hend
  obtain ⟨rfl, hkept⟩ := hend
  refine ⟨⟨hkept, fun i => ⟨h.idle i (Finset.notMem_empty i), ?_⟩⟩, fun r hr => ?_⟩
  · simp only [step]
    split
    · next r hr =>
      rw [if_neg fun hheld => Finset.notMem_empty i (h.contained.2 i r hr hheld)]
    · rfl
  · have hcount := Ledger.held_add_count h.sound r
    rw [h.after, if_neg fun hheld => hr (hkept hheld)] at hcount
    omega

end Workers
