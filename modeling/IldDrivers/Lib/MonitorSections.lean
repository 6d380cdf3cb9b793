import IldDrivers.Lib.Monitor

/-!
# The calls of a monitor, one after the other

A call of a `Monitor` takes effect in its last critical section. No other process is in a body then,
so its statements do what they do alone (`Completes`).

* `Chain`: a list of sections in which each call completes alone, on what the previous one left;
* `Linear`: the invariant that ties the chain to the state, also in the middle of a section;
* `chain_of_run`, `object_of_run`: the sections of every run form a chain, and account for the object
  whenever the mutex is free;
* `accounts_of_run`: a call returns the value of its section, and a call without one returns none;
* `leavesObject_of_run`: a call that a signal has ended has left the object alone;
* `Outline.of_run`: an outline that is right for each call alone is right in every run.
-/

namespace Monitor

variable {π σ κ ℓ ρ : Type*}

/-- The last critical sections of a run, in their order. -/
def sections (log : List (Output π σ κ ρ)) : List (Section π σ κ ρ) :=
  log.filterMap fun o => match o with
    | .finished x => some x
    | .returned _ _ _ => none

/-- The object as the last of these sections left it. -/
def lastObject (start : σ) (xs : List (Section π σ κ ρ)) : σ := xs.foldl (fun _ x => x.after) start

@[simp] theorem sections_nil : sections ([] : List (Output π σ κ ρ)) = [] := rfl

theorem sections_append (log log' : List (Output π σ κ ρ)) :
    sections (log ++ log') = sections log ++ sections log' := List.filterMap_append

@[simp] theorem sections_finished (x : Section π σ κ ρ) : sections [.finished x] = [x] := rfl

@[simp] theorem sections_returned (p : π) (c : κ) (r : Option ρ) :
    sections ([.returned p c r] : List (Output π σ κ ρ)) = [] := rfl

@[simp] theorem lastObject_snoc (start : σ) (xs : List (Section π σ κ ρ)) (x : Section π σ κ ρ) :
    lastObject start (xs ++ [x]) = x.after := by
  simp [lastObject]

variable (M : Monitor σ κ ℓ ρ)

/-! ### A body alone -/

/-- One statement of the call `c`, with nobody else in a body. -/
def Next (c : κ) (x y : σ × (ℓ ⊕ ρ)) : Prop := ∃ l, x.2 = .inl l ∧ y = M.stmt c x.1 l

/-- Alone, the body of the call `c` leads from `s` to `s'` with the value `r`. -/
def Completes (c : κ) (s s' : σ) (r : ρ) : Prop :=
  Relation.ReflTransGen (M.Next c) (s, .inl (M.entry c)) (s', .inr r)

variable {M}

/-- The first statement of a path, and the others. -/
theorem path_of_stmt {c : κ} {s s' : σ} {l : ℓ} {y : ℓ ⊕ ρ} {z : σ × (ℓ ⊕ ρ)}
    (h : M.stmt c s l = (s', y)) (hrest : Relation.ReflTransGen (M.Next c) (s', y) z) :
    Relation.ReflTransGen (M.Next c) (s, .inl l) z := hrest.head ⟨l, rfl, h.symm⟩

theorem next_rightUnique (c : κ) : Relator.RightUnique (M.Next c) := by
  rintro x y z ⟨l, hl, rfl⟩ ⟨l', hl', rfl⟩
  rw [hl] at hl'
  cases hl'
  rfl

theorem eq_of_next_inr {c : κ} {s : σ} {r : ρ} {y : σ × (ℓ ⊕ ρ)}
    (h : Relation.ReflTransGen (M.Next c) (s, .inr r) y) : y = (s, .inr r) := by
  induction h with
  | refl => rfl
  | tail _ hlast ih =>
    obtain ⟨l, hl, -⟩ := hlast
    rw [ih] at hl
    cases hl

/-- A body does one thing. -/
theorem Completes.unique {c : κ} {s t u : σ} {r r' : ρ} (h : M.Completes c s t r)
    (h' : M.Completes c s u r') : t = u ∧ r = r' := by
  rcases Relation.ReflTransGen.total_of_right_unique (next_rightUnique c) h h' with h₁ | h₁
  · cases eq_of_next_inr h₁
    exact ⟨rfl, rfl⟩
  · cases eq_of_next_inr h₁
    exact ⟨rfl, rfl⟩

variable (M) in
/-- Each section is a call that need not wait and completes, on what the previous one left. -/
def Chain : σ → List (Section π σ κ ρ) → Prop
  | _, [] => True
  | s, x :: xs =>
      M.blocked x.call s = false ∧ M.Completes x.call s x.after x.ret ∧ Chain x.after xs

theorem Chain.snoc {s : σ} {xs : List (Section π σ κ ρ)} (h : M.Chain s xs) {x : Section π σ κ ρ}
    (hb : M.blocked x.call (lastObject s xs) = false)
    (hx : M.Completes x.call (lastObject s xs) x.after x.ret) : M.Chain s (xs ++ [x]) := by
  induction xs generalizing s with
  | nil => exact ⟨hb, hx, trivial⟩
  | cons y ys ih => exact ⟨h.1, h.2.1, ih h.2.2 hb hx⟩

/-! ### The invariant -/

/-- What is left of the body at a point in its midst. -/
def Point.work : Point ℓ ρ → Option (ℓ ⊕ ρ)
  | .body l => some (.inl l)
  | .unlock r => some (.inr r)
  | _ => none

def Proc.work : Proc κ ℓ ρ → Option (κ × (ℓ ⊕ ρ))
  | .outside => none
  | .inside c pt => pt.work.map (Prod.mk c)

theorem holds_of_work {x : Proc κ ℓ ρ} {y : κ × (ℓ ⊕ ρ)} (h : x.work = some y) :
    x.holds = true := by
  cases x with
  | outside => cases h
  | inside c pt => cases pt <;> first | rfl | cases h

@[simp] theorem work_next (c : κ) (y : ℓ ⊕ ρ) :
    (Proc.inside c (Point.next y)).work = some (c, y) := by
  cases y <;> rfl

variable [DecidableEq π] {s s' : State π σ κ ℓ ρ} {p q : π} {c : κ} {out : List (Output π σ κ ρ)}
  {log : List (Output π σ κ ρ)} {start : σ} {acts : List (Act π κ)}

omit [DecidableEq π] in
theorem work_wakeAll (c : κ) (l : ℓ) (proc : π → Proc κ ℓ ρ) (q : π) :
    (M.wakeAll c l proc q).work = (proc q).work := by
  rcases M.wakeAll_cases c l proc q with ⟨c', w, hq, hwake⟩ | ⟨-, hwake⟩
  · rw [hwake, hq]
    rfl
  · rw [hwake]

variable (M) in
/-- The sections so far form a chain; the object is as the last one left it, unless a process is in
the midst of the next. -/
structure Linear (start : σ) (s : State π σ κ ℓ ρ) (log : List (Output π σ κ ρ)) : Prop where
  chain : M.Chain start (sections log)
  rest : (∀ p, (s.proc p).work = none) → s.object = lastObject start (sections log)
  midst : ∀ p c y, (s.proc p).work = some (c, y) →
    M.blocked c (lastObject start (sections log)) = false ∧
      Relation.ReflTransGen (M.Next c)
        (lastObject start (sections log), .inl (M.entry c)) (s.object, y)

omit [DecidableEq π] in
theorem linear_init (o : σ) : M.Linear o (init π κ ℓ ρ o) [] where
  chain := trivial
  rest _ := rfl
  midst p c y h := by cases h

/-- A step outside the bodies. -/
theorem Linear.outside (h : M.Linear start s log) {x : Proc κ ℓ ρ} {m : Option π}
    (hp : (s.proc p).work = none) (hx : x.work = none) (hout : sections out = []) :
    M.Linear start ({ s with mutex := m }.setProc p x) (log ++ out) := by
  have hproc : ∀ q, (({ s with mutex := m }.setProc p x).proc q).work = (s.proc q).work := by
    intro q
    by_cases hq : q = p
    · rw [hq, setProc_self, hx, hp]
    · rw [setProc_of_ne hq]
  have hsec : sections (log ++ out) = sections log := by rw [sections_append, hout, List.append_nil]
  refine ⟨hsec ▸ h.chain, fun hrest => ?_, fun q c y hq => ?_⟩
  · rw [hsec]
    exact h.rest fun q => by rw [← hproc q, hrest q]
  · rw [hsec]
    exact h.midst q c y (by rw [← hproc q]; exact hq)

/-- The first step of a section: nobody is in the midst of another. -/
theorem Linear.enter (h : M.Linear start s log) (hexcl : Exclusive s)
    (hp : s.proc p = .inside c .loop) (hb : M.blocked c s.object = false) :
    M.Linear start (s.setProc p (.inside c (.body (M.entry c)))) log := by
  have hnone : ∀ q, (s.proc q).work = none := by
    intro q
    rw [Option.eq_none_iff_forall_ne_some]
    intro y hq
    have hqp : q = p := hexcl.unique (holds_of_work hq) (by rw [hp]; rfl)
    rw [hqp, hp] at hq
    cases hq
  have hobject := h.rest hnone
  refine ⟨h.chain, fun _ => hobject, fun q c' y hq => ?_⟩
  by_cases hqp : q = p
  · rw [hqp, setProc_self] at hq
    cases hq
    rw [← hobject]
    exact ⟨hb, .refl⟩
  · rw [setProc_of_ne hqp, hnone] at hq
    cases hq

/-- A statement of a body. -/
theorem Linear.statement (h : M.Linear start s log) (hexcl : Exclusive s) {l : ℓ}
    (hp : s.proc p = .inside c (.body l)) :
    M.Linear start
      ({ s with object := (M.stmt c s.object l).1, proc := M.wakeAll c l s.proc }.setProc p
        (.inside c (.next (M.stmt c s.object l).2))) log := by
  have hwork : (s.proc p).work = some (c, .inl l) := by rw [hp]; rfl
  obtain ⟨hb, hpath⟩ := h.midst p c _ hwork
  refine ⟨h.chain, fun hrest => ?_, fun q c' y hq => ?_⟩
  · have hnone := hrest p
    rw [setProc_self, work_next] at hnone
    cases hnone
  · by_cases hqp : q = p
    · rw [hqp, setProc_self, work_next] at hq
      cases hq
      exact ⟨hb, hpath.tail ⟨l, rfl, rfl⟩⟩
    · -- nobody else holds the mutex
      rw [setProc_of_ne hqp, work_wakeAll] at hq
      exact absurd (hexcl.unique (holds_of_work hq) (holds_of_work hwork)) hqp

/-- The end of a section. -/
theorem Linear.unlock (h : M.Linear start s log) (hexcl : Exclusive s) {r : ρ}
    (hp : s.proc p = .inside c (.unlock r)) :
    M.Linear start ({ s with mutex := none }.setProc p (.inside c (.ret (some r))))
      (log ++ [.finished ⟨p, c, s.object, r⟩]) := by
  have hwork : (s.proc p).work = some (c, .inr r) := by rw [hp]; rfl
  obtain ⟨hb, hpath⟩ := h.midst p c _ hwork
  have hlast : lastObject start (sections (log ++ [.finished ⟨p, c, s.object, r⟩])) = s.object := by
    rw [sections_append, sections_finished, lastObject_snoc]
  refine ⟨?_, fun _ => hlast.symm, fun q c' y hq => ?_⟩
  · rw [sections_append, sections_finished]
    exact h.chain.snoc hb hpath
  · by_cases hqp : q = p
    · rw [hqp, setProc_self] at hq
      cases hq
    · rw [setProc_of_ne hqp] at hq
      exact absurd (hexcl.unique (holds_of_work hq) (holds_of_work hwork)) hqp

theorem linear_step (h : M.Linear start s log) (hexcl : Exclusive s) {a : Act π κ}
    (hstep : M.step s a = some (s', out)) : M.Linear start s' (log ++ out) := by
  cases stepped_of_step hstep with
  | starts p c hp | loops p c hp | waits p c w w' hp | endsWait p c w hp | returns p c r hp
  | wakened p c w w' hp =>
    exact h.outside (m := s.mutex) (by rw [hp]; rfl) rfl rfl
  | interrupted p c pt hp hpt =>
    refine h.outside (m := s.mutex) ?_ rfl rfl
    rw [hp]
    rcases hpt with rfl | ⟨w, rfl⟩ <;> rfl
  | locks p c hp | unlocksWait p c hp => exact h.outside (by rw [hp]; rfl) rfl rfl
  | enters p c hp hb =>
    rw [List.append_nil]
    exact h.enter hexcl hp hb
  | runs p c l hp =>
    rw [List.append_nil]
    exact h.statement hexcl hp
  | unlocks p c r hp => exact h.unlock hexcl hp

theorem linear_of_run (hrun : (M.system π).exec (init π κ ℓ ρ start) acts = some (s, log)) :
    Exclusive s ∧ M.Linear start s log :=
  System.exec_induction (I := fun s log => Exclusive s ∧ M.Linear start s log)
    (fun _ _ _ _ _ h hstep => ⟨exclusive_step h.1 hstep, linear_step h.2 h.1 hstep⟩)
    ⟨exclusive_init start, linear_init start⟩ hrun

/-- **The sections of a run form a chain.** -/
theorem chain_of_run (hrun : (M.system π).exec (init π κ ℓ ρ start) acts = some (s, log)) :
    M.Chain start (sections log) := (linear_of_run hrun).2.chain

/-- When the mutex is free, the object is as the last section left it. -/
theorem object_of_run (hrun : (M.system π).exec (init π κ ℓ ρ start) acts = some (s, log))
    (hfree : s.mutex = none) : s.object = lastObject start (sections log) := by
  obtain ⟨hexcl, hlin⟩ := linear_of_run hrun
  refine hlin.rest fun p => ?_
  rw [Option.eq_none_iff_forall_ne_some]
  intro y hp
  have hholds := holds_of_work hp
  rw [hexcl.not_holds hfree p] at hholds
  cases hholds

/-! ### What the calls return -/

/-- The calls of process `p` that have had their last critical section, with its value. -/
def completed (p : π) (log : List (Output π σ κ ρ)) : List (κ × ρ) :=
  (sections log).filterMap fun x => if x.pid = p then some (x.call, x.ret) else none

/-- The calls of process `p` that no signal has ended, with the values returned. -/
def returned (p : π) (log : List (Output π σ κ ρ)) : List (κ × ρ) :=
  log.filterMap fun o => match o with
    | .returned q c r => if q = p then r.map (Prod.mk c) else none
    | .finished _ => none

/-- The value a process is about to return. -/
def Proc.pending : Proc κ ℓ ρ → List (κ × ρ)
  | .inside c (.ret (some r)) => [(c, r)]
  | _ => []

/-- Every call that has had its last critical section has returned the value of it, or is about to. -/
def Accounts (s : State π σ κ ℓ ρ) (log : List (Output π σ κ ρ)) : Prop :=
  ∀ p, completed p log = returned p log ++ (s.proc p).pending

theorem completed_append (p : π) (log out : List (Output π σ κ ρ)) :
    completed p (log ++ out) = completed p log ++ completed p out := by
  rw [completed, sections_append, List.filterMap_append]
  rfl

theorem returned_append (p : π) (log out : List (Output π σ κ ρ)) :
    returned p (log ++ out) = returned p log ++ returned p out := List.filterMap_append

/-- A step that neither ends a section nor returns. -/
theorem Accounts.silent (h : Accounts s log)
    (hproc : ∀ q, (s'.proc q).pending = (s.proc q).pending) : Accounts s' (log ++ []) := by
  intro p
  rw [List.append_nil, hproc, h p]

/-- A step that puts out a section or a value. -/
theorem Accounts.speak (h : Accounts s log) {x : Proc κ ℓ ρ} {m : Option π}
    (hself : (s.proc p).pending ++ completed p out = returned p out ++ x.pending)
    (hother : ∀ q, q ≠ p → completed q out = [] ∧ returned q out = []) :
    Accounts ({ s with mutex := m }.setProc p x) (log ++ out) := by
  intro q
  rw [completed_append, returned_append, h q, List.append_assoc, List.append_assoc]
  congr 1
  by_cases hq : q = p
  · rw [hq, setProc_self, hself]
  · rw [setProc_of_ne hq, (hother q hq).1, (hother q hq).2, List.append_nil, List.nil_append]

theorem pending_setProc {x : Proc κ ℓ ρ} {m : Option π} {o : σ}
    (hx : x.pending = (s.proc p).pending) (q : π) :
    (({ s with object := o, mutex := m }.setProc p x).proc q).pending = (s.proc q).pending := by
  by_cases hq : q = p
  · rw [hq, setProc_self, hx]
  · rw [setProc_of_ne hq]

omit [DecidableEq π] in
theorem pending_wakeAll (c : κ) (l : ℓ) (proc : π → Proc κ ℓ ρ) (q : π) :
    (M.wakeAll c l proc q).pending = (proc q).pending := by
  rcases M.wakeAll_cases c l proc q with ⟨c', w, hq, hwake⟩ | ⟨-, hwake⟩
  · rw [hwake, hq]
    rfl
  · rw [hwake]

theorem accounts_step (h : Accounts s log) {a : Act π κ} (hstep : M.step s a = some (s', out)) :
    Accounts s' (log ++ out) := by
  cases stepped_of_step hstep with
  | starts p c hp | locks p c hp | loops p c hp | enters p c hp | unlocksWait p c hp
  | waits p c w w' hp | endsWait p c w hp | wakened p c w w' hp =>
    exact h.silent (pending_setProc (by rw [hp]; rfl))
  | interrupted p c pt hp hpt =>
    refine h.silent (pending_setProc ?_)
    rw [hp]
    rcases hpt with rfl | ⟨w, rfl⟩ <;> rfl
  | runs p c l hp =>
    refine h.silent fun q => ?_
    rw [← pending_wakeAll (M := M) c l s.proc q]
    refine pending_setProc (s := { s with proc := M.wakeAll c l s.proc }) ?_ q
    rw [pending_wakeAll, hp]
    cases (M.stmt c s.object l).2 <;> rfl
  | unlocks p c r hp =>
    refine h.speak ?_ fun q hq => ?_
    · simp [hp, Proc.pending, completed, returned]
    · have hpq : p ≠ q := fun h => hq h.symm
      simp [completed, returned, hpq]
  | returns p c r hp =>
    refine h.speak (m := s.mutex) ?_ fun q hq => ?_
    · cases r <;> simp [hp, Proc.pending, completed, returned]
    · have hpq : p ≠ q := fun h => hq h.symm
      simp [completed, returned, hpq]

theorem accounts_of_run (hrun : (M.system π).exec (init π κ ℓ ρ start) acts = some (s, log)) :
    Accounts s log :=
  System.exec_induction (I := Accounts) (fun _ _ _ _ _ h hstep => accounts_step h hstep)
    (fun _ => rfl) hrun

/-! ### Calls that a signal ends -/

/-- Past the loop, the value not yet returned. -/
def Proc.Committed : Proc κ ℓ ρ → Prop
  | .inside _ (.body _) | .inside _ (.unlock _) | .inside _ (.ret (some _)) => True
  | _ => False

theorem committed_next (c : κ) (y : ℓ ⊕ ρ) : (Proc.inside c (Point.next y)).Committed := by
  cases y <;> trivial

/-- The process an action concerns. -/
def Act.pid : Act π κ → π
  | .start p _ | .run p | .signal p => p

variable (M) in
/-- The step, if it is one of process `p`, leaves the object alone. -/
def LeavesObject (p : π) (s : State π σ κ ℓ ρ) (a : Act π κ) : Prop :=
  a.pid = p → ∀ s' out, M.step s a = some (s', out) → s'.object = s.object

/-- Only a process past the loop changes the object. -/
theorem object_eq_or_committed {a : Act π κ} (hstep : M.step s a = some (s', out)) :
    s'.object = s.object ∨ (s.proc a.pid).Committed := by
  cases stepped_of_step hstep with
  | runs p c l hp =>
    right
    change (s.proc p).Committed
    rw [hp]
    trivial
  | starts | locks | loops | enters | unlocksWait | waits | endsWait | unlocks | returns | wakened
  | interrupted => exact .inl rfl

theorem committed_setProc (h : (s.proc p).Committed) {x : Proc κ ℓ ρ} {m : Option π} {o : σ}
    (hx : p = q → x.Committed) :
    (({ s with object := o, mutex := m }.setProc q x).proc p).Committed := by
  by_cases hpq : p = q
  · rw [hpq, setProc_self]
    exact hx hpq
  · rw [setProc_of_ne hpq]
    exact h

/-- A process past the loop stays there until it returns a value. -/
theorem committed_step (h : (s.proc p).Committed) {a : Act π κ}
    (hstep : M.step s a = some (s', out)) :
    (s'.proc p).Committed ∨ ∃ c r, .returned p c r ∈ out := by
  have hnot : ∀ {q x y}, s.proc q = x → ¬ x.Committed → p = q → y := by
    rintro q x y hq hx rfl
    exact absurd (hq ▸ h) hx
  cases stepped_of_step hstep with
  | starts q c hq | loops q c hq | waits q c w w' hq | endsWait q c w hq | wakened q c w w' hq =>
    exact .inl (committed_setProc h (m := s.mutex) (hnot hq id))
  | locks q c hq | unlocksWait q c hq => exact .inl (committed_setProc h (hnot hq id))
  | interrupted q c pt hq hpt =>
    refine .inl (committed_setProc h (m := s.mutex) (hnot hq ?_))
    rcases hpt with rfl | ⟨w, rfl⟩ <;> exact id
  | enters q c hq => exact .inl (committed_setProc h (m := s.mutex) fun _ => trivial)
  | runs q c l hq =>
    left
    refine committed_setProc (s := { s with proc := M.wakeAll c l s.proc }) ?_
      fun _ => committed_next c _
    rcases M.wakeAll_cases c l s.proc p with ⟨c', w, hp, -⟩ | ⟨-, hsame⟩
    · rw [hp] at h
      exact h.elim
    · change (M.wakeAll c l s.proc p).Committed
      rwa [hsame]
  | unlocks q c r hq => exact .inl (committed_setProc h fun _ => trivial)
  | returns q c r hq =>
    by_cases hpq : p = q
    · exact .inr ⟨c, r, hpq ▸ List.mem_singleton_self _⟩
    · exact .inl (committed_setProc h (m := s.mutex) fun heq => absurd heq hpq)

/-- **A call that a signal has ended has left the object alone**: as long as process `p` returns from
no call, and is not past the loop at the end, none of its steps changes the object. -/
theorem leavesObject_of_run (hrun : (M.system π).exec s acts = some (s', log))
    (hlog : ∀ c r, .returned p c r ∉ log) (hend : ¬ (s'.proc p).Committed) :
    (M.system π).Along (M.LeavesObject p) s acts := by
  induction acts generalizing s log with
  | nil => trivial
  | cons a acts ih =>
    obtain ⟨t, out, outs, hstep, hrest, rfl⟩ := System.exec_cons.1 hrun
    have hlog' : ∀ c r, Output.returned p c r ∉ outs := fun c r hm =>
      hlog c r (List.mem_append_right _ hm)
    -- once past the loop, `p` would still be there at the end
    have hnot : ¬ (s.proc p).Committed := fun h => by
      have hI := System.exec_induction
        (I := fun (s : State π σ κ ℓ ρ) (log : List (Output π σ κ ρ)) =>
          (∀ c r, .returned p c r ∉ log) → (s.proc p).Committed)
        (fun u logu b u' out' hu hstep' hl => ?_) (fun _ => h) hrun
      · exact hend (hI hlog)
      · have hbefore := hu fun c r hm => hl c r (List.mem_append_left _ hm)
        refine (committed_step hbefore hstep').resolve_right ?_
        rintro ⟨c, r, hm⟩
        exact hl c r (List.mem_append_right _ hm)
    refine (System.along_cons hstep).2 ⟨fun ha t' out' hstep' => ?_, ih hrest hlog'⟩
    exact (object_eq_or_committed hstep').resolve_right (ha ▸ hnot)

/-! ### Proof outlines -/

/-- What holds of the object between two calls and before each statement, for a call alone. -/
structure Outline (M : Monitor σ κ ℓ ρ) where
  rest : σ → Prop
  facts : κ → ℓ → σ → Prop
  entry : ∀ {c s}, rest s → M.blocked c s = false → facts c (M.entry c) s
  step : ∀ {c s l l'}, facts c l s → (M.stmt c s l).2 = .inl l' → facts c l' (M.stmt c s l).1
  last : ∀ {c s l r}, facts c l s → (M.stmt c s l).2 = .inr r → rest (M.stmt c s l).1

namespace Outline

variable (O : M.Outline)

/-- What the outline says in the midst of a body. -/
def At (c : κ) (x : σ × (ℓ ⊕ ρ)) : Prop :=
  match x.2 with
  | .inl l => O.facts c l x.1
  | .inr _ => O.rest x.1

variable {O}

theorem at_of_path {x y : σ × (ℓ ⊕ ρ)} (hx : O.At c x)
    (hpath : Relation.ReflTransGen (M.Next c) x y) : O.At c y := by
  induction hpath with
  | refl => exact hx
  | tail _ hlast ih =>
    obtain ⟨l, hl, rfl⟩ := hlast
    simp only [At, hl] at ih
    unfold At
    split
    · next l' hnext => exact O.step ih hnext
    · next r hnext => exact O.last ih hnext

omit [DecidableEq π] in
/-- What is right between two calls stays so along a chain. -/
theorem rest_of_chain {xs : List (Section π σ κ ρ)} (hrest : O.rest start)
    (h : M.Chain start xs) : O.rest (lastObject start xs) := by
  induction xs generalizing start with
  | nil => exact hrest
  | cons x xs ih =>
    have hentry : O.At x.call (start, .inl (M.entry x.call)) := O.entry hrest h.1
    exact ih (at_of_path hentry h.2.1) h.2.2

omit [DecidableEq π] in
theorem at_of_linear (hrest : O.rest start) (hlin : M.Linear start s log) {y : ℓ ⊕ ρ}
    (hp : (s.proc p).work = some (c, y)) : O.At c (s.object, y) := by
  obtain ⟨hb, hpath⟩ := hlin.midst p c y hp
  have hentry : O.At c (lastObject start (sections log), .inl (M.entry c)) :=
    O.entry (rest_of_chain hrest hlin.chain) hb
  exact at_of_path hentry hpath

/-- **A proof outline is true in every run**: of the object when the mutex is free, and of each
process in the midst of a body. -/
theorem of_run (hrest : O.rest start)
    (hrun : (M.system π).exec (init π κ ℓ ρ start) acts = some (s, log)) :
    (s.mutex = none → O.rest s.object) ∧
      ∀ p c y, (s.proc p).work = some (c, y) → O.At c (s.object, y) := by
  have hlin := (linear_of_run hrun).2
  refine ⟨fun hfree => ?_, fun p c y hp => at_of_linear hrest hlin hp⟩
  rw [object_of_run hrun hfree]
  exact rest_of_chain hrest hlin.chain

end Outline

end Monitor
