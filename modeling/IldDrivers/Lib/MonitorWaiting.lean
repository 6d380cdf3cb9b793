import IldDrivers.Lib.MonitorSections
import Mathlib.Algebra.BigOperators.Group.Finset.Basic
import Mathlib.Algebra.Order.BigOperators.Group.Finset

/-!
# Who waits in a monitor, and for how long

* `Outline.Rouses`: in the bodies, whatever unblocks a call is followed by a wake-up of those who wait
  in it; then `Outline.no_lost_wakeup`: when the mutex is free, whoever sleeps, or is bound to, still
  has a reason to;
* `Quiet`: nobody has anything left to do but sleep;
* `Ends`: each body comes to its end; then `settlesIn_quiet`: as long as no call is made and no signal
  comes, all processes together can only execute a bounded number of statements, and when none can
  go on, they are quiet. So there is neither deadlock nor livelock.
-/

namespace Monitor

variable {π σ κ ℓ ρ : Type*} {M : Monitor σ κ ℓ ρ}

/-! ### Wake-ups -/

/-- Every statement that unblocks a call wakes those who wait in it, or leaves it owed; and what is
owed is done before the end of the body. -/
def Outline.Rouses (O : M.Outline) (owes : κ → ℓ → κ → Prop) : Prop :=
  ∀ c l s c', O.facts c l s →
    (M.blocked c' s = true ∧ M.blocked c' (M.stmt c s l).1 = false) ∨ owes c l c' →
      M.wakes c l c' = true ∨ ∃ l', (M.stmt c s l).2 = .inl l' ∧ owes c l' c'

/-- Somebody in a body owes a wake-up to those who wait in the call `c`. -/
def Owed (owes : κ → ℓ → κ → Prop) (s : State π σ κ ℓ ρ) (c : κ) : Prop :=
  ∃ p c' l, s.proc p = .inside c' (.body l) ∧ owes c' l c

/-- Whoever is parked has a reason to, or is owed a wake-up. -/
def ParkedWell (M : Monitor σ κ ℓ ρ) (owes : κ → ℓ → κ → Prop) (s : State π σ κ ℓ ρ) : Prop :=
  ∀ p c w, s.proc p = .inside c (.wait w) → w.Parked → M.blocked c s.object = true ∨ Owed owes s c

variable [DecidableEq π] {owes : κ → ℓ → κ → Prop} {s s' : State π σ κ ℓ ρ} {p q : π} {c : κ}
  {out log : List (Output π σ κ ρ)} {start : σ} {acts : List (Act π κ)}

theorem Owed.setProc (h : Owed owes s c) (hp : ∀ c' l, s.proc p ≠ .inside c' (.body l))
    {x : Proc κ ℓ ρ} {m : Option π} : Owed owes ({ s with mutex := m }.setProc p x) c := by
  obtain ⟨q, c', l, hq, howes⟩ := h
  have hqp : q ≠ p := by
    rintro rfl
    exact hp c' l hq
  exact ⟨q, c', l, by rw [setProc_of_ne hqp]; exact hq, howes⟩

/-- A step outside the bodies: the process that makes it must not park without a reason. -/
theorem ParkedWell.outside (h : M.ParkedWell owes s) (hp : ∀ c' l, s.proc p ≠ .inside c' (.body l))
    {x : Proc κ ℓ ρ} {m : Option π}
    (hx : ∀ c w, x = .inside c (.wait w) → w.Parked →
      M.blocked c s.object = true ∨ Owed owes s c) :
    M.ParkedWell owes ({ s with mutex := m }.setProc p x) := by
  intro q c w hq hw
  rw [setProc_object]
  by_cases hqp : q = p
  · rw [hqp, setProc_self] at hq
    exact (hx c w hq hw).imp_right fun howed => howed.setProc hp
  · rw [setProc_of_ne hqp] at hq
    exact (h q c w hq hw).imp_right fun howed => howed.setProc hp

/-- A statement of a body: whom it may concern is woken, or will be. -/
theorem ParkedWell.statement {O : M.Outline} (hO : O.Rouses owes) (h : M.ParkedWell owes s)
    (hexcl : Exclusive s) {l : ℓ} (hp : s.proc p = .inside c (.body l))
    (hfacts : O.facts c l s.object) :
    M.ParkedWell owes
      ({ s with object := (M.stmt c s.object l).1, proc := M.wakeAll c l s.proc }.setProc p
        (.inside c (.next (M.stmt c s.object l).2))) := by
  intro q c' w hq hw
  rw [setProc_object]
  have hqp : q ≠ p := by
    rintro rfl
    rw [setProc_self] at hq
    cases hnext : (M.stmt c s.object l).2 <;> rw [hnext] at hq <;> cases hq
  rw [setProc_of_ne hqp] at hq
  have hwait : ∃ w', s.proc q = .inside c' (.wait w') ∧
      w = if M.wakes c l c' then w'.wake else w' := by
    rcases M.wakeAll_cases c l s.proc q with ⟨c'', w', hq', hwake⟩ | ⟨hq', hwake⟩
    · cases hwake.symm.trans hq
      exact ⟨w', hq', rfl⟩
    · exact absurd (hwake.symm.trans hq) (hq' c' w)
  obtain ⟨w', hq', rfl⟩ := hwait
  by_cases hwakes : M.wakes c l c' = true
  · rw [if_pos hwakes] at hw
    exact absurd hw (WaitPoint.wake_not_parked w')
  rw [if_neg hwakes] at hw
  cases hb : M.blocked c' (M.stmt c s.object l).1 with
  | true => exact .inl rfl
  | false =>
    have hcause : (M.blocked c' s.object = true ∧ M.blocked c' (M.stmt c s.object l).1 = false) ∨
        owes c l c' := by
      refine (h q c' w' hq' hw).imp (fun hblocked => ⟨hblocked, hb⟩) ?_
      rintro ⟨r, cr, lr, hr, howes⟩
      -- only the holder of the mutex can owe a wake-up
      have hrp : r = p := hexcl.unique (by rw [hr]; rfl) (by rw [hp]; rfl)
      rw [hrp, hp] at hr
      cases hr
      exact howes
    rcases hO c l s.object c' hfacts hcause with hwake | ⟨l', hnext, howes⟩
    · exact absurd hwake hwakes
    · refine .inr ⟨p, c, l', ?_, howes⟩
      rw [setProc_self, hnext]
      rfl

theorem parkedWell_step {O : M.Outline} (hO : O.Rouses owes) (h : M.ParkedWell owes s)
    (hexcl : Exclusive s) (hfacts : ∀ p c l, s.proc p = .inside c (.body l) → O.facts c l s.object)
    {a : Act π κ} (hstep : M.step s a = some (s', out)) : M.ParkedWell owes s' := by
  cases stepped_of_step hstep with
  | starts p c hp | loops p c hp | enters p c hp | endsWait p c w hp | returns p c r hp =>
    exact h.outside (m := s.mutex) (by simp [hp]) (by simp)
  | locks p c hp | unlocks p c r hp => exact h.outside (by simp [hp]) (by simp)
  | unlocksWait p c hp =>
    refine h.outside (by simp [hp]) fun c' w hx hw => ?_
    cases hx
    simp [WaitPoint.Parked] at hw
  | interrupted p c pt hp hpt =>
    refine h.outside (m := s.mutex) ?_ (by simp)
    rcases hpt with rfl | ⟨w, rfl⟩ <;> simp [hp]
  | waits p c w w' hp hadvance =>
    refine h.outside (m := s.mutex) (by simp [hp]) fun c' w'' hx hw => ?_
    cases hx
    -- it was parked already, or its test has just failed
    rcases WaitPoint.advance_parked hadvance hw with hold | hcond
    · exact h p c w hp hold
    · exact .inl (by simpa using hcond)
  | wakened p c w w' hp hw' =>
    refine h.outside (m := s.mutex) (by simp [hp]) fun c' w'' hx hw => ?_
    cases hx
    exact absurd hw (WaitPoint.interrupt_not_parked hw')
  | runs p c l hp => exact h.statement hO hexcl hp (hfacts p c l hp)

theorem parkedWell_of_run {O : M.Outline} (hO : O.Rouses owes) (hrest : O.rest start)
    (hrun : (M.system π).exec (init π κ ℓ ρ start) acts = some (s, log)) :
    M.ParkedWell owes s := by
  -- the outline is needed in every state on the way, so it is carried along with its cause
  have hinv : (Exclusive s ∧ M.Linear start s log) ∧ M.ParkedWell owes s := by
    refine System.exec_induction
      (I := fun s log => (Exclusive s ∧ M.Linear start s log) ∧ M.ParkedWell owes s)
      (fun s log a s' out h hstep => ?_)
      ⟨⟨exclusive_init start, linear_init start⟩, fun p c w hp => by cases hp⟩ hrun
    obtain ⟨⟨hexcl, hlin⟩, hparked⟩ := h
    refine ⟨⟨exclusive_step hexcl hstep, linear_step hlin hexcl hstep⟩, ?_⟩
    refine parkedWell_step hO hparked hexcl (fun p c l hp => ?_) hstep
    exact Outline.at_of_linear (O := O) hrest hlin (by rw [hp]; rfl)
  exact hinv.2

/-- **No lost wake-up**: when the mutex is free, whoever sleeps, or is bound to, has a reason to. -/
theorem Outline.no_lost_wakeup {O : M.Outline} (hO : O.Rouses owes) (hrest : O.rest start)
    (hrun : (M.system π).exec (init π κ ℓ ρ start) acts = some (s, log)) (hfree : s.mutex = none)
    {w : WaitPoint} (hp : s.proc p = .inside c (.wait w)) (hw : w.Parked) :
    M.blocked c s.object = true := by
  refine (parkedWell_of_run hO hrest hrun p c w hp hw).resolve_right ?_
  rintro ⟨q, c', l, hq, -⟩
  have hholds := (linear_of_run hrun).1.not_holds hfree q
  rw [hq] at hholds
  cases hholds

/-- The call in whose loop a process is, about to wait or waiting. -/
def Proc.looping : Proc κ ℓ ρ → Option κ
  | .inside c .unlockWait | .inside c (.wait _) => some c
  | _ => none

theorem looping_setProc {x : Proc κ ℓ ρ} {m : Option π} {o : σ} {proc : π → Proc κ ℓ ρ}
    (h : ∀ p, (proc p).looping ≠ some c) (hx : x.looping ≠ some c) (q : π) :
    (({ s with object := o, mutex := m, proc := proc }.setProc p x).proc q).looping ≠ some c := by
  by_cases hq : q = p
  · rwa [hq, setProc_self]
  · rw [setProc_of_ne hq]
    exact h q

omit [DecidableEq π] in
theorem looping_wakeAll (c : κ) (l : ℓ) (proc : π → Proc κ ℓ ρ) (q : π) :
    (M.wakeAll c l proc q).looping = (proc q).looping := by
  rcases M.wakeAll_cases c l proc q with ⟨c', w, hq, hwake⟩ | ⟨-, hwake⟩
  · rw [hwake, hq]
    rfl
  · rw [hwake]

theorem looping_step (hb : ∀ o, M.blocked c o = false) (h : ∀ p, (s.proc p).looping ≠ some c)
    {a : Act π κ} (hstep : M.step s a = some (s', out)) (p : π) :
    (s'.proc p).looping ≠ some c := by
  cases stepped_of_step hstep with
  | starts q c' hq | endsWait q c' w hq | returns q c' r hq | interrupted q c' pt hq
  | locks q c' hq | unlocks q c' r hq | enters q c' hq =>
    exact looping_setProc h (by simp [Proc.looping]) p
  | loops q c' hq hblocked =>
    refine looping_setProc h ?_ p
    rintro ⟨⟩
    rw [hb] at hblocked
    cases hblocked
  | unlocksWait q c' hq | waits q c' w w' hq | wakened q c' w w' hq =>
    -- it has been in the loop before
    exact looping_setProc h (by simpa [hq, Proc.looping] using h q) p
  | runs q c' l hq =>
    refine looping_setProc (fun r => ?_) ?_ p
    · rw [looping_wakeAll]
      exact h r
    · cases (M.stmt c' s.object l).2 <;> simp [Proc.looping, Point.next]

/-- A call that is never blocked never waits. -/
theorem looping_of_run (hb : ∀ o, M.blocked c o = false)
    (hrun : (M.system π).exec (init π κ ℓ ρ start) acts = some (s, log)) (p : π) :
    (s.proc p).looping ≠ some c :=
  System.exec_induction (I := fun (s : State π σ κ ℓ ρ) _ => ∀ p, (s.proc p).looping ≠ some c)
    (fun _ _ _ _ _ h hstep => looping_step hb h hstep)
    (fun _ => by simp [init, Proc.looping]) hrun p

/-! ### How long anybody can go on -/

/-- Each statement of a body brings its end nearer. -/
def Ends (M : Monitor σ κ ℓ ρ) (rank : κ → ℓ → ℕ) : Prop :=
  ∀ c s l l', (M.stmt c s l).2 = .inl l' → rank c l' < rank c l

/-- How much of its body a process still has to do. -/
def Proc.budget (M : Monitor σ κ ℓ ρ) (rank : κ → ℓ → ℕ) : Proc κ ℓ ρ → ℕ
  | .outside | .inside _ (.unlock _) | .inside _ (.ret _) => 0
  | .inside c (.body l) => rank c l + 1
  | .inside c _ => rank c (M.entry c) + 1

/-- How many steps a wait can take while no statement of a body is executed. -/
def waitDistance (blocked : Bool) : WaitPoint → ℕ
  | .test => if blocked then 6 else 8
  | .enqueue => if blocked then 3 else 7
  | .recheck woken => if blocked then (if woken then 5 else 2) else 6
  | .schedule woken => if woken then (if blocked then 4 else 8) else 1
  | .asleep => 0

/-- How many steps a call can take while no statement of a body is executed. -/
def Point.distance (blocked : Bool) : Point ℓ ρ → ℕ
  | .lock => if blocked then 9 else 5
  | .loop => if blocked then 8 else 4
  | .unlockWait => if blocked then 7 else 9
  | .wait w => waitDistance blocked w
  | .body _ => 3
  | .unlock _ => 2
  | .ret _ => 1

def Proc.distance (M : Monitor σ κ ℓ ρ) (o : σ) : Proc κ ℓ ρ → ℕ
  | .outside => 0
  | .inside c pt => pt.distance (M.blocked c o)

theorem waitDistance_le (b : Bool) (w : WaitPoint) : waitDistance b w ≤ 9 := by
  cases w with
  | test | enqueue => cases b <;> decide
  | recheck woken | schedule woken => cases b <;> cases woken <;> decide
  | asleep => exact Nat.zero_le _

theorem distance_le (o : σ) (x : Proc κ ℓ ρ) : x.distance M o ≤ 9 := by
  cases x with
  | outside => exact Nat.zero_le _
  | inside c pt =>
    cases pt with
    | wait w => exact waitDistance_le _ w
    | lock | loop | unlockWait =>
      simp only [Proc.distance, Point.distance]
      split_ifs <;> omega
    | body | unlock | ret => simp only [Proc.distance, Point.distance]; omega

omit [DecidableEq π] in
theorem budget_wakeAll (rank : κ → ℓ → ℕ) (c : κ) (l : ℓ) (proc : π → Proc κ ℓ ρ) (q : π) :
    (M.wakeAll c l proc q).budget M rank = (proc q).budget M rank := by
  rcases M.wakeAll_cases c l proc q with ⟨c', w, hq, hwake⟩ | ⟨-, hwake⟩
  · rw [hwake, hq]
    rfl
  · rw [hwake]

/-- A step of a wait brings the process nearer to its rest. -/
theorem waitDistance_advance {b : Bool} {w w' : WaitPoint}
    (h : w.advance (!b) = some (.goto w')) : waitDistance b w' < waitDistance b w := by
  cases w with
  | test =>
    cases b with
    | true => cases h; decide
    | false => cases h
  | enqueue => cases h; cases b <;> decide
  | recheck woken =>
    cases b with
    | true => cases h; cases woken <;> decide
    | false => cases h
  | schedule woken => cases woken <;> cases h <;> cases b <;> decide
  | asleep => cases h

/-- A wait ends only when its condition holds. -/
theorem waitDistance_finish {b : Bool} {w : WaitPoint} (h : w.advance (!b) = some .finish) :
    b = false ∧ 5 < waitDistance b w := by
  cases w with
  | test | recheck =>
    cases b with
    | true => cases h
    | false => exact ⟨rfl, by simp [waitDistance]⟩
  | enqueue | asleep => cases h
  | schedule woken => cases woken <;> cases h

section Finite

variable [Fintype π] {rank : κ → ℓ → ℕ}

/-- A bound on the statements that all processes together can still execute. -/
def State.weight (M : Monitor σ κ ℓ ρ) (rank : κ → ℓ → ℕ) (s : State π σ κ ℓ ρ) : ℕ :=
  (∑ p, (s.proc p).budget M rank) * (9 * Fintype.card π + 1) + ∑ p, (s.proc p).distance M s.object

omit [DecidableEq π] in
/-- A process comes nearer to its rest, and the others stay where they are. -/
theorem weight_lt_of_distance (hbudget : ∀ q, (s'.proc q).budget M rank ≤ (s.proc q).budget M rank)
    (hdistance : ∀ q, (s'.proc q).distance M s'.object ≤ (s.proc q).distance M s.object)
    (hp : (s'.proc p).distance M s'.object < (s.proc p).distance M s.object) :
    s'.weight M rank < s.weight M rank := by
  have h₁ : ∑ q, (s'.proc q).budget M rank ≤ ∑ q, (s.proc q).budget M rank :=
    Finset.sum_le_sum fun q _ => hbudget q
  have h₂ : ∑ q, (s'.proc q).distance M s'.object < ∑ q, (s.proc q).distance M s.object :=
    Finset.sum_lt_sum (fun q _ => hdistance q) ⟨p, Finset.mem_univ p, hp⟩
  exact Nat.add_lt_add_of_le_of_lt (Nat.mul_le_mul_right _ h₁) h₂

omit [DecidableEq π] in
/-- A process has less of its body left, and the others no more. -/
theorem weight_lt_of_budget (hbudget : ∀ q, (s'.proc q).budget M rank ≤ (s.proc q).budget M rank)
    (hp : (s'.proc p).budget M rank < (s.proc p).budget M rank) :
    s'.weight M rank < s.weight M rank := by
  have h₁ : ∑ q, (s'.proc q).budget M rank < ∑ q, (s.proc q).budget M rank :=
    Finset.sum_lt_sum (fun q _ => hbudget q) ⟨p, Finset.mem_univ p, hp⟩
  have h₂ : ∑ q, (s'.proc q).distance M s'.object ≤ 9 * Fintype.card π := by
    refine (Finset.sum_le_sum fun q _ => distance_le s'.object (s'.proc q)).trans (Nat.le_of_eq ?_)
    rw [Finset.sum_const_nat fun _ _ => rfl, Finset.card_univ, Nat.mul_comm]
  unfold State.weight
  calc (∑ q, (s'.proc q).budget M rank) * (9 * Fintype.card π + 1) +
        ∑ q, (s'.proc q).distance M s'.object
      < (∑ q, (s'.proc q).budget M rank) * (9 * Fintype.card π + 1) +
        (9 * Fintype.card π + 1) := by omega
    _ = (∑ q, (s'.proc q).budget M rank + 1) * (9 * Fintype.card π + 1) := by
        rw [Nat.add_mul, Nat.one_mul]
    _ ≤ (∑ q, (s.proc q).budget M rank) * (9 * Fintype.card π + 1) := Nat.mul_le_mul_right _ h₁
    _ ≤ _ := Nat.le_add_right _ _

/-- A step outside the bodies. -/
theorem weight_lt_setProc {x : Proc κ ℓ ρ} {m : Option π}
    (hbudget : x.budget M rank ≤ (s.proc p).budget M rank)
    (hdistance : x.distance M s.object < (s.proc p).distance M s.object) :
    ({ s with mutex := m }.setProc p x).weight M rank < s.weight M rank := by
  refine weight_lt_of_distance (p := p) (fun q => ?_) (fun q => ?_) ?_
  · by_cases hq : q = p
    · rwa [hq, setProc_self]
    · rw [setProc_of_ne hq]
  · rw [setProc_object]
    by_cases hq : q = p
    · rw [hq, setProc_self]
      exact hdistance.le
    · rw [setProc_of_ne hq]
  · rwa [setProc_self, setProc_object]

/-- Every statement of a process uses up some of the bound. -/
theorem weight_lt_of_run (hM : M.Ends rank) (hstep : M.step s (.run p) = some (s', out)) :
    s'.weight M rank < s.weight M rank := by
  cases stepped_of_step hstep with
  | locks _ c hp =>
    refine weight_lt_setProc (by rw [hp]; rfl) ?_
    simp only [hp, Proc.distance, Point.distance]
    split_ifs <;> omega
  | loops _ c hp hb =>
    refine weight_lt_setProc (m := s.mutex) (by rw [hp]; rfl) ?_
    simp [hp, Proc.distance, Point.distance, hb]
  | enters _ c hp hb =>
    refine weight_lt_setProc (m := s.mutex) (by rw [hp]; rfl) ?_
    simp [hp, Proc.distance, Point.distance, hb]
  | unlocksWait _ c hp =>
    refine weight_lt_setProc (by rw [hp]; rfl) ?_
    simp only [hp, Proc.distance, Point.distance, waitDistance]
    split_ifs <;> omega
  | waits _ c w w' hp hw =>
    refine weight_lt_setProc (m := s.mutex) (by rw [hp]; rfl) ?_
    rw [hp]
    exact waitDistance_advance hw
  | endsWait _ c w hp hw =>
    refine weight_lt_setProc (m := s.mutex) (by rw [hp]; rfl) ?_
    obtain ⟨hb, hdist⟩ := waitDistance_finish hw
    rw [hp]
    simpa [Proc.distance, Point.distance, hb] using hdist
  | unlocks _ c r hp =>
    refine weight_lt_setProc (by rw [hp]; rfl) ?_
    rw [hp]
    exact Nat.lt_succ_self 1
  | returns _ c r hp =>
    refine weight_lt_setProc (m := s.mutex) (by rw [hp]; rfl) ?_
    rw [hp]
    exact Nat.lt_succ_self 0
  | runs _ c l hp =>
    -- the body of the call has one statement less left
    have hself : (Proc.inside c (Point.next (M.stmt c s.object l).2) : Proc κ ℓ ρ).budget M rank <
        (s.proc p).budget M rank := by
      rw [hp]
      cases hnext : (M.stmt c s.object l).2 with
      | inl l' => exact Nat.succ_lt_succ (hM c s.object l l' hnext)
      | inr r => exact Nat.succ_pos _
    refine weight_lt_of_budget (p := p) (fun q => ?_) (by rwa [setProc_self])
    by_cases hq : q = p
    · rw [hq, setProc_self]
      exact hself.le
    · rw [setProc_of_ne hq, budget_wakeAll]

/-- **The processes inside can execute a bounded number of statements**, in whatever order, when no
call is made and no signal comes. -/
theorem run_length_le (hM : M.Ends rank) (hacts : ∀ a ∈ acts, ∃ p, a = Act.run p)
    (hrun : (M.system π).exec s acts = some (s', log)) :
    acts.length + s'.weight M rank ≤ s.weight M rank := by
  induction acts generalizing s log with
  | nil =>
    simp only [System.exec_nil, Option.some.injEq, Prod.mk.injEq] at hrun
    rw [hrun.1, List.length_nil, Nat.zero_add]
  | cons a as ih =>
    obtain ⟨t, o, outs, hstep, hrest, -⟩ := System.exec_cons.1 hrun
    obtain ⟨p, rfl⟩ := hacts a List.mem_cons_self
    have hfirst : t.weight M rank < s.weight M rank := weight_lt_of_run hM hstep
    have hothers := ih (fun b hb => hacts b (List.mem_cons_of_mem _ hb)) hrest
    rw [List.length_cons]
    omega

end Finite

/-- The mutex is free, and everybody is outside or asleep. -/
def Quiet (s : State π σ κ ℓ ρ) : Prop :=
  s.mutex = none ∧ ∀ p, s.proc p = .outside ∨ ∃ c, s.proc p = .inside c (.wait .asleep)

/-- A process that cannot go on is outside, asleep, or waits for the mutex. -/
theorem stuck_cases (h : M.step s (.run p) = none) :
    s.proc p = .outside ∨ (∃ c, s.proc p = .inside c (.wait .asleep)) ∨
      (∃ c, s.proc p = .inside c .lock) ∧ s.mutex ≠ none := by
  cases hp : s.proc p with
  | outside => exact .inl rfl
  | inside c pt =>
    simp only [step, hp] at h
    cases pt with
    | lock =>
      refine .inr (.inr ⟨⟨c, rfl⟩, ?_⟩)
      simp only [runStep] at h
      split_ifs at h with hfree
      simpa using hfree
    | wait w =>
      simp only [runStep] at h
      cases w with
      | asleep => exact .inr (.inl ⟨c, rfl⟩)
      | enqueue => cases h
      | schedule woken => cases woken <;> cases h
      | test | recheck =>
        cases hb : M.blocked c s.object <;> rw [hb] at h <;> cases h
    | loop | unlockWait | body | unlock | ret => cases h

/-- **When nobody can go on, all is quiet**: there is no deadlock. -/
theorem quiet_of_stuck (hexcl : Exclusive s) (h : ∀ p, M.step s (.run p) = none) : Quiet s := by
  have hfree : s.mutex = none := by
    rw [Option.eq_none_iff_forall_ne_some]
    intro q hq
    have hholds := (hexcl q).1 hq
    rcases stuck_cases (h q) with hp | ⟨c, hp⟩ | ⟨⟨c, hp⟩, -⟩ <;> rw [hp] at hholds <;> cases hholds
  refine ⟨hfree, fun p => ?_⟩
  rcases stuck_cases (h p) with hp | hp | ⟨-, hmutex⟩
  · exact .inl hp
  · exact .inr hp
  · exact absurd hfree hmutex

/-- As long as no call is made and no signal comes, at most `n` statements are executed, and `P` holds
when nobody can go on. -/
def SettlesIn (M : Monitor σ κ ℓ ρ) (n : ℕ) (s : State π σ κ ℓ ρ) (P : State π σ κ ℓ ρ → Prop) :
    Prop :=
  ∀ acts s' log, (∀ a ∈ acts, ∃ p, a = Act.run p) → (M.system π).exec s acts = some (s', log) →
    acts.length ≤ n ∧ ((∀ p, M.step s' (.run p) = none) → P s')

/-- **The processes come to rest in every schedule**: there is neither deadlock nor livelock. -/
theorem settlesIn_quiet [Fintype π] {rank : κ → ℓ → ℕ} (hM : M.Ends rank) (hexcl : Exclusive s) :
    M.SettlesIn (s.weight M rank) s Quiet := by
  intro acts s' log hacts hrun
  refine ⟨(Nat.le_add_right _ _).trans (run_length_le hM hacts hrun), quiet_of_stuck ?_⟩
  exact System.exec_induction (I := fun s _ => Exclusive s)
    (fun _ _ _ _ _ h hstep => exclusive_step h hstep) hexcl hrun

/-- With an outline, those who still sleep then are blocked. -/
theorem Outline.settlesIn [Fintype π] {rank : κ → ℓ → ℕ} (hM : M.Ends rank) {O : M.Outline}
    (hO : O.Rouses owes) (hrest : O.rest start)
    (hrun : (M.system π).exec (init π κ ℓ ρ start) acts = some (s, log)) :
    M.SettlesIn (s.weight M rank) s fun s' => s'.mutex = none ∧
      ∀ p, s'.proc p = .outside ∨
        ∃ c, s'.proc p = .inside c (.wait .asleep) ∧ M.blocked c s'.object = true := by
  intro acts' s' log' hacts' hrun'
  obtain ⟨hlength, hquiet⟩ := settlesIn_quiet hM (linear_of_run hrun).1 acts' s' log' hacts' hrun'
  refine ⟨hlength, fun hstuck => ?_⟩
  obtain ⟨hfree, hproc⟩ := hquiet hstuck
  have hall := System.exec_append hrun hrun'
  refine ⟨hfree, fun p => (hproc p).imp_right ?_⟩
  rintro ⟨c, hp⟩
  exact ⟨c, hp, no_lost_wakeup hO hrest hall hfree hp (.inr rfl)⟩

end Monitor
