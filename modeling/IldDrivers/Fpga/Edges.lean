import IldDrivers.Fpga.Handler

/-!
# Edges that the handler of `example-fpga` clears

The handler acknowledges the edges it has read by writing 3 to the edge capture register, whatever it
has read there. An edge that has arrived in between is cleared too, and no invocation has seen it.

* `NoneLost`: a statement of a handler clears no bit that its invocation has not read;
* `late`: the edges of a board since its handler has read the register, from the history;
* `none_lost_iff`: the runs in which no edge is lost.
-/

namespace IldDrivers.ExampleFpga.Handler

variable {Board : Type*} [DecidableEq Board] {abi : Abi}

/-- No bit of an edge capture register goes from 1 to 0 by the statement of a handler, except bits of
its own board that it has read in `n`. -/
def NoneLost : Event Board → Prop
  | .access b _ n before after =>
      ∀ b' i, (before b').edgeCapture.getLsbD i = true → (after b').edgeCapture.getLsbD i = false →
        b' = b ∧ n.getLsbD i = true
  | _ => True

/-- The edges that have arrived after the read, once one more event has happened. -/
def lateNext (b : Board) (bits : BitVec 32) : Event Board → BitVec 32
  | .edge b' new => if b' = b then bits ||| new else bits
  | .initialized b' => if b' = b then clearCaptured bits else bits
  | .access b' .readEdge _ _ _ => if b' = b then 0 else bits
  | _ => bits

/-- The edges of the board since its handler has last read the edge capture register, but for those
that the initialization has cleared. -/
def late (b : Board) (log : List (Event Board)) : BitVec 32 := log.foldl (lateNext b) 0

/-- When a handler clears the register, the switches whose edges have arrived since it has read it
are among those it has read. -/
def Timely (log : List (Event Board)) : Event Board → Prop
  | .access b .clearEdge n _ _ => late b log &&& 3 &&& ~~~n = 0
  | _ => True

instance (log : List (Event Board)) : (e : Event Board) → Decidable (Timely log e)
  | .access b .clearEdge n _ _ => inferInstanceAs (Decidable (late b log &&& 3 &&& ~~~n = 0))
  | .access _ .readEdge _ _ _ | .access _ .test _ _ _ | .access _ .toggle _ _ _
  | .access _ .writeLeds _ _ _ | .access _ .mask _ _ _ | .access _ .unmask _ _ _
  | .access _ .enable _ _ _ | .edge _ _ | .initialized _ | .stored _ _ => isTrue trivial

theorem late_snoc (b : Board) (log : List (Event Board)) (e : Event Board) :
    late b (log ++ [e]) = lateNext b (late b log) e := by
  rw [late, List.foldl_append]
  rfl

/-- The invocation has read the register and has not yet cleared it. -/
def Pc.HasRead : Pc → Prop
  | .test | .toggle | .writeLeds | .mask | .clearEdge => True
  | _ => False

/-- The register of a board between the read and the clearing: what is not in `n` is late. -/
def Tracks (s : State Board) (log : List (Event Board)) : Prop :=
  ∀ b c, (s.fpga b).handler = some c → c.pc.HasRead →
    (s.registers b).edgeCapture &&& ~~~c.n = late b log &&& ~~~c.n

section Steps

variable {modules : Board → Modules abi} {s s' : State Board} {log out : List (Event Board)}
  {b : Board}

theorem or_masked {x y m : BitVec 32} (z : BitVec 32) (h : x &&& m = y &&& m) :
    (x ||| z) &&& m = (y ||| z) &&& m := by
  rw [BitVec.and_comm, BitVec.and_or_distrib_left, BitVec.and_comm m x, h, BitVec.and_comm y m,
    ← BitVec.and_or_distrib_left, BitVec.and_comm]

theorem clearCaptured_masked {x y m : BitVec 32} (h : x &&& m = y &&& m) :
    clearCaptured x &&& m = clearCaptured y &&& m := by
  rw [clearCaptured, clearCaptured, BitVec.and_assoc, BitVec.and_comm (~~~3) m, ← BitVec.and_assoc, h,
    BitVec.and_assoc, BitVec.and_comm m, ← BitVec.and_assoc]

theorem late_of_ne (hout : ∀ e ∈ out, e.board ≠ b) : late b (log ++ out) = late b log := by
  induction out generalizing log with
  | nil => rw [List.append_nil]
  | cons e out ih =>
    have hne := hout e List.mem_cons_self
    have hsame : lateNext b (late b log) e = late b log := by
      cases e with
      | edge b' bits => exact if_neg hne
      | initialized b' => exact if_neg hne
      | access b' pc n before after =>
        cases pc with
        | readEdge => exact if_neg hne
        | _ => rfl
      | stored b' bytes => rfl
    rw [List.append_cons, ih fun e he => hout e (List.mem_cons_of_mem _ he), late_snoc, hsame]

/-- A step about one board. -/
theorem Tracks.setFpga (h : Tracks s log) (x : Fpga) (hout : ∀ e ∈ out, e.board = b)
    (hx : ∀ c, x.handler = some c → c.pc.HasRead →
      x.registers.edgeCapture &&& ~~~c.n = late b (log ++ out) &&& ~~~c.n) :
    Tracks (s.setFpga b x) (log ++ out) := by
  intro b' c hc hpc
  by_cases hb : b' = b
  · subst hb
    rw [setFpga_self] at hc
    rw [registers_setFpga_self]
    exact hx c hc hpc
  · rw [setFpga_of_ne _ hb] at hc
    rw [registers_setFpga_of_ne _ hb, late_of_ne fun e he => hout e he ▸ Ne.symm hb]
    exact h b' c hc hpc

/-- A statement of a handler. -/
theorem tracks_run (h : Tracks s log) {c : Invocation} (hc : (s.fpga b).handler = some c)
    (before after : Board → Registers) :
    Tracks (runStep modules s b c) (log ++ [.access b c.pc c.n before after]) := by
  have hboard : ∀ e ∈ [Event.access b c.pc c.n before after], e.board = b := by
    intro e he
    rw [List.mem_singleton.1 he]
    rfl
  -- a statement after the read and before the clearing
  have hkeep : c.pc.HasRead → (s.registers b).edgeCapture &&& ~~~c.n =
      late b (log ++ [.access b c.pc c.n before after]) &&& ~~~c.n := by
    intro hread
    have hlate : late b (log ++ [.access b c.pc c.n before after]) = late b log := by
      rw [late_snoc]
      cases hpc : c.pc with
      | readEdge =>
        rw [hpc] at hread
        exact hread.elim
      | _ => rfl
    rw [hlate]
    exact h b c hc hread
  unfold runStep
  cases hpc : c.pc with
  | readEdge =>
    refine h.setFpga _ (hpc ▸ hboard) ?_
    rintro c' ⟨⟩ -
    have hread : late b (log ++ [.access b .readEdge c.n before after]) = 0 := by
      rw [late_snoc]
      exact if_pos rfl
    rw [hread]
    simp
  | test | writeLeds | mask =>
    rw [hpc] at hkeep hboard
    refine h.setFpga _ hboard ?_
    rintro c' ⟨⟩ -
    exact hkeep trivial
  | toggle =>
    rw [hpc] at hkeep hboard
    have hnext := h.setFpga { s.fpga b with handler := some { c with pc := .writeLeds } } hboard
      (by rintro c' ⟨⟩ -; exact hkeep trivial)
    exact hnext
  | clearEdge | unmask =>
    refine h.setFpga _ (hpc ▸ hboard) ?_
    rintro c' ⟨⟩ hread
    exact hread.elim
  | enable =>
    refine h.setFpga _ (hpc ▸ hboard) ?_
    rintro c' ⟨⟩

theorem tracks_step {a : Act Board} (h : Tracks s log)
    (hstep : step modules s a = some (s', out)) : Tracks s' (log ++ out) := by
  cases move_of_step hstep with
  | edge b bits =>
    refine h.setFpga _ (by simp [Event.board]) fun c hc hpc => ?_
    have hlate : late b (log ++ [.edge b bits]) = late b log ||| bits := by
      rw [late_snoc]
      exact if_pos rfl
    rw [hlate]
    exact or_masked bits (h b c hc hpc)
  | reset b =>
    refine h.setFpga _ (by simp [Event.board]) fun c hc hpc => ?_
    have hlate : late b (log ++ [.initialized b]) = clearCaptured (late b log) := by
      rw [late_snoc]
      exact if_pos rfl
    rw [hlate]
    exact clearCaptured_masked (h b c hc hpc)
  | quiet b x hhandler hedge hleds =>
    refine h.setFpga x (by simp) fun c hc hpc => ?_
    rw [List.append_nil, hedge]
    exact h b c (hhandler ▸ hc) hpc
  | ignore => simpa using h
  | interrupt b status hidle =>
    refine h.setFpga _ (by simp) ?_
    rintro c ⟨⟩ hread
    exact hread.elim
  | run b c hc => exact tracks_run h hc _ _
  | write b bytes =>
    refine h.setFpga _ (by simp [Event.board]) fun c hc hpc => ?_
    rw [late_snoc]
    exact h b c hc hpc

end Steps

/-! ### Every run -/

section Runs

variable {modules : Board → Modules abi} {s s' : State Board} {log : List (Event Board)}
  {b : Board}

theorem tracks_init (registers : Board → Registers) : Tracks (init registers) [] := by
  intro b c hc
  cases hc

/-- No bit is set in the register outside a mask. -/
theorem and_eq_zero_iff {x y : BitVec 32} :
    x &&& y = 0 ↔ ∀ i, x.getLsbD i = true → y.getLsbD i = false := by
  constructor
  · intro h i hx
    have hi := congrArg (fun z => z.getLsbD i) h
    simpa [hx] using hi
  · intro h
    refine BitVec.eq_of_getLsbD_eq fun i _ => ?_
    cases hx : x.getLsbD i with
    | false => simp [hx]
    | true => simp [hx, h i hx]

/-- What the clearing of the register loses. -/
theorem clearCaptured_iff {x n : BitVec 32} :
    (∀ i, x.getLsbD i = true → (clearCaptured x).getLsbD i = false → n.getLsbD i = true) ↔
      x &&& 3 &&& ~~~n = 0 := by
  rw [BitVec.and_assoc, and_eq_zero_iff]
  refine forall₂_congr fun i hi => ?_
  have hlt := BitVec.lt_of_getLsbD hi
  simp only [clearCaptured, BitVec.getLsbD_and, BitVec.getLsbD_not, hi, hlt, decide_true,
    Bool.true_and]
  cases (3 : BitVec 32).getLsbD i <;> cases n.getLsbD i <;> simp

/-- The other statements do not write to the register. -/
theorem edgeCapture_runStep {c : Invocation} (hpc : c.pc ≠ .clearEdge) (b' : Board) :
    ((runStep modules s b c).registers b').edgeCapture = (s.registers b').edgeCapture := by
  by_cases hb : b' = b
  · subst hb
    unfold runStep
    cases hcase : c.pc with
    | clearEdge => exact absurd hcase hpc
    | _ => simp [State.registers, State.setFpga]
  · rw [registers_runStep_of_ne c hb]

theorem edgeCapture_clearEdge {c : Invocation} (hpc : c.pc = .clearEdge) :
    ((runStep modules s b c).registers b).edgeCapture =
      clearCaptured (s.registers b).edgeCapture := by
  rw [runStep, hpc]
  simp [State.registers]

/-- What the clearing loses is what is late. -/
theorem noneLost_run (h : Tracks s log) {c : Invocation} (hc : (s.fpga b).handler = some c) :
    NoneLost (.access b c.pc c.n s.registers (runStep modules s b c).registers) ↔
      Timely log (.access b c.pc c.n s.registers (runStep modules s b c).registers) := by
  by_cases hpc : c.pc = .clearEdge
  · have hedge : ((runStep modules s b c).registers b).edgeCapture =
        clearCaptured (s.registers b).edgeCapture := edgeCapture_clearEdge hpc
    have htracks := h b c hc (by rw [hpc]; trivial)
    have hmask : ∀ x : BitVec 32, x &&& 3 &&& ~~~c.n = x &&& ~~~c.n &&& 3 := by
      intro x
      rw [BitVec.and_assoc, BitVec.and_comm 3, ← BitVec.and_assoc]
    have htimely : Timely log (.access b c.pc c.n s.registers
        (runStep modules s b c).registers) ↔ late b log &&& 3 &&& ~~~c.n = 0 := by
      rw [hpc]
      exact Iff.rfl
    rw [htimely, hmask, ← htracks, ← hmask, ← clearCaptured_iff]
    constructor
    · intro hall i hbefore hafter
      rw [← hedge] at hafter
      exact (hall b i hbefore hafter).2
    · intro hall b' i hbefore hafter
      by_cases hb : b' = b
      · subst hb
        rw [hedge] at hafter
        exact ⟨rfl, hall i hbefore hafter⟩
      · rw [registers_runStep_of_ne c hb, hbefore] at hafter
        cases hafter
  · refine iff_of_true ?_ ?_
    · intro b' i hbefore hafter
      rw [edgeCapture_runStep hpc, hbefore] at hafter
      cases hafter
    · cases hcase : c.pc with
      | clearEdge => exact absurd hcase hpc
      | _ => trivial

end Runs

/-- **The edges that are lost**: in every run of any boards, their handlers and initializations
interleaved in any way with edges and with what the processes do, no statement of a handler clears a
bit that its invocation has not read, exactly when each time a handler clears the register, the edges
that have arrived on its board since it has read it are among those it has read, but for the edges
that the initialization has cleared in between. -/
theorem none_lost_iff {modules : Board → Modules abi} {acts : List (Act Board)} {s : State Board}
    {log : List (Event Board)} {registers : Board → Registers}
    (hrun : (machine modules).exec (init registers) acts = some (s, log)) :
    (∀ e ∈ log, NoneLost e) ↔ History.EachAfter Timely log := by
  refine each_iff_of_statements tracks_step ?_ (fun h hc => noneLost_run h hc)
    (tracks_init registers) hrun
  intro log e hother
  cases e with
  | access b pc n before after => exact absurd rfl (hother b pc n before after)
  | edge | initialized | stored => exact Iff.rfl

/-- An interrupt on a board that has been initialized: `n` is read, and `more` is what arrives before
the register is cleared. -/
def switchActs (n more : BitVec 32) : List (Act Unit) :=
  [.setup (), .setup (), .setup (), .edge () n, .interrupt () 1, .run (), .edge () more, .run (),
    .run (), .run (), .run (), .run (), .run (), .run ()]

/-- The registers when the power is switched on. -/
def zeroRegisters : Registers := ⟨0, 0, 0, fun _ => 0⟩

/-- The switch moves again. -/
theorem none_lost_iff_bounce :
    ∃ s log, (machine fun _ : Unit => someModules).exec (init fun _ => zeroRegisters)
        (switchActs 1 1) = some (s, log) ∧ ∀ e ∈ log, NoneLost e := by
  obtain ⟨⟨s, log⟩, hrun, htimely⟩ := Option.map_eq_some_iff.1
    (show ((machine fun _ : Unit => someModules).exec (init fun _ => zeroRegisters)
        (switchActs 1 1)).map (fun r => decide (History.EachAfter Timely r.2)) = some true by
      decide +kernel)
  exact ⟨s, log, hrun, (none_lost_iff hrun).2 (of_decide_eq_true htimely)⟩

/-- The bits of its own board that a statement of a handler clears and that are not in `n`. -/
def Event.lost : Event Board → BitVec 32
  | .access b _ n before after => (before b).edgeCapture &&& (~~~(after b).edgeCapture &&& ~~~n)
  | _ => 0

omit [DecidableEq Board] in
theorem NoneLost.lost_eq {e : Event Board} (h : NoneLost e) : e.lost = 0 := by
  cases e with
  | access b pc n before after =>
    refine and_eq_zero_iff.2 fun i hbefore => ?_
    cases hafter : (after b).edgeCapture.getLsbD i with
    | true => simp [hafter]
    | false => simp [(h b i hbefore hafter).2]
  | _ => rfl

/-- The other switch moves while the handler is busy with the first. -/
theorem edge_lost :
    ∃ s log, (machine fun _ : Unit => someModules).exec (init fun _ => zeroRegisters)
        (switchActs 1 2) = some (s, log) ∧ ¬ ∀ e ∈ log, NoneLost e := by
  obtain ⟨⟨s, log⟩, hrun, hany⟩ := Option.map_eq_some_iff.1
    (show ((machine fun _ : Unit => someModules).exec (init fun _ => zeroRegisters)
        (switchActs 1 2)).map (fun r => r.2.any fun e => e.lost ≠ 0) = some true by decide +kernel)
  obtain ⟨e, he, hlost⟩ := List.any_eq_true.1 hany
  exact ⟨s, log, hrun, fun h => of_decide_eq_true hlost (h e he).lost_eq⟩

end IldDrivers.ExampleFpga.Handler
