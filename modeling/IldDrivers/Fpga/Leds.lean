import IldDrivers.Fpga.Handler

/-!
# The LEDs of `example-fpga`

The handler toggles on the LEDs of its board the bits that it has read, but what it toggles is a
variable of its own, which all boards share and which the processes that write to the LEDs do not set.

* `Toggles`: what a statement of a handler does to the LEDs when each call toggles its own board;
* `Seen`: `value` and what the LEDs of a board show, from the history;
* `toggles_iff`: the runs in which each call toggles the LEDs of its own board;
* `toggles_of_alone`: those of one board that nobody writes to are such runs.
-/

namespace IldDrivers.ExampleFpga.Handler

variable {Board : Type*} [DecidableEq Board] {abi : Abi}

/-- The byte that the LEDs of a board show. -/
def ledByte (modules : Board → Modules abi) (b : Board) (r : Registers) : UInt8 :=
  r.leds (modules b).moduleLeds

/-- A statement of a handler changes the LEDs of no other board, and those of its own only when it
writes them: it toggles the bits of `n`. -/
def Toggles (modules : Board → Modules abi) : Event Board → Prop
  | .access b pc n before after =>
      (∀ b', b' ≠ b → (after b').leds = (before b').leds) ∧
        if pc = .writeLeds then
          ledByte modules b (after b) = ledByte modules b (before b) ^^^ lowByte n
        else (after b).leds = (before b).leds
  | _ => True

/-! ### What the history tells -/

/-- `value`, and the byte that the LEDs of one board show. -/
structure Seen where
  value : BitVec 32
  shown : UInt8

/-- The last of the bytes that goes to the address, or else this one. -/
def lastAt (a : ℤ) (bytes : List (ℤ × UInt8)) (byte : UInt8) : UInt8 :=
  bytes.foldl (fun byte w => if w.1 = a then w.2 else byte) byte

/-- After one more event: an invocation of any board toggles `value`, that of this board shows it,
and what a process writes to it is shown. -/
def Seen.next (modules : Board → Modules abi) (b : Board) (x : Seen) :
    Event Board → Seen
  | .access _ .toggle n _ _ => { x with value := x.value ^^^ n }
  | .access b' .writeLeds _ _ _ => if b' = b then { x with shown := lowByte x.value } else x
  | .stored b' bytes =>
      if b' = b then { x with shown := lastAt (modules b).moduleLeds bytes x.shown } else x
  | _ => x

def seen (modules : Board → Modules abi) (b : Board) (log : List (Event Board)) : Seen :=
  log.foldl (Seen.next modules b) ⟨0, 0⟩

/-- When a handler writes the LEDs, these show the low byte of what all the invocations but its own have
toggled. -/
def Synchronized (modules : Board → Modules abi) (log : List (Event Board)) : Event Board → Prop
  | .access b .writeLeds n _ _ =>
      (seen modules b log).shown = lowByte ((seen modules b log).value ^^^ n)
  | _ => True

instance (modules : Board → Modules abi) (log : List (Event Board)) :
    (e : Event Board) → Decidable (Synchronized modules log e)
  | .access b .writeLeds n _ _ => inferInstanceAs (Decidable
      ((seen modules b log).shown = lowByte ((seen modules b log).value ^^^ n)))
  | .access _ .readEdge _ _ _ | .access _ .test _ _ _ | .access _ .toggle _ _ _
  | .access _ .mask _ _ _ | .access _ .clearEdge _ _ _ | .access _ .unmask _ _ _
  | .access _ .enable _ _ _ | .edge _ _ | .initialized _ | .stored _ _ => isTrue trivial

/-- The state is what the history tells. -/
structure Recorded (modules : Board → Modules abi) (s : State Board) (log : List (Event Board)) :
    Prop where
  value : ∀ b, (seen modules b log).value = s.value
  shown : ∀ b, (seen modules b log).shown = ledByte modules b (s.registers b)

section Steps

variable {modules : Board → Modules abi} {s s' : State Board} {log out : List (Event Board)}
  {b : Board}

theorem seen_snoc (b : Board) (log : List (Event Board)) (e : Event Board) :
    seen modules b (log ++ [e]) = (seen modules b log).next modules b e := by
  rw [seen, List.foldl_append]
  rfl

theorem iowrite8_apply (io : Memory UInt8) (bytes : List (ℤ × UInt8)) (a : ℤ) :
    iowrite8 io bytes a = lastAt a bytes (io a) := by
  induction bytes generalizing io with
  | nil => rfl
  | cons w bytes ih =>
    have hrest := ih (io.store w.1 [w.2])
    rw [Memory.store_singleton] at hrest
    exact hrest

/-- What an event about another board leaves as it is. -/
theorem seen_shown_of_ne {e : Event Board} (h : e.board ≠ b) :
    (seen modules b (log ++ [e])).shown = (seen modules b log).shown := by
  rw [seen_snoc]
  cases e with
  | access b' pc n before after =>
    have hne : b' ≠ b := h
    cases pc with
    | writeLeds => rw [Seen.next, if_neg hne]
    | _ => rfl
  | stored b' bytes =>
    have hne : b' ≠ b := h
    rw [Seen.next, if_neg hne]
  | _ => rfl

/-- Only the statement that toggles changes `value`. -/
theorem seen_value_of_ne {e : Event Board}
    (h : ∀ b n before after, e ≠ .access b .toggle n before after) (b : Board) :
    (seen modules b (log ++ [e])).value = (seen modules b log).value := by
  rw [seen_snoc]
  cases e with
  | access b' pc n before after =>
    cases pc with
    | toggle => exact absurd rfl (h b' n before after)
    | writeLeds =>
      rw [Seen.next]
      split_ifs <;> rfl
    | _ => rfl
  | stored b' bytes =>
    rw [Seen.next]
    split_ifs <;> rfl
  | _ => rfl

/-- A step about one board that does not toggle. -/
theorem Recorded.setFpga (h : Recorded modules s log) (x : Fpga) {e : Event Board}
    (hboard : e.board = b) (htoggle : ∀ b n before after, e ≠ .access b .toggle n before after)
    (hx : (seen modules b (log ++ [e])).shown = ledByte modules b x.registers) :
    Recorded modules (s.setFpga b x) (log ++ [e]) where
  value b' := (seen_value_of_ne htoggle b').trans (h.value b')
  shown b' := by
    by_cases hb : b' = b
    · subst hb
      rw [registers_setFpga_self]
      exact hx
    · rw [seen_shown_of_ne (hboard ▸ Ne.symm hb), registers_setFpga_of_ne _ hb]
      exact h.shown b'

/-- A step that is not seen. -/
theorem Recorded.quiet (h : Recorded modules s log) (x : Fpga)
    (hleds : x.registers.leds = (s.registers b).leds) :
    Recorded modules (s.setFpga b x) (log ++ []) where
  value b' := by
    rw [List.append_nil]
    exact h.value b'
  shown b' := by
    rw [List.append_nil, h.shown b']
    by_cases hb : b' = b
    · subst hb
      rw [registers_setFpga_self, ledByte, ledByte, hleds]
    · rw [registers_setFpga_of_ne _ hb]

/-- A statement of a handler. -/
theorem recorded_run (h : Recorded modules s log) (c : Invocation)
    (before after : Board → Registers) :
    Recorded modules (runStep modules s b c) (log ++ [.access b c.pc c.n before after]) := by
  unfold runStep
  cases hpc : c.pc with
  | toggle =>
    refine ⟨fun b' => ?_, fun b' => ?_⟩
    · rw [seen_snoc, Seen.next, h.value b']
    · rw [seen_snoc, Seen.next, h.shown b']
      by_cases hb : b' = b
      · subst hb
        simp [State.registers, State.setFpga]
      · simp [State.registers, State.setFpga, hb]
  | writeLeds =>
    refine h.setFpga _ rfl (by simp) ?_
    have hwritten : ∀ (io : Memory UInt8) (a : ℤ) (byte : UInt8),
        iowrite8 io [(a, byte)] a = byte := by
      intro io a byte
      rw [iowrite8_apply]
      exact if_pos rfl
    rw [seen_snoc, Seen.next, if_pos rfl, h.value b, ledByte]
    exact (hwritten _ _ _).symm
  | _ =>
    refine h.setFpga _ rfl (by simp) ?_
    rw [seen_snoc]
    exact h.shown b

theorem recorded_step {a : Act Board} (h : Recorded modules s log)
    (hstep : step modules s a = some (s', out)) : Recorded modules s' (log ++ out) := by
  cases move_of_step hstep with
  | edge b bits =>
    refine h.setFpga _ rfl (by simp) ?_
    rw [seen_snoc]
    exact h.shown b
  | reset b =>
    refine h.setFpga _ rfl (by simp) ?_
    rw [seen_snoc]
    exact h.shown b
  | quiet b x _ _ hleds => exact h.quiet x hleds
  | ignore => simpa using h
  | interrupt b status _ => exact h.quiet _ rfl
  | run b c _ => exact recorded_run h c _ _
  | write b bytes =>
    refine h.setFpga _ rfl (by simp) ?_
    rw [seen_snoc, Seen.next, if_pos rfl, h.shown b, ledByte, ledByte]
    exact (iowrite8_apply _ bytes _).symm

/-! ### The LEDs of one step -/

/-- A statement that does not write the LEDs. -/
theorem leds_runStep {c : Invocation} (hpc : c.pc ≠ .writeLeds) (b' : Board) :
    ((runStep modules s b c).registers b').leds = (s.registers b').leds := by
  by_cases hb : b' = b
  · subst hb
    unfold runStep
    cases hcase : c.pc with
    | writeLeds => exact absurd hcase hpc
    | _ => simp [State.registers, State.setFpga]
  · rw [registers_runStep_of_ne c hb]

theorem ledByte_writeLeds {c : Invocation} (hpc : c.pc = .writeLeds) :
    ledByte modules b ((runStep modules s b c).registers b) = lowByte s.value := by
  rw [runStep, hpc, registers_setFpga_self, ledByte]
  refine (iowrite8_apply _ _ _).trans ?_
  exact if_pos rfl

theorem lowByte_xor (x y : BitVec 32) : lowByte (x ^^^ y) = lowByte x ^^^ lowByte y := by
  rw [lowByte, BitVec.setWidth_xor]
  rfl

/-- Whether the LEDs are toggled is whether they show what `value` was before. -/
theorem toggles_run (h : Recorded modules s log) (c : Invocation) :
    Toggles modules (.access b c.pc c.n s.registers (runStep modules s b c).registers) ↔
      Synchronized modules log
        (.access b c.pc c.n s.registers (runStep modules s b c).registers) := by
  have hothers : ∀ b', b' ≠ b →
      ((runStep modules s b c).registers b').leds = (s.registers b').leds := by
    intro b' hb
    rw [registers_runStep_of_ne c hb]
  by_cases hpc : c.pc = .writeLeds
  · have hshow : ledByte modules b ((runStep modules s b c).registers b) = lowByte s.value :=
      ledByte_writeLeds hpc
    have hsync : Synchronized modules log
        (.access b c.pc c.n s.registers (runStep modules s b c).registers) ↔
          ledByte modules b (s.registers b) = lowByte s.value ^^^ lowByte c.n := by
      rw [hpc, ← h.shown b, ← h.value b, ← lowByte_xor]
      exact Iff.rfl
    rw [hsync, Toggles, if_pos hpc, hshow]
    constructor
    · rintro ⟨-, htoggle⟩
      rw [htoggle, UInt8.xor_assoc, UInt8.xor_self, UInt8.xor_zero]
    · intro heq
      refine ⟨hothers, ?_⟩
      rw [heq, UInt8.xor_assoc, UInt8.xor_self, UInt8.xor_zero]
  · refine iff_of_true ?_ ?_
    · rw [Toggles, if_neg hpc]
      exact ⟨hothers, leds_runStep hpc b⟩
    · cases hcase : c.pc with
      | writeLeds => exact absurd hcase hpc
      | _ => trivial

end Steps

/-! ### Every run -/

section Runs

variable {modules : Board → Modules abi} {acts : List (Act Board)} {s : State Board}
  {log : List (Event Board)} {registers : Board → Registers}

theorem recorded_init (hleds : ∀ b, ledByte modules b (registers b) = 0) :
    Recorded modules (init registers) [] where
  value _ := rfl
  shown b := (hleds b).symm

/-- **The LEDs that are toggled**: in every run of any boards whose LEDs are off at the start, their
handlers interleaved in any way with each other and with the writes to the LEDs of all of them, each
invocation of a handler changes no other LEDs than those of its board, and those only by toggling the
bits it has read, exactly when each time a handler writes the LEDs of its board, the byte that was
last written there is what all other invocations together have toggled. -/
theorem toggles_iff (hrun : (machine modules).exec (init registers) acts = some (s, log))
    (hleds : ∀ b, ledByte modules b (registers b) = 0) :
    (∀ e ∈ log, Toggles modules e) ↔ History.EachAfter (Synchronized modules) log := by
  refine each_iff_of_statements recorded_step ?_ (fun h _ => toggles_run h _)
    (recorded_init hleds) hrun
  intro log e hother
  cases e with
  | access b pc n before after => exact absurd rfl (hother b pc n before after)
  | edge | initialized | stored => exact Iff.rfl

end Runs

/-- A board is initialized, a process writes a byte to its LEDs, and there is an interrupt. -/
def ledsActs (byte : UInt8) (n : BitVec 32) : List (Act Unit) :=
  [.setup (), .setup (), .setup (), .write () 0 [byte] true 1, .edge () n, .interrupt () 1] ++
    List.replicate 8 (.run ())

/-- What is written is what the LEDs show anyway. -/
theorem toggles_iff_zero :
    ∃ s log, (machine fun _ : Unit => someModules).exec (init fun _ => ⟨0, 0, 0, fun _ => 0⟩)
        (ledsActs 0 3) = some (s, log) ∧ ∀ e ∈ log, Toggles (fun _ => someModules) e := by
  obtain ⟨⟨s, log⟩, hrun, hsync⟩ := Option.map_eq_some_iff.1
    (show ((machine fun _ : Unit => someModules).exec (init fun _ => ⟨0, 0, 0, fun _ => 0⟩)
        (ledsActs 0 3)).map
          (fun r => decide (History.EachAfter (Synchronized fun _ => someModules) r.2)) =
        some true by decide +kernel)
  exact ⟨s, log, hrun, (toggles_iff hrun fun _ => rfl).2 (of_decide_eq_true hsync)⟩

/-- What the LEDs of a board show after a statement of its handler, and what toggling them gives. -/
def Event.difference (modules : Board → Modules abi) : Event Board → UInt8
  | .access b .writeLeds n before after =>
      ledByte modules b (after b) ^^^ (ledByte modules b (before b) ^^^ lowByte n)
  | _ => 0

omit [DecidableEq Board] in
theorem Toggles.difference_eq {modules : Board → Modules abi} {e : Event Board}
    (h : Toggles modules e) : e.difference modules = 0 := by
  cases e with
  | access b pc n before after =>
    cases pc with
    | writeLeds =>
      have htoggle : ledByte modules b (after b) = ledByte modules b (before b) ^^^ lowByte n :=
        h.2
      rw [Event.difference, htoggle, UInt8.xor_self]
    | _ => rfl
  | _ => rfl

/-- The LEDs show `0xF0`; the interrupt of the first switch puts them out instead of toggling one. -/
theorem leds_overwritten :
    ∃ s log, (machine fun _ : Unit => someModules).exec (init fun _ => ⟨0, 0, 0, fun _ => 0⟩)
        (ledsActs 0xF0 1) = some (s, log) ∧
      ledByte (fun _ => someModules) () (s.registers ()) = 1 ∧
      ¬ ∀ e ∈ log, Toggles (fun _ => someModules) e := by
  obtain ⟨⟨s, log⟩, hrun, hval⟩ := Option.map_eq_some_iff.1
    (show ((machine fun _ : Unit => someModules).exec (init fun _ => ⟨0, 0, 0, fun _ => 0⟩)
        (ledsActs 0xF0 1)).map
          (fun r => (ledByte (fun _ => someModules) () (r.1.registers ()),
            r.2.any fun e => e.difference (fun _ => someModules) ≠ 0)) = some (1, true) by
      decide +kernel)
  simp only [Prod.mk.injEq] at hval
  obtain ⟨hbyte, hany⟩ := hval
  obtain ⟨e, he, hdifference⟩ := List.any_eq_true.1 hany
  exact ⟨s, log, hrun, hbyte, fun h => of_decide_eq_true hdifference (h e he).difference_eq⟩

/-! ### One board -/

section Alone

variable {modules : Board → Modules abi} {acts : List (Act Board)} {s : State Board}
  {log : List (Event Board)} {registers : Board → Registers}

/-- No other board has an interrupt that its handler takes, and nobody writes to the LEDs of this
one. -/
def Alone (b : Board) : Event Board → Prop
  | .access b' _ _ _ _ => b' = b
  | .stored b' _ => b' ≠ b
  | _ => True

/-- What the invocation in progress has toggled and not yet written. -/
def Fpga.pending (x : Fpga) : BitVec 32 :=
  match x.handler with
  | some c => if c.pc = .writeLeds then c.n else 0#32
  | none => 0#32

/-- The LEDs show `value`, but for what is pending. -/
def InStep (modules : Board → Modules abi) (b : Board) (s : State Board) : Prop :=
  ledByte modules b (s.registers b) = lowByte (s.value ^^^ (s.fpga b).pending)

theorem InStep.setFpga {b b' : Board} (h : InStep modules b s) (x : Fpga)
    (hx : b' = b → x.registers.leds = (s.registers b).leds ∧ x.pending = (s.fpga b).pending) :
    InStep modules b (s.setFpga b' x) := by
  unfold InStep
  by_cases hb : b = b'
  · subst hb
    obtain ⟨hleds, hpending⟩ := hx rfl
    rw [registers_setFpga_self, setFpga_self, setFpga_value, ledByte, hleds, hpending]
    exact h
  · rw [registers_setFpga_of_ne _ hb, setFpga_of_ne _ hb, setFpga_value]
    exact h

omit [DecidableEq Board] in
theorem pending_eq {b : Board} {c : Invocation} (hc : (s.fpga b).handler = some c) :
    (s.fpga b).pending = if c.pc = .writeLeds then c.n else 0#32 := by
  rw [Fpga.pending, hc]

theorem inStep_run {b : Board} (h : InStep modules b s) {c : Invocation}
    (hc : (s.fpga b).handler = some c) : InStep modules b (runStep modules s b c) := by
  have hpending := pending_eq hc
  unfold InStep at *
  cases hpc : c.pc with
  | writeLeds =>
    rw [ledByte_writeLeds hpc, runStep, hpc]
    simp [Fpga.pending]
  | toggle =>
    rw [hpending, hpc, if_neg (by decide), BitVec.xor_zero] at h
    have hcancel : s.value ^^^ c.n ^^^ c.n = s.value := by
      rw [BitVec.xor_assoc, BitVec.xor_self, BitVec.xor_zero]
    rw [ledByte, leds_runStep (by rw [hpc]; decide), ← ledByte, h, runStep, hpc]
    simp only [Fpga.pending, State.setFpga, Function.update_self, if_true, hcancel]
  | test =>
    rw [hpending, hpc, if_neg (by decide)] at h
    rw [ledByte, leds_runStep (by rw [hpc]; decide), ← ledByte, h, runStep, hpc]
    simp only [setFpga_value, setFpga_self, Fpga.pending]
    split_ifs <;> simp_all
  | _ =>
    rw [hpending, hpc, if_neg (by decide)] at h
    rw [ledByte, leds_runStep (by rw [hpc]; decide), ← ledByte, h, runStep, hpc]
    simp [Fpga.pending]

theorem inStep_step {b : Board} {s' : State Board} {out : List (Event Board)} {a : Act Board}
    (h : InStep modules b s) (hstep : step modules s a = some (s', out))
    (halone : ∀ e ∈ out, Alone b e) : InStep modules b s' := by
  cases move_of_step hstep with
  | edge b' bits => exact h.setFpga _ fun hb => hb ▸ ⟨rfl, rfl⟩
  | reset b' => exact h.setFpga _ fun hb => hb ▸ ⟨rfl, rfl⟩
  | quiet b' x hhandler _ hleds =>
    refine h.setFpga x ?_
    rintro rfl
    exact ⟨hleds, by rw [Fpga.pending, Fpga.pending, hhandler]⟩
  | ignore => exact h
  | interrupt b' status hidle =>
    refine h.setFpga _ ?_
    rintro rfl
    exact ⟨rfl, by simp [Fpga.pending, hidle]⟩
  | run b' c hc =>
    obtain rfl : b' = b := halone _ List.mem_cons_self
    exact inStep_run h hc
  | write b' bytes =>
    have hne : b' ≠ b := halone _ List.mem_cons_self
    exact h.setFpga _ fun hb => absurd hb hne

/-- A handler that is in step writes what it has read. -/
theorem synchronized_of_inStep {b : Board} (hrecorded : Recorded modules s log)
    (h : InStep modules b s) {c : Invocation} (hc : (s.fpga b).handler = some c)
    (before after : Board → Registers) :
    Synchronized modules log (.access b c.pc c.n before after) := by
  have hpending := pending_eq hc
  cases hpc : c.pc with
  | writeLeds =>
    rw [hpc, if_pos rfl] at hpending
    rw [Synchronized, hrecorded.shown b, hrecorded.value b, ← hpending]
    exact h
  | _ => trivial

/-- **One board alone** toggles its LEDs at each interrupt. -/
theorem toggles_of_alone (hrun : (machine modules).exec (init registers) acts = some (s, log))
    (hleds : ∀ b, ledByte modules b (registers b) = 0) (b : Board)
    (halone : ∀ e ∈ log, Alone b e) : ∀ e ∈ log, Toggles modules e := by
  have hstart : InStep modules b (init registers) := by
    have hzero : lowByte ((0 : BitVec 32) ^^^ 0#32) = 0 := by decide
    exact (hleds b).trans hzero.symm
  refine (System.exec_induction
    (I := fun s log => (∀ e ∈ log, Alone b e) → Recorded modules s log ∧ InStep modules b s ∧
      ∀ e ∈ log, Toggles modules e) ?_
    (fun _ => ⟨recorded_init hleds, hstart, fun _ he => absurd he List.not_mem_nil⟩) hrun
    halone).2.2
  intro s log a s' out hI hstep halone
  obtain ⟨hlog, hout⟩ := List.forall_mem_append.1 halone
  obtain ⟨hrecorded, hinStep, htoggles⟩ := hI hlog
  refine ⟨recorded_step hrecorded hstep, inStep_step hinStep hstep hout,
    List.forall_mem_append.2 ⟨htoggles, ?_⟩⟩
  cases move_of_step hstep with
  | run b' c hc =>
    obtain rfl : b' = b := hout _ List.mem_cons_self
    exact List.forall_mem_singleton.2
      ((toggles_run hrecorded c).2 (synchronized_of_inStep hrecorded hinStep hc _ _))
  | edge b' bits => exact List.forall_mem_singleton.2 trivial
  | reset b' => exact List.forall_mem_singleton.2 trivial
  | write b' bytes => exact List.forall_mem_singleton.2 trivial
  | quiet b' x _ _ _ => exact fun _ he => absurd he List.not_mem_nil
  | ignore => exact fun _ he => absurd he List.not_mem_nil
  | interrupt b' status _ => exact fun _ he => absurd he List.not_mem_nil

end Alone

end IldDrivers.ExampleFpga.Handler
