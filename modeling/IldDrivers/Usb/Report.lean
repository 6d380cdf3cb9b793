import IldDrivers.Lib.Scan
import IldDrivers.Usb.Rest

/-!
# A report of the board, as text (`example-VII-05`)

`example_read` prints the eight bytes of a report as decimal numbers, `example_write` reads eight
decimal numbers and sends their low bytes. Here one process uses the driver, no signal comes and no
transfer fails.

* `reportText`, `sscanf_reportText`: the text, and that `sscanf` reads it back;
* `Stage`, `Stage.served`: what a call has reached at each of its statements, and that its statements
  and the completion of its URB keep to it;
* `Stage.runs`, `Stage.progress`: such a call can always go on, and comes closer to its return.
-/

namespace IldDrivers.ExampleVII

variable {Pid : Type*}

/-! ### The text -/

/-- `sscanf` with the format of `example_write`. -/
def sscanf (text : List UInt8) : Option (Fin 8 → ℤ) :=
  (scanInts 8 text).map fun l i => cInt (l.getD i 0)

/-- `example-VII-05` with this `sscanf`. -/
def vii05 (abi : Abi) : Setup := ⟨.vii05, abi, sscanf⟩

/-- The text of a report. -/
def reportText (report : List UInt8) : List UInt8 :=
  [32].intercalate (report.map fun b => decimal b.toNat) ++ [10]

theorem formatBytes_eq (m : Memory UInt8) : formatBytes m = reportText (m.load 0 8) := rfl

theorem nulFree_reportText (report : List UInt8) : NulFree (reportText report) := by
  refine (nulFree_intercalate (by decide) fun l hl => ?_).append (by decide)
  obtain ⟨b, -, rfl⟩ := List.mem_map.1 hl
  exact nulFree_decimal _

/-- It fits into `k_buffer`, with the NUL. -/
theorem reportText_length_lt {report : List UInt8} (hsize : report.length = 8) :
    (reportText report).length < 63 := by
  have hnumbers : ([32].intercalate (report.map fun b => decimal b.toNat)).length ≤
      (4 + 1) * (report.map fun b => decimal b.toNat).length := by
    refine length_intercalate_le fun l hl => ?_
    obtain ⟨b, -, rfl⟩ := List.mem_map.1 hl
    refine decimal_length_le (k := 3) (by decide) ?_
    have hb := b.toNat_lt
    omega
  rw [List.length_map, hsize] at hnumbers
  unfold reportText
  rw [List.length_append, List.length_singleton]
  omega

/-- **The text is read back** as the eight bytes. -/
theorem sscanf_reportText {report : List UInt8} (hsize : report.length = 8) :
    sscanf (reportText report) = some fun i : Fin 8 => ((report.getD i 0).toNat : ℤ) := by
  have hnewline : NoDigitHead [10] := by
    intro b hb
    cases hb
    decide
  have hscan := scanInts_intercalate (report.map fun b => (b.toNat : ℤ)) hnewline
  rw [List.length_map, hsize, List.map_map] at hscan
  unfold sscanf reportText
  rw [show (report.map fun b => decimal b.toNat) =
    report.map (decimal ∘ fun b : UInt8 => (b.toNat : ℤ)) from rfl, hscan, Option.map_some]
  congr 1
  funext i
  have hi : (i : ℕ) < report.length := by omega
  have hb := (report[(i : ℕ)]).toNat_lt
  rw [List.getD_eq_getElem?_getD, List.getElem?_map, List.getElem?_eq_getElem hi, Option.map_some,
    Option.getD_some, List.getD_eq_getElem?_getD, List.getElem?_eq_getElem hi, Option.getD_some]
  exact cInt_of_small (by omega) (by omega)

theorem lowByte_toNat (b : UInt8) : lowByte b.toNat = b := by
  have hb := b.toNat_lt
  unfold lowByte
  rw [Int.emod_eq_of_lt (by omega) (by omega), Int.toNat_natCast, UInt8.ofNat_toNat]

/-- When its string has been copied, `example_write` reads all but its last byte. -/
theorem prepare_concat (S : Setup) {a : WriteArgs} {heap : Memory UInt8} (hheap : a.heap = some heap)
    (hcopied : a.data.length ≤ a.copied) {text : List UInt8} {b : UInt8}
    (hdata : a.data = text ++ [b]) :
    prepare S a = some (match S.sscanf (cstring (text ++ [0])) with
      | none => .error (-eInval)
      | some o => .ok o) := by
  have hlength : a.data.length = text.length + 1 := by
    rw [hdata, List.length_append, List.length_singleton]
  have hdone : (copyFromUser heap 0 a.data a.copied).2 = 0 := Nat.sub_eq_zero_of_le hcopied
  have hload : ((copyFromUser heap 0 a.data a.copied).1.store ((a.data.length : ℕ) - 1) [0]).load 0
      a.data.length = text ++ [0] := by
    have hbefore : (heap.store 0 (text ++ [b])).load 0 text.length = text := by
      rw [← Memory.load_take _ _ (Nat.le_add_right text.length 1), ← hlength, hdata,
        Memory.load_store, List.take_left]
    rw [copyFromUser_complete hdone, hlength, Memory.load_add,
      Memory.load_store_of_disjoint (.inl (by omega)), hdata, hbefore,
      show (((text.length + 1 : ℕ) : ℤ) - 1) = 0 + (text.length : ℤ) by omega]
    exact congrArg (text ++ ·) (Memory.load_store _ _ [0])
  unfold prepare
  rw [hheap]
  dsimp only
  rw [if_neg (by rw [hdone]; decide), if_neg (by omega), hload]
  cases S.sscanf (cstring (text ++ [0])) <;> rfl

/-- It is given a text and its NUL, which it overwrites with a NUL. -/
theorem prepare_text (S : Setup) {text : List UInt8} (hnul : NulFree text) {heap : Memory UInt8}
    {copied : ℕ} (hcopied : text.length + 1 ≤ copied) {o : Fin 8 → ℤ}
    (hscan : S.sscanf text = some o) :
    prepare S ⟨text ++ [0], some heap, copied⟩ = some (.ok o) := by
  have hcopied' : (text ++ [0]).length ≤ copied := by
    rw [List.length_append, List.length_singleton]
    exact hcopied
  rw [prepare_concat S rfl hcopied' rfl, cstring_append_nul hnul, hscan]

/-! ### The stages of a call -/

/-- Process `p` has the mutex of the direction. -/
structure Channel.HeldBy (ch : Channel Pid) (p : Pid) (busy : ℤ) (inFlight : Bool) : Prop where
  holder : ch.mtx = some (.proc p)
  marked : ch.busy = busy
  flight : ch.inFlight = inFlight
  endpoint : ch.endpoint = .valid
  urb : ch.urb = .valid
  buffer : ch.buffer = .valid

/-- The transfer has succeeded, and the bytes of the report are in the buffer. -/
def Channel.Carries (ch : Channel Pid) (report : List UInt8) : Prop :=
  ch.status = 0 ∧ ch.bytes.load 0 8 = report

/-- `k_buffer` holds the text of the report and its NUL. -/
def Printed (report : List UInt8) (kBuffer : Memory UInt8) : Prop :=
  kBuffer.load 0 ((reportText report).length + 1) = reportText report ++ [0]

/-- The numbers that `example_write` has read: their low bytes are those of the report. -/
def Names (report : List UInt8) (o : Fin 8 → ℤ) : Prop :=
  ∀ i : Fin 8, report[(i : ℕ)]? = some (lowByte (o i))

/-- A read inside the text, or a write of a text that names the bytes of the report. -/
def Call.Suits (S : Setup) (report : List UInt8) : Call → Prop
  | .write a => ∃ o, prepare S a = some (.ok o) ∧ Names report o
  | .read a => a.offset ≤ (reportText report).length + 1

/-- How many bytes a read gives. -/
def ReadArgs.part (a : ReadArgs) (report : List UInt8) : ℕ :=
  min a.length ((reportText report).length + 1 - a.offset)

/-- What a call returns: its length for a write, and for a read the next part of the text, unless
that cannot be copied. -/
def Call.Result (report : List UInt8) : Call → ℤ → List UInt8 → ℕ → Prop
  | .write a, ret, user, advance => ret = a.data.length ∧ user = [] ∧ advance = 0
  | .read a, ret, user, advance =>
      (a.copied < a.part report ∧ ret = -eFault ∧ advance = 0) ∨
      (ret = a.part report ∧ advance = a.part report ∧
        user = ((reportText report ++ [0]).drop a.offset).take (a.part report))

/-- What the call `c` of process `p`, alone in the driver, has reached. -/
def Stage (report : List UInt8) (p : Pid) (c : Call) (f : Frame Pid) : Prop :=
  match f.pc with
  | .enter => f.ch.AtRest ∧ ∀ a, c = .read a → a.offset ≠ 0 → Printed report f.kBuffer
  | .lock => f.ch.AtRest ∧ (c.dir = .output → Names report f.o)
  | .testDevice | .busyTest | .setBusy =>
      f.ch.HeldBy p 0 false ∧ (c.dir = .output → Names report f.o)
  | .store i =>
      f.ch.HeldBy p 1 false ∧ c.dir = .output ∧ Names report f.o ∧
        f.ch.bytes.load 0 i = report.take i
  | .fill | .submit =>
      f.ch.HeldBy p 1 false ∧ (c.dir = .output → f.ch.bytes.load 0 8 = report)
  | .doneTest | .doneWait =>
      (f.ch.HeldBy p 1 true ∧ (c.dir = .output → f.ch.bytes.load 0 8 = report)) ∨
      (f.ch.HeldBy p 0 false ∧ f.ch.Carries report)
  | .checkStatus => f.ch.HeldBy p 0 false ∧ f.ch.Carries report
  | .format => f.ch.HeldBy p 0 false ∧ f.ch.Carries report ∧ c.dir = .input
  | .unlock none => f.ch.HeldBy p 0 false ∧ c.dir = .input ∧ Printed report f.kBuffer
  | .unlock (some ret) => f.ch.HeldBy p 0 false ∧ c.Result report ret [] 0 ∧ c.dir = .output
  | .measure => f.ch.AtRest ∧ c.dir = .input ∧ Printed report f.kBuffer
  | .copyOut lg =>
      f.ch.AtRest ∧ Printed report f.kBuffer ∧ ∃ a, c = .read a ∧ lg = a.part report
  | .ret ret user advance =>
      f.ch.AtRest ∧ c.Result report ret user advance ∧ (c.dir = .input → Printed report f.kBuffer)
  | .busyWait | .unlockNoDev | .clearBusy _ _ => False

/-- The contents of the buffer when the URB of direction `d` completes. -/
def Channel.arrived (ch : Channel Pid) (d : Direction) (data : List UInt8) : Memory UInt8 :=
  match d with
  | .output => ch.bytes
  | .input => ch.bytes.store 0 data

/-- The completion of the URB of the call. -/
def Frame.complete (d : Direction) (report : List UInt8) (f : Frame Pid) : Frame Pid :=
  { f with ch := f.ch.complete 0 (f.ch.arrived d report) }

/-- A step of the call. -/
inductive Served (S : Setup) (report : List UInt8) (p : Pid) (c : Call) (f f' : Frame Pid) : Prop
  | runs (h : runStep S .valid p c f = some f')
  | submits (h : submitStep f 0 = some f')
  | times (h : timeoutStep f = some f')
  | completes (hflight : f.ch.inFlight = true) (hf' : f' = f.complete c.dir report)

theorem Channel.AtRest.held {ch : Channel Pid} (h : ch.AtRest) (p : Pid) :
    Channel.HeldBy { ch with mtx := some (.proc p) } p 0 false :=
  ⟨rfl, h.idle, h.landed, h.endpoint, h.urb, h.buffer⟩

theorem Channel.HeldBy.atRest {ch : Channel Pid} {p : Pid} (h : ch.HeldBy p 0 false) :
    ({ ch with mtx := none } : Channel Pid).AtRest :=
  ⟨rfl, h.marked, h.flight, h.endpoint, h.urb, h.buffer⟩

theorem Channel.HeldBy.mark {ch : Channel Pid} {p : Pid} (h : ch.HeldBy p 0 false) :
    Channel.HeldBy { ch with busy := 1 } p 1 false :=
  ⟨h.holder, rfl, h.flight, h.endpoint, h.urb, h.buffer⟩

theorem Call.exists_read {c : Call} (h : c.dir = .input) : ∃ a, c = .read a := by
  cases c with
  | write a => cases h
  | read a => exact ⟨a, rfl⟩

/-- `snprintf`. -/
theorem printed_format {report : List UInt8} (hsize : report.length = 8) (kBuffer : Memory UInt8)
    {bytes : Memory UInt8} (hbytes : bytes.load 0 8 = report) :
    Printed report (kBuffer.store 0 ((formatBytes bytes).take 63 ++ [0])) := by
  have hlt := reportText_length_lt hsize
  unfold Printed
  rw [formatBytes_eq, hbytes, List.take_of_length_le (by omega)]
  have hload := Memory.load_store kBuffer 0 (reportText report ++ [0])
  rwa [List.length_append, List.length_singleton] at hload

/-- `strlen (k_buffer)`. -/
theorem Printed.strlen {report : List UInt8} {kBuffer : Memory UInt8} (h : Printed report kBuffer)
    (hsize : report.length = 8) : (cstring (kBuffer.load 0 64)).length = (reportText report).length := by
  have hlt := reportText_length_lt hsize
  have hbegins : reportText report ++ [0] <+: kBuffer.load 0 64 := by
    rw [← h]
    exact Memory.load_isPrefix kBuffer 0 (by omega)
  exact congrArg List.length (cstring_of_isPrefix (nulFree_reportText report) hbegins)

/-- The part of `k_buffer` that a read copies. -/
theorem Printed.load_part {report : List UInt8} {kBuffer : Memory UInt8} (h : Printed report kBuffer)
    {a : ReadArgs} (hoffset : a.offset ≤ (reportText report).length + 1) :
    kBuffer.load a.offset (a.part report) =
      ((reportText report ++ [0]).drop a.offset).take (a.part report) := by
  have hle : a.part report ≤ (reportText report).length + 1 - a.offset := Nat.min_le_right ..
  rw [← h, Memory.load_drop _ _ hoffset, Memory.load_take _ _ hle, zero_add]

/-- The next byte of the buffer. -/
theorem load_store_byte {report : List UInt8} {o : Fin 8 → ℤ} (hnames : Names report o)
    {bytes : Memory UInt8} {i : Fin 8} (h : bytes.load 0 i = report.take i) :
    (bytes.store i [lowByte (o i)]).load 0 (i + 1) = report.take (i + 1) := by
  rw [Memory.load_add, Memory.load_store_of_disjoint (.inl (by omega)), h, List.take_add_one,
    hnames i, zero_add]
  exact congrArg (report.take i ++ ·) (Memory.load_store bytes i [lowByte (o i)])

section Run

variable {S : Setup} {report : List UInt8} {p : Pid} {c : Call} {ch : Channel Pid}
  {kBuffer : Memory UInt8} {o : Fin 8 → ℤ}

/-- The statements before the mutex. -/
theorem Stage.enter {f' : Frame Pid} (h : Stage report p c ⟨ch, kBuffer, o, .enter⟩)
    (hsuits : c.Suits S report) (hrun : c.enter S ⟨ch, kBuffer, o, .enter⟩ = some f') :
    Stage report p c f' := by
  obtain ⟨hrest, hprinted⟩ := h
  cases c with
  | write a =>
    obtain ⟨o', hprepare, hnames⟩ := hsuits
    obtain ⟨r, hr, rfl⟩ := Option.map_eq_some_iff.1 hrun
    rw [hprepare] at hr
    cases hr
    exact ⟨hrest, fun _ => hnames⟩
  | read a =>
    cases hrun
    by_cases hoffset : a.offset = 0
    · rw [if_pos hoffset]
      exact ⟨hrest, fun hdir => by cases hdir⟩
    · rw [if_neg hoffset]
      exact ⟨hrest, rfl, hprinted a rfl hoffset⟩

/-- A byte of the output buffer. -/
theorem Stage.store {i : Fin 8} {f' : Frame Pid} (hsize : report.length = 8)
    (h : Stage report p c ⟨ch, kBuffer, o, .store i⟩)
    (hrun : runStep S .valid p c ⟨ch, kBuffer, o, .store i⟩ = some f') : Stage report p c f' := by
  obtain ⟨hheld, hdir, hnames, hbytes⟩ := h
  simp only [runStep, Option.ite_none_right_eq_some, Option.some.injEq] at hrun
  obtain ⟨-, rfl⟩ := hrun
  have hheld' : Channel.HeldBy { ch with bytes := ch.bytes.store i [lowByte (o i)] } p 1 false :=
    ⟨hheld.holder, hheld.marked, hheld.flight, hheld.endpoint, hheld.urb, hheld.buffer⟩
  have hbytes' := load_store_byte hnames hbytes
  by_cases hi : i = 7
  · subst hi
    rw [if_pos rfl]
    refine ⟨hheld', fun _ => hbytes'.trans ?_⟩
    exact List.take_of_length_le (by rw [hsize]; decide)
  · rw [if_neg hi]
    have hnext : ((i + 1 : Fin 8) : ℕ) = i + 1 := by omega
    refine ⟨hheld', hdir, hnames, ?_⟩
    rw [hnext]
    exact hbytes'

/-- The computation of `lg`: the difference is not negative, and `size_t` holds it. -/
theorem stage_measure {a : ReadArgs} (hsize : report.length = 8)
    (hoffset : a.offset ≤ (reportText report).length + 1) (hrest : ch.AtRest)
    (hprinted : Printed report kBuffer) :
    Stage report p (.read a) (tailStep S a ⟨ch, kBuffer, o, .measure⟩ .measure) := by
  have hlt := reportText_length_lt hsize
  have hlg : (((cstring (kBuffer.load 0 64)).length + 1 - a.offset : ℤ) %
      2 ^ S.abi.longBits).toNat = (reportText report).length + 1 - a.offset := by
    have hbits : (2 : ℤ) ^ 32 ≤ 2 ^ S.abi.longBits := by
      cases S.abi <;> decide
    rw [hprinted.strlen hsize, Int.emod_eq_of_lt (by omega) (by omega)]
    omega
  dsimp only [tailStep]
  rw [hlg]
  by_cases hend : (reportText report).length + 1 - a.offset ≤ 0
  · rw [if_pos hend]
    have hpart : a.part report = 0 := Nat.min_eq_zero_iff.2 (.inr (by omega))
    refine ⟨hrest, .inr ?_, fun _ => hprinted⟩
    rw [hpart, List.take_zero]
    exact ⟨rfl, rfl, rfl⟩
  · rw [if_neg hend]
    refine ⟨hrest, hprinted, a, rfl, ?_⟩
    unfold ReadArgs.part
    split_ifs with hlong
    · exact (Nat.min_eq_left (by omega)).symm
    · exact (Nat.min_eq_right (by omega)).symm

/-- `copy_to_user`. -/
theorem stage_copyOut {a : ReadArgs} (hoffset : a.offset ≤ (reportText report).length + 1)
    (hrest : ch.AtRest) (hprinted : Printed report kBuffer) :
    Stage report p (.read a)
      (tailStep S a ⟨ch, kBuffer, o, .copyOut (a.part report)⟩ (.copyOut (a.part report))) := by
  have hload := hprinted.load_part hoffset
  dsimp only [tailStep]
  by_cases hfault : (copyToUser (kBuffer.load a.offset (a.part report)) a.copied).2 = 0
  · rw [if_neg (not_not.2 hfault)]
    refine ⟨hrest, .inr ⟨rfl, rfl, ?_⟩, fun _ => hprinted⟩
    rw [copyToUser_complete hfault, hload]
  · rw [if_pos hfault]
    refine ⟨hrest, .inl ⟨?_, rfl, rfl⟩, fun _ => hprinted⟩
    by_contra hcopied
    apply hfault
    change (kBuffer.load a.offset (a.part report)).length - a.copied = 0
    rw [Memory.load_length]
    omega

end Run

/-- A statement of a call that keeps to its stages. -/
theorem Stage.run {S : Setup} {report : List UInt8} {p : Pid} {c : Call} {f f' : Frame Pid}
    (hsize : report.length = 8) (hsuits : c.Suits S report) (h : Stage report p c f)
    (hrun : runStep S .valid p c f = some f') : Stage report p c f' := by
  -- in the order of the source
  obtain ⟨ch, kBuffer, o, pc⟩ := f
  cases pc with
  | enter => exact h.enter hsuits hrun
  | lock =>
    simp only [runStep, Option.ite_none_right_eq_some, Option.some.injEq] at hrun
    obtain ⟨-, rfl⟩ := hrun
    exact ⟨h.1.held p, h.2⟩
  | testDevice =>
    cases hrun
    exact h
  | busyTest =>
    cases hrun
    rw [if_neg (not_not.2 h.1.marked)]
    exact h
  | setBusy =>
    cases hrun
    cases c with
    | write a => exact ⟨h.1.mark, rfl, h.2 rfl, rfl⟩
    | read a => exact ⟨h.1.mark, fun hdir => by cases hdir⟩
  | store i => exact h.store hsize hrun
  | fill =>
    simp only [runStep, Option.ite_none_right_eq_some, Option.some.injEq] at hrun
    obtain ⟨-, rfl⟩ := hrun
    exact h
  | submit => cases hrun
  | doneTest =>
    cases hrun
    rcases h with ⟨hheld, hout⟩ | ⟨hheld, hcarries⟩
    · rw [if_pos (by rw [hheld.marked]; decide)]
      exact .inl ⟨hheld, hout⟩
    · rw [if_neg (not_not.2 hheld.marked)]
      exact ⟨hheld, hcarries⟩
  | doneWait =>
    simp only [runStep, Option.ite_none_right_eq_some, Option.some.injEq] at hrun
    obtain ⟨-, rfl⟩ := hrun
    exact h
  | checkStatus =>
    simp only [runStep, Option.ite_none_right_eq_some, Option.some.injEq] at hrun
    obtain ⟨-, rfl⟩ := hrun
    rw [if_neg (not_not.2 h.2.1)]
    cases c with
    | write a => exact ⟨h.1, ⟨rfl, rfl, rfl⟩, rfl⟩
    | read a => exact ⟨h.1, h.2, rfl⟩
  | format =>
    obtain ⟨hheld, hcarries, hdir⟩ := h
    simp only [runStep, Option.ite_none_right_eq_some, Option.some.injEq] at hrun
    obtain ⟨-, rfl⟩ := hrun
    exact ⟨hheld, hdir, printed_format hsize kBuffer hcarries.2⟩
  | unlock ret =>
    cases ret with
    | none =>
      cases hrun
      exact ⟨h.1.atRest, h.2⟩
    | some ret =>
      obtain ⟨hheld, hresult, hdir⟩ := h
      cases hrun
      exact ⟨hheld.atRest, hresult, fun hin => absurd (hdir.symm.trans hin) (by decide)⟩
  | measure =>
    obtain ⟨hrest, hdir, hprinted⟩ := h
    obtain ⟨a, rfl⟩ := Call.exists_read hdir
    cases hrun
    exact stage_measure hsize hsuits hrest hprinted
  | copyOut lg =>
    obtain ⟨hrest, hprinted, a, rfl, rfl⟩ := h
    cases hrun
    exact stage_copyOut hsuits hrest hprinted
  | ret => cases hrun
  | busyWait | unlockNoDev | clearBusy => exact h.elim

/-- The URB is in flight only while the call waits for it. -/
theorem Stage.flight {report : List UInt8} {p : Pid} {c : Call} {f : Frame Pid}
    (h : Stage report p c f) (hflight : f.ch.inFlight = true) :
    (f.pc = .doneTest ∨ f.pc = .doneWait) ∧ f.ch.HeldBy p 1 true ∧
      (c.dir = .output → f.ch.bytes.load 0 8 = report) := by
  obtain ⟨ch, kBuffer, o, pc⟩ := f
  have hne : ch.inFlight ≠ false := fun hlanded => Bool.false_ne_true (hlanded.symm.trans hflight)
  cases pc with
  | enter | lock | measure | copyOut | ret => exact absurd h.1.landed hne
  | testDevice | busyTest | setBusy | store | fill | submit | checkStatus | format =>
    exact absurd h.1.flight hne
  | unlock ret => cases ret <;> exact absurd h.1.flight hne
  | doneTest =>
    rcases h with ⟨hheld, hout⟩ | ⟨hheld, -⟩
    · exact ⟨.inl rfl, hheld, hout⟩
    · exact absurd hheld.flight hne
  | doneWait =>
    rcases h with ⟨hheld, hout⟩ | ⟨hheld, -⟩
    · exact ⟨.inr rfl, hheld, hout⟩
    · exact absurd hheld.flight hne
  | busyWait | unlockNoDev | clearBusy => exact h.elim

/-- The URB completes. -/
theorem Stage.complete {report : List UInt8} {p : Pid} {c : Call} {f : Frame Pid}
    (hsize : report.length = 8) (h : Stage report p c f) (hflight : f.ch.inFlight = true) :
    Stage report p c (f.complete c.dir report) := by
  obtain ⟨hpc, hheld, hout⟩ := h.flight hflight
  obtain ⟨ch, kBuffer, o, pc⟩ := f
  have hdone : Channel.HeldBy (Frame.complete c.dir report ⟨ch, kBuffer, o, pc⟩).ch p 0 false :=
    ⟨hheld.holder, rfl, rfl, hheld.endpoint, hheld.urb, hheld.buffer⟩
  have hcarries : (Frame.complete c.dir report ⟨ch, kBuffer, o, pc⟩).ch.Carries report := by
    refine ⟨rfl, ?_⟩
    cases c with
    | write a => exact hout rfl
    | read a =>
      have hload := Memory.load_store ch.bytes 0 report
      rwa [hsize] at hload
  rcases hpc with hpc | hpc
  · cases hpc
    exact .inr ⟨hdone, hcarries⟩
  · cases hpc
    exact .inr ⟨hdone, hcarries⟩

/-- **A call alone in the driver keeps to its stages.** -/
theorem Stage.served {S : Setup} {report : List UInt8} {p : Pid} {c : Call} {f f' : Frame Pid}
    (hsize : report.length = 8) (hsuits : c.Suits S report) (h : Stage report p c f)
    (hserved : Served S report p c f f') : Stage report p c f' := by
  cases hserved with
  | runs hrun => exact h.run hsize hsuits hrun
  | submits hsubmit =>
    unfold submitStep at hsubmit
    split at hsubmit
    · next hpc =>
      obtain ⟨ch, kBuffer, o, pc⟩ := f
      cases hpc
      split_ifs at hsubmit with hurb herr
      · exact absurd rfl herr
      · cases hsubmit
        obtain ⟨hheld, hout⟩ := h
        exact .inl ⟨⟨hheld.holder, hheld.marked, rfl, hheld.endpoint, hheld.urb, hheld.buffer⟩, hout⟩
    · cases hsubmit
  | times htimeout =>
    obtain ⟨ch, kBuffer, o, pc⟩ := f
    unfold timeoutStep at htimeout
    split at htimeout
    · next hpc =>
      cases hpc
      exact h.elim
    · next hpc =>
      cases hpc
      cases htimeout
      exact h
    · cases htimeout
  | completes hflight hf' =>
    subst hf'
    exact h.complete hsize hflight

/-! ### The way to the return -/

/-- At a statement that only the process itself can execute. -/
def Pc.runs : Pc → Bool
  | .submit | .doneTest | .doneWait | .ret _ _ _ => false
  | _ => true

/-- How far the return is. -/
def Pc.left : Pc → ℕ
  | .enter => 22
  | .lock => 21
  | .testDevice => 20
  | .busyTest => 19
  | .setBusy => 18
  | .store i => 17 - i
  | .fill => 9
  | .submit => 8
  | .doneWait => 7
  | .doneTest => 6
  | .checkStatus => 5
  | .format => 4
  | .unlock _ => 3
  | .measure => 2
  | .copyOut _ => 1
  | _ => 0

def Frame.left (f : Frame Pid) : ℕ := 2 * f.pc.left + if f.ch.inFlight then 1 else 0

/-- `pc'` comes after `pc`, and if the submission lies ahead of a write at `pc`, it does not lie behind
`pc'`. -/
def Nearer (c : Call) (pc pc' : Pc) : Prop :=
  pc'.left < pc.left ∧ (c.dir = .output → 8 < pc.left → 8 ≤ pc'.left)

theorem nearer_of_left (c : Call) {pc pc' : Pc}
    (h : pc'.left < pc.left ∧ (8 < pc.left → 8 ≤ pc'.left)) : Nearer c pc pc' :=
  ⟨h.1, fun _ => h.2⟩

theorem nearer_store (c : Call) (i : Fin 8) :
    Nearer c (.store i) (if i = 7 then .fill else .store (i + 1)) := by
  apply nearer_of_left
  revert i
  decide

/-- The process can go on. -/
theorem Stage.runs {S : Setup} {report : List UInt8} {p : Pid} {c : Call} {f : Frame Pid}
    (hsuits : c.Suits S report) (h : Stage report p c f) (hpc : f.pc.runs = true) :
    ∃ f', runStep S .valid p c f = some f' ∧ Nearer c f.pc f'.pc := by
  obtain ⟨ch, kBuffer, o, pc⟩ := f
  cases pc with
  | enter =>
    cases c with
    | write a =>
      obtain ⟨o', hprepare, -⟩ := hsuits
      exact ⟨_, Option.map_eq_some_iff.2 ⟨_, hprepare, rfl⟩,
        show Nearer _ .enter .lock from nearer_of_left _ (by decide)⟩
    | read a =>
      refine ⟨_, rfl, ?_⟩
      change Nearer _ .enter (if a.offset = 0 then .lock else .measure)
      split_ifs
      · exact nearer_of_left _ (by decide)
      · exact ⟨by decide, fun hdir => by cases hdir⟩
  | lock =>
    exact ⟨_, if_pos (Option.isNone_iff_eq_none.2 h.1.free),
      show Nearer c .lock .testDevice from nearer_of_left c (by decide)⟩
  | testDevice =>
    exact ⟨_, rfl, show Nearer c .testDevice .busyTest from nearer_of_left c (by decide)⟩
  | busyTest =>
    refine ⟨_, rfl, ?_⟩
    rw [if_neg (not_not.2 h.1.marked)]
    exact show Nearer c .busyTest .setBusy from nearer_of_left c (by decide)
  | setBusy =>
    refine ⟨_, rfl, ?_⟩
    cases c with
    | write a => exact show Nearer _ .setBusy (.store 0) from nearer_of_left _ (by decide)
    | read a => exact show Nearer _ .setBusy .fill from nearer_of_left _ (by decide)
  | store i =>
    refine ⟨_, if_pos h.1.buffer, ?_⟩
    exact nearer_store c i
  | fill =>
    exact ⟨_, if_pos ⟨rfl, h.1.endpoint, h.1.urb⟩,
      show Nearer c .fill .submit from nearer_of_left c (by decide)⟩
  | checkStatus =>
    refine ⟨_, if_pos h.1.urb, ?_⟩
    rw [if_neg (not_not.2 h.2.1)]
    cases c with
    | write a =>
      exact show Nearer _ .checkStatus (.unlock _) from
        ⟨show 3 < 5 by decide, fun _ hfar => absurd hfar (by decide)⟩
    | read a => exact show Nearer _ .checkStatus .format from nearer_of_left _ (by decide)
  | format =>
    exact ⟨_, if_pos h.1.buffer, show Nearer c .format (.unlock none) from nearer_of_left c (by decide)⟩
  | unlock ret =>
    cases ret with
    | none => exact ⟨_, rfl, show Nearer c (.unlock none) .measure from nearer_of_left c (by decide)⟩
    | some ret =>
      exact ⟨_, rfl, show Nearer c (.unlock _) (.ret _ _ _) from
        ⟨show 0 < 3 by decide, fun _ hfar => absurd hfar (show ¬ 8 < 3 by decide)⟩⟩
  | measure =>
    obtain ⟨a, rfl⟩ := Call.exists_read h.2.1
    refine ⟨_, rfl, ?_, fun hdir => by cases hdir⟩
    dsimp only [tailStep]
    split_ifs
    · exact show 0 < 2 by decide
    · exact show 1 < 2 by decide
    · exact show 1 < 2 by decide
  | copyOut lg =>
    obtain ⟨a, rfl, -⟩ := h.2.2
    refine ⟨_, rfl, ?_, fun hdir => by cases hdir⟩
    dsimp only [tailStep]
    split_ifs
    · exact show 0 < 1 by decide
    · exact show 0 < 1 by decide
  | submit | doneTest | doneWait | ret => cases hpc
  | busyWait | unlockNoDev | clearBusy => exact h.elim

/-- The step a call takes that does not wait. -/
def Pc.event : Pc → Event
  | .submit => .submit 0
  | _ => .run

/-- Before the submission a call does not wait. -/
theorem Pc.before_submit {pc : Pc} (hfar : 8 ≤ pc.left) (hpc : pc ≠ .submit) :
    pc.runs = true ∧ pc.event = .run ∧ 8 < pc.left := by
  cases pc with
  | enter | lock | testDevice | busyTest | setBusy | fill => exact ⟨rfl, rfl, by decide⟩
  | store i => exact ⟨rfl, rfl, show 8 < 17 - (i : ℕ) by omega⟩
  | submit => exact absurd rfl hpc
  | _ => simp [Pc.left] at hfar

/-- It is the only one that the process can take. -/
theorem Stage.event_eq {S : Setup} {report : List UInt8} {p : Pid} {c : Call} {f f' : Frame Pid}
    {e : Event} (h : Stage report p c f) (hpc : f.pc.runs = true ∨ f.pc = .submit)
    (he : e = .run ∨ e = .submit 0 ∨ e = .timeout) (hf : callStep S .valid p c f e = some f') :
    e = f.pc.event := by
  obtain ⟨ch, kBuffer, o, pc⟩ := f
  rcases he with rfl | rfl | rfl
  · cases pc <;> first | rfl | cases hf
  · cases pc <;> first | rfl | cases hf
  · cases pc with
    | busyWait => exact h.elim
    | doneWait => rcases hpc with hpc | hpc <;> cases hpc
    | _ => cases hf

/-- Nor does its URB complete. -/
theorem Stage.landed {report : List UInt8} {p : Pid} {c : Call} {f : Frame Pid}
    (h : Stage report p c f) (hpc : f.pc.runs = true ∨ f.pc = .submit) : f.ch.inFlight = false := by
  by_contra hflight
  rcases (h.flight (by simpa using hflight)).1 with heq | heq <;>
  · rw [heq] at hpc
    rcases hpc with hpc | hpc <;> cases hpc

/-- The submission. -/
theorem Stage.submit {report : List UInt8} {p : Pid} {c : Call} {f : Frame Pid}
    (h : Stage report p c f) (hpc : f.pc = .submit) :
    submitStep f 0 = some { f with ch := { f.ch with inFlight := true }, pc := .doneTest } := by
  obtain ⟨ch, kBuffer, o, pc⟩ := f
  cases hpc
  have hurb : ch.urb = .valid := h.1.urb
  have hflight : ch.inFlight = false := h.1.flight
  simp [submitStep, hurb, hflight]

/-- **A call alone in the driver comes to its return.** -/
theorem Stage.progress {S : Setup} {report : List UInt8} {p : Pid} {c : Call} {f : Frame Pid}
    (hsuits : c.Suits S report) (h : Stage report p c f) :
    (∃ ret user advance, f.pc = .ret ret user advance) ∨
      ∃ f', Served S report p c f f' ∧ f'.left < f.left := by
  by_cases hpc : f.pc.runs = true
  · obtain ⟨f', hrun, hnear, -⟩ := h.runs hsuits hpc
    refine .inr ⟨f', .runs hrun, ?_⟩
    unfold Frame.left
    split_ifs <;> omega
  by_cases hret : ∃ ret user advance, f.pc = .ret ret user advance
  · exact .inl hret
  obtain ⟨ch, kBuffer, o, pc⟩ := f
  have hflies : ch.inFlight = true → ∃ f', Served S report p c ⟨ch, kBuffer, o, pc⟩ f' ∧
      f'.left < Frame.left ⟨ch, kBuffer, o, pc⟩ := by
    intro hflight
    refine ⟨_, .completes hflight rfl, ?_⟩
    unfold Frame.left
    rw [if_pos hflight]
    exact Nat.lt_succ_self _
  right
  cases pc with
  | submit =>
    exact ⟨_, .submits (h.submit rfl),
      Nat.lt_of_lt_of_le (show 2 * 6 + 1 < 2 * 8 by decide) (Nat.le_add_right ..)⟩
  | doneTest =>
    rcases h with ⟨hheld, -⟩ | ⟨hheld, -⟩
    · exact hflies hheld.flight
    · have hidle : ch.busy = 0 := hheld.marked
      have hrun : runStep S .valid p c ⟨ch, kBuffer, o, .doneTest⟩ =
          some ⟨ch, kBuffer, o, .checkStatus⟩ := by
        simp [runStep, hidle]
      exact ⟨_, .runs hrun, Nat.add_lt_add_right (show 2 * 5 < 2 * 6 by decide) _⟩
  | doneWait =>
    rcases h with ⟨hheld, -⟩ | ⟨hheld, -⟩
    · exact hflies hheld.flight
    · have hrun : runStep S .valid p c ⟨ch, kBuffer, o, .doneWait⟩ =
          some ⟨ch, kBuffer, o, .doneTest⟩ := if_pos hheld.marked
      exact ⟨_, .runs hrun, Nat.add_lt_add_right (show 2 * 6 < 2 * 7 by decide) _⟩
  | ret ret user advance => exact absurd ⟨ret, user, advance, rfl⟩ hret
  | _ => exact absurd rfl hpc

end IldDrivers.ExampleVII
