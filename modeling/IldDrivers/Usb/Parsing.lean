import IldDrivers.Lib.Truncation
import IldDrivers.Usb.OpenCount
import IldDrivers.Usb.RoundTrip
import Mathlib.Data.List.GetD

/-!
# The commands of the user (`example-VII-04`, `example-VII-05`)

`example_write` stores a NUL over the last byte of the user before it gives the string to `sscanf`, in
a buffer that has no room for another.

* `sscanfOf`: `sscanf` with its format, in any of the usual implementations;
* `Loaded`, `written_step`: what is in the transfer buffer when a URB is submitted;
* `sends_whole_iff`: when the string is treated as a whole.
-/

namespace IldDrivers.ExampleVII

variable {Pid : Type*}

/-! ### The numbers -/

/-- `sscanf` with the format of `example_write`. -/
def sscanfOf (st : ScanStyle) (text : List UInt8) : Option (Fin 8 → ℤ) :=
  (st.scanMany 8 text).map fun q i => cInt (q.1.getD i 0)

theorem sscanfOf_standard : sscanfOf .standard = sscanf := by
  funext text
  rw [sscanf, ← ScanStyle.standard_scanMany, Option.map_map, sscanfOf]
  rfl

/-- The bytes that are sent. -/
def lowBytes (o : Fin 8 → ℤ) : List UInt8 := List.ofFn fun i => lowByte (o i)

theorem names_lowBytes (o : Fin 8 → ℤ) : Names (lowBytes o) o := by
  intro i
  rw [lowBytes, List.getElem?_ofFn, dif_pos i.isLt]

theorem lowBytes_eq_iff {o o' : Fin 8 → ℤ} :
    lowBytes o = lowBytes o' ↔ ∀ i, lowByte (o i) = lowByte (o' i) := by
  rw [lowBytes, lowBytes, List.ofFn_inj, funext_iff]

theorem lowByte_eq_iff {x y : ℤ} : lowByte x = lowByte y ↔ x % 256 = y % 256 := by
  unfold lowByte
  rw [← UInt8.toNat_inj, UInt8.toNat_ofNat', UInt8.toNat_ofNat']
  omega

theorem lowByte_cInt (x : ℤ) : lowByte (cInt x) = lowByte x := by
  rw [lowByte_eq_iff, cInt_eq]
  split_ifs <;> omega

/-- The last digit does not count: it is not the only one, and without it the number is the same
modulo 256. -/
def Harmless (digits : List UInt8) : Prop :=
  digits.dropLast ≠ [] ∧ digitsVal digits % 256 = digitsVal digits.dropLast % 256

/-- The string is not empty; and it contains a NUL, or it has fewer than eight numbers, or something
follows the eighth, or the last digit of the eighth does not count. -/
def ParsesWhole (st : ScanStyle) (data : List UInt8) : Prop :=
  data ≠ [] ∧ (0 ∈ data ∨ ∀ digits, st.lastDigits 7 data = some digits → Harmless digits)

/-- The numbers without the last byte of the text. -/
theorem lowBytes_truncated (st : ScanStyle) (text : List UInt8) (b : UInt8) :
    (sscanfOf st text).map lowBytes = (sscanfOf st (text ++ [b])).map lowBytes ↔
      ∀ digits, st.lastDigits 7 (text ++ [b]) = some digits → Harmless digits := by
  cases st.truncated 7 text b with
  | none hlast h h' =>
    refine iff_of_true ?_ fun digits hdigits => ?_
    · rw [sscanfOf, sscanfOf, h, h']
    · rw [hlast] at hdigits
      cases hdigits
  | same xs rest rest' hlast h h' =>
    refine iff_of_true ?_ fun digits hdigits => ?_
    · rw [sscanfOf, sscanfOf, h, h']
      rfl
    · rw [hlast] at hdigits
      cases hdigits
  | digit xs s front hs hlength hlast h h' =>
    rw [hlast]
    have hforall : (∀ digits, some (front ++ [b]) = some digits → Harmless digits) ↔
        Harmless (front ++ [b]) :=
      ⟨fun h => h _ rfl, fun h digits heq => Option.some.inj heq ▸ h⟩
    rw [hforall, Harmless, List.dropLast_concat, sscanfOf, sscanfOf, h, h']
    by_cases hfront : front = []
    · rw [if_pos hfront]
      exact iff_of_false nofun fun hharmless => hharmless.1 hfront
    · rw [if_neg hfront, Option.map_some, Option.map_some, Option.map_some, Option.map_some,
        Option.some.injEq, lowBytes_eq_iff, and_iff_right hfront]
      -- only the eighth can differ
      have hlast : ∀ y : ℤ, (xs ++ [y]).getD (7 : Fin 8) 0 = y := fun y => by
        rw [List.getD_append_right _ _ _ _ (by rw [hlength]; decide), hlength]
        rfl
      have hothers : ∀ (y : ℤ) (i : Fin 8), i ≠ 7 → (xs ++ [y]).getD i 0 = xs.getD i 0 :=
        fun y i hi => List.getD_append _ _ _ _ (by rw [hlength]; omega)
      constructor
      · intro hall
        have heighth := hall 7
        rw [hlast, hlast, lowByte_cInt, lowByte_cInt, lowByte_eq_iff] at heighth
        rcases hs with rfl | rfl <;> omega
      · intro heq i
        by_cases hi : i = 7
        · rw [hi, hlast, hlast, lowByte_cInt, lowByte_cInt, lowByte_eq_iff]
          rcases hs with rfl | rfl <;> omega
        · rw [hothers _ i hi, hothers _ i hi]

/-! ### What the code reads -/

/-- Nothing can be stored at the end of an empty string. -/
theorem prepare_nil (S : Setup) {a : WriteArgs} (hheap : a.heap.isSome) (hdata : a.data = []) :
    prepare S a = none := by
  obtain ⟨heap, hheap⟩ := Option.isSome_iff_exists.1 hheap
  unfold prepare
  rw [hheap]
  dsimp only
  rw [hdata, if_neg (by simp [copyFromUser])]
  exact if_pos rfl

/-- What `sscanf` would read from the whole string. -/
def wholeNumbers (st : ScanStyle) (data : List UInt8) : Option (Fin 8 → ℤ) :=
  sscanfOf st (cstring (data ++ [0]))

/-- The string without its last byte is as good as the whole. -/
theorem lowBytes_whole_iff (st : ScanStyle) (text : List UInt8) (b : UInt8) :
    (sscanfOf st (cstring (text ++ [0]))).map lowBytes =
        (wholeNumbers st (text ++ [b])).map lowBytes ↔ ParsesWhole st (text ++ [b]) := by
  unfold wholeNumbers ParsesWhole
  rw [and_iff_right (by simp)]
  by_cases hmem : 0 ∈ text
  · -- what follows the first NUL is not read
    refine iff_of_true ?_ (.inl (List.mem_append_left _ hmem))
    rw [cstring_append_of_mem hmem, cstring_append_of_mem (List.mem_append_left _ hmem),
      cstring_append_of_mem hmem]
  · have hfree : NulFree text := fun c hc heq => hmem (heq ▸ hc)
    rw [cstring_append_nul hfree]
    by_cases hb : b = 0
    · subst hb
      refine iff_of_true ?_ (.inl (by simp))
      rw [List.append_assoc, List.singleton_append, cstring_append_nul hfree]
    · have hnone : 0 ∉ text ++ [b] := by simp [hmem, Ne.symm hb]
      rw [cstring_append_nul (show NulFree (text ++ [b]) from fun c hc heq => hnone (heq ▸ hc)),
        or_iff_right hnone]
      exact lowBytes_truncated st text b

/-! ### What is sent -/

/-- What a write has prepared and stored at each of its statements. -/
def Loaded (S : Setup) (a : WriteArgs) (o : Fin 8 → ℤ) (bytes : Memory UInt8) : Pc → Prop
  | .lock | .testDevice | .busyTest | .busyWait | .setBusy => prepare S a = some (.ok o)
  | .store i => prepare S a = some (.ok o) ∧ bytes.load 0 i = (lowBytes o).take i
  | .fill | .submit => prepare S a = some (.ok o) ∧ bytes.load 0 8 = lowBytes o
  | _ => True

theorem loaded_runStep {S : Setup} {device : Ptr} {p : Pid} {a : WriteArgs} {f f' : Frame Pid}
    (h : Loaded S a f.o f.ch.bytes f.pc) (hrun : runStep S device p (.write a) f = some f') :
    Loaded S a f'.o f'.ch.bytes f'.pc := by
  obtain ⟨ch, kBuffer, o, pc⟩ := f
  cases ran_of_runStep hrun with
  | prepares a' o' hc _ hprepare hf' =>
    cases hc
    subst hf'
    exact hprepare
  | begins _ hc | continues _ hc | measures _ hc | copies _ _ hc => cases hc
  | locks hpc _ hf' | hasDevice hpc _ hf' | waitsBusy hpc _ hf' | passes hpc _ hf'
  | wakesBusy hpc _ hf' | fills hpc hf' =>
    cases hpc
    subst hf'
    exact h
  | marks hpc hf' =>
    cases hpc
    subst hf'
    exact ⟨h, rfl⟩
  | stores i hpc hf' =>
    cases hpc
    subst hf'
    obtain ⟨hprepare, hbytes⟩ := h
    have hbytes' := load_store_byte (names_lowBytes o) hbytes
    dsimp only
    split_ifs with hi
    · subst hi
      exact ⟨hprepare, hbytes'.trans (List.take_of_length_le (by simp [lowBytes]))⟩
    · have hnext : ((i + 1 : Fin 8) : ℕ) = i + 1 := by omega
      refine ⟨hprepare, ?_⟩
      rw [hnext]
      exact hbytes'
  | refuses _ _ _ _ _ hf' | noDevice _ _ hf' | unlocksNoDev _ hf' | waitsDone _ _ hf'
  | done _ _ hf' | wakesDone _ _ hf' | fails _ _ hf' | succeeds _ _ hf' | clears _ _ _ hf'
  | formats _ hf' | unlocks _ _ hf' | unlocksText _ hf' =>
    subst hf'
    trivial

theorem loaded_callStep {S : Setup} {device : Ptr} {p : Pid} {a : WriteArgs} {f f' : Frame Pid}
    {e : Event} (h : Loaded S a f.o f.ch.bytes f.pc)
    (hstep : callStep S device p (.write a) f e = some f') : Loaded S a f'.o f'.ch.bytes f'.pc := by
  by_cases he : e = .run
  · subst he
    exact loaded_runStep h hstep
  · obtain ⟨ch, kBuffer, o, pc⟩ := f
    cases waited_of_callStep hstep he with
    | timesBusy hpc hf' =>
      cases hpc
      subst hf'
      exact h
    | refused _ _ hf' | submits _ _ hf' | leavesLock _ hf' | leavesBusy _ hf' | leavesDone _ hf'
    | timesDone _ hf' =>
      subst hf'
      trivial

/-- A statement changes no byte of a buffer, unless it stores one. -/
theorem Statement.bytes {device : Ptr} {p : Pid} {e : Event} {f f' : Frame Pid}
    (h : Statement device p e f f') : f'.ch.bytes = f.ch.bytes ∨ ∃ i, f.pc = .store i := by
  cases h with
  | stores i hpc => exact .inr ⟨i, hpc⟩
  | outside _ _ hch | locks _ _ _ hch | unlocks _ _ hch | goes _ _ hch | marks _ _ hch
  | submits _ _ _ _ hch | clears _ _ _ _ _ hch => exact .inl (by rw [hch])

theorem bytes_update {chan : Direction → Channel Pid} {d : Direction} {ch : Channel Pid}
    (h : ch.bytes = (chan d).bytes) (d' : Direction) :
    (Function.update chan d ch d').bytes = (chan d').bytes := by
  by_cases hd : d' = d
  · rw [hd, Function.update_self, h]
  · rw [Function.update_of_ne hd]

/-- `example_disconnect` does not change the contents of a buffer. -/
theorem bytes_of_unplugStep {s t : State Pid} {stmt : UnplugStmt} (h : unplugStep s stmt = some t)
    (d : Direction) : (t.chan d).bytes = (s.chan d).bytes := by
  cases stmt with
  | kfree d' | freeUrb d' =>
    obtain ⟨ptr, -, rfl⟩ := Option.map_eq_some_iff.1 h
    refine bytes_update ?_ d
    rfl
  | lock d' =>
    simp only [unplugStep, Option.ite_none_right_eq_some, Option.some.injEq] at h
    obtain ⟨-, rfl⟩ := h
    refine bytes_update ?_ d
    rfl
  | clearBuffer d' | clearUrb d' | clearEndpoint d' | unlock d' =>
    cases h
    refine bytes_update ?_ d
    rfl
  | deregister | clearDevice =>
    cases h
    rfl

theorem bytes_of_releaseStatement [DecidableEq Pid] {s s' : State Pid} {p : Pid} {pc : ReleasePc}
    (h : ReleaseStatement s p pc s') (d : Direction) : (s'.chan d).bytes = (s.chan d).bytes := by
  cases h with
  | givesUp _ hs' | locks _ _ _ _ hs' | looks _ _ _ _ hs' | decrements _ hs' | unlocks _ hs' =>
    rw [hs']
  | kills ch _ _ hch hs' =>
    rw [hs']
    refine bytes_update ?_ d
    rcases hch with ⟨rfl, -⟩ | rfl <;> rfl
  | clears _ hs' =>
    rw [hs']
    refine bytes_update ?_ d
    rfl

section Steps

variable [DecidableEq Pid] {S : Setup} {s s' : State Pid} {act : Act Pid} {out : List (Output Pid)}

/-- A step of a process inside `example_release`. -/
theorem releaseStatement_of_step {p : Pid} {e : Event} {pc : ReleasePc}
    (hp : s.proc p = .release pc) (hstep : step S s (.proc p e) = some (s', out)) :
    ReleaseStatement s p pc s' ∨ s' = s.setProc p .user := by
  cases fired_of_step hstep with
  | calls _ _ _ _ _ _ hp' => cases hp'.symm.trans hp
  | returns _ _ _ _ _ _ hp' => cases hp'.symm.trans hp
  | releases _ _ _ _ hp' hst =>
    cases hp'.symm.trans hp
    exact .inl hst
  | released => exact .inr rfl

/-- `k_buffer` and the output buffer are touched by the statements of the calls only. -/
theorem keeps_or_calls (hstep : step S s act = some (s', out)) :
    (s'.kBuffer = s.kBuffer ∧ (s'.chan .output).bytes = (s.chan .output).bytes) ∨
      ∃ p e c o pc f, act = .proc p e ∧ s.proc p = .call c o pc ∧ s' = s.setFrame p c f ∧
        callStep S s.device p c ⟨s.chan c.dir, s.kBuffer, o, pc⟩ e = some f := by
  cases fired_of_step hstep with
  | refuses | opens | starts | startsRelease | returns | released => exact .inl ⟨rfl, rfl⟩
  | calls p c o pc e f hp hcall => exact .inr ⟨p, e, c, o, pc, f, rfl, hp, rfl, hcall⟩
  | releases p pc e t hp hst =>
    refine .inl ⟨?_, bytes_of_releaseStatement hst _⟩
    cases hst with
    | givesUp _ hs' | locks _ _ _ _ hs' | looks _ _ _ _ hs' | kills _ _ _ _ hs' | clears _ hs'
    | decrements _ hs' | unlocks _ hs' => rw [hs']
  | completes d status data bytes hbytes =>
    left
    subst hbytes
    cases d with
    | output => exact ⟨rfl, rfl⟩
    | input => exact ⟨rfl, rfl⟩
  | unplugs stmt rest t hplan hstmt =>
    refine .inl ⟨?_, bytes_of_unplugStep hstmt _⟩
    cases unplugStatement_of_unplugStep hstmt with
    | deregisters _ ht | clearsDevice _ ht | locks _ _ _ ht | unlocks _ _ ht
    | touches _ _ _ _ _ _ ht => rw [ht]

/-- The bytes of the output buffer change only where a call stores one. -/
theorem outBytes_of_step (hstep : step S s act = some (s', out)) :
    (s'.chan .output).bytes = (s.chan .output).bytes ∨
      ∃ p e c o i, act = .proc p e ∧ s.proc p = .call c o (.store i) ∧ c.dir = .output := by
  rcases keeps_or_calls hstep with ⟨-, hsame⟩ | ⟨p, e, c, o, pc, f, rfl, hp, rfl, hcall⟩
  · exact .inl hsame
  · by_cases hdir : c.dir = .output
    · rcases (statement_of_callStep hcall).bytes with hbytes | ⟨i, hpc⟩
      · left
        refine bytes_update ?_ _
        exact hbytes
      · exact .inr ⟨p, e, c, o, i, rfl, by rw [hp, show pc = .store i from hpc], hdir⟩
    · exact .inl (by rw [chan_setFrame_of_ne (Ne.symm hdir)])

/-- A process that is not inside the driver enters a call at its first statement. -/
theorem enter_of_step {p : Pid} {c : Call} {o : Fin 8 → ℤ} {pc : Pc} (hp : s.proc p = .user)
    (hp' : s'.proc p = .call c o pc) (hstep : step S s act = some (s', out)) :
    act = .start p c ∧ pc = .enter := by
  by_cases hmoves : act.moves = some p
  · cases act with
    | start q c' =>
      obtain rfl := Option.some.inj hmoves
      simp only [step, hp, Option.ite_none_right_eq_some, Option.some.injEq, Prod.mk.injEq] at hstep
      obtain ⟨-, rfl, -⟩ := hstep
      rw [setProc_self] at hp'
      cases hp'
      exact ⟨rfl, rfl⟩
    | startRelease q =>
      obtain rfl := Option.some.inj hmoves
      simp only [step, hp, Option.ite_none_right_eq_some, Option.some.injEq, Prod.mk.injEq] at hstep
      obtain ⟨-, rfl, -⟩ := hstep
      rw [setProc_self] at hp'
      cases hp'
    | proc q e =>
      obtain rfl := Option.some.inj hmoves
      simp only [step, hp, reduceCtorEq] at hstep
    | openFile | complete | unplug => cases hmoves
  · rw [proc_of_moves hmoves hstep, hp] at hp'
    cases hp'

/-- **Where a call comes from**: it has begun, one of its events has moved it on, or it was there
before. -/
theorem call_of_step {p : Pid} {c : Call} {o : Fin 8 → ℤ} {pc : Pc} (hp' : s'.proc p = .call c o pc)
    (hstep : step S s act = some (s', out)) :
    (act = .start p c ∧ pc = .enter) ∨
    (∃ e o₀ pc₀ f, act = .proc p e ∧ s.proc p = .call c o₀ pc₀ ∧ s' = s.setFrame p c f ∧ f.pc = pc ∧
      callStep S s.device p c ⟨s.chan c.dir, s.kBuffer, o₀, pc₀⟩ e = some f) ∨
    ((∀ e, act ≠ .proc p e) ∧ s.proc p = .call c o pc) := by
  by_cases huser : s.proc p = .user
  · exact .inl (enter_of_step huser hp' hstep)
  by_cases hact : ∃ e, act = .proc p e
  · obtain ⟨e, rfl⟩ := hact
    cases hp : s.proc p with
    | user => exact absurd hp huser
    | call c₀ o₀ pc₀ =>
      rcases callStep_of_step hp hstep with ⟨f, hcall, rfl, -⟩ | ⟨ret, user, advance, -, hleave⟩
      · rw [proc_setFrame] at hp'
        cases hp'
        exact .inr (.inl ⟨e, o₀, pc₀, f, rfl, rfl, rfl, rfl, hcall⟩)
      · rw [(Prod.mk.inj hleave).1] at hp'
        simp at hp'
    | release pc₀ =>
      rcases releaseStatement_of_step hp hstep with hst | rfl
      · obtain ⟨pc₁, hproc⟩ := hst.proc
        rw [hproc, Function.update_self] at hp'
        cases hp'
      · rw [setProc_self] at hp'
        cases hp'
  · have hstays : ∀ e, act ≠ .proc p e := fun e heq => hact ⟨e, heq⟩
    rw [proc_of_step hstays huser hstep] at hp'
    exact .inr (.inr ⟨hstays, hp'⟩)

/-- What the writes have prepared and stored. -/
def Written (S : Setup) (s : State Pid) : Prop :=
  ∀ p a o pc, s.proc p = .call (.write a) o pc → Loaded S a o (s.chan .output).bytes pc

theorem written_step (hwritten : Written S s) (hlocked : Locked s)
    (hstep : step S s act = some (s', out)) : Written S s' := by
  intro p a o pc hp'
  rcases call_of_step hp' hstep with ⟨-, rfl⟩ | ⟨e, o₀, pc₀, f, rfl, hp, rfl, rfl, hcall⟩ | ⟨hact, hp⟩
  · trivial
  · have ho : f.o = o := by
      rw [proc_setFrame] at hp'
      cases hp'
      rfl
    rw [show (s.setFrame p (.write a) f).chan .output = f.ch from chan_setFrame s p (.write a) f, ← ho]
    exact loaded_callStep (hwritten p a o₀ pc₀ hp) hcall
  · have hold := hwritten p a o pc hp
    rcases outBytes_of_step hstep with hbytes | ⟨q, e, c, o', i, rfl, hq, hdir⟩
    · rw [hbytes]
      exact hold
    · -- `q` has the mutex, so `p` does not
      have hholds : pc.holds = false := by
        by_contra hpc
        have hsame := hlocked.unique hq rfl hp (by simpa using hpc) (by rw [hdir]; rfl)
        exact hact e (by rw [hsame])
      cases pc with
      | enter | measure | copyOut | ret => trivial
      | lock => exact hold
      | _ => cases hholds

/-! ### A write that submits -/

theorem step_start_write {p : Pid} (hp : s.proc p = .user) (hopened : 0 < s.opened) (a : WriteArgs) :
    step S s (.start p (.write a)) =
      some ({ s with inside := insert p s.inside }.setFrame p (.write a) (s.begins (.write a)), []) := by
  have hchan : Function.update s.chan .output (s.chan .output) = s.chan := Function.update_eq_self ..
  simp only [step, hp, hopened, State.setFrame, State.begins, Call.dir, hchan]
  exact if_pos ⟨trivial, fun h => by cases h⟩

/-- A write that goes on comes to its submission. -/
theorem exec_to_submit {report : List UInt8} {p : Pid} {c : Call} (hsize : report.length = 8)
    (hsuits : c.Suits S report) (hdevice : s.device = .valid) (hdir : c.dir = .output) {f : Frame Pid}
    (hstage : Stage report p c f) (hfar : 8 ≤ f.pc.left) :
    ∃ acts f', (system S Pid).exec (s.setFrame p c f) acts = some (s.setFrame p c f', []) ∧
      f'.pc = .submit := by
  induction hn : f.pc.left using Nat.strong_induction_on generalizing f with
  | _ n ih =>
    subst hn
    by_cases hpc : f.pc = .submit
    · exact ⟨[], f, rfl, hpc⟩
    · obtain ⟨hruns, -, hahead'⟩ := Pc.before_submit hfar hpc
      obtain ⟨f₁, hrun, hlt, hahead⟩ := hstage.runs hsuits hruns
      have hstep : step S (s.setFrame p c f) (.proc p .run) = some (s.setFrame p c f₁, []) :=
        step_of_callStep (by rw [hdevice]; exact hrun)
      obtain ⟨acts, f', hexec, hpc'⟩ :=
        ih f₁.pc.left hlt (hstage.run hsize hsuits hrun) (hahead hdir hahead') rfl
      exact ⟨.proc p .run :: acts, f', System.exec_cons.2 ⟨_, _, _, hstep, hexec, rfl⟩, hpc'⟩

end Steps

/-! ### Every run -/

section Runs

variable [DecidableEq Pid]

/-- **A write treats its string as a whole**, wherever it is in a run: its first statement can be
executed, so nothing is stored outside the buffer, and leads to `-EINVAL` if the string has fewer than
eight numbers and to the mutex otherwise; when it submits its URB, the low bytes of the eight numbers
are in the transfer buffer. -/
def SendsWhole (v : Version) (abi : Abi) (st : ScanStyle) (Pid : Type*) [DecidableEq Pid]
    (a : WriteArgs) : Prop :=
  ∀ (heap : Direction → Memory UInt8) (acts : List (Act Pid)) (s : State Pid)
    (log : List (Output Pid)) (p : Pid) (o : Fin 8 → ℤ) (pc : Pc),
    (system ⟨v, abi, sscanfOf st⟩ Pid).exec (init Pid heap (exampleDisconnect v)) acts =
      some (s, log) →
    s.proc p = .call (.write a) o pc →
    (pc = .enter → ∃ s', step ⟨v, abi, sscanfOf st⟩ s (.proc p .run) = some (s', []) ∧
      (s'.proc p).place = some (.output,
        match wholeNumbers st a.data with
        | none => .ret (-eInval) [] 0
        | some _ => .lock)) ∧
    (pc = .submit → ∃ o', wholeNumbers st a.data = some o' ∧
      (s.chan .output).bytes.load 0 8 = lowBytes o')

theorem written_exec {S : Setup} {heap : Direction → Memory UInt8} {acts : List (Act Pid)}
    {s : State Pid} {log : List (Output Pid)}
    (hrun : (system S Pid).exec (init Pid heap (exampleDisconnect S.version)) acts = some (s, log)) :
    Written S s := by
  have hhub : ∀ d, hubHolds (exampleDisconnect S.version) d = false := by
    intro d
    cases S.version <;> cases d <;> rfl
  refine (System.exec_induction (I := fun s _ => Written S s ∧ Locked s) ?_
    ⟨(fun p a o pc h => by cases h), locked_init heap (disciplined_exampleDisconnect _) hhub⟩ hrun).1
  rintro s log act s' out ⟨hwritten, hlocked⟩ hstep
  exact ⟨written_step hwritten hlocked hstep, locked_step hlocked hstep⟩

/-- Where the first statement of a write leads. -/
def entered : Except ℤ (Fin 8 → ℤ) → Pc
  | .error err => .ret err [] 0
  | .ok _ => .lock

theorem step_enter {S : Setup} {s : State Pid} {p : Pid} {a : WriteArgs} {o : Fin 8 → ℤ}
    (hp : s.proc p = .call (.write a) o .enter) {r : Except ℤ (Fin 8 → ℤ)}
    (hprepare : prepare S a = some r) :
    ∃ s', step S s (.proc p .run) = some (s', []) ∧
      (s'.proc p).place = some (.output, entered r) := by
  have hstep : ∀ f, (prepare S a).map (fun r => match r with
        | .error err => Frame.goto ⟨s.chan .output, s.kBuffer, o, .enter⟩ (.ret err [] 0)
        | .ok o => ⟨s.chan .output, s.kBuffer, o, .lock⟩) = some f →
      step S s (.proc p .run) = some (s.setFrame p (.write a) f, []) := by
    intro f hf
    refine step_proc hp ?_
    exact Option.map_eq_some_iff.2 ⟨f, hf, rfl⟩
  rw [hprepare] at hstep
  refine ⟨_, hstep _ rfl, ?_⟩
  rw [proc_setFrame]
  cases r <;> rfl

/-- It can be executed only when `prepare` comes to an end. -/
theorem prepare_of_step {S : Setup} {s s' : State Pid} {p : Pid} {a : WriteArgs} {o : Fin 8 → ℤ}
    (hp : s.proc p = .call (.write a) o .enter) {out : List (Output Pid)}
    (hstep : step S s (.proc p .run) = some (s', out)) : ∃ r, prepare S a = some r := by
  rcases callStep_of_step hp hstep with ⟨f, hcall, -⟩ | ⟨ret, user, advance, hpc, -⟩
  · obtain ⟨r, hr, -⟩ := Option.map_eq_some_iff.1 hcall
    exact ⟨r, hr⟩
  · cases hpc

/-- After a process has opened the device. -/
def openedState (heap : Direction → Memory UInt8) (unplug : List UnplugStmt) : State Pid :=
  { init Pid heap unplug with openCount := 1, opened := 1 }

/-- A process opens the device and begins to write. -/
theorem exec_enter (S : Setup) (heap : Direction → Memory UInt8) (unplug : List UnplugStmt) (p : Pid)
    (a : WriteArgs) :
    (system S Pid).exec (init Pid heap unplug) [.openFile p false, .start p (.write a)] =
      some ({ openedState heap unplug with inside := insert p ∅ }.setFrame p (.write a)
        ((openedState heap unplug).begins (.write a)), [.returned p 0 [] 0]) := by
  have hopen : step S (init Pid heap unplug) (.openFile p false) =
      some (openedState heap unplug, [.returned p 0 [] 0]) := by
    obtain ⟨v, abi, sscanf⟩ := S
    cases v <;> rfl
  have hstart : step S (openedState heap unplug) (.start p (.write a)) = _ :=
    step_start_write rfl Nat.one_pos a
  exact System.exec_cons.2 ⟨_, _, _, hopen, System.exec_cons.2 ⟨_, _, _, hstart, rfl, rfl⟩, rfl⟩

theorem exists_enter (S : Setup) (heap : Direction → Memory UInt8) (unplug : List UnplugStmt)
    (p : Pid) (a : WriteArgs) :
    ∃ acts s log, (system S Pid).exec (init Pid heap unplug) acts = some (s, log) ∧
      s.proc p = .call (.write a) (fun _ => 0) .enter :=
  ⟨_, _, _, exec_enter S heap unplug p a, by rw [proc_setFrame]; rfl⟩

/-- When its numbers have been read, the write can come to its submission. -/
theorem exists_submit {S : Setup} (heap : Direction → Memory UInt8) (unplug : List UnplugStmt)
    (p : Pid) {a : WriteArgs} {o : Fin 8 → ℤ} (hprepare : prepare S a = some (.ok o)) :
    ∃ acts s log o', (system S Pid).exec (init Pid heap unplug) acts = some (s, log) ∧
      s.proc p = .call (.write a) o' .submit := by
  obtain ⟨acts, f, hrun, hpc⟩ := exec_to_submit (S := S) (p := p) (c := .write a)
    (s := { openedState heap unplug with inside := insert p ∅ })
    (f := (openedState heap unplug).begins (.write a))
    (show (lowBytes o).length = 8 by simp [lowBytes]) ⟨o, hprepare, names_lowBytes o⟩ rfl rfl
    ⟨⟨rfl, rfl, rfl, rfl, rfl, rfl⟩, nofun⟩ (show 8 ≤ 22 by decide)
  refine ⟨_, _, _, f.o, System.exec_append (exec_enter S heap unplug p a) hrun, ?_⟩
  rw [proc_setFrame, hpc]

section Code

variable {v : Version} {abi : Abi} {st : ScanStyle} {a : WriteArgs} {code : Option (Fin 8 → ℤ)}

/-- If the write treats its string as a whole, it sends what the whole string says. -/
theorem SendsWhole.numbers_eq [Nonempty Pid] (hsends : SendsWhole v abi st Pid a)
    (hprepare : prepare ⟨v, abi, sscanfOf st⟩ a = some (match code with
      | none => .error (-eInval)
      | some o => .ok o)) :
    (wholeNumbers st a.data).map lowBytes = code.map lowBytes := by
  obtain ⟨p⟩ := ‹Nonempty Pid›
  cases code with
  | none =>
    -- the first statement returns `-EINVAL`
    obtain ⟨acts, s, log, hexec, hp⟩ :=
      exists_enter ⟨v, abi, sscanfOf st⟩ (fun _ _ => 0) (exampleDisconnect v) p a
    obtain ⟨s', hstep, hplace⟩ := (hsends _ _ _ _ p _ _ hexec hp).1 rfl
    obtain ⟨s'', hstep', hplace'⟩ := step_enter hp hprepare
    rw [hstep] at hstep'
    cases hstep'
    rw [hplace] at hplace'
    cases hnumbers : wholeNumbers st a.data with
    | none => rfl
    | some o' => simp [hnumbers, entered] at hplace'
  | some o =>
    obtain ⟨acts, s, log, o₁, hexec, hp⟩ :=
      exists_submit (fun _ _ => 0) (exampleDisconnect v) p hprepare
    obtain ⟨o', hnumbers, hbytes⟩ := (hsends _ _ _ _ p _ _ hexec hp).2 rfl
    obtain ⟨hok, hbytes'⟩ := written_exec (S := ⟨v, abi, sscanfOf st⟩) hexec p a _ _ hp
    rw [hprepare] at hok
    cases hok
    rw [hnumbers, Option.map_some, Option.map_some, ← hbytes, ← hbytes']

theorem sendsWhole_of_numbers_eq
    (hprepare : prepare ⟨v, abi, sscanfOf st⟩ a = some (match code with
      | none => .error (-eInval)
      | some o => .ok o))
    (hsame : (wholeNumbers st a.data).map lowBytes = code.map lowBytes) :
    SendsWhole v abi st Pid a := by
  intro heap acts s log q o pc hrun hq
  constructor
  · rintro rfl
    obtain ⟨s', hstep, hplace⟩ := step_enter hq hprepare
    refine ⟨s', hstep, hplace.trans ?_⟩
    cases code with
    | none =>
      rw [Option.map_eq_none_iff.1 hsame]
      rfl
    | some o' =>
      obtain ⟨o'', hnumbers, -⟩ := Option.map_eq_some_iff.1 hsame
      rw [hnumbers]
      rfl
  · rintro rfl
    obtain ⟨hok, hbytes⟩ := written_exec (S := ⟨v, abi, sscanfOf st⟩) hrun q a o _ hq
    rw [hok] at hprepare
    cases code with
    | none => cases hprepare
    | some o' =>
      cases hprepare
      obtain ⟨o'', hnumbers, heq⟩ := Option.map_eq_some_iff.1 hsame
      exact ⟨o'', hnumbers, hbytes.trans heq.symm⟩

end Code

/-- **Which strings a write treats as a whole**, when they have been copied: those for which the byte
that it overwrites does not count. -/
theorem sends_whole_iff [Nonempty Pid] (v : Version) (abi : Abi) (st : ScanStyle) {a : WriteArgs}
    (hheap : a.heap.isSome) (hcopied : a.data.length ≤ a.copied) :
    SendsWhole v abi st Pid a ↔ ParsesWhole st a.data := by
  obtain ⟨heap, hheap'⟩ := Option.isSome_iff_exists.1 hheap
  rcases List.eq_nil_or_concat a.data with hnil | ⟨text, b, hdata⟩
  · -- the first statement of such a write cannot be executed
    refine iff_of_false (fun hsends => ?_) fun hwhole => hwhole.1 hnil
    obtain ⟨p⟩ := ‹Nonempty Pid›
    obtain ⟨acts, s, log, hexec, hp⟩ :=
      exists_enter ⟨v, abi, sscanfOf st⟩ (fun _ _ => 0) (exampleDisconnect v) p a
    obtain ⟨s', hstep, -⟩ := (hsends _ _ _ _ p _ _ hexec hp).1 rfl
    obtain ⟨r, hr⟩ := prepare_of_step hp hstep
    rw [prepare_nil _ hheap hnil] at hr
    cases hr
  · rw [List.concat_eq_append] at hdata
    have hprepare := prepare_concat ⟨v, abi, sscanfOf st⟩ hheap' hcopied hdata
    rw [hdata, ← lowBytes_whole_iff, ← hdata]
    exact ⟨fun hsends => (hsends.numbers_eq hprepare).symm,
      fun hsame => sendsWhole_of_numbers_eq hprepare hsame.symm⟩

end Runs

/-- `1 2 3 4 5 6 7 8`. -/
def oneToEight : List UInt8 := [49, 32, 50, 32, 51, 32, 52, 32, 53, 32, 54, 32, 55, 32, 56]

/-- With the newline of `echo`. -/
theorem sends_whole_iff_newline :
    SendsWhole .vii05 .lp64 .standard ℕ ⟨oneToEight ++ [10], some fun _ => 0, 16⟩ := by
  refine (sends_whole_iff .vii05 .lp64 .standard rfl (by decide)).2 ⟨by decide, .inr ?_⟩
  intro digits hdigits
  have hnone : ScanStyle.standard.lastDigits 7 (oneToEight ++ [10]) = none := by decide +kernel
  rw [hnone] at hdigits
  cases hdigits

/-- Without it the eighth number is lost, and the write returns `-EINVAL`; the NUL of an empty string
is stored outside the buffer. -/
theorem last_byte_lost :
    (wholeNumbers .standard oneToEight).isSome ∧
      ¬ SendsWhole .vii05 .lp64 .standard ℕ ⟨oneToEight, some fun _ => 0, 15⟩ ∧
      ¬ SendsWhole .vii05 .lp64 .standard ℕ ⟨[], some fun _ => 0, 0⟩ := by
  have hsome : (wholeNumbers .standard oneToEight).isSome = true := by decide +kernel
  refine ⟨hsome, fun hsends => ?_, fun hsends => ?_⟩
  · obtain ⟨acts, s, log, hexec, hp⟩ := exists_enter ⟨.vii05, .lp64, sscanfOf .standard⟩
      (fun _ _ => 0) (exampleDisconnect .vii05) 0 ⟨oneToEight, some fun _ => 0, 15⟩
    have hprepare : prepare ⟨.vii05, .lp64, sscanfOf .standard⟩ ⟨oneToEight, some fun _ => 0, 15⟩ =
        some (.error (-eInval)) := by
      have hconcat := prepare_concat ⟨.vii05, .lp64, sscanfOf .standard⟩
        (a := ⟨oneToEight, some fun _ => 0, 15⟩) rfl (by decide)
        (show oneToEight = [49, 32, 50, 32, 51, 32, 52, 32, 53, 32, 54, 32, 55, 32] ++ [56] from rfl)
      have hnone : sscanfOf .standard
          (cstring ([49, 32, 50, 32, 51, 32, 52, 32, 53, 32, 54, 32, 55, 32] ++ [0])) = none := by
        decide +kernel
      dsimp only at hconcat
      rwa [hnone] at hconcat
    obtain ⟨s', hstep, hplace⟩ := (hsends _ _ _ _ 0 _ _ hexec hp).1 rfl
    obtain ⟨s'', hstep', hplace'⟩ := step_enter hp hprepare
    rw [hstep] at hstep'
    cases hstep'
    rw [hplace] at hplace'
    obtain ⟨o, ho⟩ := Option.isSome_iff_exists.1 hsome
    simp [ho, entered] at hplace'
  · obtain ⟨acts, s, log, hexec, hp⟩ := exists_enter ⟨.vii05, .lp64, sscanfOf .standard⟩
      (fun _ _ => 0) (exampleDisconnect .vii05) 0 ⟨[], some fun _ => 0, 0⟩
    obtain ⟨s', hstep, -⟩ := (hsends _ _ _ _ 0 _ _ hexec hp).1 rfl
    obtain ⟨r, hr⟩ := prepare_of_step hp hstep
    rw [prepare_nil _ rfl rfl] at hr
    cases hr

end IldDrivers.ExampleVII
