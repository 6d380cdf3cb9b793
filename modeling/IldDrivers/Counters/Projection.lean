import IldDrivers.Counters.Driver

/-!
# Eight counters for one

A run of `tp-IV-04`, looked at through the files of one device, is to be a run of `tp-IV-03`, and no
call is to change anything but the counter and the step of its device.

* `Projects`: this, of a run so far;
* `Confined`: the `ioctl` calls which, by what they copy, leave the memory behind the step as it is;
* `projects_iff_confined`: the runs that project are those whose calls are confined.
-/

namespace IldDrivers.Counters.TpIV04

attribute [local irreducible] cInt

variable {File : Type*} [DecidableEq File]

/-! ### What is expected -/

/-- The counter of a device and its step. -/
def copyOf (u : Layout) (m : Memory UInt8) (i : Fin nbCounters) : TpIV03.State :=
  ⟨loadInt m (u.counterAddr i), loadInt m (u.stepAddr i)⟩

/-- The calls on the files whose `open` has selected `i`. -/
def callsOf (i : Fin nbCounters) (log : List Record) : List Record :=
  log.filter fun r => r.idx = some i

/-- The calls on the files of each device are a run of `tp-IV-03`, which comes to the values of its
counter and its step, and outside the two arrays the memory is as it was. -/
structure Projects (u : Setup) (m₀ : Memory UInt8) (s : State File) (log : List Record) :
    Prop where
  run : ∀ i, (TpIV03.system u.toMachine).exec TpIV03.init ((callsOf i log).map Record.request) =
    some (copyOf u.layout s.mem i, (callsOf i log).map Record.reply)
  outside : ∀ x, ¬ u.layout.Contains x → s.mem x = m₀ x

/-- The `ioctl` does not set the step; or the 28 bytes that it copies behind the step are there
already; or not even the step can be copied, and there are 28 zeros behind it already. -/
def IoctlConfined (m : Memory UInt8) (a : ℤ) (c : IoctlArgs) : Prop :=
  iocType c.cmd ≠ counterIoctlMagic ∨ iocNr c.cmd ≠ setStepCommand ∨
  (32 ≤ c.user.length ∧ (c.user.take 32).drop 4 = m.load (a + 4) 28) ∨
  (c.user.length < 4 ∧ List.replicate 28 0 = m.load (a + 4) 28)

/-- Every `ioctl` is confined. -/
def Confined (u : Setup) (s : State File) : Act File → Prop
  | .call f (.ioctl c) => ∀ i, s.privateData f = some i →
      IoctlConfined s.mem (u.layout.stepAddr i) c
  | _ => True

@[simp] theorem copyOf_counter (u : Layout) (m : Memory UInt8) (i : Fin nbCounters) :
    (copyOf u m i).counter = loadInt m (u.counterAddr i) := rfl

@[simp] theorem copyOf_counterStep (u : Layout) (m : Memory UInt8) (i : Fin nbCounters) :
    (copyOf u m i).counterStep = loadInt m (u.stepAddr i) := rfl

/-! ### Integers in memory -/

theorem cInt_emod (x : ℤ) : cInt (x % 256 ^ 4) = cInt x := by
  rw [cInt_eq, cInt_eq]
  split_ifs <;> omega

theorem loadInt_storeInt (m : Memory UInt8) (a x : ℤ) : loadInt (storeInt m a x) a = cInt x := by
  have hload := Memory.load_store m a (leBytes 4 x)
  rw [leBytes_length] at hload
  rw [loadInt, storeInt, hload, intOfBytes, leVal_leBytes, cInt_emod]

theorem intOfBytes_injective {l l' : List UInt8} (h : l.length = 4) (h' : l'.length = 4)
    (heq : intOfBytes l = intOfBytes l') : l = l' := by
  refine leVal_injective (h.trans h'.symm) ?_
  have hlt := leVal_lt l
  have hlt' := leVal_lt l'
  rw [h] at hlt
  rw [h'] at hlt'
  unfold intOfBytes at heq
  rw [cInt_eq, cInt_eq] at heq
  split_ifs at heq <;> omega

/-- The bytes of an `int` that has not changed have not changed. -/
theorem eq_of_loadInt_eq {m m' : Memory UInt8} {a x : ℤ} (h : loadInt m' a = loadInt m a)
    (hle : a ≤ x) (hlt : x < a + 4) : m' x = m x := by
  have hload := intOfBytes_injective (m'.load_length a 4) (m.load_length a 4) h
  have hcell : (m'.load a 4)[(x - a).toNat]? = (m.load a 4)[(x - a).toNat]? := by rw [hload]
  rw [Memory.load_getElem? _ _ (by omega), Memory.load_getElem? _ _ (by omega),
    show a + ((x - a).toNat : ℤ) = x by omega] at hcell
  exact Option.some.inj hcell

theorem loadInt_congr {m m' : Memory UInt8} {a : ℤ} (h : ∀ x, a ≤ x → x < a + 4 → m' x = m x) :
    loadInt m' a = loadInt m a :=
  congrArg intOfBytes (Memory.load_congr fun i hi => h _ (by omega) (by omega))

/-! ### The arrays -/

section Arrays

variable {u : Layout} {m m' : Memory UInt8} {i j : Fin nbCounters}

theorem index_lt (i : Fin nbCounters) : (i : ℕ) < 8 := i.isLt

theorem index_ne (h : j ≠ i) : (j : ℕ) ≠ i := fun heq => h (Fin.ext heq)

/-- The elements of the arrays do not overlap. -/
theorem counter_apart (u : Layout) (h : j ≠ i) :
    u.counterAddr j + 4 ≤ u.counterAddr i ∨ u.counterAddr i + 4 ≤ u.counterAddr j := by
  have hne := index_ne h
  unfold Layout.counterAddr
  omega

theorem step_apart (u : Layout) (h : j ≠ i) :
    u.stepAddr j + 4 ≤ u.stepAddr i ∨ u.stepAddr i + 4 ≤ u.stepAddr j := by
  have hne := index_ne h
  unfold Layout.stepAddr
  omega

theorem counter_step_apart (u : Layout) (i j : Fin nbCounters) :
    u.counterAddr i + 4 ≤ u.stepAddr j ∨ u.stepAddr j + 4 ≤ u.counterAddr i := by
  have hi := index_lt i
  have hj := index_lt j
  have hdisjoint := u.disjoint
  unfold Layout.counterAddr Layout.stepAddr
  omega

/-- An address in the arrays is in one of the elements. -/
theorem contains_iff {x : ℤ} : u.Contains x ↔
    (∃ j, u.counterAddr j ≤ x ∧ x < u.counterAddr j + 4) ∨
      ∃ j, u.stepAddr j ≤ x ∧ x < u.stepAddr j + 4 := by
  unfold Layout.Contains Layout.counterAddr Layout.stepAddr
  constructor
  · rintro (⟨hle, hlt⟩ | ⟨hle, hlt⟩)
    · refine .inl ⟨⟨((x - u.counter) / 4).toNat, ?_⟩, ?_⟩
      · show _ < 8
        omega
      · simp only
        omega
    · refine .inr ⟨⟨((x - u.counterStep) / 4).toNat, ?_⟩, ?_⟩
      · show _ < 8
        omega
      · simp only
        omega
  · rintro (⟨j, hj⟩ | ⟨j, hj⟩)
    · have hlt := index_lt j
      omega
    · have hlt := index_lt j
      omega

theorem copyOf_congr (hcounter : ∀ x, u.counterAddr j ≤ x → x < u.counterAddr j + 4 → m' x = m x)
    (hstep : ∀ x, u.stepAddr j ≤ x → x < u.stepAddr j + 4 → m' x = m x) :
    copyOf u m' j = copyOf u m j := by
  unfold copyOf
  rw [loadInt_congr hcounter, loadInt_congr hstep]

/-- What a call on the device `i` may do to the memory: the others keep their counters and steps, and
nothing happens outside the arrays. -/
structure Frame (u : Layout) (i : Fin nbCounters) (m m' : Memory UInt8) : Prop where
  others : ∀ j, j ≠ i → copyOf u m' j = copyOf u m j
  outside : ∀ x, ¬ u.Contains x → m' x = m x

theorem Frame.refl : Frame u i m m := ⟨fun _ _ => rfl, fun _ _ => rfl⟩

/-- A write to one element. -/
theorem Frame.of_counter (h : ∀ x, ¬ (u.counterAddr i ≤ x ∧ x < u.counterAddr i + 4) → m' x = m x) :
    Frame u i m m' where
  others j hj := by
    have hcounter := counter_apart u hj
    have hstep := counter_step_apart u i j
    exact copyOf_congr (fun x _ _ => h x (by omega)) fun x _ _ => h x (by omega)
  outside x hx := h x fun hmem => hx (contains_iff.2 (.inl ⟨i, hmem⟩))

theorem Frame.of_step (h : ∀ x, ¬ (u.stepAddr i ≤ x ∧ x < u.stepAddr i + 4) → m' x = m x) :
    Frame u i m m' where
  others j hj := by
    have hstep := step_apart u hj
    have hcounter := counter_step_apart u j i
    exact copyOf_congr (fun x _ _ => h x (by omega)) fun x _ _ => h x (by omega)
  outside x hx := h x fun hmem => hx (contains_iff.2 (.inr ⟨i, hmem⟩))

/-- If the counter of `i` is also kept, everything is but the step of `i`. -/
theorem Frame.eq_of_counter (h : Frame u i m m')
    (hcounter : loadInt m' (u.counterAddr i) = loadInt m (u.counterAddr i)) {x : ℤ}
    (hx : ¬ (u.stepAddr i ≤ x ∧ x < u.stepAddr i + 4)) : m' x = m x := by
  by_cases hin : u.Contains x
  · rcases contains_iff.1 hin with ⟨j, hle, hlt⟩ | ⟨j, hle, hlt⟩
    · by_cases hj : j = i
      · subst hj
        exact eq_of_loadInt_eq hcounter hle hlt
      · have hother := congrArg TpIV03.State.counter (h.others j hj)
        rw [copyOf_counter, copyOf_counter] at hother
        exact eq_of_loadInt_eq hother hle hlt
    · have hj : j ≠ i := fun heq => hx (heq ▸ ⟨hle, hlt⟩)
      have hother := congrArg TpIV03.State.counterStep (h.others j hj)
      rw [copyOf_counterStep, copyOf_counterStep] at hother
      exact eq_of_loadInt_eq hother hle hlt
  · exact h.outside x hin

end Arrays

/-! ### One call -/

/-- The call does to the device `i` what `tp-IV-03` does, and nothing else. -/
structure Agrees (u : Setup) (m : Memory UInt8) (i : Fin nbCounters) (c : Call) : Prop where
  serve_eq : TpIV03.serve u.toMachine (copyOf u.layout m i) (.call c) =
    (copyOf u.layout (serve u m i c).1 i, (serve u m i c).2)
  frame : Frame u.layout i m (serve u m i c).1

variable {u : Setup} {m : Memory UInt8} {i : Fin nbCounters}

theorem storeInt_of_notMem {a x v : ℤ} (h : ¬ (a ≤ x ∧ x < a + 4)) :
    storeInt m a v x = m x :=
  Memory.store_apply_of_notMem (by rw [leBytes_length]; exact h)

/-- What the two programs make of the same value for their counters. -/
theorem store_counter (stored : Option ℤ) :
    copyOf u.layout (stored.elim m (storeInt m (u.layout.counterAddr i))) i =
        ⟨stored.elim (loadInt m (u.layout.counterAddr i)) cInt, loadInt m (u.layout.stepAddr i)⟩ ∧
      Frame u.layout i m (stored.elim m (storeInt m (u.layout.counterAddr i))) := by
  cases stored with
  | none =>
    rw [Option.elim_none, Option.elim_none]
    exact ⟨rfl, Frame.refl⟩
  | some v =>
    refine ⟨?_, Frame.of_counter fun x hx => storeInt_of_notMem hx⟩
    have hapart := counter_step_apart u.layout i i
    have hstep : loadInt (storeInt m (u.layout.counterAddr i) v) (u.layout.stepAddr i) =
        loadInt m (u.layout.stepAddr i) :=
      loadInt_congr fun x _ _ => storeInt_of_notMem (by omega)
    rw [Option.elim_some, Option.elim_some, copyOf, loadInt_storeInt, hstep]

theorem agrees_read (a : ReadArgs) : Agrees u m i (.read a) := by
  obtain ⟨hself, hframe⟩ := store_counter (u := u) (m := m) (i := i)
    (readCall u.abi (loadInt m (u.layout.counterAddr i)) (loadInt m (u.layout.stepAddr i)) a).2
  exact ⟨Prod.ext hself.symm rfl, hframe⟩

theorem agrees_write (a : WriteArgs) : Agrees u m i (.write a) := by
  obtain ⟨hself, hframe⟩ := store_counter (u := u) (m := m) (i := i) (writeCall u.kstrtoint a).2
  exact ⟨Prod.ext hself.symm rfl, hframe⟩

@[simp] theorem copiedBytes_length (user : List UInt8) (size : ℕ) :
    (copiedBytes user size).length = size := by
  simp only [copiedBytes, List.length_append, List.length_take, List.length_replicate]
  omega

theorem copiedBytes_take (user : List UInt8) {k size : ℕ} (h : k ≤ size) :
    (copiedBytes user size).take k = copiedBytes user k := by
  unfold copiedBytes
  rw [List.take_append, List.take_take, List.take_replicate, List.length_take, Nat.min_eq_left h]
  congr 2
  omega

/-- The step of `i` after a copy to its address. -/
theorem loadInt_store_step (user : List UInt8) :
    loadInt (m.store (u.layout.stepAddr i) (copiedBytes user 32)) (u.layout.stepAddr i) =
      intOfBytes (copiedBytes user 4) := by
  have hload := Memory.load_store m (u.layout.stepAddr i) (copiedBytes user 32)
  rw [copiedBytes_length] at hload
  rw [loadInt, ← Memory.load_take _ _ (show 4 ≤ 32 by decide), hload,
    copiedBytes_take user (by decide)]

/-- What the copy changes apart from the step. -/
theorem store_step_eq_iff {a : ℤ} {bytes : List UInt8} (h : bytes.length = 32) :
    (∀ x, ¬ (a ≤ x ∧ x < a + 4) → m.store a bytes x = m x) ↔
      bytes.drop 4 = m.load (a + 4) 28 := by
  have hload := Memory.load_store m a bytes
  rw [h] at hload
  have hdrop : (m.store a bytes).load (a + 4) 28 = bytes.drop 4 := by
    have hdrop := Memory.load_drop (m.store a bytes) a (show 4 ≤ 32 by decide)
    rw [hload] at hdrop
    exact hdrop.symm
  rw [← hdrop]
  constructor
  · intro hkept
    exact Memory.load_congr fun k _ => hkept _ (by omega)
  · intro hbehind x hx
    by_cases hin : a ≤ x ∧ x < a + 32
    · have hcell : ((m.store a bytes).load (a + 4) 28)[(x - (a + 4)).toNat]? =
          (m.load (a + 4) 28)[(x - (a + 4)).toNat]? := by rw [hbehind]
      rw [Memory.load_getElem? _ _ (by omega), Memory.load_getElem? _ _ (by omega),
        show a + 4 + ((x - (a + 4)).toNat : ℤ) = x by omega] at hcell
      exact Option.some.inj hcell
    · exact Memory.store_apply_of_notMem (by rw [h]; exact hin)

section Ioctl

variable {c : IoctlArgs} (w : Machine) (t : TpIV03.State)

/-- An `ioctl` that does not come to the copy. -/
theorem serve_other
    (h : iocType c.cmd ≠ counterIoctlMagic ∨ iocNr c.cmd ≠ setStepCommand) :
    TpIV03.serve w t (.call (.ioctl c)) = (t, ⟨-eNoTty, [], 0⟩) ∧
      serve u m i (.ioctl c) = (m, ⟨-eNoTty, [], 0⟩) := by
  constructor
  · simp only [TpIV03.serve, TpIV03.counterIoctl, ioctlCall_other _ h, Option.elim_none]
  · simp only [serve, counterIoctl, ioctlCall_other _ h, Option.elim_none]

/-- An `ioctl` that sets the step. -/
theorem serve_setStep (htype : iocType c.cmd = counterIoctlMagic)
    (hnr : iocNr c.cmd = setStepCommand) :
    TpIV03.serve w t (.call (.ioctl c)) =
        (⟨t.counter, intOfBytes (copiedBytes c.user 4)⟩,
          ⟨if 4 - c.user.length ≠ 0 then -eFault else 0, [], 0⟩) ∧
      serve u m i (.ioctl c) =
        (m.store (u.layout.stepAddr i) (copiedBytes c.user 32),
          ⟨if 32 - c.user.length ≠ 0 then -eFault else 0, [], 0⟩) := by
  constructor
  · simp only [TpIV03.serve, TpIV03.counterIoctl, ioctlCall_set _ htype hnr]
    rw [Option.elim_some]
  · simp only [serve, counterIoctl, nbCounters, Nat.reduceMul, ioctlCall_set _ htype hnr]
    rw [Option.elim_some]

theorem agrees_ioctl_other
    (h : iocType c.cmd ≠ counterIoctlMagic ∨ iocNr c.cmd ≠ setStepCommand) :
    Agrees u m i (.ioctl c) := by
  obtain ⟨hsingle, hserve⟩ :=
    serve_other (u := u) (m := m) (i := i) u.toMachine (copyOf u.layout m i) h
  constructor
  · simp only [hserve, hsingle]
  · simp only [hserve]
    exact Frame.refl

theorem agrees_setStep_iff (htype : iocType c.cmd = counterIoctlMagic)
    (hnr : iocNr c.cmd = setStepCommand) : Agrees u m i (.ioctl c) ↔
      (4 ≤ c.user.length → 32 ≤ c.user.length) ∧
      (copiedBytes c.user 32).drop 4 = m.load (u.layout.stepAddr i + 4) 28 := by
  obtain ⟨hsingle, hserve⟩ :=
    serve_setStep (u := u) (m := m) (i := i) u.toMachine (copyOf u.layout m i) htype hnr
  rw [copyOf_counter] at hsingle
  rw [← store_step_eq_iff (copiedBytes_length _ _)]
  constructor
  · rintro ⟨hself, hframe⟩
    rw [hserve, hsingle] at hself
    rw [hserve] at hframe
    have hret := congrArg (fun r => r.2.ret) hself
    have hcounter := congrArg (fun r => r.1.counter) hself
    simp only [copyOf_counter] at hret hcounter
    refine ⟨fun h4 => ?_, fun x hx => hframe.eq_of_counter hcounter.symm hx⟩
    by_contra h32
    rw [if_neg (by omega), if_pos (by omega)] at hret
    exact absurd hret (by decide)
  · rintro ⟨hlength, hkept⟩
    refine ⟨?_, by rw [hserve]; exact Frame.of_step hkept⟩
    have hapart := counter_step_apart u.layout i i
    have hcounter : loadInt (m.store (u.layout.stepAddr i) (copiedBytes c.user 32))
        (u.layout.counterAddr i) = loadInt m (u.layout.counterAddr i) :=
      loadInt_congr fun x _ _ => hkept x (by omega)
    have hret : (4 - c.user.length ≠ 0) ↔ (32 - c.user.length ≠ 0) := by omega
    rw [hserve, hsingle, copyOf, hcounter, loadInt_store_step]
    simp only [hret]

theorem agrees_ioctl_iff :
    Agrees u m i (.ioctl c) ↔ IoctlConfined m (u.layout.stepAddr i) c := by
  by_cases hset : iocType c.cmd = counterIoctlMagic ∧ iocNr c.cmd = setStepCommand
  · obtain ⟨htype, hnr⟩ := hset
    rw [agrees_setStep_iff htype hnr, IoctlConfined]
    simp only [htype, hnr, ne_eq, not_true, false_or]
    rcases lt_or_ge c.user.length 32 with hlt | hge
    · rcases lt_or_ge c.user.length 4 with hlt4 | hge4
      · have hbytes : (copiedBytes c.user 32).drop 4 = List.replicate 28 0 := by
          unfold copiedBytes
          rw [List.take_of_length_le (by omega), List.drop_append,
            List.drop_of_length_le (by omega), List.drop_replicate, List.nil_append]
          congr 1
          omega
        rw [hbytes]
        simp only [hlt4, not_le.2 hlt, not_le.2 hlt4, false_imp_iff, true_and, false_and, false_or]
      · simp only [hge4, not_le.2 hlt, not_lt.2 hge4, true_imp_iff, false_and, or_self]
    · have hbytes : copiedBytes c.user 32 = c.user.take 32 := by
        unfold copiedBytes
        rw [Nat.sub_eq_zero_of_le hge, List.replicate_zero, List.append_nil]
      have hge4 : ¬ c.user.length < 4 := by omega
      rw [hbytes]
      simp only [hge, hge4, imp_true_iff, true_and, false_and, or_false]
  · have hother := not_and_or.1 hset
    refine iff_of_true (agrees_ioctl_other hother) ?_
    rcases hother with htype | hnr
    · exact .inl htype
    · exact .inr (.inl hnr)

end Ioctl

/-! ### Every run -/

theorem callsOf_snoc_self {log : List Record} {r : Record} (h : r.idx = some i) :
    callsOf i (log ++ [r]) = callsOf i log ++ [r] := by
  simp [callsOf, h]

theorem callsOf_snoc_of_ne {log : List Record} {r : Record} (h : r.idx ≠ some i) :
    callsOf i (log ++ [r]) = callsOf i log := by
  simp [callsOf, h]

section Runs

variable {m₀ : Memory UInt8} {s s' : State File} {log : List Record}

omit [DecidableEq File] in
/-- One more call on the files of `i`. -/
theorem projects_snoc_iff {r : Record} (hp : Projects u m₀ s log) (hidx : r.idx = some i) :
    Projects u m₀ s' (log ++ [r]) ↔
      TpIV03.serve u.toMachine (copyOf u.layout s.mem i) r.request =
        (copyOf u.layout s'.mem i, r.reply) ∧ Frame u.layout i s.mem s'.mem := by
  have hone : (TpIV03.system u.toMachine).exec (copyOf u.layout s.mem i) [r.request] =
      some ((TpIV03.serve u.toMachine (copyOf u.layout s.mem i) r.request).1,
        [(TpIV03.serve u.toMachine (copyOf u.layout s.mem i) r.request).2]) := rfl
  have hnext := System.exec_append (hp.run i) hone
  have hother : ∀ j, j ≠ i → callsOf j (log ++ [r]) = callsOf j log := fun j hj =>
    callsOf_snoc_of_ne (by rw [hidx]; exact fun h => hj (Option.some.inj h).symm)
  constructor
  · intro hp'
    have hrun := hp'.run i
    rw [callsOf_snoc_self hidx, List.map_append, List.map_append] at hrun
    obtain ⟨hstate, hreplies⟩ := Prod.mk.inj (Option.some.inj (hnext.symm.trans hrun))
    have hreply := List.singleton_inj.1 (List.append_cancel_left hreplies)
    refine ⟨Prod.ext hstate hreply, fun j hj => ?_,
      fun x hx => (hp'.outside x hx).trans (hp.outside x hx).symm⟩
    have hrun' := hp'.run j
    rw [hother j hj, hp.run j] at hrun'
    exact (congrArg Prod.fst (Option.some.inj hrun')).symm
  · rintro ⟨hserve, hframe⟩
    refine ⟨fun j => ?_, fun x hx => (hframe.outside x hx).trans (hp.outside x hx)⟩
    by_cases hj : j = i
    · subst hj
      rw [callsOf_snoc_self hidx, List.map_append, List.map_append]
      rw [hserve] at hnext
      exact hnext
    · rw [hother j hj, hframe.others j hj]
      exact hp.run j

/-- What a step has to do with the projections. -/
theorem projects_step {a : Act File} {out : List Record} (hp : Projects u m₀ s log)
    (hstep : step u s a = some (s', out)) :
    Projects u m₀ s' (log ++ out) ↔ Confined u s a := by
  cases a with
  | openFile f minor =>
    refine iff_of_true ?_ trivial
    simp only [step] at hstep
    split_ifs at hstep
    cases hselect : select u.minors minor with
    | none =>
      rw [hselect] at hstep
      cases hstep
      have hnone : ∀ i, callsOf i (log ++ [⟨none, .opened, ⟨-eInval, [], 0⟩⟩]) = callsOf i log :=
        fun i => callsOf_snoc_of_ne (by simp)
      refine ⟨fun i => ?_, hp.outside⟩
      rw [hnone]
      exact hp.run i
    | some i =>
      rw [hselect] at hstep
      cases hstep
      exact (projects_snoc_iff (i := i) hp rfl).2 ⟨rfl, Frame.refl⟩
  | call f c =>
    obtain ⟨i, hi, heq⟩ := Option.map_eq_some_iff.1 hstep
    cases heq
    have hagrees : Projects u m₀ { s with mem := (serve u s.mem i c).1 }
        (log ++ [⟨some i, .call c, (serve u s.mem i c).2⟩]) ↔ Agrees u s.mem i c := by
      rw [projects_snoc_iff hp rfl]
      exact ⟨fun h => ⟨h.1, h.2⟩, fun h => ⟨h.serve_eq, h.frame⟩⟩
    refine hagrees.trans ?_
    cases c with
    | read a => exact iff_of_true (agrees_read a) trivial
    | write a => exact iff_of_true (agrees_write a) trivial
    | ioctl a =>
      rw [agrees_ioctl_iff]
      constructor
      · intro h j hj
        rw [hi] at hj
        exact Option.some.inj hj ▸ h
      · exact fun h => h i hi

end Runs

/-- An element of an array that has just been written. -/
theorem loadInt_store_array {a : ℤ} {bytes : List UInt8} (h : bytes.length = 32)
    (i : Fin nbCounters) :
    loadInt (m.store a bytes) (a + 4 * (i : ℕ)) = intOfBytes ((bytes.drop (4 * i)).take 4) := by
  have hi := index_lt i
  have hload := Memory.load_store m a bytes
  rw [h] at hload
  have hdrop := Memory.load_drop (m.store a bytes) a (show 4 * (i : ℕ) ≤ 32 by omega)
  rw [hload] at hdrop
  rw [hdrop, Memory.load_take _ _ (by omega), loadInt, Int.natCast_mul]
  rfl

section Init

variable (u : Setup) (m : Memory UInt8)

omit [DecidableEq File] in
theorem init_counter (i : Fin nbCounters) :
    loadInt (init u m File).mem (u.layout.counterAddr i) = 0 := by
  have hi := index_lt i
  have hdisjoint := u.layout.disjoint
  have hzeros : ((List.replicate 32 (0 : UInt8)).drop (4 * i)).take 4 = List.replicate 4 0 := by
    revert i
    decide
  have hones : (List.replicate nbCounters (leBytes 4 1)).flatten.length = 32 := by decide
  have hapart : loadInt (init u m File).mem (u.layout.counterAddr i) =
      loadInt (m.store u.layout.counter (List.replicate 32 0)) (u.layout.counterAddr i) :=
    loadInt_congr fun x hle hlt => by
      unfold Layout.counterAddr at hle hlt
      exact Memory.store_apply_of_notMem (by rw [hones]; omega)
  rw [hapart, Layout.counterAddr, loadInt_store_array (by decide), hzeros]
  decide +kernel

omit [DecidableEq File] in
theorem init_step (i : Fin nbCounters) :
    loadInt (init u m File).mem (u.layout.stepAddr i) = 1 := by
  have hones : ((List.replicate nbCounters (leBytes 4 1)).flatten.drop (4 * i)).take 4 =
      leBytes 4 1 := by
    revert i
    decide
  rw [init, Layout.stepAddr, loadInt_store_array (by decide), hones]
  decide +kernel

omit [DecidableEq File] in
theorem projects_init : Projects u m (init u m File) [] where
  run i := by
    rw [copyOf, init_counter, init_step]
    rfl
  outside x hx := by
    have hones : (List.replicate nbCounters (leBytes 4 1)).flatten.length = 32 := by decide
    unfold Layout.Contains at hx
    have hstep : (init u m File).mem x = m.store u.layout.counter (List.replicate 32 0) x :=
      Memory.store_apply_of_notMem (by rw [hones]; omega)
    rw [hstep]
    exact Memory.store_apply_of_notMem (by rw [List.length_replicate]; omega)

end Init

/-- **Eight counters for one**: in a run of any calls on files of the eight devices, the calls on the
files of each device are at any time a run of `tp-IV-03`, with the same results and the same counter
and step, and the memory outside the arrays is as it was, exactly when each `ioctl` that sets a step
copies behind it the 28 bytes that are there already, or cannot copy even the step and puts 28 zeros
where there are zeros already. -/
theorem projects_iff_confined {u : Setup} {m : Memory UInt8} {acts : List (Act File)}
    {s : State File} {log : List Record}
    (hrun : (system u File).exec (init u m File) acts = some (s, log)) :
    (system u File).Throughout (Projects u m) (init u m File) [] acts ↔
      (system u File).Along (Confined u) (init u m File) acts :=
  System.throughout_iff_along (W := fun _ => True) (fun _ _ _ _ _ _ => trivial)
    (fun _ _ _ _ _ _ hp hstep => projects_step hp hstep) trivial (projects_init u m) hrun

/-- Two arrays side by side, eight minors, and `kstrtoint` on one digit. -/
def exampleSetup : Setup where
  abi := .lp64
  kstrtoint text := match text with
    | [b] => if 48 ≤ b ∧ b ≤ 57 then some (b.toNat - 48) else none
    | _ => none
  layout := ⟨0, 32, by decide⟩
  minors i := 100 + i

/-- `COUNTER_SET_STEP`, with the step 5 in front of these bytes. -/
def setStepFive (behind : List UInt8) : IoctlArgs := ⟨99 * 2 ^ 8 + 1, [5, 0, 0, 0] ++ behind⟩

/-- The step of the first counter is set to 5, with the other steps as they are behind it; the counter
is set to 7 and advances. -/
theorem projects_iff_confined_twelve :
    ∃ s log, (system exampleSetup Bool).exec (init exampleSetup (fun _ => 0) Bool)
        [.openFile true 100, .call true (.ioctl (setStepFive (List.replicate 7 [1, 0, 0, 0]).flatten)),
          .call true (.write ⟨[55], true, 1⟩), .call true (.read ⟨12, 20, 20, fun _ => 0⟩)] =
          some (s, log) ∧
      loadInt s.mem 0 = 12 ∧
      (system exampleSetup Bool).Throughout (Projects exampleSetup fun _ => 0)
        (init exampleSetup (fun _ => 0) Bool) []
        [.openFile true 100, .call true (.ioctl (setStepFive (List.replicate 7 [1, 0, 0, 0]).flatten)),
          .call true (.write ⟨[55], true, 1⟩), .call true (.read ⟨12, 20, 20, fun _ => 0⟩)] := by
  obtain ⟨⟨s, log⟩, hrun, hval⟩ := Option.map_eq_some_iff.1
    (show ((system exampleSetup Bool).exec (init exampleSetup (fun _ => 0) Bool)
        [.openFile true 100, .call true (.ioctl (setStepFive (List.replicate 7 [1, 0, 0, 0]).flatten)),
          .call true (.write ⟨[55], true, 1⟩), .call true (.read ⟨12, 20, 20, fun _ => 0⟩)]).map
        (fun r => loadInt r.1.mem 0) = some 12 by decide +kernel)
  refine ⟨s, log, hrun, hval, (projects_iff_confined hrun).2 ?_⟩
  have hopen : (system exampleSetup Bool).step (init exampleSetup (fun _ => 0) Bool)
      (.openFile true 100) = some (⟨(init exampleSetup (fun _ => 0) Bool).mem,
        Function.update (fun _ => none) true (some 0)⟩, [⟨some 0, .opened, ⟨0, [], 0⟩⟩]) := rfl
  refine (System.along_cons hopen).2 ⟨trivial, fun i hi => ?_, fun _ _ _ => ⟨trivial, fun _ _ _ =>
    ⟨trivial, fun _ _ _ => trivial⟩⟩⟩
  obtain rfl : 0 = i := by simpa using hi
  exact .inr (.inr (.inl (by decide +kernel)))

/-- The step of the first counter is set to 5, with zeros behind it: the second has no step left. -/
theorem setStep_overwrites :
    ∃ s log, (system exampleSetup Bool).exec (init exampleSetup (fun _ => 0) Bool)
        [.openFile true 100, .call true (.ioctl (setStepFive (List.replicate 28 0)))] =
          some (s, log) ∧
      loadInt s.mem 36 = 0 ∧ ¬ Projects exampleSetup (fun _ => 0) s log := by
  obtain ⟨⟨s, log⟩, hrun, hval⟩ := Option.map_eq_some_iff.1
    (show ((system exampleSetup Bool).exec (init exampleSetup (fun _ => 0) Bool)
        [.openFile true 100, .call true (.ioctl (setStepFive (List.replicate 28 0)))]).map
        (fun r => (loadInt r.1.mem 36, (callsOf 1 r.2).length)) = some (0, 0) by decide +kernel)
  simp only [Prod.mk.injEq] at hval
  refine ⟨s, log, hrun, hval.1, fun hp => ?_⟩
  have hcalls := hp.run 1
  rw [List.length_eq_zero_iff.1 hval.2] at hcalls
  have hstep := congrArg (fun r => r.1.counterStep) (Option.some.inj hcalls)
  have haddr : exampleSetup.layout.stepAddr 1 = 36 := by decide
  simp only [copyOf_counterStep, haddr, hval.1] at hstep
  exact absurd hstep (by decide)

/-- With distinct minors, the file opened through the node of a device keeps its index. -/
theorem select_minor {minors : Fin nbCounters → ℕ} (h : Function.Injective minors)
    (i : Fin nbCounters) : select minors (minors i) = some i := by
  unfold select
  cases hfind : (List.finRange nbCounters).find? fun j => minors j = minors i with
  | none => simpa using List.find?_eq_none.1 hfind i (List.mem_finRange i)
  | some j =>
    have hj : minors j = minors i := by simpa using List.find?_some hfind
    rw [h hj]

end IldDrivers.Counters.TpIV04
