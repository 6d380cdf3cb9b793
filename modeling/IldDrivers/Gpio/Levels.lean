import IldDrivers.Kernel
import IldDrivers.Lib.Transition
import Mathlib.Tactic

/-!
# The level of a line (`example-V-01`, `example-V-01-with-fdt`)

Two drivers set an output line to the number that is written to them. The first one addresses the
line by its number and keeps the last bit of the value, the second one has the line from the device
tree and passes on the value as it is. The line is driven high by every value that is not zero.

* `ExampleV01.exampleWrite`, `ExampleV01WithFdt.exampleWrite`: the writes of the two drivers, which
  are one function (`writeValue`) about the value that they pass on;
* `system`: a line, and any sequence of writes;
* `levels_agree_iff`: the drivers always return the same values, and have the line at the same level
  after each write exactly when every value accepted is zero or odd.
-/

namespace IldDrivers.Gpio

/-! ### The drivers -/

/-- A write: the bytes, and how many of them can be copied. -/
structure WriteArgs where
  data : List UInt8
  copied : ℕ

/-- What a write returns, and whether the line is high after it. -/
structure Record where
  ret : ℤ
  level : Bool
  deriving DecidableEq

/-- `gpio_set_value` and `gpiod_set_value`, for a line that is active when high. -/
def setValue (value : ℤ) : Bool := decide (value ≠ 0)

/-- A write that parses a number `val` and sets the line to `passed val`. -/
def writeValue (passed : ℤ → ℤ) (kstrtoint : List UInt8 → Option ℤ) (level : Bool) (a : WriteArgs) :
    Record :=
  if 79 < a.data.length then ⟨-eNoMem, level⟩
  else if a.data.length - a.copied ≠ 0 then ⟨-eFault, level⟩
  else
    match kstrtoint (cstring (a.data ++ [0])) with
    | none => ⟨-eInval, level⟩
    | some val => ⟨a.data.length, setValue (passed val)⟩

/-- `val & 0x01`. -/
def lastBit (val : ℤ) : ℤ := val % 2

/-- `example_write`. -/
def ExampleV01.exampleWrite : (List UInt8 → Option ℤ) → Bool → WriteArgs → Record :=
  writeValue lastBit

/-- `example_write`. -/
def ExampleV01WithFdt.exampleWrite : (List UInt8 → Option ℤ) → Bool → WriteArgs → Record :=
  writeValue id

/-- The line, under a driver with this write. -/
def system (exampleWrite : Bool → WriteArgs → Record) : System Bool WriteArgs Record where
  step level a := some ((exampleWrite level a).level, [exampleWrite level a])

/-- The level at which both drivers set the line when they are loaded. -/
def low : Bool := false

/-! ### What is expected -/

/-- The value that a write is to set the line to. -/
def accepted (kstrtoint : List UInt8 → Option ℤ) (a : WriteArgs) : Option ℤ :=
  if a.data.length ≤ 79 ∧ a.data.length ≤ a.copied then kstrtoint (cstring (a.data ++ [0])) else none

/-- If the write is accepted, its value is zero or odd. -/
def KeepsLastBit (kstrtoint : List UInt8 → Option ℤ) (a : WriteArgs) : Prop :=
  ∀ val, accepted kstrtoint a = some val → val = 0 ∨ val % 2 = 1

/-! ### One write -/

variable {kstrtoint : List UInt8 → Option ℤ} {passed : ℤ → ℤ} {a : WriteArgs}

/-- A write that is accepted. -/
theorem writeValue_accepted {val : ℤ} (h : accepted kstrtoint a = some val) (level : Bool) :
    writeValue passed kstrtoint level a = ⟨a.data.length, setValue (passed val)⟩ := by
  unfold accepted at h
  split_ifs at h with hsize
  unfold writeValue
  rw [if_neg (by omega), if_neg (by omega), h]

/-- A write that is not leaves the line alone, and returns the same in both drivers. -/
theorem writeValue_refused (h : accepted kstrtoint a = none) :
    ∃ ret, ∀ (passed : ℤ → ℤ) (level : Bool), writeValue passed kstrtoint level a = ⟨ret, level⟩ := by
  unfold accepted at h
  by_cases hlong : 79 < a.data.length
  · exact ⟨-eNoMem, fun _ _ => if_pos hlong⟩
  by_cases hfault : a.data.length - a.copied ≠ 0
  · exact ⟨-eFault, fun _ _ => (if_neg hlong).trans (if_pos hfault)⟩
  rw [if_pos (by omega)] at h
  refine ⟨-eInval, fun passed level => ?_⟩
  unfold writeValue
  rw [if_neg hlong, if_neg hfault, h]

theorem setValue_lastBit_iff (val : ℤ) :
    setValue (lastBit val) = setValue val ↔ val = 0 ∨ val % 2 = 1 := by
  unfold setValue lastBit
  rw [decide_eq_decide]
  omega

/-- From the same level, the drivers return the same, and come to the same level exactly when the value
is zero or odd. -/
theorem write_agrees (level : Bool) :
    (ExampleV01.exampleWrite kstrtoint level a).ret =
        (ExampleV01WithFdt.exampleWrite kstrtoint level a).ret ∧
      ((ExampleV01.exampleWrite kstrtoint level a).level =
          (ExampleV01WithFdt.exampleWrite kstrtoint level a).level ↔ KeepsLastBit kstrtoint a) := by
  unfold ExampleV01.exampleWrite ExampleV01WithFdt.exampleWrite KeepsLastBit
  cases h : accepted kstrtoint a with
  | none =>
    obtain ⟨ret, hret⟩ := writeValue_refused h
    rw [hret, hret]
    exact ⟨rfl, iff_of_true rfl fun val hval => by cases hval⟩
  | some val =>
    rw [writeValue_accepted h, writeValue_accepted h]
    refine ⟨rfl, (setValue_lastBit_iff val).trans ?_⟩
    simp

/-- What a write returns does not depend on the level. -/
theorem writeValue_ret (level level' : Bool) :
    (writeValue passed kstrtoint level a).ret = (writeValue passed kstrtoint level' a).ret := by
  cases h : accepted kstrtoint a with
  | none =>
    obtain ⟨ret, hret⟩ := writeValue_refused h
    rw [hret, hret]
  | some val => rw [writeValue_accepted h, writeValue_accepted h]

/-! ### Every sequence of writes -/

theorem exec_cons_iff {write : Bool → WriteArgs → Record} {level level' : Bool}
    {acts : List WriteArgs} {h : List Record} :
    (system write).exec level (a :: acts) = some (level', h) ↔
      ∃ rest, h = write level a :: rest ∧
        (system write).exec (write level a).level acts = some (level', rest) := by
  rw [System.exec_cons]
  constructor
  · rintro ⟨s, out, rest, hstep, hrest, rfl⟩
    cases hstep
    exact ⟨rest, rfl, hrest⟩
  · rintro ⟨rest, rfl, hrest⟩
    exact ⟨_, _, rest, rfl, hrest, rfl⟩

theorem rets_eq {acts : List WriteArgs} {level level' s s' : Bool} {h h' : List Record}
    (hrun : (system (ExampleV01.exampleWrite kstrtoint)).exec level acts = some (s, h))
    (hrun' : (system (ExampleV01WithFdt.exampleWrite kstrtoint)).exec level' acts = some (s', h')) :
    h.map Record.ret = h'.map Record.ret := by
  induction acts generalizing level level' h h' with
  | nil =>
    cases hrun
    cases hrun'
    rfl
  | cons a acts ih =>
    obtain ⟨rest, rfl, hrest⟩ := exec_cons_iff.1 hrun
    obtain ⟨rest', rfl, hrest'⟩ := exec_cons_iff.1 hrun'
    rw [List.map_cons, List.map_cons, ih hrest hrest', (write_agrees level).1]
    congr 1
    exact writeValue_ret level level'

theorem levels_eq_iff {acts : List WriteArgs} {level s s' : Bool} {h h' : List Record}
    (hrun : (system (ExampleV01.exampleWrite kstrtoint)).exec level acts = some (s, h))
    (hrun' : (system (ExampleV01WithFdt.exampleWrite kstrtoint)).exec level acts = some (s', h')) :
    h.map Record.level = h'.map Record.level ↔ ∀ a ∈ acts, KeepsLastBit kstrtoint a := by
  induction acts generalizing level h h' with
  | nil =>
    cases hrun
    cases hrun'
    simp
  | cons a acts ih =>
    obtain ⟨rest, rfl, hrest⟩ := exec_cons_iff.1 hrun
    obtain ⟨rest', rfl, hrest'⟩ := exec_cons_iff.1 hrun'
    rw [List.map_cons, List.map_cons, List.cons.injEq, List.forall_mem_cons,
      (write_agrees level).2]
    refine and_congr_right fun ha => ih hrest ?_
    rw [(write_agrees level).2.2 ha]
    exact hrest'

/-- **Where the two drivers agree**: for every sequence of writes, of any texts and lengths, they return
the same values, and their lines, low at first, are at the same level after each write exactly when
every value that is accepted is zero or odd. -/
theorem levels_agree_iff {acts : List WriteArgs} {s s' : Bool} {h h' : List Record}
    (hrun : (system (ExampleV01.exampleWrite kstrtoint)).exec low acts = some (s, h))
    (hrun' : (system (ExampleV01WithFdt.exampleWrite kstrtoint)).exec low acts = some (s', h')) :
    h.map Record.ret = h'.map Record.ret ∧
      (h.map Record.level = h'.map Record.level ↔ ∀ a ∈ acts, KeepsLastBit kstrtoint a) :=
  ⟨rets_eq hrun hrun', levels_eq_iff hrun hrun'⟩

/-- `"1\n"`, `"-3"`, an empty text and `"0"`. -/
def someWrites : List WriteArgs := [⟨[49, 10], 2⟩, ⟨[45, 51], 2⟩, ⟨[], 0⟩, ⟨[48], 1⟩]

theorem levels_agree_iff_someWrites :
    ∃ s s' h h', (system (ExampleV01.exampleWrite IldDrivers.kstrtoint)).exec low someWrites =
        some (s, h) ∧
      (system (ExampleV01WithFdt.exampleWrite IldDrivers.kstrtoint)).exec low someWrites =
        some (s', h') ∧
      h.map Record.level = [true, true, true, false] ∧ h.map Record.level = h'.map Record.level := by
  obtain ⟨⟨s, h⟩, hrun, hval⟩ := Option.map_eq_some_iff.1
    (show ((system (ExampleV01.exampleWrite IldDrivers.kstrtoint)).exec low someWrites).map
        (fun r => r.2.map Record.level) = some [true, true, true, false] by decide +kernel)
  obtain ⟨⟨s', h'⟩, hrun', -⟩ := Option.map_eq_some_iff.1
    (show ((system (ExampleV01WithFdt.exampleWrite IldDrivers.kstrtoint)).exec low someWrites).map
        (fun r => r.2.map Record.level) = some [true, true, true, false] by decide +kernel)
  refine ⟨s, s', h, h', hrun, hrun', hval, (levels_agree_iff hrun hrun').2.2 ?_⟩
  have hvalues : someWrites.map (accepted IldDrivers.kstrtoint) = [some 1, some (-3), none, some 0] := by
    decide +kernel
  intro a ha val hval
  have hmem : some val ∈ someWrites.map (accepted IldDrivers.kstrtoint) := hval ▸ List.mem_map_of_mem ha
  rw [hvalues] at hmem
  simp only [List.mem_cons, Option.some.injEq, reduceCtorEq, List.not_mem_nil, or_false,
    false_or] at hmem
  omega

/-- The number 2: the first driver leaves the line low, the second one drives it high. -/
theorem even_value_differs :
    ¬ ∀ (acts : List WriteArgs) (s s' : Bool) (h h' : List Record),
      (system (ExampleV01.exampleWrite IldDrivers.kstrtoint)).exec low acts = some (s, h) →
      (system (ExampleV01WithFdt.exampleWrite IldDrivers.kstrtoint)).exec low acts = some (s', h') →
        h = h' := by
  intro hall
  have hrun : (system (ExampleV01.exampleWrite IldDrivers.kstrtoint)).exec low [⟨[50], 1⟩] =
      some (false, [⟨1, false⟩]) := by decide +kernel
  have hrun' : (system (ExampleV01WithFdt.exampleWrite IldDrivers.kstrtoint)).exec low [⟨[50], 1⟩] =
      some (true, [⟨1, true⟩]) := by decide +kernel
  have heq := hall _ _ _ _ _ hrun hrun'
  simp at heq

end IldDrivers.Gpio
