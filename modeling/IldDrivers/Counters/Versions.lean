import IldDrivers.Counters.Driver
import IldDrivers.Lib.History
import IldDrivers.Lib.Ledger
import Mathlib.Tactic

/-!
# From `tp-IV-01` to `tp-IV-03`

`tp-IV-01` has a counter that can be read, `tp-IV-02` adds the write, and `tp-IV-03` an `ioctl` that
sets the step. Without it, `tp-IV-03` is to do what `tp-IV-02` does, and the buffer of a write is to
be free again when the write returns.

* `TpIV01.counterRead`, `TpIV02.counterRead`, `TpIV02.counterWrite`: the functions of the earlier
  versions; `TpIV03.counterWriteHeap` is the write of the last one with what it does with its buffer;
* `TpIV02.system`, `TpIV03.heapSystem`: reads and writes;
* `NoneLive`: after each call no buffer is left;
* `versions_agree`: the two versions give the same answers, `tp-IV-02` leaves no buffer, and
  `tp-IV-03` leaves none in the runs in which no copy to a buffer fails.
-/

namespace IldDrivers.Counters

attribute [local irreducible] cInt

/-! ### The programs -/

/-- `counter_read` of `tp-IV-01`, with the counter after it. -/
def TpIV01.counterRead (abi : Abi) (counter : ℤ) (a : ReadArgs) : ℤ × Reply :=
  let (reply, stored) := readCall abi counter 1 a
  (stored.elim counter cInt, reply)

/-- `counter_read` of `tp-IV-02`. -/
def TpIV02.counterRead (abi : Abi) (counter : ℤ) (a : ReadArgs) : ℤ × Reply :=
  let (reply, stored) := readCall abi counter 1 a
  (stored.elim counter cInt, reply)

/-- What a write comes to: the counter after it, its reply, and what it does with its buffer, which
has the number of the call. -/
structure Written where
  counter : ℤ
  reply : Reply
  heap : List (LedgerEntry ℕ)

/-- `counter_write` of `tp-IV-02`. -/
def TpIV02.counterWrite (kstrtoint : List UInt8 → Option ℤ) (n : ℕ) (counter : ℤ) (a : WriteArgs) :
    Written :=
  if ¬ a.kmalloc then ⟨counter, ⟨-eNoMem, [], 0⟩, []⟩
  else if a.data.length - a.copied ≠ 0 then
    ⟨counter, ⟨-eFault, [], 0⟩, [.acquire n, .release n]⟩
  else
    match kstrtoint (cstring (a.data ++ [0])) with
    | none => ⟨counter, ⟨-eInval, [], 0⟩, [.acquire n, .release n]⟩
    | some nb => ⟨cInt nb, ⟨a.data.length, [], 0⟩, [.acquire n, .release n]⟩

/-- `counter_write` of `tp-IV-03`, with its buffer. -/
def TpIV03.counterWriteHeap (kstrtoint : List UInt8 → Option ℤ) (n : ℕ) (counter : ℤ)
    (a : WriteArgs) : Written :=
  if ¬ a.kmalloc then ⟨counter, ⟨-eNoMem, [], 0⟩, []⟩
  else if a.data.length - a.copied ≠ 0 then ⟨counter, ⟨-eFault, [], 0⟩, [.acquire n]⟩
  else
    match kstrtoint (cstring (a.data ++ [0])) with
    | none => ⟨counter, ⟨-eInval, [], 0⟩, [.acquire n, .release n]⟩
    | some nb => ⟨cInt nb, ⟨a.data.length, [], 0⟩, [.acquire n, .release n]⟩

/-- But for the buffer, this is the write of `tp-IV-03`. -/
theorem TpIV03.counterWriteHeap_eq (kstrtoint : List UInt8 → Option ℤ) (n : ℕ) (s : TpIV03.State)
    (a : WriteArgs) :
    TpIV03.counterWrite kstrtoint s a =
      ({ s with counter := (counterWriteHeap kstrtoint n s.counter a).counter },
        (counterWriteHeap kstrtoint n s.counter a).reply) := by
  unfold TpIV03.counterWrite counterWriteHeap writeCall
  split_ifs
  · rfl
  · cases kstrtoint (cstring (a.data ++ [0])) <;> rfl
  · rfl

/-! ### Reads and writes -/

namespace Versions

inductive Act
  | read (a : ReadArgs)
  | write (a : WriteArgs)

/-- A call: the reply, the counter after it, and what it does with its buffer. -/
structure Record where
  reply : Reply
  counter : ℤ
  heap : List (LedgerEntry ℕ)

/-- What can be seen of a call. -/
def Record.answer (r : Record) : Reply × ℤ := (r.reply, r.counter)

end Versions

open Versions

structure TpIV02.State where
  counter : ℤ
  /-- The number of calls. -/
  calls : ℕ

def TpIV02.step (u : Machine) (s : TpIV02.State) : Act → Option (TpIV02.State × List Record)
  | .read a =>
      let (counter, reply) := counterRead u.abi s.counter a
      some (⟨counter, s.calls + 1⟩, [⟨reply, counter, []⟩])
  | .write a =>
      let w := counterWrite u.kstrtoint s.calls s.counter a
      some (⟨w.counter, s.calls + 1⟩, [⟨w.reply, w.counter, w.heap⟩])

def TpIV02.system (u : Machine) : System TpIV02.State Act Record := ⟨TpIV02.step u⟩

def TpIV02.init : TpIV02.State := ⟨0, 0⟩

structure TpIV03.HeapState where
  vars : TpIV03.State
  /-- The number of calls. -/
  calls : ℕ

def TpIV03.heapStep (u : Machine) (s : HeapState) : Act → Option (HeapState × List Record)
  | .read a =>
      let (vars, reply) := counterRead u.abi s.vars a
      some (⟨vars, s.calls + 1⟩, [⟨reply, vars.counter, []⟩])
  | .write a =>
      let w := counterWriteHeap u.kstrtoint s.calls s.vars.counter a
      some (⟨{ s.vars with counter := w.counter }, s.calls + 1⟩, [⟨w.reply, w.counter, w.heap⟩])

def TpIV03.heapSystem (u : Machine) : System HeapState Act Record := ⟨TpIV03.heapStep u⟩

def TpIV03.heapInit : HeapState := ⟨TpIV03.init, 0⟩

namespace Versions

/-! ### What is expected -/

/-- What is done with all buffers. -/
def heap (h : List Record) : List (LedgerEntry ℕ) := h.flatMap Record.heap

/-- There are no buffers. -/
def Freed (l : List (LedgerEntry ℕ)) : Prop := Ledger.after (fun _ => 0) l = fun _ => 0

/-- After each call, all buffers are free. -/
def NoneLive (h : List Record) : Prop :=
  History.EachAfter (fun before r => Freed (heap (before ++ [r]))) h

/-- If the call copies anything to a buffer, it copies all of it. -/
def Act.Copies : Act → Prop
  | .read _ => True
  | .write a => a.kmalloc = true → a.data.length ≤ a.copied

instance : ∀ a : Act, Decidable a.Copies
  | .read _ => .isTrue trivial
  | .write a => inferInstanceAs (Decidable (a.kmalloc = true → a.data.length ≤ a.copied))

/-! ### Buffers -/

theorem freed_append {l m : List (LedgerEntry ℕ)} (hl : Freed l) : Freed (l ++ m) ↔ Freed m := by
  unfold Freed at hl ⊢
  rw [Ledger.after_append, hl]

theorem freed_pair (n : ℕ) : Freed [.acquire n, .release n] := by
  unfold Freed Ledger.after
  simp [Ledger.post]

theorem not_freed_acquire (n : ℕ) : ¬ Freed [.acquire n] := by
  intro h
  have hn := congrFun h n
  simp [Ledger.after, Ledger.post] at hn

theorem heap_snoc (h : List Record) (r : Record) : heap (h ++ [r]) = heap h ++ r.heap := by
  simp [heap]

/-- There are no buffers after each call exactly when each call frees its own. -/
theorem noneLive_iff {h : List Record} : NoneLive h ↔ ∀ r ∈ h, Freed r.heap := by
  suffices hall : (NoneLive h ↔ ∀ r ∈ h, Freed r.heap) ∧ (NoneLive h → Freed (heap h)) from hall.1
  induction h using List.reverseRecOn with
  | nil => exact ⟨iff_of_true History.eachAfter_nil (fun _ hr => by cases hr), fun _ => rfl⟩
  | append_singleton h r ih =>
    obtain ⟨hiff, hfreed⟩ := ih
    unfold NoneLive at hiff hfreed ⊢
    rw [History.eachAfter_snoc, List.forall_mem_append, List.forall_mem_singleton, ← hiff]
    refine ⟨and_congr_right fun hh => ?_, And.right⟩
    rw [heap_snoc]
    exact freed_append (hfreed hh)

/-! ### The two versions side by side -/

/-- The two programs are in the same state. -/
def Same (s : TpIV02.State) (t : TpIV03.HeapState) : Prop :=
  t.vars = ⟨s.counter, 1⟩ ∧ t.calls = s.calls

/-- How the writes of the two versions compare. -/
theorem write_match (kstrtoint : List UInt8 → Option ℤ) (n : ℕ) (counter : ℤ) (a : WriteArgs) :
    let w := TpIV02.counterWrite kstrtoint n counter a
    let w' := TpIV03.counterWriteHeap kstrtoint n counter a
    w.counter = w'.counter ∧ w.reply = w'.reply ∧ Freed w.heap ∧
      (Freed w'.heap ↔ Act.Copies (.write a)) := by
  intro w w'
  by_cases hkmalloc : a.kmalloc = true
  · by_cases hcopied : a.data.length - a.copied = 0
    · have hcopies : Act.Copies (.write a) := fun _ => Nat.sub_eq_zero_iff_le.1 hcopied
      have hsame : w' = w := by
        simp only [w, w', TpIV02.counterWrite, TpIV03.counterWriteHeap, hkmalloc, hcopied,
          not_true_eq_false, ne_eq, if_false]
      have hheap : w.heap = [.acquire n, .release n] := by
        simp only [w, TpIV02.counterWrite, hkmalloc, hcopied, not_true_eq_false, ne_eq, if_false]
        cases kstrtoint (cstring (a.data ++ [0])) <;> rfl
      rw [hsame, hheap]
      exact ⟨rfl, rfl, freed_pair n, iff_of_true (freed_pair n) hcopies⟩
    · have hcopies : ¬ Act.Copies (.write a) := fun hall =>
        hcopied (Nat.sub_eq_zero_of_le (hall hkmalloc))
      have hw : w = ⟨counter, ⟨-eFault, [], 0⟩, [.acquire n, .release n]⟩ := by
        simp only [w, TpIV02.counterWrite]
        rw [if_neg (not_not_intro hkmalloc), if_pos hcopied]
      have hw' : w' = ⟨counter, ⟨-eFault, [], 0⟩, [.acquire n]⟩ := by
        simp only [w', TpIV03.counterWriteHeap]
        rw [if_neg (not_not_intro hkmalloc), if_pos hcopied]
      rw [hw, hw']
      exact ⟨rfl, rfl, freed_pair n, iff_of_false (not_freed_acquire n) hcopies⟩
  · have hw : w = ⟨counter, ⟨-eNoMem, [], 0⟩, []⟩ := if_pos hkmalloc
    have hw' : w' = ⟨counter, ⟨-eNoMem, [], 0⟩, []⟩ := if_pos hkmalloc
    rw [hw, hw']
    exact ⟨rfl, rfl, rfl, iff_of_true rfl fun h => absurd h hkmalloc⟩

/-- One call of each. -/
theorem step_match {u : Machine} {s s' : TpIV02.State} {t t' : TpIV03.HeapState} {a : Act}
    {out out' : List Record} (hsame : Same s t) (hstep : TpIV02.step u s a = some (s', out))
    (hstep' : TpIV03.heapStep u t a = some (t', out')) :
    Same s' t' ∧ ∃ r r', out = [r] ∧ out' = [r'] ∧ r.answer = r'.answer ∧ Freed r.heap ∧
      (Freed r'.heap ↔ a.Copies) := by
  obtain ⟨counter, calls⟩ := s
  obtain ⟨vars, calls'⟩ := t
  obtain ⟨hvars, hcalls⟩ := hsame
  cases hvars
  cases hcalls
  cases a with
  | read a =>
    cases hstep
    cases hstep'
    exact ⟨⟨rfl, rfl⟩, _, _, rfl, rfl, rfl, rfl, iff_of_true rfl trivial⟩
  | write a =>
    obtain ⟨hcounter, hreply, hfreed, hiff⟩ := write_match u.kstrtoint calls counter a
    cases hstep
    cases hstep'
    refine ⟨⟨?_, rfl⟩, _, _, rfl, rfl, Prod.ext hreply hcounter, hfreed, hiff⟩
    rw [hcounter]

/-- A run of each. -/
theorem run_match {u : Machine} {acts : List Act} {s s' : TpIV02.State} {t t' : TpIV03.HeapState}
    {h h' : List Record} (hsame : Same s t) (hrun : (TpIV02.system u).exec s acts = some (s', h))
    (hrun' : (TpIV03.heapSystem u).exec t acts = some (t', h')) :
    h.map Record.answer = h'.map Record.answer ∧ (∀ r ∈ h, Freed r.heap) ∧
      ((∀ r ∈ h', Freed r.heap) ↔ ∀ a ∈ acts, a.Copies) := by
  induction acts generalizing s t h h' with
  | nil =>
    cases hrun
    cases hrun'
    simp
  | cons a acts ih =>
    obtain ⟨s₁, out, outs, hstep, hrest, rfl⟩ := System.exec_cons.1 hrun
    obtain ⟨t₁, out', outs', hstep', hrest', rfl⟩ := System.exec_cons.1 hrun'
    obtain ⟨hsame₁, r, r', rfl, rfl, hanswer, hfreed, hiff⟩ := step_match hsame hstep hstep'
    obtain ⟨hanswers, hall, hiffs⟩ := ih hsame₁ hrest hrest'
    refine ⟨?_, ?_, ?_⟩
    · rw [List.singleton_append, List.singleton_append, List.map_cons, List.map_cons, hanswer,
        hanswers]
    · rw [List.singleton_append, List.forall_mem_cons]
      exact ⟨hfreed, hall⟩
    · rw [List.singleton_append, List.forall_mem_cons, List.forall_mem_cons, hiff, hiffs]

/-- **What `tp-IV-03` changes**: in every run of reads and writes, with any texts, offsets and
failures, the two versions return the same values and texts and have the same counter after each
call; `tp-IV-02` leaves no buffer after any call, and `tp-IV-03` leaves none exactly when the copy
from the user succeeds in every write that has been given its buffer. -/
theorem versions_agree {u : Machine} {acts : List Act} {s : TpIV02.State} {t : TpIV03.HeapState}
    {h h' : List Record} (hrun : (TpIV02.system u).exec TpIV02.init acts = some (s, h))
    (hrun' : (TpIV03.heapSystem u).exec TpIV03.heapInit acts = some (t, h')) :
    h.map Record.answer = h'.map Record.answer ∧ NoneLive h ∧
      (NoneLive h' ↔ ∀ a ∈ acts, a.Copies) := by
  obtain ⟨hanswers, hall, hiff⟩ := run_match ⟨rfl, rfl⟩ hrun hrun'
  exact ⟨hanswers, noneLive_iff.2 hall, noneLive_iff.trans hiff⟩

/-- A machine of 64 bits. -/
def exampleMachine : Machine := ⟨.lp64, kstrtoint⟩

/-- The counter is read, set to 7 and read to the end. -/
def setAndRead : List Act :=
  [.read ⟨0, 20, 20, fun _ => 0⟩, .write ⟨[55, 10], true, 2⟩, .read ⟨12, 20, 20, fun _ => 0⟩]

theorem versions_agree_setAndRead :
    ∃ s t h h', (TpIV02.system exampleMachine).exec TpIV02.init setAndRead = some (s, h) ∧
      (TpIV03.heapSystem exampleMachine).exec TpIV03.heapInit setAndRead = some (t, h') ∧
      h.map Record.counter = [0, 7, 8] ∧ h.map Record.answer = h'.map Record.answer ∧
      NoneLive h ∧ NoneLive h' := by
  obtain ⟨⟨s, h⟩, hrun, hval⟩ := Option.map_eq_some_iff.1
    (show ((TpIV02.system exampleMachine).exec TpIV02.init setAndRead).map
        (fun r => r.2.map Record.counter) = some [0, 7, 8] by decide +kernel)
  obtain ⟨⟨t, h'⟩, hrun', -⟩ := Option.map_eq_some_iff.1
    (show ((TpIV03.heapSystem exampleMachine).exec TpIV03.heapInit setAndRead).map
        (fun r => r.2.map Record.counter) = some [0, 7, 8] by decide +kernel)
  obtain ⟨hanswers, hnone, hiff⟩ := versions_agree hrun hrun'
  exact ⟨s, t, h, h', hrun, hrun', hval, hanswers, hnone, hiff.2 (by decide)⟩

/-- A write from a page that is not mapped. -/
theorem faulting_write_leaks :
    ¬ ∀ (acts : List Act) (t : TpIV03.HeapState) (h : List Record),
      (TpIV03.heapSystem exampleMachine).exec TpIV03.heapInit acts = some (t, h) → NoneLive h := by
  intro hall
  have hrun : (TpIV03.heapSystem exampleMachine).exec TpIV03.heapInit [.write ⟨[55], true, 0⟩] =
      some (⟨⟨0, 1⟩, 1⟩, [⟨⟨-eFault, [], 0⟩, 0, [.acquire 0]⟩]) := rfl
  have hfreed := noneLive_iff.1 (hall _ _ _ hrun) _ (List.mem_singleton_self _)
  exact not_freed_acquire 0 hfreed

end Versions

end IldDrivers.Counters
