import IldDrivers.Kernel
import IldDrivers.Lib.Mutex
import IldDrivers.Lib.Transition
import Mathlib.Logic.Function.Basic
import Mathlib.Tactic

/-!
# Collisions on a shared variable (`example-IV-07`, `example-IV-08`)

A read stores the number of its process in a global variable, lets ten ticks of the clock pass,
during which other processes run, and tells by a character whether the number is still there: a dot
if it is, a hash sign if another process has stored its own. `example-IV-08` is `example-IV-07` with
a mutex around that.

* `step`: the statements of the reads of any number of processes, in any order;
* `Kept`: whoever is between the lock and the unlock holds the mutex, and the number that it has
  stored is in the variable;
* `Event.Right`: what is expected of an unlock and of the end of a call;
* `events_right`: with the mutex, every character copied is a dot, and whoever returns has released
  the mutex.
-/

namespace IldDrivers.ExampleIV

/-! ### The programs -/

inductive Program
  | iv07
  | iv08

/-- The statement that a process has come to in `example_read`, with the length that has been asked
for, and in the end the character. -/
inductive Pc
  | idle
  | lock (length : ℕ)
  | setPid (length : ℕ)
  | setDelay (length : ℕ)
  | loop (length : ℕ) (delay : ℤ)
  | compare (length : ℕ)
  | unlock (length : ℕ) (c : UInt8)
  | reply (length : ℕ) (c : UInt8)

/-- What does not change: the program, the machine, and the numbers of the processes. -/
structure Setup (K : Type*) where
  program : Program
  abi : Abi
  pid : K → ℤ

structure State (K : Type*) where
  currentPid : ℤ
  /-- `mtx_current_pid`. -/
  mutex : Option K
  jiffies : ℤ
  pc : K → Pc

inductive Act (K : Type*)
  /-- A process calls `read` with this length. -/
  | call (k : K) (length : ℕ)
  /-- A signal ends the wait for the mutex. -/
  | signal (k : K)
  /-- A process executes a statement; this is how many bytes can be copied to it. -/
  | run (k : K) (copied : ℕ)
  | tick

inductive Event (K : Type*)
  /-- A process unlocks the mutex, which is in this state. -/
  | unlocked (k : K) (mutex : Option K)
  /-- A call returns, with the bytes that it has copied, and leaves the mutex in this state. -/
  | returned (k : K) (ret : ℤ) (bytes : List UInt8) (mutex : Option K)
  deriving DecidableEq

/-- `"."`. -/
def dot : UInt8 := 46

/-- `"#"`. -/
def hash : UInt8 := 35

/-- `unsigned long`. -/
def ulong (abi : Abi) (x : ℤ) : ℤ := x % 2 ^ abi.longBits

/-- `time_before`. -/
def timeBefore (abi : Abi) (x y : ℤ) : Prop := abi.ssize (x - y) < 0

instance (abi : Abi) (x y : ℤ) : Decidable (timeBefore abi x y) := inferInstanceAs (Decidable (_ < _))

/-- The end of `example_read`: what is returned, and the bytes that are copied. -/
def answer (length : ℕ) (c : UInt8) (copied : ℕ) : ℤ × List UInt8 :=
  if length < 2 then (-eNoMem, [])
  else
    let (bytes, left) := copyToUser [c, 0] copied
    if left ≠ 0 then (-eFault, bytes) else (1, bytes)

section Steps

variable {K : Type*} [DecidableEq K]

def State.setPc (s : State K) (k : K) (p : Pc) : State K :=
  { s with pc := Function.update s.pc k p }

/-- The first statement. -/
def Program.entry : Program → ℕ → Pc
  | .iv07, length => .setPid length
  | .iv08, length => .lock length

/-- The statement after the comparison. -/
def Program.leave : Program → ℕ → UInt8 → Pc
  | .iv07, length, c => .reply length c
  | .iv08, length, c => .unlock length c

/-- The statement that a process has come to. -/
def runPc (u : Setup K) (s : State K) (k : K) (copied : ℕ) :
    Pc → Option (State K × List (Event K))
  | .idle => none
  | .lock length =>
      if s.mutex = none then some ({ s.setPc k (.setPid length) with mutex := some k }, []) else none
  | .setPid length => some ({ s.setPc k (.setDelay length) with currentPid := u.pid k }, [])
  | .setDelay length => some (s.setPc k (.loop length (ulong u.abi (s.jiffies + 10))), [])
  | .loop length delay =>
      -- `schedule`: the process stays in the loop, and any other may run
      if timeBefore u.abi s.jiffies delay then some (s, [])
      else some (s.setPc k (.compare length), [])
  | .compare length =>
      let c := if s.currentPid = u.pid k then dot else hash
      some (s.setPc k (u.program.leave length c), [])
  | .unlock length c =>
      some ({ s.setPc k (.reply length c) with mutex := none }, [.unlocked k s.mutex])
  | .reply length c =>
      let (ret, bytes) := answer length c copied
      some (s.setPc k .idle, [.returned k ret bytes s.mutex])

def step (u : Setup K) (s : State K) : Act K → Option (State K × List (Event K))
  | .call k length =>
      match s.pc k with
      | .idle => some (s.setPc k (u.program.entry length), [])
      | _ => none
  | .signal k =>
      match s.pc k with
      | .lock _ => some (s.setPc k .idle, [.returned k (-eRestartSys) [] s.mutex])
      | _ => none
  | .run k copied => runPc u s k copied (s.pc k)
  | .tick => some ({ s with jiffies := ulong u.abi (s.jiffies + 1) }, [])

def system (u : Setup K) : System (State K) (Act K) (Event K) := ⟨step u⟩

end Steps

/-- The module has been loaded at this time. -/
def init (jiffies : ℤ) (K : Type*) : State K := ⟨0, none, jiffies, fun _ => .idle⟩

/-! ### What is expected -/

/-- A process unlocks a mutex that it holds; a call that returns has copied the dot, if anything, and
does not hold the mutex. -/
def Event.Right {K : Type*} : Event K → Prop
  | .unlocked k mutex => mutex = some k
  | .returned k _ bytes mutex => bytes <+: [dot, 0] ∧ mutex ≠ some k

/-! ### The invariant -/

/-- Between the lock and the unlock. -/
def Pc.Holding : Pc → Prop
  | .idle | .lock _ | .reply _ _ => False
  | .setPid _ | .setDelay _ | .loop _ _ | .compare _ | .unlock _ _ => True

/-- Between the store of the number and the comparison. -/
def Pc.Stored : Pc → Prop
  | .setDelay _ | .loop _ _ | .compare _ => True
  | .idle | .lock _ | .setPid _ | .unlock _ _ | .reply _ _ => False

/-- The character, once it has been chosen. -/
def Pc.char : Pc → Option UInt8
  | .unlock _ c => some c
  | .reply _ c => some c
  | .idle | .lock _ | .setPid _ | .setDelay _ | .loop _ _ | .compare _ => none

structure Kept {K : Type*} (u : Setup K) (s : State K) : Prop where
  holder : ∀ k, (s.pc k).Holding ↔ s.mutex = some k
  stored : ∀ k, (s.pc k).Stored → s.currentPid = u.pid k
  char : ∀ k c, (s.pc k).char = some c → c = dot

theorem Pc.Stored.holding {p : Pc} (h : p.Stored) : p.Holding := by
  cases p with
  | setDelay length => trivial
  | loop length delay => trivial
  | compare length => trivial
  | idle => exact h.elim
  | lock length => exact h.elim
  | setPid length => exact h.elim
  | unlock length c => exact h.elim
  | reply length c => exact h.elim

theorem Kept.excludes {K : Type*} {u : Setup K} {s : State K} (hk : Kept u s) :
    Excludes s.mutex fun j => (s.pc j).Holding :=
  fun j hj => (hk.holder j).1 hj

theorem kept_init {K : Type*} (u : Setup K) (jiffies : ℤ) : Kept u (init jiffies K) :=
  ⟨fun _ => iff_of_false id (fun h => by cases h), fun _ h => h.elim, fun _ _ h => by cases h⟩

section Protected

variable {K : Type*} [DecidableEq K] {u : Setup K} {s s' : State K} {k : K} {p : Pc}
  {out : List (Event K)}

/-- One process moves, and may change the mutex and the variable. -/
theorem Kept.move (hk : Kept u s) {currentPid jiffies : ℤ} {mutex : Option K}
    (hself : p.Holding ↔ mutex = some k) (hother : ∀ j, j ≠ k → (s.mutex = some j ↔ mutex = some j))
    (hstored : p.Stored → currentPid = u.pid k)
    (hothers : ∀ j, j ≠ k → (s.pc j).Stored → currentPid = u.pid j)
    (hchar : ∀ c, p.char = some c → c = dot) :
    Kept u ⟨currentPid, mutex, jiffies, Function.update s.pc k p⟩ where
  holder := (Function.forall_update_iff s.pc fun j q => q.Holding ↔ mutex = some j).2
    ⟨hself, fun j hj => (hk.holder j).trans (hother j hj)⟩
  stored := (Function.forall_update_iff s.pc fun j q => q.Stored → currentPid = u.pid j).2
    ⟨hstored, hothers⟩
  char := (Function.forall_update_iff s.pc fun _ q => ∀ c, q.char = some c → c = dot).2
    ⟨hchar, fun j _ => hk.char j⟩

/-- One process moves, and changes nothing else. -/
theorem Kept.setPc (hk : Kept u s) (hself : p.Holding ↔ (s.pc k).Holding)
    (hstored : p.Stored → s.currentPid = u.pid k) (hchar : ∀ c, p.char = some c → c = dot) :
    Kept u (s.setPc k p) :=
  hk.move (hself.trans (hk.holder k)) (fun _ _ => Iff.rfl) hstored (fun j _ => hk.stored j) hchar

/-- What is copied of a dot. -/
theorem answer_dot (length copied : ℕ) : (answer length dot copied).2 <+: [dot, 0] := by
  by_cases hshort : length < 2
  · rw [answer, if_pos hshort]
    exact List.nil_prefix
  · rw [answer, if_neg hshort]
    show (if (copyToUser [dot, 0] copied).2 ≠ 0 then (-eFault, (copyToUser [dot, 0] copied).1)
      else (1, (copyToUser [dot, 0] copied).1)).2 <+: [dot, 0]
    rw [apply_ite Prod.snd, ite_self]
    exact List.take_prefix _ _

/-- A statement of a process. -/
theorem kept_runPc (hprogram : u.program = .iv08) (hk : Kept u s) {copied : ℕ}
    (hstep : runPc u s k copied (s.pc k) = some (s', out)) :
    Kept u s' ∧ ∀ e ∈ out, e.Right := by
  have hholder := hk.holder k
  have hchar := hk.char k
  have hstored := hk.stored k
  cases hpc : s.pc k with
  | idle =>
    rw [hpc] at hstep
    cases hstep
  | lock length =>
    rw [hpc] at hstep
    simp only [runPc] at hstep
    split_ifs at hstep with hfree
    cases hstep
    refine ⟨hk.move (iff_of_true trivial rfl) (fun j hj => ?_) (fun h => h.elim)
      (fun j _ => hk.stored j) (fun _ h => by cases h), fun _ he => by cases he⟩
    rw [hfree]
    exact iff_of_false (fun h => by cases h) fun h => hj (Option.some.inj h).symm
  | setPid length =>
    rw [hpc] at hstep hholder
    cases hstep
    have hmine : s.mutex = some k := hholder.1 trivial
    refine ⟨hk.move (iff_of_true trivial hmine) (fun _ _ => Iff.rfl) (fun _ => rfl)
      (fun j hj hst => ?_) (fun _ h => by cases h), fun _ he => by cases he⟩
    -- nobody else is between the store and the comparison
    exact absurd (Option.some.inj (((hk.holder j).1 hst.holding).symm.trans hmine)) hj
  | setDelay length =>
    rw [hpc] at hstep hstored
    cases hstep
    exact ⟨hk.setPc (by rw [hpc]; exact Iff.rfl) (fun _ => hstored trivial) (fun _ h => by cases h),
      fun _ he => by cases he⟩
  | loop length delay =>
    rw [hpc] at hstep hstored
    simp only [runPc] at hstep
    split_ifs at hstep
    · cases hstep
      exact ⟨hk, fun _ he => by cases he⟩
    · cases hstep
      exact ⟨hk.setPc (by rw [hpc]; exact Iff.rfl) (fun _ => hstored trivial)
        (fun _ h => by cases h), fun _ he => by cases he⟩
  | compare length =>
    rw [hpc] at hstep hstored
    simp only [runPc, hprogram, Program.leave, if_pos (hstored trivial)] at hstep
    cases hstep
    exact ⟨hk.setPc (by rw [hpc]; exact Iff.rfl) (fun h => h.elim)
      (fun c hc => (Option.some.inj hc).symm), fun _ he => by cases he⟩
  | unlock length c =>
    rw [hpc] at hstep hholder hchar
    cases hstep
    have hmine : s.mutex = some k := hholder.1 trivial
    refine ⟨hk.move (iff_of_false id fun h => by cases h) (fun j hj => ?_) (fun h => h.elim)
      (fun j hj hst => hk.stored j hst) hchar, fun e he => ?_⟩
    · rw [hmine]
      exact iff_of_false (fun h => hj (Option.some.inj h).symm) fun h => by cases h
    · rw [List.mem_singleton.1 he]
      exact hmine
  | reply length c =>
    rw [hpc] at hstep hholder hchar
    obtain rfl : c = dot := hchar c rfl
    cases hstep
    refine ⟨hk.setPc (by rw [hpc]; exact Iff.rfl) (fun h => h.elim) (fun _ h => by cases h),
      fun e he => ?_⟩
    rw [List.mem_singleton.1 he]
    exact ⟨answer_dot length copied, fun h => hholder.2 h⟩

theorem kept_step (hprogram : u.program = .iv08) (hk : Kept u s) {a : Act K}
    (hstep : step u s a = some (s', out)) : Kept u s' ∧ ∀ e ∈ out, e.Right := by
  cases a with
  | call k length =>
    simp only [step] at hstep
    cases hpc : s.pc k with
    | idle =>
      rw [hpc, hprogram] at hstep
      cases hstep
      exact ⟨hk.setPc (by rw [hpc]; exact Iff.rfl) (fun h => h.elim) (fun _ h => by cases h),
        fun _ he => by cases he⟩
    | lock | setPid | setDelay | loop | compare | unlock | reply =>
      rw [hpc] at hstep
      cases hstep
  | signal k =>
    simp only [step] at hstep
    have hholder := hk.holder k
    cases hpc : s.pc k with
    | lock length =>
      rw [hpc] at hstep hholder
      cases hstep
      refine ⟨hk.setPc (by rw [hpc]; exact Iff.rfl) (fun h => h.elim) (fun _ h => by cases h),
        fun e he => ?_⟩
      rw [List.mem_singleton.1 he]
      exact ⟨List.nil_prefix, fun h => hholder.2 h⟩
    | idle | setPid | setDelay | loop | compare | unlock | reply =>
      rw [hpc] at hstep
      cases hstep
  | run k copied => exact kept_runPc hprogram hk hstep
  | tick =>
    cases hstep
    exact ⟨⟨hk.holder, hk.stored, hk.char⟩, fun _ he => by cases he⟩

/-- **No collisions**: in every run of `example-IV-08`, with any number of processes that read any
number of times, every byte string copied to a process is a dot or the beginning of one, the mutex is
unlocked by the process that holds it, and no call returns while its process holds it. -/
theorem events_right (hprogram : u.program = .iv08) {jiffies : ℤ} {acts : List (Act K)}
    {log : List (Event K)} (hrun : (system u).exec (init jiffies K) acts = some (s, log)) :
    ∀ e ∈ log, e.Right := by
  have hinv := System.exec_induction (S := system u)
    (I := fun s log => Kept u s ∧ ∀ e ∈ log, e.Right)
    (fun t before a t' out hI hstep => ?_) ⟨kept_init u jiffies, fun _ he => by cases he⟩ hrun
  · exact hinv.2
  obtain ⟨hk, hright⟩ := kept_step hprogram hI.1 hstep
  exact ⟨hk, fun e he => (List.mem_append.1 he).elim (hI.2 e) (hright e)⟩

end Protected

/-- Two processes, whose numbers are 1 and 2, on a machine of 64 bits. -/
def twoProcesses (program : Program) : Setup Bool := ⟨program, .lp64, fun k => if k then 1 else 2⟩

/-- Both processes read. The first one stores its number, and the second one does so too if it can,
before ten ticks have passed and the first one goes on. -/
def bothRead (second : List (Act Bool)) (first : ℕ) : List (Act Bool) :=
  [.call true 2, .call false 2, .run true 0, .run true 0] ++ second ++ [.run true 0] ++
    List.replicate 10 .tick ++ List.replicate first (.run true 2)

theorem events_right_bothRead :
    ∃ s log, (system (twoProcesses .iv08)).exec (init 0 Bool) (bothRead [.signal false] 4) =
        some (s, log) ∧
      log = [.returned false (-eRestartSys) [] (some true), .unlocked true (some true),
        .returned true 1 [dot, 0] none] ∧ ∀ e ∈ log, e.Right := by
  obtain ⟨⟨s, log⟩, hrun, hval⟩ := Option.map_eq_some_iff.1
    (show ((system (twoProcesses .iv08)).exec (init 0 Bool) (bothRead [.signal false] 4)).map
        Prod.snd = some [.returned false (-eRestartSys) [] (some true), .unlocked true (some true),
          .returned true 1 [dot, 0] none] by decide +kernel)
  exact ⟨s, log, hrun, hval, events_right rfl hrun⟩

-- without the mutex, the first process finds the number of the second one
example :
    ((system (twoProcesses .iv07)).exec (init 0 Bool)
      (bothRead [.run false 0, .run false 0] 3)).map Prod.snd =
      some [.returned true 1 [hash, 0] none] := by decide +kernel

end IldDrivers.ExampleIV
