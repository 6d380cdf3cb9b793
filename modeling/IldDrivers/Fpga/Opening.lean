import IldDrivers.Fpga.Files
import IldDrivers.Lib.Mutex
import Mathlib.Data.Set.Card

/-!
# The exclusive open of `example-fpga`

Any number of processes open and close the nodes of the devices at once. `example_fpga_open` and
`example_fpga_release` look at `module_open` and change it between a lock of the device's mutex and an
unlock; everything in between is one step here.

* `Opening.system`: calls begun, locks taken, critical sections, calls that return;
* `Opening.Inv`: the invariant, with `Counted`, what a counter says of the files open on its minor;
* `Opening.exclusive_open`: a minor is open at most once, a failed open changes nothing, and an open
  is refused only on account of its own minor.
-/

namespace IldDrivers.ExampleFpga.Opening

variable {Dev File Proc : Type*}

/-- A call, with what it finds before it locks the mutex: `release` follows `filp->private_data`, the
structure of its file, to the device `n`. -/
inductive Call (File : Type*)
  | openFile (f : File) (n : ℕ) (i : Minor)
  | release (f : File) (o : Files.OpenFile) (n : ℕ)

def Call.file : Call File → File
  | .openFile f _ _ => f
  | .release f _ _ => f

def Call.device : Call File → ℕ
  | .openFile _ n _ => n
  | .release _ _ n => n

inductive Pc
  /-- `mutex_lock`. -/
  | lock
  /-- Behind it. -/
  | inside
  /-- Behind `mutex_unlock`. -/
  | ret (r : ℤ)

structure State (Dev File Proc : Type*) where
  files : Files.State Dev File
  /-- The holder of `mtx_open` of each device. -/
  mtxOpen : ℕ → Option Proc
  call : Proc → Option (Call File × Pc)
  /-- A call on the file is in progress. -/
  busy : File → Bool

inductive Act (File Proc : Type*)
  /-- The process opens a node of the device `n`. -/
  | openFile (p : Proc) (f : File) (n : ℕ) (i : Minor)
  /-- The last reference to the open file goes. -/
  | release (p : Proc) (f : File)
  | lock (p : Proc)
  /-- What stands between the lock and the unlock, with what `kmalloc` returns. -/
  | inside (p : Proc) (kmalloc : Bool)
  | ret (p : Proc)

/-- The critical section of a call, and what the call is to return. -/
structure Section (File Proc : Type*) where
  proc : Proc
  call : Call File
  ret : ℤ

variable [DecidableEq File] [DecidableEq Proc]

def State.unlock (s : State Dev File Proc) (n : ℕ) : State Dev File Proc :=
  { s with mtxOpen := Function.update s.mtxOpen n none }

/-- `example_fpga_open`, once it holds the mutex. -/
def openSection (s : State Dev File Proc) (f : File) (n : ℕ) (i : Minor) (kmalloc : Bool) :
    State Dev File Proc × ℤ :=
  if s.files.moduleOpen n i ≠ 0 then (s.unlock n, -eBusy)
  else if ¬ kmalloc then (s.unlock n, -eNoMem)
  else ({ s with files := s.files.opened f n i }.unlock n, 0)

/-- `example_fpga_release`, once it holds the mutex. -/
def releaseSection (s : State Dev File Proc) (f : File) (o : Files.OpenFile) (n : ℕ) :
    State Dev File Proc × ℤ :=
  ({ s with files := { s.files with
      file := Function.update s.files.file f none
      moduleOpen := Function.update s.files.moduleOpen n
        (Function.update (s.files.moduleOpen n) o.minor (s.files.moduleOpen n o.minor - 1)) }
    }.unlock n, 0)

/-- The critical section of a call. -/
def Call.inside (s : State Dev File Proc) (kmalloc : Bool) : Call File → State Dev File Proc × ℤ
  | .openFile f n i => openSection s f n i kmalloc
  | .release f o n => releaseSection s f o n

def State.setCall (s : State Dev File Proc) (p : Proc) (x : Option (Call File × Pc)) :
    State Dev File Proc :=
  { s with call := Function.update s.call p x }

/-- The process begins a call. -/
def State.start (s : State Dev File Proc) (p : Proc) (c : Call File) : State Dev File Proc :=
  { s with busy := Function.update s.busy c.file true }.setCall p (some (c, .lock))

def step (s : State Dev File Proc) :
    Act File Proc → Option (State Dev File Proc × List (Section File Proc))
  | .openFile p f n i =>
      if (s.call p).isNone ∧ s.busy f = false ∧ s.files.file f = none ∧
          0 < s.files.held (n, .cdev) then
        some (s.start p (.openFile f n i), [])
      else none
  | .release p f =>
      if (s.call p).isNone ∧ s.busy f = false then
        (s.files.file f).map fun o =>
          (s.start p (.release f o (s.files.filePrivate o.privateData).fpga), [])
      else none
  | .lock p =>
      match s.call p with
      | some (c, .lock) =>
          if (s.mtxOpen c.device).isNone then
            some ({ s with mtxOpen := Function.update s.mtxOpen c.device (some p) }.setCall p
              (some (c, .inside)), [])
          else none
      | _ => none
  | .inside p kmalloc =>
      match s.call p with
      | some (c, .inside) =>
          let r := c.inside s kmalloc
          some (r.1.setCall p (some (c, .ret r.2)), [⟨p, c, r.2⟩])
      | _ => none
  | .ret p =>
      match s.call p with
      | some (c, .ret _) =>
          some ({ s with busy := Function.update s.busy c.file false }.setCall p none, [])
      | _ => none

/-- The processes that use the devices. -/
def system (Dev File Proc : Type*) [DecidableEq File] [DecidableEq Proc] :
    System (State Dev File Proc) (Act File Proc) (Section File Proc) := ⟨step⟩

/-- No process is in a call. -/
def init (Proc : Type*) (t : Files.State Dev File) : State Dev File Proc :=
  ⟨t, fun _ => none, fun _ => none, fun _ => false⟩

omit [DecidableEq Proc] in
/-- The critical section does to the files and the counters what `Files.openFile` does. -/
theorem openSection_eq (s : State Dev File Proc) (f : File) (n : ℕ) (i : Minor) (kmalloc : Bool) :
    openSection s f n i kmalloc =
      ({ s with files := (Files.openFile s.files f n i kmalloc).1 }.unlock n,
        (Files.openFile s.files f n i kmalloc).2) := by
  unfold openSection Files.openFile
  split_ifs <;> rfl

/-! ### What is expected -/

/-- The files open on the minor `i` of the device `n`. -/
def openOn (t : Files.State Dev File) (n : ℕ) (i : Minor) : Set File :=
  {f | ∃ o, t.file f = some o ∧ o.cdev = n ∧ o.minor = i}

/-- A counter that counts the files of a set which has one at most. -/
def Counted (k : ℤ) (S : Set File) : Prop := (k = 0 ∧ S = ∅) ∨ (k = 1 ∧ ∃ f, S = {f})

omit [DecidableEq File] in
theorem Counted.ncard {k : ℤ} {S : Set File} (h : Counted k S) : k = S.ncard := by
  rcases h with ⟨rfl, rfl⟩ | ⟨rfl, f, rfl⟩
  · simp
  · simp

omit [DecidableEq File] in
theorem Counted.eq_zero_iff {k : ℤ} {S : Set File} (h : Counted k S) : k = 0 ↔ S = ∅ := by
  rcases h with ⟨rfl, rfl⟩ | ⟨rfl, f, rfl⟩
  · simp
  · simp

omit [DecidableEq File] in
theorem Counted.insert {S : Set File} (h : Counted 0 S) (f : File) : Counted 1 (Insert.insert f S) := by
  rw [h.eq_zero_iff.1 rfl]
  exact .inr ⟨rfl, f, insert_empty_eq f⟩

omit [DecidableEq File] in
theorem Counted.erase {k : ℤ} {S : Set File} (h : Counted k S) {f : File} (hf : f ∈ S) :
    Counted (k - 1) (S \ {f}) := by
  rcases h with ⟨-, rfl⟩ | ⟨rfl, g, rfl⟩
  · exact absurd hf (Set.notMem_empty f)
  · obtain rfl : f = g := hf
    exact .inl ⟨rfl, Set.sdiff_self⟩

/-- What a call has found before its critical section. -/
def Call.Found (t : Files.State Dev File) : Call File → Prop
  | .openFile f _ _ => t.file f = none
  | .release f o n => t.file f = some o ∧ n = (t.filePrivate o.privateData).fpga

/-- Before the end of its critical section. -/
def Pc.before : Pc → Bool
  | .lock => true
  | .inside => true
  | .ret _ => false

/-- The invariant of the files: the structure of each names its device and its minor, and the
counters count them. -/
structure FilesInv (t : Files.State Dev File) : Prop where
  filePrivate : ∀ f o, t.file f = some o →
    o.privateData < t.allocated ∧ t.filePrivate o.privateData = ⟨o.cdev, o.minor⟩
  counted : ∀ n i, Counted (t.moduleOpen n i) (openOn t n i)

/-- The invariant of the calls and the files. -/
structure Inv (s : State Dev File Proc) : Prop where
  files : FilesInv s.files
  holder : ∀ n p, s.mtxOpen n = some p ↔ ∃ c, s.call p = some (c, .inside) ∧ c.device = n
  busy : ∀ p c pc, s.call p = some (c, pc) → s.busy c.file = true
  /-- At most one call in progress is about a file. -/
  distinct : ∀ p q c d pc pc', s.call p = some (c, pc) → s.call q = some (d, pc') →
    c.file = d.file → p = q
  found : ∀ p c pc, s.call p = some (c, pc) → pc.before = true → c.Found s.files

omit [DecidableEq File] [DecidableEq Proc] in
theorem inv_init {t : Files.State Dev File} (hfile : ∀ f, t.file f = none)
    (hcount : ∀ n i, t.moduleOpen n i = 0) : Inv (init Proc t) where
  files :=
    { filePrivate := fun f o h => by
        rw [show (init Proc t).files.file f = none from hfile f] at h
        cases h
      counted := fun n i => .inl ⟨hcount n i, Set.eq_empty_iff_forall_notMem.2 fun f ⟨o, ho, _⟩ => by
        rw [show (init Proc t).files.file f = none from hfile f] at ho
        cases ho⟩ }
  holder n p := by simp [init]
  busy p c pc h := by cases h
  distinct p q c d pc pc' h := by cases h
  found p c pc h := by cases h

/-! ### The steps -/

/-- What a step can be. -/
inductive Stepped (s : State Dev File Proc) :
    State Dev File Proc → List (Section File Proc) → Prop
  | start (p : Proc) (c : Call File) (hp : s.call p = none) (hbusy : s.busy c.file = false)
      (hfound : c.Found s.files) : Stepped s (s.start p c) []
  | lock (p : Proc) (c : Call File) (hp : s.call p = some (c, .lock))
      (hfree : s.mtxOpen c.device = none) :
      Stepped s ({ s with mtxOpen := Function.update s.mtxOpen c.device (some p) }.setCall p
        (some (c, .inside))) []
  | inside (p : Proc) (c : Call File) (kmalloc : Bool) (hp : s.call p = some (c, .inside)) :
      Stepped s ((c.inside s kmalloc).1.setCall p (some (c, .ret (c.inside s kmalloc).2)))
        [⟨p, c, (c.inside s kmalloc).2⟩]
  | ret (p : Proc) (c : Call File) (r : ℤ) (hp : s.call p = some (c, .ret r)) :
      Stepped s ({ s with busy := Function.update s.busy c.file false }.setCall p none) []

theorem stepped_of_step {s s' : State Dev File Proc} {a : Act File Proc}
    {out : List (Section File Proc)} (hstep : step s a = some (s', out)) : Stepped s s' out := by
  cases a with
  | openFile p f n i =>
    simp only [step] at hstep
    split_ifs at hstep with h
    cases hstep
    exact .start p _ (Option.isNone_iff_eq_none.1 h.1) h.2.1 h.2.2.1
  | release p f =>
    simp only [step] at hstep
    split_ifs at hstep with h
    obtain ⟨o, ho, heq⟩ := Option.map_eq_some_iff.1 hstep
    cases heq
    exact .start p _ (Option.isNone_iff_eq_none.1 h.1) h.2 ⟨ho, rfl⟩
  | lock p =>
    simp only [step] at hstep
    split at hstep
    · next c hp =>
      split_ifs at hstep with hfree
      cases hstep
      exact .lock p c hp (Option.isNone_iff_eq_none.1 hfree)
    · cases hstep
  | inside p kmalloc =>
    simp only [step] at hstep
    split at hstep
    · next c hp =>
      cases hstep
      exact .inside p c kmalloc hp
    · cases hstep
  | ret p =>
    simp only [step] at hstep
    split at hstep
    · next c r hp =>
      cases hstep
      exact .ret p c r hp
    · cases hstep

/-- What the critical section of a call does to the files, and what it makes the call return. -/
inductive Sectioned (t : Files.State Dev File) : Call File → Files.State Dev File → ℤ → Prop
  | busy (f : File) (n : ℕ) (i : Minor) (h : t.moduleOpen n i ≠ 0) :
      Sectioned t (.openFile f n i) t (-eBusy)
  | noMem (f : File) (n : ℕ) (i : Minor) (h : t.moduleOpen n i = 0) :
      Sectioned t (.openFile f n i) t (-eNoMem)
  | opened (f : File) (n : ℕ) (i : Minor) (h : t.moduleOpen n i = 0) :
      Sectioned t (.openFile f n i) (t.opened f n i) 0
  | released (f : File) (o : Files.OpenFile) (n : ℕ) :
      Sectioned t (.release f o n)
        { t with
          file := Function.update t.file f none
          moduleOpen := Function.update t.moduleOpen n
            (Function.update (t.moduleOpen n) o.minor (t.moduleOpen n o.minor - 1)) } 0

variable {s : State Dev File Proc} {p : Proc} {c : Call File}

omit [DecidableEq Proc] in
/-- The critical section ends with the mutex free, on every path. -/
theorem inside_cases (s : State Dev File Proc) (c : Call File) (kmalloc : Bool) :
    ∃ t, (c.inside s kmalloc).1 = { s with files := t }.unlock c.device ∧
      Sectioned s.files c t (c.inside s kmalloc).2 := by
  cases c with
  | openFile f n i =>
    simp only [Call.inside, openSection]
    split_ifs with hcount hkmalloc
    · exact ⟨s.files, rfl, .busy f n i hcount⟩
    · exact ⟨_, rfl, .opened f n i (not_not.1 hcount)⟩
    · exact ⟨s.files, rfl, .noMem f n i (not_not.1 hcount)⟩
  | release f o n => exact ⟨_, rfl, .released f o n⟩

omit [DecidableEq File] [DecidableEq Proc] in
/-- One element of a table of tables is changed. -/
theorem update_update_apply (g : ℕ → Minor → ℤ) (n n' : ℕ) (i i' : Minor) (v : ℤ) :
    Function.update g n (Function.update (g n) i v) n' i' =
      if n' = n ∧ i' = i then v else g n' i' := by
  by_cases hn : n' = n
  · subst hn
    by_cases hi : i' = i
    · subst hi
      simp
    · simp [hi]
  · simp [hn]

omit [DecidableEq Proc] in
/-- A call that fails has changed nothing. -/
theorem Sectioned.eq_or {t t' : Files.State Dev File} {r : ℤ} (h : Sectioned t c t' r) :
    t' = t ∨ r = 0 := by
  cases h with
  | busy | noMem => exact .inl rfl
  | opened | released => exact .inr rfl

section Section

variable {t t' : Files.State Dev File} {f : File} {n : ℕ} {i : Minor}

omit [DecidableEq Proc] in
/-- A new file is open on its minor only. -/
theorem openOn_opened (h : t.file f = none) (n' : ℕ) (i' : Minor) :
    openOn (t.opened f n i) n' i' =
      if n' = n ∧ i' = i then insert f (openOn t n' i') else openOn t n' i' := by
  have hnew : ∀ n' i', f ∈ openOn (t.opened f n i) n' i' ↔ n' = n ∧ i' = i := by
    intro n' i'
    constructor
    · rintro ⟨o, ho, hn, hi⟩
      obtain rfl := Option.some.inj (Files.opened_file_self.symm.trans ho)
      exact ⟨hn.symm, hi.symm⟩
    · rintro ⟨rfl, rfl⟩
      exact ⟨_, Files.opened_file_self, rfl, rfl⟩
  have hold : ∀ g, g ≠ f → ∀ n' i', g ∈ openOn (t.opened f n i) n' i' ↔ g ∈ openOn t n' i' := by
    intro g hg n' i'
    unfold openOn
    rw [Set.mem_ofPred_eq, Set.mem_ofPred_eq, Files.opened_file_of_ne hg]
  have hnot : f ∉ openOn t n' i' := fun ⟨o, ho, _⟩ => by
    rw [h] at ho
    cases ho
  ext g
  by_cases hg : g = f
  · subst hg
    rw [hnew]
    split_ifs with hsame
    · simp [hsame]
    · simp [hsame, hnot]
  · rw [hold g hg]
    split_ifs
    · simp [hg]
    · rfl

omit [DecidableEq Proc] in
theorem Sectioned.filesInv {c : Call File} {r : ℤ} (h : Sectioned t c t' r) (ht : FilesInv t)
    (hfound : c.Found t) : FilesInv t' := by
  cases h with
  | busy | noMem => exact ht
  | opened f n i hzero =>
    have hf : t.file f = none := hfound
    constructor
    · intro g o hg
      by_cases hgf : g = f
      · subst hgf
        obtain rfl := Option.some.inj (Files.opened_file_self.symm.trans hg)
        exact ⟨Nat.lt_succ_self _, Files.opened_allocated.2⟩
      · rw [Files.opened_file_of_ne hgf] at hg
        obtain ⟨hlt, hprivate⟩ := ht.filePrivate g o hg
        exact ⟨hlt.trans (Nat.lt_succ_self _), (Files.opened_of_lt hlt).2.trans hprivate⟩
    · intro n' i'
      have hcount := ht.counted n' i'
      rw [openOn_opened hf, show (t.opened f n i).moduleOpen n' i' = _ from
        update_update_apply t.moduleOpen n n' i i' _]
      split_ifs with hsame
      · obtain ⟨rfl, rfl⟩ := hsame
        rw [hzero] at hcount ⊢
        exact hcount.insert f
      · exact hcount
  | released f o n =>
    obtain ⟨hf, hn⟩ := hfound
    rw [(ht.filePrivate f o hf).2] at hn
    simp only at hn
    subst hn
    have hopen : ∀ g o', Function.update t.file f none g = some o' ↔ g ≠ f ∧ t.file g = some o' := by
      intro g o'
      by_cases hgf : g = f
      · simp [hgf]
      · simp [hgf]
    have hrest : ∀ n' i', {g | ∃ o', Function.update t.file f none g = some o' ∧
        o'.cdev = n' ∧ o'.minor = i'} = openOn t n' i' \ {f} := by
      intro n' i'
      ext g
      simp only [hopen, Set.mem_ofPred_eq, Set.mem_sdiff, openOn, Set.mem_singleton_iff]
      tauto
    constructor
    · intro g o' hg
      exact ht.filePrivate g o' ((hopen g o').1 hg).2
    · intro n' i'
      have hcount := ht.counted n' i'
      have hgoal : Counted (if n' = o.cdev ∧ i' = o.minor then t.moduleOpen o.cdev o.minor - 1
          else t.moduleOpen n' i') (openOn t n' i' \ {f}) := by
        split_ifs with hsame
        · obtain ⟨rfl, rfl⟩ := hsame
          exact hcount.erase ⟨o, hf, rfl, rfl⟩
        · have hnot : f ∉ openOn t n' i' := by
            rintro ⟨o', ho', hn', hi'⟩
            obtain rfl := Option.some.inj (hf.symm.trans ho')
            exact hsame ⟨hn'.symm, hi'.symm⟩
          rwa [Set.sdiff_singleton_eq_self hnot]
      rw [← update_update_apply, ← hrest] at hgoal
      exact hgoal

end Section

omit [DecidableEq File] in
@[simp] theorem setCall_self (x : Option (Call File × Pc)) : (s.setCall p x).call p = x :=
  Function.update_self ..

omit [DecidableEq File] in
theorem setCall_of_ne {q : Proc} (h : q ≠ p) (x : Option (Call File × Pc)) :
    (s.setCall p x).call q = s.call q := Function.update_of_ne h ..

omit [DecidableEq File] in
/-- A process at `x` and the others as before. -/
theorem setCall_eq_some {q : Proc} {x : Option (Call File × Pc)} {y : Call File × Pc} :
    (s.setCall p x).call q = some y ↔ (q = p ∧ x = some y) ∨ (q ≠ p ∧ s.call q = some y) := by
  by_cases hq : q = p
  · subst hq
    simp
  · simp [setCall_of_ne hq, hq]

omit [DecidableEq File] in
/-- A process that is in no critical section of the device, before and after, is of no matter to its
mutex. -/
theorem inside_setCall {n : ℕ} {x : Option (Call File × Pc)}
    (hold : ∀ d, s.call p = some (d, .inside) → d.device ≠ n)
    (hnew : ∀ d, x = some (d, .inside) → d.device ≠ n) (q : Proc) :
    (∃ d, s.call q = some (d, .inside) ∧ d.device = n) ↔
      ∃ d, (s.setCall p x).call q = some (d, .inside) ∧ d.device = n := by
  refine exists_congr fun d => and_congr_left fun hn => ?_
  rw [setCall_eq_some]
  constructor
  · intro hd
    refine .inr ⟨fun hq => ?_, hd⟩
    rw [hq] at hd
    exact hold d hd hn
  · rintro (⟨-, hd⟩ | ⟨-, hd⟩)
    · exact absurd hn (hnew d hd)
    · exact hd

omit [DecidableEq Proc] in
/-- A critical section leaves what the other calls have found. -/
theorem Sectioned.found {t t' : Files.State Dev File} {d : Call File} {r : ℤ}
    (h : Sectioned t c t' r) (ht : FilesInv t) (hd : d.Found t) (hne : d.file ≠ c.file) :
    d.Found t' := by
  have hold : ∀ g o, g ≠ c.file → t.file g = some o → t'.file g = some o ∧
      (t'.filePrivate o.privateData).fpga = (t.filePrivate o.privateData).fpga := by
    intro g o hg ho
    cases h with
    | busy | noMem => exact ⟨ho, rfl⟩
    | opened f n i _ =>
      have hprivate := (Files.opened_of_lt (f := f) (n := n) (i := i) (ht.filePrivate g o ho).1).2
      exact ⟨(Files.opened_file_of_ne hg).trans ho, congrArg Files.FilePrivate.fpga hprivate⟩
    | released f _ n => exact ⟨(Function.update_of_ne hg ..).trans ho, rfl⟩
  cases d with
  | release g o n => exact ⟨(hold g o hne hd.1).1, hd.2.trans (hold g o hne hd.1).2.symm⟩
  | openFile g n i =>
    have hg : t.file g = none := hd
    cases h with
    | busy | noMem => exact hd
    | opened f n i _ => exact (Files.opened_file_of_ne hne).trans hg
    | released f _ n => exact (Function.update_of_ne hne ..).trans hg

theorem inv_start (hi : Inv s) (hp : s.call p = none) (hbusy : s.busy c.file = false)
    (hfound : c.Found s.files) : Inv (s.start p c) := by
  have hother : ∀ q d pc, s.call q = some (d, pc) → d.file ≠ c.file := by
    intro q d pc hq heq
    have hd := hi.busy q d pc hq
    rw [heq, hbusy] at hd
    cases hd
  constructor
  · exact hi.files
  · intro n q
    refine (hi.holder n q).trans (inside_setCall (fun d hd => ?_) (fun d hd => ?_) q)
    · rw [hp] at hd
      cases hd
    · cases hd
  · intro q d pc hq
    rcases setCall_eq_some.1 hq with ⟨-, heq⟩ | ⟨-, hq⟩
    · cases heq
      exact Function.update_self ..
    · exact (Function.update_of_ne (hother q d pc hq) ..).trans (hi.busy q d pc hq)
  · intro q r d e pc pc' hq hr hfile
    rcases setCall_eq_some.1 hq with ⟨hqp, heq⟩ | ⟨-, hold⟩
    · rcases setCall_eq_some.1 hr with ⟨hrp, -⟩ | ⟨-, hold⟩
      · exact hqp.trans hrp.symm
      · cases heq
        exact absurd hfile.symm (hother r e pc' hold)
    · rcases setCall_eq_some.1 hr with ⟨-, heq⟩ | ⟨-, hold'⟩
      · cases heq
        exact absurd hfile (hother q d pc hold)
      · exact hi.distinct q r d e pc pc' hold hold' hfile
  · intro q d pc hq hpc
    rcases setCall_eq_some.1 hq with ⟨-, heq⟩ | ⟨-, hq⟩
    · cases heq
      exact hfound
    · exact hi.found q d pc hq hpc

omit [DecidableEq File] in
/-- The process goes on in its call. -/
theorem call_of_setCall {pc pc₀ : Pc} (hp : s.call p = some (c, pc₀)) {q : Proc} {d : Call File}
    {pc' : Pc} (hq : (s.setCall p (some (c, pc))).call q = some (d, pc')) :
    ∃ pc'', s.call q = some (d, pc'') := by
  rcases setCall_eq_some.1 hq with ⟨rfl, heq⟩ | ⟨-, hq⟩
  · cases heq
    exact ⟨pc₀, hp⟩
  · exact ⟨pc', hq⟩

omit [DecidableEq File] in
theorem inv_lock (hi : Inv s) (hp : s.call p = some (c, .lock))
    (hfree : s.mtxOpen c.device = none) :
    Inv ({ s with mtxOpen := Function.update s.mtxOpen c.device (some p) }.setCall p
      (some (c, .inside))) where
  files := hi.files
  holder n q := by
    have hold := hi.holder n q
    by_cases hn : n = c.device
    · subst hn
      have hmutex : Function.update s.mtxOpen c.device (some p) c.device = some p :=
        Function.update_self ..
      refine (iff_of_eq (congrArg (· = some q) hmutex)).trans ?_
      simp only [setCall_eq_some]
      constructor
      · rintro heq
        exact ⟨c, .inl ⟨(Option.some.inj heq).symm, rfl⟩, rfl⟩
      · rintro ⟨d, ⟨hq, -⟩ | ⟨-, hd⟩, hdevice⟩
        · rw [hq]
        · have hheld := hold.2 ⟨d, hd, hdevice⟩
          rw [hfree] at hheld
          cases hheld
    · have hmutex : Function.update s.mtxOpen c.device (some p) n = s.mtxOpen n :=
        Function.update_of_ne hn ..
      refine (iff_of_eq (congrArg (· = some q) hmutex)).trans (hold.trans ?_)
      refine inside_setCall (fun d hd => ?_) (fun d hd => ?_) q
      · rw [hp] at hd
        cases hd
      · cases hd
        exact Ne.symm hn
  busy q d pc hq := by
    obtain ⟨pc', hold⟩ := call_of_setCall (s := s) hp hq
    exact hi.busy q d pc' hold
  distinct q r d e pc pc' hq hr hfile := by
    obtain ⟨_, hold⟩ := call_of_setCall (s := s) hp hq
    obtain ⟨_, hold'⟩ := call_of_setCall (s := s) hp hr
    exact hi.distinct q r d e _ _ hold hold' hfile
  found q d pc hq hpc := by
    rcases setCall_eq_some.1 hq with ⟨-, heq⟩ | ⟨-, hold⟩
    · cases heq
      exact hi.found p c .lock hp rfl
    · exact hi.found q d pc hold hpc

theorem inv_inside (hi : Inv s) (kmalloc : Bool) (hp : s.call p = some (c, .inside)) :
    Inv ((c.inside s kmalloc).1.setCall p (some (c, .ret (c.inside s kmalloc).2))) := by
  obtain ⟨t, heq, hsection⟩ := inside_cases s c kmalloc
  have hfound := hi.found p c .inside hp rfl
  rw [heq]
  constructor
  · exact hsection.filesInv hi.files hfound
  · intro n q
    have hold := hi.holder n q
    by_cases hn : n = c.device
    · subst hn
      have hmutex : Function.update s.mtxOpen c.device none c.device = none :=
        Function.update_self ..
      refine (iff_of_eq (congrArg (· = some q) hmutex)).trans ?_
      simp only [setCall_eq_some]
      constructor
      · intro hnone
        cases hnone
      · rintro ⟨d, ⟨-, hd⟩ | ⟨hq, hd⟩, hdevice⟩
        · cases hd
        · -- somebody else inside
          have hq' := hold.2 ⟨d, hd, hdevice⟩
          rw [(hi.holder c.device p).2 ⟨c, hp, rfl⟩] at hq'
          exact absurd (Option.some.inj hq').symm hq
    · have hmutex : Function.update s.mtxOpen c.device none n = s.mtxOpen n :=
        Function.update_of_ne hn ..
      refine (iff_of_eq (congrArg (· = some q) hmutex)).trans (hold.trans ?_)
      refine inside_setCall (fun d hd => ?_) (fun d hd => ?_) q
      · rw [hp] at hd
        cases hd
        exact Ne.symm hn
      · cases hd
  · intro q d pc hq
    obtain ⟨pc', hold⟩ := call_of_setCall (s := s) hp hq
    exact hi.busy q d pc' hold
  · intro q r d e pc pc' hq hr hfile
    obtain ⟨_, hold⟩ := call_of_setCall (s := s) hp hq
    obtain ⟨_, hold'⟩ := call_of_setCall (s := s) hp hr
    exact hi.distinct q r d e _ _ hold hold' hfile
  · intro q d pc hq hpc
    rcases setCall_eq_some.1 hq with ⟨-, hd⟩ | ⟨hne, hold⟩
    · cases hd
      cases hpc
    · have hold : s.call q = some (d, pc) := hold
      exact hsection.found hi.files (hi.found q d pc hold hpc) fun hfile =>
        hne (hi.distinct q p d c pc .inside hold hp hfile)

theorem inv_ret (hi : Inv s) {r : ℤ} (hp : s.call p = some (c, .ret r)) :
    Inv ({ s with busy := Function.update s.busy c.file false }.setCall p none) := by
  have hcalls : ∀ q d pc,
      ({ s with busy := Function.update s.busy c.file false }.setCall p none).call q =
        some (d, pc) → q ≠ p ∧ s.call q = some (d, pc) := by
    intro q d pc hq
    rcases setCall_eq_some.1 hq with ⟨-, heq⟩ | hold
    · cases heq
    · exact hold
  constructor
  · exact hi.files
  · intro n q
    refine (hi.holder n q).trans (inside_setCall (fun d hd => ?_) (fun d hd => ?_) q)
    · rw [hp] at hd
      cases hd
    · cases hd
  · intro q d pc hq
    obtain ⟨hne, hold⟩ := hcalls q d pc hq
    have hfile : d.file ≠ c.file := fun hfile => hne (hi.distinct q p d c _ _ hold hp hfile)
    exact (Function.update_of_ne hfile ..).trans (hi.busy q d pc hold)
  · intro q r d e pc pc' hq hr hfile
    exact hi.distinct q r d e pc pc' (hcalls q d pc hq).2 (hcalls r e pc' hr).2 hfile
  · intro q d pc hq hpc
    exact hi.found q d pc (hcalls q d pc hq).2 hpc

theorem inv_step {s' : State Dev File Proc} {a : Act File Proc} {out : List (Section File Proc)}
    (hi : Inv s) (hstep : step s a = some (s', out)) : Inv s' := by
  cases stepped_of_step hstep with
  | start p c hp hbusy hfound => exact inv_start hi hp hbusy hfound
  | lock p c hp hfree => exact inv_lock hi hp hfree
  | inside p c kmalloc hp => exact inv_inside hi kmalloc hp
  | ret p c r hp => exact inv_ret hi hp

/-! ### Every run -/

omit [DecidableEq Proc] in
/-- The critical section of an `open`, in terms of the files open on its minor. -/
theorem Inv.opens (hi : Inv s) {f : File} {n : ℕ} {i : Minor} {kmalloc : Bool}
    (hp : s.call p = some (.openFile f n i, .inside)) :
    let r := (Call.openFile f n i).inside s kmalloc
    r.1.mtxOpen n = none ∧ (r.2 = -eBusy ↔ (openOn s.files n i).Nonempty) ∧
      (r.2 < 0 → r.1.files = s.files) ∧ (r.2 = 0 → openOn r.1.files n i = {f}) ∧
      (r.2 = 0 ∨ r.2 = -eBusy ∨ r.2 = -eNoMem) := by
  intro r
  obtain ⟨t, heq, hsection⟩ := inside_cases s (.openFile f n i) kmalloc
  have hf : s.files.file f = none := hi.found p _ .inside hp rfl
  have hzero := (hi.files.counted n i).eq_zero_iff
  have hunlock : r.1.mtxOpen n = none := by
    rw [show r.1 = _ from heq]
    exact Function.update_self ..
  have hfiles : r.1.files = t := by rw [show r.1 = _ from heq]; rfl
  refine ⟨hunlock, ?_⟩
  rw [hfiles, Set.nonempty_iff_ne_empty, ne_eq, ← not_iff_not.2 hzero]
  change Sectioned s.files (.openFile f n i) t r.2 at hsection
  generalize r.2 = ret at hsection ⊢
  cases hsection with
  | busy _ _ _ h => simp [h, eBusy, eNoMem]
  | noMem _ _ _ h => simp [h, eBusy, eNoMem]
  | opened _ _ _ h =>
    have hopen : openOn (s.files.opened f n i) n i = {f} := by
      rw [openOn_opened hf, if_pos ⟨rfl, rfl⟩, hzero.1 h]
      exact insert_empty_eq f
    simp [h, eBusy, hopen]

/-- **The exclusive open**: in every state of a run of opens and releases by any processes, whatever
`kmalloc` returns, each counter of `module_open` is the number of files open on its minor and is 0 or
1, and a mutex is held by the process in a critical section of its device alone. The files and the
counters are changed only by critical sections that end in success; an `open` leaves the mutex free on
every path, fails with `-EBUSY` exactly when a file is open on the same minor of the same device, and
if it succeeds its file is the one open there. -/
theorem exclusive_open {t : Files.State Dev File} (hfile : ∀ f, t.file f = none)
    (hcount : ∀ n i, t.moduleOpen n i = 0) {acts : List (Act File Proc)}
    {s : State Dev File Proc} {log : List (Section File Proc)}
    (hrun : (system Dev File Proc).exec (init Proc t) acts = some (s, log)) :
    (∀ n i, Counted (s.files.moduleOpen n i) (openOn s.files n i) ∧
      s.files.moduleOpen n i = (openOn s.files n i).ncard) ∧
    (∀ n p, s.mtxOpen n = some p ↔ ∃ c, s.call p = some (c, .inside) ∧ c.device = n) ∧
    ∀ a s' out, step s a = some (s', out) →
      (s'.files = s.files ∨ ∃ p c, out = [⟨p, c, 0⟩]) ∧
      ∀ p f n i r, out = [⟨p, .openFile f n i, r⟩] →
        s'.mtxOpen n = none ∧ (r = -eBusy ↔ (openOn s.files n i).Nonempty) ∧
        (r < 0 → s'.files = s.files) ∧ (r = 0 → openOn s'.files n i = {f}) ∧
        (r = 0 ∨ r = -eBusy ∨ r = -eNoMem) := by
  have hi : Inv s := System.exec_induction (I := fun s _ => Inv s)
    (fun _ _ _ _ _ hi hstep => inv_step hi hstep) (inv_init hfile hcount) hrun
  refine ⟨fun n i => ⟨hi.files.counted n i, (hi.files.counted n i).ncard⟩, hi.holder,
    fun a s' out hstep => ?_⟩
  cases stepped_of_step hstep with
  | start | lock | ret => exact ⟨.inl rfl, fun p f n i r h => by cases h⟩
  | inside p c kmalloc hp =>
    constructor
    · obtain ⟨t', heq, hsection⟩ := inside_cases s c kmalloc
      rcases hsection.eq_or with hsame | hret
      · rw [heq]
        exact .inl hsame
      · exact .inr ⟨p, c, by rw [hret]⟩
    · intro p' f n i r hout
      cases hout
      exact hi.opens hp

/-- A device is there and no file is open. -/
def oneDevice : Files.State Unit ℕ := { Files.init Unit ℕ with held := fun _ => 1 }

/-- Two processes open the memory of a device at once; the second is refused. -/
theorem exclusive_open_two :
    ∃ s log, (system Unit ℕ ℕ).exec (init ℕ oneDevice)
        [.openFile 1 10 0 .mem, .openFile 2 20 0 .mem, .lock 1, .inside 1 true, .lock 2,
          .inside 2 true] = some (s, log) ∧
      log.map Section.ret = [0, -eBusy] ∧ (openOn s.files 0 .mem).ncard = (1 : ℤ) := by
  obtain ⟨⟨s, log⟩, hrun, hval⟩ := Option.map_eq_some_iff.1
    (show ((system Unit ℕ ℕ).exec (init ℕ oneDevice)
        [.openFile 1 10 0 .mem, .openFile 2 20 0 .mem, .lock 1, .inside 1 true, .lock 2,
          .inside 2 true]).map (fun r => (r.2.map Section.ret, r.1.files.moduleOpen 0 .mem)) =
        some ([0, -eBusy], 1) by decide +kernel)
  simp only [Prod.mk.injEq] at hval
  have hcount := ((exclusive_open (fun _ => rfl) (fun _ _ => rfl) hrun).1 0 .mem).2
  exact ⟨s, log, hrun, hval.1, hcount.symm.trans hval.2⟩

end IldDrivers.ExampleFpga.Opening
