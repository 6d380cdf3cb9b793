import IldDrivers.Fpga.Loops
import IldDrivers.Fpga.Opening
import IldDrivers.Lib.History

/-!
# Transfers on open files of `example-fpga`

`example_fpga_read` and `example_fpga_write` take no lock; what keeps the transfers on the memory of a
board apart is that its node is open once at most. Here processes open and close the nodes of all
boards while others are in the loops of transfers on the files that are open.

* `Coherence.system`: opens, releases and transfers in any order;
* `Coherence.contents`, `Coherence.position`: the memory of a board and the offset of a file after a
  history in which each transfer is one event;
* `Coherence.Inv`: the invariant, with `Running` of the transfers in progress;
* `Coherence.transfers_coherent`: every transfer finds the contents and the position of the history.
-/

namespace IldDrivers.ExampleFpga.Coherence

variable {abi : Abi} {Dev File Proc : Type*}

structure State (Dev File Proc : Type*) where
  opening : Opening.State Dev File Proc
  /-- The memory of the board of each private structure. -/
  io : ℕ → Memory UInt8
  /-- The offset of each file. -/
  offset : File → ℤ
  /-- The transfer in whose loop the process is, and its file. -/
  transfer : Proc → Option (File × Loop)
  /-- The transfers in progress on the file; the file is not released before they end. -/
  users : File → ℕ

inductive Act (File Proc : Type*)
  /-- A step of an `open` or a `release`. -/
  | opening (a : Opening.Act File Proc)
  | enter (p : Proc) (f : File) (c : Transfer)
  | access (p : Proc)
  | leave (p : Proc)

inductive Event (File Proc : Type*)
  /-- The critical section of an `open` or a `release`. -/
  | opening (x : Opening.Section File Proc)
  /-- A transfer on the memory of a device has ended. -/
  | did (f : File) (n : ℕ) (c : Transfer) (e : Effect)

/-- The device whose memory a transfer on the file is about: the file is open on its node, and no
`open` or `release` of it is in progress. -/
def mem (t : Opening.State Dev File Proc) (f : File) : Option ℕ :=
  match t.files.file f with
  | none => none
  | some o =>
      let x := t.files.filePrivate o.privateData
      if t.busy f = false ∧ x.minor = .mem then some x.fpga else none

variable [DecidableEq File] [DecidableEq Proc]

/-- A file that is opened begins at offset 0. -/
def rewind (f : File) (offset : ℤ) (x : Opening.Section File Proc) : ℤ :=
  match x.call with
  | .openFile g _ _ => if g = f then 0 else offset
  | .release _ _ _ => offset

/-- The file of a transfer in progress is not released. -/
def State.allows (s : State Dev File Proc) : Opening.Act File Proc → Bool
  | .release _ f => s.users f = 0
  | _ => true

def step (fpga : ℕ → Modules abi) (s : State Dev File Proc) :
    Act File Proc → Option (State Dev File Proc × List (Event File Proc))
  | .opening a =>
      if s.allows a then
        (Opening.step s.opening a).map fun r =>
          ({ s with opening := r.1, offset := fun f => r.2.foldl (rewind f) (s.offset f) },
            r.2.map .opening)
      else none
  | .enter p f c =>
      match s.transfer p, mem s.opening f with
      | none, some n =>
          match enter (fpga n) (s.offset f) c with
          | .inl e =>
              some ({ s with offset := Function.update s.offset f e.offset }, [.did f n c e])
          | .inr l =>
              some ({ s with
                transfer := Function.update s.transfer p (some (f, l))
                users := Function.update s.users f (s.users f + 1) }, [])
      | _, _ => none
  | .access p =>
      match s.transfer p with
      | none => none
      | some (f, l) =>
          if l.i < l.length then
            (mem s.opening f).map fun n =>
              let r := Loop.access abi (s.io n, l)
              ({ s with
                io := Function.update s.io n r.1
                transfer := Function.update s.transfer p (some (f, r.2)) }, [])
          else none
  | .leave p =>
      match s.transfer p with
      | none => none
      | some (f, l) =>
          if l.i < l.length then none
          else
            (mem s.opening f).map fun n =>
              let e := l.leave abi (s.offset f)
              ({ s with
                offset := Function.update s.offset f e.offset
                transfer := Function.update s.transfer p none
                users := Function.update s.users f (s.users f - 1) }, [.did f n l.call e])

/-- The processes that use the boards. -/
def system (fpga : ℕ → Modules abi) (Dev File Proc : Type*) [DecidableEq File] [DecidableEq Proc] :
    System (State Dev File Proc) (Act File Proc) (Event File Proc) := ⟨step fpga⟩

/-- No process is in a call. -/
def init (Proc : Type*) (t : Files.State Dev File) (io : ℕ → Memory UInt8) :
    State Dev File Proc :=
  ⟨Opening.init Proc t, io, fun _ => 0, fun _ => none, fun _ => 0⟩

/-! ### What is expected -/

/-- No process is in the loop of a transfer on the device. -/
def State.Idle (s : State Dev File Proc) (n : ℕ) : Prop :=
  ∀ p f l, s.transfer p = some (f, l) → mem s.opening f ≠ some n

/-- The processes that share an open file use it one after the other. -/
def OneAtATime (s : State Dev File Proc) : Act File Proc → Prop
  | .enter _ f _ => s.users f = 0
  | _ => True

instance (s : State Dev File Proc) : (a : Act File Proc) → Decidable (OneAtATime s a)
  | .enter _ f _ => inferInstanceAs (Decidable (s.users f = 0))
  | .opening _ => .isTrue trivial
  | .access _ => .isTrue trivial
  | .leave _ => .isTrue trivial

def Event.contents (n : ℕ) (m : Memory UInt8) : Event File Proc → Memory UInt8
  | .opening _ => m
  | .did _ k _ e => if k = n then iowrite8 m e.iowrite else m

def Event.position (f : File) (offset : ℤ) : Event File Proc → ℤ
  | .opening x => rewind f offset x
  | .did g _ _ e => if g = f then e.offset else offset

/-- The memory of the device `n` after the transfers of the history. -/
def contents (io : ℕ → Memory UInt8) (log : List (Event File Proc)) (n : ℕ) : Memory UInt8 :=
  log.foldl (Event.contents n) (io n)

/-- The offset of the file after the history. -/
def position (log : List (Event File Proc)) (f : File) : ℤ := log.foldl (Event.position f) 0

/-- A transfer has done what a call that meets no other would do after the history, and has accessed
nothing but the memory of its device. -/
def Coherent (fpga : ℕ → Modules abi) (io : ℕ → Memory UInt8) (log : List (Event File Proc)) :
    Event File Proc → Prop
  | .opening _ => True
  | .did f n c e => (MemFile.step (fpga n) ⟨contents io log n, position log f⟩ c).2 = e ∧
      ∀ a, (a ∈ e.ioread ∨ a ∈ e.iowrite.map Prod.fst) → (fpga n).Maps minorMem a

/-! ### The steps -/

/-- What a step can be. -/
inductive Stepped (fpga : ℕ → Modules abi) (s : State Dev File Proc) :
    Act File Proc → State Dev File Proc → List (Event File Proc) → Prop
  | opening (a : Opening.Act File Proc) (t : Opening.State Dev File Proc)
      (out : List (Opening.Section File Proc)) (hstep : Opening.step s.opening a = some (t, out))
      (hallows : s.allows a = true) :
      Stepped fpga s (.opening a)
        { s with opening := t, offset := fun f => out.foldl (rewind f) (s.offset f) }
        (out.map .opening)
  | returned (p : Proc) (f : File) (n : ℕ) (c : Transfer) (e : Effect) (hmem : mem s.opening f = some n)
      (henter : enter (fpga n) (s.offset f) c = .inl e) :
      Stepped fpga s (.enter p f c) { s with offset := Function.update s.offset f e.offset }
        [.did f n c e]
  | entered (p : Proc) (f : File) (n : ℕ) (c : Transfer) (l : Loop) (hp : s.transfer p = none)
      (hmem : mem s.opening f = some n) (henter : enter (fpga n) (s.offset f) c = .inr l) :
      Stepped fpga s (.enter p f c)
        { s with
          transfer := Function.update s.transfer p (some (f, l))
          users := Function.update s.users f (s.users f + 1) } []
  | accessed (p : Proc) (f : File) (n : ℕ) (l : Loop) (hp : s.transfer p = some (f, l))
      (hmem : mem s.opening f = some n) (hi : l.i < l.length) :
      Stepped fpga s (.access p)
        { s with
          io := Function.update s.io n (Loop.access abi (s.io n, l)).1
          transfer := Function.update s.transfer p (some (f, (Loop.access abi (s.io n, l)).2)) } []
  | left (p : Proc) (f : File) (n : ℕ) (l : Loop) (hp : s.transfer p = some (f, l))
      (hmem : mem s.opening f = some n) (hi : ¬ l.i < l.length) :
      Stepped fpga s (.leave p)
        { s with
          offset := Function.update s.offset f (l.leave abi (s.offset f)).offset
          transfer := Function.update s.transfer p none
          users := Function.update s.users f (s.users f - 1) }
        [.did f n l.call (l.leave abi (s.offset f))]

theorem stepped_of_step {fpga : ℕ → Modules abi} {s s' : State Dev File Proc} {a : Act File Proc}
    {out : List (Event File Proc)} (hstep : step fpga s a = some (s', out)) :
    Stepped fpga s a s' out := by
  cases a with
  | opening a =>
    simp only [step] at hstep
    split_ifs at hstep with hallows
    obtain ⟨⟨t, out⟩, ht, heq⟩ := Option.map_eq_some_iff.1 hstep
    cases heq
    exact .opening a t out ht hallows
  | enter p f c =>
    simp only [step] at hstep
    split at hstep
    · next n hp hmem =>
      split at hstep
      · next e he =>
        cases hstep
        exact .returned p f n c e hmem he
      · next l hl =>
        cases hstep
        exact .entered p f n c l hp hmem hl
    · cases hstep
  | access p =>
    simp only [step] at hstep
    split at hstep
    · cases hstep
    · next f l hp =>
      split_ifs at hstep with hi
      obtain ⟨n, hmem, heq⟩ := Option.map_eq_some_iff.1 hstep
      cases heq
      exact .accessed p f n l hp hmem hi
  | leave p =>
    simp only [step] at hstep
    split at hstep
    · cases hstep
    · next f l hp =>
      split_ifs at hstep with hi
      obtain ⟨n, hmem, heq⟩ := Option.map_eq_some_iff.1 hstep
      cases heq
      exact .left p f n l hp hmem hi

/-! ### The files -/

section Files

variable {t t' : Opening.State Dev File Proc} {f g : File} {n : ℕ}

omit [DecidableEq File] [DecidableEq Proc] in
theorem mem_eq_some : mem t f = some n ↔ ∃ o, t.files.file f = some o ∧ t.busy f = false ∧
    t.files.filePrivate o.privateData = ⟨n, .mem⟩ := by
  unfold mem
  cases hf : t.files.file f with
  | none => simp
  | some o =>
    simp only [Option.some.injEq, ↓existsAndEq, true_and]
    generalize t.files.filePrivate o.privateData = x
    obtain ⟨k, i⟩ := x
    simp only [Files.FilePrivate.mk.injEq]
    split_ifs with h
    · simp [h]
    · simp only [false_iff]
      exact fun ⟨hbusy, _, hi⟩ => h ⟨hbusy, hi⟩

omit [DecidableEq File] [DecidableEq Proc] in
/-- The memory of a device is the matter of one file. -/
theorem mem_exclusive (hi : Opening.Inv t) (hf : mem t f = some n) (hg : mem t g = some n) :
    f = g := by
  have hopen : ∀ g, mem t g = some n → g ∈ Opening.openOn t.files n .mem := by
    intro g hg
    obtain ⟨o, ho, -, hprivate⟩ := mem_eq_some.1 hg
    rw [(hi.files.filePrivate g o ho).2] at hprivate
    obtain ⟨hn, hminor⟩ := Files.FilePrivate.mk.inj hprivate
    exact ⟨o, ho, hn, hminor⟩
  have hf := hopen f hf
  have hg := hopen g hg
  rcases hi.files.counted n .mem with ⟨-, hnone⟩ | ⟨-, x, hone⟩
  · rw [hnone] at hf
    exact absurd hf (Set.notMem_empty f)
  · rw [hone] at hf hg
    exact (Set.mem_singleton_iff.1 hf).trans (Set.mem_singleton_iff.1 hg).symm

omit [DecidableEq Proc] in
/-- A critical section is of no matter to another file. -/
theorem sectioned_file {u u' : Files.State Dev File} {c : Opening.Call File} {r : ℤ}
    {o : Files.OpenFile} (h : Opening.Sectioned u c u' r) (hu : Opening.FilesInv u)
    (ho : u.file f = some o) (hne : f ≠ c.file) :
    u'.file f = some o ∧ u'.filePrivate o.privateData = u.filePrivate o.privateData := by
  cases h with
  | busy | noMem => exact ⟨ho, rfl⟩
  | opened g n i _ =>
    exact ⟨(Files.opened_file_of_ne hne).trans ho,
      (Files.opened_of_lt (hu.filePrivate f o ho).1).2⟩
  | released g _ n => exact ⟨(Function.update_of_ne hne ..).trans ho, rfl⟩

/-- A file that is not released remains open, and is not opened again. -/
theorem mem_of_step {a : Opening.Act File Proc} {out : List (Opening.Section File Proc)}
    (hi : Opening.Inv t) (hstep : Opening.step t a = some (t', out)) (hf : mem t f = some n)
    (hrelease : ∀ p, a ≠ .release p f) : mem t' f = some n ∧ ∀ x ∈ out, x.call.file ≠ f := by
  obtain ⟨o, ho, hbusy, hprivate⟩ := mem_eq_some.1 hf
  have hcall : ∀ p c pc, t.call p = some (c, pc) → f ≠ c.file := by
    rintro p c pc hp rfl
    rw [hi.busy p c pc hp] at hbusy
    cases hbusy
  cases a with
  | openFile p g k i =>
    simp only [Opening.step] at hstep
    split_ifs at hstep with h
    cases hstep
    have hne : f ≠ g := by
      rintro rfl
      rw [h.2.2.1] at ho
      cases ho
    exact ⟨mem_eq_some.2 ⟨o, ho, (Function.update_of_ne hne ..).trans hbusy, hprivate⟩, by simp⟩
  | release p g =>
    simp only [Opening.step] at hstep
    split_ifs at hstep with h
    obtain ⟨_, _, heq⟩ := Option.map_eq_some_iff.1 hstep
    cases heq
    have hne : f ≠ g := by
      rintro rfl
      exact hrelease p rfl
    exact ⟨mem_eq_some.2 ⟨o, ho, (Function.update_of_ne hne ..).trans hbusy, hprivate⟩, by simp⟩
  | lock p =>
    simp only [Opening.step] at hstep
    split at hstep
    · split_ifs at hstep
      cases hstep
      exact ⟨hf, by simp⟩
    · cases hstep
  | inside p kmalloc =>
    simp only [Opening.step] at hstep
    split at hstep
    · next c hp =>
      cases hstep
      obtain ⟨u, heq, hsection⟩ := Opening.inside_cases t c kmalloc
      obtain ⟨hfile, hsame⟩ := sectioned_file hsection hi.files ho (hcall p c _ hp)
      refine ⟨mem_eq_some.2 ?_, ?_⟩
      · rw [heq]
        exact ⟨o, hfile, hbusy, hsame.trans hprivate⟩
      · intro x hx
        rw [List.mem_singleton.1 hx]
        exact (hcall p c _ hp).symm
    · cases hstep
  | ret p =>
    simp only [Opening.step] at hstep
    split at hstep
    · next c r hp =>
      cases hstep
      exact ⟨mem_eq_some.2
        ⟨o, ho, (Function.update_of_ne (hcall p c _ hp) ..).trans hbusy, hprivate⟩, by simp⟩
    · cases hstep

/-- A step of the calls shows one critical section at most. -/
theorem out_of_step {a : Opening.Act File Proc} {out : List (Opening.Section File Proc)}
    (hstep : Opening.step t a = some (t', out)) : out = [] ∨ ∃ x, out = [x] := by
  cases Opening.stepped_of_step hstep with
  | start | lock | ret => exact .inl rfl
  | inside p c kmalloc => exact .inr ⟨_, rfl⟩

omit [DecidableEq Proc] in
/-- The offset of a file that no critical section is about. -/
theorem foldl_rewind {out : List (Opening.Section File Proc)} (h : ∀ x ∈ out, x.call.file ≠ f)
    (offset : ℤ) : out.foldl (rewind f) offset = offset := by
  induction out generalizing offset with
  | nil => rfl
  | cons x out ih =>
    have hx := h x List.mem_cons_self
    have hsame : rewind f offset x = offset := by
      unfold rewind
      cases hc : x.call with
      | openFile g n i =>
        rw [hc] at hx
        exact if_neg hx
      | release g o n => rfl
    rw [List.foldl_cons, hsame]
    exact ih (fun y hy => h y (List.mem_cons_of_mem x hy)) offset

end Files

/-! ### The history -/

section Contents

variable {io : ℕ → Memory UInt8} {log : List (Event File Proc)}

omit [DecidableEq File] [DecidableEq Proc] in
theorem contents_snoc (x : Event File Proc) (n : ℕ) :
    contents io (log ++ [x]) n = x.contents n (contents io log n) := by
  rw [contents, List.foldl_append]
  rfl

omit [DecidableEq Proc] in
theorem position_snoc (x : Event File Proc) (f : File) :
    position (log ++ [x]) f = x.position f (position log f) := by
  rw [position, List.foldl_append]
  rfl

end Contents

/-! ### Every run -/

omit [DecidableEq File] in
/-- One process goes on to `x`, the others are where they were. -/
theorem transfer_update {g : Proc → Option (File × Loop)} {p q : Proc} {x : Option (File × Loop)}
    {y : File × Loop} : Function.update g p x q = some y ↔
      (q = p ∧ x = some y) ∨ (q ≠ p ∧ g q = some y) := by
  by_cases hq : q = p
  · subst hq
    simp
  · simp [hq]

/-- A transfer in its loop has begun at the offset on the contents `m` of the memory, and has brought
it to `io`. -/
def Running (fpga : Modules abi) (offset : ℤ) (m io : Memory UInt8) (l : Loop) : Prop :=
  ∃ l₀, enter fpga offset l.call = .inr l₀ ∧ (Loop.access abi)^[l.i] (m, l₀) = (io, l) ∧
    (l.i : ℤ) ≤ l.length ∧ l.length = l₀.length

structure Inv (fpga : ℕ → Modules abi) (io : ℕ → Memory UInt8) (s : State Dev File Proc)
    (log : List (Event File Proc)) : Prop where
  opening : Opening.Inv s.opening
  offset : ∀ f, s.offset f = position log f
  window : ∀ f, InWindow minorMem (s.offset f)
  users : ∀ p f l, s.transfer p = some (f, l) → 0 < s.users f
  distinct : ∀ p q f l l', s.transfer p = some (f, l) → s.transfer q = some (f, l') → p = q
  running : ∀ p f l, s.transfer p = some (f, l) → ∃ n, mem s.opening f = some n ∧
    Running (fpga n) (s.offset f) (contents io log n) (s.io n) l
  idle : ∀ n, s.Idle n → s.io n = contents io log n
  coherent : History.EachAfter (Coherent fpga io) log

variable {fpga : ℕ → Modules abi} {io : ℕ → Memory UInt8} {s : State Dev File Proc}
  {log : List (Event File Proc)}

theorem inWindow_zero : InWindow minorMem 0 := ⟨.inl rfl, le_refl 0, by decide⟩

omit [DecidableEq Proc] in
theorem inv_init {t : Files.State Dev File} (hfile : ∀ f, t.file f = none)
    (hcount : ∀ n i, t.moduleOpen n i = 0) : Inv fpga io (init Proc t io) [] where
  opening := Opening.inv_init hfile hcount
  offset _ := rfl
  window _ := inWindow_zero
  users p f l h := by cases h
  distinct p q f l l' h := by cases h
  running p f l h := by cases h
  idle _ _ := rfl
  coherent := History.eachAfter_nil

omit [DecidableEq Proc] in
theorem inWindow_rewind {f : File} {offset : ℤ} (h : InWindow minorMem offset)
    (x : Opening.Section File Proc) : InWindow minorMem (rewind f offset x) := by
  unfold rewind
  split
  · split_ifs
    · exact inWindow_zero
    · exact h
  · exact h

theorem inv_opening {a : Opening.Act File Proc} {t : Opening.State Dev File Proc}
    {out : List (Opening.Section File Proc)} (hi : Inv fpga io s log)
    (hstep : Opening.step s.opening a = some (t, out)) (hallows : s.allows a = true) :
    Inv fpga io { s with opening := t, offset := fun f => out.foldl (rewind f) (s.offset f) }
      (log ++ out.map .opening) := by
  have hkeep : ∀ p f l n, s.transfer p = some (f, l) → mem s.opening f = some n →
      mem t f = some n ∧ out.foldl (rewind f) (s.offset f) = s.offset f := by
    intro p f l n hp hmem
    have husers := hi.users p f l hp
    obtain ⟨hmem', hout⟩ := mem_of_step hi.opening hstep hmem (by
      rintro q rfl
      have hzero : s.users f = 0 := by simpa [State.allows] using hallows
      omega)
    exact ⟨hmem', foldl_rewind hout _⟩
  have hcontents : ∀ n, contents io (log ++ out.map .opening) n = contents io log n := by
    intro n
    rcases out_of_step hstep with rfl | ⟨x, rfl⟩
    · rw [List.map_nil, List.append_nil]
    · exact contents_snoc _ n
  constructor
  · exact Opening.inv_step hi.opening hstep
  · intro f
    rcases out_of_step hstep with rfl | ⟨x, rfl⟩
    · rw [List.map_nil, List.append_nil]
      exact hi.offset f
    · refine Eq.trans ?_ (position_snoc _ f).symm
      rw [← hi.offset f]
      rfl
  · intro f
    rcases out_of_step hstep with rfl | ⟨x, rfl⟩
    · exact hi.window f
    · exact inWindow_rewind (hi.window f) x
  · exact hi.users
  · exact hi.distinct
  · intro p f l hp
    obtain ⟨n, hmem, hrunning⟩ := hi.running p f l hp
    obtain ⟨hmem', hoffset⟩ := hkeep p f l n hp hmem
    have hgoal : Running (fpga n) (out.foldl (rewind f) (s.offset f))
        (contents io (log ++ out.map .opening) n) (s.io n) l := by
      rw [hcontents, hoffset]
      exact hrunning
    exact ⟨n, hmem', hgoal⟩
  · intro n hidle
    rw [hcontents]
    refine hi.idle n fun p f l hp hmem => hidle p f l hp (hkeep p f l n hp hmem).1
  · rcases out_of_step hstep with rfl | ⟨x, rfl⟩
    · rw [List.map_nil, List.append_nil]
      exact hi.coherent
    · exact History.eachAfter_snoc.2 ⟨hi.coherent, trivial⟩

omit [DecidableEq Proc] in
/-- A transfer whose effect is that of the call ends. -/
theorem Inv.did {f : File} {n : ℕ} {c : Transfer} {e : Effect} (hi : Inv fpga io s log)
    (he : (MemFile.step (fpga n) ⟨contents io log n, s.offset f⟩ c).2 = e) :
    (∀ g, position (log ++ [.did f n c e]) g =
        Function.update s.offset f e.offset g) ∧
      (∀ g, InWindow minorMem (Function.update s.offset f e.offset g)) ∧
      History.EachAfter (Coherent fpga io) (log ++ [.did f n c e]) := by
  obtain ⟨hwindow, hmaps⟩ := InWindow.step (fpga n) (contents io log n) (hi.window f) c
  rw [he] at hwindow hmaps
  refine ⟨fun g => ?_, fun g => ?_, History.eachAfter_snoc.2 ⟨hi.coherent, ?_, hmaps⟩⟩
  · rw [position_snoc, ← hi.offset]
    by_cases hg : g = f
    · subst hg
      simp [Event.position]
    · simp [Event.position, hg, Ne.symm hg]
  · by_cases hg : g = f
    · subst hg
      rwa [Function.update_self]
    · rw [Function.update_of_ne hg]
      exact hi.window g
  · rw [← hi.offset]
    exact he

omit [DecidableEq Proc] in
theorem inv_returned {f : File} {n : ℕ} {c : Transfer} {e : Effect} (hi : Inv fpga io s log)
    (hmem : mem s.opening f = some n) (hfree : s.users f = 0)
    (henter : enter (fpga n) (s.offset f) c = .inl e) :
    Inv fpga io { s with offset := Function.update s.offset f e.offset }
      (log ++ [.did f n c e]) := by
  obtain ⟨hstep, hwrite⟩ := step_of_enter_inl (m := contents io log n) henter
  obtain ⟨hoffset, hwindow, hcoherent⟩ := hi.did (f := f) (n := n) (c := c) (congrArg Prod.snd hstep)
  have hcontents : ∀ k, contents io (log ++ [.did f n c e]) k = contents io log k := by
    intro k
    rw [contents_snoc, Event.contents, hwrite, iowrite8_nil, ite_self]
  constructor
  · exact hi.opening
  · exact fun g => (hoffset g).symm
  · exact hwindow
  · exact hi.users
  · exact hi.distinct
  · intro p g l hp
    obtain ⟨k, hg, hrunning⟩ := hi.running p g l hp
    have hne : g ≠ f := by
      rintro rfl
      have husers := hi.users p g l hp
      omega
    have hgoal : Running (fpga k) (Function.update s.offset f e.offset g)
        (contents io (log ++ [.did f n c e]) k) (s.io k) l := by
      rw [hcontents, Function.update_of_ne hne]
      exact hrunning
    exact ⟨k, hg, hgoal⟩
  · intro k hidle
    rw [hcontents]
    exact hi.idle k hidle
  · exact hcoherent

omit [DecidableEq Proc] in
/-- No other transfer is in progress on the memory of the file. -/
theorem Inv.alone {p q : Proc} {f g : File} {n : ℕ} {l l' : Loop} (hi : Inv fpga io s log)
    (hp : s.transfer p = some (f, l)) (hf : mem s.opening f = some n)
    (hq : s.transfer q = some (g, l')) (hg : mem s.opening g = some n) : q = p := by
  obtain rfl := mem_exclusive hi.opening hf hg
  exact hi.distinct q p f l' l hq hp

theorem inv_entered {p : Proc} {f : File} {n : ℕ} {c : Transfer} {l : Loop}
    (hi : Inv fpga io s log) (hp : s.transfer p = none) (hmem : mem s.opening f = some n)
    (hfree : s.users f = 0) (henter : enter (fpga n) (s.offset f) c = .inr l) :
    Inv fpga io { s with
      transfer := Function.update s.transfer p (some (f, l))
      users := Function.update s.users f (s.users f + 1) } log := by
  have hnone : ∀ q l', s.transfer q ≠ some (f, l') := by
    intro q l' hq
    have husers := hi.users q f l' hq
    omega
  constructor
  · exact hi.opening
  · exact hi.offset
  · exact hi.window
  · intro q g l' hq
    have hgoal : 0 < Function.update s.users f (s.users f + 1) g := by
      by_cases hg : g = f
      · subst hg
        rw [Function.update_self]
        omega
      · rw [Function.update_of_ne hg]
        rcases transfer_update.1 hq with ⟨-, heq⟩ | ⟨-, hq⟩
        · cases heq
          exact absurd rfl hg
        · exact hi.users q g l' hq
    exact hgoal
  · intro q r g l₁ l₂ hq hr
    rcases transfer_update.1 hq with ⟨rfl, heq⟩ | ⟨-, hq⟩
    · cases heq
      rcases transfer_update.1 hr with ⟨rfl, -⟩ | ⟨-, hr⟩
      · rfl
      · exact absurd hr (hnone r l₂)
    · rcases transfer_update.1 hr with ⟨-, heq⟩ | ⟨-, hr⟩
      · cases heq
        exact absurd hq (hnone q l₁)
      · exact hi.distinct q r g l₁ l₂ hq hr
  · intro q g l' hq
    rcases transfer_update.1 hq with ⟨-, heq⟩ | ⟨-, hq⟩
    · cases heq
      -- the memory is at rest when the loop begins
      have hrest : s.io n = contents io log n := hi.idle n fun q g l' hq hg => by
        rw [mem_exclusive hi.opening hg hmem] at hq
        exact hnone q l' hq
      obtain ⟨hcall, hzero, hpos⟩ := enter_inr henter
      refine ⟨n, hmem, l, ?_, ?_, ?_, rfl⟩
      · rw [hcall]
        exact henter
      · rw [hzero, ← hrest]
        rfl
      · rw [hzero]
        exact hpos.le
    · exact hi.running q g l' hq
  · intro k hidle
    refine hi.idle k fun q g l' hq => hidle q g l' ?_
    have hqp : q ≠ p := by
      rintro rfl
      rw [hp] at hq
      cases hq
    exact (Function.update_of_ne hqp ..).trans hq
  · exact hi.coherent

/-- A turn of the loop leaves the call and its limit. -/
theorem access_fields (abi : Abi) (m : Memory UInt8) (l : Loop) :
    (Loop.access abi (m, l)).2.i = l.i + 1 ∧ (Loop.access abi (m, l)).2.call = l.call ∧
      (Loop.access abi (m, l)).2.length = l.length := by
  unfold Loop.access
  cases hc : l.call with
  | read size kmalloc copied => simp [hc]
  | write data kmalloc copied => simp [hc]

theorem Running.access {fpga : Modules abi} {offset : ℤ} {m io : Memory UInt8} {l : Loop}
    (h : Running fpga offset m io l) (hi : l.i < l.length) :
    Running fpga offset m (Loop.access abi (io, l)).1 (Loop.access abi (io, l)).2 := by
  obtain ⟨l₀, henter, hturns, hle, hlength⟩ := h
  obtain ⟨hsucc, hcall, hsame⟩ := access_fields abi io l
  refine ⟨l₀, hcall ▸ henter, ?_, ?_, hsame.trans hlength⟩
  · rw [hsucc, Function.iterate_succ_apply', hturns]
  · rw [hsucc, hsame]
    push_cast
    omega

/-- The effect of a transfer at the end of its loop. -/
theorem Running.leave {fpga : Modules abi} {offset : ℤ} {m io : Memory UInt8} {l : Loop}
    (h : Running fpga offset m io l) (hi : ¬ l.i < l.length) :
    (MemFile.step fpga ⟨m, offset⟩ l.call).2 = l.leave abi offset ∧
      iowrite8 m (l.leave abi offset).iowrite = io := by
  obtain ⟨l₀, henter, hturns, hle, hlength⟩ := h
  have hall : l₀.length.toNat = l.i := by omega
  rw [← hall] at hturns
  obtain ⟨hstep, hwrite⟩ := step_of_enter_inr henter hturns
  exact ⟨congrArg Prod.snd hstep, hwrite⟩

theorem inv_accessed {p : Proc} {f : File} {n : ℕ} {l : Loop} (hi : Inv fpga io s log)
    (hp : s.transfer p = some (f, l)) (hmem : mem s.opening f = some n) (hlt : l.i < l.length) :
    Inv fpga io { s with
      io := Function.update s.io n (Loop.access abi (s.io n, l)).1
      transfer := Function.update s.transfer p (some (f, (Loop.access abi (s.io n, l)).2)) }
      log := by
  have hold : ∀ q g l', Function.update s.transfer p
      (some (f, (Loop.access abi (s.io n, l)).2)) q = some (g, l') →
      ∃ l'', s.transfer q = some (g, l'') := by
    intro q g l' hq
    rcases transfer_update.1 hq with ⟨rfl, heq⟩ | ⟨-, hq⟩
    · cases heq
      exact ⟨l, hp⟩
    · exact ⟨l', hq⟩
  constructor
  · exact hi.opening
  · exact hi.offset
  · exact hi.window
  · intro q g l' hq
    obtain ⟨l'', hq⟩ := hold q g l' hq
    exact hi.users q g l'' hq
  · intro q r g l₁ l₂ hq hr
    obtain ⟨_, hq⟩ := hold q g l₁ hq
    obtain ⟨_, hr⟩ := hold r g l₂ hr
    exact hi.distinct q r g _ _ hq hr
  · intro q g l' hq
    rcases transfer_update.1 hq with ⟨-, heq⟩ | ⟨hqp, hother⟩
    · cases heq
      obtain ⟨k, hk, hrunning⟩ := hi.running p f l hp
      obtain rfl := Option.some.inj (hk.symm.trans hmem)
      have hgoal : Running (fpga k) (s.offset f) (contents io log k)
          (Function.update s.io k (Loop.access abi (s.io k, l)).1 k)
          (Loop.access abi (s.io k, l)).2 := by
        rw [Function.update_self]
        exact hrunning.access hlt
      exact ⟨k, hk, hgoal⟩
    · obtain ⟨k, hk, hrunning⟩ := hi.running q g l' hother
      have hkn : k ≠ n := by
        rintro rfl
        exact hqp (hi.alone hp hmem hother hk)
      have hgoal : Running (fpga k) (s.offset g) (contents io log k)
          (Function.update s.io n (Loop.access abi (s.io n, l)).1 k) l' := by
        rw [Function.update_of_ne hkn]
        exact hrunning
      exact ⟨k, hk, hgoal⟩
  · intro k hidle
    have hkn : k ≠ n := by
      rintro rfl
      exact hidle p f _ (Function.update_self ..) hmem
    have hrest : s.io k = contents io log k := hi.idle k fun q g l' hq => by
      by_cases hqp : q = p
      · subst hqp
        obtain ⟨rfl, -⟩ := Prod.mk.inj (Option.some.inj (hq.symm.trans hp))
        exact hidle q g _ (Function.update_self ..)
      · exact hidle q g l' ((Function.update_of_ne hqp ..).trans hq)
    exact (Function.update_of_ne hkn ..).trans hrest
  · exact hi.coherent

theorem inv_left {p : Proc} {f : File} {n : ℕ} {l : Loop} (hi : Inv fpga io s log)
    (hp : s.transfer p = some (f, l)) (hmem : mem s.opening f = some n) (hlt : ¬ l.i < l.length) :
    Inv fpga io { s with
      offset := Function.update s.offset f (l.leave abi (s.offset f)).offset
      transfer := Function.update s.transfer p none
      users := Function.update s.users f (s.users f - 1) }
      (log ++ [.did f n l.call (l.leave abi (s.offset f))]) := by
  obtain ⟨k, hk, hrunning⟩ := hi.running p f l hp
  obtain rfl := Option.some.inj (hk.symm.trans hmem)
  obtain ⟨he, hwrite⟩ := hrunning.leave hlt
  obtain ⟨hoffset, hwindow, hcoherent⟩ := hi.did he
  have hsame : contents io (log ++ [.did f k l.call (l.leave abi (s.offset f))]) k = s.io k := by
    rw [contents_snoc, Event.contents, if_pos rfl]
    exact hwrite
  have hother : ∀ j, j ≠ k →
      contents io (log ++ [.did f k l.call (l.leave abi (s.offset f))]) j = contents io log j := by
    intro j hj
    rw [contents_snoc, Event.contents, if_neg hj.symm]
  have hold : ∀ q g l', Function.update s.transfer p none q = some (g, l') →
      q ≠ p ∧ g ≠ f ∧ s.transfer q = some (g, l') := by
    intro q g l' hq
    rcases transfer_update.1 hq with ⟨-, heq⟩ | ⟨hqp, hq⟩
    · cases heq
    · refine ⟨hqp, ?_, hq⟩
      rintro rfl
      exact hqp (hi.distinct q p g l' l hq hp)
  constructor
  · exact hi.opening
  · exact fun g => (hoffset g).symm
  · exact hwindow
  · intro q g l' hq
    obtain ⟨-, hg, hq⟩ := hold q g l' hq
    exact (hi.users q g l' hq).trans_eq (Function.update_of_ne hg ..).symm
  · intro q r g l₁ l₂ hq hr
    exact hi.distinct q r g l₁ l₂ (hold q g l₁ hq).2.2 (hold r g l₂ hr).2.2
  · intro q g l' hq
    obtain ⟨hqp, hg, hq⟩ := hold q g l' hq
    obtain ⟨j, hj, hrunning'⟩ := hi.running q g l' hq
    have hjk : j ≠ k := by
      rintro rfl
      exact hqp (hi.alone hp hmem hq hj)
    have hgoal : Running (fpga j)
        (Function.update s.offset f (l.leave abi (s.offset f)).offset g)
        (contents io (log ++ [.did f k l.call (l.leave abi (s.offset f))]) j) (s.io j) l' := by
      rw [hother j hjk, Function.update_of_ne hg]
      exact hrunning'
    exact ⟨j, hj, hgoal⟩
  · intro j hidle
    by_cases hj : j = k
    · subst hj
      exact hsame.symm
    · rw [hother j hj]
      refine hi.idle j fun q g l' hq hg => ?_
      by_cases hqp : q = p
      · subst hqp
        obtain ⟨rfl, -⟩ := Prod.mk.inj (Option.some.inj (hq.symm.trans hp))
        exact hj (Option.some.inj (hg.symm.trans hmem))
      · exact hidle q g l' ((Function.update_of_ne hqp ..).trans hq) hg
  · exact hcoherent

theorem inv_step {s' : State Dev File Proc} {a : Act File Proc} {out : List (Event File Proc)}
    (hi : Inv fpga io s log) (hone : OneAtATime s a) (hstep : step fpga s a = some (s', out)) :
    Inv fpga io s' (log ++ out) := by
  cases stepped_of_step hstep with
  | opening a t out ht hallows => exact inv_opening hi ht hallows
  | returned p f n c e hmem henter => exact inv_returned hi hmem hone henter
  | entered p f n c l hp hmem henter =>
    rw [List.append_nil]
    exact inv_entered hi hp hmem hone henter
  | accessed p f n l hp hmem hlt =>
    rw [List.append_nil]
    exact inv_accessed hi hp hmem hlt
  | left p f n l hp hmem hlt => exact inv_left hi hp hmem hlt

/-- **Coherent transfers**: processes open and close the nodes of any number of boards and are in the
loops of any number of transfers at once. In every run in which the processes that share an open file
use it one after the other, each transfer on the memory of a board has the effect of the whole call
on the memory that the transfers before it in the history have left, at the offset that the history
leaves to its file; it accesses nothing but the memory of its board; and where no transfer is in
progress, the memory is what the transfers of the history have made of it. -/
theorem transfers_coherent {t : Files.State Dev File} (hfile : ∀ f, t.file f = none)
    (hcount : ∀ n i, t.moduleOpen n i = 0) {acts : List (Act File Proc)}
    (hrun : (system fpga Dev File Proc).exec (init Proc t io) acts = some (s, log))
    (hone : (system fpga Dev File Proc).Along OneAtATime (init Proc t io) acts) :
    History.EachAfter (Coherent fpga io) log ∧ ∀ n, s.Idle n → s.io n = contents io log n := by
  have hi : Inv fpga io s log := System.exec_induction_along (I := Inv fpga io)
    (fun _ _ _ _ _ hi hone hstep => inv_step hi hone hstep) (inv_init hfile hcount) hone hrun
  exact ⟨hi.coherent, hi.idle⟩

/-- Two boards are there and no file is open. -/
def twoBoards : Files.State Unit ℕ := { Files.init Unit ℕ with held := fun _ => 1 }

/-- A call of the process, from its lock to its end. -/
def complete (p : ℕ) : List (Act ℕ ℕ) :=
  [.opening (.lock p), .opening (.inside p true), .opening (.ret p)]

/-- Two processes write to two boards at once; the first then closes its file, and the other opens the
node and reads what was written. -/
def writeAndRead : List (Act ℕ ℕ) :=
  .opening (.openFile 1 10 0 .mem) :: complete 1 ++ .opening (.openFile 2 20 1 .mem) :: complete 2 ++
    [.enter 1 10 (.write [7, 8] true 2), .enter 2 20 (.write [9] true 1), .access 1, .access 2,
      .leave 2, .access 1, .leave 1, .opening (.release 1 10)] ++ complete 1 ++
    .opening (.openFile 2 11 0 .mem) :: complete 2 ++
    [.enter 2 11 (.read 2 true 2), .access 2, .access 2, .leave 2]

theorem transfers_coherent_two :
    ∃ s log, (system (fun _ => someModules) Unit ℕ ℕ).exec (init ℕ twoBoards fun _ _ => 0)
        writeAndRead = some (s, log) ∧
      log.filterMap (fun x => match x with
        | .opening _ => none
        | .did f n _ e => some (f, n, e.ret, e.user)) =
        [(20, 1, 1, []), (10, 0, 2, []), (11, 0, 2, [7, 8])] ∧
      History.EachAfter (Coherent (fun _ => someModules) fun _ _ => 0) log := by
  obtain ⟨⟨s, log⟩, hrun, hval⟩ := Option.map_eq_some_iff.1
    (show ((system (fun _ => someModules) Unit ℕ ℕ).exec (init ℕ twoBoards fun _ _ => 0)
        writeAndRead).map (fun r => r.2.filterMap fun x => match x with
          | .opening _ => none
          | .did f n _ e => some (f, n, e.ret, e.user)) =
        some [(20, 1, 1, []), (10, 0, 2, []), (11, 0, 2, [7, 8])] by decide +kernel)
  exact ⟨s, log, hrun, hval, (transfers_coherent (fun _ => rfl) (fun _ _ => rfl) hrun
    (by decide +kernel)).1⟩

/-- Two processes that share an open file write to it at once: the memory has a byte of each. -/
theorem shared_file_mixes :
    ∃ s log, (system (fun _ => someModules) Unit ℕ ℕ).exec (init ℕ twoBoards fun _ _ => 0)
        (.opening (.openFile 1 10 0 .mem) :: complete 1 ++
          [.enter 1 10 (.write [1, 1] true 2), .enter 2 10 (.write [2, 2] true 2), .access 1,
            .access 2, .access 2, .leave 2, .access 1, .leave 1]) = some (s, log) ∧
      (s.io 0).load someModules.moduleMem 2 = [2, 1] := by
  obtain ⟨⟨s, log⟩, hrun, hval⟩ := Option.map_eq_some_iff.1
    (show ((system (fun _ => someModules) Unit ℕ ℕ).exec (init ℕ twoBoards fun _ _ => 0)
        (.opening (.openFile 1 10 0 .mem) :: complete 1 ++
          [.enter 1 10 (.write [1, 1] true 2), .enter 2 10 (.write [2, 2] true 2), .access 1,
            .access 2, .access 2, .leave 2, .access 1, .leave 1])).map
        (fun r => (r.1.io 0).load someModules.moduleMem 2) = some [2, 1] by decide +kernel)
  exact ⟨s, log, hrun, hval⟩

end IldDrivers.ExampleFpga.Coherence
