import IldDrivers.Interrupts.Programs
import IldDrivers.Interrupts.Sessions
import IldDrivers.Lib.Shares

/-!
# What the files of `example-V-10` own

* `Stage.share`: the resources of a file at each statement of its `open` and its `release`;
* `Accounted`: what is in use is what the files own, and nothing has two owners;
* `FileStep`, `ProcStep`: what the statements of the files do, and those of the reads and the handlers;
* `Busy`: a read has its file open, a handler that is running has its structure.
-/

namespace IldDrivers.Timestamps.Sessions

variable {Pid Data : Type*}

/-! ### Resources -/

inductive Resource (Data : Type*)
  | block (data : Data)
  | gpio
  | handler (data : Data)

/-- The structure of an open in progress. -/
def OpenPc.data : OpenPc Data → Option Data
  | .kmalloc => none
  | .empty data | .gpioRequest data | .gpioDirectionInput data | .requestIrq data
  | .freeGpio data _ | .freeData data _ => some data

/-- The structure of a file. -/
def Stage.data : Stage Data → Option Data
  | .opening pc => pc.data
  | .opened data | .releasing data _ => some data
  | .unopened | .failed _ | .closed => none

/-- The file has the GPIO. -/
def Stage.gpio : Stage Data → Prop
  | .opening (.gpioDirectionInput _) | .opening (.requestIrq _) | .opening (.freeGpio _ _)
  | .opened _ | .releasing _ .freeIrq | .releasing _ .synchronize | .releasing _ .gpioFree => True
  | _ => False

/-- The handler of the file is registered. -/
def Stage.irq : Stage Data → Prop
  | .opened _ | .releasing _ .freeIrq => True
  | _ => False

def Stage.share (x : Stage Data) : Set (Resource Data)
  | .block data => x.data = some data
  | .gpio => x.gpio
  | .handler data => x.data = some data ∧ x.irq

/-- What is in use. -/
def State.taken (s : State Pid Data) : Set (Resource Data)
  | .block data => (s.heap data).isSome = true
  | .gpio => s.gpio = true
  | .handler data => data ∈ s.handlers

section Membership

variable {x : Stage Data} {s : State Pid Data} {d : Data}

@[simp] theorem block_mem_share : Resource.block d ∈ x.share ↔ x.data = some d := Iff.rfl

@[simp] theorem gpio_mem_share : Resource.gpio ∈ x.share ↔ x.gpio := Iff.rfl

@[simp] theorem handler_mem_share : Resource.handler d ∈ x.share ↔ x.data = some d ∧ x.irq := Iff.rfl

@[simp] theorem block_mem_taken : Resource.block d ∈ s.taken ↔ (s.heap d).isSome = true := Iff.rfl

@[simp] theorem gpio_mem_taken : Resource.gpio ∈ s.taken ↔ s.gpio = true := Iff.rfl

@[simp] theorem handler_mem_taken : Resource.handler d ∈ s.taken ↔ d ∈ s.handlers := Iff.rfl

/-! What the statements do to the resources. -/

theorem taken_setHeap_some [DecidableEq Data] (d : Data) (block : ExampleData) :
    (s.setHeap d (some block)).taken = insert (.block d) s.taken := by
  ext r
  cases r with
  | block d' =>
    by_cases hd : d' = d
    · simp [State.setHeap, hd]
    · simp [State.setHeap, hd]
  | _ => simp [State.setHeap]

theorem taken_setHeap_live [DecidableEq Data] {block block' : ExampleData}
    (hd : s.heap d = some block) :
    (s.setHeap d (some block')).taken = s.taken := by
  rw [taken_setHeap_some, Set.insert_eq_of_mem]
  simp [hd]

theorem taken_setHeap_none [DecidableEq Data] (d : Data) :
    (s.setHeap d none).taken = s.taken \ {.block d} := by
  ext r
  cases r with
  | block d' =>
    by_cases hd : d' = d
    · simp [State.setHeap, hd]
    · simp [State.setHeap, hd]
  | _ => simp [State.setHeap]

theorem taken_request : { s with gpio := true }.taken = insert .gpio s.taken := by
  ext r
  cases r <;> simp

theorem taken_gpioFree : { s with gpio := false }.taken = s.taken \ {.gpio} := by
  ext r
  cases r <;> simp

theorem taken_requestIrq (d : Data) :
    { s with handlers := d :: s.handlers }.taken = insert (.handler d) s.taken := by
  ext r
  cases r <;> simp

theorem taken_freeIrq [DecidableEq Data] (hnodup : s.handlers.Nodup) (d : Data) :
    { s with handlers := s.handlers.erase d }.taken = s.taken \ {.handler d} := by
  ext r
  cases r with
  | handler d' => simp [hnodup.mem_erase_iff, and_comm]
  | _ => simp

end Membership

/-- The invariant of the resources. -/
structure Accounted (s : State Pid Data) : Prop where
  shares : Shares (fun f => (s.stage f).share) s.taken
  nodup : s.handlers.Nodup
  unopened : ∀ f, s.opens ≤ f → s.stage f = .unopened

/-! ### The opens and the releases -/

/-- A handler with the structure can be running. -/
def Stage.Runs (d : Data) : Stage Data → Prop
  | .opened data | .releasing data .freeIrq | .releasing data .synchronize => data = d
  | _ => False

/-- The array has been emptied, and the handler is not registered yet. -/
def Stage.Emptied (d : Data) : Stage Data → Prop
  | .opening (.gpioRequest data) | .opening (.gpioDirectionInput data)
  | .opening (.requestIrq data) => data = d
  | _ => False

/-- What an open or a release says. -/
def Event.ofFile : Event Pid Data → Prop
  | .opened _ _ | .openFailed _ _ | .released _ => True
  | _ => False

/-- What a statement of the open or of the release of the file `f` does. -/
structure FileStep (s s' : State Pid Data) (f : ℕ) (out : List (Event Pid Data)) : Prop where
  others : ∀ g, g ≠ f → s'.stage g = s.stage g
  opens : s.opens ≤ s'.opens ∧ f < s'.opens
  proc : s'.proc = s.proc
  readers : s'.readers = s.readers
  running : s'.running = s.running
  shares : Shares (fun f => (s'.stage f).share) s'.taken
  nodup : s'.handlers.Nodup
  idle : ∀ d, s.stage f = .opened d → s.readers f = ∅
  runs : ∀ d, (s.stage f).Runs d → (s'.stage f).Runs d ∨ s.running d = ∅
  heap : ∀ d, (s'.stage f).data ≠ some d → (s.stage f).data ≠ some d → s'.heap d = s.heap d
  opened : ∀ d, s'.stage f = .opened d →
    out = [.opened f d] ∧ (s.stage f).Emptied d ∧ s'.heap d = s.heap d
  emptied : ∀ d, (s'.stage f).Emptied d →
    (∃ block, s'.heap d = some block ∧ block.arrayEnd = 0) ∨
      (s.stage f).Emptied d ∧ s'.heap d = s.heap d
  event : out = [] ∨ ∃ e, out = [e] ∧ e.ofFile

section Files

variable {s s' : State Pid Data} {f : ℕ} {out : List (Event Pid Data)} {d : Data}

theorem Accounted.lt_opens (ha : Accounted s) (hf : s.stage f ≠ .unopened) : f < s.opens := by
  by_contra hle
  exact hf (ha.unopened f (not_lt.1 hle))

/-- The statement `y` follows `x`, and the resources change. -/
theorem FileStep.put {x y : Stage Data} {gpio : Bool} {handlers : List Data}
    {heap : Data → Option ExampleData} (ha : Accounted s) (hx : s.stage f = x)
    (hunopened : x ≠ .unopened)
    (hs' : s' = { s with
      gpio := gpio, handlers := handlers, heap := heap, stage := Function.update s.stage f y })
    (hshares : (∀ g, g ≠ f → (s'.stage g).share = (s.stage g).share) → (s.stage f).share = x.share →
      (s'.stage f).share = y.share → Shares (fun g => (s'.stage g).share) s'.taken)
    (hnodup : handlers.Nodup) (hidle : ∀ d, x = .opened d → s.readers f = ∅)
    (hruns : ∀ d, x.Runs d → y.Runs d ∨ s.running d = ∅)
    (hheap : ∀ d, y.data ≠ some d → x.data ≠ some d → heap d = s.heap d)
    (hopened : ∀ d, y = .opened d → out = [.opened f d] ∧ x.Emptied d ∧ heap d = s.heap d)
    (hemptied : ∀ d, y.Emptied d →
      (∃ block, heap d = some block ∧ block.arrayEnd = 0) ∨ x.Emptied d ∧ heap d = s.heap d)
    (hevent : out = [] ∨ ∃ e, out = [e] ∧ e.ofFile) : FileStep s s' f out := by
  subst hs'
  have hlt : f < s.opens := ha.lt_opens (by rwa [hx])
  have hself : Function.update s.stage f y f = y := Function.update_self ..
  refine ⟨fun g hg => Function.update_of_ne hg .., ⟨le_rfl, hlt⟩, rfl, rfl, rfl, ?_, hnodup,
    fun d hd => hidle d (hx ▸ hd), fun d hd => ?_, fun d hd hd' => ?_, fun d hd => ?_,
    fun d hd => ?_, hevent⟩
  · refine hshares (fun g hg => ?_) (by rw [hx]) (by simp only [hself])
    simp only [Function.update_of_ne hg]
  · simp only [hself]
    exact hruns d (hx ▸ hd)
  · simp only [hself] at hd
    exact hheap d hd (hx ▸ hd')
  · simp only [hself] at hd
    rw [hx]
    exact hopened d hd
  · simp only [hself] at hd
    rw [hx]
    exact hemptied d hd

/-- A statement that changes only the stage. -/
theorem fileStep_setStage {x y : Stage Data} (ha : Accounted s) (hx : s.stage f = x)
    (hunopened : x ≠ .unopened) (hdata : y.data = x.data) (hgpio : y.gpio = x.gpio)
    (hirq : y.irq = x.irq) (hidle : ∀ d, x = .opened d → s.readers f = ∅)
    (hruns : ∀ d, x.Runs d → y.Runs d ∨ s.running d = ∅) (hopened : ∀ d, y ≠ .opened d)
    (hemptied : ∀ d, y.Emptied d → x.Emptied d) (hevent : out = [] ∨ ∃ e, out = [e] ∧ e.ofFile) :
    FileStep s (s.setStage f y) f out := by
  have hshare : y.share = x.share := by
    ext r
    cases r <;> simp [hdata, hgpio, hirq]
  refine .put ha hx hunopened rfl (fun hothers hold hnew => ?_) ha.nodup hidle hruns
    (fun _ _ _ => rfl) (fun d hd => absurd hd (hopened d)) (fun d hd => .inr ⟨hemptied d hd, rfl⟩)
    hevent
  refine ha.shares.keep fun g => ?_
  by_cases hg : g = f
  · subst hg
    rw [hnew, hshare, hold]
  · exact hothers g hg

theorem fileStep_kmalloc [DecidableEq Data] {block : Option (Data × ExampleData)}
    (ha : Accounted s)
    (hx : s.stage f = .opening .kmalloc) (hstep : kmalloc s f block = some (s', out)) :
    FileStep s s' f out := by
  cases block with
  | none =>
    cases hstep
    exact fileStep_setStage ha hx nofun rfl rfl rfl nofun nofun nofun nofun
      (.inr ⟨_, rfl, trivial⟩)
  | some block =>
    obtain ⟨data, block⟩ := block
    simp only [kmalloc] at hstep
    split_ifs at hstep with hfree
    cases hstep
    refine .put ha hx nofun rfl (fun hothers hold hnew => ?_) ha.nodup nofun nofun ?_ nofun nofun
      (.inl rfl)
    · change Shares _ (s.setHeap data (some block)).taken
      rw [taken_setHeap_some]
      refine ha.shares.acquire hothers (by simp [hfree]) ?_
      rw [hnew, hold]
      ext r
      cases r <;> simp [Stage.data, OpenPc.data, Stage.gpio, Stage.irq, eq_comm]
    · intro d hd _
      exact Function.update_of_ne (fun heq => hd (by rw [heq]; rfl)) ..

/-- `gpio_request`, `gpio_direction_input` and `request_irq`. -/
theorem fileStep_callStep {pc : OpenPc Data} {err : ℤ} (ha : Accounted s)
    (hx : s.stage f = .opening pc) (hstep : callStep s f err pc = some (s', out)) :
    FileStep s s' f out := by
  cases pc with
  | gpioRequest data =>
    simp only [callStep] at hstep
    split_ifs at hstep with herr hgpio
    · cases hstep
      exact fileStep_setStage ha hx nofun rfl rfl rfl nofun nofun nofun nofun (.inl rfl)
    · cases hstep
      refine .put ha hx nofun rfl (fun hothers hold hnew => ?_) ha.nodup nofun nofun
        (fun _ _ _ => rfl) nofun (fun d hd => .inr ⟨hd, rfl⟩) (.inl rfl)
      change Shares _ { s with gpio := true }.taken
      rw [taken_request]
      refine ha.shares.acquire hothers (by simpa using hgpio) ?_
      rw [hnew, hold]
      ext r
      cases r <;> simp [Stage.data, OpenPc.data, Stage.gpio, Stage.irq]
  | gpioDirectionInput data =>
    simp only [callStep] at hstep
    split_ifs at hstep with herr
    · cases hstep
      exact fileStep_setStage ha hx nofun rfl rfl rfl nofun nofun nofun nofun (.inl rfl)
    · cases hstep
      exact fileStep_setStage ha hx nofun rfl rfl rfl nofun nofun nofun (fun _ => id) (.inl rfl)
  | requestIrq data =>
    simp only [callStep] at hstep
    split_ifs at hstep with herr
    · cases hstep
      exact fileStep_setStage ha hx nofun rfl rfl rfl nofun nofun nofun nofun (.inl rfl)
    · cases hstep
      -- the handler of a structure that another file would have too
      have hfree : Resource.handler data ∉ s.taken := by
        intro htaken
        obtain ⟨g, hg⟩ := (ha.shares.mem_taken _).1 htaken
        have hsame := ha.shares.unique (.block data) g f hg.1 (by rw [hx]; rfl)
        rw [hsame, hx] at hg
        exact hg.2
      refine .put ha hx nofun rfl (fun hothers hold hnew => ?_)
        (List.nodup_cons.2 ⟨hfree, ha.nodup⟩) nofun nofun (fun _ _ _ => rfl) ?_ nofun
        (.inr ⟨_, rfl, trivial⟩)
      · change Shares _ { s with handlers := data :: s.handlers }.taken
        rw [taken_requestIrq]
        refine ha.shares.acquire hothers hfree ?_
        rw [hnew, hold]
        ext r
        cases r <;> simp [Stage.data, OpenPc.data, Stage.gpio, Stage.irq, eq_comm]
      · intro d hd
        cases hd
        exact ⟨rfl, rfl, rfl⟩
  | kmalloc | empty _ | freeGpio _ _ | freeData _ _ => cases hstep

theorem fileStep_openStep [DecidableEq Data] {pc : OpenPc Data} (ha : Accounted s)
    (hx : s.stage f = .opening pc) (hstep : openStep s f pc = some (s', out)) : FileStep s s' f out := by
  cases pc with
  | empty data =>
    obtain ⟨block, hblock, heq⟩ := Option.map_eq_some_iff.1 hstep
    cases heq
    refine .put ha hx nofun rfl (fun hothers hold hnew => ?_) ha.nodup nofun nofun ?_ nofun ?_
      (.inl rfl)
    · change Shares _ (s.setHeap data (some { block with arrayEnd := 0 })).taken
      rw [taken_setHeap_live hblock]
      refine ha.shares.keep fun g => ?_
      by_cases hg : g = f
      · rw [hg, hnew, hold]
        rfl
      · exact hothers g hg
    · intro d hd _
      exact Function.update_of_ne (fun heq => hd (by rw [heq]; rfl)) ..
    · intro d hd
      obtain rfl : data = d := hd
      exact .inl ⟨_, Function.update_self .., rfl⟩
  | freeGpio data err =>
    cases hstep
    refine .put ha hx nofun rfl (fun hothers hold hnew => ?_) ha.nodup nofun nofun
      (fun _ _ _ => rfl) nofun nofun (.inl rfl)
    change Shares _ { s with gpio := false }.taken
    rw [taken_gpioFree]
    refine ha.shares.release hothers (by rw [hx]; trivial) ?_
    rw [hnew, hold]
    ext r
    cases r <;> simp [Stage.data, OpenPc.data, Stage.gpio, Stage.irq]
  | freeData data err =>
    cases hstep
    refine .put ha hx nofun rfl (fun hothers hold hnew => ?_) ha.nodup nofun nofun ?_ nofun nofun
      (.inr ⟨_, rfl, trivial⟩)
    · change Shares _ (s.setHeap data none).taken
      rw [taken_setHeap_none]
      refine ha.shares.release hothers (by rw [hx]; rfl) ?_
      rw [hnew, hold]
      ext r
      cases r <;> simp [Stage.data, OpenPc.data, Stage.gpio, Stage.irq, eq_comm]
    · intro d _ hd
      exact Function.update_of_ne (fun heq => hd (by rw [heq]; rfl)) ..
  | kmalloc | gpioRequest _ | gpioDirectionInput _ | requestIrq _ => cases hstep

theorem fileStep_releaseStep [DecidableEq Pid] [DecidableEq Data] {data : Data} {pc : ReleasePc}
    (ha : Accounted s) (hx : s.stage f = .releasing data pc) (hstep : releaseStep s f data pc = some (s', out)) :
    FileStep s s' f out := by
  cases pc with
  | freeIrq =>
    cases hstep
    refine .put ha hx nofun rfl (fun hothers hold hnew => ?_) (ha.nodup.erase _) nofun
      (fun _ hd => .inl hd) (fun _ _ _ => rfl) nofun nofun (.inl rfl)
    change Shares _ { s with handlers := s.handlers.erase data }.taken
    rw [taken_freeIrq ha.nodup]
    refine ha.shares.release hothers (by rw [hx]; exact ⟨rfl, trivial⟩) ?_
    rw [hnew, hold]
    ext r
    cases r <;> simp [Stage.data, Stage.gpio, Stage.irq, eq_comm]
  | synchronize =>
    simp only [releaseStep] at hstep
    split_ifs at hstep with hnone
    cases hstep
    refine fileStep_setStage ha hx nofun rfl rfl rfl nofun (fun d hd => .inr ?_) nofun nofun (.inl rfl)
    obtain rfl : data = d := hd
    exact hnone
  | gpioFree =>
    cases hstep
    refine .put ha hx nofun rfl (fun hothers hold hnew => ?_) ha.nodup nofun nofun
      (fun _ _ _ => rfl) nofun nofun (.inl rfl)
    change Shares _ { s with gpio := false }.taken
    rw [taken_gpioFree]
    refine ha.shares.release hothers (by rw [hx]; trivial) ?_
    rw [hnew, hold]
    ext r
    cases r <;> simp [Stage.data, Stage.gpio, Stage.irq]
  | kfree =>
    cases hstep
    refine .put ha hx nofun rfl (fun hothers hold hnew => ?_) ha.nodup nofun nofun ?_ nofun nofun
      (.inr ⟨_, rfl, trivial⟩)
    · change Shares _ (s.setHeap data none).taken
      rw [taken_setHeap_none]
      refine ha.shares.release hothers (by rw [hx]; rfl) ?_
      rw [hnew, hold]
      ext r
      cases r <;> simp [Stage.data, Stage.gpio, Stage.irq, eq_comm]
    · intro d _ hd
      exact Function.update_of_ne (fun heq => hd (by rw [heq]; rfl)) ..

theorem fileStep_openFile (ha : Accounted s) :
    FileStep s ({ s with opens := s.opens + 1 }.setStage s.opens (.opening .kmalloc)) s.opens [] where
  others g hg := Function.update_of_ne hg ..
  opens := ⟨Nat.le_succ _, Nat.lt_succ_self _⟩
  proc := rfl
  readers := rfl
  running := rfl
  shares := by
    refine ha.shares.keep fun g => ?_
    by_cases hg : g = s.opens
    · have hold := ha.unopened s.opens le_rfl
      subst hg
      simp only [State.setStage, Function.update_self, hold]
      ext r
      cases r <;> simp [Stage.data, OpenPc.data, Stage.gpio, Stage.irq]
    · simp only [State.setStage, Function.update_of_ne hg]
  nodup := ha.nodup
  idle d hd := by
    rw [ha.unopened s.opens le_rfl] at hd
    cases hd
  runs d hd := by
    rw [ha.unopened s.opens le_rfl] at hd
    exact hd.elim
  heap _ _ _ := rfl
  opened d hd := by simp [State.setStage] at hd
  emptied d hd := by
    simp only [State.setStage, Function.update_self] at hd
    exact hd.elim
  event := .inl rfl

/-- `example_release` is called. -/
theorem fileStep_release {data : Data} (ha : Accounted s) (hx : s.stage f = .opened data)
    (hreaders : s.readers f = ∅) :
    FileStep s (s.setStage f (.releasing data .freeIrq)) f [] :=
  fileStep_setStage ha hx nofun rfl rfl rfl (fun _ _ => hreaders) (fun _ hd => .inl hd) nofun nofun
    (.inl rfl)

end Files

/-! ### The reads and the handlers -/

/-- What an interrupt, a handler or a read does. -/
inductive ProcStep [DecidableEq Pid] [DecidableEq Data] (abi : Abi) (s : State Pid Data) :
    State Pid Data → List (Event Pid Data) → Prop
  | tick (jiffies : ℕ) : ProcStep abi s { s with jiffies := jiffies } []
  | interrupt {p : Pid} {d : Data} (hp : s.proc p = .outside) (hd : d ∈ s.handlers) :
      ProcStep abi s ({ s with
        running := Function.update s.running d (insert p (s.running d)) }.setProc p
          (.handlerLock d)) [.taken p d]
  | record {p : Pid} {d : Data} {block : ExampleData} (hp : s.proc p = .handlerLock d)
      (hblock : s.heap d = some block) (hroom : block.arrayEnd < exampleArraySize) :
      ProcStep abi s ((s.setHeap d (some (block.record s.jiffies))).setProc p (.handlerWake d))
        [.recorded p d s.jiffies]
  | drop {p : Pid} {d : Data} (hp : s.proc p = .handlerLock d) :
      ProcStep abi s (s.setProc p (.handlerWake d)) [.dropped p d s.jiffies]
  | wake {p : Pid} {d : Data} (hp : s.proc p = .handlerWake d) :
      ProcStep abi s ({ s with
        proc := wakeUp s.proc d
        running := Function.update s.running d ((s.running d).erase p) }.setProc p .outside) []
  | start {p : Pid} {f : ℕ} {d : Data} (a : ReadArgs) (hp : s.proc p = .outside)
      (hf : s.stage f = .opened d) :
      ProcStep abi s ({ s with
        readers := Function.update s.readers f (insert p (s.readers f)) }.setProc p
          (.read f d a .lock)) []
  | go {p : Pid} {f : ℕ} {d : Data} {a : ReadArgs} {pc pc' : ReadPc} (hp : s.proc p = .read f d a pc)
      (hpc' : ∀ value, pc' ≠ .format value) :
      ProcStep abi s (s.setProc p (.read f d a pc')) []
  | remove {p : Pid} {f : ℕ} {d : Data} {a : ReadArgs} {block : ExampleData}
      (hp : s.proc p = .read f d a .lock) (hblock : s.heap d = some block)
      (hsome : block.arrayEnd ≠ 0) :
      ProcStep abi s ((s.setHeap d (some block.removeFirst)).setProc p
        (.read f d a (.format (block.array 0)))) [.removed p f (block.array 0)]
  | leave {p : Pid} {f : ℕ} {d : Data} {a : ReadArgs} {pc : ReadPc} {r : ℤ × List UInt8}
      (hp : s.proc p = .read f d a pc)
      (hr : 0 < r.1 → ∃ value, pc = .format value ∧ r.2 = kBuffer abi value ++ [0]) :
      ProcStep abi s (Sessions.leave s p f r).1 (Sessions.leave s p f r).2

section Procs

variable [DecidableEq Pid] [DecidableEq Data] {abi : Abi} {s s' : State Pid Data}
  {out : List (Event Pid Data)} {p : Pid}

theorem procStep_readStep {f : ℕ} {d : Data} {a : ReadArgs} {pc : ReadPc} {block : ExampleData}
    (hp : s.proc p = .read f d a pc) (hblock : s.heap d = some block)
    (hstep : readStep abi s p f d a block pc = some (s', out)) : ProcStep abi s s' out := by
  cases pc with
  | lock =>
    simp only [readStep] at hstep
    split_ifs at hstep with hempty
    · cases hstep
      exact .go hp nofun
    · cases hstep
      exact .remove hp hblock hempty
  | testNonblock =>
    simp only [readStep] at hstep
    split_ifs at hstep
    · cases hstep
      exact .leave hp fun h => absurd h (show ¬ 0 < -eAgain by decide)
    · cases hstep
      exact .go hp nofun
  | wait w =>
    simp only [readStep] at hstep
    split at hstep
    · cases hstep
      exact .go hp nofun
    · cases hstep
      exact .go hp nofun
    · cases hstep
  | format value =>
    cases hstep
    exact .leave hp fun hpos => ⟨value, rfl, deliver_text (g := .v10) hpos⟩

/-- Every step is one of a file or one of a process. -/
theorem stepped {act : Act Pid Data} (ha : Accounted s) (hstep : step abi s act = some (s', out)) :
    (∃ f, FileStep s s' f out) ∨ ProcStep abi s s' out := by
  cases act with
  | tick =>
    cases hstep
    exact .inr (.tick _)
  | interrupt p d =>
    simp only [step] at hstep
    split at hstep
    · rename_i hp
      split_ifs at hstep with hd
      cases hstep
      exact .inr (.interrupt hp hd)
    · cases hstep
  | openFile =>
    cases hstep
    exact .inl ⟨_, fileStep_openFile ha⟩
  | kmalloc f block =>
    simp only [step] at hstep
    split at hstep
    · rename_i hx
      exact .inl ⟨f, fileStep_kmalloc ha hx hstep⟩
    · cases hstep
  | call f err =>
    simp only [step] at hstep
    split at hstep
    · rename_i hx
      exact .inl ⟨f, fileStep_callStep ha hx hstep⟩
    · cases hstep
  | runFile f =>
    simp only [step] at hstep
    split at hstep
    · rename_i hx
      exact .inl ⟨f, fileStep_openStep ha hx hstep⟩
    · rename_i hx
      exact .inl ⟨f, fileStep_releaseStep ha hx hstep⟩
    · cases hstep
  | release f =>
    simp only [step] at hstep
    split at hstep
    · rename_i hx
      split_ifs at hstep with hreaders
      cases hstep
      exact .inl ⟨f, fileStep_release ha hx hreaders⟩
    · cases hstep
  | read p f a =>
    simp only [step] at hstep
    split at hstep
    · rename_i hp hf
      cases hstep
      exact .inr (.start a hp hf)
    · cases hstep
  | run p =>
    simp only [step] at hstep
    split at hstep
    · cases hstep
    · rename_i d hp
      obtain ⟨block, hblock, heq⟩ := Option.map_eq_some_iff.1 hstep
      rw [handlerStep] at heq
      split_ifs at heq with hroom
      · cases heq
        exact .inr (.record hp hblock hroom)
      · cases heq
        exact .inr (.drop hp)
    · rename_i d hp
      obtain ⟨block, -, heq⟩ := Option.map_eq_some_iff.1 hstep
      cases heq
      exact .inr (.wake hp)
    · rename_i hp
      obtain ⟨block, hblock, hread⟩ := Option.bind_eq_some_iff.1 hstep
      exact .inr (procStep_readStep hp hblock hread)
  | signal p =>
    simp only [step] at hstep
    split at hstep
    · rename_i hp
      obtain ⟨block, -, hsignal⟩ := Option.bind_eq_some_iff.1 hstep
      split at hsignal
      · cases hsignal
        exact .inr (.go hp nofun)
      · cases hsignal
        exact .inr (.leave hp fun h => absurd h (show ¬ 0 < -eRestartSys by decide))
      · cases hsignal
    · cases hstep

end Procs

/-! ### Who is where -/

/-- The file that a read is on, with its structure. -/
def Proc.onFile : Proc Data → Option (ℕ × Data)
  | .read f d _ _ => some (f, d)
  | _ => none

/-- The structure that a handler works on. -/
def Proc.handled : Proc Data → Option Data
  | .handlerLock d | .handlerWake d => some d
  | _ => none

/-- A read has its file open; a handler that is running has its structure. -/
structure Busy (s : State Pid Data) : Prop where
  reading : ∀ p f d, (s.proc p).onFile = some (f, d) → s.stage f = .opened d ∧ p ∈ s.readers f
  handling : ∀ p d, (s.proc p).handled = some d → p ∈ s.running d ∧ ∃ f, (s.stage f).Runs d

theorem Stage.Runs.data {x : Stage Data} {d : Data} (h : x.Runs d) : x.data = some d := by
  cases x with
  | opened data => exact congrArg some h
  | releasing data pc =>
    cases pc with
    | freeIrq | synchronize => exact congrArg some h
    | gpioFree | kfree => exact h.elim
  | _ => exact h.elim

theorem Stage.Emptied.data {x : Stage Data} {d : Data} (h : x.Emptied d) : x.data = some d := by
  cases x with
  | opening pc =>
    cases pc with
    | gpioRequest data | gpioDirectionInput data | requestIrq data => exact congrArg some h
    | _ => exact h.elim
  | _ => exact h.elim

theorem Stage.Emptied.not_runs {x : Stage Data} {d d' : Data} (h : x.Emptied d) : ¬ x.Runs d' := by
  cases x with
  | opening pc => exact id
  | _ => exact h.elim

/-- A registered handler can be running. -/
theorem Stage.runs_of_irq {x : Stage Data} {d : Data} (hdata : x.data = some d) (hirq : x.irq) :
    x.Runs d := by
  cases x with
  | opened data => exact Option.some.inj hdata
  | releasing data pc =>
    cases pc with
    | freeIrq => exact Option.some.inj hdata
    | _ => exact hirq.elim
  | _ => exact hirq.elim

theorem busy_init (jiffies : ℕ) : Busy (init Pid Data jiffies) where
  reading p f d h := by cases h
  handling p d h := by cases h

section Busy

variable {s s' t : State Pid Data} {f : ℕ} {out : List (Event Pid Data)} {p : Pid} {d : Data}

theorem Busy.fileStep (hb : Busy s) (hfile : FileStep s s' f out) : Busy s' where
  reading p g d h := by
    rw [hfile.proc] at h
    obtain ⟨hopened, hreader⟩ := hb.reading p g d h
    rw [hfile.readers]
    by_cases hg : g = f
    · subst hg
      rw [hfile.idle d hopened] at hreader
      exact absurd hreader (Finset.notMem_empty p)
    · rw [hfile.others g hg]
      exact ⟨hopened, hreader⟩
  handling p d h := by
    rw [hfile.proc] at h
    obtain ⟨hrunning, g, hruns⟩ := hb.handling p d h
    rw [hfile.running]
    refine ⟨hrunning, g, ?_⟩
    by_cases hg : g = f
    · subst hg
      rcases hfile.runs d hruns with hstill | hnone
      · exact hstill
      · rw [hnone] at hrunning
        exact absurd hrunning (Finset.notMem_empty p)
    · rw [hfile.others g hg]
      exact hruns

/-- A process moves, and the others stay where they are. -/
theorem Busy.setProc [DecidableEq Pid] (hb : Busy s) {x : Proc Data} (hstage : t.stage = s.stage)
    (hothers : ∀ q, q ≠ p →
      (t.proc q).onFile = (s.proc q).onFile ∧ (t.proc q).handled = (s.proc q).handled)
    (hreaders : ∀ f q, q ≠ p → q ∈ s.readers f → q ∈ t.readers f)
    (hrunning : ∀ d q, q ≠ p → q ∈ s.running d → q ∈ t.running d)
    (hread : ∀ f d, x.onFile = some (f, d) → s.stage f = .opened d ∧ p ∈ t.readers f)
    (hhandled : ∀ d, x.handled = some d → p ∈ t.running d ∧ ∃ f, (s.stage f).Runs d) :
    Busy (t.setProc p x) := by
  constructor
  · intro q f d h
    change t.stage f = _ ∧ q ∈ t.readers f
    rw [hstage]
    by_cases hq : q = p
    · subst hq
      simp only [State.setProc, Function.update_self] at h
      exact hread f d h
    · simp only [State.setProc, Function.update_of_ne hq] at h
      rw [(hothers q hq).1] at h
      obtain ⟨hopened, hreader⟩ := hb.reading q f d h
      exact ⟨hopened, hreaders f q hq hreader⟩
  · intro q d h
    change q ∈ t.running d ∧ ∃ f, (t.stage f).Runs d
    rw [hstage]
    by_cases hq : q = p
    · subst hq
      simp only [State.setProc, Function.update_self] at h
      exact hhandled d h
    · simp only [State.setProc, Function.update_of_ne hq] at h
      rw [(hothers q hq).2] at h
      obtain ⟨hrun, hruns⟩ := hb.handling q d h
      exact ⟨hrunning d q hq hrun, hruns⟩

/-- The same where the process keeps its file and its structure. -/
theorem Busy.stay [DecidableEq Pid] (hb : Busy s) {x : Proc Data} (hstage : t.stage = s.stage)
    (hproc : t.proc = s.proc) (hreaders : t.readers = s.readers) (hrunning : t.running = s.running)
    (hread : x.onFile = (s.proc p).onFile) (hhandled : x.handled = (s.proc p).handled) :
    Busy (t.setProc p x) := by
  refine hb.setProc hstage (fun q _ => by rw [hproc]; exact ⟨rfl, rfl⟩)
    (fun f q _ h => by rwa [hreaders]) (fun d q _ h => by rwa [hrunning]) (fun f d h => ?_)
    fun d h => ?_
  · rw [hreaders]
    exact hb.reading p f d (hread ▸ h)
  · rw [hrunning]
    exact hb.handling p d (hhandled ▸ h)

theorem wakeUp_same [DecidableEq Data] (proc : Pid → Proc Data) (d : Data) (q : Pid) :
    (wakeUp proc d q).onFile = (proc q).onFile ∧ (wakeUp proc d q).handled = (proc q).handled := by
  unfold wakeUp
  cases hproc : proc q with
  | read f d' a pc => cases pc <;> exact ⟨rfl, rfl⟩
  | _ => exact ⟨rfl, rfl⟩

theorem Busy.procStep [DecidableEq Pid] [DecidableEq Data] {abi : Abi} (hb : Busy s)
    (ha : Accounted s) (hproc : ProcStep abi s s' out) : Busy s' := by
  cases hproc with
  | tick jiffies => exact ⟨hb.reading, hb.handling⟩
  | @interrupt p d hp hd =>
    refine hb.setProc rfl (fun _ _ => ⟨rfl, rfl⟩) (fun _ _ _ => id) (fun d' q _ h => ?_) nofun
      fun d' h => ?_
    · by_cases hd' : d' = d
      · subst hd'
        simpa using .inr h
      · simpa [Function.update_of_ne hd'] using h
    · obtain rfl := Option.some.inj h
      obtain ⟨g, hdata, hirq⟩ := (ha.shares.mem_taken (.handler d)).1 hd
      exact ⟨by simp, g, Stage.runs_of_irq hdata hirq⟩
  | record hp hblock hroom => exact hb.stay rfl rfl rfl rfl (by rw [hp]; rfl) (by rw [hp]; rfl)
  | drop hp => exact hb.stay rfl rfl rfl rfl (by rw [hp]; rfl) (by rw [hp]; rfl)
  | @wake p d hp =>
    refine hb.setProc rfl (fun q _ => wakeUp_same s.proc d q) (fun _ _ _ => id)
      (fun d' q hq h => ?_) nofun nofun
    by_cases hd' : d' = d
    · subst hd'
      simpa using ⟨hq, h⟩
    · simpa [Function.update_of_ne hd'] using h
  | @start p f d a hp hf =>
    refine hb.setProc rfl (fun _ _ => ⟨rfl, rfl⟩) (fun g q _ h => ?_) (fun _ _ _ => id)
      (fun g d' h => ?_) nofun
    · by_cases hg : g = f
      · subst hg
        simpa using .inr h
      · simpa [Function.update_of_ne hg] using h
    · cases h
      exact ⟨hf, by simp⟩
  | go hp hpc' => exact hb.stay rfl rfl rfl rfl (by rw [hp]; rfl) (by rw [hp]; rfl)
  | remove hp hblock hsome => exact hb.stay rfl rfl rfl rfl (by rw [hp]; rfl) (by rw [hp]; rfl)
  | @leave p f d a pc r hp hr =>
    refine hb.setProc rfl (fun _ _ => ⟨rfl, rfl⟩) (fun g q hq h => ?_) (fun _ _ _ => id) nofun nofun
    by_cases hg : g = f
    · subst hg
      simpa using ⟨hq, h⟩
    · simpa [Function.update_of_ne hg] using h

end Busy

/-- The steps of the processes take no resource and give none back. -/
theorem Accounted.procStep [DecidableEq Pid] [DecidableEq Data] {abi : Abi} {s s' : State Pid Data}
    {out : List (Event Pid Data)} (ha : Accounted s) (hproc : ProcStep abi s s' out) :
    Accounted s' := by
  cases hproc with
  | record hp hblock hroom =>
    refine ⟨?_, ha.nodup, ha.unopened⟩
    change Shares _ (s.setHeap _ _).taken
    rw [taken_setHeap_live hblock]
    exact ha.shares
  | remove hp hblock hsome =>
    refine ⟨?_, ha.nodup, ha.unopened⟩
    change Shares _ (s.setHeap _ _).taken
    rw [taken_setHeap_live hblock]
    exact ha.shares
  | tick | interrupt | drop | wake | start | go | leave => exact ⟨ha.shares, ha.nodup, ha.unopened⟩

theorem Accounted.fileStep {s s' : State Pid Data} {f : ℕ} {out : List (Event Pid Data)}
    (ha : Accounted s) (hfile : FileStep s s' f out) : Accounted s' where
  shares := hfile.shares
  nodup := hfile.nodup
  unopened g hg := by
    have hne : g ≠ f := fun heq => absurd hfile.opens.2 (not_lt.2 (heq ▸ hg))
    rw [hfile.others g hne]
    exact ha.unopened g (hfile.opens.1.trans hg)

theorem accounted_init (jiffies : ℕ) : Accounted (init Pid Data jiffies) where
  shares := by
    have hshare : ∀ f, ((init Pid Data jiffies).stage f).share = ∅ := by
      intro f
      ext r
      cases r <;> simp [init, Stage.data, Stage.gpio]
    have htaken : (init Pid Data jiffies).taken = ∅ := by
      ext r
      cases r <;> simp [init]
    rw [htaken]
    exact Shares.empty.keep hshare
  nodup := List.nodup_nil
  unopened _ _ := rfl

end IldDrivers.Timestamps.Sessions
