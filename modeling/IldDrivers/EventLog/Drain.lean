import IldDrivers.EventLog.Table
import IldDrivers.Lib.Transition

/-!
# Draining the event log through one file

Whole calls of `log_read` and `log_write`, one at a time. The history of a run tells which events
were accepted and removed and what each read returned.

* `step`, `system`: one call, and the runs of calls; `Effect`: what a call can do;
* `Drained`: the invariant of a run in which only the file `f` is read and no copy fails after a
  removal: what the reads have returned is the lines of the events removed, followed by the line of
  the first event up to the position of `f`;
* `lost`: how many bytes before the position of `f` have not been returned; it grows when a copy
  fails after a removal, for the file keeps a position in the event that is gone;
* `drains_iff_copiesAfterRemoval`: so the log is drained unless such a copy fails;
  `second_event_lost` is a run in which one does.
-/

namespace IldDrivers.TpIII02

inductive Call (File : Type*)
  | read (f : File) (a : ReadArgs)
  | write (a : WriteArgs) (now : Int64)

structure State (File : Type*) where
  table : Table
  offset : File → ℤ

/-- What a call does that the others can see. -/
inductive Output (File : Type*)
  | accepted (e : TimedEvent)
  | removed (f : File) (e : TimedEvent)
  | returned (f : File) (ret : ℤ) (user : List UInt8)
  deriving DecidableEq

variable {File : Type*}

/-- The module just loaded, the files open at the given offsets. -/
def init (offset : File → ℤ) : State File := ⟨Table.init, offset⟩

/-- What an entry of the history does to the queue of events. -/
def Output.op : Output File → FifoOp TimedEvent
  | .accepted e => .push e
  | .removed _ _ => .pop
  | .returned _ _ _ => .keep

def ops (log : List (Output File)) : List (FifoOp TimedEvent) := log.map Output.op

/-- The events accepted by `add_event_to_table`, in the order of their insertion. -/
def accepted (log : List (Output File)) : List TimedEvent := Fifo.pushed (ops log)

/-- The lines of these events. -/
def lines (es : List TimedEvent) : List UInt8 := es.flatMap TimedEvent.line

/-- The bytes of the first line that lie before the offset. -/
def firstPart (es : List TimedEvent) (offset : ℤ) : List UInt8 :=
  match es with
  | [] => []
  | e :: _ => e.line.take offset.toNat

@[simp] theorem ops_nil : ops ([] : List (Output File)) = [] := rfl

@[simp] theorem ops_accepted (e : TimedEvent) (log : List (Output File)) :
    ops (.accepted e :: log) = .push e :: ops log := rfl

@[simp] theorem ops_removed (f : File) (e : TimedEvent) (log : List (Output File)) :
    ops (.removed f e :: log) = .pop :: ops log := rfl

@[simp] theorem ops_returned (f : File) (ret : ℤ) (user : List UInt8) (log : List (Output File)) :
    ops (.returned f ret user :: log) = .keep :: ops log := rfl

theorem ops_append (log log' : List (Output File)) : ops (log ++ log') = ops log ++ ops log' :=
  List.map_append

@[simp] theorem lines_nil : lines [] = [] := rfl

@[simp] theorem lines_cons (e : TimedEvent) (es : List TimedEvent) :
    lines (e :: es) = e.line ++ lines es := rfl

theorem lines_append (es es' : List TimedEvent) : lines (es ++ es') = lines es ++ lines es' :=
  List.flatMap_append

@[simp] theorem firstPart_nil (offset : ℤ) : firstPart [] offset = [] := rfl

@[simp] theorem firstPart_cons (e : TimedEvent) (es : List TimedEvent) (offset : ℤ) :
    firstPart (e :: es) offset = e.line.take offset.toNat := rfl

@[simp] theorem firstPart_zero (es : List TimedEvent) : firstPart es 0 = [] := by
  cases es <;> rfl

variable [DecidableEq File]

/-- The bytes that an entry of the history shows to have been returned through `f`. -/
def Output.bytes (f : File) : Output File → List UInt8
  | .returned g ret user => if g = f ∧ 0 ≤ ret then user else []
  | .accepted _ => []
  | .removed _ _ => []

/-- The bytes successfully returned by the reads through `f`. -/
def delivered (f : File) (log : List (Output File)) : List UInt8 := log.flatMap (Output.bytes f)

def step (s : State File) : Call File → State File × List (Output File)
  | .read f a =>
      let o := logRead s.table (s.offset f) a
      (⟨o.table, Function.update s.offset f (filePosition (s.offset f) o.offset o.ret)⟩,
        (if o.table.nbEvents < s.table.nbEvents then [.removed f (s.table.events 0)] else []) ++
          [.returned f o.ret o.user])
  | .write a now =>
      let r := logWrite s.table a now
      ({ s with table := r.1 },
        if s.table.nbEvents < r.1.nbEvents then [.accepted (r.1.events s.table.nbEvents)] else [])

/-- The calls, one at a time; they always return. -/
def system (File : Type*) [DecidableEq File] : System (State File) (Call File) (Output File) :=
  ⟨fun s c => some (step s c)⟩

@[simp] theorem delivered_nil (f : File) : delivered f [] = [] := rfl

@[simp] theorem delivered_accepted (f : File) (e : TimedEvent) (log : List (Output File)) :
    delivered f (.accepted e :: log) = delivered f log := rfl

@[simp] theorem delivered_removed (f g : File) (e : TimedEvent) (log : List (Output File)) :
    delivered f (.removed g e :: log) = delivered f log := rfl

@[simp] theorem delivered_returned (f g : File) (ret : ℤ) (user : List UInt8)
    (log : List (Output File)) :
    delivered f (.returned g ret user :: log) =
      (if g = f ∧ 0 ≤ ret then user else []) ++ delivered f log := rfl

theorem delivered_append (f : File) (log log' : List (Output File)) :
    delivered f (log ++ log') = delivered f log ++ delivered f log' := List.flatMap_append

/-! ### What a call does -/

/-- The position lies in a line, or at its end. -/
def InLine (offset : ℤ) : Prop := 0 ≤ offset ∧ offset ≤ 35

/-- The file that a call reads has its position in a line. -/
def Call.InLine (s : State File) : Call File → Prop
  | .read f _ => TpIII02.InLine (s.offset f)
  | .write _ _ => True

/-- What a call can do: the state after it, and what the others see of it. -/
inductive Effect (s : State File) : Call File → State File → List (Output File) → Prop
  | refused (a : WriteArgs) (now : Int64) : Effect s (.write a now) s []
  | accepts (a : WriteArgs) (now : Int64) (e : TimedEvent) (hroom : s.table.nbEvents < nbEventMax) :
      Effect s (.write a now)
        { s with table := ⟨s.table.events.store s.table.nbEvents [e], s.table.nbEvents + 1⟩ }
        [.accepted e]
  | idle (f : File) (a : ReadArgs) (hempty : s.table.nbEvents ≤ 0) :
      Effect s (.read f a) s [.returned f 0 []]
  /-- Bytes of the first line are returned. -/
  | delivers (f : File) (a : ReadArgs) (n : ℤ) (hpos : 0 < s.table.nbEvents)
      (hmore : s.offset f < (s.table.events 0).line.length)
      (hn : n = min ((s.table.events 0).line.length - s.offset f) a.max) :
      Effect s (.read f a) { s with offset := Function.update s.offset f (s.offset f + n) }
        [.returned f n (((s.table.events 0).line.drop (s.offset f).toNat).take n.toNat)]
  | faults (f : File) (a : ReadArgs) (user : List UInt8)
      (hpos : 0 < s.table.nbEvents) (hmore : s.offset f < (s.table.events 0).line.length)
      (hfails : a.copied < (min ((s.table.events 0).line.length - s.offset f) (a.max : ℤ)).toNat) :
      Effect s (.read f a) s [.returned f (-eFault) user]
  /-- The first event is removed, and was the last. -/
  | removesLast (f : File) (a : ReadArgs) (hpos : 0 < s.table.nbEvents)
      (hend : (s.table.events 0).line.length ≤ s.offset f) (hlast : s.table.nbEvents ≤ 1) :
      Effect s (.read f a) ⟨removeFirstEvent s.table, Function.update s.offset f 0⟩
        [.removed f (s.table.events 0), .returned f 0 []]
  /-- The first event is removed, and bytes of the next line are returned. -/
  | removes (f : File) (a : ReadArgs) (n : ℤ) (hmore : 1 < s.table.nbEvents)
      (hend : (s.table.events 0).line.length ≤ s.offset f)
      (hn : n = min (s.table.events 1).line.length a.max) (hcopied : n.toNat ≤ a.copied) :
      Effect s (.read f a) ⟨removeFirstEvent s.table, Function.update s.offset f n⟩
        [.removed f (s.table.events 0), .returned f n ((s.table.events 1).line.take n.toNat)]
  /-- The first event is removed, and the copy of the next line fails: the file stays where it is. -/
  | loses (f : File) (a : ReadArgs) (user : List UInt8) (hmore : 1 < s.table.nbEvents)
      (hend : (s.table.events 0).line.length ≤ s.offset f)
      (hfails : a.copied < min (s.table.events 1).line.length a.max) :
      Effect s (.read f a) ⟨removeFirstEvent s.table, s.offset⟩
        [.removed f (s.table.events 0), .returned f (-eFault) user]

/-- A write: an event is added, or nothing changes. -/
theorem step_write (s : State File) (a : WriteArgs) (now : Int64) :
    step s (.write a now) = (s, []) ∨
      s.table.nbEvents < nbEventMax ∧ ∃ e, step s (.write a now) =
        ({ s with table := ⟨s.table.events.store s.table.nbEvents [e], s.table.nbEvents + 1⟩ },
          [.accepted e]) := by
  cases hparsed : a.parsed with
  | error err => exact .inl (by simp [step, logWrite, hparsed])
  | ok value =>
    by_cases hfull : s.table.nbEvents < nbEventMax
    · refine .inr ⟨hfull, ⟨value, now⟩, ?_⟩
      have hevent : s.table.events.store s.table.nbEvents [⟨value, now⟩] s.table.nbEvents =
          ⟨value, now⟩ := by
        have hget := Memory.store_apply_add (m := s.table.events) (a := s.table.nbEvents)
          (l := [(⟨value, now⟩ : TimedEvent)]) (i := 0) rfl
        rwa [Nat.cast_zero, add_zero] at hget
      simp only [step, logWrite, hparsed, addEventToTable_eq hfull, ne_eq, not_true, if_false,
        lt_add_one, if_true, hevent]
    · left
      have hadd : addEventToTable s.table value now = (s.table, -eNoSpc) := by
        rw [addEventToTable, eventTableFull, decide_eq_true (not_lt.1 hfull)]
        rfl
      simp [step, logWrite, hparsed, hadd, eNoSpc]

theorem effect_step (s : State File) {c : Call File} (h : c.InLine s) :
    Effect s c (step s c).1 (step s c).2 := by
  cases c with
  | write a now =>
    rcases step_write s a now with hsame | ⟨hroom, e, hadd⟩
    · rw [hsame]
      exact .refused a now
    · rw [hadd]
      exact .accepts a now e hroom
  | read f a =>
    have hremoved := nbEvents_removeFirstEvent s.table
    have hfault : ¬ (0 : ℤ) ≤ -eFault := by decide
    have hreads := logRead_reads s.table h.1 h.2 a
    simp only [step]
    generalize logRead s.table (s.offset f) a = o at hreads ⊢
    cases hreads with
    | empty hempty =>
      simp only [lt_irrefl, if_false, List.nil_append, filePosition, le_refl, if_true,
        Function.update_eq_self]
      exact .idle f a hempty
    | goesOn hpos hmore o hserves =>
      cases hserves with
      | delivers n hn hcopied =>
        have hret : 0 ≤ n := by omega
        simp only [lt_irrefl, if_false, List.nil_append, filePosition, if_pos hret]
        exact .delivers f a n hpos hmore hn
      | faults user hfails =>
        simp only [lt_irrefl, if_false, List.nil_append, filePosition, if_neg hfault,
          Function.update_eq_self]
        exact .faults f a user hpos hmore hfails
    | removesLast hpos hend hempty =>
      simp only [filePosition, le_refl, if_true]
      rw [if_pos (show (removeFirstEvent s.table).nbEvents < s.table.nbEvents by omega)]
      exact .removesLast f a hpos hend (by omega)
    | removes hpos hend hmore o hserves =>
      have hnext : (removeFirstEvent s.table).events 0 = s.table.events 1 :=
        events_removeFirstEvent (by omega)
      have hline := (s.table.events 1).line_pos
      cases hserves with
      | delivers n hn hcopied =>
        rw [hnext, sub_zero] at hn
        have hret : 0 ≤ n := by omega
        simp only [filePosition, if_pos hret, zero_add, hnext, Int.toNat_zero, List.drop_zero]
        rw [if_pos (show (removeFirstEvent s.table).nbEvents < s.table.nbEvents by omega)]
        exact .removes f a n (by omega) hend (by omega) hcopied
      | faults user hfails =>
        rw [hnext] at hfails
        simp only [filePosition, if_neg hfault, Function.update_eq_self]
        rw [if_pos (show (removeFirstEvent s.table).nbEvents < s.table.nbEvents by omega)]
        exact .loses f a user (by omega) hend (by omega)

theorem exists_exec (s : State File) (calls : List (Call File)) :
    ∃ s' log, (system File).exec s calls = some (s', log) := by
  induction calls generalizing s with
  | nil => exact ⟨s, [], rfl⟩
  | cons c calls ih =>
    obtain ⟨s', log, hrun⟩ := ih (step s c).1
    exact ⟨s', _, System.exec_cons.2 ⟨_, _, log, rfl, hrun, rfl⟩⟩

theorem effect_of_step {s s' : State File} {c : Call File} {out : List (Output File)}
    (h : c.InLine s) (hstep : (system File).step s c = some (s', out)) : Effect s c s' out := by
  have heffect := effect_step s h
  rwa [show step s c = (s', out) from Option.some.inj hstep] at heffect

/-! ### What a call does to the history -/

/-- The table is sound and holds what the history says. -/
structure Valid (s : State File) (log : List (Output File)) : Prop where
  sound : s.table.Sound
  list : s.table.list = Fifo.replay [] (ops log)

variable {s s' : State File} {log out : List (Output File)} {c : Call File} {f : File}

omit [DecidableEq File] in
theorem valid_init (offset : File → ℤ) : Valid (init offset) [] :=
  ⟨⟨le_rfl, show (0 : ℤ) ≤ 64 by decide⟩, rfl⟩

omit [DecidableEq File] in
theorem replay_ops_append (log out : List (Output File)) :
    Fifo.replay [] (ops (log ++ out)) = Fifo.replay (Fifo.replay [] (ops log)) (ops out) := by
  rw [ops_append, Fifo.replay_append]

theorem Effect.valid (h : Effect s c s' out) (hv : Valid s log) : Valid s' (log ++ out) := by
  have hnonneg := hv.sound.nonneg
  -- a removal moves the others up
  have hremove : ∀ f ret user, (removeFirstEvent s.table).list = Fifo.replay []
      (ops (log ++ [.removed f (s.table.events 0), .returned f ret user])) := by
    intro f ret user
    rw [list_removeFirstEvent, hv.list, replay_ops_append]
    rfl
  cases h with
  | refused a now => rwa [List.append_nil]
  | accepts a now e hroom =>
    refine ⟨⟨?_, ?_⟩, ?_⟩
    · show 0 ≤ s.table.nbEvents + 1
      omega
    · show s.table.nbEvents + 1 ≤ nbEventMax
      omega
    · rw [list_store hnonneg, hv.list, replay_ops_append]
      rfl
  | idle f a hempty | delivers f a n hpos hmore hn | faults f a user hpos hmore hfails =>
    refine ⟨hv.sound, ?_⟩
    rw [replay_ops_append]
    exact hv.list
  | removesLast f a hpos hend hlast =>
    exact ⟨sound_removeFirstEvent hv.sound hpos, hremove f _ _⟩
  | removes f a n hmore hend hn hcopied =>
    exact ⟨sound_removeFirstEvent hv.sound (by omega), hremove f _ _⟩
  | loses f a user hmore hend hfails =>
    exact ⟨sound_removeFirstEvent hv.sound (by omega), hremove f _ _⟩

/-- No file ever stands behind the end of a line. -/
theorem Effect.inLine (h : Effect s c s' out) (g : File) (hg : InLine (s.offset g)) :
    InLine (s'.offset g) := by
  -- the file that is read moves to `o`
  have hupdate : ∀ f o, (f = g → InLine o) → InLine (Function.update s.offset f o g) := by
    intro f o ho
    rw [Function.update_apply]
    split_ifs with hfg
    · exact ho hfg.symm
    · exact hg
  have hline₀ := (s.table.events 0).line_length_le
  have hline₁ := (s.table.events 1).line_length_le
  cases h with
  | refused | accepts | idle | faults | loses => exact hg
  | delivers f a n hpos hmore hn =>
    refine hupdate f _ fun hfg => ?_
    obtain ⟨h₀, h₁⟩ := hg
    subst hfg
    exact ⟨by omega, by omega⟩
  | removesLast f a hpos hend hlast => exact hupdate f 0 fun _ => ⟨le_rfl, by decide⟩
  | removes f a n hmore hend hn hcopied => exact hupdate f n fun _ => ⟨by omega, by omega⟩

/-! ### One file -/

/-- The call is a write, or a read through `f` with a positive `max`. -/
def Call.OnlyThrough (f : File) : Call File → Prop
  | .read g a => g = f ∧ 0 < a.max
  | .write _ _ => True

/-- The last call was a read that returned 0. -/
def EndsWithZero (f : File) (log : List (Output File)) : Prop :=
  ∃ log' user, log = log' ++ [.returned f 0 user]

omit [DecidableEq File] in
theorem endsWithZero_snoc {out : Output File} :
    EndsWithZero f (log ++ [out]) ↔ ∃ user, out = .returned f 0 user := by
  constructor
  · rintro ⟨log', user, hlog⟩
    have hlast := List.append_inj_right' hlog rfl
    injection hlast with hhead
    exact ⟨user, hhead⟩
  · rintro ⟨user, rfl⟩
    exact ⟨log, user, rfl⟩

/-- What holds in every run in which only `f` is read. -/
structure Kept (f : File) (s : State File) (log : List (Output File)) : Prop where
  valid : Valid s log
  inLine : InLine (s.offset f)
  start : s.table.nbEvents ≤ 0 → s.offset f = 0
  ended : EndsWithZero f log → s.table.nbEvents = 0

omit [DecidableEq File] in
theorem kept_init {offset : File → ℤ} (h : offset f = 0) : Kept f (init offset) [] where
  valid := valid_init offset
  inLine := ⟨h.ge, h.trans_le (by decide)⟩
  start _ := h
  ended _ := rfl

omit [DecidableEq File] in
theorem Kept.callInLine (h : Kept f s log) (hc : c.OnlyThrough f) : c.InLine s := by
  cases c with
  | read g a => exact hc.1 ▸ h.inLine
  | write => trivial

theorem Kept.effect (h : Kept f s log) (he : Effect s c s' out) (hc : c.OnlyThrough f) :
    Kept f s' (log ++ out) := by
  have hvalid := he.valid h.valid
  have hinLine := he.inLine f h.inLine
  have hnonneg := h.valid.sound.nonneg
  have hremoved := nbEvents_removeFirstEvent s.table
  have hline := (s.table.events 1).line_pos
  -- a read that returns something else does not end the history with a 0
  have hother : ∀ {log₀ : List (Output File)} {g ret user}, ret ≠ 0 →
      EndsWithZero f (log₀ ++ [.returned g ret user]) → s'.table.nbEvents = 0 := by
    intro log₀ g ret user hne hzero
    obtain ⟨user', hout⟩ := endsWithZero_snoc.1 hzero
    cases hout
    exact absurd rfl hne
  have hfault : (-eFault : ℤ) ≠ 0 := by decide
  refine ⟨hvalid, hinLine, ?_, ?_⟩
  · cases he with
    | refused | idle | faults => exact h.start
    | accepts a now e hroom =>
      intro hempty
      have : s.table.nbEvents + 1 ≤ 0 := hempty
      omega
    | delivers g a n hpos => exact fun hempty => absurd hpos (not_lt.2 hempty)
    | removesLast g a hpos hend hlast =>
      obtain ⟨rfl, -⟩ := hc
      exact fun _ => Function.update_self ..
    | removes | loses =>
      intro hempty
      have : (removeFirstEvent s.table).nbEvents ≤ 0 := hempty
      omega
  · cases he with
    | refused =>
      rw [List.append_nil]
      exact h.ended
    | accepts a now e hroom =>
      intro hzero
      obtain ⟨user, hout⟩ := endsWithZero_snoc.1 hzero
      cases hout
    | idle g a hempty => exact fun _ => le_antisymm hempty hnonneg
    | delivers g a n hpos hmore hn =>
      obtain ⟨rfl, hmax⟩ := hc
      exact hother (by omega)
    | faults => exact hother hfault
    | removesLast g a hpos hend hlast =>
      intro _
      show (removeFirstEvent s.table).nbEvents = 0
      omega
    | removes g a n hmore hend hn hcopied =>
      obtain ⟨rfl, hmax⟩ := hc
      rw [List.append_cons]
      exact hother (by omega)
    | loses =>
      rw [List.append_cons]
      exact hother hfault

/-- No copy fails in a read that has removed an event: at the end of the first line, with another
event behind it, as much of the next line as the read takes can be copied. -/
def CopiesAfterRemoval (s : State File) : Call File → Prop
  | .read f a =>
      1 < s.table.nbEvents → (s.table.events 0).line.length ≤ s.offset f →
        min (s.table.events 1).line.length a.max ≤ a.copied
  | .write _ _ => True

instance (s : State File) (c : Call File) : Decidable (CopiesAfterRemoval s c) :=
  match c with
  | .read _ _ => inferInstanceAs (Decidable (_ → _ → _))
  | .write _ _ => .isTrue trivial

/-- The line before the position, what a call returns, and what it removes: nothing is lost, unless a
copy fails after a removal. -/
theorem Effect.conserves (h : Effect s c s' out) (hk : Kept f s log) (hc : c.OnlyThrough f)
    (hcopies : CopiesAfterRemoval s c) :
    firstPart s.table.list (s.offset f) ++ delivered f out =
      lines (Fifo.popped s.table.list (ops out)) ++ firstPart s'.table.list (s'.offset f) := by
  cases h with
  | refused | idle | faults =>
    simp [eFault]
  | accepts a now e hroom =>
    rw [list_store hk.valid.sound.nonneg]
    cases hes : s.table.list with
    | nil =>
      have hempty : s.table.nbEvents ≤ 0 := by
        have hlength := s.table.list_length
        rw [hes, List.length_nil] at hlength
        omega
      simp [hk.start hempty]
    | cons e' es =>
      simp
  | delivers g a n hpos hmore hn =>
    obtain ⟨rfl, hmax⟩ := hc
    obtain ⟨es, hes⟩ := Table.list_eq_cons hpos
    have hn₀ : 0 ≤ n := by omega
    have hbytes : delivered g [.returned g n
        (((s.table.events 0).line.drop (s.offset g).toNat).take n.toNat)] =
        ((s.table.events 0).line.drop (s.offset g).toNat).take n.toNat := by
      simp [hn₀]
    -- the part returned continues the part that lay before the position
    rw [hbytes, hes]
    simp only [Function.update_self]
    simp only [ops_returned, ops_nil, Fifo.popped_keep, Fifo.popped_nil, lines_nil, List.nil_append,
      firstPart_cons]
    rw [Int.toNat_add hk.inLine.1 hn₀, List.take_add]
  | removesLast g a hpos hend hlast =>
    obtain ⟨rfl, hmax⟩ := hc
    obtain ⟨es, hes⟩ := Table.list_eq_cons hpos
    have hall : (s.table.events 0).line.take (s.offset g).toNat = (s.table.events 0).line :=
      List.take_of_length_le (by omega)
    simp [hes, hall]
  | removes g a n hmore hend hn hcopied =>
    obtain ⟨rfl, hmax⟩ := hc
    obtain ⟨es, hes⟩ := Table.list_eq_cons_cons hmore
    have hn₀ : 0 ≤ n := by omega
    have hall : (s.table.events 0).line.take (s.offset g).toNat = (s.table.events 0).line :=
      List.take_of_length_le (by omega)
    simp [list_removeFirstEvent, hes, hall, hn₀]
  | loses g a user hmore hend hfails => exact absurd (hcopies hmore hend) (not_le.2 hfails)

/-- A copy that fails after a removal: the bytes of the next line before the position are skipped. -/
theorem Effect.skips (h : Effect s c s' out) (hc : c.OnlyThrough f)
    (hfails : ¬ CopiesAfterRemoval s c) :
    (firstPart s.table.list (s.offset f)).length + (delivered f out).length <
      (lines (Fifo.popped s.table.list (ops out))).length +
        (firstPart s'.table.list (s'.offset f)).length := by
  cases h with
  | refused | accepts => exact absurd trivial hfails
  | idle g a hempty => exact absurd (fun hmore => absurd hmore (by omega)) hfails
  | delivers g a n hpos hmore hn | faults g a user hpos hmore =>
    obtain ⟨rfl, hmax⟩ := hc
    exact absurd (fun _ hend => absurd hend (not_le.2 hmore)) hfails
  | removesLast g a hpos hend hlast =>
    exact absurd (fun hmore => absurd hmore (not_lt.2 hlast)) hfails
  | removes g a n hmore hend hn hcopied =>
    exact absurd (fun _ _ => by omega) hfails
  | loses g a user hmore hend hfaults =>
    obtain ⟨rfl, hmax⟩ := hc
    obtain ⟨es, hes⟩ := Table.list_eq_cons_cons hmore
    have hline₀ := (s.table.events 0).line_pos
    have hline₁ := (s.table.events 1).line_pos
    simp [list_removeFirstEvent, hes, eFault]
    omega

/-- How many bytes before the position of `f` have not been returned. -/
def lost (f : File) (s : State File) (log : List (Output File)) : ℤ :=
  (lines (Fifo.popped [] (ops log))).length + (firstPart s.table.list (s.offset f)).length -
    (delivered f log).length

theorem lost_append (hk : Kept f s log) :
    lost f s' (log ++ out) = lost f s log +
      ((lines (Fifo.popped s.table.list (ops out))).length +
        (firstPart s'.table.list (s'.offset f)).length -
        ((firstPart s.table.list (s.offset f)).length + (delivered f out).length)) := by
  rw [lost, lost, delivered_append, ops_append, Fifo.popped_append, ← hk.valid.list, lines_append,
    List.length_append, List.length_append]
  push_cast
  ring

theorem Effect.lost_eq (h : Effect s c s' out) (hk : Kept f s log) (hc : c.OnlyThrough f)
    (hcopies : CopiesAfterRemoval s c) : lost f s' (log ++ out) = lost f s log := by
  have hlength := congrArg List.length (h.conserves hk hc hcopies)
  rw [List.length_append, List.length_append] at hlength
  rw [lost_append hk]
  omega

theorem Effect.lost_lt (h : Effect s c s' out) (hk : Kept f s log) (hc : c.OnlyThrough f)
    (hfails : ¬ CopiesAfterRemoval s c) : lost f s log < lost f s' (log ++ out) := by
  have hlength := h.skips hc hfails
  rw [lost_append hk]
  omega

/-- A run in which only `f` is read: nothing is lost exactly when nothing was before, and no copy
fails after a removal. -/
theorem Kept.exec {calls : List (Call File)} (h : Kept f s log) (hlost : 0 ≤ lost f s log)
    (hcalls : ∀ c ∈ calls, c.OnlyThrough f)
    (hrun : (system File).exec s calls = some (s', out)) :
    (Kept f s' (log ++ out) ∧ 0 ≤ lost f s' (log ++ out)) ∧
      (lost f s' (log ++ out) = 0 ↔
        lost f s log = 0 ∧ (system File).Along CopiesAfterRemoval s calls) := by
  have hstep : ∀ (s : State File) (log : List (Output File)) (c : Call File) s' out,
      Kept f s log ∧ 0 ≤ lost f s log → c.OnlyThrough f →
      (system File).step s c = some (s', out) →
      (Kept f s' (log ++ out) ∧ 0 ≤ lost f s' (log ++ out)) ∧
        (lost f s' (log ++ out) = 0 ↔ lost f s log = 0 ∧ CopiesAfterRemoval s c) := by
    rintro s log c s' out ⟨hk, hnonneg⟩ hc hstep
    have he := effect_of_step (hk.callInLine hc) hstep
    by_cases hcopies : CopiesAfterRemoval s c
    · have hlost := he.lost_eq hk hc hcopies
      exact ⟨⟨hk.effect he hc, by omega⟩, by simp only [hlost, hcopies, and_true]⟩
    · have hlost := he.lost_lt hk hc hcopies
      exact ⟨⟨hk.effect he hc, by omega⟩, iff_of_false (by omega) fun hboth => hcopies hboth.2⟩
  have honly : (system File).Along (fun _ c => c.OnlyThrough f) s calls :=
    System.along_of_forall hcalls s
  exact ⟨System.exec_induction_from (fun s log c s' out hI hc hs => (hstep s log c s' out hI hc hs).1)
      ⟨h, hlost⟩ honly hrun,
    System.iff_along_of_step_of_along (Q := fun s log => lost f s log = 0)
      (fun s log c s' out hI hc hs => (hstep s log c s' out hI hc hs).1)
      (fun s log c s' out hI hc hs => (hstep s log c s' out hI hc hs).2) ⟨h, hlost⟩ honly hrun⟩

/-- A read of all that is left of a line. -/
def ReadArgs.whole : ReadArgs := ⟨64, 64, fun _ => 0⟩

/-- Such reads through `f` come to one that returns 0. -/
def ComesToZero (f : File) (s : State File) : Prop :=
  ∃ n s' log, (system File).exec s (List.replicate n (.read f .whole)) = some (s', log) ∧
    EndsWithZero f log

theorem comesToZero_of_step (h : ComesToZero f (step s (.read f .whole)).1) : ComesToZero f s := by
  obtain ⟨n, s', log, hrun, log', user, rfl⟩ := h
  exact ⟨n + 1, s', _, System.exec_cons.2 ⟨_, _, _, rfl, hrun, rfl⟩, _ ++ log', user,
    (List.append_assoc ..).symm⟩

theorem comesToZero_of_returns (h : EndsWithZero f (step s (.read f .whole)).2) :
    ComesToZero f s :=
  ⟨1, _, _, System.exec_cons.2 ⟨_, _, [], rfl, rfl, rfl⟩, by rwa [List.append_nil]⟩

/-- The file can always be read to the end: at the end of a line a read goes on to the next one, and
a read inside a line comes to its end. -/
theorem Kept.comesToZero (h : Kept f s log) : ComesToZero f s := by
  induction hcount : s.table.nbEvents.toNat using Nat.strong_induction_on generalizing s log with
  | _ n ih =>
    have hwhole : (Call.read f .whole).OnlyThrough f := ⟨rfl, by decide⟩
    -- at the end of a line, or on an empty table
    have hatEnd : ∀ s log, Kept f s log → s.table.nbEvents.toNat = n →
        (0 < s.table.nbEvents → (s.table.events 0).line.length ≤ s.offset f) →
        ComesToZero f s := by
      intro s log h hcount hend
      have he := effect_step s (h.callInLine hwhole)
      have hk := h.effect he hwhole
      have hline := (s.table.events 1).line_length_le
      generalize hstep : step s (.read f .whole) = r at he hk
      obtain ⟨s', out⟩ := r
      cases he with
      | idle =>
        refine comesToZero_of_returns ?_
        rw [hstep]
        exact ⟨[], [], rfl⟩
      | delivers _ _ n hpos hmore | faults _ _ user hpos hmore =>
        exact absurd (hend hpos) (not_le.2 hmore)
      | removesLast =>
        refine comesToZero_of_returns ?_
        rw [hstep]
        exact ⟨[.removed f (s.table.events 0)], [], rfl⟩
      | removes _ _ n hmore _ hn hcopied =>
        have hless := nbEvents_removeFirstEvent s.table
        refine comesToZero_of_step (hstep ▸ ih _ ?_ hk rfl)
        show (removeFirstEvent s.table).nbEvents.toNat < _
        omega
      | loses _ _ user hmore _ hfails =>
        simp only [ReadArgs.whole] at hfails
        omega
    by_cases hmore : 0 < s.table.nbEvents ∧ s.offset f < (s.table.events 0).line.length
    · obtain ⟨hpos, hmore⟩ := hmore
      have he := effect_step s (h.callInLine hwhole)
      have hk := h.effect he hwhole
      have hline := (s.table.events 0).line_length_le
      have hnonneg := h.inLine.1
      generalize hstep : step s (.read f .whole) = r at he hk
      obtain ⟨s', out⟩ := r
      cases he with
      | idle _ _ hempty => omega
      | delivers _ _ n _ _ hn =>
        refine comesToZero_of_step (hstep ▸ hatEnd _ _ hk hcount fun _ => ?_)
        simp only [ReadArgs.whole, Function.update_self] at hn ⊢
        omega
      | faults _ _ user _ _ hfails =>
        simp only [ReadArgs.whole] at hfails
        omega
      | removesLast _ _ _ hend | removes _ _ n _ hend | loses _ _ user _ hend =>
        exact absurd hend (not_le.2 hmore)
    · exact hatEnd s log h hcount fun hpos => not_lt.1 fun hless => hmore ⟨hpos, hless⟩

omit [DecidableEq File] in
/-- The lines of the events accepted: those of the events removed, and those in the table. -/
theorem lines_accepted (h : Valid s log) :
    lines (accepted log) = lines (Fifo.popped [] (ops log)) ++ lines s.table.list := by
  rw [accepted, ← List.nil_append (Fifo.pushed _), ← Fifo.popped_append_replay, ← h.list,
    lines_append]

/-- What the reads through `f` are for: what they have returned is a prefix of the lines of the events
accepted, in the order of their insertion; and when a read has just returned 0, these lines have been
returned in full and the table is empty. -/
def Drains (f : File) (s : State File) (log : List (Output File)) : Prop :=
  delivered f log <+: lines (accepted log) ∧
    (EndsWithZero f log → delivered f log = lines (accepted log) ∧ s.table.nbEvents = 0)

/-- What the reads through `f` have returned, when nothing has been lost. -/
structure Drained (f : File) (s : State File) (log : List (Output File)) : Prop extends
    Kept f s log where
  delivered : delivered f log =
    lines (Fifo.popped [] (ops log)) ++ firstPart s.table.list (s.offset f)

theorem Drained.effect (h : Drained f s log) (he : Effect s c s' out) (hc : c.OnlyThrough f)
    (hcopies : CopiesAfterRemoval s c) : Drained f s' (log ++ out) := by
  refine ⟨h.toKept.effect he hc, ?_⟩
  have hpopped : lines (Fifo.popped [] (ops (log ++ out))) =
      lines (Fifo.popped [] (ops log)) ++ lines (Fifo.popped s.table.list (ops out)) := by
    rw [ops_append, Fifo.popped_append, ← h.valid.list, lines_append]
  rw [delivered_append, h.delivered, List.append_assoc, he.conserves h.toKept hc hcopies, hpopped,
    List.append_assoc]

theorem Drained.drains (h : Drained f s log) : Drains f s log := by
  have hall := lines_accepted h.valid
  constructor
  · rw [h.delivered, hall]
    apply (List.prefix_append_right_inj _).2
    cases hlist : s.table.list with
    | nil => exact List.nil_prefix
    | cons e es => exact (List.take_prefix _ _).trans (List.prefix_append _ _)
  · intro hzero
    have hempty := h.ended hzero
    refine ⟨?_, hempty⟩
    rw [h.delivered, hall, Table.list_eq_nil hempty.le]
    rfl

/-- **Draining the log.** In the runs of calls, one at a time, in which one file is read, from offset
0 and with positive sizes, and any copy may fail: when no copy fails in a read that has removed an
event, then in every state of the run the reads have returned a prefix of the lines of the events
accepted, and have returned them in full when a read has just returned 0, the table being empty then.
Every other run goes on, by reads whose copies all succeed, to a read that returns 0 though not all
lines have been returned. -/
theorem drains_iff_copiesAfterRemoval {offset : File → ℤ} (hoffset : offset f = 0)
    {calls : List (Call File)} (hcalls : ∀ c ∈ calls, c.OnlyThrough f) :
    ((system File).Along CopiesAfterRemoval (init offset) calls →
      (system File).Throughout (Drains f) (init offset) [] calls) ∧
    (¬ (system File).Along CopiesAfterRemoval (init offset) calls →
      ∃ n s log,
        (system File).exec (init offset) (calls ++ List.replicate n (.read f .whole)) =
          some (s, log) ∧
        EndsWithZero f log ∧ delivered f log ≠ lines (accepted log)) := by
  have hinit : Kept f (init offset) [] := kept_init hoffset
  constructor
  · intro hcopies
    refine System.throughout_of_along (J := Drained f) (fun s log h => h.drains) ?_
      ⟨hinit, rfl⟩ ((System.along_of_forall hcalls _).and hcopies)
    rintro s log c s' out h ⟨hc, hcopied⟩ hstep
    exact h.effect (effect_of_step (h.callInLine hc) hstep) hc hcopied
  · intro hfails
    obtain ⟨s, log, hrun⟩ := exists_exec (init offset) calls
    obtain ⟨⟨hk, hnonneg⟩, hiff⟩ := hinit.exec le_rfl hcalls hrun
    rw [List.nil_append] at hk hnonneg hiff
    obtain ⟨n, s', log', hreads, hzero⟩ := hk.comesToZero
    have honly : ∀ c ∈ List.replicate n (Call.read f .whole), c.OnlyThrough f := by
      intro c hc
      rw [List.eq_of_mem_replicate hc]
      exact ⟨rfl, by decide⟩
    obtain ⟨⟨hk', -⟩, hiff'⟩ := hk.exec hnonneg honly hreads
    have hended : EndsWithZero f (log ++ log') := by
      obtain ⟨before, user, rfl⟩ := hzero
      exact ⟨log ++ before, user, (List.append_assoc ..).symm⟩
    refine ⟨n, s', log ++ log', System.exec_append hrun hreads, hended, fun hall => ?_⟩
    -- all lines returned and the table empty: then nothing has been lost
    have hempty : s'.table.list = [] := Table.list_eq_nil (hk'.ended hended).le
    have hlost : lost f s' (log ++ log') = 0 := by
      rw [lost, hall, lines_accepted hk'.valid, hempty, lines_nil, List.append_nil, firstPart_nil]
      simp
    exact hfails (hiff.1 (hiff'.1 hlost).1).2

/-- Two events, read in pieces of 9 bytes; the first copy fails. -/
def twoEvents : List (Call ℕ) :=
  [.write ⟨1, .ok 7⟩ 100, .read 0 ⟨9, 0, fun _ => 0⟩, .read 0 ⟨9, 9, fun _ => 0⟩,
    .write ⟨2, .ok (-1)⟩ 2000, .read 0 ⟨9, 9, fun _ => 0⟩, .read 0 ⟨9, 9, fun _ => 0⟩,
    .read 0 ⟨9, 9, fun _ => 0⟩]

/-- The log is drained. -/
theorem drains_iff_copiesAfterRemoval_twoEvents :
    ∃ (s : State ℕ) (log : List (Output ℕ)),
      (system ℕ).exec (init fun _ => 0) twoEvents = some (s, log) ∧ EndsWithZero 0 log ∧
      delivered 0 log = lines (accepted log) ∧ s.table.nbEvents = 0 := by
  obtain ⟨⟨s, log⟩, hrun, hlast⟩ := Option.map_eq_some_iff.1
    (show ((system ℕ).exec (init fun _ => 0) twoEvents).map (fun r => r.2.getLast?) =
      some (some (.returned 0 0 [])) by decide +kernel)
  have hcalls : ∀ c ∈ twoEvents, c.OnlyThrough 0 := by simp [twoEvents, Call.OnlyThrough]
  have hcopies : (system ℕ).Along CopiesAfterRemoval (init fun _ => 0) twoEvents := by
    decide +kernel
  have hzero : EndsWithZero 0 log := (List.getLast?_eq_some_iff.1 hlast).imp fun _ h => ⟨_, h⟩
  have hdrains : Drains 0 s log :=
    ((drains_iff_copiesAfterRemoval (by rfl) hcalls).1 hcopies).last hrun
  exact ⟨s, log, hrun, hzero, hdrains.2 hzero⟩

/-- Two events of 8 bytes; the copy fails in the read that removes the first one. -/
def faultAfterRemoval : List (Call ℕ) :=
  [.write ⟨1, .ok 7⟩ 100, .write ⟨1, .ok 8⟩ 200, .read 0 .whole, .read 0 ⟨64, 0, fun _ => 0⟩,
    .read 0 .whole]

/-- The file stays at 8, where the second line ends too: the next read removes the second event and
returns 0, when 8 of 16 bytes have been returned. -/
theorem second_event_lost :
    (∀ c ∈ faultAfterRemoval, c.OnlyThrough 0) ∧
    ∃ (s : State ℕ) (log : List (Output ℕ)),
      (system ℕ).exec (init fun _ => 0) faultAfterRemoval = some (s, log) ∧ EndsWithZero 0 log ∧
      s.table.nbEvents = 0 ∧ (delivered 0 log).length = 8 ∧ (lines (accepted log)).length = 16 := by
  refine ⟨by simp [faultAfterRemoval, Call.OnlyThrough, ReadArgs.whole], ?_⟩
  obtain ⟨⟨s, log⟩, hrun, hval⟩ := Option.map_eq_some_iff.1
    (show ((system ℕ).exec (init fun _ => 0) faultAfterRemoval).map (fun r =>
        (r.2.getLast?, r.1.table.nbEvents, (delivered 0 r.2).length,
          (lines (accepted r.2)).length)) = some (some (.returned 0 0 []), 0, 8, 16) by
      decide +kernel)
  simp only [Prod.mk.injEq] at hval
  obtain ⟨hlast, hrest⟩ := hval
  exact ⟨s, log, hrun, (List.getLast?_eq_some_iff.1 hlast).imp fun _ h => ⟨_, h⟩, hrest⟩

end IldDrivers.TpIII02
