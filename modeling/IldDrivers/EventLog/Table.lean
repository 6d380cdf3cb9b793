import IldDrivers.Kernel
import IldDrivers.Lib.Decimal
import IldDrivers.Lib.Fifo
import Mathlib.Tactic

/-!
# The event log (`tp-III-02`)

A table of at most `NB_EVENT_MAX` timed events. A write adds an event at the end, a read returns the
line of the first event piece by piece, and the read that comes after the last piece removes it
and goes on with the next event.

* `Table` and the helper functions on it, under the names of the source;
* `logRead`, `logWrite`: the two operations of the `/proc` entry;
* `Reads`, `logRead_reads`: what a read can do on a sound table.

The local array `string` of `log_read` is a block of stack memory at address 0; what lies around it
and in it before is an argument (`ReadArgs.stack`). The time read from the clock and the result of
`kstrtoint_from_user` are arguments too. `*offset` is a copy of the position of the open file, which
`read` writes back when `log_read` does not fail (`filePosition`).
-/

namespace IldDrivers.TpIII02

def nbEventMax : ℤ := 64

structure TimedEvent where
  data : Int32
  time : Int64
  deriving DecidableEq

/-- The globals of the module. -/
structure Table where
  events : Memory TimedEvent
  nbEvents : ℤ

/-- The zero-initialised module. -/
def Table.init : Table := ⟨fun _ => ⟨0, 0⟩, 0⟩

/-- The events in the table, the first one first. -/
def Table.list (t : Table) : List TimedEvent := t.events.load 0 t.nbEvents.toNat

def eventTableEmpty (t : Table) : Bool := decide (t.nbEvents ≤ 0)

def eventTableFull (t : Table) : Bool := decide (t.nbEvents ≥ nbEventMax)

/-- `add_event_to_table`, `now` being the time read from the clock. -/
def addEventToTable (t : Table) (data : Int32) (now : Int64) : Table × ℤ :=
  if eventTableFull t then (t, -eNoSpc)
  else (⟨t.events.store t.nbEvents [⟨data, now⟩], t.nbEvents + 1⟩, 0)

def removeFirstEvent (t : Table) : Table :=
  let t : Table := { t with nbEvents := t.nbEvents - 1 }
  if !eventTableEmpty t then { t with events := t.events.move 0 1 t.nbEvents.toNat } else t

/-- The text `"[%lld] %d\n"`. -/
def TimedEvent.line (e : TimedEvent) : List UInt8 :=
  [91] ++ decimal e.time.toInt ++ [93, 32] ++ decimal e.data.toInt ++ [10]

/-- `format_first_event`: `snprintf` into `string`, of which it is told `max - 1` bytes. -/
def formatFirstEvent (t : Table) (string : Memory UInt8) (max : ℕ) : Memory UInt8 :=
  string.store 0 ((t.events 0).line.take (max - 1 - 1) ++ [0])

/-- What a caller of `log_read` brings: the size of its buffer, how many bytes can be copied into
it, and the stack on which `string` lies. -/
structure ReadArgs where
  max : ℕ
  copied : ℕ
  stack : Memory UInt8

/-- The effect of `log_read`: the table and the `*offset` it leaves, the value it returns, and the
bytes it puts in the caller's buffer. -/
structure ReadOutcome where
  table : Table
  offset : ℤ
  ret : ℤ
  user : List UInt8

/-- The position of the open file after a `read`: `log_read` has returned `ret` and left `offset`. -/
def filePosition (position offset ret : ℤ) : ℤ := if 0 ≤ ret then offset else position

/-- `strlen(string)`. -/
def strlen (string : Memory UInt8) : ℕ := (cstring (string.load 0 64)).length

/-- The statements of `log_read` from the test against `max` on. -/
def copyOut (t : Table) (string : Memory UInt8) (offset charsToReturn : ℤ) (a : ReadArgs) :
    ReadOutcome :=
  let chars := if charsToReturn > a.max then (a.max : ℤ) else charsToReturn
  let r := copyToUser (string.load offset chars.toNat) a.copied
  if r.2 ≠ 0 then ⟨t, offset, -eFault, r.1⟩ else ⟨t, offset + chars, chars, r.1⟩

def logRead (t : Table) (offset : ℤ) (a : ReadArgs) : ReadOutcome :=
  if eventTableEmpty t then ⟨t, offset, 0, []⟩
  else
    let string := formatFirstEvent t a.stack 64
    let charsToReturn := cInt (strlen string - offset)
    if charsToReturn ≤ 0 then
      let t := removeFirstEvent t
      if eventTableEmpty t then ⟨t, 0, 0, []⟩
      else
        let string := formatFirstEvent t string 64
        let charsToReturn := cInt (strlen string - 0)
        if charsToReturn ≤ 0 then ⟨t, 0, 0, []⟩ else copyOut t string 0 charsToReturn a
    else copyOut t string offset charsToReturn a

/-- What a caller of `log_write` brings: the size of its text and what `kstrtoint_from_user` makes of
it. -/
structure WriteArgs where
  nb : ℕ
  parsed : Except ℤ Int32

/-- `log_write`: the table it leaves and the value it returns. -/
def logWrite (t : Table) (a : WriteArgs) (now : Int64) : Table × ℤ :=
  match a.parsed with
  | .error err => (t, err)
  | .ok value =>
      let r := addEventToTable t value now
      if r.2 ≠ 0 then (r.1, -eNoSpc) else (r.1, a.nb)

/-! ### The text of an event -/

/-- A line fits into `string`. -/
theorem TimedEvent.line_length_le (e : TimedEvent) : e.line.length ≤ 35 := by
  have htime : (decimal e.time.toInt).length ≤ 19 + 1 := by
    have h₁ := e.time.le_toInt
    have h₂ := e.time.toInt_lt
    exact decimal_length_le (by decide) (by omega)
  have hdata : (decimal e.data.toInt).length ≤ 10 + 1 := by
    have h₁ := e.data.le_toInt
    have h₂ := e.data.toInt_lt
    exact decimal_length_le (by decide) (by omega)
  simp only [line, List.length_append, List.length_cons, List.length_nil]
  omega

theorem TimedEvent.line_pos (e : TimedEvent) : 0 < e.line.length := by
  simp only [line, List.length_append, List.length_cons, List.length_nil]
  omega

theorem TimedEvent.nulFree_line (e : TimedEvent) : NulFree e.line := by
  have htime := nulFree_decimal e.time.toInt
  have hdata := nulFree_decimal e.data.toInt
  intro b hb
  simp only [line, List.mem_append, List.mem_cons, List.not_mem_nil, or_false] at hb
  rcases hb with (((rfl | hb) | rfl | rfl) | hb) | rfl
  · decide
  · exact htime b hb
  · decide
  · decide
  · exact hdata b hb
  · decide

/-- What `format_first_event` leaves in `string`. -/
theorem formatFirstEvent_isPrefix (t : Table) (string : Memory UInt8) :
    (t.events 0).line ++ [0] <+: (formatFirstEvent t string 64).load 0 64 := by
  have hlen := (t.events 0).line_length_le
  have htake : (t.events 0).line.take (64 - 1 - 1) = (t.events 0).line :=
    List.take_of_length_le (by omega)
  rw [formatFirstEvent, htake]
  refine Memory.isPrefix_load_store string 0 ?_
  rw [List.length_append, List.length_singleton]
  omega

theorem strlen_formatFirstEvent (t : Table) (string : Memory UInt8) :
    strlen (formatFirstEvent t string 64) = (t.events 0).line.length :=
  congrArg List.length
    (cstring_of_isPrefix (t.events 0).nulFree_line (formatFirstEvent_isPrefix t string))

/-- A part of `string` is a part of the line. -/
theorem load_formatFirstEvent_part (t : Table) (string : Memory UInt8) {o n : ℕ}
    (h : o + n ≤ (t.events 0).line.length) :
    (formatFirstEvent t string 64).load o n = ((t.events 0).line.drop o).take n := by
  have hbegins := (List.prefix_append _ [0]).trans (formatFirstEvent_isPrefix t string)
  rw [← Memory.load_part hbegins h, zero_add]

/-! ### The operations on the table -/

/-- The count is in bounds. -/
structure Table.Sound (t : Table) : Prop where
  nonneg : 0 ≤ t.nbEvents
  le_max : t.nbEvents ≤ nbEventMax

theorem Table.list_length (t : Table) : t.list.length = t.nbEvents.toNat := Memory.load_length ..

/-- The first event of a table that is not empty. -/
theorem Table.list_eq_cons {t : Table} (h : 0 < t.nbEvents) :
    ∃ es, t.list = t.events 0 :: es := by
  obtain ⟨n, hn⟩ : ∃ n, t.nbEvents.toNat = 1 + n := ⟨t.nbEvents.toNat - 1, by omega⟩
  exact ⟨_, by rw [list, hn, Memory.load_add]; rfl⟩

theorem Table.list_eq_nil {t : Table} (h : t.nbEvents ≤ 0) : t.list = [] := by
  rw [← List.length_eq_zero_iff, list_length]
  omega

theorem nbEvents_removeFirstEvent (t : Table) :
    (removeFirstEvent t).nbEvents = t.nbEvents - 1 := by
  simp only [removeFirstEvent]
  split_ifs <;> rfl

/-- `remove_first_event` drops the first event and moves the others up. -/
theorem list_removeFirstEvent (t : Table) : (removeFirstEvent t).list = t.list.tail := by
  by_cases h : t.nbEvents - 1 ≤ 0
  · have hcount : t.list.length ≤ 1 := by rw [Table.list_length]; omega
    rw [Table.list_eq_nil (by rw [nbEvents_removeFirstEvent]; exact h)]
    exact (List.eq_nil_of_length_eq_zero (by rw [List.length_tail]; omega)).symm
  · obtain ⟨n, hn⟩ : ∃ n, t.nbEvents.toNat = 1 + n := ⟨t.nbEvents.toNat - 1, by omega⟩
    have hcount : (removeFirstEvent t).nbEvents.toNat = n := by
      rw [nbEvents_removeFirstEvent]
      omega
    have hevents : (removeFirstEvent t).events = t.events.move 0 1 (t.nbEvents - 1).toNat := by
      simp only [removeFirstEvent, eventTableEmpty, decide_eq_false h, Bool.not_false, if_true]
    unfold Table.list
    rw [hcount, hevents, hn, Memory.load_add, Memory.load_move le_rfl (by omega)]
    rfl

/-- The first two events of a table that has them. -/
theorem Table.list_eq_cons_cons {t : Table} (h : 1 < t.nbEvents) :
    ∃ es, t.list = t.events 0 :: t.events 1 :: es := by
  obtain ⟨n, hn⟩ : ∃ n, t.nbEvents.toNat = 1 + (1 + n) := ⟨t.nbEvents.toNat - 2, by omega⟩
  exact ⟨_, by rw [list, hn, Memory.load_add, Memory.load_add]; rfl⟩

/-- The second event becomes the first. -/
theorem events_removeFirstEvent {t : Table} (h : 1 < t.nbEvents) :
    (removeFirstEvent t).events 0 = t.events 1 := by
  obtain ⟨es, hes⟩ := Table.list_eq_cons_cons h
  obtain ⟨es', hes'⟩ := Table.list_eq_cons (t := removeFirstEvent t)
    (by rw [nbEvents_removeFirstEvent]; omega)
  rw [list_removeFirstEvent, hes] at hes'
  injection hes' with hhead
  exact hhead.symm

theorem sound_removeFirstEvent {t : Table} (h : t.Sound) (hpos : 0 < t.nbEvents) :
    (removeFirstEvent t).Sound where
  nonneg := by rw [nbEvents_removeFirstEvent]; omega
  le_max := by have := h.le_max; rw [nbEvents_removeFirstEvent]; omega

/-- `add_event_to_table` on a table that is not full. -/
theorem addEventToTable_eq {t : Table} (h : t.nbEvents < nbEventMax) (data : Int32) (now : Int64) :
    addEventToTable t data now =
      (⟨t.events.store t.nbEvents [⟨data, now⟩], t.nbEvents + 1⟩, 0) := by
  rw [addEventToTable, eventTableFull, decide_eq_false (by omega)]
  rfl

theorem list_store {t : Table} (h : 0 ≤ t.nbEvents) (e : TimedEvent) :
    Table.list ⟨t.events.store t.nbEvents [e], t.nbEvents + 1⟩ = t.list ++ [e] := by
  have hcount : (t.nbEvents + 1).toNat = t.nbEvents.toNat + 1 := by omega
  unfold Table.list
  rw [hcount, Memory.load_add, zero_add, Int.toNat_of_nonneg h]
  congr 1
  · exact Memory.load_store_of_disjoint (.inl (by omega))
  · exact Memory.load_store _ _ [e]

/-! ### What a read does -/

/-- The end of `log_read`: bytes of the first line are returned, or the copy fails. -/
inductive Serves (t : Table) (offset : ℤ) (a : ReadArgs) : ReadOutcome → Prop
  | delivers (n : ℤ) (hn : n = min ((t.events 0).line.length - offset) a.max)
      (hcopied : n.toNat ≤ a.copied) :
      Serves t offset a
        ⟨t, offset + n, n, ((t.events 0).line.drop offset.toNat).take n.toNat⟩
  | faults (user : List UInt8)
      (hfails : a.copied < (min ((t.events 0).line.length - offset) (a.max : ℤ)).toNat) :
      Serves t offset a ⟨t, offset, -eFault, user⟩

/-- `log_read` on a sound table, at an offset that an open file can have. -/
inductive Reads (t : Table) (offset : ℤ) (a : ReadArgs) : ReadOutcome → Prop
  | empty (hempty : t.nbEvents ≤ 0) : Reads t offset a ⟨t, offset, 0, []⟩
  /-- The line is not at its end for this file. -/
  | goesOn (hpos : 0 < t.nbEvents) (hmore : offset < (t.events 0).line.length) (o : ReadOutcome)
      (hserves : Serves t offset a o) : Reads t offset a o
  /-- The first event is removed, and was the last. -/
  | removesLast (hpos : 0 < t.nbEvents) (hend : (t.events 0).line.length ≤ offset)
      (hempty : (removeFirstEvent t).nbEvents ≤ 0) :
      Reads t offset a ⟨removeFirstEvent t, 0, 0, []⟩
  /-- The first event is removed, and the next one served. -/
  | removes (hpos : 0 < t.nbEvents) (hend : (t.events 0).line.length ≤ offset)
      (hmore : 0 < (removeFirstEvent t).nbEvents) (o : ReadOutcome)
      (hserves : Serves (removeFirstEvent t) 0 a o) : Reads t offset a o

/-- The count of characters is not affected by its conversion to `int`. -/
theorem charsToReturn_eq (t : Table) (string : Memory UInt8) {offset : ℤ} (h₀ : 0 ≤ offset)
    (h₁ : offset ≤ 35) :
    cInt (strlen (formatFirstEvent t string 64) - offset) =
      (t.events 0).line.length - offset := by
  have hlen := (t.events 0).line_length_le
  rw [strlen_formatFirstEvent, cInt_of_small (by omega) (by omega)]

theorem copyOut_serves (t : Table) (string : Memory UInt8) {offset : ℤ} (h₀ : 0 ≤ offset)
    (hmore : offset < (t.events 0).line.length) (a : ReadArgs) :
    Serves t offset a
      (copyOut t (formatFirstEvent t string 64) offset ((t.events 0).line.length - offset) a) := by
  set lg : ℤ := (t.events 0).line.length - offset with hlg
  have hchars : (if lg > a.max then (a.max : ℤ) else lg) = min lg a.max := by
    split_ifs <;> omega
  have hload : (formatFirstEvent t string 64).load offset (min lg a.max).toNat =
      ((t.events 0).line.drop offset.toNat).take (min lg a.max).toNat := by
    rw [← load_formatFirstEvent_part t string (by omega), Int.toNat_of_nonneg h₀]
  simp only [copyOut, hchars]
  rw [hload]
  by_cases hcopy : (copyToUser (((t.events 0).line.drop offset.toNat).take (min lg a.max).toNat)
      a.copied).2 ≠ 0
  · rw [if_pos hcopy]
    refine .faults _ ?_
    simp only [copyToUser, List.length_take, List.length_drop] at hcopy
    omega
  · rw [if_neg hcopy, copyToUser_complete (not_not.1 hcopy)]
    refine .delivers _ rfl ?_
    simp only [copyToUser, List.length_take, List.length_drop] at hcopy
    omega

theorem logRead_reads (t : Table) {offset : ℤ} (h₀ : 0 ≤ offset) (h₁ : offset ≤ 35)
    (a : ReadArgs) : Reads t offset a (logRead t offset a) := by
  unfold logRead
  by_cases hempty : t.nbEvents ≤ 0
  · rw [if_pos (by simpa [eventTableEmpty] using hempty)]
    exact .empty hempty
  · have hpos : 0 < t.nbEvents := by omega
    rw [if_neg (by simpa [eventTableEmpty] using hempty)]
    simp only [charsToReturn_eq t a.stack h₀ h₁]
    by_cases hend : ((t.events 0).line.length : ℤ) - offset ≤ 0
    · rw [if_pos hend]
      by_cases hlast : (removeFirstEvent t).nbEvents ≤ 0
      · rw [if_pos (by simpa [eventTableEmpty] using hlast)]
        exact .removesLast hpos (by omega) hlast
      · have hline := ((removeFirstEvent t).events 0).line_pos
        rw [if_neg (by simpa [eventTableEmpty] using hlast)]
        simp only [charsToReturn_eq (removeFirstEvent t) _ le_rfl (show (0 : ℤ) ≤ 35 by decide)]
        rw [if_neg (by omega)]
        exact .removes hpos (by omega) (by omega) _ (copyOut_serves _ _ le_rfl (by omega) a)
    · rw [if_neg hend]
      exact .goesOn hpos (by omega) _ (copyOut_serves t _ h₀ (by omega) a)

end IldDrivers.TpIII02
