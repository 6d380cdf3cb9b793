import IldDrivers.Messages.Contents

/-!
# Reading the head of the queue piece by piece

A reader that gives `messages_read` a buffer shorter than the message receives it in pieces. The
pieces are counted by the offset of its file, but the code takes the next one from row number
`*offset` of the array, and only at offset 0 is that the head.

* `ReadsHead`: calls that return the head in pieces, all of them copied from row 0, and then remove
  it;
* `readsHead_iff`: reads of any lengths do so exactly when the first of them takes the whole
  message;
* `chunks_deliver_iff`: the same in the runs of `tp-V-04`.
-/

namespace IldDrivers.TpV04

variable {Pid File : Type*}

/-- Every call has copied its bytes, as many as it returns, from inside row 0: the first from
`messages_array[o]`, each other from where the previous one has left the offset. -/
def CopiedFromHead (f : File) : ℤ → List (Effect File) → Prop
  | _, [] => True
  | o, e :: es => rowAddr 0 ≤ rowAddr o ∧ rowAddr o + e.ret ≤ rowAddr 1 ∧
      CopiedFromHead f (e.after.offset f) es

/-- The first of these calls return the head of the queue piece by piece, from row 0 only, and the
next returns 0 and removes it. -/
def ReadsHead (f : File) (sh : Shared File) (es : List (Effect File)) : Prop :=
  ∃ pieces last rest, es = pieces ++ last :: rest ∧
    (∀ e ∈ pieces, 0 < e.ret) ∧
    pieces.flatMap Effect.user = cstring (sh.queue.row 0) ∧
    CopiedFromHead f (sh.offset f) pieces ∧
    last.ret = 0 ∧ last.user = [] ∧ last.after.queue.rows = sh.queue.rows.tail

variable [DecidableEq File] {abi : Abi} {sh : Shared File} {f : File} {u : UserRead}
  {us : List UserRead}

omit [DecidableEq File] in
/-- At offset 0 the bytes copied are those of the head. -/
theorem source_at_start (q : Queue) (outside : Memory UInt8) {n : ℕ}
    (hn : n ≤ (cstring (q.row 0)).length) :
    q.source outside 0 n = (cstring (q.row 0)).take n := by
  have hle : (cstring (q.row 0)).length ≤ 32 := by
    rw [← q.row_length 0]
    exact (cstring_isPrefix _).length_le
  have htake := Queue.take_drop_cstring q 0 (show 0 + n ≤ (cstring (q.row 0)).length by omega)
  rw [List.drop_zero] at htake
  rw [htake, Queue.source]
  apply Memory.load_congr
  intro i hi
  rw [if_pos (by simp [rowAddr]; omega)]
  simp

/-- A read at offset 0 returns the beginning of the message. -/
theorem call_at_start (abi : Abi) (hsound : sh.queue.Sound) (hcount : sh.queue.messagesCount ≠ 0)
    (hstring : cstring (sh.queue.row 0) ≠ []) (hoffset : sh.offset f = 0)
    (hcopied : u.length ≤ u.copied) :
    let n := min (cstring (sh.queue.row 0)).length u.length
    TpV01.call abi sh (.read f u) =
      ⟨{ sh with offset := Function.update sh.offset f n }, n,
        (cstring (sh.queue.row 0)).take n⟩ := by
  have hlen := hsound.strlenHead_eq
  have hle := hsound.strlenHead_le
  have hpos : 0 < (cstring (sh.queue.row 0)).length := List.length_pos_of_ne_nil hstring
  have hleft : abi.ssize (sh.queue.strlenHead - sh.offset f) = sh.queue.strlenHead := by
    rw [hoffset, sub_zero]
    exact abi.ssize_of_small (by omega) (by omega)
  have hdoes : Does abi sh (.read f u) (TpV01.call abi sh (.read f u)) :=
    does_call (by simpa [blocked] using hcount)
  generalize TpV01.call abi sh (.read f u) = e at hdoes
  cases hdoes with
  | removes _ _ _ hend => omega
  | delivers _ _ n _ _ hn _ =>
    have hn' : n = (min (cstring (sh.queue.row 0)).length u.length : ℕ) := by omega
    rw [hn', hoffset, zero_add, Int.toNat_natCast, source_at_start _ _ (min_le_left _ _)]
  | readFaults _ _ _ hshort => omega

/-- At the end of the message, a read removes it. -/
theorem call_at_end (hsound : sh.queue.Sound) (hcount : sh.queue.messagesCount ≠ 0)
    (hoffset : sh.offset f = (cstring (sh.queue.row 0)).length) :
    TpV01.call abi sh (.read f u) = ⟨{ sh with queue := sh.queue.decrement.shift }, 0, []⟩ := by
  have hleft : abi.ssize (sh.queue.strlenHead - sh.offset f) = 0 := by
    rw [hoffset, hsound.strlenHead_eq, sub_self]
    exact abi.ssize_of_small (by omega) (by omega)
  rw [call_read abi hcount]
  simp only [hleft]
  rw [if_pos le_rfl]

/-- **When reads deliver the head**: reads of positive lengths through one file, the first at offset
0, more than enough of them, return the message in pieces taken from row 0 and remove it exactly
when the first of them has room for the whole message. -/
theorem readsHead_iff (hsound : sh.queue.Sound) (hcount : sh.queue.messagesCount ≠ 0)
    (hstring : cstring (sh.queue.row 0) ≠ []) (hoffset : sh.offset f = 0)
    (hreads : ∀ v ∈ u :: us, 0 < v.length ∧ v.length ≤ v.copied)
    (henough : (cstring (sh.queue.row 0)).length ≤
      ((u :: us).dropLast.map UserRead.length).sum) :
    ReadsHead f sh (TpV01.replay abi sh ((u :: us).map (.read f))) ↔
      (cstring (sh.queue.row 0)).length ≤ u.length := by
  obtain ⟨hpos, hcopied⟩ := hreads u List.mem_cons_self
  have hlen : 0 < (cstring (sh.queue.row 0)).length := List.length_pos_of_ne_nil hstring
  have hfirst := call_at_start abi hsound hcount hstring hoffset hcopied
  simp only [List.map_cons, TpV01.replay]
  rw [hfirst]
  constructor
  · rintro ⟨pieces, last, rest, hes, hret, htext, hrow, hlast, -⟩
    by_contra hshort
    -- the second piece starts at a row that is not the head
    cases pieces with
    | nil => exact hstring htext.symm
    | cons p pieces =>
      obtain ⟨rfl, hes⟩ := List.cons.inj hes
      cases pieces with
      | nil =>
        have hshort' := congrArg List.length htext
        simp only [List.flatMap_cons, List.flatMap_nil, List.append_nil, List.length_take] at hshort'
        omega
      | cons p' pieces =>
        have hret' : 0 < p'.ret := hret p' (by simp)
        have hin := hrow.2.2.2.1
        simp only [Function.update_self, rowAddr, msgLgMax] at hin
        omega
  · intro hlong
    cases us with
    | nil => exact absurd (by simpa using henough) hstring
    | cons v us =>
      have hall : min (cstring (sh.queue.row 0)).length u.length =
          (cstring (sh.queue.row 0)).length := min_eq_left hlong
      simp only [List.map_cons, TpV01.replay]
      have hend : TpV01.call abi
          { sh with offset := Function.update sh.offset f (cstring (sh.queue.row 0)).length }
          (.read f v) = _ := call_at_end hsound hcount (Function.update_self ..)
      rw [hall, List.take_length, hend]
      refine ⟨[_], _, _, rfl, ?_, ?_, ?_, rfl, rfl, Queue.rows_remove _⟩
      · intro e he
        obtain rfl := List.mem_singleton.1 he
        exact Int.natCast_pos.2 hlen
      · simp
      · have hle := hsound.cstring_row_length le_rfl (by decide)
        simp only [CopiedFromHead, hoffset, rowAddr, msgLgMax, and_true]
        omega

/-- **Pieces of the head in the runs of `tp-V-04`**: from a reachable state in which the mutex is
free, calls of which none but reads through a file at offset 0 reach their last section, more than
enough of them, return the message in pieces taken from row 0 and remove it exactly when the first
of them has room for the whole message. -/
theorem chunks_deliver_iff [DecidableEq Pid] {offset : File → ℤ} {acts acts' : List (Act Pid File)}
    {s s' : State Pid File} {log log' : List (Output Pid File)}
    (hrun : (system abi Pid File).exec (init Pid offset) acts = some (s, log))
    (hfree : s.mutex = none) (hcount : s.shared.queue.messagesCount ≠ 0)
    (hstring : cstring (s.shared.queue.row 0) ≠ []) (hoffset : s.shared.offset f = 0)
    (hrun' : (system abi Pid File).exec s acts' = some (s', log'))
    (hcalls : (sections log').map Section.call = (u :: us).map (.read f))
    (hreads : ∀ v ∈ u :: us, 0 < v.length ∧ v.length ≤ v.copied)
    (henough : (cstring (s.shared.queue.row 0)).length ≤
      ((u :: us).dropLast.map UserRead.length).sum) :
    ReadsHead f s.shared ((sections log').map Section.effect) ↔
      (cstring (s.shared.queue.row 0)).length ≤ u.length := by
  have hsound : s.shared.queue.Sound := by
    rw [shared_of_run hrun hfree]
    exact (holds_of_run hrun).sound
  have hchain := chain_of_run (System.exec_append hrun hrun')
  rw [sections_append, chain_append, ← shared_of_run hrun hfree] at hchain
  rw [← hchain.2.replay, hcalls]
  exact readsHead_iff hsound hcount hstring hoffset hreads henough

/-- Process 0 writes "hello" through its file. -/
def helloWritten : List (Act ℕ ℕ) := Act.solo 0 (.write 0 ⟨[104, 101, 108, 108, 111], 5⟩) 8

set_option maxRecDepth 4000 in
/-- A reader with room for 8 bytes receives "hello" in one piece, and the next read removes it. -/
theorem chunks_deliver_iff_hello :
    ∃ (s s' : State ℕ ℕ) (log log' : List (Output ℕ ℕ)),
      (system .lp64 ℕ ℕ).exec (init ℕ fun _ => 0) helloWritten = some (s, log) ∧
      (system .lp64 ℕ ℕ).exec s (Act.solo 1 (.read 1 ⟨8, 8, fun _ => 0⟩) 6 ++
        Act.solo 1 (.read 1 ⟨8, 8, fun _ => 0⟩) 8) = some (s', log') ∧
      cstring (s.shared.queue.row 0) = [104, 101, 108, 108, 111] ∧
      ReadsHead 1 s.shared ((sections log').map Section.effect) := by
  obtain ⟨⟨s, log⟩, hrun⟩ : ∃ r, (system .lp64 ℕ ℕ).exec (init ℕ fun _ => 0) helloWritten =
    some r := ⟨_, rfl⟩
  obtain ⟨⟨s', log'⟩, hrun'⟩ : ∃ r, (system .lp64 ℕ ℕ).exec s
      (Act.solo 1 (.read 1 ⟨8, 8, fun _ => 0⟩) 6 ++ Act.solo 1 (.read 1 ⟨8, 8, fun _ => 0⟩) 8) =
    some r := by cases hrun; exact ⟨_, rfl⟩
  have hcalls : (sections log').map Section.call =
      [⟨8, 8, fun _ => 0⟩, ⟨8, 8, fun _ => 0⟩].map (.read 1) := by
    cases hrun
    cases hrun'
    rfl
  have hfree : s.mutex = none := by cases hrun; rfl
  have hcount : s.shared.queue.messagesCount ≠ 0 := by cases hrun; decide
  have hoffset : s.shared.offset 1 = 0 := by cases hrun; rfl
  have hhello : cstring (s.shared.queue.row 0) = [104, 101, 108, 108, 111] := by cases hrun; rfl
  refine ⟨s, s', log, log', hrun, hrun', hhello, ?_⟩
  exact (chunks_deliver_iff hrun hfree hcount (by simp [hhello]) hoffset hrun' hcalls (by simp)
    (by simp [hhello])).2 (by simp [hhello])

/-- A reader with room for 2 bytes receives "he" and then three NULs, from rows 2 and 4. -/
theorem hello_in_two_pieces :
    ((system .lp64 ℕ ℕ).exec (init ℕ fun _ => 0)
        (helloWritten ++ Act.solo 1 (.read 1 ⟨2, 2, fun _ => 0⟩) 6 ++
          Act.solo 1 (.read 1 ⟨2, 2, fun _ => 0⟩) 6 ++ Act.solo 1 (.read 1 ⟨2, 2, fun _ => 0⟩) 6 ++
          Act.solo 1 (.read 1 ⟨2, 2, fun _ => 0⟩) 8)).map
        (fun r => (sections r.2).map fun x => (x.effect.ret, x.effect.user)) =
      some [(5, []), (2, [104, 101]), (2, [0, 0]), (1, [0]), (0, [])] := by
  decide +kernel

end IldDrivers.TpV04
