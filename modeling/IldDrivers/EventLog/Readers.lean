import IldDrivers.EventLog.Drain
import IldDrivers.Lib.History

/-!
# Several readers of the event log

The end of an event is recognised by the offset of the file that is read, but the offset of another
file may have come from an event that has been removed in the meantime. `removed_in_full_iff` says
exactly which events are removed after one file has been returned their whole line;
`event_removed_unread` is a run in which one is not.

* `watch`: the history since the present first event became the first, and before;
* `offsetAfter`: the offset of a file after a history;
* `ReturnedInFull`: one file alone has been returned the line while the event was the first.
-/

namespace IldDrivers.TpIII02

variable {File : Type*} [DecidableEq File]

/-- What a history tells of a file: the `*offset` of its reads, and the position that the last read
has written back. -/
structure Cursor where
  offset : ℤ
  position : ℤ

def Cursor.move (f : File) (c : Cursor) : Output File → Cursor
  | .accepted _ => c
  | .removed g _ => if g = f then ⟨0, c.position⟩ else c
  | .returned g ret _ =>
      if g = f then if 0 ≤ ret then ⟨c.offset + ret, c.offset + ret⟩ else ⟨c.position, c.position⟩
      else c

def cursor (f : File) (log : List (Output File)) : Cursor := log.foldl (Cursor.move f) ⟨0, 0⟩

/-- The offset of a file, opened at 0, after a history. -/
def offsetAfter (f : File) (log : List (Output File)) : ℤ := (cursor f log).offset

/-- A history, cut where the present first event became the first. -/
structure Watch (File : Type*) where
  before : List (Output File)
  since : List (Output File)

/-- The last entry is a removal: the read that has made it has not returned yet. -/
def justRemoved (log : List (Output File)) : Bool :=
  match log.getLast? with
  | some (.removed _ _) => true
  | _ => false

/-- Another event becomes the first: a removal, or the insertion into an empty table. When the read
that has made the removal fails, its file is back where it was, and the history is cut there. -/
def newFirst (log : List (Output File)) : Output File → Bool
  | .accepted _ => (Fifo.replay [] (ops log)).isEmpty
  | .removed _ _ => true
  | .returned _ ret _ => decide (ret < 0) && justRemoved log

def Watch.add (w : Watch File) (out : Output File) : Watch File :=
  if newFirst (w.before ++ w.since) out then ⟨w.before ++ w.since ++ [out], []⟩
  else ⟨w.before, w.since ++ [out]⟩

def watch (log : List (Output File)) : Watch File := log.foldl Watch.add ⟨[], []⟩

/-- Some file has been returned the line of `e`, the first event, since it became the first. -/
def ReturnedInFull (log : List (Output File)) (e : TimedEvent) : Prop :=
  ∃ f, delivered f (watch log).since = e.line

/-- Some file was at offset 0 when `e` became the first event, and has come to the end of its
line. -/
def ReadFromStart (log : List (Output File)) (e : TimedEvent) : Prop :=
  ∃ f, offsetAfter f (watch log).before = 0 ∧ (e.line.length : ℤ) ≤ offsetAfter f log

theorem cursor_append (f : File) (log out : List (Output File)) :
    cursor f (log ++ out) = out.foldl (Cursor.move f) (cursor f log) := List.foldl_append

omit [DecidableEq File] in
theorem watch_snoc (log : List (Output File)) (out : Output File) :
    watch (log ++ [out]) = (watch log).add out := by
  rw [watch, List.foldl_append]
  rfl

omit [DecidableEq File] in
/-- The two parts of a watch are the history. -/
theorem watch_append (log : List (Output File)) : (watch log).before ++ (watch log).since = log := by
  induction log using List.reverseRecOn with
  | nil => rfl
  | append_singleton log out ih =>
    rw [watch_snoc, Watch.add]
    split_ifs
    · rw [List.append_nil, ih]
    · rw [← List.append_assoc, ih]

omit [DecidableEq File] in
theorem watch_of_newFirst {log : List (Output File)} {out : Output File}
    (h : newFirst log out = true) : watch (log ++ [out]) = ⟨log ++ [out], []⟩ := by
  rw [watch_snoc, Watch.add, watch_append, if_pos h]

omit [DecidableEq File] in
theorem watch_of_same {log : List (Output File)} {out : Output File}
    (h : newFirst log out = false) :
    watch (log ++ [out]) = ⟨(watch log).before, (watch log).since ++ [out]⟩ := by
  rw [watch_snoc, Watch.add, watch_append, if_neg (by simp [h])]

/-- The line of the first event. -/
def firstLine : List TimedEvent → List UInt8
  | [] => []
  | e :: _ => e.line

/-- Every removal up to now, judged by what had been returned of the event. -/
def Judged (log : List (Output File)) : Prop :=
  History.EachAfter (fun pre out => ∀ g e, out = .removed g e →
    (ReturnedInFull pre e ↔ ReadFromStart pre e)) log

/-- What each file has been returned of the first event, in terms of the offsets. -/
structure Tracked (s : State File) (log : List (Output File)) : Prop where
  valid : Valid s log
  inLine : ∀ f, InLine (s.offset f)
  cursor : ∀ f, cursor f log = ⟨s.offset f, s.offset f⟩
  before_nonneg : ∀ f, 0 ≤ offsetAfter f (watch log).before
  before_le : ∀ f, offsetAfter f (watch log).before ≤ s.offset f
  delivered : ∀ f, delivered f (watch log).since =
    ((firstLine s.table.list).drop (offsetAfter f (watch log).before).toNat).take
      (s.offset f - offsetAfter f (watch log).before).toNat
  judged : Judged log

theorem tracked_init : Tracked (init fun _ => 0 : State File) [] where
  valid := valid_init _
  inLine _ := ⟨le_rfl, show (0 : ℤ) ≤ 35 by decide⟩
  cursor _ := rfl
  before_nonneg _ := le_rfl
  before_le _ := le_rfl
  delivered _ := rfl
  judged := History.eachAfter_nil

/-- A file has the whole first line exactly when it was at 0 and is at the end. -/
theorem take_drop_eq_iff {l : List UInt8} (hl : 0 < l.length) {o o' : ℤ} (h₀ : 0 ≤ o) (h : o ≤ o') :
    (l.drop o.toNat).take (o' - o).toNat = l ↔ o = 0 ∧ (l.length : ℤ) ≤ o' := by
  constructor
  · intro hall
    have hlen := congrArg List.length hall
    rw [List.length_take, List.length_drop] at hlen
    omega
  · rintro ⟨rfl, hend⟩
    rw [Int.toNat_zero, List.drop_zero, sub_zero, List.take_of_length_le (by omega)]

variable {s s' : State File} {log : List (Output File)}

theorem Tracked.offset (h : Tracked s log) (f : File) : offsetAfter f log = s.offset f :=
  congrArg Cursor.offset (h.cursor f)

/-- The removal of the first event, judged by what has been returned of it. -/
theorem Tracked.judge (h : Tracked s log) (hpos : 0 < s.table.nbEvents) :
    ReturnedInFull log (s.table.events 0) ↔ ReadFromStart log (s.table.events 0) := by
  obtain ⟨es, hes⟩ := Table.list_eq_cons hpos
  unfold ReturnedInFull ReadFromStart
  refine exists_congr fun f => ?_
  rw [h.delivered f, hes, h.offset f]
  exact take_drop_eq_iff (s.table.events 0).line_pos (h.before_nonneg f) (h.before_le f)

/-- An entry that is not a removal. -/
theorem Tracked.judged_snoc (h : Tracked s log) {out : Output File}
    (hout : ∀ g e, out ≠ .removed g e) : Judged (log ++ [out]) :=
  History.eachAfter_snoc.2 ⟨h.judged, fun g e he => absurd he (hout g e)⟩

/-- A removal, and the return of the read that has made it. -/
theorem Tracked.judged_removal (h : Tracked s log) (hpos : 0 < s.table.nbEvents) (g : File) (ret : ℤ)
    (user : List UInt8) :
    Judged (log ++ [.removed g (s.table.events 0), .returned g ret user]) := by
  rw [List.append_cons]
  refine History.eachAfter_snoc.2 ⟨History.eachAfter_snoc.2 ⟨h.judged, ?_⟩, fun g' e he => by cases he⟩
  intro g' e he
  cases he
  exact h.judge hpos

/-- The history is cut: nothing has been returned of the first event. -/
theorem tracked_of_cut (hvalid : Valid s' log) (hinLine : ∀ f, InLine (s'.offset f))
    (hcursor : ∀ f, TpIII02.cursor f log = ⟨s'.offset f, s'.offset f⟩)
    (hjudged : Judged log) (hcut : watch log = ⟨log, []⟩) : Tracked s' log := by
  have hoffset : ∀ f, offsetAfter f log = s'.offset f := fun f => congrArg Cursor.offset (hcursor f)
  refine ⟨hvalid, hinLine, hcursor, ?_, ?_, ?_, hjudged⟩ <;> rw [hcut]
  · exact fun f => hoffset f ▸ (hinLine f).1
  · exact fun f => (hoffset f).le
  · intro f
    rw [hoffset f, sub_self]
    rfl

/-- The first event stays, and a file gets the bytes by which it advances. -/
theorem Tracked.goOn (h : Tracked s log) {out : Output File} (hsame : newFirst log out = false)
    (hvalid : Valid s' (log ++ [out])) (hinLine : ∀ f, InLine (s'.offset f))
    (hcursor : ∀ f, TpIII02.cursor f (log ++ [out]) = ⟨s'.offset f, s'.offset f⟩)
    (hjudged : Judged (log ++ [out])) (hle : ∀ f, s.offset f ≤ s'.offset f)
    (hdelivered : ∀ f b, 0 ≤ b → b ≤ s.offset f →
      ((firstLine s.table.list).drop b.toNat).take (s.offset f - b).toNat ++
          TpIII02.delivered f [out] =
        ((firstLine s'.table.list).drop b.toNat).take (s'.offset f - b).toNat) :
    Tracked s' (log ++ [out]) := by
  refine ⟨hvalid, hinLine, hcursor, ?_, ?_, ?_, hjudged⟩ <;> rw [watch_of_same hsame]
  · exact h.before_nonneg
  · exact fun f => (h.before_le f).trans (hle f)
  · intro f
    rw [delivered_append, h.delivered f]
    exact hdelivered f _ (h.before_nonneg f) (h.before_le f)

/-- The items from `a` up to `b`, and the `r` items from `b` on. -/
theorem take_append_take_drop {α : Type*} (l : List α) {a b r : ℤ} (ha : 0 ≤ a) (hab : a ≤ b)
    (hr : 0 ≤ r) :
    (l.drop a.toNat).take (b - a).toNat ++ (l.drop b.toNat).take r.toNat =
      (l.drop a.toNat).take (b + r - a).toNat := by
  have hlength : (b + r - a).toNat = (b - a).toNat + r.toNat := by omega
  have hnext : a.toNat + (b - a).toNat = b.toNat := by omega
  rw [hlength, List.take_add, List.drop_drop, hnext]

/-- A write is accepted. -/
theorem Tracked.accept (h : Tracked s log) {e : TimedEvent} (hoffset : s'.offset = s.offset)
    (hlist : s'.table.list = s.table.list ++ [e]) (hvalid : Valid s' (log ++ [.accepted e])) :
    Tracked s' (log ++ [.accepted e]) := by
  have hinLine : ∀ f, InLine (s'.offset f) := hoffset ▸ h.inLine
  have hcursor : ∀ f, TpIII02.cursor f (log ++ [.accepted e]) = ⟨s'.offset f, s'.offset f⟩ :=
    fun f => by
      rw [cursor_append, h.cursor f, hoffset]
      rfl
  have hjudged : Judged (log ++ [.accepted e]) := h.judged_snoc fun g e' he => by cases he
  cases hes : s.table.list with
  | nil =>
    -- the table was empty, and the new event is its first
    refine tracked_of_cut hvalid hinLine hcursor hjudged (watch_of_newFirst ?_)
    rw [newFirst, ← h.valid.list, hes]
    rfl
  | cons e' es =>
    -- the new event comes last, and the first one stays
    refine h.goOn ?_ hvalid hinLine hcursor hjudged (fun f => hoffset ▸ le_rfl) fun f b _ _ => ?_
    · rw [newFirst, ← h.valid.list, hes]
      rfl
    · rw [hlist, hes, hoffset]
      exact List.append_nil _

/-- A read through `g` returns: its file advances by as many bytes of the first line as it got. -/
theorem Tracked.advance (h : Tracked s log) {g : File} {n : ℤ} (hn : 0 ≤ n) {user : List UInt8}
    (htable : s'.table = s.table) (hoffset : s'.offset = Function.update s.offset g (s.offset g + n))
    (huser : user = ((firstLine s.table.list).drop (s.offset g).toNat).take n.toNat)
    (hvalid : Valid s' (log ++ [.returned g n user])) (hinLine : ∀ f, InLine (s'.offset f)) :
    Tracked s' (log ++ [.returned g n user]) := by
  have hsame : newFirst log (.returned g n user) = false := by
    rw [newFirst, decide_eq_false (not_lt.2 hn), Bool.false_and]
  refine h.goOn hsame hvalid hinLine ?_ (h.judged_snoc fun g' e he => by cases he) ?_ ?_
  · intro f
    rw [cursor_append, h.cursor f, hoffset, Function.update_apply]
    by_cases hfg : f = g
    · subst hfg
      simp [Cursor.move, hn]
    · simp [Cursor.move, hfg, Ne.symm hfg]
  · intro f
    rw [hoffset, Function.update_apply]
    split_ifs with hfg
    · subst hfg
      omega
    · exact le_rfl
  · intro f b hb₀ hb
    rw [htable, hoffset, Function.update_apply]
    by_cases hfg : f = g
    · -- the new bytes continue those returned before
      subst hfg
      have hbytes : TpIII02.delivered f [.returned f n user] = user := by
        simp [hn]
      rw [hbytes, huser, if_pos rfl]
      exact take_append_take_drop _ hb₀ hb hn
    · simp [hfg, Ne.symm hfg]

/-- A read fails and has removed nothing. -/
theorem Tracked.fail (h : Tracked s log) {g : File} {ret : ℤ} (hret : ret < 0) {user : List UInt8}
    (hvalid : Valid s (log ++ [.returned g ret user])) : Tracked s (log ++ [.returned g ret user]) := by
  have hcursor : ∀ f, TpIII02.cursor f (log ++ [.returned g ret user]) = ⟨s.offset f, s.offset f⟩ := by
    intro f
    rw [cursor_append, h.cursor f]
    simp [Cursor.move, not_le.2 hret]
  have hjudged : Judged (log ++ [.returned g ret user]) := h.judged_snoc fun g' e he => by cases he
  cases hcut : newFirst log (.returned g ret user) with
  | true => exact tracked_of_cut hvalid h.inLine hcursor hjudged (watch_of_newFirst hcut)
  | false =>
    refine h.goOn hcut hvalid h.inLine hcursor hjudged (fun f => le_rfl) fun f b _ _ => ?_
    simp [not_le.2 hret]

/-- The first event is removed through `g`, which is then returned the first bytes of the next
line. -/
theorem Tracked.remove (h : Tracked s log) (hpos : 0 < s.table.nbEvents) {g : File} {n : ℤ}
    (hn : 0 ≤ n) {user : List UInt8} (hoffset : s'.offset = Function.update s.offset g n)
    (huser : user = (firstLine s'.table.list).take n.toNat)
    (hvalid : Valid s' (log ++ [.removed g (s.table.events 0), .returned g n user]))
    (hinLine : ∀ f, InLine (s'.offset f)) :
    Tracked s' (log ++ [.removed g (s.table.events 0), .returned g n user]) := by
  have hwatch : watch (log ++ [.removed g (s.table.events 0), .returned g n user]) =
      ⟨log ++ [.removed g (s.table.events 0)], [.returned g n user]⟩ := by
    have hsame : newFirst (log ++ [.removed g (s.table.events 0)]) (.returned g n user) = false := by
      rw [newFirst, decide_eq_false (not_lt.2 hn), Bool.false_and]
    rw [List.append_cons, watch_of_same hsame, watch_of_newFirst rfl]
    rfl
  -- when the next event became the first, `g` was at 0 and the others where they are
  have hbefore : ∀ f, offsetAfter f (log ++ [.removed g (s.table.events 0)]) =
      if f = g then 0 else s.offset f := by
    intro f
    rw [offsetAfter, cursor_append, h.cursor f]
    by_cases hfg : f = g
    · simp [Cursor.move, hfg]
    · simp [Cursor.move, hfg, Ne.symm hfg]
  refine ⟨hvalid, hinLine, ?_, ?_, ?_, ?_, h.judged_removal hpos g n user⟩
  · intro f
    rw [cursor_append, h.cursor f, hoffset, Function.update_apply]
    by_cases hfg : f = g
    · subst hfg
      simp [Cursor.move, hn]
    · simp [Cursor.move, hfg, Ne.symm hfg]
  · intro f
    rw [hwatch, hbefore]
    split_ifs
    · exact le_rfl
    · exact (h.inLine f).1
  · intro f
    rw [hwatch, hbefore, hoffset, Function.update_apply]
    split_ifs
    · exact hn
    · exact le_rfl
  · intro f
    rw [hwatch, hbefore, hoffset, Function.update_apply]
    by_cases hfg : f = g
    · subst hfg
      simp [hn, huser]
    · simp [hfg, Ne.symm hfg]

/-- The first event is removed through `g`, and the read fails. -/
theorem Tracked.lose (h : Tracked s log) (hpos : 0 < s.table.nbEvents) {g : File} {ret : ℤ}
    (hret : ret < 0) {user : List UInt8} (hoffset : s'.offset = s.offset)
    (hvalid : Valid s' (log ++ [.removed g (s.table.events 0), .returned g ret user])) :
    Tracked s' (log ++ [.removed g (s.table.events 0), .returned g ret user]) := by
  refine tracked_of_cut hvalid (hoffset ▸ h.inLine) (fun f => ?_) (h.judged_removal hpos g ret user)
    ?_
  · rw [cursor_append, h.cursor f, hoffset]
    by_cases hfg : f = g
    · simp [Cursor.move, hfg, not_le.2 hret]
    · simp [Cursor.move, Ne.symm hfg]
  · have hcut : newFirst (log ++ [.removed g (s.table.events 0)]) (.returned g ret user) = true := by
      simp [newFirst, justRemoved, hret]
    rw [List.append_cons, watch_of_newFirst hcut]

/-- One call. -/
theorem Tracked.call (h : Tracked s log) {c : Call File} {out : List (Output File)}
    (hstep : (system File).step s c = some (s', out)) : Tracked s' (log ++ out) := by
  have hc : c.InLine s := by
    cases c with
    | read f a => exact h.inLine f
    | write => trivial
  have he := effect_of_step hc hstep
  have hvalid := he.valid h.valid
  have hinLine := fun f => he.inLine f (h.inLine f)
  cases he with
  | refused => rwa [List.append_nil]
  | accepts a now e => exact h.accept rfl (list_store h.valid.sound.nonneg e) hvalid
  | idle f a =>
    refine h.advance le_rfl rfl ?_ rfl hvalid hinLine
    rw [add_zero, Function.update_eq_self]
  | delivers f a n hpos hmore hn =>
    obtain ⟨es, hes⟩ := Table.list_eq_cons hpos
    refine h.advance (by omega) rfl rfl ?_ hvalid hinLine
    rw [hes]
    rfl
  | faults f a user => exact h.fail (by decide) hvalid
  | removesLast f a hpos => exact h.remove hpos le_rfl rfl rfl hvalid hinLine
  | removes f a n hmore hend hn =>
    obtain ⟨es, hes⟩ := Table.list_eq_cons_cons hmore
    refine h.remove (by omega) (by omega) rfl ?_ hvalid hinLine
    show _ = (firstLine (removeFirstEvent s.table).list).take n.toNat
    rw [list_removeFirstEvent, hes]
    rfl
  | loses f a user hmore => exact h.lose (by omega) (by decide) rfl hvalid

/-- **Which events are removed after their line has been returned in full.** In every run of calls,
one at a time, through any number of files: an event is removed after one single file has been
returned its whole line, by reads made while it was the first event, exactly when some file was at
offset 0 when the event became the first and is at the end of its line at the removal. -/
theorem removed_in_full_iff {calls : List (Call File)}
    (hrun : (system File).exec (init fun _ => 0) calls = some (s, log)) :
    ∀ before g e after, log = before ++ .removed g e :: after →
      (ReturnedInFull before e ↔ ReadFromStart before e) := by
  have htracked : Tracked s log :=
    System.exec_induction (I := Tracked) (fun s log c s' out h hstep => h.call hstep) tracked_init hrun
  exact fun before g e after hlog => htracked.judged before _ after hlog g e rfl

/-- Two events, a file that reads the first one, and one that comes upon the second. -/
def twoReaders : List (Call ℕ) :=
  [.write ⟨1, .ok 7⟩ 100, .write ⟨1, .ok 8⟩ 200, .read 0 ⟨64, 64, fun _ => 0⟩,
    .read 1 ⟨64, 64, fun _ => 0⟩, .read 0 ⟨1, 1, fun _ => 0⟩, .read 1 ⟨64, 64, fun _ => 0⟩]

/-- The history of that run up to the first removal. -/
def bothHaveRead : List (Output ℕ) :=
  [.accepted ⟨7, 100⟩, .accepted ⟨8, 200⟩, .returned 0 8 [91, 49, 48, 48, 93, 32, 55, 10],
    .returned 1 8 [91, 49, 48, 48, 93, 32, 55, 10]]

theorem exec_twoReaders :
    ((system ℕ).exec (init fun _ => 0) twoReaders).map Prod.snd =
      some (bothHaveRead ++ [.removed 0 ⟨7, 100⟩, .returned 0 1 [91], .removed 1 ⟨8, 200⟩,
        .returned 1 0 []]) := by decide +kernel

/-- The first event of that run is removed after both files have read it. -/
theorem removed_in_full_iff_twoReaders :
    ∃ (s : State ℕ) (log : List (Output ℕ)),
      (system ℕ).exec (init fun _ => 0) twoReaders = some (s, log) ∧
      ∃ after, log = bothHaveRead ++ .removed 0 ⟨7, 100⟩ :: after ∧
        ReturnedInFull bothHaveRead ⟨7, 100⟩ := by
  obtain ⟨⟨s, log⟩, hrun, hlog⟩ := Option.map_eq_some_iff.1 exec_twoReaders
  refine ⟨s, log, hrun, _, hlog, ?_⟩
  exact (removed_in_full_iff hrun _ 0 ⟨7, 100⟩ _ hlog).2 ⟨0, by decide +kernel, by decide +kernel⟩

/-- The second event is removed when one byte of its line has been returned, to the other file. -/
theorem event_removed_unread :
    ∃ (s : State ℕ) (log : List (Output ℕ)),
      (system ℕ).exec (init fun _ => 0) twoReaders = some (s, log) ∧
      ∃ before after, log = before ++ .removed 1 ⟨8, 200⟩ :: after ∧
        ¬ ReturnedInFull before ⟨8, 200⟩ := by
  obtain ⟨⟨s, log⟩, hrun, hlog⟩ := Option.map_eq_some_iff.1 exec_twoReaders
  refine ⟨s, log, hrun, bothHaveRead ++ [.removed 0 ⟨7, 100⟩, .returned 0 1 [91]], _, hlog, ?_⟩
  rintro ⟨f, hf⟩
  have hline : (TimedEvent.line ⟨8, 200⟩).length = 8 := by decide +kernel
  have hsince : (watch (bothHaveRead ++ [.removed 0 ⟨7, 100⟩, .returned 0 1 [91]])).since =
      [.returned 0 1 [91]] := by decide +kernel
  have hbytes : (delivered f [.returned 0 1 [91]]).length ≤ 1 := by
    simp only [delivered_returned, delivered_nil, List.append_nil]
    split_ifs <;> simp
  rw [← hsince, hf, hline] at hbytes
  exact absurd hbytes (by decide)

end IldDrivers.TpIII02
