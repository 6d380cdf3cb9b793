import IldDrivers.Messages.Integrity
import IldDrivers.Lib.Pieces

/-!
# Whether a message is read before it is removed

`messages_read` removes the head when the offset of the file it is called through has come to the
end of the head. Nothing takes that offset back to 0 when another message becomes the head, and
a read at a nonzero offset copies from the row of that number. `removal_delivers_iff` says exactly
which removals do what they are meant to do, `message_removed_unread` is a run with one that does not.

* `window`: the sections since the present head became the head, and the module as it was then;
* `receivedBy`: the bytes that sections have returned through a file;
* `Delivered`: they are the message;
* `CopiesHead`: a read finds the bytes of the head where it copies from.
-/

namespace IldDrivers.TpV04

variable {Pid File : Type*}

/-- The section makes another message the head: it removes the head, or fills the empty queue. -/
def newHead (q : Queue) (x : Section Pid File) : Bool :=
  decide (x.effect.after.queue.messagesCount < q.messagesCount) ||
    (decide (q.messagesCount = 0) && decide (x.effect.after.queue.messagesCount ≠ 0))

/-- The sections since the present head became the head, and the module and the files as they were
then. -/
structure Window (Pid File : Type*) where
  atHead : Shared File
  since : List (Section Pid File)

def Window.add (w : Window Pid File) (x : Section Pid File) : Window Pid File :=
  if newHead (lastShared w.atHead w.since).queue x then ⟨x.effect.after, []⟩
  else ⟨w.atHead, w.since ++ [x]⟩

def window (start : Shared File) (xs : List (Section Pid File)) : Window Pid File :=
  xs.foldl Window.add ⟨start, []⟩

theorem window_snoc (start : Shared File) (xs : List (Section Pid File)) (x : Section Pid File) :
    window start (xs ++ [x]) = (window start xs).add x := by
  rw [window, List.foldl_append]
  rfl

/-- Every section meets `P`, with the module and the files as it found them. -/
def Each (P : Shared File → Section Pid File → Prop) :
    Shared File → List (Section Pid File) → Prop
  | _, [] => True
  | sh, x :: xs => P sh x ∧ Each P x.effect.after xs

theorem each_snoc {P : Shared File → Section Pid File → Prop} {sh : Shared File}
    {xs : List (Section Pid File)} {x : Section Pid File} :
    Each P sh (xs ++ [x]) ↔ Each P sh xs ∧ P (lastShared sh xs) x := by
  induction xs generalizing sh with
  | nil => simp [Each]
  | cons y ys ih =>
    rw [List.cons_append, Each, Each, ih, and_assoc]
    rfl

variable [DecidableEq File]

/-- The section is a read through the file `f`. -/
def Section.readBy (x : Section Pid File) (f : File) : Bool :=
  match x.call with
  | .read g _ => decide (g = f)
  | .write _ _ => false

/-- The bytes that a section returns through the file `f`. -/
def returnedBy (f : File) (x : Section Pid File) : List UInt8 :=
  match x.call with
  | .read g _ => if g = f ∧ 0 ≤ x.effect.ret then x.effect.user else []
  | .write _ _ => []

def receivedBy (f : File) (xs : List (Section Pid File)) : List UInt8 := xs.flatMap (returnedBy f)

/-- A removal through `f`, after the sections `xs`, finds that the reads through `f` since the
message `a` became the head have returned its C string, and that this begins with the bytes
written. -/
def Delivered (start : Shared File) (xs : List (Section Pid File)) (f : File)
    (a : Accepted Pid File) : Prop :=
  receivedBy f (window start xs).since = cstring ((lastShared start xs).queue.row 0) ∧
    a.data <+: receivedBy f (window start xs).since

/-- If the section is a read through `f` whose copy does not fail, then at the address it copies
from it finds the bytes that the head has at the offset of `f`. -/
def CopiesHead (f : File) (sh : Shared File) (x : Section Pid File) : Prop :=
  ∀ u, x.call = .read f u →
    let n := (min (sh.queue.strlenHead - sh.offset f) u.length).toNat
    n ≤ u.copied → sh.queue.source u.outside (sh.offset f) n =
      sh.queue.messagesArray.load (rowAddr 0 + sh.offset f) n

/-! ### The offsets -/

/-- The array is sound and the offsets are those of files that have only been read. -/
structure Ready (sh : Shared File) : Prop where
  sound : sh.queue.Sound
  nonneg : ∀ f, 0 ≤ sh.offset f
  le : ∀ f, sh.offset f ≤ 31

omit [DecidableEq File] in
theorem ready_init : Ready (⟨Queue.init, fun _ => 0⟩ : Shared File) :=
  ⟨Queue.sound_init, fun _ => le_rfl, fun _ => by simp⟩

omit [DecidableEq File] in
/-- The conversions of `strlen(messages_array[0]) - (*offset)` change nothing. -/
theorem Ready.ssize_eq {sh : Shared File} (h : Ready sh) (abi : Abi) (f : File) :
    abi.ssize (sh.queue.strlenHead - sh.offset f) = sh.queue.strlenHead - sh.offset f := by
  have h₁ := h.nonneg f
  have h₂ := h.le f
  have h₃ := h.sound.strlenHead_le
  exact abi.ssize_of_small (by omega) (by omega)

theorem Ready.does {abi : Abi} {sh : Shared File} (h : Ready sh) {c : Call File}
    {e : Effect File} (hd : Does abi sh c e) : Ready e.after := by
  cases hd with
  | removes f u hcount hend =>
    have hpos := h.sound.nonneg
    exact ⟨h.sound.remove (by omega), h.nonneg, h.le⟩
  | delivers f u n hcount hmore hn hcopied =>
    rw [h.ssize_eq] at hmore hn
    have hle := h.sound.strlenHead_le
    have hf := h.nonneg f
    refine ⟨h.sound, fun g => ?_, fun g => ?_⟩ <;> by_cases hg : g = f
    · simp only [hg, Function.update_self]; omega
    · simpa only [Function.update_of_ne hg] using h.nonneg g
    · simp only [hg, Function.update_self]; omega
    · simpa only [Function.update_of_ne hg] using h.le g
  | readFaults | tooLong => exact h
  | writeFaults f u l hroom hl => exact ⟨h.sound.storeFree hl, h.nonneg, h.le⟩
  | accepts f u hroom hl => exact ⟨(h.sound.storeFree hl).increment hroom, h.nonneg, h.le⟩

theorem Ready.chain {abi : Abi} {sh : Shared File} {xs : List (Section Pid File)} (h : Ready sh)
    (hchain : Chain abi sh xs) : Ready (lastShared sh xs) := by
  induction xs generalizing sh with
  | nil => exact h
  | cons x xs ih => exact ih (h.does hchain.does) hchain.2.2

/-- The head has not changed since the window was opened. -/
structure Watched (abi : Abi) (w : Window Pid File) : Prop where
  ready : Ready w.atHead
  chain : Chain abi w.atHead w.since
  steady : Each (fun sh x => newHead sh.queue x = false) w.atHead w.since

theorem watched_window {abi : Abi} {start : Shared File} {xs : List (Section Pid File)}
    (h : Chain abi start xs) (hstart : Ready start) :
    Watched abi (window start xs) ∧
      lastShared (window start xs).atHead (window start xs).since = lastShared start xs := by
  induction xs using List.reverseRecOn with
  | nil => exact ⟨⟨hstart, trivial, trivial⟩, rfl⟩
  | append_singleton xs x ih =>
    obtain ⟨hxs, hx⟩ := chain_append.1 h
    obtain ⟨hw, hlast⟩ := ih hxs
    rw [window_snoc, lastShared_snoc, Window.add]
    split_ifs with hnew
    · exact ⟨⟨(hstart.chain hxs).does hx.does, trivial, trivial⟩, rfl⟩
    · refine ⟨⟨hw.ready, ?_, ?_⟩, lastShared_snoc ..⟩
      · exact chain_append.2 ⟨hw.chain, hlast ▸ hx⟩
      · exact each_snoc.2 ⟨hw.steady, by simpa using hnew⟩

/-! ### The pieces that a file has received -/

/-- What a section brings to the file `f`, with the offset it had. -/
def pieceOf (f : File) (sh : Shared File) (x : Section Pid File) : List (Piece UInt8) :=
  match x.call with
  | .read g _ => if g = f ∧ 0 ≤ x.effect.ret then [⟨(sh.offset f).toNat, x.effect.user⟩] else []
  | .write _ _ => []

def piecesOf (f : File) : Shared File → List (Section Pid File) → List (Piece UInt8)
  | _, [] => []
  | sh, x :: xs => pieceOf f sh x ++ piecesOf f x.effect.after xs

theorem received_piecesOf (f : File) (sh : Shared File) (xs : List (Section Pid File)) :
    received (piecesOf f sh xs) = receivedBy f xs := by
  induction xs generalizing sh with
  | nil => rfl
  | cons x xs ih =>
    rw [piecesOf, received_append, ih]
    refine congrArg (· ++ receivedBy f xs) ?_
    unfold pieceOf returnedBy
    split
    · split_ifs
      · exact List.append_nil _
      · rfl
    · rfl

/-- What one section of a window is to the file `f`: nothing, or one more piece of the head. -/
inductive Brings (f : File) (sh : Shared File) (x : Section Pid File) : Prop
  | nothing (hpiece : pieceOf f sh x = []) (hoffset : x.effect.after.offset f = sh.offset f)
      (hcopies : CopiesHead f sh x)
  | piece (items : List UInt8) (hpiece : pieceOf f sh x = [⟨(sh.offset f).toNat, items⟩])
      (hoffset : x.effect.after.offset f = sh.offset f + items.length)
      (hle : sh.offset f + items.length ≤ sh.queue.strlenHead)
      (hcopies : CopiesHead f sh x ↔
        items = sh.queue.messagesArray.load (rowAddr 0 + sh.offset f) items.length)

theorem Ready.brings {abi : Abi} {sh : Shared File} (h : Ready sh) {x : Section Pid File}
    (hd : Does abi sh x.call x.effect) (hsame : newHead sh.queue x = false) (f : File) :
    Brings f sh x := by
  obtain ⟨p, c, e⟩ := x
  change Does abi sh c e at hd
  cases hd with
  | removes g u hcount hend =>
    -- a removal makes another message the head
    have hless : sh.queue.decrement.shift.messagesCount < sh.queue.messagesCount := by
      rw [Queue.messagesCount_shift]
      simp only [Queue.decrement]
      omega
    simp [newHead, hless] at hsame
  | delivers g u n hcount hmore hn hcopied =>
    rw [h.ssize_eq] at hmore hn
    by_cases hg : g = f
    · subst hg
      have hn₀ : 0 ≤ n := by omega
      have hlen : (sh.queue.source u.outside (sh.offset g) n.toNat).length = n.toNat :=
        Memory.load_length _ _ _
      refine .piece (sh.queue.source u.outside (sh.offset g) n.toNat) (if_pos ⟨rfl, hn₀⟩) ?_ ?_ ?_
      · rw [hlen, Int.toNat_of_nonneg hn₀]
        exact Function.update_self ..
      · rw [hlen, Int.toNat_of_nonneg hn₀]
        omega
      · rw [hlen]
        constructor
        · intro hcopies
          have := hcopies u rfl
          simp only [← hn] at this
          exact this hcopied
        · rintro hsource u' hu'
          cases hu'
          simp only [← hn]
          exact fun _ => hsource
    · refine .nothing (if_neg fun hfg => hg hfg.1) ?_ ?_
      · exact Function.update_of_ne (fun hfg => hg hfg.symm) ..
      · rintro u' hu'
        cases hu'
        exact absurd rfl hg
  | readFaults g u user hcopied =>
    rw [h.ssize_eq] at hcopied
    refine .nothing (if_neg fun hret => ?_) rfl ?_
    · have : (0 : ℤ) ≤ -eFault := hret.2
      exact absurd this (by decide)
    · rintro u' hu'
      cases hu'
      exact fun hle => absurd hle (by omega)
  | tooLong | writeFaults | accepts => exact .nothing rfl rfl fun u' hu' => by cases hu'

omit [DecidableEq File] in
theorem newHead_eq_false {q : Queue} {x : Section Pid File} (h : newHead q x = false) :
    q.messagesCount ≤ x.effect.after.queue.messagesCount ∧
      (q.messagesCount = 0 → x.effect.after.queue.messagesCount = 0) := by
  simpa [newHead] using h

/-- A section that does not change the head leaves row 0 as it was. -/
theorem row_zero_of_same {abi : Abi} {sh : Shared File} {x : Section Pid File}
    (hd : Does abi sh x.call x.effect) (hsame : newHead sh.queue x = false)
    (hpos : 0 < sh.queue.messagesCount) :
    x.effect.after.queue.row 0 = sh.queue.row 0 := by
  have hle := (newHead_eq_false hsame).1
  obtain ⟨p, c, e⟩ := x
  change Does abi sh c e at hd
  cases hd with
  | removes g u hcount hend =>
    simp only [Queue.messagesCount_shift, Queue.decrement] at hle
    omega
  | delivers | readFaults | tooLong => rfl
  | writeFaults | accepts => exact Queue.row_storeFree hpos

/-- In a window that is not on an empty queue, the head stays, and the pieces that a file receives
follow each other and are right as far as the reads find the head. -/
structure Followed (f : File) (sh : Shared File) (xs : List (Section Pid File)) : Prop where
  pos : 0 < sh.queue.messagesCount
  row_eq : (lastShared sh xs).queue.row 0 = sh.queue.row 0
  contiguous : Contiguous (sh.offset f).toNat (piecesOf f sh xs)
    ((lastShared sh xs).offset f).toNat
  le_max : (lastShared sh xs).offset f ≤
    max (sh.offset f) (cstring (sh.queue.row 0)).length
  right_iff : (∀ p ∈ piecesOf f sh xs, p.Right (cstring (sh.queue.row 0))) ↔
    Each (CopiesHead f) sh xs

theorem followed {abi : Abi} {sh : Shared File} {xs : List (Section Pid File)} (h : Ready sh)
    (hchain : Chain abi sh xs) (hsteady : Each (fun sh x => newHead sh.queue x = false) sh xs)
    (hpos : 0 < (lastShared sh xs).queue.messagesCount) (f : File) : Followed f sh xs := by
  induction xs generalizing sh with
  | nil => exact ⟨hpos, rfl, rfl, le_max_left _ _, by simp [piecesOf, Each]⟩
  | cons x xs ih =>
    have hd := hchain.does
    have hrest := ih (h.does hd) hchain.2.2 hsteady.2 hpos
    have hsame := newHead_eq_false hsteady.1
    -- the head stays while the section runs, so there was one before it
    have hpos' : 0 < sh.queue.messagesCount := by
      have h₁ := h.sound.nonneg
      have h₂ := hrest.pos
      have h₃ := hsame.2
      omega
    have hrow := row_zero_of_same hd hsteady.1 hpos'
    have hnonneg := h.nonneg f
    have hmax := hrest.le_max
    have hright := hrest.right_iff
    rw [hrow] at hmax hright
    cases h.brings hd hsteady.1 f with
    | nothing hpiece hoffset hcopies =>
      refine ⟨hpos', hrest.row_eq.trans hrow, ?_, ?_, ?_⟩
      · rw [piecesOf, hpiece, List.nil_append, ← hoffset]
        exact hrest.contiguous
      · rw [← hoffset]
        exact hmax
      · rw [piecesOf, hpiece, List.nil_append, hright]
        exact ⟨fun hxs => ⟨hcopies, hxs⟩, fun hxs => hxs.2⟩
    | piece items hpiece hoffset hle hcopies =>
      rw [h.sound.strlenHead_eq] at hle
      have hstart : (((sh.offset f).toNat : ℕ) : ℤ) = sh.offset f := Int.toNat_of_nonneg hnonneg
      refine ⟨hpos', hrest.row_eq.trans hrow, ?_, ?_, ?_⟩
      · rw [piecesOf, hpiece]
        refine ⟨rfl, ?_⟩
        rw [show (sh.offset f).toNat + items.length = (x.effect.after.offset f).toNat by omega]
        exact hrest.contiguous
      · change (lastShared x.effect.after xs).offset f ≤ _
        omega
      · rw [piecesOf, hpiece, List.singleton_append, List.forall_mem_cons, hright, Each, hcopies,
          Piece.Right]
        simp only
        rw [Queue.take_drop_cstring sh.queue 0 (by omega), hstart]

omit [DecidableEq File] in
/-- The head is the oldest write queued. -/
theorem Holds.head {q : Queue} {items : List (Accepted Pid File)} (h : Holds q items)
    {a : Accepted Pid File} (ha : items.head? = some a) : q.row 0 = a.row := by
  cases items with
  | nil => cases ha
  | cons b items =>
    cases ha
    have hrows := h.rows
    have hpos : 0 < q.messagesCount.toNat := by
      rw [← Queue.rows_length, hrows, List.length_map]
      exact Nat.succ_pos _
    have hhead := Queue.rows_head? (q := q) (by omega)
    rw [hrows] at hhead
    exact (Option.some.inj hhead).symm

/-! ### Every removal -/

/-- After the sections `xs`, a read through `f` removes the head. -/
def RemovedAfter (start : Shared File) (all xs : List (Section Pid File)) (f : File) : Prop :=
  ∃ x ys, all = xs ++ x :: ys ∧ x.readBy f = true ∧
    x.effect.after.queue.messagesCount < (lastShared start xs).queue.messagesCount

theorem removedAfter_take {start : Shared File} {all : List (Section Pid File)} {k : ℕ}
    {x : Section Pid File} {f : File} (hx : all[k]? = some x) (hread : x.readBy f = true)
    (hless : x.effect.after.queue.messagesCount <
      (lastShared start (all.take k)).queue.messagesCount) :
    RemovedAfter start all (all.take k) f := by
  obtain ⟨hk, rfl⟩ := List.getElem?_eq_some_iff.1 hx
  exact ⟨all[k], all.drop (k + 1), by rw [← List.drop_eq_getElem_cons hk, List.take_append_drop],
    hread, hless⟩

/-- A removal happens on a queue that is not empty, when the offset is at the end of the head. -/
theorem RemovedAfter.end_le {abi : Abi} {start : Shared File} {all xs : List (Section Pid File)}
    {f : File} (h : RemovedAfter start all xs f) (hstart : Ready start)
    (hchain : Chain abi start all) :
    0 < (lastShared start xs).queue.messagesCount ∧
      ((lastShared start xs).queue.strlenHead : ℤ) ≤ (lastShared start xs).offset f := by
  obtain ⟨x, ys, rfl, hread, hless⟩ := h
  obtain ⟨hxs, hx⟩ := chain_append.1 hchain
  have hready := hstart.chain hxs
  have hd := hx.does
  obtain ⟨p, c, e⟩ := x
  change Does abi (lastShared start xs) c e at hd
  cases hd with
  | removes g u hcount hend =>
    obtain rfl : g = f := of_decide_eq_true hread
    rw [hready.ssize_eq] at hend
    have hnonneg := hready.sound.nonneg
    exact ⟨by omega, by omega⟩
  | delivers | readFaults => exact absurd hless (lt_irrefl _)
  | tooLong | writeFaults | accepts => cases hread

omit [DecidableEq File] in
/-- The bytes written begin the C string of their row exactly when they are NUL-free. -/
theorem Accepted.Stored.prefix_iff {a : Accepted Pid File} (h : a.Stored) :
    a.data <+: cstring a.row ↔ NulFree a.data := by
  constructor
  · intro hbegins b hb
    exact nulFree_cstring a.row b (hbegins.subset hb)
  · intro hfree
    rw [h.row_eq, cstring_append hfree]
    exact List.prefix_append _ _

/-- **Which removals come after the delivery of the message.** In every run, a read that removes the
head, a non-empty message, through a file finds it returned in full through that file exactly when
the message has no NUL byte, the offset of the file was 0 when the message became the head, and
the reads through the file since then found the bytes of the head at the addresses they copied
from. -/
theorem removal_delivers_iff [DecidableEq Pid] {abi : Abi} {acts : List (Act Pid File)}
    {s : State Pid File} {log : List (Output Pid File)}
    (hrun : (system abi Pid File).exec (init Pid fun _ => 0) acts = some (s, log)) :
    let start : Shared File := ⟨Queue.init, fun _ => 0⟩
    ∀ xs f, RemovedAfter start (sections log) xs f →
      ∃ a, (queued Queue.init xs).head? = some a ∧ (a.data ≠ [] →
        (Delivered start xs f a ↔ NulFree a.data ∧ (window start xs).atHead.offset f = 0 ∧
          Each (CopiesHead f) (window start xs).atHead (window start xs).since)) := by
  intro start xs f hremoved
  have hchain := chain_of_run hrun
  obtain ⟨hpos, hend⟩ := hremoved.end_le ready_init hchain
  obtain ⟨x, ys, hlog, -, -⟩ := hremoved
  have hxs : Chain abi start xs := by
    rw [hlog, chain_append] at hchain
    exact hchain.1
  have hholds := hxs.holds rfl
  obtain ⟨a, ha⟩ : ∃ a, (queued Queue.init xs).head? = some a := by
    have hhead := Queue.rows_head? hpos
    rw [hholds.rows, List.head?_map, Option.map_eq_some_iff] at hhead
    exact hhead.imp fun _ => And.left
  refine ⟨a, ha, fun hne => ?_⟩
  have hstored : a.Stored := hxs.stored (mem_accepted_of_queued (List.mem_of_head? ha))
  obtain ⟨hw, hlast⟩ := watched_window hxs ready_init
  have hfollowed := followed hw.ready hw.chain hw.steady (hlast ▸ hpos) f
  have hrow := hfollowed.row_eq
  have hcontiguous := hfollowed.contiguous
  have hmax := hfollowed.le_max
  rw [hlast] at hrow hcontiguous hmax
  rw [hholds.sound.strlenHead_eq] at hend
  have hnonneg := hw.ready.nonneg f
  rw [← hrow] at hmax
  -- the pieces received are the whole C string exactly when they start at 0 and are right
  have hall : cstring ((lastShared start xs).queue.row 0) ≠ [] →
      (receivedBy f (window start xs).since = cstring ((lastShared start xs).queue.row 0) ↔
        (window start xs).atHead.offset f = 0 ∧
          Each (CopiesHead f) (window start xs).atHead (window start xs).since) := by
    intro hR
    rw [← received_piecesOf f (window start xs).atHead,
      hcontiguous.received_eq_iff hR (by omega) (by omega), ← hfollowed.right_iff, hrow]
    refine and_congr_left' ?_
    omega
  rw [Delivered]
  have hbegins := hstored.prefix_iff
  rw [← hholds.head ha] at hbegins
  constructor
  · rintro ⟨hreceived, hdata⟩
    rw [hreceived] at hdata
    have hR : cstring ((lastShared start xs).queue.row 0) ≠ [] := by
      intro hnil
      rw [hnil, List.prefix_nil] at hdata
      exact hne hdata
    exact ⟨hbegins.1 hdata, (hall hR).1 hreceived⟩
  · rintro ⟨hfree, hfound⟩
    have hdata := hbegins.2 hfree
    have hR : cstring ((lastShared start xs).queue.row 0) ≠ [] := by
      intro hnil
      rw [hnil, List.prefix_nil] at hdata
      exact hne hdata
    have hreceived := (hall hR).2 hfound
    exact ⟨hreceived, hreceived ▸ hdata⟩

/-- Process 0 writes "hi", reads it and removes it. -/
def hiRead : List (Act ℕ ℕ) :=
  Act.solo 0 (.write 0 ⟨[104, 105], 2⟩) 8 ++ Act.solo 0 (.read 0 ⟨8, 8, fun _ => 0⟩) 6 ++
  Act.solo 0 (.read 0 ⟨8, 8, fun _ => 0⟩) 8

/-- The first message read through a file is removed after its delivery. -/
theorem removal_delivers_iff_first :
    ∃ (s : State ℕ ℕ) (log : List (Output ℕ ℕ)),
      (system .lp64 ℕ ℕ).exec (init ℕ fun _ => 0) hiRead = some (s, log) ∧
      let start : Shared ℕ := ⟨Queue.init, fun _ => 0⟩
      let xs := (sections log).take 2
      RemovedAfter start (sections log) xs 0 ∧
      ∃ a, (queued Queue.init xs).head? = some a ∧ (a.data ≠ [] →
        (Delivered start xs 0 a ↔ NulFree a.data ∧ (window start xs).atHead.offset 0 = 0 ∧
          Each (CopiesHead 0) (window start xs).atHead (window start xs).since)) := by
  obtain ⟨⟨s, log⟩, hrun, hval⟩ := Option.map_eq_some_iff.1
    (show ((system .lp64 ℕ ℕ).exec (init ℕ fun _ => 0) hiRead).map
        (fun r => ((sections r.2)[2]?.map fun x =>
            (x.readBy 0, x.effect.after.queue.messagesCount),
          (lastShared ⟨Queue.init, fun _ => 0⟩ ((sections r.2).take 2)).queue.messagesCount)) =
      some (some (true, 0), 1) by decide +kernel)
  simp only [Prod.mk.injEq, Option.map_eq_some_iff] at hval
  obtain ⟨⟨x, hx, hread, hafter⟩, hbefore⟩ := hval
  have hremoved := removedAfter_take hx hread (by rw [hafter, hbefore]; decide)
  exact ⟨s, log, hrun, hremoved, removal_delivers_iff hrun _ 0 hremoved⟩

/-- Process 0 writes "hello" and "abc" and reads three times, through one file. -/
def helloAbc : List (Act ℕ ℕ) :=
  Act.solo 0 (.write 0 ⟨[104, 101, 108, 108, 111], 5⟩) 8 ++
  Act.solo 0 (.write 0 ⟨[97, 98, 99], 3⟩) 8 ++ Act.solo 0 (.read 0 ⟨8, 8, fun _ => 0⟩) 6 ++
  Act.solo 0 (.read 0 ⟨8, 8, fun _ => 0⟩) 8 ++ Act.solo 0 (.read 0 ⟨8, 8, fun _ => 0⟩) 8

/-- "hello" is read and removed; the third read removes "abc", of which nothing has been read. -/
theorem message_removed_unread :
    ∃ (s : State ℕ ℕ) (log : List (Output ℕ ℕ)),
      (system .lp64 ℕ ℕ).exec (init ℕ fun _ => 0) helloAbc = some (s, log) ∧
      let start : Shared ℕ := ⟨Queue.init, fun _ => 0⟩
      let xs := (sections log).take 4
      RemovedAfter start (sections log) xs 0 ∧
      ∃ a, (queued Queue.init xs).head? = some a ∧ a.data = [97, 98, 99] ∧
        ¬ Delivered start xs 0 a := by
  obtain ⟨⟨s, log⟩, hrun, hval⟩ := Option.map_eq_some_iff.1
    (show ((system .lp64 ℕ ℕ).exec (init ℕ fun _ => 0) helloAbc).map
        (fun r =>
          let start : Shared ℕ := ⟨Queue.init, fun _ => 0⟩
          let xs := (sections r.2).take 4
          ((sections r.2)[4]?.map fun x => (x.readBy 0, x.effect.after.queue.messagesCount),
          (lastShared start xs).queue.messagesCount,
          (queued Queue.init xs).head?.map Accepted.data,
          receivedBy 0 (window start xs).since)) =
      some (some (true, 0), 1, some [97, 98, 99], []) by decide +kernel)
  simp only [Prod.mk.injEq, Option.map_eq_some_iff] at hval
  obtain ⟨⟨x, hx, hread, hafter⟩, hbefore, ⟨a, ha, hdata⟩, hreceived⟩ := hval
  refine ⟨s, log, hrun, removedAfter_take hx hread (by rw [hafter, hbefore]; decide), a, ha, hdata,
    fun hdelivered => ?_⟩
  have hbegins := hdelivered.2
  rw [hdata, hreceived, List.prefix_nil] at hbegins
  cases hbegins

end IldDrivers.TpV04
