import IldDrivers.Usb.Board

/-!
# What the reads give the user (`example-VII-05`)

`example_read` prints a report to a `k_buffer` that all reads share, and a read that does not start at
offset 0 continues what stands there. In between, the mutex is free.

* `reply`: what a read that has a text before it returns, and the bytes it gives the user;
* `Source`: the text that a read has before it: that of its own report, or the one of the last read;
* `Shows`: all reads of a history give the user what they should; the text that they leave;
* `reads_reply`: so it is when the reads follow each other and start in the text.
-/

namespace IldDrivers.ExampleVII.Board

variable {Pid : Type*}

/-! ### What is expected -/

/-- The part of a text, with its NUL, that a read asks for. -/
def rest (a : ReadArgs) (text : List UInt8) : List UInt8 :=
  ((text ++ [0]).drop a.offset).take a.length

/-- What a read returns that has this text before it, with the bytes given to the user. -/
def reply (a : ReadArgs) (text : List UInt8) : ℤ × List UInt8 :=
  let r := copyToUser (rest a text) a.copied
  (if r.2 ≠ 0 then -eFault else (rest a text).length, r.1)

/-- The text that a read has before it, when the reads before have left `text`. -/
inductive Source (text : List UInt8) : Phase → List UInt8 → Prop
  | fresh {a : ReadArgs} {report : List UInt8} :
      Source text (.transferred (.read a) 0 report) (reportText report)
  | continued {a : ReadArgs} (h : a.offset ≠ 0) : Source text (.called (.read a)) text

/-- What a read returns that has no text: an error without a transfer, 0 after a transfer that has failed,
or the signal that has ended its wait. -/
inductive Fails : Phase → ℤ → Prop
  | unserved {a : ReadArgs} {ret : ℤ} (hoffset : a.offset = 0) (hret : ret < 0) :
      Fails (.called (.read a)) ret
  | failed {c : Call} {status : ℤ} {report : List UInt8} (h : status ≠ 0) :
      Fails (.transferred c status report) 0
  | interrupted {c : Call} {status : ℤ} {report : List UInt8} :
      Fails (.transferred c status report) (-eRestartSys)

/-- The return of a read. -/
def Sight.ofRead : Sight Pid → Bool
  | .returned _ (.read _) _ _ => true
  | _ => false

/-- All reads of a history give the user what they should, and leave this text. -/
inductive Shows (S : Setup) : List (Sight Pid) → List UInt8 → Prop
  | nil : Shows S [] []
  | read {log : List (Sight Pid)} {text text' : List UInt8} {p : Pid} {a : ReadArgs} {ph : Phase}
      (h : Shows S log text) (hp : Follows S (Set.Iio 0) p log ph) (hcall : ph.call = some (.read a))
      (hsource : Source text ph text') :
      Shows S (log ++ [.returned p (.read a) (reply a text').1 (reply a text').2]) text'
  | failed {log : List (Sight Pid)} {text : List UInt8} {p : Pid} {a : ReadArgs} {ph : Phase} {ret : ℤ}
      (h : Shows S log text) (hp : Follows S (Set.Iio 0) p log ph) (hcall : ph.call = some (.read a))
      (hfails : Fails ph ret) : Shows S (log ++ [.returned p (.read a) ret []]) text
  | other {log : List (Sight Pid)} {text : List UInt8} {x : Sight Pid} (h : Shows S log text)
      (hx : x.ofRead = false) : Shows S (log ++ [x]) text

theorem Shows.append {S : Setup} {log out : List (Sight Pid)} {text : List UInt8}
    (h : Shows S log text) (hout : ∀ x ∈ out, x.ofRead = false) : Shows S (log ++ out) text := by
  induction out generalizing log with
  | nil => rwa [List.append_nil]
  | cons x out ih =>
    rw [← List.singleton_append, ← List.append_assoc]
    exact ih (h.other (hout x List.mem_cons_self)) fun y hy => hout y (List.mem_cons_of_mem x hy)

/-! ### The phase of a process -/

section Phases

variable [DecidableEq Pid]

/-- Where a sight leads. -/
def Phase.advance (p : Pid) (ph : Phase) : Sight Pid → Phase
  | .called q c => if q = p then .called c else ph
  | .transferred q _ status report =>
      if q = some p then ph.call.elim ph fun c => .transferred c status report else ph
  | .returned q _ _ _ => if q = p then .idle else ph

def phaseAfter (p : Pid) (log : List (Sight Pid)) : Phase := log.foldl (Phase.advance p) .idle

theorem phaseAfter_snoc (p : Pid) (log : List (Sight Pid)) (x : Sight Pid) :
    phaseAfter p (log ++ [x]) = (phaseAfter p log).advance p x := List.foldl_concat ..

theorem advance_of_ne {p : Pid} {x : Sight Pid} (hx : x.pid ≠ some p) (ph : Phase) :
    ph.advance p x = ph := by
  cases x with
  | called q c => exact if_neg fun hq => hx (by rw [← hq]; rfl)
  | transferred q d status report => exact if_neg hx
  | returned q c ret user => exact if_neg fun hq => hx (by rw [← hq]; rfl)

theorem Next.advance {S : Setup} {E : Set ℤ} {p : Pid} {ph ph' : Phase} {x : Sight Pid}
    (h : Next S E p ph x ph') : ph' = ph.advance p x := by
  cases h with
  | called => exact (if_pos rfl).symm
  | transferred => exact (if_pos rfl).symm
  | returned => exact (if_pos rfl).symm

/-- A history leads to one phase only. -/
theorem Follows.eq {S : Setup} {E : Set ℤ} {p : Pid} {log : List (Sight Pid)} {ph : Phase}
    (h : Follows S E p log ph) : ph = phaseAfter p log := by
  induction h with
  | nil => rfl
  | own h hx ih => rw [phaseAfter_snoc, ← ih, hx.advance]
  | other h hx ih => rw [phaseAfter_snoc, advance_of_ne hx, ih]

theorem Keeps.phase {S : Setup} {E : Set ℤ} {w : Watched Pid} {log : List (Sight Pid)}
    (h : Keeps S E w log) (p : Pid) :
    Follows S E p log (phaseAfter p log) ∧ Explains S E w p (phaseAfter p log) := by
  obtain ⟨ph, hfollows, hph⟩ := h.follows p
  rw [← hfollows.eq]
  exact ⟨hfollows, hph⟩

end Phases

/-! ### The text in `k_buffer` -/

structure Holds (kBuffer : Memory UInt8) (text : List UInt8) : Prop where
  printed : kBuffer.load 0 (text.length + 1) = text ++ [0]
  nulFree : NulFree text
  small : text.length < 63

theorem Holds.isPrefix {kBuffer : Memory UInt8} {text : List UInt8} (h : Holds kBuffer text) :
    text ++ [0] <+: kBuffer.load 0 64 := by
  have hsmall := h.small
  rw [← h.printed]
  exact kBuffer.load_isPrefix 0 (by omega)

theorem Holds.textEnd_eq {kBuffer : Memory UInt8} {text : List UInt8} (h : Holds kBuffer text) :
    textEnd kBuffer = text.length :=
  congrArg List.length (cstring_of_isPrefix h.nulFree h.isPrefix)

/-- After `snprintf`. -/
theorem holds_print (kBuffer bytes : Memory UInt8) :
    Holds (kBuffer.store 0 ((formatBytes bytes).take 63 ++ [0])) (reportText (bytes.load 0 8)) := by
  have hsmall := reportText_length_lt (bytes.load_length 0 8)
  have hload := kBuffer.load_store 0 (reportText (bytes.load 0 8) ++ [0])
  rw [List.length_append, List.length_singleton] at hload
  refine ⟨?_, nulFree_reportText _, hsmall⟩
  rw [formatBytes_eq, List.take_of_length_le hsmall.le]
  exact hload

theorem rest_length (a : ReadArgs) (text : List UInt8) :
    (rest a text).length = min a.length (text.length + 1 - a.offset) := by
  rw [rest, List.length_take, List.length_drop, List.length_append, List.length_singleton]

/-- The length that a read computes is that of what is left, if it starts in the text. -/
theorem Holds.measured {S : Setup} {a : ReadArgs} {kBuffer : Memory UInt8} {text : List UInt8}
    (h : Holds kBuffer text)
    (hwithin : a.offset ≤ textEnd kBuffer + 1 ∨ a.length = 0 ∨
      (2 : ℤ) ^ S.abi.longBits ∣ textEnd kBuffer + 1 - a.offset) :
    min a.length (remaining S a kBuffer) = (rest a text).length := by
  have hsmall := h.small
  rw [h.textEnd_eq] at hwithin
  rw [rest_length]
  rcases le_or_gt a.offset (text.length + 1) with hle | hgt
  · -- nothing wraps around
    have hbits : (64 : ℤ) ≤ 2 ^ S.abi.longBits := by cases S.abi <;> decide
    have hremaining : remaining S a kBuffer = text.length + 1 - a.offset := by
      rw [remaining, h.textEnd_eq, Int.emod_eq_of_lt (by omega) (by omega)]
      omega
    rw [hremaining]
  · rcases hwithin with hle | hzero | hdvd
    · omega
    · rw [hzero, Nat.zero_min, Nat.zero_min]
    · have hremaining : remaining S a kBuffer = 0 :=
        (remaining_eq_zero_iff S a kBuffer).2 (by rw [h.textEnd_eq]; exact hdvd)
      rw [hremaining, Nat.sub_eq_zero_of_le hgt.le]

/-- What it copies. -/
theorem Holds.copied {a : ReadArgs} {kBuffer : Memory UInt8} {text : List UInt8}
    (h : Holds kBuffer text) : kBuffer.load a.offset (rest a text).length = rest a text := by
  rcases Nat.eq_zero_or_pos (rest a text).length with hzero | hpos
  · rw [hzero, List.length_eq_zero_iff.1 hzero]
    rfl
  · have hlength := rest_length a text
    have hpart := Memory.load_part (o := a.offset) (n := (rest a text).length) h.isPrefix
      (by rw [List.length_append, List.length_singleton]; omega)
    rw [zero_add] at hpart
    rw [hpart, rest, List.length_take, List.take_eq_take_iff]
    simp

/-! ### The text at each statement -/

/-- What a read finds in `k_buffer` at a statement, when the reads before have left `text`. -/
def TextAt (text : List UInt8) (ph : Phase) (kBuffer : Memory UInt8) (a : ReadArgs) : Pc → Prop
  | .unlock (some ret) => Holds kBuffer text ∧ Fails ph ret
  | .unlock none | .measure => ∃ t, Source text ph t ∧ Holds kBuffer t
  | .copyOut lg => ∃ t, Source text ph t ∧ Holds kBuffer t ∧ lg = (rest a t).length
  | .ret ret user _ =>
      (Holds kBuffer text ∧ Fails ph ret ∧ user = []) ∨
        ∃ t, Source text ph t ∧ Holds kBuffer t ∧ reply a t = (ret, user)
  | _ => Holds kBuffer text

theorem textAt_runStep {S : Setup} {device : Ptr} {sub : Option Pid} {p : Pid} {a : ReadArgs}
    {ph : Phase} {text : List UInt8} {f f' : Frame Pid} (h : TextAt text ph f.kBuffer a f.pc)
    (hfits : Fits S (Set.Iio 0) f.ch sub p (.read a) ph f.pc)
    (habandon : ∀ ret, f.pc = .clearBusy .signal ret → f.ch.inFlight = false)
    (hwithin : f.pc = .measure → a.offset ≤ textEnd f.kBuffer + 1 ∨ a.length = 0 ∨
      (2 : ℤ) ^ S.abi.longBits ∣ textEnd f.kBuffer + 1 - a.offset)
    (hrun : runStep S device p (.read a) f = some f') : TextAt text ph f'.kBuffer a f'.pc := by
  obtain ⟨ch, kBuffer, o, pc⟩ := f
  cases ran_of_runStep hrun with
  | refuses _ _ hc | prepares _ _ hc => cases hc
  | begins a' hc hpc hoffset hf' =>
    cases hpc
    subst hf'
    exact h
  | continues a' hc hpc hoffset hf' =>
    cases hc
    cases hpc
    subst hf'
    cases hfits
    exact ⟨text, .continued hoffset, h⟩
  | locks hpc _ hf' | noDevice hpc _ hf' | hasDevice hpc _ hf' | waitsBusy hpc _ hf'
  | passes hpc _ hf' | wakesBusy hpc _ hf' | marks hpc hf' | fills hpc hf' | waitsDone hpc _ hf'
  | done hpc _ hf' | wakesDone hpc _ hf' | fails hpc _ hf' | succeeds hpc _ hf'
  | unlocksText hpc hf' =>
    cases hpc
    subst hf'
    exact h
  | unlocksNoDev hpc hf' =>
    cases hpc
    subst hf'
    obtain ⟨rfl, report, hoffset⟩ := hfits
    exact .inl ⟨h, .unserved hoffset (by decide), rfl⟩
  | stores i hpc hf' =>
    cases hpc
    subst hf'
    dsimp only
    split_ifs <;> exact h
  | clears site ret hpc hf' =>
    cases hpc
    subst hf'
    cases site with
    | submit =>
      obtain ⟨⟨rfl, report, hoffset⟩, hret⟩ := hfits
      exact ⟨h, .unserved hoffset hret⟩
    | signal =>
      obtain ⟨hawaited, rfl⟩ := hfits
      have hlanded : ch.inFlight = false := habandon _ rfl
      simp only [Awaited, hlanded, Bool.false_eq_true, if_false] at hawaited
      subst hawaited
      exact ⟨h, .interrupted⟩
    | status =>
      obtain ⟨status, report, rfl, hstatus, rfl⟩ := hfits
      exact ⟨h, .failed hstatus⟩
  | formats hpc hf' =>
    cases hpc
    subst hf'
    obtain ⟨rfl, -⟩ := hfits
    exact ⟨_, .fresh, holds_print kBuffer ch.bytes⟩
  | unlocks ret hpc hf' =>
    cases hpc
    subst hf'
    exact .inl ⟨h.1, h.2, rfl⟩
  | measures a' hc hpc hf' =>
    cases hc
    cases hpc
    subst hf'
    obtain ⟨t, hsource, hholds⟩ := h
    have hmeasured := hholds.measured (hwithin rfl)
    rw [tailStep_measure]
    dsimp only
    split_ifs with hzero
    · -- nothing is left
      rw [hzero, Nat.min_zero] at hmeasured
      have hrest : rest a t = [] := List.length_eq_zero_iff.1 hmeasured.symm
      refine .inr ⟨t, hsource, hholds, ?_⟩
      simp [reply, hrest, copyToUser]
    · exact ⟨t, hsource, hholds, hmeasured⟩
  | copies a' lg hc hpc hf' =>
    cases hc
    cases hpc
    subst hf'
    obtain ⟨t, hsource, hholds, rfl⟩ := h
    have hcopied : kBuffer.load a.offset (rest a t).length = rest a t := hholds.copied
    unfold tailStep
    dsimp only
    rw [hcopied]
    split_ifs with hfault
    · exact .inr ⟨t, hsource, hholds, Prod.ext (if_pos hfault) rfl⟩
    · exact .inr ⟨t, hsource, hholds, Prod.ext (if_neg hfault) rfl⟩

theorem textAt_callStep {S : Setup} {device : Ptr} {sub : Option Pid} {p : Pid} {a : ReadArgs}
    {ph : Phase} {text : List UInt8} {f f' : Frame Pid} {e : Event}
    (h : TextAt text ph f.kBuffer a f.pc) (hfits : Fits S (Set.Iio 0) f.ch sub p (.read a) ph f.pc)
    (habandon : e = .run → ∀ ret, f.pc = .clearBusy .signal ret → f.ch.inFlight = false)
    (hwithin : e = .run → f.pc = .measure → a.offset ≤ textEnd f.kBuffer + 1 ∨ a.length = 0 ∨
      (2 : ℤ) ^ S.abi.longBits ∣ textEnd f.kBuffer + 1 - a.offset)
    (hstep : callStep S device p (.read a) f e = some f') : TextAt text ph f'.kBuffer a f'.pc := by
  by_cases he : e = .run
  · subst he
    exact textAt_runStep h hfits (habandon rfl) (hwithin rfl) hstep
  · obtain ⟨ch, kBuffer, o, pc⟩ := f
    cases waited_of_callStep hstep he with
    | refused _ hpc hf' | submits hpc _ hf' | leavesDone hpc hf' | timesBusy hpc hf'
    | timesDone hpc hf' =>
      cases hpc
      subst hf'
      exact h
    | leavesLock hpc hf' =>
      cases hpc
      subst hf'
      obtain ⟨rfl, report, hoffset⟩ := hfits
      exact .inl ⟨h, .unserved hoffset (by decide), rfl⟩
    | leavesBusy hpc hf' =>
      cases hpc
      subst hf'
      obtain ⟨rfl, report, hoffset⟩ := hfits
      exact ⟨h, .unserved hoffset (by decide)⟩

/-- While a call waits for its URB, what has been seen of it does not count. -/
theorem textAt_awaits {text : List UInt8} {ph ph' : Phase} {kBuffer : Memory UInt8} {a : ReadArgs}
    {pc : Pc} (hpc : Pc.awaits pc = true) (h : TextAt text ph kBuffer a pc) :
    TextAt text ph' kBuffer a pc := by
  cases pc with
  | doneTest | doneWait | clearBusy => exact h
  | _ => cases hpc

/-! ### Every run -/

section Runs

variable [DecidableEq Pid] {S : Setup} {w w' : Watched Pid} {log out : List (Sight Pid)}
  {act : Act Pid} {text : List UInt8}

/-- The invariant. -/
structure Prints (S : Setup) (w : Watched Pid) (log : List (Sight Pid)) (text : List UInt8) : Prop where
  keeps : Keeps S (Set.Iio 0) w log
  reading : Reading w.driver
  shows : Shows S log text
  quiet : (∀ p, (w.driver.proc p).reads = false) → Holds w.driver.kBuffer text
  reads : ∀ p a o pc, w.driver.proc p = .call (.read a) o pc →
    TextAt text (phaseAfter p log) w.driver.kBuffer a pc

/-- A step of the process that reads. -/
theorem Prints.own (h : Prints S w log text) (hkeeps : Keeps S (Set.Iio 0) w' (log ++ out))
    (hreading : Reading w'.driver) {p : Pid} {a : ReadArgs} {o : Fin 8 → ℤ} {pc : Pc} {e : Event}
    (hp : w.driver.proc p = .call (.read a) o pc) (habandon : NotAbandoned w.driver (.proc p e))
    (hwithin : WithinText S w.driver (.proc p e))
    (hstep : (watched S Pid).step w (.proc p e) = some (w', out)) :
    ∃ text', Prints S w' (log ++ out) text' := by
  obtain ⟨⟨s, out₀⟩, hdriver, heq⟩ := Option.map_eq_some_iff.1 hstep
  cases heq
  have hat := h.reads p a o pc hp
  have hreads : (w.driver.proc p).reads = true := by rw [hp]; rfl
  rcases callStep_of_step hp hdriver with ⟨f, hcall, rfl, -⟩ | ⟨ret, user, advance, rfl, hleave⟩
  · have hseen : w.seen (w.driver.setFrame p (.read a) f) (.proc p e) = [] := by
      cases e with
      | submit | signal | timeout => rfl
      | run =>
        simp only [Watched.seen, hp]
        cases pc with
        | ret => cases hcall
        | _ => rfl
    rw [hseen] at hkeeps ⊢
    rw [List.append_nil] at hkeeps ⊢
    have hp' : (w.driver.setFrame p (.read a) f).proc p = .call (.read a) f.o f.pc :=
      proc_setFrame _ _ _ _
    refine ⟨text, hkeeps, hreading, h.shows, fun hnone => ?_, fun q a' o' pc' hq => ?_⟩
    · have hreads' := hnone p
      change ((w.driver.setFrame p (.read a) f).proc p).reads = false at hreads'
      rw [hp'] at hreads'
      cases hreads'
    · -- nobody else reads
      have hqp : q = p := by
        refine hreading.one q p ?_ ?_
        · rw [hq]
          rfl
        · change ((w.driver.setFrame p (.read a) f).proc p).reads = true
          rw [hp']
          rfl
      subst hqp
      cases hq.symm.trans hp'
      refine textAt_callStep hat ((explains_call hp).1 (h.keeps.phase q).2)
        (fun he ret hpc => habandon q _ o ret (by rw [he]) (by rw [hp, show pc = _ from hpc]))
        (fun he hpc => ?_) hcall
      subst he
      cases hpc
      exact hwithin a (mem_measuring hp)
  · obtain ⟨rfl, -⟩ := Prod.mk.inj hleave
    have he : e = .run := by
      cases e with
      | run => rfl
      | submit | signal | timeout => simp [step, hp] at hdriver
    subst he
    have hseen : ∀ t, w.seen t (.proc p .run) = [.returned p (.read a) ret user] := fun t => by
      simp only [Watched.seen, hp]
    rw [hseen] at hkeeps ⊢
    obtain ⟨hfollows, hph⟩ := h.keeps.phase p
    have hph' := ((explains_call hp).1 hph).1
    -- nobody reads now
    have hnone : ∀ q a' o' pc', Function.update w.driver.proc p .user q ≠ .call (.read a') o' pc' := by
      intro q a' o' pc' hq
      rcases setProc_eq_call (s := w.driver) hq with ⟨-, heq⟩ | ⟨hne, hold⟩
      · cases heq
      · exact hne (h.reading.one q p (by rw [hold]; rfl) hreads)
    rcases hat with ⟨hholds, hfails, rfl⟩ | ⟨t, hsource, hholds, hreply⟩
    · exact ⟨text, hkeeps, hreading, h.shows.failed hfollows hph' hfails, fun _ => hholds,
        fun q a' o' pc' hq => absurd hq (hnone q a' o' pc')⟩
    · have hshows := h.shows.read hfollows hph' hsource
      rw [hreply] at hshows
      exact ⟨t, hkeeps, hreading, hshows, fun _ => hholds,
        fun q a' o' pc' hq => absurd hq (hnone q a' o' pc')⟩

/-- A step of anybody else leaves `k_buffer` alone. -/
theorem kBuffer_of_others {s s' : State Pid} {outs : List (Output Pid)} (h : Reading s)
    (hact : ∀ p e, act = .proc p e → (s.proc p).reads = false)
    (hstep : step S s act = some (s', outs)) : s'.kBuffer = s.kBuffer := by
  rcases keeps_or_calls hstep with ⟨hsame, -⟩ | ⟨q, e, c, o, pc, f, rfl, hq, rfl, hcall⟩
  · exact hsame
  · have hwrites : ∀ a, c ≠ .read a := by
      rintro a rfl
      have hnot := hact q e rfl
      rw [hq] at hnot
      cases hnot
    cases textStep_of_callStep hcall with
    | prints hpc =>
      cases c with
      | write a => cases (h.placed q _ o pc hq).1 hpc
      | read a => exact absurd rfl (hwrites a)
    | measures a _ hc => exact absurd hc (hwrites a)
    | copies a _ hc => exact absurd hc (hwrites a)
    | goes hk => exact hk

/-- What is seen of others is not the return of a read, and does not change the phase of a process that
reads, unless this waits for its URB. -/
theorem seen_of_others {s : State Pid} {outs : List (Output Pid)} (log : List (Sight Pid))
    (howned : Owned w)
    (hact : ∀ p e, act = .proc p e → (w.driver.proc p).reads = false)
    (hdriver : step S w.driver act = some (s, outs)) :
    (∀ x ∈ w.seen s act, x.ofRead = false) ∧
      ∀ q a o pc, w.driver.proc q = .call (.read a) o pc →
        phaseAfter q (log ++ w.seen s act) = phaseAfter q log ∨ Pc.awaits pc = true := by
  cases act with
  | openFile | startRelease | unplug =>
    refine ⟨fun x hx => absurd hx List.not_mem_nil, fun q a o pc hq => .inl ?_⟩
    rw [show w.seen s _ = [] from rfl, List.append_nil]
  | start p c =>
    refine ⟨fun x hx => by cases List.mem_singleton.1 hx; rfl, fun q a o pc hq => .inl ?_⟩
    have hqp : q ≠ p := by
      rintro rfl
      simp [step, hq] at hdriver
    rw [show w.seen s (.start p c) = [.called p c] from rfl, phaseAfter_snoc]
    exact advance_of_ne (x := .called p c) (fun heq => hqp (Option.some.inj heq).symm) _
  | complete d status data =>
    refine ⟨fun x hx => by cases List.mem_singleton.1 hx; rfl, fun q a o pc hq => ?_⟩
    obtain ⟨p, c, o', pc', hsub, hp, -, hpc'⟩ := howned d (step_complete_iff.1 hdriver).1
    by_cases hqp : q = p
    · subst hqp
      cases hq.symm.trans hp
      exact .inr hpc'
    · left
      rw [show w.seen s (.complete d status data) = [_] from rfl, phaseAfter_snoc]
      refine advance_of_ne (fun heq => hqp ?_) _
      exact Option.some.inj (heq.symm.trans hsub)
  | proc p e =>
    have hnot := hact p e rfl
    cases e with
    | submit | signal | timeout =>
      refine ⟨fun x hx => absurd hx List.not_mem_nil, fun q a o pc hq => .inl ?_⟩
      rw [show w.seen s _ = [] from rfl, List.append_nil]
    | run =>
      simp only [Watched.seen]
      split
      · next c o ret user advance hp =>
        refine ⟨fun x hx => ?_, fun q a o pc hq => .inl ?_⟩
        · cases List.mem_singleton.1 hx
          rw [hp] at hnot
          cases c with
          | write a => rfl
          | read a => cases hnot
        · have hqp : q ≠ p := by
            rintro rfl
            rw [hq] at hnot
            cases hnot
          rw [phaseAfter_snoc]
          exact advance_of_ne (x := .returned p c ret user) (fun heq => hqp (Option.some.inj heq).symm) _
      · refine ⟨fun x hx => absurd hx List.not_mem_nil, fun q a o pc hq => .inl ?_⟩
        rw [List.append_nil]

/-- A step of anybody else. -/
theorem Prints.others (h : Prints S w log text) (hkeeps : Keeps S (Set.Iio 0) w' (log ++ out))
    (hreading : Reading w'.driver)
    (hact : ∀ p e, act = .proc p e → (w.driver.proc p).reads = false)
    (hone : OneReader w.driver act) (hstep : (watched S Pid).step w act = some (w', out)) :
    Prints S w' (log ++ out) text := by
  obtain ⟨⟨s, out₀⟩, hdriver, heq⟩ := Option.map_eq_some_iff.1 hstep
  cases heq
  have hk := kBuffer_of_others h.reading hact hdriver
  obtain ⟨hseen, hphase⟩ := seen_of_others log h.keeps.owned hact hdriver
  refine ⟨hkeeps, hreading, h.shows.append hseen, fun hnone => ?_, fun q a o pc hq => ?_⟩
  · change Holds s.kBuffer text
    rw [hk]
    refine h.quiet fun q => ?_
    by_contra hq
    -- it still reads
    have hreads : (w.driver.proc q).reads = true := by simpa using hq
    obtain ⟨a, o, pc, hcall⟩ := Proc.eq_call_of_reads hreads
    have hsame := proc_of_step (p := q) (fun e heq => hq (hact q e heq))
      (by rw [hcall]; intro heq; cases heq) hdriver
    have hnone' := hnone q
    change (s.proc q).reads = false at hnone'
    rw [hsame] at hnone'
    exact hq hnone'
  · change s.proc q = _ at hq
    change TextAt text _ s.kBuffer a pc
    rw [hk]
    rcases call_of_step hq hdriver with ⟨rfl, rfl⟩ | ⟨e, o₀, pc₀, f, rfl, hold, -⟩ | ⟨-, hold⟩
    · exact h.quiet (hone rfl)
    · have hnot := hact q e rfl
      rw [hold] at hnot
      cases hnot
    · have hat := h.reads q a o pc hold
      rcases hphase q a o pc hold with hsame | hawaits
      · rw [hsame]
        exact hat
      · exact textAt_awaits hawaits hat

theorem prints_step (h : Prints S w log text) (habandon : NotAbandoned w.driver act)
    (herr : ∀ p err, act = .proc p (.submit err) → err ≠ 0 → err ∈ Set.Iio 0)
    (hone : OneReader w.driver act) (hwithin : WithinText S w.driver act) (hstep : (watched S Pid).step w act = some (w', out)) :
    ∃ text', Prints S w' (log ++ out) text' := by
  have hkeeps := keeps_step h.keeps habandon herr hstep
  have hreading : Reading w'.driver := by
    obtain ⟨⟨s, out₀⟩, hdriver, heq⟩ := Option.map_eq_some_iff.1 hstep
    cases heq
    exact reading_step h.reading hone hdriver
  by_cases hact : ∀ p e, act = .proc p e → (w.driver.proc p).reads = false
  · exact ⟨text, h.others hkeeps hreading hact hone hstep⟩
  · push Not at hact
    obtain ⟨p, e, rfl, hreads⟩ := hact
    obtain ⟨a, o, pc, hp⟩ := Proc.eq_call_of_reads (by simpa using hreads)
    exact h.own hkeeps hreading hp habandon hwithin hstep

omit [DecidableEq Pid] in
theorem holds_init : Holds (fun _ => 0) [] := ⟨rfl, fun b hb => absurd hb List.not_mem_nil, by decide⟩

/-- **What the reads give the user**: in every run in which the board stays plugged, no call abandons its
URB, the reads follow each other and each starts in the text or just after it, a read from offset 0 is
given the text of the report that its own transfer has brought, a read from another offset what stands
there in the text of the last read that was given one, and a read that has no such text fails, or
returns 0 because its transfer has failed. -/
theorem reads_reply {heap : Direction → Memory UInt8} {acts : List (Act Pid)}
    (herr : ∀ p err, .proc p (.submit err) ∈ acts → err ≤ 0)
    (hkept : (watched S Pid).Along (fun w => NotAbandoned w.driver) (start Pid heap) acts)
    (hone : (watched S Pid).Along (fun w => OneReader w.driver) (start Pid heap) acts)
    (hwithin : (watched S Pid).Along (fun w => WithinText S w.driver) (start Pid heap) acts)
    (hrun : (watched S Pid).exec (start Pid heap) acts = some (w, log)) : ∃ text, Shows S log text := by
  have hsubmits : ∀ act ∈ acts, ∀ p err, act = .proc p (.submit err) → err ≠ 0 → err ∈ Set.Iio 0 :=
    fun act hact p err heq hne => lt_of_le_of_ne (herr p err (heq ▸ hact)) hne
  have hprints : ∃ text, Prints S w log text := by
    refine System.exec_induction_along (I := fun w log => ∃ text, Prints S w log text) ?_ ?_
      ((hkept.and (System.along_of_forall hsubmits _)).and (hone.and hwithin)) hrun
    · rintro w log act w' out ⟨text, h⟩ ⟨⟨habandon, herr'⟩, hone', hwithin'⟩ hstep
      exact prints_step h habandon herr' hone' hwithin' hstep
    · exact ⟨[], keeps_start S _ heap, reading_init heap [], .nil, fun _ => holds_init,
        fun _ _ _ _ hp => by cases hp⟩
  obtain ⟨text, h⟩ := hprints
  exact ⟨text, h.shows⟩

end Runs

/-! ### An example -/

/-- What the user has been given. -/
def Sight.given : Sight Pid → Option (ℤ × List UInt8)
  | .returned _ (.read _) ret user => some (ret, user)
  | _ => none

theorem reads_reply_readInside :
    ∃ (w : Watched Bool) (log : List (Sight Bool)),
      (watched (demo .vii05) Bool).exec (start Bool fun _ _ => 0) readInside = some (w, log) ∧
      log.filterMap Sight.given =
        [(17, [49, 32, 50, 32, 51, 32, 52, 32, 53, 32, 54, 32, 55, 32, 56, 10, 0]),
          (4, [53, 32, 54, 32]), (0, [])] ∧
      ∃ text, Shows (demo .vii05) log text := by
  obtain ⟨⟨w, log⟩, hrun, hval⟩ := Option.map_eq_some_iff.1
    (show ((watched (demo .vii05) Bool).exec (start Bool fun _ _ => 0) readInside).map
      (fun r => r.2.filterMap Sight.given) =
        some [(17, [49, 32, 50, 32, 51, 32, 52, 32, 53, 32, 54, 32, 55, 32, 56, 10, 0]),
          (4, [53, 32, 54, 32]), (0, [])] by decide +kernel)
  have hkept : (watched (demo .vii05) Bool).Along (fun w act => abandons w.driver act = false)
      (start Bool fun _ _ => 0) readInside := by decide +kernel
  refine ⟨w, log, hrun, hval, reads_reply ?_ (hkept.mono fun _ _ => notAbandoned_of_abandons)
    (by decide +kernel) (by decide +kernel) hrun⟩
  intro p err herr
  simp [readInside, Act.enters] at herr
  omega

end IldDrivers.ExampleVII.Board
