import IldDrivers.Counters.Projection
import IldDrivers.Proc.Readings
import Mathlib.Data.List.ReduceOption

/-!
# Values that are read back (`example-II-06`, `tp-II-03`, `example-IV-06`)

Three of the programs have a value that user space gives them: `example-II-06` the number last written,
`tp-II-03` the sum of the numbers written, `example-IV-06` the flag last set by an `ioctl`. The text
that is read afterwards shows it.

* `Gives`: a call that gives the program a number, or fails to;
* `Program.after`: the value that the program has when it has been given these numbers;
* `given_then_read`: a complete reading shows that value.
-/

namespace IldDrivers

open Counters

namespace Ioctl

/-- The bytes of an `int` make up that `int`. -/
theorem intOfBytes_leBytes {x : ℤ} (hx : IsInt x) : intOfBytes (leBytes 4 x) = x := by
  rw [intOfBytes, leVal_leBytes, TpIV04.cInt_emod, hx.cInt_eq]

theorem copiedBytes_leBytes (x : ℤ) : copiedBytes (leBytes 4 x) 4 = leBytes 4 x := by
  have hlength := leBytes_length 4 x
  rw [copiedBytes, List.take_of_length_le hlength.le, hlength, Nat.sub_self, List.replicate_zero,
    List.append_nil]

end Ioctl

open Ioctl

namespace ExampleIV06

/-- The flag is set to an `int`. -/
theorem ioctl_set {x : ℤ} (hx : IsInt x) (flag : ℤ) (copied : ℕ) (accessOk : ℕ → Bool) :
    ioctl flag ⟨⟨exampleSetPpidFlag, leBytes 4 x⟩, copied, accessOk⟩ = (x, ⟨0, [], 0⟩) := by
  have htype : iocType exampleSetPpidFlag = exampleIoctlMagic := iocType_ioc (by decide) (by decide)
  have hnr : iocNr exampleSetPpidFlag = internalSetPpidFlag := iocNr_ioc (by decide)
  rw [ioctl, if_neg (not_not_intro htype), flagSwitch_set flag (by decide) hnr, copiedBytes_leBytes,
    intOfBytes_leBytes hx, leBytes_length]
  rfl

/-- No other command changes it. -/
theorem ioctl_other {a : Args} (flag : ℤ)
    (h : iocType a.cmd ≠ exampleIoctlMagic ∨ iocNr a.cmd ≠ internalSetPpidFlag) :
    (ioctl flag a).1 = flag := by
  unfold ioctl
  by_cases htype : iocType a.cmd = exampleIoctlMagic
  · rw [if_neg (not_not_intro htype)]
    exact flagSwitch_fst _ flag (h.resolve_left (not_not_intro htype))
  · rw [if_pos htype]

end ExampleIV06

namespace Proc.Readings

/-! ### What is given -/

/-- A number in decimal notation with something else behind, such as a newline; what is too long or cannot
be copied; the flag; and any other command. -/
inductive Gives : Change → Option ℤ → Prop
  | number {x : ℤ} {rest : List UInt8} {copied : ℕ} (hx : IsInt x) (hrest : NoDigitHead rest)
      (hnul : NulFree rest) (hlength : (decimal x ++ rest).length < 128)
      (hcopied : (decimal x ++ rest).length ≤ copied) :
      Gives (.write (decimal x ++ rest) copied) (some x)
  | failed {data : List UInt8} {copied : ℕ} (h : 128 ≤ data.length ∨ copied < data.length) :
      Gives (.write data copied) none
  | flag {x : ℤ} {copied : ℕ} {accessOk : ℕ → Bool} (hx : IsInt x) :
      Gives (.ioctl ⟨⟨ExampleIV06.exampleSetPpidFlag, leBytes 4 x⟩, copied, accessOk⟩) (some x)
  | other {a : Ioctl.Args} (h : iocType a.cmd ≠ ExampleIV06.exampleIoctlMagic ∨
      iocNr a.cmd ≠ ExampleIV06.internalSetPpidFlag) : Gives (.ioctl a) none

/-- `sscanf` reads a number in decimal notation, whatever follows that is not a digit. -/
def Scans (sscanf : List UInt8 → Option ℤ) : Prop :=
  ∀ (x : ℤ) (rest : List UInt8), IsInt x → NoDigitHead rest → sscanf (decimal x ++ rest) = some x

/-- One number. -/
def Program.next : Program → ℤ → ℤ → ℤ
  | .tpII03, sum, x => cInt (sum + x)
  | _, _, x => x

/-- The sum, or the last of the numbers. -/
def Program.after : Program → ℤ → List ℤ → ℤ
  | .tpII03, sum, xs => cInt (sum + xs.sum)
  | _, value, xs => xs.getLastD value

/-- The calls that may change the value. -/
def Act.change? {F : Type*} : Act F → Option Change
  | .change c => some c
  | .read _ _ _ _ _ => none

def changes {F : Type*} (acts : List (Act F)) : List Change := acts.filterMap Act.change?

/-- The tasks that read the file. -/
def Act.reader? {F : Type*} [DecidableEq F] (f : F) : Act F → Option Task
  | .read g current _ _ _ => if g = f then some current else none
  | .change _ => none

def readers {F : Type*} [DecidableEq F] (f : F) (acts : List (Act F)) : List Task :=
  acts.filterMap (Act.reader? f)

/-! ### One call -/

section OneCall

variable {u : Setup} {p : Program}

theorem Program.after_nil (p : Program) {value : ℤ} (hvalue : IsInt value) :
    p.after value [] = value := by
  cases p with
  | tpII03 =>
    rw [Program.after, List.sum_nil, Int.add_zero]
    exact hvalue.cInt_eq
  | _ => rfl

theorem Program.after_cons (p : Program) (value x : ℤ) (xs : List ℤ) :
    p.after value (x :: xs) = p.after (p.next value x) xs := by
  cases p with
  | tpII03 =>
    simp only [Program.after, Program.next, List.sum_cons]
    unfold cInt
    rw [Int.bmod_add_bmod, Int.add_assoc]
  | _ => exact List.getLastD_cons (a := value)

theorem Program.isInt_next (p : Program) (value : ℤ) {x : ℤ} (hx : IsInt x) :
    IsInt (p.next value x) := by
  cases p with
  | tpII03 => exact isInt_cInt _
  | _ => exact hx

/-- What a call gives is what the program makes of it. -/
theorem change_value (hscan : Scans u.sscanf) {c : Change} {x : Option ℤ} (hgives : Gives c x)
    {value value' ret : ℤ} (hchange : p.change u value c = some (ret, value')) :
    value' = x.elim value (p.next value) ∧ ∀ y ∈ x, IsInt y := by
  cases hgives with
  | @number x rest copied hx hrest hnul hlength hcopied =>
    have hscanned : u.sscanf (cstring (decimal x ++ rest ++ [0])) = some x := by
      rw [cstring_append_nul ((nulFree_decimal x).append hnul) []]
      exact hscan x rest hx hrest
    refine ⟨?_, fun y hy => by cases hy; exact hx⟩
    cases p with
    | exampleII06 =>
      simp only [Program.change, ExampleII06.exampleWrite, if_neg (not_le.2 hlength),
        Nat.sub_eq_zero_of_le hcopied, hscanned] at hchange
      cases hchange
      exact hx.cInt_eq
    | tpII03 =>
      simp only [Program.change, TpII03.sumWrite, if_neg (not_le.2 hlength),
        Nat.sub_eq_zero_of_le hcopied, hscanned] at hchange
      cases hchange
      rfl
    | _ => cases hchange
  | @failed data copied h =>
    refine ⟨?_, fun y hy => by cases hy⟩
    have hnone : ¬ 128 ≤ data.length → data.length - copied ≠ 0 := by omega
    cases p with
    | exampleII06 =>
      simp only [Program.change, ExampleII06.exampleWrite] at hchange
      split_ifs at hchange with hlong hfault
      · cases hchange
        rfl
      · cases hchange
        rfl
      · exact absurd (hnone hlong) hfault
    | tpII03 =>
      simp only [Program.change, TpII03.sumWrite] at hchange
      split_ifs at hchange with hlong hfault
      · cases hchange
        rfl
      · cases hchange
        rfl
      · exact absurd (hnone hlong) hfault
    | _ => cases hchange
  | @flag x copied accessOk hx =>
    refine ⟨?_, fun y hy => by cases hy; exact hx⟩
    cases p with
    | exampleIV06 =>
      simp only [Program.change, ExampleIV06.ioctl_set hx] at hchange
      cases hchange
      rfl
    | _ => cases hchange
  | @other a h =>
    refine ⟨?_, fun y hy => by cases hy⟩
    cases p with
    | exampleIV06 =>
      have hflag := ExampleIV06.ioctl_other value h
      simp only [Program.change] at hchange
      cases hchange
      exact hflag
    | _ => cases hchange

end OneCall

/-! ### Runs -/

section Runs

variable {F : Type*} [DecidableEq F] {u : Setup} {p : Program} {s s' : State F} {acts : List (Act F)}
  {log : List (Record F)} {f : F} {current : Task}

theorem step_value {a : Act F} {out : List (Record F)} (hstep : step u p s a = some (s', out)) :
    (a.change? = none ∧ s'.value = s.value) ∨
      ∃ c ret, a.change? = some c ∧ p.change u s.value c = some (ret, s'.value) := by
  cases a with
  | read g current max copied stack =>
    cases hstep
    exact .inl ⟨rfl, rfl⟩
  | change c =>
    obtain ⟨⟨ret, value⟩, hchange, heq⟩ := Option.map_eq_some_iff.1 hstep
    cases heq
    exact .inr ⟨c, ret, rfl, hchange⟩

/-- The value when these numbers have been given. -/
theorem exec_value (hscan : Scans u.sscanf) (hvalue : IsInt s.value)
    (hrun : (system F u p).exec s acts = some (s', log)) {xs : List (Option ℤ)}
    (hgives : List.Forall₂ Gives (changes acts) xs) :
    s'.value = p.after s.value xs.reduceOption := by
  induction acts generalizing s log xs with
  | nil =>
    cases hrun
    cases hgives
    exact (p.after_nil hvalue).symm
  | cons a acts ih =>
    obtain ⟨t, out, outs, hstep, hrest, rfl⟩ := System.exec_cons.1 hrun
    rcases step_value hstep with ⟨hnone, ht⟩ | ⟨c, ret, hsome, hchange⟩
    · rw [changes, List.filterMap_cons_none hnone] at hgives
      rw [← ht] at hvalue ⊢
      exact ih hvalue hrest hgives
    · rw [changes, List.filterMap_cons_some hsome] at hgives
      cases hgives with
      | @cons _ x _ xs hgive hgives =>
        obtain ⟨ht, hint⟩ := change_value hscan hgive hchange
        cases x with
        | none =>
          rw [List.reduceOption_cons_of_none, ← show t.value = s.value from ht]
          rw [← show t.value = s.value from ht] at hvalue
          exact ih hvalue hrest hgives
        | some x =>
          rw [List.reduceOption_cons_of_some, p.after_cons, ← show t.value = p.next s.value x from ht]
          refine ih ?_ hrest hgives
          rw [show t.value = p.next s.value x from ht]
          exact p.isInt_next s.value (hint x rfl)

/-- What the reads of a task find while the value stays the same. -/
theorem exec_texts (hrun : (system F u p).exec s acts = some (s', log)) (hsame : changes acts = [])
    (hreaders : ∀ t ∈ readers f acts, t = current) :
    ∀ r ∈ reads f log, r.text = p.shown current s.value := by
  induction acts generalizing s log with
  | nil =>
    cases hrun
    intro r hr
    cases hr
  | cons a acts ih =>
    obtain ⟨t, out, outs, hstep, hrest, rfl⟩ := System.exec_cons.1 hrun
    cases a with
    | read g reader max copied stack =>
      cases hstep
      have htail : ∀ t ∈ readers f acts, t = current := by
        intro t ht
        refine hreaders t ?_
        rw [readers, List.filterMap_cons]
        split
        · exact ht
        · exact List.mem_cons_of_mem _ ht
      intro r hr
      rw [reads_append] at hr
      rcases List.mem_append.1 hr with hr | hr
      · by_cases hg : g = f
        · subst hg
          rw [reads_self] at hr
          cases List.mem_singleton.1 hr
          have hreader : reader = current :=
            hreaders reader (by simp [readers, Act.reader?])
          rw [hreader]
        · rw [reads_of_ne hg] at hr
          cases hr
      · exact ih hrest hsame htail r hr
    | change c => cases hsame

/-- A file that is not read. -/
theorem exec_unread (hrun : (system F u p).exec s acts = some (s', log)) (hnone : readers f acts = []) :
    reads f log = [] := by
  induction acts generalizing s log with
  | nil =>
    cases hrun
    rfl
  | cons a acts ih =>
    obtain ⟨t, out, outs, hstep, hrest, rfl⟩ := System.exec_cons.1 hrun
    cases a with
    | read g reader max copied stack =>
      cases hstep
      by_cases hg : g = f
      · simp [readers, Act.reader?, hg] at hnone
      · rw [reads_append, reads_of_ne hg]
        exact ih hrest (by simpa [readers, Act.reader?, hg] using hnone)
    | change c =>
      obtain ⟨⟨ret, value⟩, -, heq⟩ := Option.map_eq_some_iff.1 hstep
      cases heq
      rw [reads_append, reads_change, List.nil_append]
      exact ih hrest hnone

/-- **What is given is read back**: after any calls of any tasks, which have given the program these
numbers, a task that reads a new file while nothing is changed, until 0 is returned to it, is shown the
sum of the numbers, the last of them, or what the flag last set asks for. -/
theorem given_then_read {value : ℤ} {before after : List (Act F)} {t : State F}
    {log₁ log₂ : List (Record F)} {xs : List (Option ℤ)} (hsimple : Contract u.simpleReadFromBuffer)
    (hscan : Scans u.sscanf) (hvalue : IsInt value)
    (hbefore : (system F u p).exec (start F value) before = some (t, log₁))
    (hgives : List.Forall₂ Gives (changes before) xs) (hnew : readers f before = [])
    (hafter : (system F u p).exec t after = some (s', log₂)) (hsame : changes after = [])
    (hreaders : ∀ t ∈ readers f after, t = current) (hfinished : Finished (reads f log₂)) :
    received (pieces (reads f log₂)) = p.shown current (p.after value xs.reduceOption) := by
  have hread : reads f (log₁ ++ log₂) = reads f log₂ := by
    rw [reads_append, exec_unread hbefore hnew, List.nil_append]
  have htexts := exec_texts hafter hsame hreaders
  rw [exec_value hscan hvalue hbefore hgives] at htexts
  have hfollowed := (kept hsimple (System.exec_append hbefore hafter) f).2
  rw [hread] at hfollowed
  exact (hfollowed _ htexts).received.2.1 hfinished

end Runs

/-! ### An example -/

theorem standard_scans : Scans standard.sscanf := by
  intro x rest hx hrest
  show (scanInt (decimal x ++ rest)).map Prod.fst = some x
  rw [scanInt_decimal x hrest]
  rfl

/-- 12 and -2 are written, with 30 in between that cannot be copied. -/
def writes : List (Act ℕ) :=
  [.change (.write (decimal 12 ++ [10]) 3), .change (.write (decimal 30 ++ []) 1),
    .change (.write (decimal (-2) ++ []) 2)]

def readsOfSum : List (Act ℕ) :=
  [.read 0 initTask 2 2 fun _ => 0, .read 0 initTask 2 2 fun _ => 0, .read 0 initTask 2 2 fun _ => 0]

theorem gives_writes : List.Forall₂ Gives (changes writes) [some 12, none, some (-2)] := by
  have hnewline : NoDigitHead [10] := by
    intro b hb
    cases hb
    decide
  have hnothing : NoDigitHead [] := by
    intro b hb
    cases hb
  have htwelve : Gives (.write (decimal 12 ++ [10]) 3) (some 12) :=
    .number ⟨by norm_num, by norm_num⟩ hnewline (by decide) (by decide) (by decide)
  have hthirty : Gives (.write (decimal 30 ++ []) 1) none := .failed (.inr (by decide))
  have hminus : Gives (.write (decimal (-2) ++ []) 2) (some (-2)) :=
    .number ⟨by norm_num, by norm_num⟩ hnothing (by decide) (by decide) (by decide)
  exact .cons htwelve (.cons hthirty (.cons hminus .nil))

/-- The sum is 10. -/
theorem given_then_read_sum :
    ∃ t s log₁ log₂, (system ℕ standard .tpII03).exec (start ℕ 0) writes = some (t, log₁) ∧
      (system ℕ standard .tpII03).exec t readsOfSum = some (s, log₂) ∧
      received (pieces (reads 0 log₂)) = [49, 48, 10] := by
  obtain ⟨⟨t, log₁⟩, hbefore, hval⟩ := Option.map_eq_some_iff.1
    (show ((system ℕ standard .tpII03).exec (start ℕ 0) writes).map
        (fun r => ((system ℕ standard .tpII03).exec r.1 readsOfSum).map fun q =>
          decide (Finished (reads 0 q.2))) = some (some true) by decide +kernel)
  obtain ⟨⟨s, log₂⟩, hafter, hfinished⟩ := Option.map_eq_some_iff.1 hval
  have hreaders : ∀ t ∈ readers 0 readsOfSum, t = initTask := fun t ht =>
    List.eq_of_mem_replicate (n := 3) ht
  have hshown := given_then_read simpleReadFromBuffer_contract standard_scans
    ⟨by norm_num, by norm_num⟩ hbefore gives_writes rfl hafter rfl hreaders
    (of_decide_eq_true hfinished)
  have htext : Program.tpII03.shown initTask (Program.tpII03.after 0
      ([some 12, none, some (-2)] : List (Option ℤ)).reduceOption) = [49, 48, 10] := by
    decide +kernel
  rw [htext] at hshown
  exact ⟨t, s, log₁, log₂, hbefore, hafter, hshown⟩

end Proc.Readings

end IldDrivers
