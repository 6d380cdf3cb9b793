import IldDrivers.Counters.Versions
import IldDrivers.Proc.Offsets
import Mathlib.Data.PNat.Defs
import Mathlib.Tactic

/-!
# Reading the counter through one file (`tp-IV-01` to `tp-IV-03`)

A read that finds the end of the line returns 0 and makes the counter advance by the step, while the
offset of the file stays where it is. Whoever reads on from there reads in the line of another
value.

* `Version`: the three programs, of which the last one has a step of its own;
* `system`: the reads through one file;
* `collected`: what these have returned, put end to end;
* `NotLonger`: a read at the end of the first line which finds that the line has not become longer;
* `one_value_iff_notLonger`: what is read belongs to the line of the first value exactly when all reads
  are so; each 0 returned makes the counter advance once in any case.
-/

namespace IldDrivers.Counters.Reading

attribute [local irreducible] cInt

/-! ### The program -/

inductive Version
  | tpIV01
  | tpIV02
  | tpIV03 (counterStep : ℤ)

/-- What the counter advances by. -/
def Version.step : Version → ℤ
  | .tpIV01 => 1
  | .tpIV02 => 1
  | .tpIV03 counterStep => counterStep

/-- `counter_read`, with the counter after it. -/
def Version.counterRead (v : Version) (abi : Abi) (counter : ℤ) (a : ReadArgs) : ℤ × Reply :=
  match v with
  | .tpIV01 => TpIV01.counterRead abi counter a
  | .tpIV02 => TpIV02.counterRead abi counter a
  | .tpIV03 counterStep =>
      let (s, reply) := TpIV03.counterRead abi ⟨counter, counterStep⟩ a
      (s.counter, reply)

structure Setup where
  version : Version
  abi : Abi

structure State where
  counter : ℤ
  /-- The offset of the file. -/
  offset : ℤ

/-- A read of this length, of which so many bytes can be copied. -/
structure Act where
  maxLg : ℕ+
  copied : ℕ
  stack : Memory UInt8

def step (u : Setup) (s : State) (a : Act) : Option (State × List Reply) :=
  let (counter, reply) :=
    u.version.counterRead u.abi s.counter ⟨s.offset, a.maxLg, a.copied, a.stack⟩
  some (⟨counter, s.offset + reply.advance⟩, [reply])

/-- The reads through one file. -/
def system (u : Setup) : System State Act Reply := ⟨step u⟩

/-! ### What is expected -/

/-- As many bytes as each call returns. -/
def collected (log : List Reply) : List UInt8 := log.flatMap fun r => r.text.take r.ret.toNat

/-- How often 0 has been returned. -/
def zeros (log : List Reply) : ℕ := log.countP fun r => decide (r.ret = 0)

/-- The line of `c` has not been read to its end; or the line is not longer now than what has been
read; or nothing of it can be copied. -/
def NotLonger (c : ℤ) (s : State) (a : Act) : Prop :=
  s.offset < (counterText c).length ∨ (counterText s.counter).length ≤ s.offset ∨
    a.copied < (pieceAt (counterText s.counter) s.offset.toNat a.maxLg).length

instance (c : ℤ) (s : State) (a : Act) : Decidable (NotLonger c s a) :=
  inferInstanceAs (Decidable (_ ∨ _ ∨ _))

/-! ### One read -/

theorem counterText_length_le {counter : ℤ} (h : IsInt counter) :
    (counterText counter).length ≤ 22 := by
  obtain ⟨hlow, hhigh⟩ := h
  have hdecimal : (decimal counter).length ≤ 11 := decimal_length_le (by decide) (by omega)
  simp only [counterText, List.length_append, List.length_cons, List.length_nil]
  omega

theorem nulFree_counterText (counter : ℤ) : NulFree (counterText counter) := by
  unfold counterText
  refine (NulFree.append ?_ (nulFree_decimal counter)).append ?_
  · decide
  · decide

/-- Before the end of its line, the counter is read like any text. -/
theorem readCall_eq_readText (abi : Abi) (counter counterStep : ℤ) (a : ReadArgs)
    (h : ¬ cInt (Proc.strlen (Proc.snprintf a.stack 128 (counterText counter)) 128 - a.offset) ≤ 0) :
    readCall abi counter counterStep a =
      let r := (Proc.readText 128 (counterText counter) abi ⟨a.offset, a.maxLg, a.copied, a.stack⟩).1
      (⟨r.ret, r.bytes, r.offset - a.offset⟩, none) := by
  have hbuffer : a.stack.store 0 ((counterText counter).take 127 ++ [0]) =
      Proc.snprintf a.stack 128 (counterText counter) := rfl
  have hstrlen : (cstring ((Proc.snprintf a.stack 128 (counterText counter)).load 0 128)).length =
      Proc.strlen (Proc.snprintf a.stack 128 (counterText counter)) 128 := rfl
  unfold readCall Proc.readText Proc.readRest
  simp only [hbuffer, hstrlen]
  rw [if_neg h, if_neg h]
  split_ifs <;> simp

theorem readCall_eq {counter : ℤ} (h : IsInt counter) (abi : Abi) (counterStep : ℤ) {o : ℕ}
    (ho : o ≤ 22) (max copied : ℕ) (stack : Memory UInt8) :
    readCall abi counter counterStep ⟨o, max, copied, stack⟩ =
      if (counterText counter).length ≤ o then (⟨0, [], 0⟩, some (counter + counterStep))
      else if (pieceAt (counterText counter) o max).length ≤ copied then
        (⟨(pieceAt (counterText counter) o max).length, pieceAt (counterText counter) o max,
          (pieceAt (counterText counter) o max).length⟩, none)
      else (⟨-eFault, (pieceAt (counterText counter) o max).take copied, 0⟩, none) := by
  have hlength := counterText_length_le h
  have hnul := nulFree_counterText counter
  have hstrlen : Proc.strlen (Proc.snprintf stack 128 (counterText counter)) 128 =
      (counterText counter).length := by
    rw [Proc.strlen_snprintf stack hnul (by decide), List.take_of_length_le (by omega)]
  have hnb : cInt ((counterText counter).length - (o : ℤ)) = (counterText counter).length - o :=
    cInt_of_small (by omega) (by omega)
  by_cases hend : (counterText counter).length ≤ o
  · rw [if_pos hend]
    refine if_pos ?_
    show cInt (Proc.strlen (Proc.snprintf stack 128 (counterText counter)) 128 - (o : ℤ)) ≤ 0
    rw [hstrlen, hnb]
    omega
  · have hpos : ¬ cInt (Proc.strlen (Proc.snprintf stack 128 (counterText counter)) 128 - (o : ℤ)) ≤
        0 := by
      rw [hstrlen, hnb]
      omega
    rw [if_neg hend, readCall_eq_readText abi counter counterStep ⟨o, max, copied, stack⟩ hpos,
      Proc.readText_eq hnul (by omega) (by norm_num) (by omega)]
    split_ifs <;> simp

/-! ### Every sequence of reads -/

/-- What is true whatever the lines look like: the offset is the number of bytes that have been
returned, and the counter has advanced by the step for each 0, of which there is none before the first
line has been read to its end. -/
structure Kept (u : Setup) (c : ℤ) (s : State) (log : List Reply) : Prop where
  isInt : IsInt s.counter
  offset : s.offset = (collected log).length
  small : (collected log).length ≤ 22
  counter : s.counter = cInt (c + zeros log * u.version.step)
  ended : zeros log = 0 ∨ (counterText c).length ≤ (collected log).length

/-- The three programs read in the same way, with their steps. -/
theorem counterRead_eq (v : Version) (abi : Abi) (counter : ℤ) (a : ReadArgs) :
    v.counterRead abi counter a =
      ((readCall abi counter v.step a).2.elim counter cInt, (readCall abi counter v.step a).1) := by
  cases v <;> rfl

theorem collected_snoc (log : List Reply) (r : Reply) :
    collected (log ++ [r]) = collected log ++ r.text.take r.ret.toNat := by
  simp [collected]

theorem zeros_snoc (log : List Reply) (r : Reply) :
    zeros (log ++ [r]) = zeros log + if r.ret = 0 then 1 else 0 := by
  simp [zeros, List.countP_append, List.countP_singleton]

/-- What a read comes to. -/
inductive ReadCase (u : Setup) (s : State) (a : Act) (o : ℕ) : State → Reply → Prop
  | ended (h : (counterText s.counter).length ≤ o) :
      ReadCase u s a o ⟨cInt (s.counter + u.version.step), s.offset⟩ ⟨0, [], 0⟩
  | returned (h : o < (counterText s.counter).length)
      (hcopied : (pieceAt (counterText s.counter) o a.maxLg).length ≤ a.copied)
      (hpos : pieceAt (counterText s.counter) o a.maxLg ≠ []) :
      ReadCase u s a o
        ⟨s.counter, s.offset + (pieceAt (counterText s.counter) o a.maxLg).length⟩
        ⟨(pieceAt (counterText s.counter) o a.maxLg).length,
          pieceAt (counterText s.counter) o a.maxLg,
          (pieceAt (counterText s.counter) o a.maxLg).length⟩
  | failed (h : o < (counterText s.counter).length)
      (hcopied : a.copied < (pieceAt (counterText s.counter) o a.maxLg).length) (text : List UInt8) :
      ReadCase u s a o s ⟨-eFault, text, 0⟩

section Steps

variable {u : Setup} {c : ℤ} {s s' : State} {a : Act} {log out : List Reply}

theorem step_cases {o : ℕ} (hint : IsInt s.counter) (hoffset : s.offset = o) (ho : o ≤ 22)
    (hstep : step u s a = some (s', out)) : ∃ r, out = [r] ∧ ReadCase u s a o s' r := by
  unfold step at hstep
  rw [counterRead_eq, hoffset, readCall_eq hint u.abi u.version.step ho] at hstep
  have hpiece := length_pieceAt (counterText s.counter) o a.maxLg
  have hmax := a.maxLg.pos
  split_ifs at hstep with hend hcopied
  · cases hstep
    refine ⟨_, rfl, ?_⟩
    have hcase := ReadCase.ended (u := u) (a := a) hend
    rw [hoffset] at hcase
    simpa using hcase
  · cases hstep
    refine ⟨_, rfl, ?_⟩
    have hne : pieceAt (counterText s.counter) o a.maxLg ≠ [] := by
      intro hnil
      rw [hnil, List.length_nil] at hpiece
      omega
    have hcase := ReadCase.returned (u := u) (not_le.1 hend) hcopied hne
    rw [hoffset] at hcase
    exact hcase
  · cases hstep
    refine ⟨_, rfl, ?_⟩
    have hcase := ReadCase.failed (u := u) (not_le.1 hend) (not_le.1 hcopied)
      ((pieceAt (counterText s.counter) o a.maxLg).take a.copied)
    obtain ⟨counter, offset⟩ := s
    cases hoffset
    simpa using hcase

theorem cInt_cInt_add (x y : ℤ) : cInt (cInt x + y) = cInt (x + y) := by
  rw [cInt_eq, cInt_eq, cInt_eq]
  split_ifs <;> omega

/-- Before the end of the first line the counter has its first value. -/
theorem Kept.counter_eq (hk : Kept u c s log) (hc : IsInt c)
    (hlt : (collected log).length < (counterText c).length) : s.counter = c := by
  have hzero : zeros log = 0 := hk.ended.resolve_right (not_le.2 hlt)
  rw [hk.counter, hzero, Nat.cast_zero, zero_mul, add_zero, hc.cInt_eq]

theorem kept_step (hc : IsInt c) (hk : Kept u c s log) (hstep : step u s a = some (s', out)) :
    Kept u c s' (log ++ out) := by
  obtain ⟨r, rfl, hcase⟩ := step_cases hk.isInt hk.offset hk.small hstep
  have hcount := zeros_snoc log r
  have hbytes := collected_snoc log r
  obtain ⟨hint, hoffset, hsmall, hcounter, hended⟩ := hk
  cases hcase with
  | ended hend =>
    have hsame : collected (log ++ [⟨0, [], 0⟩]) = collected log := by
      rw [hbytes, List.take_nil, List.append_nil]
    rw [if_pos rfl] at hcount
    refine ⟨isInt_cInt _, by rw [hsame]; exact hoffset, by rw [hsame]; exact hsmall, ?_, ?_⟩
    · have hsum : c + zeros log * u.version.step + u.version.step =
          c + (zeros log + 1 : ℕ) * u.version.step := by
        push_cast
        ring
      rw [hcount, hcounter, cInt_cInt_add, hsum]
    · rw [hsame]
      by_cases hlt : (collected log).length < (counterText c).length
      · have heq : s.counter = c :=
          Kept.counter_eq ⟨hint, hoffset, hsmall, hcounter, hended⟩ hc hlt
        rw [heq] at hend
        exact absurd hend (not_le.2 hlt)
      · exact .inr (not_lt.1 hlt)
  | returned hlt hcopied hne =>
    have hpiece := length_pieceAt (counterText s.counter) (collected log).length a.maxLg
    have hlength := counterText_length_le hint
    have hpos := List.length_pos_of_ne_nil hne
    rw [if_neg (by simpa using hne), add_zero] at hcount
    rw [Int.toNat_natCast, List.take_length] at hbytes
    refine ⟨hint, ?_, ?_, by rw [hcount]; exact hcounter, ?_⟩
    · rw [hbytes, List.length_append, Int.natCast_add, hoffset]
    · rw [hbytes, List.length_append]
      omega
    · rw [hcount, hbytes, List.length_append]
      omega
  | failed hlt hcopied text =>
    have hret : ¬ -eFault = 0 := by decide
    have hsame : collected (log ++ [⟨-eFault, text, 0⟩]) = collected log := by
      rw [hbytes, show (-eFault).toNat = 0 from rfl, List.take_zero, List.append_nil]
    rw [if_neg hret, add_zero] at hcount
    exact ⟨hint, by rw [hsame]; exact hoffset, by rw [hsame]; exact hsmall,
      by rw [hcount]; exact hcounter, by rw [hcount, hsame]; exact hended⟩

/-- What is read ceases to belong to the line of `c` at a read that finds a longer line, and at no
other. -/
theorem prefix_step (hc : IsInt c) (hk : Kept u c s log) (hstep : step u s a = some (s', out)) :
    collected (log ++ out) <+: counterText c ↔
      collected log <+: counterText c ∧ NotLonger c s a := by
  obtain ⟨r, rfl, hcase⟩ := step_cases hk.isInt hk.offset hk.small hstep
  have ho : s.offset.toNat = (collected log).length := by
    rw [hk.offset, Int.toNat_natCast]
  rw [collected_snoc]
  cases hcase with
  | ended hend =>
    have hfits : NotLonger c s a := .inr (.inl (by rw [hk.offset]; exact_mod_cast hend))
    rw [List.take_nil, List.append_nil]
    exact (and_iff_left hfits).symm
  | returned hlt hcopied hne =>
    rw [Int.toNat_natCast, List.take_length, append_prefix_iff]
    refine and_congr_right fun _ => ?_
    by_cases hfirst : (collected log).length < (counterText c).length
    · refine iff_of_true ?_ (.inl (by rw [hk.offset]; exact_mod_cast hfirst))
      rw [hk.counter_eq hc hfirst]
      exact pieceAt_prefix _ _ _
    · rw [List.drop_eq_nil_of_le (not_lt.1 hfirst), List.prefix_nil]
      refine iff_of_false hne ?_
      rintro (hbefore | hend | hfault)
      · rw [hk.offset] at hbefore
        exact hfirst (by exact_mod_cast hbefore)
      · rw [hk.offset] at hend
        exact absurd hlt (not_lt.2 (by exact_mod_cast hend))
      · rw [ho] at hfault
        exact absurd hfault (not_lt.2 hcopied)
  | failed hlt hcopied text =>
    have hfits : NotLonger c s a := .inr (.inr (by rw [ho]; exact hcopied))
    rw [show (-eFault).toNat = 0 from rfl, List.take_zero, List.append_nil]
    exact (and_iff_left hfits).symm

end Steps

/-- **One file shows one value**: for every version, step and initial value of the counter, and every
sequence of reads of positive lengths through one file from offset 0, everything that is returned is
the beginning of the line of the initial value exactly when each read at the end of this line finds a
line that is not longer, or of which nothing can be copied; and the counter has advanced by the step
once for each 0 returned. -/
theorem one_value_iff_notLonger {u : Setup} {c : ℤ} (hc : IsInt c) {acts : List Act} {s : State}
    {log : List Reply} (hrun : (system u).exec ⟨c, 0⟩ acts = some (s, log)) :
    (collected log <+: counterText c ↔ (system u).Along (NotLonger c) ⟨c, 0⟩ acts) ∧
      s.counter = cInt (c + zeros log * u.version.step) := by
  have hstart : Kept u c ⟨c, 0⟩ [] :=
    ⟨hc, rfl, Nat.zero_le _, by simp [zeros, hc.cInt_eq], .inl rfl⟩
  constructor
  · have hiff := System.iff_along_of_step (S := system u) (I := Kept u c)
      (Q := fun _ log => collected log <+: counterText c)
      (fun _ _ _ _ _ hk hstep => kept_step hc hk hstep)
      (fun _ _ _ _ _ hk hstep => prefix_step hc hk hstep) hstart hrun
    have hnothing : collected [] <+: counterText c := List.nil_prefix
    rw [List.nil_append, and_iff_right hnothing] at hiff
    exact hiff
  · exact (System.exec_induction (S := system u) (I := Kept u c)
      (fun _ _ _ _ _ hk hstep => kept_step hc hk hstep) hstart hrun).counter

/-- A read of 100 bytes. -/
def readAll : Act := ⟨100, 100, fun _ => 0⟩

/-- From 7, the counter is read past its end twice: its line has 12 bytes still. -/
theorem one_value_iff_notLonger_seven :
    ∃ s log, (system ⟨.tpIV03 1, .lp64⟩).exec ⟨7, 0⟩ [readAll, readAll, readAll] = some (s, log) ∧
      s.counter = 9 ∧ collected log <+: counterText 7 := by
  obtain ⟨⟨s, log⟩, hrun, hval⟩ := Option.map_eq_some_iff.1
    (show ((system ⟨.tpIV03 1, .lp64⟩).exec ⟨7, 0⟩ [readAll, readAll, readAll]).map
        (fun r => r.1.counter) = some 9 by decide +kernel)
  refine ⟨s, log, hrun, hval, (one_value_iff_notLonger (by norm_num [IsInt]) hrun).1.2 ?_⟩
  decide +kernel

/-- From 9, the third read finds the newline of the line of 10. -/
theorem longer_line_shows :
    ¬ ∀ (acts : List Act) (s : State) (log : List Reply),
      (system ⟨.tpIV01, .lp64⟩).exec ⟨9, 0⟩ acts = some (s, log) →
        collected log <+: counterText 9 := by
  intro hall
  obtain ⟨⟨s, log⟩, hrun, hval⟩ := Option.map_eq_some_iff.1
    (show ((system ⟨.tpIV01, .lp64⟩).exec ⟨9, 0⟩ [readAll, readAll, readAll]).map
        (fun r => collected r.2) = some (counterText 9 ++ [10]) by decide +kernel)
  have hle := (hall _ s log hrun).length_le
  rw [hval, List.length_append, List.length_singleton] at hle
  omega

end IldDrivers.Counters.Reading
