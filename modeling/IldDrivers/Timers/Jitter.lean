import IldDrivers.Lib.Extrema
import Mathlib.Tactic

/-!
# The jitter of a timer (`example-III-04`)

A high-resolution timer takes the time at each of its calls, and keeps the least and the greatest of
the differences between one call and the next. Its three static variables begin at -1, and a
negative value in them means that there is none yet. The clock is the wall clock, which can be set
back; then a difference is negative too.

* `exampleHtimerFunction`: the callback, for the time that `ktime_get_real_ns` returns;
* `differences`: those between the times of successive calls;
* `min_right_iff`, `max_right_iff`: after which calls each of the two extrema is right;
* `extrema_right_iff`: after which calls both are.

The times are positive `time64_t`, so that no difference overflows.
-/

namespace IldDrivers.Jitter

/-! ### The program -/

structure State where
  previous : ℤ
  elapsedMin : ℤ
  elapsedMax : ℤ
  deriving DecidableEq

def init : State := ⟨-1, -1, -1⟩

/-- `example_htimer_function`. -/
def exampleHtimerFunction (s : State) (now : ℤ) : State :=
  if 0 < s.previous then
    let elapsed := now - s.previous
    { previous := now
      elapsedMin := if s.elapsedMin < 0 ∨ elapsed < s.elapsedMin then elapsed else s.elapsedMin
      elapsedMax := if s.elapsedMax < 0 ∨ elapsed > s.elapsedMax then elapsed else s.elapsedMax }
  else { s with previous := now }

/-- The variables after calls at these times. -/
def run (times : List ℤ) : State := times.foldl exampleHtimerFunction init

/-! ### What is expected -/

/-- The differences between consecutive times. -/
def differences : List ℤ → List ℤ
  | t :: t' :: times => (t' - t) :: differences (t' :: times)
  | _ => []

/-- The variables hold the least and the greatest of the differences. -/
structure Right (ds : List ℤ) (s : State) : Prop where
  min : IsLeast {d | d ∈ ds} s.elapsedMin
  max : IsGreatest {d | d ∈ ds} s.elapsedMax

/-- No difference is negative; or the last one is the least of all, and there is one that is not
negative or they are all the same. -/
def Recovers (ds : List ℤ) : Prop :=
  (∀ d ∈ ds, 0 ≤ d) ∨
    ∃ before last, ds = before ++ [last] ∧ IsLeast {d | d ∈ ds} last ∧
      ((∃ d ∈ ds, 0 ≤ d) ∨ ∀ d ∈ ds, d = last)

/-! ### The variables -/

/-- A call after another. -/
theorem exampleHtimerFunction_next {s : State} (h : 0 < s.previous) (now : ℤ) :
    exampleHtimerFunction s now =
      ⟨now, keepLeast 0 s.elapsedMin (now - s.previous),
        keepGreatest 0 s.elapsedMax (now - s.previous)⟩ := by
  unfold exampleHtimerFunction
  rw [if_pos h]
  rfl

/-- From the second call on, the variables keep the extrema of the differences. -/
theorem foldl_exampleHtimerFunction {t : ℤ} {times : List ℤ} (hpos : ∀ t' ∈ t :: times, 0 < t')
    (elapsedMin elapsedMax : ℤ) :
    (times.foldl exampleHtimerFunction ⟨t, elapsedMin, elapsedMax⟩).elapsedMin =
        (differences (t :: times)).foldl (keepLeast 0) elapsedMin ∧
      (times.foldl exampleHtimerFunction ⟨t, elapsedMin, elapsedMax⟩).elapsedMax =
        (differences (t :: times)).foldl (keepGreatest 0) elapsedMax := by
  induction times generalizing t elapsedMin elapsedMax with
  | nil => exact ⟨rfl, rfl⟩
  | cons t' times ih =>
    have ht : 0 < t := hpos t List.mem_cons_self
    have hrest : ∀ t'' ∈ t' :: times, 0 < t'' := fun t'' hmem =>
      hpos t'' (List.mem_cons_of_mem t hmem)
    rw [List.foldl_cons, exampleHtimerFunction_next ht, differences, List.foldl_cons, List.foldl_cons]
    exact ih hrest _ _

theorem run_extrema {times : List ℤ} (hpos : ∀ t ∈ times, 0 < t) :
    (run times).elapsedMin = (differences times).foldl (keepLeast 0) (-1) ∧
      (run times).elapsedMax = (differences times).foldl (keepGreatest 0) (-1) := by
  cases times with
  | nil => exact ⟨rfl, rfl⟩
  | cons t times => exact foldl_exampleHtimerFunction hpos (-1) (-1)

theorem differences_length (times : List ℤ) : (differences times).length = times.length - 1 := by
  induction times with
  | nil => rfl
  | cons t times ih =>
    cases times with
    | nil => rfl
    | cons t' times =>
      rw [differences, List.length_cons, ih]
      rfl

/-- After two calls there is a last difference. -/
theorem exists_last {times : List ℤ} (htwo : 2 ≤ times.length) :
    ∃ before last, differences times = before ++ [last] := by
  have hlength := differences_length times
  rcases List.eq_nil_or_concat (differences times) with hnil | ⟨before, last, hlast⟩
  · rw [hnil, List.length_nil] at hlength
    omega
  · exact ⟨before, last, by rw [hlast, List.concat_eq_append]⟩

/-! ### The extrema -/

section Extrema

variable {times before : List ℤ} {last : ℤ} (hpos : ∀ t ∈ times, 0 < t)
  (hlast : differences times = before ++ [last])
include hpos hlast

/-- The least is right when no difference is negative, or the last one is the least. -/
theorem min_right_iff : IsLeast {d | d ∈ differences times} (run times).elapsedMin ↔
    (∀ d ∈ differences times, 0 ≤ d) ∨ IsLeast {d | d ∈ differences times} last := by
  rw [(run_extrema hpos).1, hlast]
  exact isLeast_foldl_iff (by decide) before last

/-- The greatest is right when some difference is not negative, or the last one is the greatest. -/
theorem max_right_iff : IsGreatest {d | d ∈ differences times} (run times).elapsedMax ↔
    (∃ d ∈ differences times, 0 ≤ d) ∨ IsGreatest {d | d ∈ differences times} last := by
  rw [(run_extrema hpos).2, hlast]
  exact isGreatest_foldl_iff (by decide) before last

end Extrema

/-- **When the extrema are right**: after at least two calls, at positive times, the variables hold the
least and the greatest of all differences exactly when no difference is negative, or the last one is
the least of all, with some difference that is not negative or all of them the same. -/
theorem extrema_right_iff {times : List ℤ} (hpos : ∀ t ∈ times, 0 < t) (htwo : 2 ≤ times.length) :
    Right (differences times) (run times) ↔ Recovers (differences times) := by
  obtain ⟨before, last, hlast⟩ := exists_last htwo
  have hmem : last ∈ differences times := by
    rw [hlast]
    exact List.mem_append_right _ (List.mem_singleton_self last)
  have hmin := min_right_iff hpos hlast
  have hmax := max_right_iff hpos hlast
  constructor
  · intro hright
    rcases hmin.1 hright.min with hall | hleast
    · exact .inl hall
    · refine .inr ⟨before, last, hlast, hleast, ?_⟩
      rcases hmax.1 hright.max with hsome | hgreatest
      · exact .inl hsome
      · exact .inr fun d hd => le_antisymm (hgreatest.2 hd) (hleast.2 hd)
  · rintro (hall | ⟨before', last', hlast', hleast, hrest⟩)
    · exact ⟨hmin.2 (.inl hall), hmax.2 (.inl ⟨last, hmem, hall last hmem⟩)⟩
    · have hsame : last' = last := by
        have heq := hlast.symm.trans hlast'
        exact (List.singleton_inj.1 (List.append_inj' heq rfl).2).symm
      subst hsame
      refine ⟨hmin.2 (.inr hleast), hmax.2 (hrest.imp_right fun hall => ⟨hmem, fun d hd => ?_⟩)⟩
      exact (hall d hd).le

/-- The clock is set back once, and by nothing more later. -/
theorem extrema_right_iff_setBack :
    run [1000, 2000, 1500] = ⟨1500, -500, 1000⟩ ∧
      Right (differences [1000, 2000, 1500]) (run [1000, 2000, 1500]) := by
  refine ⟨by decide, (extrema_right_iff (by decide) (by decide)).2 ?_⟩
  refine .inr ⟨[1000], -500, rfl, ⟨by decide, ?_⟩, .inl ⟨1000, by decide, by decide⟩⟩
  intro d hd
  have hmem : d ∈ [(1000 : ℤ), -500] := hd
  simp only [List.mem_cons, List.not_mem_nil, or_false] at hmem
  omega

/-- The clock is set back between the first two calls: the least is forgotten at the third one. -/
theorem least_forgotten :
    ¬ ∀ times : List ℤ, (∀ t ∈ times, 0 < t) → 2 ≤ times.length →
      Right (differences times) (run times) := by
  intro hall
  have hright := hall [1000, 900, 2000] (by decide) (by decide)
  have hle : (run [1000, 900, 2000]).elapsedMin ≤ -100 :=
    hright.min.2 (show (-100 : ℤ) ∈ differences [1000, 900, 2000] by decide)
  exact absurd hle (by decide)

end IldDrivers.Jitter
