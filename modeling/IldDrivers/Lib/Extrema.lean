import Mathlib.Order.Bounds.Basic
import Mathlib.Order.Lattice
import Mathlib.Order.MinMax
import Mathlib.Data.List.Basic
import Mathlib.Data.List.Induction
import Mathlib.Tactic.Cases
import Mathlib.Tactic.SplitIfs
import Mathlib.Tactic.Push

/-!
# Extrema kept in a variable that may be unset

A program keeps the least, or the greatest, of the values it has seen in a variable, for which a value
below some `z` means that there has been none. If the values seen can be below `z` themselves, the
variable takes such a value and forgets it at the next one.

* `keepLeast z`, `keepGreatest z`: how the variable changes;
* `isLeast_foldl_iff`, `isGreatest_foldl_iff`: after which values the variable holds the least, and
  the greatest, of all.
-/

theorem setOf_mem_concat {α : Type*} (ds : List α) (d : α) :
    {e | e ∈ ds ++ [d]} = insert d {e | e ∈ ds} := by
  ext e
  simp [or_comm]

section Extrema

variable {α : Type*} [LinearOrder α] {z m : α}

/-- The variable takes a value that is less, or any value if it is unset. -/
def keepLeast (z m d : α) : α := if m < z ∨ d < m then d else m

/-- The variable takes a value that is greater, or any value if it is unset. -/
def keepGreatest (z m d : α) : α := if m < z ∨ m < d then d else m

/-! ### One value -/

theorem keepLeast_of_lt (d : α) (h : m < z) : keepLeast z m d = d := if_pos (.inl h)

theorem keepGreatest_of_lt (d : α) (h : m < z) : keepGreatest z m d = d := if_pos (.inl h)

/-- A variable that is set keeps the least. -/
theorem keepLeast_of_le (d : α) (h : z ≤ m) : keepLeast z m d = min d m := by
  unfold keepLeast
  split_ifs with hless
  · exact (min_eq_left (hless.resolve_left (not_lt.2 h)).le).symm
  · exact (min_eq_right (not_lt.1 fun hlt => hless (.inr hlt))).symm

/-- A variable that is set keeps the greatest. -/
theorem keepGreatest_of_le (d : α) (h : z ≤ m) : keepGreatest z m d = max d m := by
  unfold keepGreatest
  split_ifs with hgreater
  · exact (max_eq_left (hgreater.resolve_left (not_lt.2 h)).le).symm
  · exact (max_eq_right (not_lt.1 fun hlt => hgreater (.inr hlt))).symm

/-- The variable is unset exactly when the last value was below `z`, and then holds this one. -/
theorem keepLeast_lt_iff (d : α) : keepLeast z m d < z ↔ d < z ∧ keepLeast z m d = d := by
  rcases lt_or_ge m z with hm | hm
  · rw [keepLeast_of_lt d hm]
    exact (and_iff_left rfl).symm
  · rw [keepLeast_of_le d hm]
    constructor
    · intro hlt
      have hd : d < z := (min_lt_iff.1 hlt).resolve_right (not_lt.2 hm)
      exact ⟨hd, min_eq_left (hd.le.trans hm)⟩
    · rintro ⟨hd, heq⟩
      rw [heq]
      exact hd

theorem keepLeast_of_unset {d : α} (h : d < z) : keepLeast z m d = d := by
  rcases lt_or_ge m z with hm | hm
  · exact keepLeast_of_lt d hm
  · rw [keepLeast_of_le d hm]
    exact min_eq_left (h.le.trans hm)

/-! ### Several values -/

/-- Of values that are not below `z` the variable holds the least. -/
theorem isLeast_foldl (hm : m < z) {ds : List α} (hne : ds ≠ []) (hds : ∀ e ∈ ds, z ≤ e) :
    IsLeast {e | e ∈ ds} (ds.foldl (keepLeast z) m) := by
  induction ds using List.reverseRecOn with
  | nil => exact absurd rfl hne
  | append_singleton ds d ih =>
    rw [List.foldl_concat, setOf_mem_concat]
    by_cases hnil : ds = []
    · subst hnil
      rw [List.foldl_nil, keepLeast_of_lt d hm]
      simp
    · have hfirst := ih hnil fun e he => hds e (List.mem_append_left _ he)
      have hset : z ≤ ds.foldl (keepLeast z) m := hds _ (List.mem_append_left _ hfirst.1)
      rw [keepLeast_of_le d hset]
      exact hfirst.insert d

/-- The variable for the greatest is unset as long as all values are below `z`. -/
theorem foldl_keepGreatest_lt (hm : m < z) {ds : List α} (hds : ∀ e ∈ ds, e < z) :
    ds.foldl (keepGreatest z) m < z := by
  induction ds generalizing m with
  | nil => exact hm
  | cons d ds ih =>
    rw [List.foldl_cons, keepGreatest_of_lt d hm]
    exact ih (hds d List.mem_cons_self) fun e he => hds e (List.mem_cons_of_mem d he)

/-- Once there has been a value that is not below `z` the variable holds the greatest. -/
theorem isGreatest_foldl (hm : m < z) {ds : List α} (hds : ∃ e ∈ ds, z ≤ e) :
    IsGreatest {e | e ∈ ds} (ds.foldl (keepGreatest z) m) := by
  induction ds using List.reverseRecOn with
  | nil => simp at hds
  | append_singleton ds d ih =>
    rw [List.foldl_concat, setOf_mem_concat]
    by_cases hfirst : ∃ e ∈ ds, z ≤ e
    · have hprevious := ih hfirst
      obtain ⟨e, he, hle⟩ := hfirst
      rw [keepGreatest_of_le d (hle.trans (hprevious.2 he))]
      exact hprevious.insert d
    · have hbelow : ∀ e ∈ ds, e < z := fun e he => not_le.1 fun hle => hfirst ⟨e, he, hle⟩
      obtain ⟨e, he, hle⟩ := hds
      have hd : z ≤ d := by
        rcases List.mem_append.1 he with hold | hlast
        · exact absurd ⟨e, hold, hle⟩ hfirst
        · rw [← List.mem_singleton.1 hlast]
          exact hle
      rw [keepGreatest_of_lt d (foldl_keepGreatest_lt hm hbelow)]
      refine ⟨Set.mem_insert d _, fun e' he' => ?_⟩
      rcases he' with rfl | hold
      · exact le_rfl
      · exact ((hbelow e' hold).trans_le hd).le

/-- **When the least is right**: no value is below `z`, or the last one is the least. -/
theorem isLeast_foldl_iff (hm : m < z) (ds : List α) (d : α) :
    IsLeast {e | e ∈ ds ++ [d]} ((ds ++ [d]).foldl (keepLeast z) m) ↔
      (∀ e ∈ ds ++ [d], z ≤ e) ∨ IsLeast {e | e ∈ ds ++ [d]} d := by
  constructor
  · intro hleast
    by_cases hall : ∀ e ∈ ds ++ [d], z ≤ e
    · exact .inl hall
    · push Not at hall
      obtain ⟨e, he, hlt⟩ := hall
      have hunset := (hleast.2 he).trans_lt hlt
      rw [List.foldl_concat] at hunset hleast
      rw [((keepLeast_lt_iff d).1 hunset).2] at hleast
      exact .inr hleast
  · rintro (hall | hlast)
    · exact isLeast_foldl hm (by simp) hall
    · rcases lt_or_ge d z with hd | hd
      · rw [List.foldl_concat, keepLeast_of_unset hd]
        exact hlast
      · exact isLeast_foldl hm (by simp) fun e he => hd.trans (hlast.2 he)

/-- **When the greatest is right**: some value is not below `z`, or the last one is the greatest. -/
theorem isGreatest_foldl_iff (hm : m < z) (ds : List α) (d : α) :
    IsGreatest {e | e ∈ ds ++ [d]} ((ds ++ [d]).foldl (keepGreatest z) m) ↔
      (∃ e ∈ ds ++ [d], z ≤ e) ∨ IsGreatest {e | e ∈ ds ++ [d]} d := by
  by_cases hsome : ∃ e ∈ ds ++ [d], z ≤ e
  · exact iff_of_true (isGreatest_foldl hm hsome) (.inl hsome)
  · have hbelow : ∀ e ∈ ds, e < z := fun e he =>
      not_le.1 fun hle => hsome ⟨e, List.mem_append_left _ he, hle⟩
    rw [List.foldl_concat, keepGreatest_of_lt d (foldl_keepGreatest_lt hm hbelow), or_iff_right hsome]

end Extrema
