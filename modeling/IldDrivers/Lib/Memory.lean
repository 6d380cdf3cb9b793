import Mathlib.Data.List.Basic
import Mathlib.Data.List.TakeWhile
import Mathlib.Tactic.Cases
import Mathlib.Tactic.SplitIfs
import Mathlib.Tactic.Push

/-!
# Memories and C strings

A memory gives the contents of every cell; addresses are integers, so that an address computed
below the start of an object or past its end is still an address and an access there can be seen
and ruled out.

* `Memory.load`, `Memory.store` and `Memory.move` are a read, a write and `memmove`;
* `cstring` is the C string at the start of a list of bytes, what `strlen` measures.
-/

/-- The contents of the cells of a memory. -/
def Memory (α : Type*) := ℤ → α

namespace Memory

variable {α : Type*}

/-- The `n` cells from address `a`. -/
def load (m : Memory α) (a : ℤ) (n : ℕ) : List α := (List.range n).map fun i : ℕ => m (a + i)

/-- Write `l` from address `a`. -/
def store (m : Memory α) (a : ℤ) (l : List α) : Memory α :=
  fun x => if a ≤ x then (l[(x - a).toNat]?).getD (m x) else m x

/-- `memmove`: the `n` cells from `src` are copied to `dst`. -/
def move (m : Memory α) (dst src : ℤ) (n : ℕ) : Memory α :=
  fun x => if dst ≤ x ∧ x < dst + n then m (x - dst + src) else m x

@[simp] theorem load_length (m : Memory α) (a : ℤ) (n : ℕ) : (m.load a n).length = n := by
  simp [load]

theorem load_getElem? (m : Memory α) (a : ℤ) {n i : ℕ} (hi : i < n) :
    (m.load a n)[i]? = some (m (a + i)) := by
  simp [load, hi]

/-- Two reads agree when the cells read agree one by one. -/
theorem load_congr {m m' : Memory α} {a a' : ℤ} {n : ℕ}
    (h : ∀ i : ℕ, i < n → m (a + i) = m' (a' + i)) : m.load a n = m'.load a' n := by
  apply List.map_congr_left
  intro i hi
  exact h i (List.mem_range.1 hi)

theorem load_add (m : Memory α) (a : ℤ) (n k : ℕ) :
    m.load a (n + k) = m.load a n ++ m.load (a + n) k := by
  simp only [load, List.range_add, List.map_append, List.map_map, Function.comp_def]
  congr 1
  apply List.map_congr_left
  intro i _
  rw [Int.natCast_add, Int.add_assoc]

theorem load_take (m : Memory α) (a : ℤ) {n k : ℕ} (hk : k ≤ n) :
    (m.load a n).take k = m.load a k := by
  obtain ⟨d, rfl⟩ := Nat.exists_eq_add_of_le hk
  rw [load_add, List.take_left' (load_length m a k)]

theorem load_drop (m : Memory α) (a : ℤ) {n k : ℕ} (hk : k ≤ n) :
    (m.load a n).drop k = m.load (a + k) (n - k) := by
  obtain ⟨d, rfl⟩ := Nat.exists_eq_add_of_le hk
  rw [load_add, List.drop_left' (load_length m a k), Nat.add_sub_cancel_left]

theorem load_isPrefix (m : Memory α) (a : ℤ) {n k : ℕ} (hk : k ≤ n) :
    m.load a k <+: m.load a n := by
  rw [← load_take m a hk]
  exact List.take_prefix _ _

/-- A part of what a block is known to begin with. -/
theorem load_part {m : Memory α} {a : ℤ} {l : List α} {k o n : ℕ} (h : l <+: m.load a k)
    (hle : o + n ≤ l.length) : m.load (a + o) n = (l.drop o).take n := by
  have hk : l.length ≤ k := by
    rw [← load_length m a k]
    exact h.length_le
  have hl : l = m.load a l.length := by
    rw [← load_take m a hk]
    exact List.prefix_iff_eq_take.1 h
  rw [hl, load_drop _ _ (by omega), load_take _ _ (by omega)]

theorem store_apply_of_lt {m : Memory α} {a x : ℤ} {l : List α} (h : x < a) :
    m.store a l x = m x := by
  rw [store, if_neg (by omega)]

theorem store_apply_of_ge {m : Memory α} {a x : ℤ} {l : List α} (h : a + l.length ≤ x) :
    m.store a l x = m x := by
  rw [store, if_pos (by omega), List.getElem?_eq_none (by omega), Option.getD_none]

theorem store_apply_of_notMem {m : Memory α} {a x : ℤ} {l : List α}
    (h : ¬ (a ≤ x ∧ x < a + l.length)) : m.store a l x = m x := by
  by_cases hlt : x < a
  · exact store_apply_of_lt hlt
  · exact store_apply_of_ge (by omega)

theorem store_apply_add {m : Memory α} {a : ℤ} {l : List α} {i : ℕ} {b : α}
    (h : l[i]? = some b) : m.store a l (a + i) = b := by
  rw [store, if_pos (by omega), show (a + i - a).toNat = i by omega, h, Option.getD_some]

theorem store_singleton (m : Memory α) (a x : ℤ) (b : α) :
    m.store a [b] x = if a = x then b else m x := by
  by_cases hx : a = x
  · subst hx
    have hstore := store_apply_add (m := m) (a := a) (l := [b]) (i := 0) rfl
    rw [if_pos rfl]
    simpa using hstore
  · rw [if_neg hx]
    exact store_apply_of_notMem (by simp; omega)

@[simp] theorem store_nil (m : Memory α) (a : ℤ) : m.store a [] = m := by
  funext x
  simp [store]

/-- Two writes that follow each other are one. -/
theorem store_append (m : Memory α) (a : ℤ) (l l' : List α) :
    m.store a (l ++ l') = (m.store a l).store (a + l.length) l' := by
  funext x
  by_cases hlt : x < a + l.length
  · rw [store_apply_of_lt hlt]
    unfold store
    split_ifs with ha
    · rw [List.getElem?_append_left (by omega)]
    · rfl
  · have hge : a + l.length ≤ x := by omega
    have hindex : (x - a).toNat - l.length = (x - (a + l.length)).toNat := by omega
    have hold : m.store a l x = m x := store_apply_of_ge hge
    rw [store, store, if_pos (by omega), if_pos hge, List.getElem?_append_right (by omega),
      hindex, hold]

/-- What was written is read back. -/
theorem load_store (m : Memory α) (a : ℤ) (l : List α) :
    (m.store a l).load a l.length = l := by
  apply List.ext_getElem?
  intro i
  by_cases hi : i < l.length
  · rw [load_getElem? _ _ hi, store_apply_add (List.getElem?_eq_getElem hi),
      List.getElem?_eq_getElem hi]
  · rw [List.getElem?_eq_none (by simpa using hi), List.getElem?_eq_none (by omega)]

/-- A read apart from the cells written is not affected. -/
theorem load_store_of_disjoint {m : Memory α} {a c : ℤ} {l : List α} {n : ℕ}
    (h : c + n ≤ a ∨ a + l.length ≤ c) : (m.store a l).load c n = m.load c n := by
  apply load_congr
  intro i hi
  rcases h with h | h
  · exact store_apply_of_lt (by omega)
  · exact store_apply_of_ge (by omega)

/-- A read from the address of a write begins with what was written. -/
theorem isPrefix_load_store (m : Memory α) (a : ℤ) {l : List α} {n : ℕ} (h : l.length ≤ n) :
    l <+: (m.store a l).load a n := by
  have hread := load_isPrefix (m.store a l) a h
  rwa [load_store] at hread

theorem move_apply_of_mem {m : Memory α} {dst src x : ℤ} {n : ℕ} (h : dst ≤ x ∧ x < dst + n) :
    m.move dst src n x = m (x - dst + src) := if_pos h

theorem move_apply_of_notMem {m : Memory α} {dst src x : ℤ} {n : ℕ}
    (h : ¬ (dst ≤ x ∧ x < dst + n)) : m.move dst src n x = m x := if_neg h

/-- A read inside the destination of a `memmove` finds the cells of the source. -/
theorem load_move {m : Memory α} {dst src c : ℤ} {n k : ℕ} (h₁ : dst ≤ c)
    (h₂ : c + k ≤ dst + n) : (m.move dst src n).load c k = m.load (c - dst + src) k := by
  apply load_congr
  intro i hi
  rw [move_apply_of_mem (by omega)]
  congr 1
  omega

end Memory

/-! ### C strings -/

/-- The C string at the start of `l`: the bytes before the first NUL. -/
def cstring (l : List UInt8) : List UInt8 := l.takeWhile (· != 0)

/-- `l` has no NUL byte. -/
def NulFree (l : List UInt8) : Prop := ∀ b ∈ l, b ≠ 0

instance (l : List UInt8) : Decidable (NulFree l) := List.decidableBAll (· ≠ 0) l

theorem NulFree.append {l m : List UInt8} (hl : NulFree l) (hm : NulFree m) : NulFree (l ++ m) := by
  intro b hb
  rcases List.mem_append.1 hb with hb | hb
  · exact hl b hb
  · exact hm b hb

theorem cstring_cons (b : UInt8) (l : List UInt8) :
    cstring (b :: l) = if b = 0 then [] else b :: cstring l := by
  by_cases hb : b = 0 <;> simp [cstring, hb]

theorem cstring_append {d : List UInt8} (h : NulFree d) (r : List UInt8) :
    cstring (d ++ r) = d ++ cstring r :=
  List.takeWhile_append_of_pos fun b hb => by simpa using h b hb

/-- Bytes followed by one more form the whole C string exactly when that byte is the NUL. -/
theorem cstring_append_cons_eq_iff {d : List UInt8} (h : NulFree d) (b : UInt8)
    (r : List UInt8) : cstring (d ++ b :: r) = d ↔ b = 0 := by
  rw [cstring_append h, cstring_cons]
  split_ifs with hb <;> simp [hb]

theorem cstring_append_nul {d : List UInt8} (h : NulFree d) (r : List UInt8) :
    cstring (d ++ 0 :: r) = d :=
  (cstring_append_cons_eq_iff h 0 r).2 rfl

/-- Bytes that begin with a text and a NUL have the text as their C string. -/
theorem cstring_of_isPrefix {d l : List UInt8} (h : NulFree d) (hbegins : d ++ [0] <+: l) :
    cstring l = d := by
  obtain ⟨r, rfl⟩ := hbegins
  rw [List.append_assoc, List.singleton_append, cstring_append_nul h]

theorem cstring_isPrefix (l : List UInt8) : cstring l <+: l := List.takeWhile_prefix _

theorem nulFree_cstring (l : List UInt8) : NulFree (cstring l) := by
  intro b hb
  simpa using List.mem_takeWhile_imp hb

/-- A list with a NUL at index `k` has a C string of at most `k` bytes. -/
theorem cstring_length_le {l : List UInt8} {k : ℕ} (h : l[k]? = some 0) :
    (cstring l).length ≤ k := by
  by_contra hk
  have hk' : k < (cstring l).length := by omega
  have hget : (cstring l)[k]? = some 0 := by
    rw [List.prefix_iff_getElem?.1 (cstring_isPrefix l) k hk'] at h
    rw [List.getElem?_eq_getElem hk', h]
  exact nulFree_cstring l 0 (List.mem_of_getElem? hget) rfl

/-- What follows a NUL is not part of the C string. -/
theorem cstring_append_of_mem {l : List UInt8} (h : 0 ∈ l) (r : List UInt8) :
    cstring (l ++ r) = cstring l := by
  induction l with
  | nil => simp at h
  | cons b l ih =>
    rw [List.cons_append, cstring_cons, cstring_cons]
    split_ifs with hb
    · rfl
    · have hmem : (0 : UInt8) ∈ l := (List.mem_cons.1 h).resolve_left fun h0 => hb h0.symm
      rw [ih hmem]

/-- A list with a NUL has it after its C string. -/
theorem getElem?_cstring_length {l : List UInt8} (h : 0 ∈ l) : l[(cstring l).length]? = some 0 := by
  induction l with
  | nil => simp at h
  | cons b l ih =>
    rw [cstring_cons]
    split_ifs with hb
    · rw [hb, List.length_nil, List.getElem?_cons_zero]
    · have hmem : (0 : UInt8) ∈ l := (List.mem_cons.1 h).resolve_left fun h0 => hb h0.symm
      rw [List.length_cons, List.getElem?_cons_succ, ih hmem]
