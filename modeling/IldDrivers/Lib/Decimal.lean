import IldDrivers.Lib.Memory
import Mathlib.Tactic

/-!
# Decimal texts

What `%d` and `%lld` print: `decimal`, the bound on its length and the absence of a NUL, and the same
for several numbers with a separator between them.
-/

/-- A number as `%d` and `%lld` print it. -/
def decimal (x : ℤ) : List UInt8 :=
  (if x < 0 then [45] else []) ++ (Nat.toDigits 10 x.natAbs).map Char.toUInt8

theorem decimal_length_le {x : ℤ} {k : ℕ} (hk : 0 < k) (h : x.natAbs < 10 ^ k) :
    (decimal x).length ≤ k + 1 := by
  have hdigits : (Nat.toDigits 10 x.natAbs).length ≤ k :=
    (Nat.length_toDigits_le_iff (by decide) hk).2 h
  unfold decimal
  rw [List.length_append, List.length_map]
  split_ifs <;> simp only [List.length_singleton, List.length_nil] <;> omega

theorem nulFree_decimal (x : ℤ) : NulFree (decimal x) := by
  intro b hb
  unfold decimal at hb
  rcases List.mem_append.1 hb with hsign | hdigit
  · split_ifs at hsign
    · rw [List.mem_singleton.1 hsign]
      decide
    · cases hsign
  · obtain ⟨c, hc, rfl⟩ := List.mem_map.1 hdigit
    have hisdigit := Nat.isDigit_of_mem_toDigits (by decide) (by decide) hc
    intro hzero
    have hval : c.val.toNat % 256 = 0 := congrArg UInt8.toNat hzero
    simp only [Char.isDigit, Bool.and_eq_true, decide_eq_true_eq, ge_iff_le,
      UInt32.le_iff_toNat_le] at hisdigit
    have hrange : 48 ≤ c.val.toNat ∧ c.val.toNat ≤ 57 := hisdigit
    omega

/-- Texts with a separator between them. -/
theorem nulFree_intercalate {sep : List UInt8} {ls : List (List UInt8)} (hsep : NulFree sep)
    (hls : ∀ l ∈ ls, NulFree l) : NulFree (sep.intercalate ls) := by
  induction ls with
  | nil => exact nofun
  | cons l ls ih =>
    have hl := hls l List.mem_cons_self
    have hrest := ih fun m hm => hls m (List.mem_cons_of_mem l hm)
    cases ls with
    | nil =>
      rw [List.intercalate_singleton]
      exact hl
    | cons m ls =>
      rw [List.intercalate_cons_cons]
      exact (hl.append hsep).append hrest

theorem length_intercalate_le {sep : List UInt8} {ls : List (List UInt8)} {k : ℕ}
    (hls : ∀ l ∈ ls, l.length ≤ k) :
    (sep.intercalate ls).length ≤ (k + sep.length) * ls.length := by
  induction ls with
  | nil => exact Nat.zero_le _
  | cons l ls ih =>
    have hl := hls l List.mem_cons_self
    have hrest := ih fun m hm => hls m (List.mem_cons_of_mem l hm)
    rw [List.length_cons, Nat.mul_succ]
    cases ls with
    | nil =>
      rw [List.intercalate_singleton]
      omega
    | cons m ls =>
      rw [List.intercalate_cons_cons, List.length_append, List.length_append]
      omega
