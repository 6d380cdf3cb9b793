import IldDrivers.Lib.Memory
import Mathlib.Tactic

/-!
# Integers in memory

Integers as bytes, the least significant first: `leBytes` and `leVal`, which are inverse to each other
up to the width.
-/

/-- The value of these bytes. -/
def leVal : List UInt8 → ℕ
  | [] => 0
  | b :: bs => b.toNat + 256 * leVal bs

/-- The `n` low bytes of an integer, in two's complement. -/
def leBytes : ℕ → ℤ → List UInt8
  | 0, _ => []
  | n + 1, x => UInt8.ofNat (x % 256).toNat :: leBytes n (x / 256)

@[simp] theorem leBytes_length (n : ℕ) (x : ℤ) : (leBytes n x).length = n := by
  induction n generalizing x with
  | zero => rfl
  | succ n ih => rw [leBytes, List.length_cons, ih]

/-- The lowest byte and the others. -/
theorem emod_pow_succ (x : ℤ) (n : ℕ) :
    x % 256 ^ (n + 1) = x % 256 + 256 * (x / 256 % 256 ^ n) := by
  have hdivmod := Int.emod_add_mul_ediv x 256
  have hrest := Int.emod_add_mul_ediv (x / 256) (256 ^ n)
  have hlt := Int.emod_lt_of_pos (x / 256) (show (0 : ℤ) < 256 ^ n by positivity)
  have hnonneg := Int.emod_nonneg (x / 256) (show (256 : ℤ) ^ n ≠ 0 by positivity)
  have hbyte := Int.emod_lt_of_pos x (show (0 : ℤ) < 256 by decide)
  have hwhole : x = x % 256 + 256 * (x / 256 % 256 ^ n) +
      256 ^ (n + 1) * (x / 256 / 256 ^ n) := by
    rw [pow_succ']
    linarith
  calc x % 256 ^ (n + 1)
      = (x % 256 + 256 * (x / 256 % 256 ^ n) + 256 ^ (n + 1) * (x / 256 / 256 ^ n)) %
          256 ^ (n + 1) := congrArg (· % 256 ^ (n + 1)) hwhole
    _ = (x % 256 + 256 * (x / 256 % 256 ^ n)) % 256 ^ (n + 1) := Int.add_mul_emod_self_left ..
    _ = x % 256 + 256 * (x / 256 % 256 ^ n) := by
      refine Int.emod_eq_of_lt (by omega) ?_
      rw [pow_succ']
      omega

/-- What is stored is read back, modulo the width. -/
theorem leVal_leBytes (n : ℕ) (x : ℤ) : (leVal (leBytes n x) : ℤ) = x % 256 ^ n := by
  induction n generalizing x with
  | zero => simp [leBytes, leVal]
  | succ n ih =>
    have hbyte : ((UInt8.ofNat (x % 256).toNat).toNat : ℤ) = x % 256 := by
      rw [UInt8.toNat_ofNat']
      omega
    rw [leBytes, leVal, Int.natCast_add, Int.natCast_mul, ih, hbyte, emod_pow_succ]
    rfl

/-- Bytes are the bytes of their value. -/
theorem leBytes_leVal (l : List UInt8) : leBytes l.length (leVal l) = l := by
  induction l with
  | nil => rfl
  | cons b bs ih =>
    have hlt := b.toNat_lt
    have hmod : ((leVal (b :: bs) : ℤ) % 256).toNat = b.toNat := by
      rw [leVal]
      omega
    have hdiv : (leVal (b :: bs) : ℤ) / 256 = leVal bs := by
      rw [leVal]
      omega
    rw [List.length_cons, leBytes, hmod, hdiv, ih, UInt8.ofNat_toNat]

theorem leVal_injective {l l' : List UInt8} (hlength : l.length = l'.length)
    (h : leVal l = leVal l') : l = l' := by
  rw [← leBytes_leVal l, ← leBytes_leVal l', h, hlength]

theorem leVal_lt (l : List UInt8) : leVal l < 256 ^ l.length := by
  have hval := leVal_leBytes l.length (leVal l)
  rw [leBytes_leVal] at hval
  have hlt := Int.emod_lt_of_pos (leVal l : ℤ) (show (0 : ℤ) < 256 ^ l.length by positivity)
  rw [← hval] at hlt
  exact_mod_cast hlt
