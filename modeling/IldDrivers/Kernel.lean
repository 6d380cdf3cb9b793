import IldDrivers.Lib.Memory
import IldDrivers.Lib.Scan
import Mathlib.Tactic

/-!
# What the drivers use of the kernel

Error numbers, the C integer conversions, the numbers that are parsed from a text, and the copies
between user space and kernel memory.

A user copy of `n` bytes may stop early on an unmapped page; how many bytes it moves first is not
in the driver's hands and is an argument here (`copied`). Both copies return the number of bytes
*not* copied. `copyFromUser` zero-fills the part of its destination that it could not fill.
-/

namespace IldDrivers

/-! ### Error numbers -/

def eNoEnt : ℤ := 2
def eIo : ℤ := 5
def eAgain : ℤ := 11
def eNoMem : ℤ := 12
def eFault : ℤ := 14
def eBusy : ℤ := 16
def eNoDev : ℤ := 19
def eInval : ℤ := 22
def eNoTty : ℤ := 25
def eNoSpc : ℤ := 28
def eRestartSys : ℤ := 512

/-! ### Integer conversions -/

/-- The data models of the machines the drivers are built for: the width of `long`, `size_t` and
`ssize_t` differs, `int` has 32 bits and `loff_t` 64 on both. -/
inductive Abi
  | ilp32
  | lp64
  deriving DecidableEq

def Abi.longBits : Abi → ℕ
  | .ilp32 => 32
  | .lp64 => 64

/-- An integer stored in an `ssize_t`. -/
def Abi.ssize (abi : Abi) (x : ℤ) : ℤ := x.bmod (2 ^ abi.longBits)

/-- An integer stored in an `int`. -/
def cInt (x : ℤ) : ℤ := x.bmod (2 ^ 32)

theorem cInt_eq (x : ℤ) :
    cInt x = if x % 2 ^ 32 < 2 ^ 31 then x % 2 ^ 32 else x % 2 ^ 32 - 2 ^ 32 := by
  unfold cInt
  rw [Int.bmod_eq_emod]
  split_ifs <;> omega

theorem cInt_of_small {x : ℤ} (h₁ : -2 ^ 31 ≤ x) (h₂ : x < 2 ^ 31) : cInt x = x :=
  Int.bmod_eq_of_le (by omega) (by omega)

/-- The values of an `int`. -/
def IsInt (x : ℤ) : Prop := -2 ^ 31 ≤ x ∧ x < 2 ^ 31

theorem isInt_cInt (x : ℤ) : IsInt (cInt x) := by
  rw [cInt_eq]
  unfold IsInt
  split_ifs <;> omega

theorem IsInt.cInt_eq {x : ℤ} (h : IsInt x) : cInt x = x := cInt_of_small h.1 h.2

theorem Abi.ssize_of_small (abi : Abi) {x : ℤ} (h₁ : -2 ^ 31 ≤ x) (h₂ : x < 2 ^ 31) :
    abi.ssize x = x := by
  cases abi with
  | ilp32 => exact cInt_of_small h₁ h₂
  | lp64 => exact Int.bmod_eq_of_le (by simp [longBits]; omega) (by simp [longBits]; omega)

/-! ### Numbers in a text -/

/-- `kstrtoint` in base 10, with the value it stores when it returns 0: the text is a number, which may
have a sign in front and one newline behind, and is an `int`. -/
def kstrtoint (text : List UInt8) : Option ℤ :=
  let r := scanSign text
  let digits := if r.2.getLast? = some 10 then r.2.dropLast else r.2
  let value := r.1 * digitsVal digits
  if digits ≠ [] ∧ digits.all isDigitByte ∧ -2 ^ 31 ≤ value ∧ value < 2 ^ 31 then some value else none

/-! ### User copies -/

/-- `copy_to_user`: the bytes of `src` that arrive in user space, and the number of those that do
not. -/
def copyToUser (src : List UInt8) (copied : ℕ) : List UInt8 × ℕ :=
  (src.take copied, src.length - copied)

/-- `copy_from_user` of the bytes `src` to address `dst`: the memory after it, and the number of
bytes not copied. -/
def copyFromUser (m : Memory UInt8) (dst : ℤ) (src : List UInt8) (copied : ℕ) :
    Memory UInt8 × ℕ :=
  (m.store dst (src.take copied ++ List.replicate (src.length - copied) 0), src.length - copied)

/-- A copy to user space that returns 0 has delivered everything. -/
theorem copyToUser_complete {src : List UInt8} {copied : ℕ}
    (h : (copyToUser src copied).2 = 0) : (copyToUser src copied).1 = src :=
  List.take_of_length_le (by simpa [copyToUser, Nat.sub_eq_zero_iff_le] using h)

/-- A copy from user space that returns 0 has stored everything. -/
theorem copyFromUser_complete {m : Memory UInt8} {dst : ℤ} {src : List UInt8} {copied : ℕ}
    (h : (copyFromUser m dst src copied).2 = 0) :
    (copyFromUser m dst src copied).1 = m.store dst src := by
  have hle : src.length ≤ copied := Nat.sub_eq_zero_iff_le.1 h
  simp [copyFromUser, List.take_of_length_le hle, Nat.sub_eq_zero_of_le hle]

/-- Whether or not it fails, a copy from user space writes as many bytes as it was asked for. -/
theorem copyFromUser_eq_store (m : Memory UInt8) (dst : ℤ) (src : List UInt8) (copied : ℕ) :
    ∃ l : List UInt8, l.length = src.length ∧ (copyFromUser m dst src copied).1 = m.store dst l :=
  ⟨_, by simp; omega, rfl⟩

end IldDrivers
