import Mathlib.Data.Nat.ModEq
import Mathlib.Algebra.BigOperators.Group.List.Basic
import Mathlib.Tactic

/-!
# The checksum of the Internet

The ones' complement sum of the 16-bit words of a header, and the checksum that makes it `0xFFFF`.

* `onesSum`: addition with the carry out of the top added at the bottom, for words below any `M`. It
  is the sum modulo `M - 1`, where `M - 1` stands for the multiples that are not 0;
* `words`: bytes as words, in the byte order of a machine;
* `internetChecksum_verifies`: a header with its checksum verifies on a machine of any byte order,
  whichever the order in which the checksum was computed.
-/

/-! ### Ones' complement sums -/

/-- Addition with an end-around carry. -/
def onesAdd (M x y : ℕ) : ℕ := (x + y) % M + (x + y) / M

/-- The ones' complement sum. -/
def onesSum (M : ℕ) (l : List ℕ) : ℕ := l.foldr (onesAdd M) 0

section OnesSum

variable {M x y : ℕ} {l : List ℕ}

theorem onesAdd_modEq (hM : 0 < M) (x y : ℕ) : onesAdd M x y ≡ x + y [MOD M - 1] := by
  have hone : M ≡ 1 [MOD M - 1] := ((Nat.modEq_iff_dvd' hM).2 dvd_rfl).symm
  calc onesAdd M x y
      ≡ (x + y) % M + 1 * ((x + y) / M) [MOD M - 1] := by
        rw [one_mul]
        rfl
    _ ≡ (x + y) % M + M * ((x + y) / M) [MOD M - 1] := (hone.symm.mul_right _).add_left _
    _ = x + y := Nat.mod_add_div _ _

/-- There is at most one carry. -/
theorem onesAdd_eq (hx : x < M) (hy : y < M) :
    onesAdd M x y = if x + y < M then x + y else x + y - M + 1 := by
  unfold onesAdd
  split_ifs with hlt
  · rw [Nat.mod_eq_of_lt hlt, Nat.div_eq_of_lt hlt, add_zero]
  · obtain ⟨rest, hsum⟩ : ∃ rest, x + y = rest + M := ⟨x + y - M, by omega⟩
    have hrest : rest < M := by omega
    rw [hsum, Nat.add_mod_right, Nat.add_div_right _ (by omega), Nat.mod_eq_of_lt hrest,
      Nat.div_eq_of_lt hrest, Nat.add_sub_cancel]

theorem onesAdd_lt (hx : x < M) (hy : y < M) : onesAdd M x y < M := by
  rw [onesAdd_eq hx hy]
  split_ifs with hlt
  · exact hlt
  · omega

theorem onesAdd_eq_zero_iff (hx : x < M) (hy : y < M) : onesAdd M x y = 0 ↔ x = 0 ∧ y = 0 := by
  rw [onesAdd_eq hx hy]
  by_cases hlt : x + y < M
  · rw [if_pos hlt]
    exact Nat.add_eq_zero_iff
  · rw [if_neg hlt]
    omega

theorem onesSum_lt (hM : 0 < M) (hl : ∀ x ∈ l, x < M) : onesSum M l < M := by
  induction l with
  | nil => exact hM
  | cons x l ih =>
    exact onesAdd_lt (hl x List.mem_cons_self) (ih fun y hy => hl y (List.mem_cons_of_mem x hy))

theorem onesSum_modEq (hM : 0 < M) (l : List ℕ) : onesSum M l ≡ l.sum [MOD M - 1] := by
  induction l with
  | nil => rfl
  | cons x l ih =>
    rw [List.sum_cons]
    exact (onesAdd_modEq hM x (onesSum M l)).trans (ih.add_left x)

theorem onesSum_eq_zero_iff (hl : ∀ x ∈ l, x < M) : onesSum M l = 0 ↔ l.sum = 0 := by
  induction l with
  | nil => exact Iff.rfl
  | cons x l ih =>
    have hx := hl x List.mem_cons_self
    have htail : ∀ y ∈ l, y < M := fun y hy => hl y (List.mem_cons_of_mem x hy)
    have hsum := onesSum_lt (by omega) htail
    rw [List.sum_cons, Nat.add_eq_zero_iff, ← ih htail]
    exact onesAdd_eq_zero_iff hx hsum

/-- The sum is the word of ones exactly when it is a multiple of it other than 0. -/
theorem onesSum_eq_top_iff (hM : 1 < M) (hl : ∀ x ∈ l, x < M) :
    onesSum M l = M - 1 ↔ M - 1 ∣ l.sum ∧ l.sum ≠ 0 := by
  have hpos : 0 < M := by omega
  have hlt := onesSum_lt hpos hl
  have hmod := onesSum_modEq hpos l
  rw [← hmod.dvd_iff dvd_rfl, ne_eq, ← onesSum_eq_zero_iff hl]
  constructor
  · intro htop
    rw [htop]
    exact ⟨dvd_rfl, by omega⟩
  · rintro ⟨hdvd, hne⟩
    have hle := Nat.le_of_dvd (Nat.pos_of_ne_zero hne) hdvd
    omega

end OnesSum

/-! ### Words of two bytes -/

inductive ByteOrder
  | little
  | big
  deriving DecidableEq

/-- The word that consists of these two bytes. -/
def ByteOrder.word : ByteOrder → UInt8 → UInt8 → ℕ
  | .little, b, c => b.toNat + 256 * c.toNat
  | .big, b, c => 256 * b.toNat + c.toNat

/-- The bytes of a word. -/
def ByteOrder.bytes : ByteOrder → ℕ → UInt8 × UInt8
  | .little, w => (UInt8.ofNat (w % 256), UInt8.ofNat (w / 256))
  | .big, w => (UInt8.ofNat (w / 256), UInt8.ofNat (w % 256))

/-- The words that consist of these bytes; an odd one is followed by 0. -/
def words (e : ByteOrder) : List UInt8 → List ℕ
  | b :: c :: l => e.word b c :: words e l
  | [b] => [e.word b 0]
  | [] => []

/-- The checksum of these bytes, as it is in memory. -/
def internetChecksum (e : ByteOrder) (l : List UInt8) : UInt8 × UInt8 :=
  e.bytes (65535 - onesSum 65536 (words e l))

/-- The ones' complement sum of these bytes is `0xFFFF`. -/
def Verifies (e : ByteOrder) (l : List UInt8) : Prop := onesSum 65536 (words e l) = 65535

namespace ByteOrder

theorem word_lt (e : ByteOrder) (b c : UInt8) : e.word b c < 65536 := by
  have hb := b.toNat_lt
  have hc := c.toNat_lt
  cases e with
  | little =>
    simp only [word]
    omega
  | big =>
    simp only [word]
    omega

theorem word_bytes (e : ByteOrder) {w : ℕ} (hw : w < 65536) :
    e.word (e.bytes w).1 (e.bytes w).2 = w := by
  cases e with
  | little =>
    simp only [word, bytes, UInt8.toNat_ofNat']
    omega
  | big =>
    simp only [word, bytes, UInt8.toNat_ofNat']
    omega

theorem word_eq_zero_iff (e : ByteOrder) (b c : UInt8) :
    e.word b c = 0 ↔ b.toNat = 0 ∧ c.toNat = 0 := by
  cases e with
  | little =>
    simp only [word]
    omega
  | big =>
    simp only [word]
    omega

/-- To exchange the bytes of a word is to multiply it by 256. -/
theorem word_modEq (b c : UInt8) : 256 * big.word b c ≡ little.word b c [MOD 65535] := by
  have hsplit : 256 * big.word b c = little.word b c + 65535 * b.toNat := by
    simp only [word]
    omega
  rw [hsplit]
  exact Nat.add_mul_mod_self_left _ _ _

end ByteOrder

theorem words_lt (e : ByteOrder) (l : List UInt8) : ∀ w ∈ words e l, w < 65536 := by
  induction l using words.induct with
  | case1 b c l ih =>
    intro w hw
    rcases List.mem_cons.1 hw with rfl | hw
    · exact e.word_lt b c
    · exact ih w hw
  | case2 b =>
    intro w hw
    rw [List.mem_singleton.1 hw]
    exact e.word_lt b 0
  | case3 => simp [words]

theorem words_append (e : ByteOrder) {l : List UInt8} (l' : List UInt8) (hl : Even l.length) :
    words e (l ++ l') = words e l ++ words e l' := by
  induction l using words.induct with
  | case1 b c l ih =>
    have hrest : Even l.length := by
      rw [List.length_cons, List.length_cons] at hl
      grind
    rw [List.cons_append, List.cons_append, words, words, ih hrest, List.cons_append]
  | case2 b => simp at hl
  | case3 => rfl

theorem words_sum_eq_zero_iff (e e' : ByteOrder) (l : List UInt8) :
    (words e l).sum = 0 ↔ (words e' l).sum = 0 := by
  induction l using words.induct with
  | case1 b c l ih =>
    simp only [words, List.sum_cons, Nat.add_eq_zero_iff, ByteOrder.word_eq_zero_iff, ih]
  | case2 b => simp only [words, List.sum_cons, Nat.add_eq_zero_iff, ByteOrder.word_eq_zero_iff,
      List.sum_nil]
  | case3 => exact Iff.rfl

theorem words_sum_modEq (l : List UInt8) :
    256 * (words .big l).sum ≡ (words .little l).sum [MOD 65535] := by
  induction l using words.induct with
  | case1 b c l ih =>
    simp only [words, List.sum_cons, mul_add]
    exact (ByteOrder.word_modEq b c).add ih
  | case2 b =>
    simp only [words, List.sum_cons, List.sum_nil, add_zero]
    exact ByteOrder.word_modEq b 0
  | case3 => rfl

/-! ### Verification -/

theorem verifies_iff (e : ByteOrder) (l : List UInt8) :
    Verifies e l ↔ 65535 ∣ (words e l).sum ∧ (words e l).sum ≠ 0 :=
  onesSum_eq_top_iff (M := 65536) (by decide) (words_lt e l)

/-- The byte order does not matter. -/
theorem verifies_big_iff (l : List UInt8) : Verifies .big l ↔ Verifies .little l := by
  rw [verifies_iff, verifies_iff, ne_eq, ne_eq, words_sum_eq_zero_iff .big .little]
  have hdvd := (words_sum_modEq l).dvd_iff (dvd_refl 65535)
  rw [← hdvd, Nat.Coprime.dvd_mul_left (by decide)]

theorem verifies_iff_of_order (e e' : ByteOrder) (l : List UInt8) :
    Verifies e l ↔ Verifies e' l := by
  cases e with
  | little =>
    cases e' with
    | little => exact Iff.rfl
    | big => exact (verifies_big_iff l).symm
  | big =>
    cases e' with
    | little => exact verifies_big_iff l
    | big => exact Iff.rfl

/-- **A header verifies with its checksum**, computed while the two bytes of its field were 0. -/
theorem internetChecksum_verifies (e e' : ByteOrder) {l : List UInt8} (l' : List UInt8)
    (hl : Even l.length) {check : UInt8 × UInt8}
    (hcheck : check = internetChecksum e (l ++ 0 :: 0 :: l')) :
    Verifies e' (l ++ check.1 :: check.2 :: l') := by
  have hzero : e.word 0 0 = 0 := (e.word_eq_zero_iff 0 0).2 ⟨rfl, rfl⟩
  have hblank : (words e (l ++ 0 :: 0 :: l')).sum = (words e l).sum + (words e l').sum := by
    rw [words_append e _ hl, words, List.sum_append, List.sum_cons, hzero, zero_add]
  have hlt := onesSum_lt (by decide) (words_lt e (l ++ 0 :: 0 :: l'))
  have hmod := onesSum_modEq (M := 65536) (by decide) (words e (l ++ 0 :: 0 :: l'))
  have hnull := onesSum_eq_zero_iff (words_lt e (l ++ 0 :: 0 :: l'))
  rw [hblank] at hmod hnull
  have hword : e.word check.1 check.2 = 65535 - onesSum 65536 (words e (l ++ 0 :: 0 :: l')) := by
    rw [hcheck, internetChecksum, e.word_bytes (by omega)]
  have hsum : (words e (l ++ check.1 :: check.2 :: l')).sum =
      (words e l).sum + (words e l').sum + e.word check.1 check.2 := by
    rw [words_append e _ hl, words, List.sum_append, List.sum_cons]
    omega
  rw [verifies_iff_of_order e' e, verifies_iff, hsum, hword]
  constructor
  · refine (Nat.modEq_zero_iff_dvd).1 ?_
    calc (words e l).sum + (words e l').sum + (65535 - onesSum 65536 (words e (l ++ 0 :: 0 :: l')))
        ≡ onesSum 65536 (words e (l ++ 0 :: 0 :: l')) +
            (65535 - onesSum 65536 (words e (l ++ 0 :: 0 :: l'))) [MOD 65535] :=
          (hmod.symm).add_right _
      _ = 65535 := by omega
      _ ≡ 0 [MOD 65535] := rfl
  · -- the sum is not 0: either a byte of the header is not, or the checksum is `0xFFFF`
    omega
