import IldDrivers.Lib.Decimal

/-!
# Reading decimal texts

The conversion `%d` of `sscanf`: white space is skipped, then come an optional sign and at least one
digit (`scanInt`). White space between two conversions of a format matches any amount of it, also
none, so a format of `n` conversions between spaces is `scanInts n`.

`scanInt_decimal` and `scanInts_intercalate` say that what `%d` prints is read back.
-/

/-- White space: the space, and `\t`, `\n`, `\v`, `\f`, `\r`. -/
def isSpaceByte (b : UInt8) : Bool := b.toNat = 32 || (9 ≤ b.toNat && b.toNat ≤ 13)

def isDigitByte (b : UInt8) : Bool := 48 ≤ b.toNat && b.toNat ≤ 57

/-- The value of a text of digits. -/
def digitsVal (digits : List UInt8) : ℕ := digits.foldl (fun n b => 10 * n + (b.toNat - 48)) 0

/-- The optional sign, and what follows it. -/
def scanSign : List UInt8 → ℤ × List UInt8
  | [] => (1, [])
  | b :: text => if b = 45 then (-1, text) else if b = 43 then (1, text) else (1, b :: text)

/-- `%d`: the number, and what follows it. -/
def scanInt (text : List UInt8) : Option (ℤ × List UInt8) :=
  let r := scanSign (text.dropWhile isSpaceByte)
  let digits := r.2.takeWhile isDigitByte
  if digits = [] then none else some (r.1 * digitsVal digits, r.2.dropWhile isDigitByte)

/-- `n` conversions `%d`; `none` unless all of them are made. -/
def scanInts : ℕ → List UInt8 → Option (List ℤ)
  | 0, _ => some []
  | n + 1, text => (scanInt text).bind fun r => (scanInts n r.2).map (r.1 :: ·)

/-- What follows a number: it does not go on with a digit. -/
def NoDigitHead (text : List UInt8) : Prop := ∀ b ∈ text.head?, isDigitByte b = false

theorem toNat_toUInt8_of_isDigit {c : Char} (h : c.isDigit = true) : c.toUInt8.toNat = c.toNat := by
  simp only [Char.isDigit, Bool.and_eq_true, decide_eq_true_eq, ge_iff_le,
    UInt32.le_iff_toNat_le] at h
  have hrange : 48 ≤ c.toNat ∧ c.toNat ≤ 57 := h
  change c.toNat % 256 = c.toNat
  omega

/-- The digits of a number, as bytes. -/
theorem isDigitByte_of_isDigit {c : Char} (h : c.isDigit = true) : isDigitByte c.toUInt8 = true := by
  unfold isDigitByte
  rw [toNat_toUInt8_of_isDigit h]
  simp only [Char.isDigit, Bool.and_eq_true, decide_eq_true_eq, ge_iff_le,
    UInt32.le_iff_toNat_le] at h
  have hrange : 48 ≤ c.toNat ∧ c.toNat ≤ 57 := h
  simpa using hrange

theorem isDigitByte_of_mem_toDigits {n : ℕ} {b : UInt8}
    (h : b ∈ (Nat.toDigits 10 n).map Char.toUInt8) : isDigitByte b = true := by
  obtain ⟨c, hc, rfl⟩ := List.mem_map.1 h
  exact isDigitByte_of_isDigit (Nat.isDigit_of_mem_toDigits (by decide) (by decide) hc)

/-- Reading bytes and reading characters are the same on digits. -/
theorem foldl_digits {l : List Char} (h : ∀ c ∈ l, c.isDigit = true) (n : ℕ) :
    (l.map Char.toUInt8).foldl (fun n b => 10 * n + (b.toNat - 48)) n = Nat.ofDigitChars 10 l n := by
  induction l generalizing n with
  | nil => rw [List.map_nil, List.foldl_nil, Nat.ofDigitChars_nil]
  | cons c l ih =>
    rw [List.map_cons, List.foldl_cons, toNat_toUInt8_of_isDigit (h c List.mem_cons_self),
      Nat.ofDigitChars_cons]
    exact ih (fun c' hc' => h c' (List.mem_cons_of_mem c hc')) _

theorem digitsVal_toDigits (n : ℕ) : digitsVal ((Nat.toDigits 10 n).map Char.toUInt8) = n := by
  unfold digitsVal
  rw [foldl_digits fun c hc => Nat.isDigit_of_mem_toDigits (by decide) (by decide) hc]
  exact Nat.ofDigitChars_ten_toDigits

/-- The digits end where no digit follows. -/
theorem takeWhile_digits {digits rest : List UInt8} (hdigits : ∀ b ∈ digits, isDigitByte b = true)
    (hrest : NoDigitHead rest) :
    (digits ++ rest).takeWhile isDigitByte = digits ∧
      (digits ++ rest).dropWhile isDigitByte = rest := by
  rw [List.takeWhile_append_of_pos hdigits, List.dropWhile_append_of_pos hdigits]
  cases rest with
  | nil => exact ⟨by rw [List.takeWhile_nil, List.append_nil], rfl⟩
  | cons b rest =>
    have hb := hrest b rfl
    rw [List.takeWhile_cons_of_neg (by simp [hb]), List.dropWhile_cons_of_neg (by simp [hb]),
      List.append_nil]
    exact ⟨rfl, rfl⟩

/-- A sign or a digit is not white space. -/
theorem dropWhile_space_cons {b : UInt8} (h : b = 45 ∨ isDigitByte b = true) (text : List UInt8) :
    (b :: text).dropWhile isSpaceByte = b :: text := by
  refine List.dropWhile_cons_of_neg ?_
  rcases h with rfl | hdigit
  · decide
  · simp only [isDigitByte, isSpaceByte, Bool.and_eq_true, decide_eq_true_eq, Bool.or_eq_true] at *
    omega

theorem scanSign_digit {b : UInt8} (h : isDigitByte b = true) (text : List UInt8) :
    scanSign (b :: text) = (1, b :: text) := by
  have hne : b ≠ 45 ∧ b ≠ 43 := by
    constructor <;> (rintro rfl; revert h; decide)
  rw [scanSign, if_neg hne.1, if_neg hne.2]

/-- **What `%d` prints, `%d` reads**, whatever follows that is not a digit. -/
theorem scanInt_decimal (x : ℤ) {rest : List UInt8} (hrest : NoDigitHead rest) :
    scanInt (decimal x ++ rest) = some (x, rest) := by
  have hdigits : ∀ b ∈ (Nat.toDigits 10 x.natAbs).map Char.toUInt8, isDigitByte b = true :=
    fun b hb => isDigitByte_of_mem_toDigits hb
  have hval := digitsVal_toDigits x.natAbs
  have hne : (Nat.toDigits 10 x.natAbs).map Char.toUInt8 ≠ [] := by
    simp
  unfold scanInt decimal
  revert hdigits hval hne
  generalize (Nat.toDigits 10 x.natAbs).map Char.toUInt8 = digits
  intro hdigits hval hne
  obtain ⟨htake, hdrop⟩ := takeWhile_digits hdigits hrest
  -- behind the sign, if there is one, come the digits
  have hsign : scanSign ((((if x < 0 then [45] else []) ++ digits ++ rest)).dropWhile isSpaceByte) =
      (if x < 0 then -1 else 1, digits ++ rest) := by
    split_ifs with hx
    · rw [List.append_assoc, List.singleton_append, dropWhile_space_cons (.inl rfl)]
      rfl
    · obtain ⟨b, l, rfl⟩ := List.exists_cons_of_ne_nil hne
      have hb := hdigits b List.mem_cons_self
      rw [List.nil_append, List.cons_append, dropWhile_space_cons (.inr hb), scanSign_digit hb]
  rw [hsign]
  simp only [htake, hdrop, if_neg hne, hval, Option.some.injEq, Prod.mk.injEq, and_true]
  split_ifs <;> omega

/-- White space before a number is skipped. -/
theorem scanInt_space (text : List UInt8) : scanInt (32 :: text) = scanInt text := by
  unfold scanInt
  rw [List.dropWhile_cons_of_pos (by decide)]

/-- **Numbers printed with a space between them are read back**, whatever follows that is not a
digit. -/
theorem scanInts_intercalate (xs : List ℤ) {rest : List UInt8} (hrest : NoDigitHead rest) :
    scanInts xs.length ([32].intercalate (xs.map decimal) ++ rest) = some xs := by
  induction xs with
  | nil => rfl
  | cons x xs ih =>
    cases xs with
    | nil =>
      simp only [List.map_cons, List.map_nil, List.intercalate_singleton, List.length_singleton,
        scanInts, scanInt_decimal x hrest, Option.bind_some, Option.map_some]
    | cons y xs =>
      have hspace : NoDigitHead (32 :: ([32].intercalate ((y :: xs).map decimal) ++ rest)) := by
        intro b hb
        cases hb
        decide
      have htext : [32].intercalate ((x :: y :: xs).map decimal) ++ rest =
          decimal x ++ 32 :: ([32].intercalate ((y :: xs).map decimal) ++ rest) := by
        rw [List.map_cons, List.map_cons, List.intercalate_cons_cons, List.append_assoc,
          List.append_assoc, List.singleton_append]
      have hnext : scanInts (y :: xs).length
          (32 :: ([32].intercalate ((y :: xs).map decimal) ++ rest)) = some (y :: xs) := by
        rw [← ih, List.length_cons, scanInts, scanInts, scanInt_space]
      rw [htext, List.length_cons, scanInts, scanInt_decimal x hspace, Option.bind_some, hnext,
        Option.map_some]
