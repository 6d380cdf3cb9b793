import IldDrivers.Lib.Scan
import Mathlib.Data.List.Basic
import Mathlib.Tactic.SplitIfs

/-!
# Reading a text without its last byte

The numbers that `sscanf` reads from a text, and those that it reads from the text without its last
byte. Which bytes are white space and whether a number may have a plus sign depends on the
implementation (`ScanStyle`).

* `ScanStyle.scan`, `ScanStyle.scanMany`: the conversions, with what follows;
* `ScanStyle.Shortened`, `ScanStyle.shortened`: what becomes of a number when the last byte of the text
  is taken away;
* `ScanStyle.Truncated`, `ScanStyle.truncated`: what becomes of several.
-/

/-- What the implementations of `sscanf` do not have in common. -/
structure ScanStyle where
  isSpace : UInt8 → Bool
  plus : Bool

namespace ScanStyle

/-- The optional sign, and what follows it. -/
def sign (st : ScanStyle) : List UInt8 → ℤ × List UInt8
  | [] => (1, [])
  | b :: text =>
      if b = 45 then (-1, text) else if b = 43 ∧ st.plus = true then (1, text) else (1, b :: text)

/-- What comes after white space and a sign. -/
def unsigned (st : ScanStyle) (text : List UInt8) : ℤ × List UInt8 :=
  st.sign (text.dropWhile st.isSpace)

/-- The digits that `%d` reads. -/
def digits (st : ScanStyle) (text : List UInt8) : List UInt8 :=
  (st.unsigned text).2.takeWhile isDigitByte

/-- `%d`: the number, and what follows it. -/
def scan (st : ScanStyle) (text : List UInt8) : Option (ℤ × List UInt8) :=
  if st.digits text = [] then none
  else some ((st.unsigned text).1 * digitsVal (st.digits text),
    (st.unsigned text).2.dropWhile isDigitByte)

/-- `n` conversions `%d` with white space between them: the numbers, and what follows them. -/
def scanMany (st : ScanStyle) : ℕ → List UInt8 → Option (List ℤ × List UInt8)
  | 0, text => some ([], text)
  | n + 1, text => (st.scan text).bind fun r => (st.scanMany n r.2).map fun q => (r.1 :: q.1, q.2)

/-- The usual white space, and both signs. -/
def standard : ScanStyle := ⟨isSpaceByte, true⟩

theorem standard_scan (text : List UInt8) : standard.scan text = scanInt text := by
  have hsign : ∀ l, standard.sign l = scanSign l := by
    intro l
    cases l with
    | nil => rfl
    | cons b l => simp [sign, scanSign, standard]
  unfold scan digits unsigned scanInt
  rw [hsign]
  rfl

theorem standard_scanMany (n : ℕ) (text : List UInt8) :
    (standard.scanMany n text).map Prod.fst = scanInts n text := by
  induction n generalizing text with
  | zero => rfl
  | succ n ih =>
    rw [scanMany, scanInts, standard_scan]
    cases scanInt text with
    | none => rfl
    | some r =>
      rw [Option.bind_some, Option.bind_some, ← ih, Option.map_map, Option.map_map]
      rfl

variable {st : ScanStyle} {text rest : List UInt8} {b : UInt8} {x : ℤ} {xs : List ℤ} {n : ℕ}

/-! ### One number -/

/-- A sign is `1` or `-1`. -/
theorem sign_unit (st : ScanStyle) (text : List UInt8) :
    (st.sign text).1 = 1 ∨ (st.sign text).1 = -1 := by
  cases text with
  | nil => exact .inl rfl
  | cons b text =>
    simp only [sign]
    split_ifs
    · exact .inr rfl
    · exact .inl rfl
    · exact .inl rfl

/-- The sign of a text that goes on. -/
theorem sign_concat (h : text ≠ []) :
    st.sign (text ++ [b]) = ((st.sign text).1, (st.sign text).2 ++ [b]) := by
  obtain ⟨c, text, rfl⟩ := List.exists_cons_of_ne_nil h
  simp only [List.cons_append, sign]
  split_ifs <;> rfl

/-- What becomes of a number when the last byte of the text is taken away: it is not there in either
case, it is the same, or the byte was its last digit. -/
inductive Shortened (st : ScanStyle) (text : List UInt8) (b : UInt8) : Prop
  | none (h : st.scan text = none) (h' : st.scan (text ++ [b]) = none)
  | same (x : ℤ) (rest : List UInt8) (h : st.scan text = some (x, rest))
      (h' : st.scan (text ++ [b]) = some (x, rest ++ [b]))
  | digit (s : ℤ) (front : List UInt8) (hs : s = 1 ∨ s = -1) (hb : isDigitByte b = true)
      (hdigits : st.digits (text ++ [b]) = front ++ [b])
      (h : st.scan text = if front = [] then none else some (s * digitsVal front, []))
      (h' : st.scan (text ++ [b]) = some (s * digitsVal (front ++ [b]), []))

theorem scan_of_unsigned {s : ℤ} (h : st.unsigned text = (s, rest)) :
    st.scan text = if rest.takeWhile isDigitByte = [] then none
      else some (s * digitsVal (rest.takeWhile isDigitByte), rest.dropWhile isDigitByte) := by
  rw [scan, digits, h]

/-- A text of white space. -/
theorem shortened_blank (hblank : text.dropWhile st.isSpace = []) : Shortened st text b := by
  have hscan : st.scan text = Option.none := by
    have hunsigned : st.unsigned text = (1, []) := by
      rw [unsigned, hblank]
      rfl
    rw [scan_of_unsigned hunsigned]
    rfl
  have hdrop : (text ++ [b]).dropWhile st.isSpace = [b].dropWhile st.isSpace := by
    rw [List.dropWhile_append, hblank]
    rfl
  have hcases : (∃ s, st.unsigned (text ++ [b]) = (s, [])) ∨ st.unsigned (text ++ [b]) = (1, [b]) := by
    rw [unsigned, hdrop, List.dropWhile_cons]
    split_ifs with hspace
    · exact .inl ⟨1, rfl⟩
    · simp only [sign]
      split_ifs
      · exact .inl ⟨-1, rfl⟩
      · exact .inl ⟨1, rfl⟩
      · exact .inr rfl
  rcases hcases with ⟨s, hunsigned⟩ | hunsigned
  · exact .none hscan (scan_of_unsigned hunsigned)
  · cases hb : isDigitByte b with
    | false => exact .none hscan (by rw [scan_of_unsigned hunsigned, List.takeWhile_cons, hb]; rfl)
    | true =>
      have htake : [b].takeWhile isDigitByte = [b] := by simp [hb]
      refine .digit 1 [] (.inl rfl) hb (by rw [digits, hunsigned, htake]; rfl) hscan ?_
      rw [scan_of_unsigned hunsigned, htake, if_neg (List.cons_ne_nil b [])]
      simp [hb]

theorem shortened (st : ScanStyle) (text : List UInt8) (b : UInt8) : Shortened st text b := by
  by_cases hblank : text.dropWhile st.isSpace = []
  · exact shortened_blank hblank
  · have hdrop : (text ++ [b]).dropWhile st.isSpace = text.dropWhile st.isSpace ++ [b] := by
      rw [List.dropWhile_append, if_neg (by rwa [List.isEmpty_iff])]
    obtain ⟨s, l, hunsigned, hunit⟩ : ∃ s l, st.unsigned text = (s, l) ∧ (s = 1 ∨ s = -1) :=
      ⟨_, _, rfl, sign_unit st _⟩
    have hunsigned' : st.unsigned (text ++ [b]) = (s, l ++ [b]) := by
      rw [unsigned, hdrop, sign_concat hblank, ← unsigned, hunsigned]
    have hscan := scan_of_unsigned hunsigned
    have hscan' := scan_of_unsigned hunsigned'
    rw [List.takeWhile_append, List.dropWhile_append] at hscan'
    by_cases hrest : l.dropWhile isDigitByte = []
    · -- the digits go to the end of the text
      have htake : l.takeWhile isDigitByte = l :=
        List.takeWhile_eq_self_iff.2 (List.dropWhile_eq_nil_iff.1 hrest)
      rw [htake, hrest] at hscan
      rw [htake, if_pos rfl, hrest, if_pos (show ([] : List UInt8).isEmpty = true from rfl)] at hscan'
      cases hb : isDigitByte b with
      | true =>
        have htake' : [b].takeWhile isDigitByte = [b] := by simp [hb]
        refine .digit s l hunit hb ?_ hscan ?_
        · rw [digits, hunsigned', List.takeWhile_append, htake, if_pos rfl, htake']
        · rw [hscan', htake', if_neg (by simp)]
          simp [hb]
      | false =>
        have htake' : [b].takeWhile isDigitByte = [] := by simp [hb]
        have hdrop' : [b].dropWhile isDigitByte = [b] := by simp [hb]
        rw [htake', hdrop', List.append_nil] at hscan'
        by_cases hnil : l = []
        · rw [if_pos hnil] at hscan hscan'
          exact .none hscan hscan'
        · rw [if_neg hnil] at hscan hscan'
          exact .same _ [] hscan hscan'
    · have hlength : (l.takeWhile isDigitByte).length ≠ l.length := by
        intro heq
        have happend := congrArg List.length (List.takeWhile_append_dropWhile (p := isDigitByte) (l := l))
        rw [List.length_append, heq] at happend
        exact hrest (List.length_eq_zero_iff.1 (by omega))
      have hmore : ¬ (l.dropWhile isDigitByte).isEmpty = true := by rwa [List.isEmpty_iff]
      rw [if_neg hlength, if_neg hmore] at hscan'
      by_cases hnil : l.takeWhile isDigitByte = []
      · rw [if_pos hnil] at hscan hscan'
        exact .none hscan hscan'
      · rw [if_neg hnil] at hscan hscan'
        exact .same _ _ hscan hscan'

/-! ### Several numbers -/

/-- There is no number in an empty text. -/
theorem scanMany_nil (h : st.scanMany n [] = some (xs, rest)) : rest = [] := by
  cases n with
  | zero =>
    cases h
    rfl
  | succ n => cases h

theorem scanMany_length {q : List ℤ × List UInt8} (h : st.scanMany n text = some q) :
    q.1.length = n := by
  induction n generalizing text q with
  | zero =>
    cases h
    rfl
  | succ n ih =>
    obtain ⟨r, -, hmany⟩ := Option.bind_eq_some_iff.1 h
    obtain ⟨q', hq', heq⟩ := Option.map_eq_some_iff.1 hmany
    cases heq
    rw [List.length_cons, ih hq']

/-- The last of the numbers. -/
theorem scanMany_succ (n : ℕ) (text : List UInt8) :
    st.scanMany (n + 1) text = (st.scanMany n text).bind fun q =>
      (st.scan q.2).map fun r => (q.1 ++ [r.1], r.2) := by
  induction n generalizing text with
  | zero =>
    simp only [scanMany, Option.bind_some, Option.map_some, List.nil_append]
    cases st.scan text <;> rfl
  | succ n ih =>
    rw [scanMany]
    conv_rhs => rw [scanMany]
    cases st.scan text with
    | none => rfl
    | some r =>
      rw [Option.bind_some, Option.bind_some, ih]
      cases st.scanMany n r.2 with
      | none => rfl
      | some q =>
        rw [Option.bind_some, Option.map_some, Option.bind_some]
        cases st.scan q.2 <;> rfl

/-- Numbers that something follows are still there without the last byte. -/
theorem scanMany_shortened (h : st.scanMany n (text ++ [b]) = some (xs, rest)) (hrest : rest ≠ []) :
    ∃ front, rest = front ++ [b] ∧ st.scanMany n text = some (xs, front) := by
  induction n generalizing text xs with
  | zero =>
    cases h
    exact ⟨text, rfl, rfl⟩
  | succ n ih =>
    rw [scanMany] at h
    obtain ⟨r, hscan, hmany⟩ := Option.bind_eq_some_iff.1 h
    obtain ⟨q, hq, heq⟩ := Option.map_eq_some_iff.1 hmany
    cases heq
    rcases shortened st text b with ⟨-, h'⟩ | ⟨x, front, hx, h'⟩ | ⟨s, front, -, -, -, -, h'⟩
    · rw [hscan] at h'
      cases h'
    · rw [hscan] at h'
      cases h'
      obtain ⟨front', hfront, hmany'⟩ := ih hq
      refine ⟨front', hfront, ?_⟩
      rw [scanMany, hx, Option.bind_some, hmany']
      rfl
    · -- then nothing would follow
      rw [hscan] at h'
      cases h'
      exact absurd (scanMany_nil hq) hrest

/-- A byte more takes no number away. -/
theorem scanMany_concat (h : st.scanMany n text = some (xs, rest)) :
    ∃ q, st.scanMany n (text ++ [b]) = some q := by
  induction n generalizing text xs rest with
  | zero => exact ⟨_, rfl⟩
  | succ n ih =>
    rw [scanMany] at h
    obtain ⟨r, hscan, hmany⟩ := Option.bind_eq_some_iff.1 h
    obtain ⟨q, hq, -⟩ := Option.map_eq_some_iff.1 hmany
    rw [scanMany]
    rcases shortened st text b with ⟨h', -⟩ | ⟨x, front, h', hx⟩ | ⟨s, front, -, -, -, h', hx⟩
    · rw [hscan] at h'
      cases h'
    · rw [hscan] at h'
      cases h'
      obtain ⟨q', hq'⟩ := ih hq
      exact ⟨_, by rw [hx, Option.bind_some, hq']; rfl⟩
    · rw [hx, Option.bind_some]
      rw [hscan] at h'
      split_ifs at h'
      cases h'
      exact ⟨_, by rw [hq]; rfl⟩

/-- The digits of the number after the first `n`, if it is there and nothing follows it. -/
def lastDigits (st : ScanStyle) (n : ℕ) (text : List UInt8) : Option (List UInt8) :=
  (st.scanMany n text).bind fun q =>
    match st.scan q.2 with
    | some (_, []) => some (st.digits q.2)
    | _ => none

theorem lastDigits_of_scan {q : List ℤ × List UInt8} (hmany : st.scanMany n text = some q)
    (hscan : st.scan q.2 = some (x, [])) : st.lastDigits n text = some (st.digits q.2) := by
  rw [lastDigits, hmany, Option.bind_some, hscan]

/-- There are no such digits where `n + 1` numbers are not there or something follows them. -/
theorem lastDigits_eq_none (h : ∀ xs, st.scanMany (n + 1) text ≠ some (xs, [])) :
    st.lastDigits n text = none := by
  rw [lastDigits]
  cases hmany : st.scanMany n text with
  | none => rfl
  | some q =>
    rw [Option.bind_some]
    split
    · rename_i x hscan
      refine absurd ?_ (h (q.1 ++ [x]))
      rw [scanMany_succ, hmany, Option.bind_some, hscan]
      rfl
    · rfl

/-- What becomes of `n + 1` numbers when the last byte of the text is taken away. -/
inductive Truncated (st : ScanStyle) (n : ℕ) (text : List UInt8) (b : UInt8) : Prop
  | none (hlast : st.lastDigits n (text ++ [b]) = none) (h : st.scanMany (n + 1) text = none)
      (h' : st.scanMany (n + 1) (text ++ [b]) = none)
  | same (xs : List ℤ) (rest rest' : List UInt8) (hlast : st.lastDigits n (text ++ [b]) = none)
      (h : st.scanMany (n + 1) text = some (xs, rest))
      (h' : st.scanMany (n + 1) (text ++ [b]) = some (xs, rest'))
  | digit (xs : List ℤ) (s : ℤ) (front : List UInt8) (hs : s = 1 ∨ s = -1) (hlength : xs.length = n)
      (hlast : st.lastDigits n (text ++ [b]) = some (front ++ [b]))
      (h : st.scanMany (n + 1) text =
        if front = [] then none else some (xs ++ [s * digitsVal front], []))
      (h' : st.scanMany (n + 1) (text ++ [b]) = some (xs ++ [s * digitsVal (front ++ [b])], []))

theorem truncated (st : ScanStyle) (n : ℕ) (text : List UInt8) (b : UInt8) :
    Truncated st n text b := by
  cases h' : st.scanMany (n + 1) (text ++ [b]) with
  | none =>
    refine .none (lastDigits_eq_none fun xs => by rw [h']; nofun) ?_ h'
    by_contra hsome
    obtain ⟨q, hq⟩ := Option.ne_none_iff_exists'.1 hsome
    obtain ⟨xs, rest⟩ := q
    obtain ⟨q', hq'⟩ := scanMany_concat (b := b) hq
    rw [h'] at hq'
    cases hq'
  | some r =>
    obtain ⟨xs, rest⟩ := r
    by_cases hrest : rest = []
    · -- the last number goes to the end; those before it are the same
      subst hrest
      have hlast := h'
      rw [scanMany_succ] at hlast
      obtain ⟨q, hq, hmap⟩ := Option.bind_eq_some_iff.1 hlast
      obtain ⟨r, hscan, heq⟩ := Option.map_eq_some_iff.1 hmap
      obtain ⟨x, rest⟩ := r
      cases heq
      obtain ⟨ys, more⟩ := q
      have hmore : more ≠ [] := by
        intro hnil
        rw [hnil] at hscan
        cases hscan
      obtain ⟨t, ht, hmany⟩ := scanMany_shortened hq hmore
      rw [ht] at hscan
      rcases shortened st t b with ⟨-, hnone⟩ | ⟨y, front, -, hy⟩ | ⟨s, front, hs, -, hdigits, hx, hy⟩
      · rw [hscan] at hnone
        cases hnone
      · rw [hscan] at hy
        simp at hy
      · rw [hscan] at hy
        cases hy
        refine .digit ys s front hs (scanMany_length hq) ?_ ?_ h'
        · rw [lastDigits_of_scan hq (by rw [ht]; exact hscan), ht, hdigits]
        · rw [scanMany_succ, hmany, Option.bind_some, hx]
          split_ifs <;> rfl
    · obtain ⟨front, -, hmany⟩ := scanMany_shortened h' hrest
      refine .same xs front rest (lastDigits_eq_none fun ys heq => ?_) hmany h'
      rw [h'] at heq
      exact hrest (Prod.mk.inj (Option.some.inj heq)).2

end ScanStyle
