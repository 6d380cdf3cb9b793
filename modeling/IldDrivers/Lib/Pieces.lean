import Mathlib.Data.List.Basic
import Mathlib.Order.Lattice
import Mathlib.Tactic.Cases

/-!
# Reading a text piece by piece

A reader that keeps its own position receives a text in pieces, each piece starting where the
previous one stopped. `Contiguous o ps o'` says that the pieces `ps` lead from position `o` to
position `o'`; `Piece.Right R` says that a piece holds what the text `R` has at its position.

`pieceAt` is the piece that a read is to be given of a text that stays the same.

`Contiguous.received_eq_iff` decides when a reader that has come to the end of the text holds the
whole of it: it must have started at position `0`, and every piece must be right.
-/

/-- A piece of a text: where it starts, and the items received. -/
structure Piece (α : Type*) where
  start : ℕ
  items : List α
  deriving DecidableEq

variable {α : Type*}

/-- The piece holds what `R` has from its start. -/
def Piece.Right (R : List α) (p : Piece α) : Prop :=
  p.items = (R.drop p.start).take p.items.length

instance [DecidableEq α] (R : List α) (p : Piece α) : Decidable (p.Right R) :=
  inferInstanceAs (Decidable (_ = _))

/-- At most `max` items of a text, from position `o`. -/
def pieceAt (R : List α) (o max : ℕ) : List α := (R.drop o).take max

theorem length_pieceAt (R : List α) (o max : ℕ) :
    (pieceAt R o max).length = min max (R.length - o) := by
  rw [pieceAt, List.length_take, List.length_drop]

theorem pieceAt_prefix (R : List α) (o max : ℕ) : pieceAt R o max <+: R.drop o :=
  List.take_prefix _ _

/-- The beginning of a text, and what is the beginning of the rest. -/
theorem append_prefix_iff {l m R : List α} : l ++ m <+: R ↔ l <+: R ∧ m <+: R.drop l.length := by
  constructor
  · rintro ⟨t, rfl⟩
    refine ⟨⟨m ++ t, by rw [List.append_assoc]⟩, t, ?_⟩
    rw [List.append_assoc, List.drop_left]
  · rintro ⟨⟨t, rfl⟩, hm⟩
    rw [List.drop_left] at hm
    exact (List.prefix_append_right_inj l).2 hm

/-- Each piece starts where the previous one stopped, from position `o` to position `o'`. -/
def Contiguous : ℕ → List (Piece α) → ℕ → Prop
  | o, [], o' => o = o'
  | o, p :: ps, o' => p.start = o ∧ Contiguous (o + p.items.length) ps o'

/-- What the pieces bring, put end to end. -/
def received (ps : List (Piece α)) : List α := ps.flatMap Piece.items

@[simp] theorem received_nil : received ([] : List (Piece α)) = [] := rfl

theorem received_cons (p : Piece α) (ps : List (Piece α)) :
    received (p :: ps) = p.items ++ received ps := rfl

theorem received_append (ps qs : List (Piece α)) :
    received (ps ++ qs) = received ps ++ received qs := List.flatMap_append

namespace Contiguous

theorem append {o o' o'' : ℕ} {ps qs : List (Piece α)} (hps : Contiguous o ps o')
    (hqs : Contiguous o' qs o'') : Contiguous o (ps ++ qs) o'' := by
  induction ps generalizing o with
  | nil =>
    cases hps
    exact hqs
  | cons p ps ih => exact ⟨hps.1, ih hps.2⟩

theorem length_received {o o' : ℕ} {ps : List (Piece α)} (h : Contiguous o ps o') :
    o + (received ps).length = o' := by
  induction ps generalizing o with
  | nil => cases h; rfl
  | cons p ps ih =>
    have := ih h.2
    rw [received_cons, List.length_append]
    omega

/-- Right pieces bring the text between the two positions. -/
theorem received_of_right {o o' : ℕ} {ps : List (Piece α)} {R : List α}
    (h : Contiguous o ps o') (hR : ∀ p ∈ ps, p.Right R) :
    received ps = (R.drop o).take (o' - o) := by
  induction ps generalizing o with
  | nil => cases h; simp
  | cons p ps ih =>
    have hlen := h.2.length_received
    have hp : p.items = (R.drop o).take p.items.length := h.1 ▸ hR p (by simp)
    have hrest : received ps = (R.drop (o + p.items.length)).take (o' - (o + p.items.length)) :=
      ih h.2 fun q hq => hR q (by simp [hq])
    calc received (p :: ps)
        = (R.drop o).take p.items.length ++
            ((R.drop o).drop p.items.length).take (o' - o - p.items.length) := by
          rw [received_cons, hrest, List.drop_drop, Nat.sub_sub, ← hp]
      _ = (R.drop o).take (o' - o) := by
          rw [← List.take_add]
          congr 1
          omega

/-- Pieces that together begin the rest of the text are right. -/
theorem right_of_received {o o' : ℕ} {ps : List (Piece α)} {R : List α}
    (h : Contiguous o ps o') (hR : received ps <+: R.drop o) : ∀ p ∈ ps, p.Right R := by
  induction ps generalizing o with
  | nil => simp
  | cons p ps ih =>
    rw [received_cons] at hR
    obtain ⟨t, ht⟩ := hR
    intro q hq
    rcases List.mem_cons.1 hq with rfl | hq
    · rw [Piece.Right, h.1, ← ht, List.append_assoc, List.take_left]
    · refine ih h.2 ⟨t, ?_⟩ q hq
      rw [← List.drop_drop, ← ht, List.append_assoc, List.drop_left]

/-- **When the whole text has been received**: a reader at or past the end, which no read took past
both its start and the end, holds the text exactly when it started at `0` and every piece was
right. -/
theorem received_eq_iff {o o' : ℕ} {ps : List (Piece α)} {R : List α} (h : Contiguous o ps o')
    (hR : R ≠ []) (hend : R.length ≤ o') (hmax : o' ≤ max o R.length) :
    received ps = R ↔ o = 0 ∧ ∀ p ∈ ps, p.Right R := by
  have hpos : 0 < R.length := List.length_pos_of_ne_nil hR
  constructor
  · intro hall
    have hlen := h.length_received
    rw [hall] at hlen
    have ho : o = 0 := by omega
    subst ho
    exact ⟨rfl, h.right_of_received (hall ▸ List.prefix_rfl)⟩
  · rintro ⟨rfl, hright⟩
    rw [h.received_of_right hright, List.drop_zero, Nat.sub_zero, List.take_of_length_le hend]

end Contiguous
