import Mathlib.Data.Set.Insert
import Mathlib.Tactic.Tauto
import Mathlib.Tactic.Cases

/-!
# Resources and their owners

Each owner has a share of the resources, and no resource is in two shares; what is taken is what is in
a share (`Shares`).

* `Shares.update`: one owner takes resources that are free, or gives some of its own back;
  `Shares.acquire`, `Shares.release` and `Shares.keep` for one resource or none;
* `Shares.taken_eq`: what is taken is known when the shares are.
-/

/-- `taken` is what the owners have, and nothing has two owners. -/
structure Shares {ι ρ : Type*} (share : ι → Set ρ) (taken : Set ρ) : Prop where
  mem_taken : ∀ r, r ∈ taken ↔ ∃ i, r ∈ share i
  unique : ∀ r i j, r ∈ share i → r ∈ share j → i = j

namespace Shares

variable {ι ρ : Type*} {share share' : ι → Set ρ} {taken taken' : Set ρ} {i : ι}

theorem empty : Shares (fun _ : ι => (∅ : Set ρ)) ∅ where
  mem_taken _ := ⟨fun h => h.elim, fun ⟨_, h⟩ => h⟩
  unique _ _ _ h := h.elim

/-- The share of one owner changes: what is new in it was free, and what it gives back is free. -/
theorem update (h : Shares share taken) (hothers : ∀ j, j ≠ i → share' j = share j)
    (hnew : ∀ r, r ∈ share' i → r ∈ share i ∨ r ∉ taken)
    (htaken : ∀ r, r ∈ taken' ↔ r ∈ share' i ∨ r ∈ taken ∧ r ∉ share i) :
    Shares share' taken' := by
  -- what another owner has is not new
  have hapart : ∀ r j, j ≠ i → r ∈ share j → r ∉ share' i := by
    intro r j hj hr hr'
    rcases hnew r hr' with hold | hfree
    · exact hj (h.unique r j i hr hold)
    · exact hfree ((h.mem_taken r).2 ⟨j, hr⟩)
  constructor
  · intro r
    rw [htaken]
    constructor
    · rintro (hr | ⟨hr, hmine⟩)
      · exact ⟨i, hr⟩
      · obtain ⟨j, hj⟩ := (h.mem_taken r).1 hr
        have hne : j ≠ i := fun heq => hmine (heq ▸ hj)
        exact ⟨j, (hothers j hne).symm ▸ hj⟩
    · rintro ⟨j, hj⟩
      by_cases hji : j = i
      · exact .inl (hji ▸ hj)
      · rw [hothers j hji] at hj
        exact .inr ⟨(h.mem_taken r).2 ⟨j, hj⟩, fun hmine => hji (h.unique r j i hj hmine)⟩
  · intro r j k hj hk
    by_cases hji : j = i
    · by_cases hki : k = i
      · rw [hji, hki]
      · rw [hothers k hki] at hk
        exact absurd (hji ▸ hj) (hapart r k hki hk)
    · rw [hothers j hji] at hj
      by_cases hki : k = i
      · exact absurd (hki ▸ hk) (hapart r j hji hj)
      · rw [hothers k hki] at hk
        exact h.unique r j k hj hk

/-- One owner takes a resource that is free. -/
theorem acquire (h : Shares share taken) (hothers : ∀ j, j ≠ i → share' j = share j) {r : ρ}
    (hfree : r ∉ taken) (hshare : share' i = insert r (share i)) :
    Shares share' (insert r taken) := by
  have hmine : ∀ r, r ∈ share i → r ∈ taken := fun r hr => (h.mem_taken r).2 ⟨i, hr⟩
  refine h.update hothers (fun r' hr' => ?_) fun r' => ?_
  · rw [hshare] at hr'
    rcases hr' with rfl | hold
    · exact .inr hfree
    · exact .inl hold
  · rw [hshare, Set.mem_insert_iff, Set.mem_insert_iff]
    have hthis := hmine r'
    tauto

/-- One owner gives a resource back. -/
theorem release (h : Shares share taken) (hothers : ∀ j, j ≠ i → share' j = share j) {r : ρ}
    (hown : r ∈ share i) (hshare : share' i = share i \ {r}) : Shares share' (taken \ {r}) := by
  have hmine : ∀ r, r ∈ share i → r ∈ taken := fun r hr => (h.mem_taken r).2 ⟨i, hr⟩
  refine h.update hothers (fun r' hr' => ?_) fun r' => ?_
  · rw [hshare] at hr'
    exact .inl hr'.1
  · rw [hshare, Set.mem_sdiff, Set.mem_sdiff, Set.mem_singleton_iff]
    by_cases hr' : r' = r
    · subst hr'
      tauto
    · have hthis := hmine r'
      tauto

/-- No share changes. -/
theorem keep (h : Shares share taken) (hshare : ∀ j, share' j = share j) : Shares share' taken := by
  rw [show share' = share from funext hshare]
  exact h

/-- The same shares, the same resources taken. -/
theorem taken_eq (h : Shares share taken) (h' : Shares share' taken')
    (hshare : ∀ i, share' i = share i) : taken' = taken := by
  ext r
  rw [h.mem_taken, h'.mem_taken]
  exact exists_congr fun i => by rw [hshare]

theorem mem_of_mem (h : Shares share taken) {r : ρ} (hr : r ∈ share i) : r ∈ taken :=
  (h.mem_taken r).2 ⟨i, hr⟩

end Shares
