import Mathlib.Data.List.Basic
import Mathlib.Data.List.Count
import Mathlib.Logic.Function.Basic
import Mathlib.Tactic.Cases

/-!
# Ledgers of resources

A program that acquires resources and releases them is judged by the list of what it does with
them. `Ledger.Sound` says that nothing is released or used that is not held then: no double
release, no use after the release. `Ledger.Balanced` says that each resource is released as often as
it is acquired: nothing leaks.

* `Ledger.held_add_count`: in a sound ledger, what is held is what has been acquired less what has
  been released;
* `Ledger.part`: the entries about one owner, when resources are named by an owner and a kind;
* `Ledger.sound_iff_parts`: a ledger is sound when the part of each owner is.
-/

/-- What is done with a resource. -/
inductive LedgerEntry (ρ : Type*)
  | acquire (r : ρ)
  | release (r : ρ)
  | use (r : ρ)
  deriving DecidableEq

def LedgerEntry.resource {ρ : Type*} : LedgerEntry ρ → ρ
  | .acquire r => r
  | .release r => r
  | .use r => r

namespace Ledger

section Resources

variable {ρ : Type*} [DecidableEq ρ]

/-- How often each resource is held after an entry. -/
def post (held : ρ → ℕ) : LedgerEntry ρ → ρ → ℕ
  | .acquire r => Function.update held r (held r + 1)
  | .release r => Function.update held r (held r - 1)
  | .use _ => held

/-- How often each resource is held after a ledger. -/
def after (held : ρ → ℕ) (log : List (LedgerEntry ρ)) : ρ → ℕ := log.foldl post held

/-- What an entry needs. -/
def Allowed (held : ρ → ℕ) : LedgerEntry ρ → Prop
  | .acquire _ => True
  | .release r => 0 < held r
  | .use r => 0 < held r

/-- Nothing is released or used that is not held then. -/
def Sound : (ρ → ℕ) → List (LedgerEntry ρ) → Prop
  | _, [] => True
  | held, e :: es => Allowed held e ∧ Sound (post held e) es

/-- Each resource is released as often as it is acquired. -/
def Balanced (log : List (LedgerEntry ρ)) : Prop :=
  ∀ r, log.count (.release r) = log.count (.acquire r)

instance (held : ρ → ℕ) (e : LedgerEntry ρ) : Decidable (Allowed held e) :=
  match e with
  | .acquire _ => instDecidableTrue
  | .release r => Nat.decLt 0 (held r)
  | .use r => Nat.decLt 0 (held r)

instance instDecidableSound : (held : ρ → ℕ) → (log : List (LedgerEntry ρ)) →
    Decidable (Sound held log)
  | _, [] => instDecidableTrue
  | held, e :: es =>
      @instDecidableAnd _ _ inferInstance (instDecidableSound (post held e) es)

/-- Only the resources that the ledger names matter. -/
theorem balanced_iff_forall_mem {log : List (LedgerEntry ρ)} :
    Balanced log ↔
      ∀ e ∈ log, log.count (.release e.resource) = log.count (.acquire e.resource) := by
  constructor
  · exact fun h e _ => h e.resource
  · intro h r
    by_cases hacquire : LedgerEntry.acquire r ∈ log
    · exact h _ hacquire
    · by_cases hrelease : LedgerEntry.release r ∈ log
      · exact h _ hrelease
      · rw [List.count_eq_zero.2 hacquire, List.count_eq_zero.2 hrelease]

instance (log : List (LedgerEntry ρ)) : Decidable (Balanced log) :=
  decidable_of_iff _ balanced_iff_forall_mem.symm

theorem after_append (held : ρ → ℕ) (log log' : List (LedgerEntry ρ)) :
    after held (log ++ log') = after (after held log) log' := List.foldl_append

theorem sound_append {held : ρ → ℕ} {log log' : List (LedgerEntry ρ)} :
    Sound held (log ++ log') ↔ Sound held log ∧ Sound (after held log) log' := by
  induction log generalizing held with
  | nil => simp [Sound, after]
  | cons e es ih =>
    rw [List.cons_append, Sound, Sound, ih, and_assoc]
    rfl

/-- No more is held than has been acquired. -/
theorem after_le (held : ρ → ℕ) (log : List (LedgerEntry ρ)) (r : ρ) :
    after held log r ≤ held r + log.count (.acquire r) := by
  induction log generalizing held with
  | nil => exact Nat.le_refl _
  | cons e es ih =>
    have hrest := ih (post held e)
    refine Nat.le_trans hrest ?_
    cases e with
    | acquire r' =>
      by_cases hr : r' = r
      · subst hr
        have hpost : post held (.acquire r') r' = held r' + 1 := Function.update_self ..
        rw [hpost, List.count_cons_self]
        omega
      · have hpost : post held (.acquire r') r = held r := Function.update_of_ne (Ne.symm hr) ..
        exact Nat.le_of_eq (by rw [hpost, List.count_cons_of_ne (by simpa using hr)])
    | release r' =>
      have hpost : post held (.release r') r ≤ held r := by
        by_cases hr : r' = r
        · subst hr
          rw [show post held (.release r') r' = held r' - 1 from Function.update_self ..]
          exact Nat.sub_le _ _
        · exact Nat.le_of_eq (Function.update_of_ne (Ne.symm hr) ..)
      rw [List.count_cons_of_ne (by simp)]
      omega
    | use r' => exact Nat.le_of_eq (by rw [List.count_cons_of_ne (by simp)]; rfl)

/-- What is held once at most, released and not acquired again is not held. -/
theorem after_eq_zero {held : ρ → ℕ} {log : List (LedgerEntry ρ)} {r : ρ} (hheld : held r ≤ 1)
    (hacquire : LedgerEntry.acquire r ∉ log) (hrelease : LedgerEntry.release r ∈ log) :
    after held log r = 0 := by
  obtain ⟨front, back, rfl⟩ := List.append_of_mem hrelease
  simp only [List.mem_append, List.mem_cons, not_or] at hacquire
  have hfront := after_le held front r
  rw [List.count_eq_zero.2 hacquire.1] at hfront
  have hpost : post (after held front) (.release r) r = after held front r - 1 :=
    Function.update_self ..
  have hback := after_le (post (after held front) (.release r)) back r
  rw [List.count_eq_zero.2 hacquire.2.2, hpost] at hback
  have hsplit : after held (front ++ .release r :: back) =
      after (post (after held front) (.release r)) back := after_append held front _
  rw [hsplit]
  omega

/-- In a sound ledger, what is held at the end and what has been released are what was held at the
start and what has been acquired. -/
theorem held_add_count {held : ρ → ℕ} {log : List (LedgerEntry ρ)} (h : Sound held log) (r : ρ) :
    after held log r + log.count (.release r) = held r + log.count (.acquire r) := by
  induction log generalizing held with
  | nil => rfl
  | cons e es ih =>
    have hrest := ih h.2
    have hfirst := h.1
    have hnext : after held (e :: es) = after (post held e) es := rfl
    rw [hnext]
    cases e with
    | acquire r' =>
      have hreleased : (LedgerEntry.acquire r' :: es).count (.release r) = es.count (.release r) := by
        simp
      by_cases hr : r' = r
      · subst hr
        have hpost : post held (.acquire r') r' = held r' + 1 := Function.update_self ..
        rw [hreleased, List.count_cons_self]
        omega
      · have hpost : post held (.acquire r') r = held r := Function.update_of_ne (Ne.symm hr) ..
        rw [hreleased, hrest, hpost, List.count_cons_of_ne (by simpa using hr)]
    | release r' =>
      have hacquired : (LedgerEntry.release r' :: es).count (.acquire r) = es.count (.acquire r) := by
        simp
      by_cases hr : r' = r
      · subst hr
        have hpost : post held (.release r') r' = held r' - 1 := Function.update_self ..
        have hheld : 0 < held r' := hfirst
        rw [hacquired, List.count_cons_self]
        omega
      · have hpost : post held (.release r') r = held r := Function.update_of_ne (Ne.symm hr) ..
        rw [hacquired, ← hpost, ← hrest, List.count_cons_of_ne (by simpa using hr)]
    | use r' =>
      rw [List.count_cons_of_ne (by simp), List.count_cons_of_ne (by simp), hrest]
      rfl

/-- A sound ledger is balanced when it leaves what is held as it was. -/
theorem balanced_of_after_eq {held : ρ → ℕ} {log : List (LedgerEntry ρ)} (h : Sound held log)
    (hafter : ∀ r, after held log r = held r) : Balanced log := by
  intro r
  have hcount := held_add_count h r
  rw [hafter r] at hcount
  omega

end Resources

/-! ### Resources named by an owner and a kind -/

section Parts

variable {ι κ : Type*} [DecidableEq ι] [DecidableEq κ]

/-- The entry, made for the owner `i`. -/
def tag (i : ι) : LedgerEntry κ → LedgerEntry (ι × κ)
  | .acquire k => .acquire (i, k)
  | .release k => .release (i, k)
  | .use k => .use (i, k)

/-- The kind of resource, if the entry is about the owner `i`. -/
def untag (i : ι) : LedgerEntry (ι × κ) → Option (LedgerEntry κ)
  | .acquire r => if r.1 = i then some (.acquire r.2) else none
  | .release r => if r.1 = i then some (.release r.2) else none
  | .use r => if r.1 = i then some (.use r.2) else none

/-- The entries about the owner `i`. -/
def part (i : ι) (log : List (LedgerEntry (ι × κ))) : List (LedgerEntry κ) :=
  log.filterMap (untag i)

omit [DecidableEq κ] in
theorem part_append (i : ι) (log log' : List (LedgerEntry (ι × κ))) :
    part i (log ++ log') = part i log ++ part i log' := List.filterMap_append

omit [DecidableEq κ] in
@[simp] theorem untag_tag_self (i : ι) (e : LedgerEntry κ) : untag i (tag i e) = some e := by
  cases e <;> simp [tag, untag]

omit [DecidableEq κ] in
theorem untag_tag_of_ne {i j : ι} (h : i ≠ j) (e : LedgerEntry κ) : untag i (tag j e) = none := by
  cases e <;> simp [tag, untag, h.symm]

omit [DecidableEq κ] in
theorem part_map_tag_self (i : ι) (log : List (LedgerEntry κ)) : part i (log.map (tag i)) = log := by
  unfold part
  rw [List.filterMap_map]
  simp

omit [DecidableEq κ] in
theorem part_map_tag_of_ne {i j : ι} (h : i ≠ j) (log : List (LedgerEntry κ)) :
    part i (log.map (tag j)) = [] := by
  unfold part
  rw [List.filterMap_map]
  simp [untag_tag_of_ne h]

omit [DecidableEq ι] [DecidableEq κ] in
theorem exists_tag (e : LedgerEntry (ι × κ)) : ∃ i e', e = tag i e' := by
  cases e with
  | acquire r => exact ⟨r.1, .acquire r.2, rfl⟩
  | release r => exact ⟨r.1, .release r.2, rfl⟩
  | use r => exact ⟨r.1, .use r.2, rfl⟩

omit [DecidableEq ι] [DecidableEq κ] in
theorem allowed_tag {held : ι × κ → ℕ} {i : ι} {e : LedgerEntry κ} :
    Allowed held (tag i e) ↔ Allowed (fun k => held (i, k)) e := by
  cases e <;> rfl

theorem post_tag_self (held : ι × κ → ℕ) (i : ι) (e : LedgerEntry κ) :
    (fun k => post held (tag i e) (i, k)) = post (fun k => held (i, k)) e := by
  funext k
  cases e with
  | acquire k' => by_cases hk : k = k' <;> simp [post, tag, hk]
  | release k' => by_cases hk : k = k' <;> simp [post, tag, hk]
  | use k' => rfl

theorem post_tag_of_ne (held : ι × κ → ℕ) {i j : ι} (h : i ≠ j) (e : LedgerEntry κ) :
    (fun k => post held (tag j e) (i, k)) = fun k => held (i, k) := by
  funext k
  cases e with
  | acquire k' => simp [post, tag, h]
  | release k' => simp [post, tag, h]
  | use k' => rfl

/-- A ledger made for one owner changes what that owner holds. -/
theorem after_map_tag_self (held : ι × κ → ℕ) (i : ι) (log : List (LedgerEntry κ)) :
    (fun k => after held (log.map (tag i)) (i, k)) = after (fun k => held (i, k)) log := by
  induction log generalizing held with
  | nil => rfl
  | cons e es ih =>
    have hstep := ih (post held (tag i e))
    rw [post_tag_self] at hstep
    exact hstep

/-- It changes nothing of what another owner holds. -/
theorem after_map_tag_of_ne (held : ι × κ → ℕ) {i j : ι} (h : i ≠ j)
    (log : List (LedgerEntry κ)) :
    (fun k => after held (log.map (tag j)) (i, k)) = fun k => held (i, k) := by
  induction log generalizing held with
  | nil => rfl
  | cons e es ih =>
    have hstep := ih (post held (tag j e))
    rw [post_tag_of_ne held h] at hstep
    exact hstep

/-- **A ledger is sound when the part of each owner is.** -/
theorem sound_iff_parts {held : ι × κ → ℕ} {log : List (LedgerEntry (ι × κ))} :
    Sound held log ↔ ∀ i, Sound (fun k => held (i, k)) (part i log) := by
  induction log generalizing held with
  | nil => simp [Sound, part]
  | cons e es ih =>
    obtain ⟨j, e, rfl⟩ := exists_tag e
    have hself : part j (tag j e :: es) = e :: part j es := by simp [part]
    have hother : ∀ i, i ≠ j → part i (tag j e :: es) = part i es := fun i hi => by
      simp [part, untag_tag_of_ne hi]
    rw [Sound, ih, allowed_tag]
    constructor
    · rintro ⟨hallowed, hrest⟩ i
      by_cases hi : i = j
      · subst hi
        rw [hself, Sound, ← post_tag_self]
        exact ⟨hallowed, hrest i⟩
      · rw [hother i hi, ← post_tag_of_ne held hi e]
        exact hrest i
    · intro h
      have hj := h j
      rw [hself, Sound, ← post_tag_self] at hj
      refine ⟨hj.1, fun i => ?_⟩
      by_cases hi : i = j
      · exact hi ▸ hj.2
      · rw [post_tag_of_ne held hi e, ← hother i hi]
        exact h i

/-- A ledger made for one owner is sound when what it does is. -/
theorem sound_map_tag {held : ι × κ → ℕ} {i : ι} {log : List (LedgerEntry κ)} :
    Sound held (log.map (tag i)) ↔ Sound (fun k => held (i, k)) log := by
  rw [sound_iff_parts]
  constructor
  · intro h
    have hi := h i
    rwa [part_map_tag_self] at hi
  · intro h j
    by_cases hj : j = i
    · rw [hj, part_map_tag_self]
      exact h
    · rw [part_map_tag_of_ne hj]
      trivial

omit [DecidableEq ι] [DecidableEq κ] in
theorem tag_injective (i : ι) : Function.Injective (tag i : LedgerEntry κ → LedgerEntry (ι × κ)) := by
  intro e e' h
  cases e <;> cases e' <;> simp_all [tag]

/-- The ledger of one owner is balanced when its entries are. -/
theorem balanced_map_tag {i : ι} {log : List (LedgerEntry κ)} :
    Balanced (log.map (tag i)) ↔ Balanced log := by
  have hcount : ∀ e, (log.map (tag i)).count (tag i e) = log.count e := fun e =>
    List.count_map_of_injective log (tag i) (tag_injective i) e
  constructor
  · intro h k
    rw [← hcount (.release k), ← hcount (.acquire k)]
    exact h (i, k)
  · rintro h ⟨j, k⟩
    by_cases hj : j = i
    · subst hj
      exact (hcount (.release k)).trans ((h k).trans (hcount (.acquire k)).symm)
    · have hnone : ∀ e : LedgerEntry κ, tag j e ∉ log.map (tag i) := by
        intro e hmem
        obtain ⟨e', -, he⟩ := List.mem_map.1 hmem
        cases e <;> cases e' <;> simp_all [tag]
      exact (List.count_eq_zero.2 (hnone (.release k))).trans
        (List.count_eq_zero.2 (hnone (.acquire k))).symm

end Parts

end Ledger
