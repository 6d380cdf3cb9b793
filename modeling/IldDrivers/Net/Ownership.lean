import IldDrivers.Net.Crossing
import IldDrivers.Net.Header

/-!
# Who frees an `sk_buff` (`example-VI-02`, `example-VI-03`)

`NETDEV_TX_OK` and a negative error both tell the kernel that `example_start_xmit` has consumed the
packet. A call frees it through `sk_b` of the private structure, which keeps its value after the call.

* `Owned`: the invariant of one lane: what has been freed, and what the call in progress is to free;
* `start_xmit_frees_iff`: the runs in which each call frees its own `sk_buff`.
-/

namespace IldDrivers.ExampleVI03

variable {Skb : Type*}

/-- The `sk_buff` of the call in progress on the device. -/
def State.held (s : State Skb) (d : Device) : List (Option Skb) :=
  ((s.call d).map fun c => some c.submission.skb).toList

/-- The same, seen from the lane of the device. -/
def Lane.held (l : Lane Skb) : List (Option Skb) :=
  (l.call.map fun c => some c.submission.skb).toList

/-- What has been freed and what the call in progress is to free are the `sk_buff`s of the calls that
have been begun, and the private structure points to the last of these. -/
structure Owned (l : Lane Skb) (h : List (Event Skb)) : Prop where
  skB : ∀ c, l.call = some c → 0 < c.pc.rank → l.skB = some c.submission.skb
  freed : freed h ++ l.held = (submitted h).map fun x => some x.skb

section Lane

variable {u : Setup} {l l' : Lane Skb} {h : List (Event Skb)} {dst : Device} {c : Call Skb}

/-- A statement of a call other than the last. -/
theorem Owned.next {c' : Call Skb} {out : List (Event Skb)} (ho : Owned l h)
    (hcall : l.call = some c) (hcall' : l'.call = some c') (hsame : c'.submission = c.submission)
    (hpc : 0 < c.pc.rank) (hskB : l'.skB = l.skB) (hfreed : ExampleVI03.freed out = [])
    (hsub : submitted out = []) : Owned l' (h ++ out) where
  skB c'' hc'' _ := by
    obtain rfl := Option.some.inj (hcall'.symm.trans hc'')
    rw [hskB, hsame]
    exact ho.skB c hcall hpc
  freed := by
    have heq := ho.freed
    simp only [ExampleVI03.freed, submitted] at heq hfreed hsub ⊢
    rw [List.filterMap_append, List.filterMap_append, hfreed, hsub, List.append_nil, List.append_nil,
      ← heq]
    simp only [Lane.held, hcall, hcall', Option.map_some, hsame]

theorem owned_laneStep {out : List (Event Skb)} (ho : Owned l h)
    (hstep : LaneStep u dst l l' out) : Owned l' (h ++ out) := by
  have hfreed := ho.freed
  cases hstep with
  | submit x hcall =>
    refine ⟨fun c hc hpc => ?_, ?_⟩
    · obtain rfl := Option.some.inj hc
      simp [Pc.rank] at hpc
    · simp only [Lane.held, hcall, Option.map_none, Option.toList_none, List.append_nil] at hfreed
      simpa [ExampleVI03.freed, submitted, Lane.held] using hfreed
  | refuse x hlong =>
    refine ⟨ho.skB, ?_⟩
    simpa [ExampleVI03.freed, submitted] using hfreed
  | storeSkb c hcall hpc =>
    refine ⟨fun c' hc' _ => ?_, ?_⟩
    · obtain rfl := Option.some.inj hc'
      rfl
    · simpa [Lane.held, hcall] using hfreed
  | rewrites c data pc hcall hrewrites =>
    refine ho.next hcall rfl rfl ?_ rfl rfl rfl
    cases hrewrites with
    | src hpc | dst hpc | clear hpc | check hpc =>
      rw [hpc]
      decide
  | free c hcall hpc =>
    refine ⟨fun c' hc' => (by cases hc'), ?_⟩
    have hskB := ho.skB c hcall (by rw [hpc]; decide)
    simpa [ExampleVI03.freed, submitted, Lane.held, hcall, hskB] using hfreed
  | copyIn c hcall hpc | setLen c hcall hpc | alloc c ok hcall hpc | copyOut c hcall hpc
  | rxPackets c hcall hpc | rxBytes c hcall hpc | netifRx c hcall hpc | txPackets c hcall hpc
  | txBytes c hcall hpc =>
    refine ho.next hcall rfl rfl ?_ rfl rfl rfl
    rw [hpc]
    decide

/-- A device on which no call is in progress, whatever its `sk_b` points to. -/
theorem owned_idle (hidle : l.call = none) : Owned l [] where
  skB c hc := by
    rw [hidle] at hc
    cases hc
  freed := by
    rw [Lane.held, hidle]
    rfl

end Lane

section Programs

variable {u : Setup} {acts : List (Act Skb)} {s₀ s : State Skb} {log : List (Output Skb)}
  {d : Device}

theorem freed_counted (hidle : s₀.call d = none)
    (hrun : (system u Skb).exec s₀ acts = some (s, log)) :
    freed (part d log) ++ s.held d = (accepted d acts).map fun x => some x.skb := by
  rw [← (histories hrun d).1]
  exact (lane_induction (owned_idle hidle) owned_laneStep hrun).freed

/-- The calls that are not refused free their own `sk_buff`, in their order, and nothing else is
freed. -/
theorem freed_accepted (p : Program) (hidle : s₀.call d = none)
    (hrun : (p.system u Skb).exec s₀ acts = some (s, log)) :
    freed (part d log) ++ s.held d = (accepted d acts).map fun x => some x.skb := by
  cases p with
  | vi03 => exact freed_counted hidle hrun
  | vi02 =>
    obtain ⟨acts', t, hrun', ⟨stats, rfl⟩, hsame⟩ := ExampleVI02.exists_counted_run hrun
    have h := freed_counted hidle hrun'
    rw [accepted, hsame d] at h
    exact h

/-- The frames that are not too long, in terms of what the kernel gives. -/
theorem pad_length_le_iff {frame : List UInt8} :
    (pad frame).length ≤ ethDataLen ↔ frame.length ≤ ethDataLen := by
  rw [pad_length]
  have hle : ethZLen ≤ ethDataLen := by decide
  omega

/-- **Who frees what**: in every run of either program, from any state in which no call is in progress
on the device, with frames of any length and any results of `dev_alloc_skb`, what the calls on it
have freed and the call in progress is to free are the `sk_buff`s of the calls that were not
refused, each once, in their order; they are those of all calls exactly when no frame has more than
`ETH_DATA_LEN` bytes, since a call that returns `-ENOMEM` does not free its own. -/
theorem start_xmit_frees_iff (p : Program) (hidle : s₀.call d = none)
    (hrun : (p.system u Skb).exec s₀ acts = some (s, log)) :
    freed (part d log) ++ s.held d = (accepted d acts).map (fun x => some x.skb) ∧
      (freed (part d log) ++ s.held d = (xmits d acts).map (fun x => some x.skb) ↔
        ∀ x ∈ xmits d acts, x.frame.length ≤ ethDataLen) := by
  have hfreed := freed_accepted p hidle hrun
  refine ⟨hfreed, ?_⟩
  rw [hfreed]
  constructor
  · intro hall x hx
    -- a call that is refused would be missing
    have hlength := congrArg List.length hall
    rw [List.length_map, List.length_map] at hlength
    have hfits := List.length_filter_eq_length_iff.1 hlength x hx
    exact pad_length_le_iff.1 (of_decide_eq_true hfits)
  · intro hfits
    rw [accepted, List.filter_eq_self.2 fun x hx => decide_eq_true (pad_length_le_iff.2 (hfits x hx))]

theorem start_xmit_frees_iff_crossing :
    ∃ s log, (system checkingSetup ℕ).exec (init ℕ fun _ _ => 0) crossingActs = some (s, log) ∧
      freed (part .ex1 log) ++ s.held .ex1 = [some 8] := by
  obtain ⟨⟨s, log⟩, hrun, -⟩ := Option.map_eq_some_iff.1
    (show ((system checkingSetup ℕ).exec (init ℕ fun _ _ => 0) crossingActs).map
        (fun r => (r.1.call .ex1).isNone) = some true by decide +kernel)
  have hfits : ∀ x ∈ xmits .ex1 crossingActs, x.frame.length ≤ ethDataLen := by
    intro x hx
    simp [crossingActs, xmits] at hx
    subst hx
    decide +kernel
  exact ⟨s, log, hrun, (start_xmit_frees_iff .vi03 rfl hrun).2.2 hfits⟩

/-- A frame of one byte more than `ETH_DATA_LEN`. -/
def longFrame : Submission ℕ := ⟨7, List.replicate 1501 0, fun _ => 0⟩

/-- The call on it returns `-ENOMEM` and has freed nothing. -/
theorem long_frame_leaks :
    ∃ s log, (system exampleSetup ℕ).exec (init ℕ fun _ _ => 0) [.startXmit .ex0 longFrame] =
        some (s, log) ∧
      s.call .ex0 = none ∧ freed (part .ex0 log) = [] ∧
      ¬ freed (part .ex0 log) ++ s.held .ex0 =
        (xmits .ex0 [.startXmit .ex0 longFrame]).map (fun x => some x.skb) := by
  refine ⟨init ℕ fun _ _ => 0, [⟨.ex0, .refused 7 (-eNoMem)⟩], ?_, rfl, rfl, ?_⟩
  · have hlong : ethDataLen < (pad longFrame.frame).length := by decide +kernel
    simp only [System.exec, system, step, deviceStep, init, if_pos hlong]
    rfl
  · decide

end Programs

end IldDrivers.ExampleVI03
