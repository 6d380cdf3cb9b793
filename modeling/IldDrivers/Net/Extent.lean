import IldDrivers.Net.Header

/-!
# What `example-VI-03` reads and writes as an IP header

`example_start_xmit` looks for the IP header behind the 14 bytes of the Ethernet header, and takes the
number of words for `ip_fast_csum` from the frame. The frame has 60 bytes at least, a header has up
to 60.

* `Call.headerBytes`: the bytes that the next statement of a call reads or writes through
  `ip_header`;
* `HeaderFits`: the header that a frame announces ends in the padded frame;
* `header_inside_iff`: the runs in which no call leaves its frame.
-/

namespace IldDrivers.ExampleVI03

variable {Skb : Type*}

/-- The bytes of `data` that the next statement reads or writes as IP header: the third bytes of
`saddr` and of `daddr`, `check`, then `ihl`, the words given to `ip_fast_csum` and `check` again. -/
def Call.headerBytes (c : Call Skb) : List ℕ :=
  match c.pc with
  | .complementSrc => [srcOffset]
  | .complementDst => [dstOffset]
  | .clearCheck => [checkOffset, checkOffset + 1]
  | .setCheck =>
      ipHeader :: (List.range (4 * ihl c.data)).map (ipHeader + ·) ++ [checkOffset, checkOffset + 1]
  | _ => []

/-- They are all in `data`. -/
def Call.Inside (c : Call Skb) : Prop := ∀ i ∈ c.headerBytes, i < c.data.length

/-- The header of the frame, with the length that its first byte gives, ends in the padded frame. -/
def HeaderFits (frame : List UInt8) : Prop := ipHeader + 4 * ihl (pad frame) ≤ (pad frame).length

/-- The calls in progress on the device stay inside. -/
def State.Inside (s : State Skb) (d : Device) : Prop := ∀ c, s.call d = some c → c.Inside

section Statements

variable {u : Setup} {x : Submission Skb}

@[simp] theorem staged_length (pc : Pc) : (staged u x pc).length = (pad x.frame).length := by
  cases pc <;> simp [staged]

/-- The length of the header is not changed before the checksum is computed. -/
theorem ihl_staged_setCheck : ihl (staged u x .setCheck) = ihl (pad x.frame) := by
  rw [staged, ihl_setCheck]
  apply ihl_congr
  rw [getElem?_complement_of_ne (by decide), getElem?_complement_of_ne (by decide)]

theorem ethZLen_le_pad (frame : List UInt8) : ethZLen ≤ (pad frame).length := by
  rw [pad_length]
  exact le_max_left _ _

/-- Only the checksum can leave the frame. -/
theorem inside_iff {c : Call Skb} (hdata : c.data = staged u c.submission c.pc) :
    c.Inside ↔ (c.pc = .setCheck → HeaderFits c.submission.frame) := by
  have hmin := ethZLen_le_pad c.submission.frame
  have hlength : c.data.length = (pad c.submission.frame).length := by rw [hdata, staged_length]
  have hoffsets : srcOffset < ethZLen ∧ dstOffset < ethZLen ∧ checkOffset + 1 < ethZLen ∧
      ipHeader < ethZLen := by decide
  obtain ⟨hsrc, hdst, hcheck, hip⟩ := hoffsets
  unfold Call.Inside Call.headerBytes
  rw [hlength]
  cases hpc : c.pc with
  | complementSrc =>
    simp only [List.mem_singleton, forall_eq, reduceCtorEq, false_implies, iff_true]
    exact hsrc.trans_le hmin
  | complementDst =>
    simp only [List.mem_singleton, forall_eq, reduceCtorEq, false_implies, iff_true]
    exact hdst.trans_le hmin
  | clearCheck =>
    simp only [reduceCtorEq, false_implies, iff_true, List.forall_mem_cons]
    exact ⟨by omega, by omega, by simp⟩
  | setCheck =>
    have hihl : ihl c.data = ihl (pad c.submission.frame) := by
      rw [hdata, hpc, ihl_staged_setCheck]
    simp only [hihl, true_implies, HeaderFits, List.cons_append, List.forall_mem_cons,
      List.forall_mem_append, List.forall_mem_map, List.mem_range]
    constructor
    · rintro ⟨-, hwords, -⟩
      by_contra hshort
      -- the last of the words ends behind the frame
      have hlast := hwords (4 * ihl (pad c.submission.frame) - 1) (by omega)
      omega
    · intro hfits
      exact ⟨by omega, fun i hi => by omega, by omega, by omega, by simp⟩
  | _ => simp

end Statements

section Runs

variable {u : Setup} {acts : List (Act Skb)} {s : State Skb} {log : List (Output Skb)}
  {data : Device → Memory UInt8} {l l' : Lane Skb} {h : List (Event Skb)}

/-- A call in progress that has not gone through `ip_fast_csum`. -/
def Lane.unchecked (l : Lane Skb) : List (Submission Skb) := l.due 0 4 [] fun c => [c.submission]

/-- The calls that have gone through `ip_fast_csum` stayed inside. -/
structure Summed (u : Setup) (l : Lane Skb) (h : List (Event Skb)) : Prop where
  kept : Kept u l h
  fits : ∃ xs, submitted h = xs ++ l.unchecked ∧ ∀ x ∈ xs, HeaderFits x.frame

/-- A statement before the checksum, or behind it. -/
theorem Summed.next {out : List (Event Skb)} (hs : Summed u l h) (hk : Kept u l' (h ++ out))
    (hsub : submitted out = []) (hsame : l'.unchecked = l.unchecked) : Summed u l' (h ++ out) where
  kept := hk
  fits := by
    obtain ⟨xs, hxs, hfits⟩ := hs.fits
    have happend : submitted (h ++ out) = submitted h ++ submitted out := List.filterMap_append
    refine ⟨xs, ?_, hfits⟩
    rw [happend, hsub, List.append_nil, hsame, hxs]

theorem summed_laneStep {dst : Device} {out : List (Event Skb)} (hs : Summed u l h)
    (hinside : ∀ c, l.call = some c → c.Inside) (hstep : LaneStep u dst l l' out) :
    Summed u l' (h ++ out) := by
  have hk := kept_laneStep hs.kept hstep
  cases hstep with
  | submit x hcall =>
    obtain ⟨xs, hxs, hfits⟩ := hs.fits
    refine ⟨hk, xs, ?_, hfits⟩
    simp only [Lane.unchecked, Lane.due, hcall, List.append_nil] at hxs
    simpa [submitted, Lane.unchecked, Lane.due, Pc.rank] using hxs
  | refuse x hlong => exact hs.next hk rfl rfl
  | rewrites c data pc hcall hrewrites =>
    cases hrewrites with
    | src hpc | dst hpc | clear hpc =>
      refine hs.next hk rfl ?_
      simp [Lane.unchecked, Lane.due, hcall, hpc, Pc.rank]
    | check hpc =>
      -- the call passes the checksum
      obtain ⟨xs, hxs, hfits⟩ := hs.fits
      have hdata := (hs.kept.call c hcall).1.data
      have hthis := (inside_iff hdata).1 (hinside c hcall) hpc
      refine ⟨hk, xs ++ [c.submission], ?_, ?_⟩
      · simpa [Lane.unchecked, Lane.due, hcall, hpc, Pc.rank] using hxs
      · intro x hx
        rcases List.mem_append.1 hx with hx | hx
        · exact hfits x hx
        · rw [List.mem_singleton.1 hx]
          exact hthis
  | alloc c ok hcall hpc =>
    refine hs.next hk rfl ?_
    cases ok <;> simp [Lane.unchecked, Lane.due, hcall, hpc, Pc.rank]
  | storeSkb c hcall hpc | copyIn c hcall hpc | setLen c hcall hpc | copyOut c hcall hpc
  | rxPackets c hcall hpc | rxBytes c hcall hpc | netifRx c hcall hpc | txPackets c hcall hpc
  | txBytes c hcall hpc | free c hcall hpc =>
    refine hs.next hk rfl ?_
    simp [Lane.unchecked, Lane.due, hcall, hpc, Pc.rank]

/-- If no call has left its frame, the headers of those that are over fitted. -/
theorem fits_of_always (hrun : (system u Skb).exec (init Skb data) acts = some (s, log)) {d : Device}
    (hidle : s.call d = none)
    (hinside : (system u Skb).Always (fun s => s.Inside d) (init Skb data) acts) :
    ∀ x ∈ accepted d acts, HeaderFits x.frame := by
  have hsummed : Summed u (s.lane d) (part d log) := by
    refine System.exec_induction_along (I := fun s log => Summed u (s.lane d) (part d log)) ?_ ?_
      hinside.along hrun
    · intro s log a s' out hs hin hstep
      rw [part_append]
      rcases laneStep_of_step hstep d with hlane | ⟨hlane, hout⟩
      · exact summed_laneStep hs hin hlane
      · rw [hlane, hout, List.append_nil]
        exact hs
    · exact ⟨kept_init data d, [], rfl, by simp⟩
  obtain ⟨xs, hxs, hfits⟩ := hsummed.fits
  have hcall : (s.lane d).call = none := hidle
  rw [(histories hrun d).1, Lane.unchecked, Lane.due, hcall, List.append_nil] at hxs
  rw [hxs]
  exact hfits

/-- A call in progress after a step was in progress before it, or is begun by it. -/
theorem submission_laneStep {dst : Device} {out : List (Event Skb)}
    (hstep : LaneStep u dst l l' out) {c' : Call Skb} (hc' : l'.call = some c') :
    (∃ c, l.call = some c ∧ c.submission = c'.submission) ∨ c'.submission ∈ submitted out := by
  cases hstep with
  | submit x hcall =>
    obtain rfl := Option.some.inj hc'
    exact .inr (by simp [submitted])
  | refuse x hlong => exact .inl ⟨c', hc', rfl⟩
  | free c hcall hpc => cases hc'
  | rewrites c data pc hcall hrewrites =>
    obtain rfl := Option.some.inj hc'
    exact .inl ⟨c, hcall, rfl⟩
  | alloc c ok hcall hpc | storeSkb c hcall hpc | copyIn c hcall hpc | setLen c hcall hpc
  | copyOut c hcall hpc | rxPackets c hcall hpc | rxBytes c hcall hpc | netifRx c hcall hpc
  | txPackets c hcall hpc | txBytes c hcall hpc =>
    obtain rfl := Option.some.inj hc'
    exact .inl ⟨c, hcall, rfl⟩

/-- The invariant of a run of frames whose headers fit. -/
structure Fitting (u : Setup) (l : Lane Skb) : Prop where
  kept : ∃ h, Kept u l h
  fits : ∀ c, l.call = some c → HeaderFits c.submission.frame

theorem fitting_laneStep {dst : Device} {out : List (Event Skb)} (hf : Fitting u l)
    (hout : ∀ x ∈ submitted out, HeaderFits x.frame) (hstep : LaneStep u dst l l' out) :
    Fitting u l' where
  kept := by
    obtain ⟨h, hk⟩ := hf.kept
    exact ⟨_, kept_laneStep hk hstep⟩
  fits c' hc' := by
    rcases submission_laneStep hstep hc' with ⟨c, hc, hsame⟩ | hnew
    · rw [← hsame]
      exact hf.fits c hc
    · exact hout _ hnew

/-- A call with such a frame stays inside it. -/
theorem Fitting.inside {d : Device} (hf : Fitting u (s.lane d)) : s.Inside d := by
  intro c hc
  obtain ⟨h, hk⟩ := hf.kept
  have hcall : (s.lane d).call = some c := hc
  exact (inside_iff (hk.call c hcall).1.data).2 fun _ => hf.fits c hcall

theorem mem_accepted_of_mem {d : Device} {a : Act Skb} (ha : a ∈ acts) {x : Submission Skb}
    (hx : x ∈ accepted d [a]) : x ∈ accepted d acts := by
  obtain ⟨before, after, rfl⟩ := List.append_of_mem ha
  rw [accepted_append, ← List.singleton_append, accepted_append]
  exact List.mem_append_right _ (List.mem_append_left _ hx)

/-- If all headers fit, no call leaves its frame. -/
theorem always_of_fits {d : Device} (hfits : ∀ x ∈ accepted d acts, HeaderFits x.frame) :
    (system u Skb).Always (fun s => s.Inside d) (init Skb data) acts := by
  have hall : ∀ a ∈ acts, ∀ x ∈ accepted d [a], HeaderFits x.frame := fun a ha x hx =>
    hfits x (mem_accepted_of_mem ha hx)
  have halong := System.along_of_forall (S := system u Skb) hall (init Skb data)
  refine (System.always_of_along (J := fun s => Fitting u (s.lane d)) ?_ ?_ halong).mono
    fun s hf => hf.inside
  · intro s a s' out hf ha hstep
    rw [← submitted_step hstep d] at ha
    rcases laneStep_of_step hstep d with hlane | ⟨hlane, -⟩
    · exact fitting_laneStep hf ha hlane
    · rw [hlane]
      exact hf
  · exact ⟨⟨[], kept_init data d⟩, fun c hc => by cases hc⟩

/-- **What is read and written as IP header**: in every run, no call on a device reads or writes a
byte of the header outside the padded frame if the headers of the accepted frames, which take their
length from the frame, end in it; and once no call on the device is in progress, only if they do. -/
theorem header_inside_iff (hrun : (system u Skb).exec (init Skb data) acts = some (s, log))
    (d : Device) :
    ((∀ x ∈ accepted d acts, HeaderFits x.frame) →
        (system u Skb).Always (fun s => s.Inside d) (init Skb data) acts) ∧
      (s.call d = none →
        ((system u Skb).Always (fun s => s.Inside d) (init Skb data) acts ↔
          ∀ x ∈ accepted d acts, HeaderFits x.frame)) := by
  refine ⟨always_of_fits, fun hidle => ⟨?_, always_of_fits⟩⟩
  exact fits_of_always hrun hidle

end Runs

instance (frame : List UInt8) : Decidable (HeaderFits frame) := inferInstanceAs (Decidable (_ ≤ _))

theorem header_inside_iff_crossing :
    ∃ s log, (system exampleSetup ℕ).exec (init ℕ fun _ _ => 0) exampleActs = some (s, log) ∧
      (system exampleSetup ℕ).Always (fun s => s.Inside .ex0) (init ℕ fun _ _ => 0) exampleActs := by
  obtain ⟨⟨s, log⟩, hrun, hval⟩ := Option.map_eq_some_iff.1
    (show ((system exampleSetup ℕ).exec (init ℕ fun _ _ => 0) exampleActs).map
        (fun r => (r.1.call .ex0).isNone) = some true by decide +kernel)
  refine ⟨s, log, hrun, ((header_inside_iff hrun .ex0).2 (Option.isNone_iff_eq_none.1 hval)).2 ?_⟩
  intro x hx
  simp [exampleActs, accepted, xmits] at hx
  rw [hx.1]
  decide +kernel

/-- A frame of 60 bytes whose first byte of IP header announces fifteen words. -/
def greedyFrame : Submission ℕ :=
  ⟨7, List.replicate 14 0 ++ [0x4F] ++ List.replicate 45 0, fun _ => 0⟩

/-- The last word given to `ip_fast_csum` for it is behind the frame. -/
theorem checksum_leaves_frame :
    ∃ s log c, (system exampleSetup ℕ).exec (init ℕ fun _ _ => 0)
        (.startXmit .ex0 greedyFrame :: List.replicate 4 (.run .ex0)) = some (s, log) ∧
      s.call .ex0 = some c ∧ 73 ∈ c.headerBytes ∧ c.data.length = 60 ∧ ¬ s.Inside .ex0 := by
  obtain ⟨⟨s, log⟩, hrun, hval⟩ := Option.map_eq_some_iff.1
    (show ((system exampleSetup ℕ).exec (init ℕ fun _ _ => 0)
        (.startXmit .ex0 greedyFrame :: List.replicate 4 (.run .ex0))).map
        (fun r => (r.1.call .ex0).map fun c => (c.headerBytes.contains 73, c.data.length)) =
          some (some (true, 60)) by decide +kernel)
  obtain ⟨c, hcall, hbytes⟩ := Option.map_eq_some_iff.1 hval
  simp only [Prod.mk.injEq, List.contains_iff_mem] at hbytes
  refine ⟨s, log, c, hrun, hcall, hbytes.1, hbytes.2, fun hinside => ?_⟩
  have hlt := hinside c hcall 73 hbytes.1
  omega

end IldDrivers.ExampleVI03
