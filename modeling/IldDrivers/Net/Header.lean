import IldDrivers.Net.Rewriting

/-!
# The frames that `example-VI-03` admits

`ether_setup` gives the devices an MTU of `ETH_DATA_LEN` bytes, which does not count the header of 14
bytes that `example_hard_header` puts in front of a packet. `example_start_xmit` refuses a frame of
more than `ETH_DATA_LEN` bytes, header included.

* `hardHeader`: a packet with its header;
* `Carried`: the call on a frame is not refused, never waits, and ends after it has handed the frame
  to `netif_rx` if there is memory;
* `carried_iff`: the packets for which it does.
-/

namespace IldDrivers.ExampleVI03

variable {Skb : Type*}

/-! ### Headers -/

/-- `ETH_HLEN`, `hard_header_len` and, for `example_hard_header`, what it returns. -/
def ethHLen : ℕ := 14

/-- The MTU after `ether_setup`. -/
def mtu : ℕ := ethDataLen

/-- An address of `ETH_ALEN` bytes. -/
abbrev EthAddr := Fin 6 → UInt8

/-- `dev_addr`, after `example_open`. -/
def hwAddress : Device → EthAddr
  | .ex0 => ![0x00, 0x12, 0x34, 0x56, 0x78, 0x00]
  | .ex1 => ![0x00, 0x12, 0x34, 0x56, 0x78, 0x01]

/-- `example_hard_header`: `h_dest`, `h_source` and `h_proto` in front of the packet. -/
def hardHeader (netDev : Device) (type : UInt16) (dstAddr srcAddr : Option EthAddr)
    (packet : List UInt8) : List UInt8 :=
  let hSource := srcAddr.getD (hwAddress netDev)
  let hDest := dstAddr.getD (hwAddress netDev)
  let hDest := Function.update hDest 5 (if hDest 5 = 0 then 1 else 0)
  let hProto := [UInt8.ofNat (type.toNat / 256), UInt8.ofNat (type.toNat % 256)]
  List.ofFn hDest ++ List.ofFn hSource ++ hProto ++ packet

theorem hardHeader_length (netDev : Device) (type : UInt16) (dstAddr srcAddr : Option EthAddr)
    (packet : List UInt8) :
    (hardHeader netDev type dstAddr srcAddr packet).length = ethHLen + packet.length := by
  simp only [hardHeader, List.length_append, List.length_ofFn, List.length_cons, List.length_nil,
    ethHLen]

theorem pad_length (frame : List UInt8) : (pad frame).length = max ethZLen frame.length := by
  unfold pad
  split_ifs with hshort
  · rw [List.length_append, List.length_replicate]
    omega
  · omega

/-! ### Carried frames -/

/-- What a call has done when it has come to the statement at `n`, for a frame that is to be handed
to the device `dst`. -/
inductive Done (dst : Device) (x : Submission Skb) : ℕ → List (Event Skb) → Prop
  | stored {n : ℕ} (hn : n ≤ 7) : Done dst x n []
  | granted {n : ℕ} (hn : 7 < n) (hn' : n ≤ 11) : Done dst x n [.allocated true]
  | lost {n : ℕ} (hn : 11 < n) : Done dst x n [.allocated false]
  | handed {n : ℕ} (hn : 11 < n) (frame : List UInt8)
      (hframe : frame.length = max ethZLen x.frame.length) :
      Done dst x n [.allocated true, .netifRx dst frame]

/-- What a call has done when it returns `NETDEV_TX_OK`, after the release of its `sk_buff`. -/
def Finished (dst : Device) (x : Submission Skb) (h : List (Event Skb)) : Prop :=
  ∃ h', Done dst x 14 h' ∧ h = h' ++ [.freed (some x.skb)]

/-- The number of statements that the call on the device has executed. -/
def turns (d : Device) (acts : List (Act Skb)) : ℕ := (acts.filter fun a => a.device = d).length

/-- The call on `x` is accepted; from then on, whatever the other device does, the call can execute its
next statement or has returned, after at most 15 statements, and it has then handed its frame to
`netif_rx` on the other device if `dev_alloc_skb` has succeeded. -/
def Carried (u : Setup) (s : State Skb) (d : Device) (x : Submission Skb) : Prop :=
  ∃ s₁, step u s (.startXmit d x) = some (s₁, [⟨d, .submitted x⟩]) ∧
    ∀ acts s₂ log, (system u Skb).exec s₁ acts = some (s₂, log) →
      (∀ y, Act.startXmit d y ∉ acts) →
      turns d acts ≤ 15 ∧ (s₂.call d = none → Finished d.peer x (part d log)) ∧
        (s₂.call d ≠ none → (step u s₂ (.run d)).isSome ∨ ∀ ok, (step u s₂ (.alloc d ok)).isSome)

section Progress

variable {u : Setup} {l l' : Lane Skb} {x : Submission Skb} {h hist : List (Event Skb)}

/-- The events with which a call begins. -/
def Event.opens : Event Skb → Bool
  | .submitted _ | .refused _ _ => true
  | _ => false

theorem opens_of_step {s s' : State Skb} {a : Act Skb} {out : List (Event Skb)}
    (ha : ∀ x, a ≠ .startXmit a.device x) (hstep : deviceStep u s a = some (s', out)) :
    ∀ e ∈ out, e.opens = false := by
  cases a with
  | startXmit d x => exact absurd rfl (ha x)
  | alloc d ok =>
    obtain ⟨c, -, halloc⟩ := Option.bind_eq_some_iff.1 hstep
    by_cases hpc : c.pc = .alloc
    · rw [if_pos hpc] at halloc
      cases halloc
      simp [Event.opens]
    · rw [if_neg hpc] at halloc
      cases halloc
  | run d =>
    obtain ⟨c, -, hrun⟩ := Option.bind_eq_some_iff.1 hstep
    unfold runStep at hrun
    cases hpc : c.pc with
    | alloc =>
      rw [hpc] at hrun
      cases hrun
    | _ =>
      rw [hpc] at hrun
      cases hrun
      simp [Event.opens]

/-- The position of a lane in its call. -/
def Lane.rank (l : Lane Skb) : ℕ :=
  match l.call with
  | none => 15
  | some c => c.pc.rank

/-- Where a call is and what it has done. -/
def Lane.Carrying (dst : Device) (x : Submission Skb) (l : Lane Skb) (h : List (Event Skb)) : Prop :=
  match l.call with
  | none => Finished dst x h
  | some c => c.submission = x ∧ Done dst x c.pc.rank h

theorem Pc.rank_le (pc : Pc) : pc.rank ≤ 14 := by
  cases pc <;> decide

theorem Lane.rank_le (l : Lane Skb) : l.rank ≤ 15 := by
  unfold Lane.rank
  cases l.call with
  | none => exact le_rfl
  | some c => exact c.pc.rank_le.trans (by decide)

/-- Each statement is followed by one further on. -/
theorem rank_lt_of_laneStep {dst : Device} {out : List (Event Skb)}
    (hopens : ∀ e ∈ out, e.opens = false) (hstep : LaneStep u dst l l' out) : l.rank < l'.rank := by
  cases hstep with
  | submit x hcall => simp [Event.opens] at hopens
  | refuse x hlong => simp [Event.opens] at hopens
  | rewrites c data pc hcall hrewrites =>
    cases hrewrites with
    | src hpc | dst hpc | clear hpc | check hpc =>
      simp only [Lane.rank, hcall, hpc]
      decide
  | alloc c ok hcall hpc =>
    simp only [Lane.rank, hcall, hpc]
    cases ok <;> decide
  | storeSkb c hcall hpc | copyIn c hcall hpc | setLen c hcall hpc | copyOut c hcall hpc
  | rxPackets c hcall hpc | rxBytes c hcall hpc | netifRx c hcall hpc | txPackets c hcall hpc
  | txBytes c hcall hpc | free c hcall hpc =>
    simp only [Lane.rank, hcall, hpc]
    decide

/-- A statement without an event, between the same two events. -/
theorem Done.next {dst : Device} {n n' : ℕ} (hdone : Done dst x n h) (hle : n ≤ n')
    (h7 : n' ≤ 7 ∨ 7 < n) (h11 : n' ≤ 11 ∨ 11 < n) : Done dst x n' h := by
  cases hdone with
  | stored hn => exact .stored (by omega)
  | granted hn hn' => exact .granted (by omega) (by omega)
  | lost hn => exact .lost (by omega)
  | handed hn frame hframe => exact .handed (by omega) frame hframe

/-- A statement without an event. -/
theorem carrying_next {dst : Device} {c c' : Call Skb} (hc : l.Carrying dst x h)
    (hcall : l.call = some c) (hcall' : l'.call = some c') (hsub : c'.submission = c.submission)
    (hnext : c.pc.rank ≤ c'.pc.rank ∧ (c'.pc.rank ≤ 7 ∨ 7 < c.pc.rank) ∧
      (c'.pc.rank ≤ 11 ∨ 11 < c.pc.rank)) : l'.Carrying dst x (h ++ []) := by
  simp only [Lane.Carrying, hcall, hcall', List.append_nil] at hc ⊢
  obtain ⟨hx, hdone⟩ := hc
  exact ⟨hsub.trans hx, hdone.next hnext.1 hnext.2.1 hnext.2.2⟩

theorem carrying_laneStep {dst : Device} {out : List (Event Skb)} (hk : Kept u l hist)
    (hc : l.Carrying dst x h) (hopens : ∀ e ∈ out, e.opens = false)
    (hstep : LaneStep u dst l l' out) : l'.Carrying dst x (h ++ out) := by
  cases hstep with
  | submit y hcall => simp [Event.opens] at hopens
  | refuse y hlong => simp [Event.opens] at hopens
  | rewrites c data pc hcall hrewrites =>
    cases hrewrites with
    | src hpc | dst hpc | clear hpc | check hpc =>
      exact carrying_next hc hcall rfl rfl (by simp [hpc, Pc.rank])
  | alloc c ok hcall hpc =>
    simp only [Lane.Carrying, hcall, hpc] at hc
    obtain ⟨hsub, hdone⟩ := hc
    cases hdone with
    | stored hn =>
      cases ok with
      | false => exact ⟨hsub, .lost (by simp [Pc.rank])⟩
      | true => exact ⟨hsub, .granted (by simp [Pc.rank]) (by simp [Pc.rank])⟩
    | granted hn hn' => exact absurd hn (by decide)
    | lost hn => exact absurd hn (by decide)
    | handed hn frame hframe => exact absurd hn (by decide)
  | netifRx c hcall hpc =>
    have hrx := (hk.call c hcall).1.rx (by rw [hpc]; decide) (by rw [hpc]; decide)
    simp only [Lane.Carrying, hcall, hpc] at hc
    obtain ⟨hsub, hdone⟩ := hc
    have hlength : c.rx.length = max ethZLen x.frame.length := by
      rw [hrx, rewritten_length, hsub, pad_length]
    cases hdone with
    | stored hn => exact absurd hn (by decide)
    | granted hn hn' => exact ⟨hsub, .handed (by simp [Pc.rank]) c.rx hlength⟩
    | lost hn => exact absurd hn (by decide)
    | handed hn frame hframe => exact absurd hn (by decide)
  | free c hcall hpc =>
    have hskB := (hk.call c hcall).1.skB (by rw [hpc]; decide)
    simp only [Lane.Carrying, hcall, hpc] at hc
    obtain ⟨hsub, hdone⟩ := hc
    exact ⟨h, hdone, by rw [hskB, hsub]⟩
  | storeSkb c hcall hpc | copyIn c hcall hpc | setLen c hcall hpc | copyOut c hcall hpc
  | rxPackets c hcall hpc | rxBytes c hcall hpc | txPackets c hcall hpc | txBytes c hcall hpc =>
    exact carrying_next hc hcall rfl rfl (by simp [hpc, Pc.rank])

end Progress

section Runs

variable {u : Setup} {s s' : State Skb} {d : Device} {x : Submission Skb}
  {acts : List (Act Skb)} {log hist : List (Output Skb)}

/-- A step while the call is in progress: one of its statements, or one of the other device. -/
theorem step_lane {a : Act Skb} (ha : ∀ y, a ≠ .startXmit d y)
    (hstep : step u s a = some (s', log)) :
    (a.device = d ∧ LaneStep u d.peer (s.lane d) (s'.lane d) (part d log) ∧
        ∀ e ∈ part d log, e.opens = false) ∨
      (a.device ≠ d ∧ s'.lane d = s.lane d ∧ part d log = []) := by
  obtain ⟨⟨t, out⟩, hdevice, heq⟩ := Option.map_eq_some_iff.1 hstep
  cases heq
  obtain ⟨hlane, hpeer⟩ := deviceStep_lane hdevice
  rcases eq_or_eq_peer a.device d with rfl | rfl
  · rw [part_self]
    exact .inl ⟨rfl, hlane, opens_of_step ha hdevice⟩
  · rw [part_of_ne (ne_peer _)]
    exact .inr ⟨ne_peer _, hpeer, rfl⟩

theorem turns_cons (d : Device) (a : Act Skb) (acts : List (Act Skb)) :
    turns d (a :: acts) = (if a.device = d then 1 else 0) + turns d acts := by
  unfold turns
  by_cases hd : a.device = d
  · rw [List.filter_cons_of_pos (by simpa using hd), if_pos hd, List.length_cons, Nat.add_comm]
  · rw [List.filter_cons_of_neg (by simpa using hd), if_neg hd, Nat.zero_add]

/-- A call has no more statements than there are. -/
theorem rank_add_turns_le (hrun : (system u Skb).exec s acts = some (s', log))
    (hacts : ∀ y, Act.startXmit d y ∉ acts) :
    (s.lane d).rank + turns d acts ≤ (s'.lane d).rank := by
  induction acts generalizing s log with
  | nil =>
    cases hrun
    exact le_rfl
  | cons a acts ih =>
    obtain ⟨t, out, outs, hstep, hrest, -⟩ := System.exec_cons.1 hrun
    have hle := ih hrest fun y hy => hacts y (List.mem_cons_of_mem a hy)
    have ha : ∀ y, a ≠ .startXmit d y := fun y h => hacts y (h ▸ List.mem_cons_self)
    rw [turns_cons]
    rcases step_lane ha hstep with ⟨hd, hlane, hopens⟩ | ⟨hd, hlane, -⟩
    · have hlt := rank_lt_of_laneStep hopens hlane
      rw [if_pos hd]
      omega
    · rw [if_neg hd, ← hlane]
      omega

/-- What the call has done in any run since it was accepted. -/
theorem carrying_exec (hk : ∀ d, Kept u (s.lane d) (part d hist))
    (hc : (s.lane d).Carrying d.peer x [])
    (hrun : (system u Skb).exec s acts = some (s', log))
    (hacts : ∀ y, Act.startXmit d y ∉ acts) : (s'.lane d).Carrying d.peer x (part d log) := by
  have halong : (system u Skb).Along (fun _ a => ∀ y, a ≠ .startXmit d y) s acts := by
    have hother : ∀ a ∈ acts, ∀ y, a ≠ .startXmit d y := by
      intro a ha y hy
      rw [hy] at ha
      exact hacts y ha
    exact System.along_of_forall hother s
  refine (System.exec_induction_along
    (I := fun s log => (∀ d, Kept u (s.lane d) (part d (hist ++ log))) ∧
      (s.lane d).Carrying d.peer x (part d log)) ?_ ⟨by simpa using hk, hc⟩ halong hrun).2
  intro s log a s' out hI ha hstep
  obtain ⟨hkept, hcarrying⟩ := hI
  have hnext := kept_step hkept hstep
  rw [List.append_assoc] at hnext
  refine ⟨hnext, ?_⟩
  rw [part_append]
  rcases step_lane ha hstep with ⟨-, hlane, hopens⟩ | ⟨-, hlane, hout⟩
  · exact carrying_laneStep (hkept d) hcarrying hopens hlane
  · rw [hlane, hout, List.append_nil]
    exact hcarrying

/-- A call in progress is never blocked. -/
theorem enabled_of_call (u : Setup) {c : Call Skb} (hcall : s.call d = some c) :
    (step u s (.run d)).isSome ∨ ∀ ok, (step u s (.alloc d ok)).isSome := by
  by_cases hpc : c.pc = .alloc
  · refine .inr fun ok => ?_
    simp only [step, deviceStep, hcall, Option.bind_some, if_pos hpc]
    rfl
  · refine .inl ?_
    have hrun : (runStep u s d c).isSome := by
      unfold runStep
      cases hcase : c.pc with
      | alloc => exact absurd hcase hpc
      | _ => rfl
    simpa only [step, deviceStep, hcall, Option.bind_some, Option.isSome_map] using hrun

theorem carried_of_fits (hk : ∀ d, Kept u (s.lane d) (part d hist)) (hidle : s.call d = none)
    (hfits : (pad x.frame).length ≤ ethDataLen) : Carried u s d x := by
  have hstep : step u s (.startXmit d x) =
      some (s.setCall d (some ⟨x, pad x.frame, [], .storeSkb⟩), [⟨d, .submitted x⟩]) := by
    simp only [step, deviceStep, hidle, if_neg (not_lt.2 hfits)]
    rfl
  refine ⟨_, hstep, fun acts s₂ log hrun hacts => ?_⟩
  have hlane : (s.setCall d (some ⟨x, pad x.frame, [], .storeSkb⟩)).lane d =
      { s.lane d with call := some ⟨x, pad x.frame, [], .storeSkb⟩ } := lane_setCall _
  have hcarrying := carrying_exec (x := x) (kept_step hk hstep)
    (by rw [hlane]; exact ⟨rfl, .stored (by simp [Pc.rank])⟩) hrun hacts
  have hturns := rank_add_turns_le hrun hacts
  have hrank := (s₂.lane d).rank_le
  refine ⟨by omega, fun hend => ?_, fun hcall => ?_⟩
  · have hnone : (s₂.lane d).call = none := hend
    simpa only [Lane.Carrying, hnone] using hcarrying
  · obtain ⟨c, hc⟩ := Option.ne_none_iff_exists'.1 hcall
    exact enabled_of_call u hc

/-- A frame that is too long is refused. -/
theorem not_carried_of_long (hidle : s.call d = none) (hlong : ethDataLen < (pad x.frame).length) :
    step u s (.startXmit d x) = some (s, [⟨d, .refused x.skb (-eNoMem)⟩]) ∧ ¬ Carried u s d x := by
  have hstep : step u s (.startXmit d x) = some (s, [⟨d, .refused x.skb (-eNoMem)⟩]) := by
    simp only [step, deviceStep, hidle, if_pos hlong]
    rfl
  refine ⟨hstep, ?_⟩
  rintro ⟨s₁, hstep₁, -⟩
  rw [hstep] at hstep₁
  cases hstep₁

end Runs

/-- **The frames that are carried**: in every state of every run in which no call on the device is in
progress, the call on a packet with the header of `example_hard_header` is accepted and ends as it
should exactly when the packet is at least 14 bytes shorter than the MTU. -/
theorem carried_iff {u : Setup} {acts : List (Act Skb)} {s : State Skb} {log : List (Output Skb)}
    {data : Device → Memory UInt8}
    (hrun : (system u Skb).exec (init Skb data) acts = some (s, log)) (d : Device)
    (hidle : s.call d = none) (type : UInt16) (dstAddr srcAddr : Option EthAddr)
    (packet : List UInt8) (skb : Skb) (behind : ℕ → UInt8) :
    Carried u s d ⟨skb, hardHeader d type dstAddr srcAddr packet, behind⟩ ↔
      packet.length ≤ mtu - ethHLen := by
  have hlength : (pad (hardHeader d type dstAddr srcAddr packet)).length =
      max ethZLen (ethHLen + packet.length) := by
    rw [pad_length, hardHeader_length]
  have hfits : (pad (hardHeader d type dstAddr srcAddr packet)).length ≤ ethDataLen ↔
      packet.length ≤ mtu - ethHLen := by
    rw [hlength]
    unfold mtu ethZLen ethHLen ethDataLen
    omega
  rw [← hfits]
  constructor
  · intro hcarried
    by_contra hlong
    exact (not_carried_of_long hidle (not_le.1 hlong)).2 hcarried
  · intro h
    exact carried_of_fits (kept_exec hrun) hidle h

theorem carried_iff_init :
    Carried checkingSetup (init ℕ fun _ _ => 0) .ex0
      ⟨7, hardHeader .ex0 0x0800 none none (List.replicate 1486 0), fun _ => 0⟩ :=
  have hrun : (system checkingSetup ℕ).exec (init ℕ fun _ _ => 0) [] =
      some (init ℕ fun _ _ => 0, []) := rfl
  (carried_iff hrun .ex0 rfl 0x0800 none none (List.replicate 1486 0) 7 fun _ => 0).2
    (by rw [List.length_replicate]; decide)

/-- One byte more, which the MTU allows by far. -/
theorem full_packet_refused :
    (List.replicate 1487 (0 : UInt8)).length ≤ mtu ∧
      step checkingSetup (init ℕ fun _ _ => 0) (.startXmit .ex0
          ⟨7, hardHeader .ex0 0x0800 none none (List.replicate 1487 0), fun _ => 0⟩) =
        some (init ℕ fun _ _ => 0, [⟨.ex0, .refused 7 (-eNoMem)⟩]) ∧
      ¬ Carried checkingSetup (init ℕ fun _ _ => 0) .ex0
        ⟨7, hardHeader .ex0 0x0800 none none (List.replicate 1487 0), fun _ => 0⟩ := by
  refine ⟨by rw [List.length_replicate]; decide, not_carried_of_long rfl ?_⟩
  rw [pad_length, hardHeader_length, List.length_replicate]
  decide

end IldDrivers.ExampleVI03
