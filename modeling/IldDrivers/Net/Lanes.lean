import IldDrivers.Net.Driver

/-!
# The two directions of `example-VI-03`

The two calls in progress share the private structures and the counters of both devices, but not
their fields: what a call on one device reads and writes is a *lane* of the state, and the other
call stays out of it.

* `State.lane`, `LaneStep`: the fields of one direction, and what the statements do to them;
* `deviceStep_lane`: a step of one device is one of its lane, and none of the other's.
-/

namespace IldDrivers.ExampleVI03

variable {Skb : Type*}

/-! ### Lanes -/

/-- What the call on a device reads and writes: `sk_b` of its own private structure, the buffer and
its length in that of the other device, the counters of reception of the other device and those of
transmission of its own. -/
structure Lane (Skb : Type*) where
  call : Option (Call Skb)
  skB : Option Skb
  data : Memory UInt8
  dataLen : ℕ
  rxPackets : ℕ
  rxBytes : ℕ
  txPackets : ℕ
  txBytes : ℕ

def State.lane (s : State Skb) (d : Device) : Lane Skb where
  call := s.call d
  skB := (s.priv d).skB
  data := (s.priv d.peer).data
  dataLen := (s.priv d.peer).dataLen
  rxPackets := (s.stats d.peer).rxPackets
  rxBytes := (s.stats d.peer).rxBytes
  txPackets := (s.stats d).txPackets
  txBytes := (s.stats d).txBytes

@[simp] theorem peer_peer (d : Device) : d.peer.peer = d := by
  cases d <;> rfl

@[simp] theorem peer_ne (d : Device) : d.peer ≠ d := by
  cases d <;> decide

@[simp] theorem ne_peer (d : Device) : d ≠ d.peer := (peer_ne d).symm

/-- The four statements that change the frame. -/
inductive Rewrites (u : Setup) (c : Call Skb) : List UInt8 → Pc → Prop
  | src (hpc : c.pc = .complementSrc) :
      Rewrites u c (complement srcOffset c.data) .complementDst
  | dst (hpc : c.pc = .complementDst) : Rewrites u c (complement dstOffset c.data) .clearCheck
  | clear (hpc : c.pc = .clearCheck) : Rewrites u c (setCheck (0, 0) c.data) .setCheck
  | check (hpc : c.pc = .setCheck) :
      Rewrites u c (setCheck (checksum u c.data c.submission.behind) c.data) .copyIn

/-- What a step does to the lane of its device; `dst` is the other device. -/
inductive LaneStep (u : Setup) (dst : Device) (l : Lane Skb) : Lane Skb → List (Event Skb) → Prop
  | submit (x : Submission Skb) (hcall : l.call = none) :
      LaneStep u dst l { l with call := some ⟨x, pad x.frame, [], .storeSkb⟩ } [.submitted x]
  | refuse (x : Submission Skb) (hlong : ethDataLen < (pad x.frame).length) :
      LaneStep u dst l l [.refused x.skb (-eNoMem)]
  | storeSkb (c : Call Skb) (hcall : l.call = some c) (hpc : c.pc = .storeSkb) :
      LaneStep u dst l
        { l with skB := some c.submission.skb, call := some { c with pc := .complementSrc } } []
  | rewrites (c : Call Skb) (data : List UInt8) (pc : Pc) (hcall : l.call = some c)
      (hrewrites : Rewrites u c data pc) :
      LaneStep u dst l { l with call := some { c with data := data, pc := pc } } []
  | copyIn (c : Call Skb) (hcall : l.call = some c) (hpc : c.pc = .copyIn) :
      LaneStep u dst l
        { l with data := l.data.store 0 c.data, call := some { c with pc := .setLen } } []
  | setLen (c : Call Skb) (hcall : l.call = some c) (hpc : c.pc = .setLen) :
      LaneStep u dst l
        { l with dataLen := c.data.length, call := some { c with pc := .alloc } } []
  | alloc (c : Call Skb) (ok : Bool) (hcall : l.call = some c) (hpc : c.pc = .alloc) :
      LaneStep u dst l
        { l with call := some { c with pc := if ok then .copyOut else .txPackets } }
        [.allocated ok]
  | copyOut (c : Call Skb) (hcall : l.call = some c) (hpc : c.pc = .copyOut) :
      LaneStep u dst l
        { l with call := some { c with rx := l.data.load 0 l.dataLen, pc := .rxPackets } } []
  | rxPackets (c : Call Skb) (hcall : l.call = some c) (hpc : c.pc = .rxPackets) :
      LaneStep u dst l
        { l with rxPackets := u.add l.rxPackets 1, call := some { c with pc := .rxBytes } } []
  | rxBytes (c : Call Skb) (hcall : l.call = some c) (hpc : c.pc = .rxBytes) :
      LaneStep u dst l
        { l with rxBytes := u.add l.rxBytes l.dataLen, call := some { c with pc := .netifRx } } []
  | netifRx (c : Call Skb) (hcall : l.call = some c) (hpc : c.pc = .netifRx) :
      LaneStep u dst l { l with call := some { c with pc := .txPackets } } [.netifRx dst c.rx]
  | txPackets (c : Call Skb) (hcall : l.call = some c) (hpc : c.pc = .txPackets) :
      LaneStep u dst l
        { l with txPackets := u.add l.txPackets 1, call := some { c with pc := .txBytes } } []
  | txBytes (c : Call Skb) (hcall : l.call = some c) (hpc : c.pc = .txBytes) :
      LaneStep u dst l
        { l with txBytes := u.add l.txBytes c.data.length, call := some { c with pc := .free } } []
  | free (c : Call Skb) (hcall : l.call = some c) (hpc : c.pc = .free) :
      LaneStep u dst l { l with call := none } [.freed l.skB]

section Steps

variable {u : Setup} {s s' : State Skb} {d : Device}

@[simp] theorem lane_setCall (c : Option (Call Skb)) :
    (s.setCall d c).lane d = { s.lane d with call := c } := by
  simp [State.lane, State.setCall]

@[simp] theorem lane_setCall_peer (c : Option (Call Skb)) :
    (s.setCall d c).lane d.peer = s.lane d.peer := by
  simp [State.lane, State.setCall]

/-- Changes to the private structures and the counters, seen from the device and from its peer. -/
theorem lane_setPriv_src (p : Priv Skb) (hdata : p.data = (s.priv d).data)
    (hlen : p.dataLen = (s.priv d).dataLen) :
    (s.setPriv d p).lane d = { s.lane d with skB := p.skB } ∧
      (s.setPriv d p).lane d.peer = s.lane d.peer := by
  simp [State.lane, State.setPriv, hdata, hlen]

theorem lane_setPriv_dst (p : Priv Skb) (hskB : p.skB = (s.priv d.peer).skB) :
    (s.setPriv d.peer p).lane d = { s.lane d with data := p.data, dataLen := p.dataLen } ∧
      (s.setPriv d.peer p).lane d.peer = s.lane d.peer := by
  simp [State.lane, State.setPriv, hskB]

theorem lane_setStats_src (t : Stats) (hpackets : t.rxPackets = (s.stats d).rxPackets)
    (hbytes : t.rxBytes = (s.stats d).rxBytes) :
    (s.setStats d t).lane d = { s.lane d with txPackets := t.txPackets, txBytes := t.txBytes } ∧
      (s.setStats d t).lane d.peer = s.lane d.peer := by
  simp [State.lane, State.setStats, hpackets, hbytes]

theorem lane_setStats_dst (t : Stats) (hpackets : t.txPackets = (s.stats d.peer).txPackets)
    (hbytes : t.txBytes = (s.stats d.peer).txBytes) :
    (s.setStats d.peer t).lane d =
        { s.lane d with rxPackets := t.rxPackets, rxBytes := t.rxBytes } ∧
      (s.setStats d.peer t).lane d.peer = s.lane d.peer := by
  simp [State.lane, State.setStats, hpackets, hbytes]

/-- A statement of the call on the device `d` is a step of its lane. -/
theorem runStep_lane {c : Call Skb} {out : List (Event Skb)} (hcall : s.call d = some c)
    (hstep : runStep u s d c = some (s', out)) :
    LaneStep u d.peer (s.lane d) (s'.lane d) out ∧ s'.lane d.peer = s.lane d.peer := by
  have hlane : (s.lane d).call = some c := hcall
  unfold runStep at hstep
  cases hpc : c.pc with
  | storeSkb =>
    rw [hpc] at hstep
    cases hstep
    obtain ⟨hself, hpeer⟩ := lane_setPriv_src (s := s) (d := d)
      { s.priv d with skB := some c.submission.skb } rfl rfl
    rw [lane_setCall, lane_setCall_peer, hself]
    exact ⟨.storeSkb c hlane hpc, hpeer⟩
  | complementSrc =>
    rw [hpc] at hstep
    cases hstep
    rw [lane_setCall, lane_setCall_peer]
    exact ⟨.rewrites c _ _ hlane (.src hpc), rfl⟩
  | complementDst =>
    rw [hpc] at hstep
    cases hstep
    rw [lane_setCall, lane_setCall_peer]
    exact ⟨.rewrites c _ _ hlane (.dst hpc), rfl⟩
  | clearCheck =>
    rw [hpc] at hstep
    cases hstep
    rw [lane_setCall, lane_setCall_peer]
    exact ⟨.rewrites c _ _ hlane (.clear hpc), rfl⟩
  | setCheck =>
    rw [hpc] at hstep
    cases hstep
    rw [lane_setCall, lane_setCall_peer]
    exact ⟨.rewrites c _ _ hlane (.check hpc), rfl⟩
  | copyIn =>
    rw [hpc] at hstep
    cases hstep
    obtain ⟨hself, hpeer⟩ := lane_setPriv_dst (s := s) (d := d)
      { s.priv d.peer with data := (s.priv d.peer).data.store 0 c.data } rfl
    rw [lane_setCall, lane_setCall_peer, hself]
    exact ⟨.copyIn c hlane hpc, hpeer⟩
  | setLen =>
    rw [hpc] at hstep
    cases hstep
    obtain ⟨hself, hpeer⟩ := lane_setPriv_dst (s := s) (d := d)
      { s.priv d.peer with dataLen := c.data.length } rfl
    rw [lane_setCall, lane_setCall_peer, hself]
    exact ⟨.setLen c hlane hpc, hpeer⟩
  | alloc =>
    rw [hpc] at hstep
    cases hstep
  | copyOut =>
    rw [hpc] at hstep
    cases hstep
    rw [lane_setCall, lane_setCall_peer]
    exact ⟨.copyOut c hlane hpc, rfl⟩
  | rxPackets =>
    rw [hpc] at hstep
    cases hstep
    obtain ⟨hself, hpeer⟩ := lane_setStats_dst (s := s) (d := d)
      { s.stats d.peer with rxPackets := u.add (s.stats d.peer).rxPackets 1 } rfl rfl
    rw [lane_setCall, lane_setCall_peer, hself]
    exact ⟨.rxPackets c hlane hpc, hpeer⟩
  | rxBytes =>
    rw [hpc] at hstep
    cases hstep
    obtain ⟨hself, hpeer⟩ := lane_setStats_dst (s := s) (d := d)
      { s.stats d.peer with
        rxBytes := u.add (s.stats d.peer).rxBytes (s.priv d.peer).dataLen } rfl rfl
    rw [lane_setCall, lane_setCall_peer, hself]
    exact ⟨.rxBytes c hlane hpc, hpeer⟩
  | netifRx =>
    rw [hpc] at hstep
    cases hstep
    rw [lane_setCall, lane_setCall_peer]
    exact ⟨.netifRx c hlane hpc, rfl⟩
  | txPackets =>
    rw [hpc] at hstep
    cases hstep
    obtain ⟨hself, hpeer⟩ := lane_setStats_src (s := s) (d := d)
      { s.stats d with txPackets := u.add (s.stats d).txPackets 1 } rfl rfl
    rw [lane_setCall, lane_setCall_peer, hself]
    exact ⟨.txPackets c hlane hpc, hpeer⟩
  | txBytes =>
    rw [hpc] at hstep
    cases hstep
    obtain ⟨hself, hpeer⟩ := lane_setStats_src (s := s) (d := d)
      { s.stats d with txBytes := u.add (s.stats d).txBytes c.data.length } rfl rfl
    rw [lane_setCall, lane_setCall_peer, hself]
    exact ⟨.txBytes c hlane hpc, hpeer⟩
  | free =>
    rw [hpc] at hstep
    cases hstep
    rw [lane_setCall, lane_setCall_peer]
    exact ⟨.free c hlane hpc, rfl⟩

/-- **A step of a device is one of its lane, and leaves the other lane as it is.** -/
theorem deviceStep_lane {a : Act Skb} {out : List (Event Skb)}
    (hstep : deviceStep u s a = some (s', out)) :
    LaneStep u a.device.peer (s.lane a.device) (s'.lane a.device) out ∧
      s'.lane a.device.peer = s.lane a.device.peer := by
  cases a with
  | startXmit d x =>
    simp only [deviceStep] at hstep
    cases hcall : s.call d with
    | some c => simp [hcall] at hstep
    | none =>
      simp only [hcall] at hstep
      split_ifs at hstep with hlong
      · cases hstep
        exact ⟨.refuse x hlong, rfl⟩
      · cases hstep
        simp only [Act.device]
        rw [lane_setCall, lane_setCall_peer]
        exact ⟨.submit x hcall, rfl⟩
  | alloc d ok =>
    obtain ⟨c, hcall, hstep⟩ := Option.bind_eq_some_iff.1 hstep
    by_cases hpc : c.pc = .alloc
    · rw [if_pos hpc] at hstep
      cases hstep
      simp only [Act.device]
      rw [lane_setCall, lane_setCall_peer]
      exact ⟨.alloc c ok hcall hpc, rfl⟩
    · rw [if_neg hpc] at hstep
      cases hstep
  | run d =>
    obtain ⟨c, hcall, hstep⟩ := Option.bind_eq_some_iff.1 hstep
    exact runStep_lane hcall hstep

end Steps

end IldDrivers.ExampleVI03
