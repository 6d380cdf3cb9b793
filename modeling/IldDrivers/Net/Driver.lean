import IldDrivers.Kernel
import IldDrivers.Lib.Transition
import Mathlib.Tactic

/-!
# Two linked network devices (`example-VI-03`)

What is sent on `ex0` arrives on `ex1`, and the other way round: `example_start_xmit` pads the frame,
changes its addresses to those of another network, copies it to the private structure of the other
device and calls the two interrupt handlers, of reception for the other device and of transmission
for its own. The kernel has at most one call of it in progress on each device; the two calls run at
the same time, without a lock.

* `rewritten`: the frame that a call makes of the one it is given;
* `step`: the statements of the calls, in any order of the two devices. `dev_alloc_skb` is in the
  hands of the schedule.

`ip_fast_csum` is the kernel's: it is given the memory from the IP header on, which goes on behind the
frame. A frame is changed in place, in a buffer of its own. `netdev_priv` is never NULL.
-/

namespace IldDrivers.ExampleVI03

inductive Device
  | ex0
  | ex1
  deriving DecidableEq

/-- `dst`. -/
def Device.peer : Device → Device
  | .ex0 => .ex1
  | .ex1 => .ex0

/-- What is fixed for a run: the machine, and `ip_fast_csum`, with the two bytes it gives in
memory. -/
structure Setup where
  abi : Abi
  ipFastCsum : (ℕ → UInt8) → ℕ → UInt8 × UInt8

/-- A call of `example_start_xmit`: the `sk_buff`, its bytes, and the memory behind these, or behind
the packet that replaces them. -/
structure Submission (Skb : Type*) where
  skb : Skb
  frame : List UInt8
  behind : ℕ → UInt8

/-! ### Frames -/

/-- `ETH_ZLEN`. -/
def ethZLen : ℕ := 60

/-- `ETH_DATA_LEN`. -/
def ethDataLen : ℕ := 1500

/-- The frame, or the `short_packet` that replaces it. -/
def pad (frame : List UInt8) : List UInt8 :=
  if frame.length < ethZLen then frame ++ List.replicate (ethZLen - frame.length) 0 else frame

/-- The offsets in a frame of the IP header, of its checksum and of the third bytes of its source and
destination addresses. -/
def ipHeader : ℕ := 14
def checkOffset : ℕ := ipHeader + 10
def srcOffset : ℕ := ipHeader + 12 + 2
def dstOffset : ℕ := ipHeader + 16 + 2

/-- `*ptr = 255 - *ptr`. -/
def complement (offset : ℕ) (data : List UInt8) : List UInt8 := data.modify offset (255 - ·)

/-- `ip_header->check = …`. -/
def setCheck (check : UInt8 × UInt8) (data : List UInt8) : List UInt8 :=
  (data.set checkOffset check.1).set (checkOffset + 1) check.2

/-- The memory from the IP header on. -/
def headerMemory (data : List UInt8) (behind : ℕ → UInt8) (i : ℕ) : UInt8 :=
  (data[ipHeader + i]?).getD (behind (ipHeader + i - data.length))

/-- `ip_fast_csum((unsigned char *) ip_header, ip_header->ihl)`. -/
def checksum (u : Setup) (data : List UInt8) (behind : ℕ → UInt8) : UInt8 × UInt8 :=
  u.ipFastCsum (headerMemory data behind) ((headerMemory data behind 0).toNat % 16)

/-- The frame with a new checksum, of the header in which the checksum is 0. -/
def withChecksum (u : Setup) (behind : ℕ → UInt8) (data : List UInt8) : List UInt8 :=
  setCheck (checksum u (setCheck (0, 0) data) behind) (setCheck (0, 0) data)

/-- The frame padded, with the third bytes of its addresses complemented and a new checksum. -/
def rewritten {Skb : Type*} (u : Setup) (x : Submission Skb) : List UInt8 :=
  withChecksum u x.behind (complement dstOffset (complement srcOffset (pad x.frame)))

/-! ### The machine -/

/-- The statement that a call is about to execute; from `alloc` to `netifRx` it is one of
`example_irq_rx_handler`, and `free` is that of `example_irq_tx_handler`. -/
inductive Pc
  /-- `src_priv->sk_b = sk_b`. -/
  | storeSkb
  | complementSrc
  | complementDst
  | clearCheck
  | setCheck
  /-- `memcpy(dst_priv->data, data, len)`. -/
  | copyIn
  /-- `dst_priv->data_len = len`. -/
  | setLen
  /-- `dev_alloc_skb(priv->data_len)`. -/
  | alloc
  /-- `skb_put` and `memcpy(data, priv->data, priv->data_len)`. -/
  | copyOut
  | rxPackets
  | rxBytes
  | netifRx
  | txPackets
  | txBytes
  /-- `dev_kfree_skb(priv->sk_b)`, and the end of the call. -/
  | free
  deriving DecidableEq

/-- A call in progress: `data`, with its `len` bytes, the bytes of the `sk_buff` that the handler of
reception has allocated, and the next statement. -/
structure Call (Skb : Type*) where
  submission : Submission Skb
  data : List UInt8
  rx : List UInt8
  pc : Pc

/-- `struct example_net_dev_priv`. -/
structure Priv (Skb : Type*) where
  skB : Option Skb
  data : Memory UInt8
  dataLen : ℕ

/-- The counters of `net_dev->stats`, `unsigned long`. -/
structure Stats where
  rxPackets : ℕ
  rxBytes : ℕ
  txPackets : ℕ
  txBytes : ℕ

structure State (Skb : Type*) where
  priv : Device → Priv Skb
  stats : Device → Stats
  call : Device → Option (Call Skb)

inductive Act (Skb : Type*)
  /-- The kernel calls `example_start_xmit` on the device. -/
  | startXmit (d : Device) (x : Submission Skb)
  /-- The call on the device executes `dev_alloc_skb`, which succeeds or not. -/
  | alloc (d : Device) (ok : Bool)
  /-- It executes any other statement. -/
  | run (d : Device)

inductive Event (Skb : Type*)
  | submitted (x : Submission Skb)
  /-- The call returns this at once. -/
  | refused (skb : Skb) (ret : ℤ)
  | allocated (ok : Bool)
  /-- `netif_rx` of an `sk_buff` with this `dev` and these bytes. -/
  | netifRx (dev : Device) (frame : List UInt8)
  | freed (skb : Option Skb)

/-- What the call on a device does. -/
structure Output (Skb : Type*) where
  src : Device
  event : Event Skb

variable {Skb : Type*}

/-- `unsigned long` addition. -/
def Setup.add (u : Setup) (x y : ℕ) : ℕ := (x + y) % 2 ^ u.abi.longBits

def State.setCall (s : State Skb) (d : Device) (c : Option (Call Skb)) : State Skb :=
  { s with call := Function.update s.call d c }

def State.setPriv (s : State Skb) (d : Device) (p : Priv Skb) : State Skb :=
  { s with priv := Function.update s.priv d p }

def State.setStats (s : State Skb) (d : Device) (t : Stats) : State Skb :=
  { s with stats := Function.update s.stats d t }

/-- One statement, other than `dev_alloc_skb`, of the call `c` on the device `src`. -/
def runStep (u : Setup) (s : State Skb) (src : Device) (c : Call Skb) :
    Option (State Skb × List (Event Skb)) :=
  let dst := src.peer
  let srcPriv := s.priv src
  let dstPriv := s.priv dst
  let srcStats := s.stats src
  let dstStats := s.stats dst
  match c.pc with
  | .storeSkb =>
      some ((s.setPriv src { srcPriv with skB := some c.submission.skb }).setCall src
        (some { c with pc := .complementSrc }), [])
  | .complementSrc =>
      some (s.setCall src
        (some { c with data := complement srcOffset c.data, pc := .complementDst }), [])
  | .complementDst =>
      some (s.setCall src
        (some { c with data := complement dstOffset c.data, pc := .clearCheck }), [])
  | .clearCheck =>
      some (s.setCall src (some { c with data := setCheck (0, 0) c.data, pc := .setCheck }), [])
  | .setCheck =>
      some (s.setCall src (some { c with
        data := setCheck (checksum u c.data c.submission.behind) c.data, pc := .copyIn }), [])
  | .copyIn =>
      some ((s.setPriv dst { dstPriv with data := dstPriv.data.store 0 c.data }).setCall src
        (some { c with pc := .setLen }), [])
  | .setLen =>
      some ((s.setPriv dst { dstPriv with dataLen := c.data.length }).setCall src
        (some { c with pc := .alloc }), [])
  | .alloc => none
  | .copyOut =>
      some (s.setCall src
        (some { c with rx := dstPriv.data.load 0 dstPriv.dataLen, pc := .rxPackets }), [])
  | .rxPackets =>
      some ((s.setStats dst { dstStats with rxPackets := u.add dstStats.rxPackets 1 }).setCall src
        (some { c with pc := .rxBytes }), [])
  | .rxBytes =>
      some ((s.setStats dst { dstStats with
        rxBytes := u.add dstStats.rxBytes dstPriv.dataLen }).setCall src
        (some { c with pc := .netifRx }), [])
  | .netifRx => some (s.setCall src (some { c with pc := .txPackets }), [.netifRx dst c.rx])
  | .txPackets =>
      some ((s.setStats src { srcStats with txPackets := u.add srcStats.txPackets 1 }).setCall src
        (some { c with pc := .txBytes }), [])
  | .txBytes =>
      some ((s.setStats src { srcStats with
        txBytes := u.add srcStats.txBytes c.data.length }).setCall src
        (some { c with pc := .free }), [])
  | .free => some (s.setCall src none, [.freed srcPriv.skB])

/-- The part of a step that the device takes. -/
def deviceStep (u : Setup) (s : State Skb) : Act Skb → Option (State Skb × List (Event Skb))
  | .startXmit d x =>
      match s.call d with
      | some _ => none
      | none =>
        if ethDataLen < (pad x.frame).length then some (s, [.refused x.skb (-eNoMem)])
        else some (s.setCall d (some ⟨x, pad x.frame, [], .storeSkb⟩), [.submitted x])
  | .alloc d ok =>
      (s.call d).bind fun c =>
        if c.pc = .alloc then
          some (s.setCall d (some { c with pc := if ok then .copyOut else .txPackets }),
            [.allocated ok])
        else none
  | .run d => (s.call d).bind (runStep u s d)

def Act.device : Act Skb → Device
  | .startXmit d _ => d
  | .alloc d _ => d
  | .run d => d

def step (u : Setup) (s : State Skb) (a : Act Skb) : Option (State Skb × List (Output Skb)) :=
  (deviceStep u s a).map fun r => (r.1, r.2.map (Output.mk a.device))

def system (u : Setup) (Skb : Type*) : System (State Skb) (Act Skb) (Output Skb) := ⟨step u⟩

/-- The devices just registered, with whatever is in `data`. -/
def init (Skb : Type*) (data : Device → Memory UInt8) : State Skb where
  priv d := ⟨none, data d, 0⟩
  stats _ := ⟨0, 0, 0, 0⟩
  call _ := none

end IldDrivers.ExampleVI03
