import IldDrivers.Kernel
import IldDrivers.Lib.History
import IldDrivers.Lib.Ledger
import IldDrivers.Lib.Transition
import Mathlib.Data.PNat.Defs
import Mathlib.Tactic

/-!
# Plugging and unplugging the board (`example-VII-05`)

`example_probe` keeps a reference to the USB device, looks for its two interrupt endpoints and
acquires a URB and a transfer buffer for each, and a minor; its failures go through five labels, each
of which falls through to the next. `example_disconnect` gives everything back. What they have
acquired stands in global variables, which live on from one device to the next.

A pointer is modelled by the number of the probe that has acquired what it points to, `none` for
NULL; the descriptors of the endpoints are those of the machine's byte order.

* `probe`, `disconnect`: the two functions, with what they do with resources;
* `system`: the USB core, for one device at a time;
* `Accounted`: after a failed probe and after a disconnect, everything acquired has been released and
  the global variables are NULL;
* `accounted_iff_succeeds`: no run reaches such a point so, because of the reference;
* `rest_accounted`: but for the reference, all runs do.
-/

namespace IldDrivers.ExampleVII.Plug

/-! ### The functions -/

/-- The fields of `struct usb_endpoint_descriptor` that the driver reads. -/
structure EndpointDescriptor where
  bEndpointAddress : UInt8
  bmAttributes : UInt8
  wMaxPacketSize : UInt16

def usbDirIn : UInt8 := 0x80
def usbEndpointXferTypeMask : UInt8 := 0x03
def usbEndpointXferInt : UInt8 := 3

/-- `EXAMPLE_OUT_BUFFER_SIZE` and `EXAMPLE_IN_BUFFER_SIZE`. -/
def exampleBufferSize : UInt16 := 8

inductive Resource
  /-- A reference to the `usb_device`. -/
  | usbDevice
  | outUrb
  | inUrb
  | outBuffer
  | inBuffer
  | minor
  deriving DecidableEq

abbrev Entry := LedgerEntry (ℕ × Resource)

/-- The global variables. -/
structure Globals where
  usbDevice : Option ℕ
  outEndpoint : Option EndpointDescriptor
  inEndpoint : Option EndpointDescriptor
  outUrb : Option ℕ
  inUrb : Option ℕ
  outBuffer : Option ℕ
  inBuffer : Option ℕ
  outBusy : ℤ
  inBusy : ℤ

/-- What the calls inside a probe return: a failure is `false`, or a negative error number, given by
its absolute value. -/
structure Outcomes where
  outUrb : Bool
  inUrb : Bool
  outBuffer : Bool
  inBuffer : Bool
  registerDev : Option ℕ+

/-- The body of the loop over the endpoints. -/
def selectEndpoint (g : Globals) (d : EndpointDescriptor) : Globals :=
  if d.bEndpointAddress &&& usbDirIn ≠ 0 then
    if d.bmAttributes &&& usbEndpointXferTypeMask = usbEndpointXferInt then
      { g with inEndpoint := some d }
    else g
  else
    if d.bmAttributes &&& usbEndpointXferTypeMask = usbEndpointXferInt then
      { g with outEndpoint := some d }
    else g

/-- `kfree`, `usb_free_urb` or `usb_deregister_dev`, which do nothing if there is nothing. -/
def free (r : Resource) : Option ℕ → List Entry
  | none => []
  | some n => [.release (n, r)]

/-- What `example_probe` returns, the global variables after it, and what it does with resources. -/
structure Probed where
  ret : ℤ
  globals : Globals
  log : List Entry

/-- The label `exit_null`. -/
def exitNull (g : Globals) (err : ℤ) (log : List Entry) : Probed :=
  ⟨err, { g with inEndpoint := none, outEndpoint := none, usbDevice := none }, log⟩

/-- The label `exit_free_out_urb`. -/
def exitFreeOutUrb (g : Globals) (err : ℤ) (log : List Entry) : Probed :=
  exitNull { g with outUrb := none } err (log ++ free .outUrb g.outUrb)

/-- The label `exit_free_in_urb`. -/
def exitFreeInUrb (g : Globals) (err : ℤ) (log : List Entry) : Probed :=
  exitFreeOutUrb { g with inUrb := none } err (log ++ free .inUrb g.inUrb)

/-- The label `exit_free_out_buf`. -/
def exitFreeOutBuf (g : Globals) (err : ℤ) (log : List Entry) : Probed :=
  exitFreeInUrb { g with outBuffer := none } err (log ++ free .outBuffer g.outBuffer)

/-- The label `exit_free_in_buf`. -/
def exitFreeInBuf (g : Globals) (err : ℤ) (log : List Entry) : Probed :=
  exitFreeOutBuf { g with inBuffer := none } err (log ++ free .inBuffer g.inBuffer)

/-- What the allocation of the resource `r` returns, and what it adds to the ledger. -/
def alloc (n : ℕ) (r : Resource) (ok : Bool) : Option ℕ × List Entry :=
  if ok then (some n, [.acquire (n, r)]) else (none, [])

/-- `example_probe` after the loop over the endpoints. -/
def acquireAll (n : ℕ) (g : Globals) (o : Outcomes) (log : List Entry) : Probed :=
  match g.outEndpoint, g.inEndpoint with
  | none, _ => exitNull g (-eNoDev) log
  | some _, none => exitNull g (-eNoDev) log
  | some dOut, some dIn =>
    if dOut.wMaxPacketSize < exampleBufferSize then exitNull g (-eInval) log else
    if dIn.wMaxPacketSize < exampleBufferSize then exitNull g (-eInval) log else
    let (p, added) := alloc n .outUrb o.outUrb
    let g := { g with outUrb := p }
    let log := log ++ added
    if g.outUrb = none then exitNull g (-eNoMem) log else
    let (p, added) := alloc n .inUrb o.inUrb
    let g := { g with inUrb := p }
    let log := log ++ added
    if g.inUrb = none then exitFreeOutUrb g (-eNoMem) log else
    let (p, added) := alloc n .outBuffer o.outBuffer
    let g := { g with outBuffer := p }
    let log := log ++ added
    if g.outBuffer = none then exitFreeInUrb g (-eNoMem) log else
    let (p, added) := alloc n .inBuffer o.inBuffer
    let g := { g with inBuffer := p }
    let log := log ++ added
    if g.inBuffer = none then exitFreeOutBuf g (-eNoMem) log else
    match o.registerDev with
    | some e => exitFreeInBuf g (-(e : ℕ)) log
    | none => ⟨0, { g with inBusy := 0, outBusy := 0 }, log ++ [.acquire (n, .minor)]⟩

/-- `example_probe`, the `n`-th, of an interface with the endpoints `ds`. -/
def probe (n : ℕ) (g : Globals) (ds : List EndpointDescriptor) (o : Outcomes) : Probed :=
  acquireAll n (ds.foldl selectEndpoint { g with usbDevice := some n }) o
    [.acquire (n, .usbDevice)]

/-- What `example_disconnect` does with resources; `minor` is that of the interface. -/
def disconnectLog (minor : Option ℕ) (g : Globals) : List Entry :=
  free .minor minor ++ free .inBuffer g.inBuffer ++ free .inUrb g.inUrb ++
    free .outBuffer g.outBuffer ++ free .outUrb g.outUrb

/-- The global variables after `example_disconnect`. -/
def disconnectGlobals (g : Globals) : Globals :=
  { g with
    usbDevice := none, inBuffer := none, inUrb := none, inEndpoint := none, outBuffer := none,
    outUrb := none, outEndpoint := none }

/-! ### The machine -/

structure State where
  globals : Globals
  /-- The minor of the interface. -/
  minor : Option ℕ
  /-- The driver is bound to the interface. -/
  bound : Bool
  /-- The number of probes. -/
  probes : ℕ

inductive Act
  | probe (ds : List EndpointDescriptor) (o : Outcomes)
  | disconnect

/-- A call: the value returned, 0 for `example_disconnect`, the global variables after it, and what it
does with resources. -/
structure Record where
  isProbe : Bool
  ret : ℤ
  globals : Globals
  log : List Entry

/-- After a probe, which binds the driver if it returns 0. -/
def State.probed (s : State) (r : Probed) : State where
  globals := r.globals
  minor := if r.ret = 0 then some s.probes else none
  bound := decide (r.ret = 0)
  probes := s.probes + 1

/-- After a disconnect. -/
def State.disconnected (s : State) : State :=
  ⟨disconnectGlobals s.globals, none, false, s.probes⟩

def step (s : State) : Act → Option (State × List Record)
  | .probe ds o =>
      if s.bound then none
      else
        let r := probe s.probes s.globals ds o
        some (s.probed r, [⟨true, r.ret, r.globals, r.log⟩])
  | .disconnect =>
      if ¬ s.bound then none
      else
        some (s.disconnected,
          [⟨false, 0, disconnectGlobals s.globals, disconnectLog s.minor s.globals⟩])

/-- The USB core and the driver. -/
def system : System State Act Record := ⟨step⟩

/-- The driver just registered: the variables are not initialised, that is, NULL. -/
def init : State :=
  ⟨⟨none, none, none, none, none, none, none, 0, 0⟩, none, false, 0⟩

/-! ### What is expected -/

/-- The pointers are NULL. -/
structure Globals.Null (g : Globals) : Prop where
  usbDevice : g.usbDevice = none
  outEndpoint : g.outEndpoint = none
  inEndpoint : g.inEndpoint = none
  outUrb : g.outUrb = none
  inUrb : g.inUrb = none
  outBuffer : g.outBuffer = none
  inBuffer : g.inBuffer = none

/-- The ledger of a history of calls. -/
def ledger (h : List Record) : List Entry := h.flatMap Record.log

/-- A probe that fails, or a disconnect. -/
def Record.Ends (r : Record) : Prop := r.isProbe = true → r.ret ≠ 0

/-- After a failed probe and after a disconnect, everything has been released that has been acquired,
and the pointers are NULL. -/
def EndAccounted (before : List Record) (r : Record) : Prop :=
  r.Ends → Ledger.Balanced (ledger (before ++ [r])) ∧ r.globals.Null

/-- The calls account for their resources. -/
structure Accounted (h : List Record) : Prop where
  sound : Ledger.Sound (fun _ => 0) (ledger h)
  ends : History.EachAfter EndAccounted h

/-- The interrupt endpoint of this direction that is last in the list. -/
def interruptEndpoint (input : Bool) (ds : List EndpointDescriptor) : Option EndpointDescriptor :=
  (ds.filter fun d =>
    decide (d.bmAttributes &&& usbEndpointXferTypeMask = usbEndpointXferInt) &&
      (decide (d.bEndpointAddress &&& usbDirIn ≠ 0) == input)).getLast?

/-- The interface has two interrupt endpoints that take packets of the size of the buffers, and all
that the probe acquires is to be had. -/
structure Succeeds (ds : List EndpointDescriptor) (o : Outcomes) : Prop where
  endpoint : ∀ input, ∃ d, interruptEndpoint input ds = some d ∧
    exampleBufferSize ≤ d.wMaxPacketSize
  outUrb : o.outUrb = true
  inUrb : o.inUrb = true
  outBuffer : o.outBuffer = true
  inBuffer : o.inBuffer = true
  registerDev : o.registerDev = none

/-- The call is a probe, of which nothing fails. -/
def Act.Succeeds : Act → Prop
  | .probe ds o => Plug.Succeeds ds o
  | .disconnect => False

/-! ### One probe -/

/-- The pointers are to what the `n`-th probe has acquired. -/
structure Globals.Own (g : Globals) (n : ℕ) : Prop where
  outUrb : g.outUrb = some n
  inUrb : g.inUrb = some n
  outBuffer : g.outBuffer = some n
  inBuffer : g.inBuffer = some n

/-- The loop finds the last endpoint of each direction. -/
theorem foldl_selectEndpoint (ds : List EndpointDescriptor) (g : Globals) :
    ds.foldl selectEndpoint g =
      { g with
        outEndpoint := (interruptEndpoint false ds).or g.outEndpoint
        inEndpoint := (interruptEndpoint true ds).or g.inEndpoint } := by
  induction ds using List.reverseRecOn with
  | nil => rfl
  | append_singleton ds d ih =>
    rw [List.foldl_append, ih]
    unfold interruptEndpoint
    simp only [List.foldl_cons, List.foldl_nil, selectEndpoint, List.filter_append]
    split_ifs with hin hint hint
    · simp [hin, hint]
    · simp [hint]
    · simp [not_not.1 hin, hint]
    · simp [hint]

/-- What is held of a probe that has ended: the reference to the device. -/
def reference (r : Resource) : ℕ := if r = .usbDevice then 1 else 0

def Resource.all : List Resource := [.usbDevice, .outUrb, .inUrb, .outBuffer, .inBuffer, .minor]

theorem Resource.mem_all (r : Resource) : r ∈ Resource.all := by
  cases r <;> decide

/-- What a probe can come to. -/
inductive ProbeCase (n : ℕ) (ds : List EndpointDescriptor) (o : Outcomes) (r : Probed) : Prop
  | failed (h : ¬ Succeeds ds o) (hret : r.ret ≠ 0) (hnull : r.globals.Null)
      (log : List (LedgerEntry Resource)) (hlog : r.log = log.map (Ledger.tag n))
      (hsound : Ledger.Sound (fun _ => 0) log)
      (hafter : ∀ r ∈ Resource.all, Ledger.after (fun _ => 0) log r = reference r)
  | registered (h : Succeeds ds o) (hret : r.ret = 0) (hown : r.globals.Own n)
      (hlog : r.log = (Resource.all.map .acquire).map (Ledger.tag n))

theorem disconnectGlobals_null (g : Globals) : (disconnectGlobals g).Null :=
  ⟨rfl, rfl, rfl, rfl, rfl, rfl, rfl⟩

/-- A probe of an interface with these endpoints for output and input. -/
theorem probe_eq {g : Globals} (hg : g.Null) (n : ℕ) (ds : List EndpointDescriptor)
    (o : Outcomes) : probe n g ds o =
      acquireAll n ⟨some n, interruptEndpoint false ds, interruptEndpoint true ds, none, none, none,
        none, g.outBusy, g.inBusy⟩ o [.acquire (n, .usbDevice)] := by
  obtain ⟨hdev, houtE, hinE, houtU, hinU, houtB, hinB⟩ := hg
  unfold probe
  rw [foldl_selectEndpoint]
  simp only [houtE, hinE, houtU, hinU, houtB, hinB, Option.or_none]

/-- A probe that succeeds leaves the endpoints that the loop has found. -/
theorem acquireAll_endpoints {n : ℕ} {g : Globals} {o : Outcomes} {log : List Entry}
    (hret : (acquireAll n g o log).ret = 0) :
    ∃ dOut dIn, g.outEndpoint = some dOut ∧ g.inEndpoint = some dIn ∧
      exampleBufferSize ≤ dOut.wMaxPacketSize ∧ exampleBufferSize ≤ dIn.wMaxPacketSize ∧
      (acquireAll n g o log).globals.outEndpoint = some dOut ∧
      (acquireAll n g o log).globals.inEndpoint = some dIn := by
  obtain ⟨usbDevice, outEndpoint, inEndpoint, outUrb, inUrb, outBuffer, inBuffer, outBusy, inBusy⟩ := g
  obtain ⟨okOutUrb, okInUrb, okOutBuffer, okInBuffer, registerDev⟩ := o
  cases outEndpoint with
  | none => cases hret
  | some dOut =>
    cases inEndpoint with
    | none => cases hret
    | some dIn =>
      simp only [acquireAll] at hret ⊢
      split_ifs at hret ⊢ with hout hin
      · cases hret
      · cases hret
      · cases hret
      · cases hret
      · cases hret
      · cases hret
      · refine ⟨dOut, dIn, rfl, rfl, UInt16.not_lt.1 hout, UInt16.not_lt.1 hin, ?_⟩
        cases registerDev with
        | none => exact ⟨rfl, rfl⟩
        | some e =>
          have herr : (-(e : ℕ) : ℤ) = 0 := hret
          simp at herr

section Failures

variable {n : ℕ} {g : Globals} {ds : List EndpointDescriptor} {o : Outcomes}

/-- Without the endpoints. -/
theorem probe_endpoints (hg : g.Null) (h : ¬ ∀ input, ∃ d, interruptEndpoint input ds = some d ∧
    exampleBufferSize ≤ d.wMaxPacketSize) :
    ∃ err : ℤ, err ≠ 0 ∧
      probe n g ds o = ⟨err, disconnectGlobals g, [.acquire (n, .usbDevice)]⟩ := by
  rw [probe_eq hg]
  unfold acquireAll
  cases hout : interruptEndpoint false ds with
  | none => exact ⟨-eNoDev, by decide, rfl⟩
  | some dOut =>
    cases hin : interruptEndpoint true ds with
    | none => exact ⟨-eNoDev, by decide, rfl⟩
    | some dIn =>
      refine ⟨-eInval, by decide, ?_⟩
      by_cases hsize : dOut.wMaxPacketSize < exampleBufferSize
      · simp [hsize, exitNull, disconnectGlobals]
      · have hsize' : dIn.wMaxPacketSize < exampleBufferSize := by
          by_contra hbig
          refine h fun input => ?_
          cases input with
          | false => exact ⟨dOut, hout, UInt16.not_lt.1 hsize⟩
          | true => exact ⟨dIn, hin, UInt16.not_lt.1 hbig⟩
        simp [hsize, hsize', exitNull, disconnectGlobals]

/-- With the endpoints, without one of the resources. -/
theorem probe_resources (hg : g.Null) (h : ∀ input, ∃ d, interruptEndpoint input ds = some d ∧
    exampleBufferSize ≤ d.wMaxPacketSize) (hnot : ¬ Succeeds ds o) :
    ∃ (err : ℤ) (log : List (LedgerEntry Resource)), err ≠ 0 ∧
      probe n g ds o = ⟨err, disconnectGlobals g, log.map (Ledger.tag n)⟩ ∧
      Ledger.Sound (fun _ => 0) log ∧
      ∀ r ∈ Resource.all, Ledger.after (fun _ => 0) log r = reference r := by
  obtain ⟨dOut, hout, hsizeOut⟩ := h false
  obtain ⟨dIn, hin, hsizeIn⟩ := h true
  have hbigOut := UInt16.not_lt.2 hsizeOut
  have hbigIn := UInt16.not_lt.2 hsizeIn
  rw [probe_eq hg, hout, hin]
  unfold acquireAll
  simp only [hbigOut, hbigIn, if_false]
  cases houtUrb : o.outUrb with
  | false =>
    refine ⟨-eNoMem, [.acquire .usbDevice], by decide, ?_, by decide, by decide⟩
    simp [alloc, exitNull, disconnectGlobals, Ledger.tag]
  | true =>
    cases hinUrb : o.inUrb with
    | false =>
      refine ⟨-eNoMem, [.acquire .usbDevice, .acquire .outUrb, .release .outUrb], by decide, ?_,
        by decide, by decide⟩
      simp [alloc, exitFreeOutUrb, exitNull, free, disconnectGlobals, Ledger.tag]
    | true =>
      cases houtBuffer : o.outBuffer with
      | false =>
        refine ⟨-eNoMem, [.acquire .usbDevice, .acquire .outUrb, .acquire .inUrb, .release .inUrb,
          .release .outUrb], by decide, ?_, by decide, by decide⟩
        simp [alloc, exitFreeInUrb, exitFreeOutUrb, exitNull, free, disconnectGlobals, Ledger.tag]
      | true =>
        cases hinBuffer : o.inBuffer with
        | false =>
          refine ⟨-eNoMem, [.acquire .usbDevice, .acquire .outUrb, .acquire .inUrb,
            .acquire .outBuffer, .release .outBuffer, .release .inUrb, .release .outUrb],
            by decide, ?_, by decide, by decide⟩
          simp [alloc, exitFreeOutBuf, exitFreeInUrb, exitFreeOutUrb, exitNull, free,
            disconnectGlobals, Ledger.tag]
        | true =>
          cases hregister : o.registerDev with
          | none => exact absurd ⟨h, houtUrb, hinUrb, houtBuffer, hinBuffer, hregister⟩ hnot
          | some e =>
            refine ⟨-(e : ℕ), [.acquire .usbDevice, .acquire .outUrb, .acquire .inUrb,
              .acquire .outBuffer, .acquire .inBuffer, .release .inBuffer, .release .outBuffer,
              .release .inUrb, .release .outUrb], by simp, ?_, by decide, by decide⟩
            simp [alloc, exitFreeInBuf, exitFreeOutBuf, exitFreeInUrb, exitFreeOutUrb, exitNull,
              free, disconnectGlobals, Ledger.tag]

/-- Nothing fails. -/
theorem probe_succeeds (hg : g.Null) (h : Succeeds ds o) :
    (probe n g ds o).ret = 0 ∧ (probe n g ds o).globals.Own n ∧
      (probe n g ds o).log = (Resource.all.map .acquire).map (Ledger.tag n) := by
  obtain ⟨dOut, hout, hsizeOut⟩ := h.endpoint false
  obtain ⟨dIn, hin, hsizeIn⟩ := h.endpoint true
  have hprobe : probe n g ds o = ⟨0, ⟨some n, some dOut, some dIn, some n, some n, some n, some n,
      0, 0⟩, (Resource.all.map .acquire).map (Ledger.tag n)⟩ := by
    rw [probe_eq hg, hout, hin]
    simp [acquireAll, alloc, UInt16.not_lt.2 hsizeOut, UInt16.not_lt.2 hsizeIn, h.outUrb, h.inUrb,
      h.outBuffer, h.inBuffer, h.registerDev, Resource.all, Ledger.tag]
  rw [hprobe]
  exact ⟨rfl, ⟨rfl, rfl, rfl, rfl⟩, rfl⟩

end Failures

theorem probe_cases {g : Globals} (hg : g.Null) (n : ℕ) (ds : List EndpointDescriptor)
    (o : Outcomes) : ProbeCase n ds o (probe n g ds o) := by
  by_cases hs : Succeeds ds o
  · obtain ⟨hret, hown, hlog⟩ := probe_succeeds (n := n) hg hs
    exact .registered hs hret hown hlog
  · by_cases h : ∀ input, ∃ d, interruptEndpoint input ds = some d ∧
        exampleBufferSize ≤ d.wMaxPacketSize
    · obtain ⟨err, log, herr, hprobe, hsound, hafter⟩ := probe_resources (n := n) hg h hs
      rw [hprobe]
      exact .failed hs herr (disconnectGlobals_null g) log rfl hsound hafter
    · obtain ⟨err, herr, hprobe⟩ := probe_endpoints (n := n) (o := o) hg h
      rw [hprobe]
      exact .failed hs herr (disconnectGlobals_null g) [.acquire .usbDevice] rfl (by decide)
        (by decide)

/-- What a disconnect does after a probe that has succeeded. -/
theorem disconnectLog_eq {g : Globals} {n : ℕ} (hg : g.Own n) :
    disconnectLog (some n) g = [LedgerEntry.release Resource.minor, .release .inBuffer,
      .release .inUrb, .release .outBuffer, .release .outUrb].map (Ledger.tag n) := by
  simp [disconnectLog, free, hg.inBuffer, hg.inUrb, hg.outBuffer, hg.outUrb, Ledger.tag]

/-! ### Every run -/

/-- What is held in a state: a reference of each probe, and the rest by the last one while the driver
is bound. -/
def State.held (s : State) (n : ℕ) (r : Resource) : ℕ :=
  if r = .usbDevice then if n < s.probes then 1 else 0
  else if s.bound = true ∧ n + 1 = s.probes then 1 else 0

/-- The global variables belong to the last probe while the driver is bound. -/
structure Wf (s : State) : Prop where
  idle : s.bound = false → s.globals.Null
  bound : s.bound = true → ∃ n, s.probes = n + 1 ∧ s.globals.Own n ∧ s.minor = some n

/-- After a failed probe and after a disconnect, everything but references to the device has been
released, and at least one of these has not. -/
def RestAccounted (before : List Record) (r : Record) : Prop :=
  r.Ends → r.globals.Null ∧
    (∀ n k, k ≠ .usbDevice → (ledger (before ++ [r])).count (.release (n, k)) =
      (ledger (before ++ [r])).count (.acquire (n, k))) ∧
    ∃ n, (ledger (before ++ [r])).count (.release (n, .usbDevice)) ≠
      (ledger (before ++ [r])).count (.acquire (n, .usbDevice))

/-- The invariant of all runs. -/
structure Kept (s : State) (h : List Record) : Prop where
  wf : Wf s
  sound : Ledger.Sound (fun _ => 0) (ledger h)
  after : ∀ n r, Ledger.after (fun _ => 0) (ledger h) (n, r) = s.held n r
  ends : History.EachAfter RestAccounted h

theorem kept_init : Kept init [] where
  wf := ⟨fun _ => ⟨rfl, rfl, rfl, rfl, rfl, rfl, rfl⟩, fun h => by cases h⟩
  sound := trivial
  after n r := by cases r <;> rfl
  ends := History.eachAfter_nil

theorem ledger_snoc (h : List Record) (r : Record) : ledger (h ++ [r]) = ledger h ++ r.log := by
  simp [ledger]

/-- A call that is about the resources of the probe `n`. -/
theorem Kept.extend {s s' : State} {h : List Record} {r : Record} {n : ℕ}
    {log : List (LedgerEntry Resource)} (hk : Kept s h) (hlog : r.log = log.map (Ledger.tag n))
    (hsound : Ledger.Sound (s.held n) log) (hself : Ledger.after (s.held n) log = s'.held n)
    (hother : ∀ m, m ≠ n → s'.held m = s.held m) (hwf : Wf s')
    (hends : r.Ends → s'.bound = false ∧ 0 < s'.probes ∧ r.globals.Null) :
    Kept s' (h ++ [r]) := by
  have hheld : ∀ m, (fun k => Ledger.after (fun _ => 0) (ledger h) (m, k)) = s.held m := fun m =>
    funext (hk.after m)
  have hsound' : Ledger.Sound (fun _ => 0) (ledger (h ++ [r])) := by
    rw [ledger_snoc, Ledger.sound_append, hlog, Ledger.sound_map_tag, hheld]
    exact ⟨hk.sound, hsound⟩
  have hafter : ∀ m k, Ledger.after (fun _ => 0) (ledger (h ++ [r])) (m, k) = s'.held m k := by
    intro m k
    rw [ledger_snoc, Ledger.after_append, hlog]
    by_cases hm : m = n
    · subst hm
      rw [← hself, ← hheld]
      exact congrFun (Ledger.after_map_tag_self _ m log) k
    · rw [hother m hm, ← hheld]
      exact congrFun (Ledger.after_map_tag_of_ne _ hm log) k
  refine ⟨hwf, hsound', hafter, History.eachAfter_snoc.2 ⟨hk.ends, fun hr => ?_⟩⟩
  obtain ⟨hidle, hpos, hnull⟩ := hends hr
  have hcount := fun m k => Ledger.held_add_count hsound' (m, k)
  refine ⟨hnull, fun m k hkind => ?_, 0, ?_⟩
  · have hzero : s'.held m k = 0 := by simp [State.held, hkind, hidle]
    have hmk := hcount m k
    rw [hafter, hzero] at hmk
    omega
  · have hone : s'.held 0 .usbDevice = 1 := by simp [State.held, hpos]
    have hreference := hcount 0 .usbDevice
    rw [hafter, hone] at hreference
    omega

theorem held_eq_zero {s : State} (h : s.bound = false) : s.held s.probes = fun _ => 0 := by
  funext r
  simp [State.held, h]

/-- Once the driver is not bound, all that is left of the last probe is its reference. -/
theorem held_eq_reference {s : State} {n : ℕ} (h : s.bound = false) (hn : s.probes = n + 1) :
    s.held n = reference := by
  funext r
  simp [State.held, reference, h, hn]

theorem held_eq_one {s : State} {n : ℕ} (h : s.bound = true) (hn : s.probes = n + 1) :
    s.held n = fun _ => 1 := by
  funext r
  simp [State.held, h, hn]

/-- What earlier probes hold does not depend on the last one. -/
theorem held_eq_of_ne {s s' : State} {n : ℕ} (hs : s.bound = false ∨ s.probes = n + 1)
    (hle : s.probes ≤ n + 1) (hlt : n ≤ s.probes) (hs' : s'.probes = n + 1) {m : ℕ} (hm : m ≠ n) :
    s'.held m = s.held m := by
  funext r
  have hlast : ¬ (s.bound = true ∧ m + 1 = s.probes) := by
    rintro ⟨hbound, hprobes⟩
    rcases hs with hs | hs
    · simp [hbound] at hs
    · omega
  have hlast' : ¬ (s'.bound = true ∧ m + 1 = s'.probes) := by
    rintro ⟨-, hprobes⟩
    omega
  have hprobes : m < s'.probes ↔ m < s.probes := by omega
  simp only [State.held, hlast, hlast', hprobes]

theorem kept_probe {s : State} {h : List Record} {ds : List EndpointDescriptor} {o : Outcomes}
    (hk : Kept s h) (hbound : s.bound = false) {r : Probed} (hcase : ProbeCase s.probes ds o r) :
    Kept (s.probed r) (h ++ [⟨true, r.ret, r.globals, r.log⟩]) := by
  have hzero := held_eq_zero hbound
  have hother : ∀ m, m ≠ s.probes → (s.probed r).held m = s.held m := fun m hm =>
    held_eq_of_ne (.inl hbound) (Nat.le_succ _) le_rfl rfl hm
  cases hcase with
  | failed _ hret hnull log hlog hsound hafter =>
    have hidle : (s.probed r).bound = false := decide_eq_false hret
    refine hk.extend hlog (hzero ▸ hsound) ?_ hother ⟨fun _ => hnull, fun hb => ?_⟩
      fun _ => ⟨hidle, Nat.succ_pos _, hnull⟩
    · rw [hzero, held_eq_reference hidle rfl]
      exact funext fun k => hafter k (Resource.mem_all k)
    · rw [hidle] at hb
      cases hb
  | registered _ hret hown hlog =>
    have hbound' : (s.probed r).bound = true := decide_eq_true hret
    have hafter : ∀ k ∈ Resource.all,
        Ledger.after (fun _ => 0) (Resource.all.map .acquire) k = 1 := by decide
    refine hk.extend hlog ?_ ?_ hother ⟨fun hb => ?_, fun _ => ⟨s.probes, rfl, hown, ?_⟩⟩
      fun hends => absurd hret (hends rfl)
    · rw [hzero]
      decide
    · rw [hzero, held_eq_one hbound' rfl]
      exact funext fun k => hafter k (Resource.mem_all k)
    · rw [hbound'] at hb
      cases hb
    · exact if_pos hret

theorem kept_disconnect {s : State} {h : List Record} (hk : Kept s h) (hbound : s.bound = true) :
    Kept s.disconnected
      (h ++ [⟨false, 0, disconnectGlobals s.globals, disconnectLog s.minor s.globals⟩]) := by
  obtain ⟨n, hprobes, hown, hminor⟩ := hk.wf.bound hbound
  have hnull := disconnectGlobals_null s.globals
  have hafter : ∀ k ∈ Resource.all, Ledger.after (fun _ => 1) [LedgerEntry.release Resource.minor,
      .release .inBuffer, .release .inUrb, .release .outBuffer, .release .outUrb] k =
      reference k := by decide
  have hprobes' : s.disconnected.probes = n + 1 := hprobes
  have hidle : s.disconnected.bound = false := rfl
  have hlog : disconnectLog s.minor s.globals = _ := hminor ▸ disconnectLog_eq hown
  refine hk.extend hlog ?_ ?_
    (fun m hm => held_eq_of_ne (.inr hprobes) hprobes.le (by omega) hprobes' hm)
    ⟨fun _ => hnull, fun hb => by cases hb⟩
    fun _ => ⟨hidle, by omega, hnull⟩
  · rw [held_eq_one hbound hprobes]
    decide
  · rw [held_eq_one hbound hprobes, held_eq_reference hidle hprobes']
    exact funext fun k => hafter k (Resource.mem_all k)

theorem kept_step {s s' : State} {h out : List Record} {a : Act} (hk : Kept s h)
    (hstep : step s a = some (s', out)) : Kept s' (h ++ out) := by
  cases a with
  | probe ds o =>
    simp only [step] at hstep
    split_ifs at hstep with hbound
    cases hstep
    have hidle : s.bound = false := by simpa using hbound
    exact kept_probe hk hidle (probe_cases (hk.wf.idle hidle) _ _ _)
  | disconnect =>
    simp only [step] at hstep
    split_ifs at hstep with hbound
    cases hstep
    exact kept_disconnect hk (by simpa using hbound)

/-- **What the driver gives back**: in every run, over any interfaces and with any results of the
calls inside the probes, nothing is released that is not held, and after every failed probe and every
disconnect the pointers are NULL and everything but the reference to the device has been released as
often as acquired. -/
theorem rest_accounted {acts : List Act} {s : State} {h : List Record}
    (hrun : system.exec init acts = some (s, h)) :
    Ledger.Sound (fun _ => 0) (ledger h) ∧ History.EachAfter RestAccounted h := by
  have hk : Kept s h := System.exec_induction (I := Kept)
    (fun _ _ _ _ _ hk hstep => kept_step hk hstep) kept_init hrun
  exact ⟨hk.sound, hk.ends⟩

/-- The calls of a run that end something are those that are not successful probes. -/
theorem step_ends {s s' : State} {out : List Record} {a : Act} (hw : Wf s)
    (hstep : step s a = some (s', out)) : ∃ r, out = [r] ∧ (r.Ends ↔ ¬ a.Succeeds) := by
  cases a with
  | probe ds o =>
    simp only [step] at hstep
    split_ifs at hstep with hbound
    cases hstep
    refine ⟨_, rfl, ?_⟩
    cases probe_cases (hw.idle (by simpa using hbound)) s.probes ds o with
    | failed hnot hret => exact iff_of_true (fun _ => hret) hnot
    | registered hs hret => exact iff_of_false (fun hends => hends rfl hret) (not_not_intro hs)
  | disconnect =>
    simp only [step] at hstep
    split_ifs at hstep
    cases hstep
    exact ⟨_, rfl, iff_of_true (fun h => by cases h) id⟩

theorem run_ends {acts : List Act} {s s' : State} {h₀ h : List Record} (hk : Kept s h₀)
    (hrun : system.exec s acts = some (s', h)) :
    (∀ r ∈ h, ¬ r.Ends) ↔ ∀ a ∈ acts, a.Succeeds := by
  induction acts generalizing s h₀ h with
  | nil =>
    cases hrun
    simp
  | cons a acts ih =>
    obtain ⟨t, out, outs, hstep, hrest, rfl⟩ := System.exec_cons.1 hrun
    obtain ⟨r, rfl, hr⟩ := step_ends hk.wf hstep
    rw [List.singleton_append, List.forall_mem_cons, List.forall_mem_cons,
      ih (kept_step hk hstep) hrest, hr, not_not]

/-- **The resources of the board**: in a run of probes and disconnects, over any interfaces and with
any results of the calls inside the probes, everything acquired has been released and the pointers
are NULL after every failed probe and every disconnect exactly when no probe of the run fails and
there is no disconnect in it. -/
theorem accounted_iff_succeeds {acts : List Act} {s : State} {h : List Record}
    (hrun : system.exec init acts = some (s, h)) : Accounted h ↔ ∀ a ∈ acts, a.Succeeds := by
  obtain ⟨hsound, hrest⟩ := rest_accounted hrun
  rw [← run_ends kept_init hrun]
  constructor
  · intro hh r hr hends
    obtain ⟨before, after, rfl⟩ := List.append_of_mem hr
    obtain ⟨-, -, n, hn⟩ := hrest before r after rfl hends
    exact hn ((hh.ends before r after rfl hends).1 _)
  · intro hnone
    refine ⟨hsound, fun before r after heq hends => absurd hends (hnone r ?_)⟩
    simp [heq]

/-- The endpoints of the board. -/
def k8055 : List EndpointDescriptor := [⟨0x81, 3, 8⟩, ⟨0x01, 3, 8⟩]

/-- Every call inside the probe succeeds. -/
def allSucceed : Outcomes := ⟨true, true, true, true, none⟩

theorem accounted_iff_succeeds_k8055 :
    ∃ s h, system.exec init [.probe k8055 allSucceed] = some (s, h) ∧ s.bound = true ∧
      Accounted h := by
  obtain ⟨⟨s, h⟩, hrun, hval⟩ := Option.map_eq_some_iff.1
    (show (system.exec init [.probe k8055 allSucceed]).map (fun r => r.1.bound) = some true by
      decide +kernel)
  refine ⟨s, h, hrun, hval, (accounted_iff_succeeds hrun).2 fun a ha => ?_⟩
  obtain rfl := List.mem_singleton.1 ha
  refine ⟨fun input => ?_, rfl, rfl, rfl, rfl, rfl⟩
  cases input with
  | false => exact ⟨⟨0x01, 3, 8⟩, rfl, by decide⟩
  | true => exact ⟨⟨0x81, 3, 8⟩, rfl, by decide⟩

/-- The board is plugged in and unplugged: the reference to the device remains. -/
theorem reference_not_released :
    ∃ s h, system.exec init [.probe k8055 allSucceed, .disconnect] = some (s, h) ∧
      (ledger h).count (.acquire (0, .usbDevice)) = 1 ∧
      (ledger h).count (.release (0, .usbDevice)) = 0 ∧ ¬ Accounted h := by
  obtain ⟨⟨s, h⟩, hrun, hval⟩ := Option.map_eq_some_iff.1
    (show (system.exec init [.probe k8055 allSucceed, .disconnect]).map
        (fun r => (r.2.map Record.isProbe, (ledger r.2).count (.acquire (0, .usbDevice)),
          (ledger r.2).count (.release (0, .usbDevice)))) = some ([true, false], 1, 0) by
      decide +kernel)
  simp only [Prod.mk.injEq] at hval
  obtain ⟨hcalls, hacquired, hreleased⟩ := hval
  refine ⟨s, h, hrun, hacquired, hreleased, fun hh => ?_⟩
  obtain ⟨p, rest, rfl, -, hrest⟩ := List.map_eq_cons_iff.1 hcalls
  obtain ⟨d, rest, rfl, hd, hrest⟩ := List.map_eq_cons_iff.1 hrest
  obtain rfl := List.map_eq_nil_iff.1 hrest
  have hbalanced := (hh.ends [p] d [] rfl fun hprobe => by simp [hd] at hprobe).1
    (0, Resource.usbDevice)
  rw [List.singleton_append, hacquired, hreleased] at hbalanced
  cases hbalanced

end IldDrivers.ExampleVII.Plug
