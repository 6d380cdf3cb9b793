import IldDrivers.Net.Protocols

/-!
# Addresses on both sides of the link (`example-VI-02`, `example-VI-03`)

The devices have the flag `IFF_NOARP`: the kernel gives `example_hard_header` the address of the device
itself as destination, or none, and `example_hard_header` makes it that of the other device by its last
byte. `eth_type_trans` compares it with the address of the device that receives. The IP addresses are
moved to another network by their third byte, of the source and of the destination alike.

* `Outgoing`: an IPv4 packet that leaves by a device;
* `Received`: a frame that the IP layer of a device takes for its own;
* `request_answered`: what is sent arrives as such, and answers come from where the request has gone.
-/

namespace IldDrivers.ExampleVI03

variable {Skb : Type*}

/-! ### Fields -/

/-- `h_dest` and `h_source`. -/
def hDest (frame : List UInt8) : List UInt8 := frame.take 6
def hSource (frame : List UInt8) : List UInt8 := (frame.drop 6).take 6

/-- `ip_header->saddr` and `ip_header->daddr`. -/
def saddr (frame : List UInt8) : List UInt8 := (frame.drop (ipHeader + 12)).take 4
def daddr (frame : List UInt8) : List UInt8 := (frame.drop (ipHeader + 16)).take 4

/-- The address with its third byte complemented. -/
def otherNetwork (addr : List UInt8) : List UInt8 := addr.modify 2 (255 - ·)

/-- An IPv4 packet with the header that `example_hard_header` makes on a device without ARP. -/
structure Outgoing (d : Device) (x : Submission Skb) : Prop where
  exists_header : ∃ dstAddr srcAddr packet, (dstAddr = none ∨ dstAddr = some (hwAddress d)) ∧
    (srcAddr = none ∨ srcAddr = some (hwAddress d)) ∧
    x.frame = hardHeader d ethPIp dstAddr srcAddr packet
  hasHeader : HasHeader x.frame

/-- `eth_type_trans` finds a packet for this host, and the IP layer a valid header. -/
structure Received (d : Device) (frame : List UInt8) : Prop where
  host : hDest frame = List.ofFn (hwAddress d)
  source : hSource frame = List.ofFn (hwAddress d.peer)
  type : etherType frame = ethPIp.toNat
  hasHeader : HasHeader frame
  verifies : Verifies .big (header frame)

theorem otherNetwork_otherNetwork (addr : List UInt8) : otherNetwork (otherNetwork addr) = addr :=
  complement_complement 2 addr

/-! ### A frame that is sent -/

section Sent

variable {u : Setup} {e : ByteOrder} {d : Device} {x : Submission Skb}

theorem pad_getElem? {frame : List UInt8} {i : ℕ} (hi : i < frame.length) :
    (pad frame)[i]? = frame[i]? := by
  unfold pad
  split_ifs
  · exact List.getElem?_append_left hi
  · rfl

theorem HasHeader.pad {frame : List UInt8} (h : HasHeader frame) : HasHeader (pad frame) := by
  have hlength := h.length_ge
  have hge := h.ihl_ge
  have hihl : ihl (ExampleVI03.pad frame) = ihl frame := by
    refine ihl_congr (pad_getElem? ?_)
    unfold ipHeader at *
    omega
  refine ⟨hihl ▸ h.ihl_ge, ?_⟩
  rw [hihl, pad_length]
  exact h.length_ge.trans (le_max_right _ _)

/-- The bytes of a rewritten frame up to its IP addresses. -/
theorem rewritten_getElem?_of_lt {i : ℕ} (hi : i < x.frame.length) (htouched : i ∉ touched) :
    (rewritten u x)[i]? = x.frame[i]? := by
  rw [rewritten_of_not_touched htouched, pad_getElem? hi]

theorem getElem?_take_drop (l : List UInt8) (k n i : ℕ) :
    ((l.drop k).take n)[i]? = if i < n then l[k + i]? else none := by
  rw [List.getElem?_take]
  split_ifs
  · exact List.getElem?_drop
  · rfl

/-- A field of four bytes, of which the call complements the third. -/
theorem field_rewritten {k : ℕ} (hk : k + 2 = srcOffset ∨ k + 2 = dstOffset)
    (hlength : ipHeader + 20 ≤ x.frame.length) :
    ((rewritten u x).drop k).take 4 = otherNetwork ((x.frame.drop k).take 4) := by
  have hsrc : srcOffset = 28 := rfl
  have hdst : dstOffset = 32 := rfl
  have hcheck : checkOffset = 24 := rfl
  have hip : ipHeader = 14 := rfl
  refine List.ext_getElem? fun i => ?_
  rw [otherNetwork, List.getElem?_modify, getElem?_take_drop, getElem?_take_drop]
  by_cases hi : i < 4
  · rw [if_pos hi, if_pos hi, rewritten_getElem? u x (by omega) (by omega), pad_getElem? (by omega)]
    by_cases htwo : 2 = i
    · subst htwo
      rw [if_pos (by omega)]
      rfl
    · rw [if_neg (by omega)]
      simp [htwo]
  · rw [if_neg hi, if_neg hi]
    rfl

theorem Outgoing.length_ge (h : Outgoing d x) : ipHeader + 20 ≤ x.frame.length := by
  have hlength := h.hasHeader.length_ge
  have hge := h.hasHeader.ihl_ge
  omega

theorem saddr_rewritten (h : Outgoing d x) : saddr (rewritten u x) = otherNetwork (saddr x.frame) :=
  field_rewritten (.inl rfl) h.length_ge

theorem daddr_rewritten (h : Outgoing d x) : daddr (rewritten u x) = otherNetwork (daddr x.frame) :=
  field_rewritten (.inr rfl) h.length_ge

/-- A field in front of the IP header. -/
theorem front_rewritten (h : Outgoing d x) {k n : ℕ} (hkn : k + n ≤ ipHeader) :
    ((rewritten u x).drop k).take n = (x.frame.drop k).take n := by
  have hlength := h.length_ge
  have hip : ipHeader = 14 := rfl
  refine List.ext_getElem? fun i => ?_
  rw [getElem?_take_drop, getElem?_take_drop]
  by_cases hi : i < n
  · rw [if_pos hi, if_pos hi, rewritten_getElem?_of_lt (by omega)]
    intro hmem
    have hle : ipHeader ≤ k + i := by
      simp only [touched, checkOffset, srcOffset, dstOffset, List.mem_cons, List.not_mem_nil,
        or_false] at hmem
      omega
    omega
  · rw [if_neg hi, if_neg hi]

/-- The last byte makes the address of one device that of the other. -/
theorem update_hwAddress (d : Device) :
    Function.update (hwAddress d) 5 (if hwAddress d 5 = 0 then 1 else 0) = hwAddress d.peer := by
  refine funext fun i => ?_
  cases d <;> fin_cases i <;> rfl

/-- **One frame**: it is taken by the other device. -/
theorem Outgoing.received (h : Outgoing d x) (hcsum : ComputesChecksum u e) :
    Received d.peer (rewritten u x) := by
  obtain ⟨dstAddr, srcAddr, packet, hdst, hsrc, hframe⟩ := h.exists_header
  have hdst' : dstAddr.getD (hwAddress d) = hwAddress d := by
    rcases hdst with rfl | rfl <;> rfl
  have hsrc' : srcAddr.getD (hwAddress d) = hwAddress d := by
    rcases hsrc with rfl | rfl <;> rfl
  have hheader : x.frame = List.ofFn (hwAddress d.peer) ++ (List.ofFn (hwAddress d) ++
      ([UInt8.ofNat (ethPIp.toNat / 256), UInt8.ofNat (ethPIp.toNat % 256)] ++ packet)) := by
    rw [hframe, hardHeader, hdst', hsrc']
    simp only [update_hwAddress, List.append_assoc]
  have hpad : HasHeader (pad x.frame) := h.hasHeader.pad
  have hwritten : HasHeader (complement dstOffset (complement srcOffset (pad x.frame))) :=
    (hpad.after_complement (by decide)).after_complement (by decide)
  refine ⟨?_, ?_, ?_, (hwritten.after_setCheck _).after_setCheck _, header_verifies hcsum hpad .big⟩
  · have hfront := front_rewritten (u := u) h (k := 0) (n := 6) (by decide)
    rw [List.drop_zero, List.drop_zero] at hfront
    rw [hDest, hfront, hheader, List.take_left' (List.length_ofFn)]
  · rw [hSource, front_rewritten h (by decide), hheader, List.drop_left' (List.length_ofFn),
      List.take_left' (List.length_ofFn), peer_peer]
  · have hlength := h.length_ge
    have hip : ipHeader = 14 := rfl
    rw [etherType, rewritten_getElem?_of_lt (by omega) (by decide),
      rewritten_getElem?_of_lt (by omega) (by decide), hframe]
    exact etherType_hardHeader d ethPIp dstAddr srcAddr packet

end Sent

/-! ### Every run -/

variable {u : Setup} {e : ByteOrder} {acts : List (Act Skb)} {s : State Skb}
  {log : List (Output Skb)} {data : Device → Memory UInt8}

theorem mem_of_mem_served {d : Device} {x : Submission Skb} (h : x ∈ served d acts log) :
    Act.startXmit d x ∈ acts := by
  obtain ⟨z, hz, rfl⟩ := List.mem_map.1 h
  have haccepted := (List.of_mem_zip (List.mem_filter.1 hz).1).1
  obtain ⟨a, ha, hsome⟩ := List.mem_filterMap.1 (List.mem_filter.1 haccepted).1
  cases a with
  | startXmit d' x =>
    simp only at hsome
    split_ifs at hsome with hd
    cases hsome
    exact hd ▸ ha
  | alloc | run => cases hsome

/-- What arrives was sent on the other device. -/
theorem exists_of_mem_delivered (p : Program)
    (hrun : (p.system u Skb).exec (init Skb data) acts = some (s, log)) {d : Device}
    {frame : List UInt8} (h : frame ∈ delivered d.peer log) :
    ∃ x, Act.startXmit d x ∈ acts ∧ frame = rewritten u x := by
  obtain ⟨x, hx, rfl⟩ := List.mem_map.1 ((delivered_served p hrun d).1.subset h)
  exact ⟨x, mem_of_mem_served hx, rfl⟩

/-- **Answers come from where the request has gone**: in every run of either program in which all that
is sent are IPv4 packets with the headers of `example_hard_header`, every frame that arrives on a device
is one for this host with a valid header. When moreover each packet sent on one device answers one that
has arrived there, that is, goes from its destination to its source, then each packet that arrives on
the other comes from the destination of one that was sent there, and goes to its source. -/
theorem request_answered (p : Program) (hcsum : ComputesChecksum u e)
    (hrun : (p.system u Skb).exec (init Skb data) acts = some (s, log))
    (hsent : ∀ d x, Act.startXmit d x ∈ acts → Outgoing d x) :
    (∀ d, ∀ frame ∈ delivered d log, Received d frame) ∧
      ∀ d, (∀ y, Act.startXmit d.peer y ∈ acts → ∃ frame ∈ delivered d.peer log,
          saddr y.frame = daddr frame ∧ daddr y.frame = saddr frame) →
        ∀ frame ∈ delivered d log, ∃ x, Act.startXmit d x ∈ acts ∧
          saddr frame = daddr x.frame ∧ daddr frame = saddr x.frame := by
  constructor
  · intro d frame hframe
    rw [← peer_peer d] at hframe
    obtain ⟨x, hx, rfl⟩ := exists_of_mem_delivered p hrun hframe
    have hreceived := (hsent _ x hx).received hcsum
    rwa [peer_peer] at hreceived
  · intro d hanswers frame hframe
    rw [← peer_peer d] at hframe
    obtain ⟨y, hy, rfl⟩ := exists_of_mem_delivered p hrun hframe
    obtain ⟨frame, hframe, hsource, hdest⟩ := hanswers y hy
    obtain ⟨x, hx, rfl⟩ := exists_of_mem_delivered p hrun hframe
    refine ⟨x, hx, ?_, ?_⟩
    · calc saddr (rewritten u y) = otherNetwork (saddr y.frame) := saddr_rewritten (hsent _ y hy)
        _ = otherNetwork (otherNetwork (daddr x.frame)) := by
          rw [hsource, daddr_rewritten (hsent _ x hx)]
        _ = daddr x.frame := otherNetwork_otherNetwork _
    · calc daddr (rewritten u y) = otherNetwork (daddr y.frame) := daddr_rewritten (hsent _ y hy)
        _ = otherNetwork (otherNetwork (saddr x.frame)) := by
          rw [hdest, saddr_rewritten (hsent _ x hx)]
        _ = saddr x.frame := otherNetwork_otherNetwork _

/-! ### An example -/

/-- An empty IPv4 packet between two hosts of a network. -/
def emptyPacket (network source dest : UInt8) : List UInt8 :=
  [0x45, 0, 0, 20, 0, 0, 0, 0, 64, 1, 0, 0, 192, 168, network, source, 192, 168, network, dest]

def request : Submission ℕ := ⟨7, hardHeader .ex0 ethPIp none none (emptyPacket 1 1 2), fun _ => 0⟩

def answer : Submission ℕ := ⟨8, hardHeader .ex1 ethPIp none none (emptyPacket 254 2 1), fun _ => 0⟩

/-- `192.168.1.1` sends to `192.168.1.2`; `192.168.254.2` receives the packet and answers. -/
def answeredActs : List (Act ℕ) :=
  List.flatten
    [[.startXmit .ex0 request], List.replicate 7 (.run .ex0), [.alloc .ex0 true],
      List.replicate 7 (.run .ex0), [.startXmit .ex1 answer], List.replicate 7 (.run .ex1),
      [.alloc .ex1 true], List.replicate 7 (.run .ex1)]

theorem mem_answeredActs {d : Device} {x : Submission ℕ} (h : Act.startXmit d x ∈ answeredActs) :
    (d = .ex0 ∧ x = request) ∨ (d = .ex1 ∧ x = answer) := by
  simpa [answeredActs] using h

theorem request_answered_empty :
    ∃ s log, (system checkingSetup ℕ).exec (init ℕ fun _ _ => 0) answeredActs = some (s, log) ∧
      ∃ frame ∈ delivered .ex0 log, Received .ex0 frame ∧
        saddr frame = [192, 168, 1, 2] ∧ daddr frame = [192, 168, 1, 1] := by
  obtain ⟨⟨s, log⟩, hrun, hval⟩ := Option.map_eq_some_iff.1
    (show ((system checkingSetup ℕ).exec (init ℕ fun _ _ => 0) answeredActs).map
        (fun r => (delivered .ex0 r.2, delivered .ex1 r.2)) =
      some ([rewritten checkingSetup answer], [rewritten checkingSetup request]) by decide +kernel)
  simp only [Prod.mk.injEq] at hval
  obtain ⟨hback, hthere⟩ := hval
  have hsent : ∀ d x, Act.startXmit d x ∈ answeredActs → Outgoing d x := by
    intro d x hx
    rcases mem_answeredActs hx with ⟨rfl, rfl⟩ | ⟨rfl, rfl⟩
    · exact ⟨⟨none, none, emptyPacket 1 1 2, .inl rfl, .inl rfl, rfl⟩, by decide, by decide⟩
    · exact ⟨⟨none, none, emptyPacket 254 2 1, .inl rfl, .inl rfl, rfl⟩, by decide, by decide⟩
  have hanswers : ∀ y, Act.startXmit .ex1 y ∈ answeredActs → ∃ frame ∈ delivered .ex1 log,
      saddr y.frame = daddr frame ∧ daddr y.frame = saddr frame := by
    intro y hy
    rcases mem_answeredActs hy with ⟨hd, -⟩ | ⟨-, rfl⟩
    · cases hd
    · refine ⟨rewritten checkingSetup request, by rw [hthere]; exact List.mem_cons_self, ?_, ?_⟩ <;>
        decide +kernel
  obtain ⟨hreceived, hpairs⟩ :=
    request_answered .vi03 checkingSetup_computes hrun hsent
  have hmem : rewritten checkingSetup answer ∈ delivered .ex0 log := by
    rw [hback]
    exact List.mem_cons_self
  obtain ⟨x, hx, hsource, hdest⟩ := hpairs .ex0 hanswers _ hmem
  rcases mem_answeredActs hx with ⟨-, rfl⟩ | ⟨hd, -⟩
  · exact ⟨s, log, hrun, _, hmem, hreceived .ex0 _ hmem, hsource, hdest⟩
  · cases hd

end IldDrivers.ExampleVI03
