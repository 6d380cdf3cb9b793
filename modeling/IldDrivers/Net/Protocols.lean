import IldDrivers.Net.Crossing
import IldDrivers.Net.Header

/-!
# Frames of any protocol in `example-VI-03`

`example_hard_header` stores the protocol of a packet, whichever it is, in the EtherType field, and
`eth_type_trans` reads it on the other side. `example_start_xmit` does not: it takes what is behind the
Ethernet header for an IPv4 header.

* `etherType`: the field, as `example_hard_header` sets it;
* `never_unchanged`: no frame arrives as it was sent.
-/

namespace IldDrivers.ExampleVI03

variable {Skb : Type*}

/-! ### The EtherType field -/

/-- `ntohs(eth_hdr->h_proto)`. -/
def etherType (frame : List UInt8) : ℕ :=
  ((frame[12]?).getD 0).toNat * 256 + ((frame[13]?).getD 0).toNat

/-- `ETH_P_IP` and `ETH_P_IPV6`. -/
def ethPIp : UInt16 := 0x0800
def ethPIpv6 : UInt16 := 0x86DD

theorem etherType_hardHeader (netDev : Device) (type : UInt16) (dstAddr srcAddr : Option EthAddr)
    (packet : List UInt8) :
    etherType (hardHeader netDev type dstAddr srcAddr packet) = type.toNat := by
  have hlt := type.toNat_lt
  have hhigh : type.toNat / 256 % 2 ^ 8 = type.toNat / 256 := Nat.mod_eq_of_lt (by omega)
  have hlow : type.toNat % 256 % 2 ^ 8 = type.toNat % 256 := Nat.mod_eq_of_lt (by omega)
  simp only [etherType, hardHeader, List.append_assoc, List.getElem?_append, List.length_ofFn]
  simp only [Nat.reduceLT, Nat.reduceSub, if_false, if_true, List.length_cons, List.length_nil,
    Nat.reduceAdd, List.getElem?_cons_zero, List.getElem?_cons_succ, Option.getD_some,
    UInt8.toNat_ofNat', hhigh, hlow]
  exact Nat.div_add_mod' _ _

/-! ### What is changed -/

section Changed

variable {u : Setup} {x : Submission Skb}

theorem complement_byte_ne (b : UInt8) : 255 - b ≠ b := by
  intro h
  have hnat := congrArg UInt8.toNat h
  have hle : b.toNat ≤ 255 := Nat.le_of_lt_succ b.toNat_lt
  rw [UInt8.toNat_sub_of_le _ _ (UInt8.le_iff_toNat_le.2 hle)] at hnat
  have h255 : (255 : UInt8).toNat = 255 := rfl
  omega

/-- The places of a frame that a call writes to. -/
def touched : List ℕ := [checkOffset, checkOffset + 1, srcOffset, dstOffset]

theorem rewritten_of_not_touched {k : ℕ} (hk : k ∉ touched) :
    (rewritten u x)[k]? = (pad x.frame)[k]? := by
  simp only [touched, List.mem_cons, List.not_mem_nil, or_false, not_or] at hk
  obtain ⟨hcheck, hcheck', hsrc, hdst⟩ := hk
  rw [rewritten_getElem? u x hcheck hcheck', if_neg (by simp [hsrc, hdst])]

/-- The third bytes of what stands where IPv4 has its addresses do not stay the same. -/
theorem rewritten_addresses_ne {k : ℕ} (hk : k = srcOffset ∨ k = dstOffset) :
    (rewritten u x)[k]? ≠ (pad x.frame)[k]? := by
  have hmin : ethZLen ≤ (pad x.frame).length := by
    rw [pad_length]
    exact le_max_left _ _
  have hin : k < (pad x.frame).length := by
    refine lt_of_lt_of_le ?_ hmin
    rcases hk with rfl | rfl
    all_goals decide
  have hcheck : k ≠ checkOffset ∧ k ≠ checkOffset + 1 := by
    rcases hk with rfl | rfl
    all_goals decide
  rw [rewritten_getElem? u x hcheck.1 hcheck.2, if_pos hk, List.getElem?_eq_getElem hin,
    Option.map_some]
  intro h
  exact complement_byte_ne _ (Option.some.inj h)

theorem rewritten_ne_pad : rewritten u x ≠ pad x.frame := by
  intro h
  exact rewritten_addresses_ne (u := u) (x := x) (.inl rfl) (by rw [h])

end Changed

/-- **No frame crosses unchanged**: in every run of either program, what is delivered for a call is never
the padded frame, whatever its protocol: once no call on the device is in progress, the frame has been
delivered with the same length, the same bytes at all places but four, and at two of these other
bytes than those that were submitted. -/
theorem never_unchanged {u : Setup} {acts : List (Act Skb)} {s : State Skb}
    {log : List (Output Skb)} {data : Device → Memory UInt8} (p : Program)
    (hrun : (p.system u Skb).exec (init Skb data) acts = some (s, log)) (d : Device) {i : ℕ}
    {x : Submission Skb} (hx : (served d acts log)[i]? = some x) :
    (delivered d.peer log)[i]? ≠ some (pad x.frame) ∧
      (s.call d = none → ∃ frame, (delivered d.peer log)[i]? = some frame ∧
        frame.length = (pad x.frame).length ∧
        (∀ k, k ∉ touched → frame[k]? = (pad x.frame)[k]?) ∧
        ∀ k, k = srcOffset ∨ k = dstOffset → frame[k]? ≠ (pad x.frame)[k]?) := by
  constructor
  · intro hsame
    have hthere := served_of_delivered p hrun d hsame
    rw [hx, Option.map_some] at hthere
    exact rewritten_ne_pad (Option.some.inj hthere)
  · intro hidle
    refine ⟨rewritten u x, ?_, rewritten_length u x, fun k hk => rewritten_of_not_touched hk,
      fun k hk => rewritten_addresses_ne hk⟩
    rw [(delivered_served p hrun d).2 hidle, List.getElem?_map, hx, Option.map_some]

/-- An IPv6 packet without a payload, as it is sent on `ex0`. -/
def ipv6Frame : Submission ℕ :=
  ⟨7, hardHeader .ex0 ethPIpv6 none none ([0x60, 0, 0, 0, 0, 0, 59, 255] ++ List.replicate 32 1),
    fun _ => 0⟩

/-- It is sent on `ex0`, and there is memory for it. -/
def ipv6Acts : List (Act ℕ) :=
  List.flatten [[.startXmit .ex0 ipv6Frame], List.replicate 7 (.run .ex0), [.alloc .ex0 true],
    List.replicate 7 (.run .ex0)]

theorem never_unchanged_ipv6 :
    ∃ s log, (system checkingSetup ℕ).exec (init ℕ fun _ _ => 0) ipv6Acts = some (s, log) ∧
      (delivered .ex1 log)[0]? ≠ some (pad ipv6Frame.frame) := by
  obtain ⟨⟨s, log⟩, hrun, hval⟩ := Option.map_eq_some_iff.1
    (show ((system checkingSetup ℕ).exec (init ℕ fun _ _ => 0) ipv6Acts).map
        (fun r => allocated (part .ex0 r.2)) = some [true] by decide +kernel)
  have hserved : (served .ex0 ipv6Acts log)[0]? = some ipv6Frame := by
    rw [served, hval]
    rfl
  exact ⟨s, log, hrun, (never_unchanged .vi03 hrun .ex0 hserved).1⟩

/-- The IPv6 packet arrives with other bytes in its addresses. -/
theorem ipv6_frame_changed :
    etherType ipv6Frame.frame ≠ ethPIp.toNat ∧ ipv6Frame.frame.length ≤ ethDataLen ∧
      ∃ s log frame, (system checkingSetup ℕ).exec (init ℕ fun _ _ => 0) ipv6Acts = some (s, log) ∧
        delivered .ex1 log = [frame] ∧ frame[28]? = some 254 ∧ ipv6Frame.frame[28]? = some 1 ∧
        ¬ frame = ipv6Frame.frame ++ List.replicate (ethZLen - ipv6Frame.frame.length) 0 := by
  refine ⟨by decide +kernel, by decide +kernel, ?_⟩
  obtain ⟨⟨s, log⟩, hrun, hval⟩ := Option.map_eq_some_iff.1
    (show ((system checkingSetup ℕ).exec (init ℕ fun _ _ => 0) ipv6Acts).map
        (fun r => delivered .ex1 r.2) = some [rewritten checkingSetup ipv6Frame] by decide +kernel)
  have hsent : ipv6Frame.frame[28]? = some 1 := by decide +kernel
  have harrives : (rewritten checkingSetup ipv6Frame)[28]? = some 254 := by decide +kernel
  refine ⟨s, log, rewritten checkingSetup ipv6Frame, hrun, hval, harrives, hsent, fun hsame => ?_⟩
  rw [hsame] at harrives
  revert harrives
  decide +kernel

end IldDrivers.ExampleVI03
