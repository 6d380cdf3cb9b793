import IldDrivers.Lib.Checksum
import IldDrivers.Net.Delivery

/-!
# What `example-VI-03` makes of an IPv4 frame

* `HasHeader`: the IP header of a frame, with its options, is in the frame;
* `ComputesChecksum`: `ip_fast_csum` computes the checksum of the Internet, on a machine of either
  byte order;
* `header_verifies`: the header of a rewritten frame verifies;
* `stored_frame`: what is in the buffer of the other device once a call has stored its frame there.
-/

namespace IldDrivers.ExampleVI03

variable {Skb : Type*}

/-! ### The header of a frame -/

/-- `ip_header->ihl`. -/
def ihl (data : List UInt8) : ℕ := ((data[ipHeader]?).getD 0).toNat % 16

/-- The IP header, with its options. -/
def header (data : List UInt8) : List UInt8 := (data.drop ipHeader).take (4 * ihl data)

/-- The header has at least its five words, and all of it is in the frame. -/
structure HasHeader (data : List UInt8) : Prop where
  ihl_ge : 5 ≤ ihl data
  length_ge : ipHeader + 4 * ihl data ≤ data.length

/-- `ip_fast_csum` computes the checksum of the Internet. -/
def ComputesChecksum (u : Setup) (e : ByteOrder) : Prop :=
  ∀ memory n, 5 ≤ n → n ≤ 15 →
    u.ipFastCsum memory n = internetChecksum e ((List.range (4 * n)).map memory)

theorem ihl_le (data : List UInt8) : ihl data ≤ 15 := by
  have hlt : ihl data < 16 := Nat.mod_lt _ (by decide)
  omega

section Header

variable {data data' : List UInt8}

/-- The length of the header is in the first of its bytes. -/
theorem ihl_congr (h : data'[ipHeader]? = data[ipHeader]?) : ihl data' = ihl data := by
  rw [ihl, ihl, h]

theorem HasHeader.congr (h : HasHeader data) (hlength : data'.length = data.length)
    (hbyte : data'[ipHeader]? = data[ipHeader]?) : HasHeader data' where
  ihl_ge := by
    rw [ihl_congr hbyte]
    exact h.ihl_ge
  length_ge := by
    rw [ihl_congr hbyte, hlength]
    exact h.length_ge

@[simp] theorem setCheck_length (b : UInt8 × UInt8) (data : List UInt8) :
    (setCheck b data).length = data.length := by
  rw [setCheck, List.length_set, List.length_set]

@[simp] theorem complement_length (offset : ℕ) (data : List UInt8) :
    (complement offset data).length = data.length := by
  rw [complement, List.length_modify]

theorem getElem?_setCheck_of_ne (b : UInt8 × UInt8) {i : ℕ} (hcheck : i ≠ checkOffset)
    (hcheck' : i ≠ checkOffset + 1) : (setCheck b data)[i]? = data[i]? := by
  rw [setCheck, List.getElem?_set_ne (Ne.symm hcheck'), List.getElem?_set_ne (Ne.symm hcheck)]

theorem getElem?_complement_of_ne {offset i : ℕ} (hoffset : i ≠ offset) :
    (complement offset data)[i]? = data[i]? := by
  simp [complement, Ne.symm hoffset]

theorem ihl_setCheck (b : UInt8 × UInt8) (data : List UInt8) : ihl (setCheck b data) = ihl data :=
  ihl_congr (getElem?_setCheck_of_ne b (by decide) (by decide))

theorem HasHeader.after_setCheck (h : HasHeader data) (b : UInt8 × UInt8) :
    HasHeader (setCheck b data) :=
  h.congr (setCheck_length b data) (getElem?_setCheck_of_ne b (by decide) (by decide))

theorem HasHeader.after_complement (h : HasHeader data) {offset : ℕ} (hoffset : ipHeader ≠ offset) :
    HasHeader (complement offset data) :=
  h.congr (complement_length offset data) (getElem?_complement_of_ne hoffset)

/-- The memory from the IP header on begins with the header. -/
theorem HasHeader.memory (h : HasHeader data) (behind : ℕ → UInt8) :
    (List.range (4 * ihl data)).map (headerMemory data behind) = header data := by
  have hlength := h.length_ge
  refine List.ext_getElem? fun i => ?_
  rw [header, List.getElem?_map, List.getElem?_take]
  split_ifs with hi
  · have hin : ipHeader + i < data.length := by omega
    rw [List.getElem?_range hi, List.getElem?_drop, List.getElem?_eq_getElem hin, Option.map_some,
      headerMemory, List.getElem?_eq_getElem hin, Option.getD_some]
  · rw [List.getElem?_eq_none (by rwa [List.length_range, ← not_lt]), Option.map_none]

/-- `ip_fast_csum` is given the length of the header. -/
theorem HasHeader.memory_ihl (h : HasHeader data) (behind : ℕ → UInt8) :
    (headerMemory data behind 0).toNat % 16 = ihl data := by
  have hin : ipHeader < data.length := by
    have hge := h.ihl_ge
    have hlength := h.length_ge
    omega
  rw [headerMemory, ihl, Nat.add_zero, List.getElem?_eq_getElem hin, Option.getD_some,
    Option.getD_some]

/-- The header after its checksum has been set. -/
theorem HasHeader.header_setCheck (h : HasHeader data) (b : UInt8 × UInt8) :
    header (setCheck b data) =
      (header data).take 10 ++ b.1 :: b.2 :: (header data).drop 12 := by
  have hge := h.ihl_ge
  have hlength := h.length_ge
  have hheader : (header data).length = 4 * ihl data := by
    rw [header, List.length_take, List.length_drop]
    omega
  have hset : header (setCheck b data) = ((header data).set 10 b.1).set 11 b.2 := by
    rw [header, ihl_setCheck, setCheck, List.drop_set, List.drop_set,
      if_neg (by decide), if_neg (by decide), List.take_set, List.take_set, header]
    rfl
  rw [hset]
  refine List.ext_getElem? fun i => ?_
  grind

end Header

/-! ### The checksum -/

section Checksum

variable {u : Setup} {e : ByteOrder} {data : List UInt8}

theorem ComputesChecksum.checksum_eq (hcsum : ComputesChecksum u e) (h : HasHeader data)
    (behind : ℕ → UInt8) : checksum u data behind = internetChecksum e (header data) := by
  rw [checksum, h.memory_ihl, hcsum _ _ h.ihl_ge (ihl_le data), h.memory]

/-- **The header verifies** once its checksum has been computed. -/
theorem withChecksum_verifies (hcsum : ComputesChecksum u e) (h : HasHeader data)
    (behind : ℕ → UInt8) (e' : ByteOrder) :
    Verifies e' (header (withChecksum u behind data)) := by
  have hblank := h.after_setCheck (0, 0)
  have hheader := h.header_setCheck (0, 0)
  have hlength := h.length_ge
  have hge := h.ihl_ge
  have hten : ((header data).take 10).length = 10 := by
    rw [header, List.length_take, List.length_take, List.length_drop]
    omega
  have htake : (header (setCheck (0, 0) data)).take 10 = (header data).take 10 := by
    rw [hheader, List.take_append_of_le_length (by rw [hten]), List.take_take, min_self]
  have hdrop : (header (setCheck (0, 0) data)).drop 12 = (header data).drop 12 := by
    rw [hheader, List.drop_append, hten, List.drop_eq_nil_of_le (by rw [hten]; decide),
      List.nil_append]
    rfl
  rw [withChecksum, hblank.header_setCheck, htake, hdrop]
  refine internetChecksum_verifies e e' _ (by rw [hten]; decide) ?_
  rw [hcsum.checksum_eq hblank, hheader]

end Checksum

/-- The header of a rewritten frame verifies. -/
theorem header_verifies {u : Setup} {e : ByteOrder} (hcsum : ComputesChecksum u e)
    {x : Submission Skb} (h : HasHeader (pad x.frame)) (e' : ByteOrder) :
    Verifies e' (header (rewritten u x)) :=
  withChecksum_verifies hcsum ((h.after_complement (by decide)).after_complement (by decide)) x.behind e'

/-! ### The buffer of the other device -/

section Stored

variable {u : Setup} {l l' : Lane Skb} {h : List (Event Skb)}

/-- No call is about to store its frame or its length. -/
def Lane.Stored (l : Lane Skb) : Prop := ∀ c, l.call = some c → 6 < c.pc.rank

/-- Between two calls, the buffer has the frame of the last one. -/
def Lane.KeepsLast (u : Setup) (l : Lane Skb) (h : List (Event Skb)) : Prop :=
  l.call = none → ∀ x, (submitted h).getLast? = some x →
    l.data.load 0 l.dataLen = rewritten u x

/-- While a call is in progress. -/
theorem Kept.stored_of_call (hk : Kept u l h) {c : Call Skb} (hcall : l.call = some c)
    (hpc : 6 < c.pc.rank) {x : Submission Skb} (hx : (submitted h).getLast? = some x) :
    l.data.load 0 l.dataLen = rewritten u x := by
  obtain ⟨hlocal, xs, hxs⟩ := hk.call c hcall
  rw [hxs, List.getLast?_concat] at hx
  obtain rfl := Option.some.inj hx
  rw [hlocal.dataLen hpc]
  exact hlocal.copied (by omega)

theorem keepsLast_step {dst : Device} {out : List (Event Skb)} (hk : Kept u l h)
    (hlast : l.KeepsLast u h) (hstep : LaneStep u dst l l' out) : l'.KeepsLast u (h ++ out) := by
  cases hstep with
  | refuse x hlong =>
    intro hidle y hy
    refine hlast hidle y ?_
    rw [← hy]
    simp [submitted]
  | free c hcall hpc =>
    intro _ y hy
    refine hk.stored_of_call hcall (by rw [hpc]; decide) ?_
    rw [← hy]
    simp [submitted]
  | _ =>
    intro hidle
    cases hidle

theorem stored_exec {acts : List (Act Skb)} {s : State Skb} {log : List (Output Skb)}
    {data : Device → Memory UInt8}
    (hrun : (system u Skb).exec (init Skb data) acts = some (s, log)) (d : Device) :
    (s.lane d).KeepsLast u (part d log) := by
  refine (lane_induction (I := fun l h => Kept u l h ∧ l.KeepsLast u h) ?_ ?_ hrun).2
  · exact ⟨kept_init data d, fun _ x hx => by simp [submitted] at hx⟩
  · intro dst l l' h out hI hlane
    exact ⟨kept_laneStep hI.1 hlane, keepsLast_step hI.1 hI.2 hlane⟩

end Stored

/-- **What a call stores for the other device**: in every state of every run in which the last frame
that the device has accepted has been stored, and this has a header of at least five words that lies
in it, what is stored has the length of the padded frame, is this frame but for the third bytes of
the two addresses, which are complemented, and for the checksum, and its header verifies. -/
theorem stored_frame {u : Setup} {e : ByteOrder} (hcsum : ComputesChecksum u e)
    {acts : List (Act Skb)} {s : State Skb} {log : List (Output Skb)} {data : Device → Memory UInt8}
    (hrun : (system u Skb).exec (init Skb data) acts = some (s, log)) (d : Device)
    (hstored : (s.lane d).Stored) {x : Submission Skb}
    (hlast : (accepted d acts).getLast? = some x) (hheader : HasHeader (pad x.frame)) :
    let stored := (s.priv d.peer).data.load 0 (s.priv d.peer).dataLen
    stored.length = (pad x.frame).length ∧
      (∀ i b, (pad x.frame)[i]? = some b → i ≠ checkOffset → i ≠ checkOffset + 1 →
        stored[i]? = some (if i = srcOffset ∨ i = dstOffset then 255 - b else b)) ∧
      Verifies .big (header stored) := by
  intro stored
  have hsub := (histories hrun d).1
  rw [← hsub] at hlast
  have heq : stored = rewritten u x := by
    cases hcall : s.call d with
    | none => exact stored_exec hrun d hcall x hlast
    | some c => exact (kept_exec hrun d).stored_of_call hcall (hstored c hcall) hlast
  rw [heq]
  refine ⟨rewritten_length u x, fun i b hb hcheck hcheck' => ?_, header_verifies hcsum hheader .big⟩
  rw [rewritten_getElem? u x hcheck hcheck', hb]
  split_ifs
  · rfl
  · rfl

/-- A machine with the checksum of the Internet. -/
def checkingSetup : Setup where
  abi := .lp64
  ipFastCsum memory n := internetChecksum .big ((List.range (4 * n)).map memory)

theorem checkingSetup_computes : ComputesChecksum checkingSetup .big := fun _ _ _ _ => rfl

theorem stored_frame_crossing :
    ∃ s log, (system checkingSetup ℕ).exec (init ℕ fun _ _ => 0) exampleActs = some (s, log) ∧
      let stored := (s.priv .ex1).data.load 0 (s.priv .ex1).dataLen
      stored.length = 60 ∧ Verifies .big (header stored) := by
  obtain ⟨⟨s, log⟩, hrun, hidle⟩ := Option.map_eq_some_iff.1
    (show ((system checkingSetup ℕ).exec (init ℕ fun _ _ => 0) exampleActs).map
        (fun r => (r.1.call .ex0).isNone) = some true by decide +kernel)
  have hstored : (s.lane .ex0).Stored := by
    intro c hc
    have hcall : s.call .ex0 = some c := hc
    rw [hcall] at hidle
    cases hidle
  have hheader : HasHeader (pad (exampleFrame 7).frame) := ⟨by decide, by decide⟩
  have h := stored_frame checkingSetup_computes hrun .ex0 hstored (x := exampleFrame 7) rfl hheader
  exact ⟨s, log, hrun, h.1, h.2.2⟩

end IldDrivers.ExampleVI03
