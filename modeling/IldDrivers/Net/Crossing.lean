import IldDrivers.Net.Rewriting
import IldDrivers.Net.Uncounted

/-!
# Frames that cross the two devices twice (`example-VI-02`, `example-VI-03`)

* `ReadsHeader`: `ip_fast_csum` reads nothing but the header;
* `rewritten_rewritten`: a frame with the right checksum is the same again after two calls;
* `Program`: the two programs; `delivered_served`, what arrives in both;
* `crossing_twice`: what arrives when what has arrived is sent back.
-/

namespace IldDrivers.ExampleVI03

variable {Skb : Type*}

/-! ### Rewriting twice -/

/-- `ip_fast_csum` reads as many words as it is told. -/
def ReadsHeader (u : Setup) : Prop :=
  ∀ n, 5 ≤ n → n ≤ 15 → ∀ memory memory' : ℕ → UInt8, (∀ i < 4 * n, memory i = memory' i) →
    u.ipFastCsum memory n = u.ipFastCsum memory' n

/-- A frame that is not padded nor refused, with its header and the checksum that `ip_fast_csum`
computes for it. -/
structure Crosses (u : Setup) (frame : List UInt8) : Prop where
  length_ge : ethZLen ≤ frame.length
  length_le : frame.length ≤ ethDataLen
  header : HasHeader frame
  check : frame[checkOffset]? = some (checksum u (setCheck (0, 0) frame) fun _ => 0).1
  check' : frame[checkOffset + 1]? = some (checksum u (setCheck (0, 0) frame) fun _ => 0).2

section Twice

variable {u : Setup} {data : List UInt8}

theorem complement_complement (offset : ℕ) (data : List UInt8) :
    complement offset (complement offset data) = data := by
  have htwice : ((255 - ·) ∘ (255 - ·) : UInt8 → UInt8) = id := by
    funext b
    show 255 - (255 - b) = b
    grind
  refine List.ext_getElem? fun i => ?_
  by_cases hi : i = offset
  · subst hi
    rw [complement, complement, List.getElem?_modify_eq, List.getElem?_modify_eq,
      Option.map_eq_map, Option.map_map, htwice, Option.map_id_apply]
  · rw [getElem?_complement_of_ne hi, getElem?_complement_of_ne hi]

theorem complement_comm {offset offset' : ℕ} (hne : offset ≠ offset') (data : List UInt8) :
    complement offset (complement offset' data) = complement offset' (complement offset data) := by
  refine List.ext_getElem? fun i => ?_
  by_cases hi : i = offset
  · subst hi
    rw [getElem?_complement_of_ne hne]
    simp [complement, hne.symm]
  · rw [getElem?_complement_of_ne hi]
    by_cases hi' : i = offset'
    · subst hi'
      simp [complement, hne]
    · rw [getElem?_complement_of_ne hi', getElem?_complement_of_ne hi',
        getElem?_complement_of_ne hi]

theorem complement_setCheck {offset : ℕ} (hcheck : offset ≠ checkOffset)
    (hcheck' : offset ≠ checkOffset + 1) (b : UInt8 × UInt8) (data : List UInt8) :
    complement offset (setCheck b data) = setCheck b (complement offset data) := by
  refine List.ext_getElem? fun i => ?_
  by_cases hi : i = offset
  · subst hi
    rw [getElem?_setCheck_of_ne b hcheck hcheck']
    simp only [complement, List.getElem?_modify_eq]
    rw [getElem?_setCheck_of_ne b hcheck hcheck']
  · rw [getElem?_complement_of_ne hi]
    simp only [setCheck, List.getElem?_set, List.length_set, complement_length]
    rw [getElem?_complement_of_ne hi]

theorem setCheck_setCheck (b b' : UInt8 × UInt8) (data : List UInt8) :
    setCheck b (setCheck b' data) = setCheck b data := by
  have hne : checkOffset + 1 ≠ checkOffset := by decide
  rw [setCheck, setCheck, setCheck, List.set_comm _ _ hne, List.set_set, List.set_set]

theorem setCheck_self {b : UInt8 × UInt8} (hcheck : data[checkOffset]? = some b.1)
    (hcheck' : data[checkOffset + 1]? = some b.2) : setCheck b data = data := by
  have hset : ∀ {i : ℕ} {c : UInt8}, data[i]? = some c → data.set i c = data := by
    intro i c h
    obtain ⟨hi, rfl⟩ := List.getElem?_eq_some_iff.1 h
    exact List.set_getElem_self hi
  rw [setCheck, hset hcheck, hset hcheck']

/-- What is behind the frame does not matter. -/
theorem checksum_behind (hreads : ReadsHeader u) (h : HasHeader data) (behind behind' : ℕ → UInt8) :
    checksum u data behind = checksum u data behind' := by
  have hge := h.ihl_ge
  have hlength := h.length_ge
  rw [checksum, checksum, h.memory_ihl, h.memory_ihl]
  refine hreads _ h.ihl_ge (ihl_le data) _ _ fun i hi => ?_
  have hin : ipHeader + i < data.length := by omega
  rw [headerMemory, headerMemory, List.getElem?_eq_getElem hin, Option.getD_some, Option.getD_some]

/-- The addresses complemented. -/
def flipped (data : List UInt8) : List UInt8 := complement dstOffset (complement srcOffset data)

theorem flipped_flipped (data : List UInt8) : flipped (flipped data) = data := by
  rw [flipped, flipped, complement_comm (show srcOffset ≠ dstOffset by decide),
    complement_complement, complement_complement]

theorem flipped_setCheck (b : UInt8 × UInt8) (data : List UInt8) :
    flipped (setCheck b data) = setCheck b (flipped data) := by
  rw [flipped, complement_setCheck (by decide) (by decide),
    complement_setCheck (by decide) (by decide), flipped]

theorem pad_of_length {frame : List UInt8} (h : ethZLen ≤ frame.length) : pad frame = frame := by
  rw [pad, if_neg (not_lt.2 h)]

/-- **A frame that has been rewritten twice** is what it was. -/
theorem rewritten_rewritten (hreads : ReadsHeader u) {x y : Submission Skb}
    (hx : Crosses u x.frame) (hy : y.frame = rewritten u x) : rewritten u y = x.frame := by
  have hpadx := pad_of_length hx.length_ge
  have hpady : pad y.frame = y.frame := by
    refine pad_of_length ?_
    rw [hy, rewritten_length, hpadx]
    exact hx.length_ge
  obtain ⟨c, hc⟩ : ∃ c, y.frame = setCheck c (flipped x.frame) := by
    rw [hy, rewritten, hpadx, withChecksum, setCheck_setCheck]
    exact ⟨_, rfl⟩
  have hflip : flipped y.frame = setCheck c x.frame := by
    rw [hc, flipped_setCheck, flipped_flipped]
  calc rewritten u y
      = withChecksum u y.behind (flipped y.frame) := by
        rw [rewritten, hpady]
        rfl
    _ = setCheck (checksum u (setCheck (0, 0) x.frame) y.behind) (setCheck (0, 0) x.frame) := by
        rw [hflip, withChecksum, setCheck_setCheck (0, 0)]
    _ = setCheck (checksum u (setCheck (0, 0) x.frame) fun _ => 0) x.frame := by
        rw [setCheck_setCheck, checksum_behind hreads (hx.header.after_setCheck (0, 0))]
    _ = x.frame := setCheck_self hx.check hx.check'

end Twice

/-! ### The two programs -/

inductive Program
  | vi02
  | vi03

def Program.system (u : Setup) (Skb : Type*) : Program → System (State Skb) (Act Skb) (Output Skb)
  | .vi02 => ExampleVI02.system u Skb
  | .vi03 => ExampleVI03.system u Skb

/-- The calls on the device for which there is memory. -/
def served (d : Device) (acts : List (Act Skb)) (log : List (Output Skb)) :
    List (Submission Skb) :=
  (((accepted d acts).zip (allocated (part d log))).filter fun z => z.2).map Prod.fst

section Programs

variable {u : Setup} {acts : List (Act Skb)} {s : State Skb} {log : List (Output Skb)}
  {data : Device → Memory UInt8}

theorem delivered_counted (hrun : (system u Skb).exec (init Skb data) acts = some (s, log))
    (d : Device) :
    delivered d.peer log <+: (served d acts log).map (rewritten u) ∧
      (s.call d = none → delivered d.peer log = (served d acts log).map (rewritten u)) := by
  obtain ⟨hsub, hdelivered⟩ := histories hrun d
  have hframes := (kept_exec hrun d).frames
  have hhanded : handed u ((submitted (part d log)).zip (allocated (part d log))) =
      (served d acts log).map (rewritten u) := by
    rw [hsub, handed, served, List.map_map]
    rfl
  rw [hhanded, ← hdelivered] at hframes
  refine ⟨⟨_, hframes⟩, fun hidle => ?_⟩
  have hcall : (s.lane d).call = none := hidle
  simpa only [Lane.due, hcall, List.append_nil] using hframes

/-- What arrives on a device are the frames of the other for which there is memory, rewritten. -/
theorem delivered_served (p : Program)
    (hrun : (p.system u Skb).exec (init Skb data) acts = some (s, log)) (d : Device) :
    delivered d.peer log <+: (served d acts log).map (rewritten u) ∧
      (s.call d = none → delivered d.peer log = (served d acts log).map (rewritten u)) := by
  cases p with
  | vi03 => exact delivered_counted hrun d
  | vi02 =>
    obtain ⟨acts', t, hrun', ⟨stats, rfl⟩, hsame⟩ := ExampleVI02.exists_counted_run hrun
    have hserved : served d acts' log = served d acts log := by
      rw [served, served, accepted, accepted, hsame d]
    have h := delivered_counted hrun' d
    rw [hserved] at h
    exact h

/-- What is delivered at a place comes from the call at that place. -/
theorem served_of_delivered (p : Program)
    (hrun : (p.system u Skb).exec (init Skb data) acts = some (s, log)) (d : Device) {i : ℕ}
    {frame : List UInt8} (hframe : (delivered d.peer log)[i]? = some frame) :
    ((served d acts log)[i]?).map (rewritten u) = some frame := by
  obtain ⟨rest, hrest⟩ := (delivered_served p hrun d).1
  have hi := (List.getElem?_eq_some_iff.1 hframe).1
  rw [← List.getElem?_map, ← hrest, List.getElem?_append_left hi, hframe]

/-- **Crossing twice**: in every run of either program, when a frame of 60 to 1500 bytes with a header
of at least five words and the right checksum is delivered to the other device, and what has been
delivered is sent back unchanged, then what is delivered for this second call is the frame itself,
and it has been delivered once the call is over. -/
theorem crossing_twice (p : Program) (hreads : ReadsHeader u)
    (hrun : (p.system u Skb).exec (init Skb data) acts = some (s, log)) (d : Device) {i j : ℕ}
    {x y : Submission Skb} (hx : (served d acts log)[i]? = some x) (hcrosses : Crosses u x.frame)
    (hy : (served d.peer acts log)[j]? = some y)
    (hback : (delivered d.peer log)[i]? = some y.frame) :
    (∀ frame, (delivered d log)[j]? = some frame → frame = x.frame) ∧
      (s.call d.peer = none → (delivered d log)[j]? = some x.frame) := by
  have hframe : y.frame = rewritten u x := by
    have hthere := served_of_delivered p hrun d hback
    rw [hx, Option.map_some] at hthere
    exact (Option.some.inj hthere).symm
  have htwice := rewritten_rewritten hreads hcrosses hframe
  constructor
  · intro frame hj
    have hreturn := served_of_delivered p hrun d.peer ((peer_peer d).symm ▸ hj)
    rw [hy, Option.map_some, htwice] at hreturn
    exact (Option.some.inj hreturn).symm
  · intro hidle
    have hreturn := (delivered_served p hrun d.peer).2 hidle
    rw [peer_peer] at hreturn
    rw [hreturn, List.getElem?_map, hy, Option.map_some, htwice]

end Programs

/-- The bytes of a header are what a machine with the checksum of the Internet reads. -/
theorem checkingSetup_reads : ReadsHeader checkingSetup := by
  intro n _ _ memory memory' h
  have hmap : (List.range (4 * n)).map memory = (List.range (4 * n)).map memory' :=
    List.map_congr_left fun i hi => h i (List.mem_range.1 hi)
  exact congrArg (internetChecksum .big) hmap

/-- An empty IP packet with its checksum, and what it becomes. -/
def sealedFrame : List UInt8 :=
  List.replicate 14 0 ++ [0x45, 0, 0, 0, 0, 0, 0, 0, 0, 0, 0xBA, 0xFF] ++ List.replicate 34 0

def crossedFrame : List UInt8 := rewritten checkingSetup ⟨(7 : ℕ), sealedFrame, fun _ => 0⟩

/-- It is sent on `ex0`, and what arrives is sent on `ex1`. -/
def crossingActs : List (Act ℕ) :=
  List.flatten
    [[.startXmit .ex0 ⟨7, sealedFrame, fun _ => 0⟩], List.replicate 7 (.run .ex0),
      [.alloc .ex0 true], List.replicate 7 (.run .ex0),
      [.startXmit .ex1 ⟨8, crossedFrame, fun _ => 0⟩], List.replicate 7 (.run .ex1),
      [.alloc .ex1 true], List.replicate 7 (.run .ex1)]

theorem crossing_twice_sealed :
    ∃ s log, (system checkingSetup ℕ).exec (init ℕ fun _ _ => 0) crossingActs = some (s, log) ∧
      crossedFrame ≠ sealedFrame ∧ (delivered .ex0 log)[0]? = some sealedFrame := by
  obtain ⟨⟨s, log⟩, hrun, hval⟩ := Option.map_eq_some_iff.1
    (show ((system checkingSetup ℕ).exec (init ℕ fun _ _ => 0) crossingActs).map
        (fun r => ((r.1.call .ex1).isNone, allocated (part .ex0 r.2), allocated (part .ex1 r.2),
          delivered .ex1 r.2)) = some (true, [true], [true], [crossedFrame]) by decide +kernel)
  simp only [Prod.mk.injEq, Option.isNone_iff_eq_none] at hval
  obtain ⟨hidle, hallocs₀, hallocs₁, hthere⟩ := hval
  have hserved₀ : (served .ex0 crossingActs log)[0]? = some ⟨7, sealedFrame, fun _ => 0⟩ := by
    rw [served, hallocs₀]
    rfl
  have hserved₁ : (served .ex1 crossingActs log)[0]? = some ⟨8, crossedFrame, fun _ => 0⟩ := by
    rw [served, hallocs₁]
    rfl
  have hcrosses : Crosses checkingSetup sealedFrame :=
    ⟨by decide, by decide, ⟨by decide, by decide⟩, by decide +kernel, by decide +kernel⟩
  have hback : (delivered .ex1 log)[0]? = some crossedFrame := by
    rw [hthere]
    rfl
  have h := crossing_twice .vi03 checkingSetup_reads hrun .ex0 hserved₀ hcrosses hserved₁ hback
  exact ⟨s, log, hrun, by decide +kernel, h.2 hidle⟩

end IldDrivers.ExampleVI03
