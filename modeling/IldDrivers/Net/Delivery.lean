import IldDrivers.Net.Lanes

/-!
# What arrives in `example-VI-03`

* `handed`, `lost`: the frames that are to arrive, and those for which there is no memory;
* `Kept`: the invariant of one lane, with what the call in progress still owes;
* `frames_linked`: each device receives the frames of the other, rewritten, in their order; each
  `sk_buff` is freed once; the counters of the two devices agree.
-/

namespace IldDrivers.ExampleVI03

variable {Skb : Type*}

/-! ### Histories -/

/-- What the call on the device `d` does. -/
def part (d : Device) (log : List (Output Skb)) : List (Event Skb) :=
  log.filterMap fun o => if o.src = d then some o.event else none

def submitted (h : List (Event Skb)) : List (Submission Skb) :=
  h.filterMap fun e => match e with
    | .submitted x => some x
    | _ => none

/-- The results of `dev_alloc_skb`. -/
def allocated (h : List (Event Skb)) : List Bool :=
  h.filterMap fun e => match e with
    | .allocated ok => some ok
    | _ => none

def freed (h : List (Event Skb)) : List (Option Skb) :=
  h.filterMap fun e => match e with
    | .freed skb => some skb
    | _ => none

/-- The frames handed to `netif_rx`. -/
def frames (h : List (Event Skb)) : List (List UInt8) :=
  h.filterMap fun e => match e with
    | .netifRx _ frame => some frame
    | _ => none

/-- The frames handed to `netif_rx` on the device `dev`, by either call. -/
def delivered (dev : Device) (log : List (Output Skb)) : List (List UInt8) :=
  log.filterMap fun o => match o.event with
    | .netifRx dev' frame => if dev' = dev then some frame else none
    | _ => none

/-- The calls on the device `d`. -/
def xmits (d : Device) (acts : List (Act Skb)) : List (Submission Skb) :=
  acts.filterMap fun a => match a with
    | .startXmit d' x => if d' = d then some x else none
    | _ => none

/-- Those whose frame is not too long. -/
def accepted (d : Device) (acts : List (Act Skb)) : List (Submission Skb) :=
  (xmits d acts).filter fun x => (pad x.frame).length ≤ ethDataLen

/-- The frames for which there is memory, rewritten. -/
def handed (u : Setup) (calls : List (Submission Skb × Bool)) : List (List UInt8) :=
  (calls.filter fun z => z.2).map fun z => rewritten u z.1

/-- The calls for which there is none. -/
def lost (calls : List (Submission Skb × Bool)) : List (Submission Skb) :=
  (calls.filter fun z => !z.2).map Prod.fst

/-! ### One call -/

@[simp] theorem rewritten_length (u : Setup) (x : Submission Skb) :
    (rewritten u x).length = (pad x.frame).length := by
  simp [rewritten, withChecksum, setCheck, complement]

/-- What a rewritten frame is outside the checksum: the padded one, but for the third bytes of the two
addresses. -/
theorem rewritten_getElem? (u : Setup) (x : Submission Skb) {i : ℕ} (hcheck : i ≠ checkOffset)
    (hcheck' : i ≠ checkOffset + 1) :
    (rewritten u x)[i]? = if i = srcOffset ∨ i = dstOffset then ((pad x.frame)[i]?).map (255 - ·)
      else (pad x.frame)[i]? := by
  have hset : ∀ (b : UInt8 × UInt8) (l : List UInt8), (setCheck b l)[i]? = l[i]? := fun b l => by
    rw [setCheck, List.getElem?_set_ne (Ne.symm hcheck'), List.getElem?_set_ne (Ne.symm hcheck)]
  have hapart : srcOffset ≠ dstOffset := by decide
  rw [rewritten, withChecksum, hset, hset, complement, complement, List.getElem?_modify,
    List.getElem?_modify]
  by_cases hsrc : i = srcOffset
  · subst hsrc
    simp [hapart.symm]
  · by_cases hdst : i = dstOffset
    · subst hdst
      simp [hapart]
    · simp [hsrc, hdst, Ne.symm hsrc, Ne.symm hdst]

theorem pad_length_le {frame : List UInt8} (h : frame.length ≤ ethDataLen) :
    (pad frame).length ≤ ethDataLen := by
  unfold pad
  split_ifs with hshort
  · rw [List.length_append, List.length_replicate]
    unfold ethZLen ethDataLen at *
    omega
  · exact h

/-- The position of a statement in the call. -/
def Pc.rank : Pc → ℕ
  | .storeSkb => 0
  | .complementSrc => 1
  | .complementDst => 2
  | .clearCheck => 3
  | .setCheck => 4
  | .copyIn => 5
  | .setLen => 6
  | .alloc => 7
  | .copyOut => 8
  | .rxPackets => 9
  | .rxBytes => 10
  | .netifRx => 11
  | .txPackets => 12
  | .txBytes => 13
  | .free => 14

/-- What the statements before this one have made of the frame. -/
def staged (u : Setup) (x : Submission Skb) : Pc → List UInt8
  | .storeSkb => pad x.frame
  | .complementSrc => pad x.frame
  | .complementDst => complement srcOffset (pad x.frame)
  | .clearCheck => complement dstOffset (complement srcOffset (pad x.frame))
  | .setCheck => setCheck (0, 0) (complement dstOffset (complement srcOffset (pad x.frame)))
  | _ => rewritten u x

/-- What the statements before the next one have done. -/
structure Local (u : Setup) (l : Lane Skb) (c : Call Skb) : Prop where
  data : c.data = staged u c.submission c.pc
  skB : 0 < c.pc.rank → l.skB = some c.submission.skb
  copied : 5 < c.pc.rank →
    l.data.load 0 (pad c.submission.frame).length = rewritten u c.submission
  dataLen : 6 < c.pc.rank → l.dataLen = (pad c.submission.frame).length
  rx : 8 < c.pc.rank → c.pc.rank < 12 → c.rx = rewritten u c.submission

/-- What a call in progress owes from the statement `lo` to the statement `hi`. -/
def Lane.due {β : Type*} (l : Lane Skb) (lo hi : ℕ) (none : β) (some : Call Skb → β) : β :=
  match l.call with
  | .none => none
  | .some c => if lo ≤ c.pc.rank ∧ c.pc.rank ≤ hi then some c else none

/-- The invariant of a lane: the counters and the histories agree once what the call in progress
owes is added. -/
structure Kept (u : Setup) (l : Lane Skb) (h : List (Event Skb)) : Prop where
  call : ∀ c, l.call = some c → Local u l c ∧ ∃ xs, submitted h = xs ++ [c.submission]
  allocs : (submitted h).length = (allocated h).length + l.due 0 7 0 fun _ => 1
  frames : frames h ++ l.due 8 11 [] (fun c => [rewritten u c.submission]) =
    handed u ((submitted h).zip (allocated h))
  freed : freed h ++ l.due 0 14 [] (fun c => [some c.submission.skb]) =
    (submitted h).map fun x => some x.skb
  rxPackets : l.rxPackets + l.due 8 9 0 (fun _ => 1) ≡
    (handed u ((submitted h).zip (allocated h))).length [MOD 2 ^ u.abi.longBits]
  rxBytes : l.rxBytes + l.due 8 10 0 (fun c => (pad c.submission.frame).length) ≡
    ((handed u ((submitted h).zip (allocated h))).map List.length).sum [MOD 2 ^ u.abi.longBits]
  txPackets : l.txPackets + l.due 0 12 0 (fun _ => 1) ≡
    (submitted h).length [MOD 2 ^ u.abi.longBits]
  txBytes : l.txBytes + l.due 0 13 0 (fun c => (pad c.submission.frame).length) ≡
    ((submitted h).map fun x => (pad x.frame).length).sum [MOD 2 ^ u.abi.longBits]

/-- A step without an event that keeps what is owed. -/
structure Silent (u : Setup) (l l' : Lane Skb) : Prop where
  allocs : l'.due 0 7 0 (fun _ => 1) = l.due 0 7 0 (fun _ => 1)
  frames : l'.due 8 11 [] (fun c => [rewritten u c.submission]) =
    l.due 8 11 [] (fun c => [rewritten u c.submission])
  freed : l'.due 0 14 [] (fun c => [some c.submission.skb]) =
    l.due 0 14 [] (fun c => [some c.submission.skb])
  rxPackets : l'.rxPackets + l'.due 8 9 0 (fun _ => 1) ≡
    l.rxPackets + l.due 8 9 0 (fun _ => 1) [MOD 2 ^ u.abi.longBits]
  rxBytes : l'.rxBytes + l'.due 8 10 0 (fun c => (pad c.submission.frame).length) ≡
    l.rxBytes + l.due 8 10 0 (fun c => (pad c.submission.frame).length)
      [MOD 2 ^ u.abi.longBits]
  txPackets : l'.txPackets + l'.due 0 12 0 (fun _ => 1) ≡
    l.txPackets + l.due 0 12 0 (fun _ => 1) [MOD 2 ^ u.abi.longBits]
  txBytes : l'.txBytes + l'.due 0 13 0 (fun c => (pad c.submission.frame).length) ≡
    l.txBytes + l.due 0 13 0 (fun c => (pad c.submission.frame).length)
      [MOD 2 ^ u.abi.longBits]

variable {u : Setup} {l l' : Lane Skb} {h : List (Event Skb)} {c : Call Skb}

theorem Kept.silent (hk : Kept u l h) (hs : Silent u l l')
    (hcall : ∀ c', l'.call = some c' → Local u l' c' ∧ ∃ c, l.call = some c ∧
      c.submission = c'.submission) : Kept u l' h where
  call c' hc' := by
    obtain ⟨hlocal, c, hc, hsub⟩ := hcall c' hc'
    exact ⟨hlocal, hsub ▸ (hk.call c hc).2⟩
  allocs := by rw [hs.allocs, hk.allocs]
  frames := by rw [hs.frames, hk.frames]
  freed := by rw [hs.freed, hk.freed]
  rxPackets := hs.rxPackets.trans hk.rxPackets
  rxBytes := hs.rxBytes.trans hk.rxBytes
  txPackets := hs.txPackets.trans hk.txPackets
  txBytes := hs.txBytes.trans hk.txBytes

/-- The addition of an `unsigned long`. -/
theorem add_modEq (x y : ℕ) : u.add x y ≡ x + y [MOD 2 ^ u.abi.longBits] := Nat.mod_modEq _ _

/-- Once the frame has been rewritten, it stays so. -/
theorem staged_of_rank {x : Submission Skb} {pc : Pc} (hpc : 5 ≤ pc.rank) :
    staged u x pc = rewritten u x := by
  cases pc <;> first | rfl | exact absurd hpc (by decide)

/-- The next statement after the length has been stored. -/
theorem Local.next (hl : Local u l c) {pc : Pc} (hlen : 6 < c.pc.rank)
    (hpc : c.pc.rank < pc.rank) (hrx : 8 < pc.rank → pc.rank < 12 → 8 < c.pc.rank)
    (hsame : l'.skB = l.skB ∧ l'.data = l.data ∧ l'.dataLen = l.dataLen) :
    Local u l' { c with pc := pc } where
  data := by
    rw [hl.data, staged_of_rank (by omega), staged_of_rank (by simp only; omega)]
  skB _ := hsame.1.trans (hl.skB (by omega))
  copied _ := by
    rw [hsame.2.1]
    exact hl.copied (by omega)
  dataLen _ := hsame.2.2.trans (hl.dataLen hlen)
  rx hgt hlt := hl.rx (hrx hgt hlt) (by simp only at hlt; omega)

theorem Local.data_length (hl : Local u l c) (hpc : 5 ≤ c.pc.rank) :
    c.data.length = (pad c.submission.frame).length := by
  rw [hl.data, staged_of_rank hpc, rewritten_length]

section Statements

theorem kept_storeSkb (hk : Kept u l h) (hcall : l.call = some c) (hpc : c.pc = .storeSkb) :
    Kept u { l with skB := some c.submission.skb, call := some { c with pc := .complementSrc } }
      h := by
  obtain ⟨hlocal, -⟩ := hk.call c hcall
  refine hk.silent ?_ fun c' hc' => ?_
  · constructor <;> simp [Lane.due, hcall, hpc, Pc.rank, Nat.ModEq]
  · obtain rfl := Option.some.inj hc'
    have hdata := hlocal.data
    rw [hpc] at hdata
    refine ⟨⟨hdata, fun _ => rfl, ?_, ?_, ?_⟩, c, hcall, rfl⟩
    all_goals simp [Pc.rank]

theorem kept_rewrites {data : List UInt8} {pc : Pc} (hk : Kept u l h) (hcall : l.call = some c)
    (hrewrites : Rewrites u c data pc) :
    Kept u { l with call := some { c with data := data, pc := pc } } h := by
  obtain ⟨hlocal, -⟩ := hk.call c hcall
  have hdata := hlocal.data
  have hskB := hlocal.skB
  refine hk.silent ?_ fun c' hc' => ?_
  · cases hrewrites with
    | src hpc | dst hpc | clear hpc | check hpc =>
      constructor <;> simp [Lane.due, hcall, hpc, Pc.rank, Nat.ModEq]
  · obtain rfl := Option.some.inj hc'
    cases hrewrites with
    | src hpc | dst hpc | clear hpc | check hpc =>
      rw [hpc] at hdata hskB
      refine ⟨⟨?_, fun _ => hskB (by decide), ?_, ?_, ?_⟩, c, hcall, rfl⟩
      · simp only [hdata]
        rfl
      all_goals simp [Pc.rank]

theorem kept_copyIn (hk : Kept u l h) (hcall : l.call = some c) (hpc : c.pc = .copyIn) :
    Kept u { l with data := l.data.store 0 c.data, call := some { c with pc := .setLen } } h := by
  obtain ⟨hlocal, -⟩ := hk.call c hcall
  refine hk.silent ?_ fun c' hc' => ?_
  · constructor <;> simp [Lane.due, hcall, hpc, Pc.rank, Nat.ModEq]
  · obtain rfl := Option.some.inj hc'
    have hdata := hlocal.data
    have hskB := hlocal.skB
    have hlength := hlocal.data_length (by rw [hpc]; decide)
    rw [hpc] at hdata hskB
    refine ⟨⟨hdata, fun _ => hskB (by decide), fun _ => ?_, ?_, ?_⟩, c, hcall, rfl⟩
    · have hload := Memory.load_store l.data 0 c.data
      rw [hlength] at hload
      exact hload.trans hdata
    all_goals simp [Pc.rank]

theorem kept_setLen (hk : Kept u l h) (hcall : l.call = some c) (hpc : c.pc = .setLen) :
    Kept u { l with dataLen := c.data.length, call := some { c with pc := .alloc } } h := by
  obtain ⟨hlocal, -⟩ := hk.call c hcall
  refine hk.silent ?_ fun c' hc' => ?_
  · constructor <;> simp [Lane.due, hcall, hpc, Pc.rank, Nat.ModEq]
  · obtain rfl := Option.some.inj hc'
    have hdata := hlocal.data
    have hskB := hlocal.skB
    have hcopied := hlocal.copied
    have hlength := hlocal.data_length (by rw [hpc]; decide)
    rw [hpc] at hdata hskB hcopied
    refine ⟨⟨hdata, fun _ => hskB (by decide), fun _ => hcopied (by decide), fun _ => hlength, ?_⟩,
      c, hcall, rfl⟩
    simp [Pc.rank]

theorem kept_copyOut (hk : Kept u l h) (hcall : l.call = some c) (hpc : c.pc = .copyOut) :
    Kept u { l with call := some { c with rx := l.data.load 0 l.dataLen, pc := .rxPackets } }
      h := by
  obtain ⟨hlocal, -⟩ := hk.call c hcall
  refine hk.silent ?_ fun c' hc' => ?_
  · constructor <;> simp [Lane.due, hcall, hpc, Pc.rank, Nat.ModEq]
  · obtain rfl := Option.some.inj hc'
    obtain ⟨hdata, hskB, hcopied, hlen, -⟩ := hlocal
    rw [hpc] at hdata hskB hcopied hlen
    refine ⟨⟨hdata, fun _ => hskB (by decide), fun _ => hcopied (by decide),
      fun _ => hlen (by decide), fun _ _ => ?_⟩, c, hcall, rfl⟩
    simp only
    rw [hlen (by decide)]
    exact hcopied (by decide)

theorem kept_rxPackets (hk : Kept u l h) (hcall : l.call = some c) (hpc : c.pc = .rxPackets) :
    Kept u { l with rxPackets := u.add l.rxPackets 1, call := some { c with pc := .rxBytes } }
      h := by
  obtain ⟨hlocal, -⟩ := hk.call c hcall
  refine hk.silent ?_ fun c' hc' => ?_
  · constructor
    case rxPackets => simpa [Lane.due, hcall, hpc, Pc.rank] using add_modEq l.rxPackets 1
    all_goals simp [Lane.due, hcall, hpc, Pc.rank, Nat.ModEq]
  · obtain rfl := Option.some.inj hc'
    refine ⟨hlocal.next ?_ ?_ ?_ ⟨rfl, rfl, rfl⟩, c, hcall, rfl⟩
    all_goals simp [hpc, Pc.rank]

theorem kept_rxBytes (hk : Kept u l h) (hcall : l.call = some c) (hpc : c.pc = .rxBytes) :
    Kept u { l with rxBytes := u.add l.rxBytes l.dataLen, call := some { c with pc := .netifRx } }
      h := by
  obtain ⟨hlocal, -⟩ := hk.call c hcall
  have hlen := hlocal.dataLen (by rw [hpc]; decide)
  refine hk.silent ?_ fun c' hc' => ?_
  · constructor
    case rxBytes => simpa [Lane.due, hcall, hpc, Pc.rank, hlen] using add_modEq l.rxBytes l.dataLen
    all_goals simp [Lane.due, hcall, hpc, Pc.rank, Nat.ModEq]
  · obtain rfl := Option.some.inj hc'
    refine ⟨hlocal.next ?_ ?_ ?_ ⟨rfl, rfl, rfl⟩, c, hcall, rfl⟩
    all_goals simp [hpc, Pc.rank]

theorem kept_txPackets (hk : Kept u l h) (hcall : l.call = some c) (hpc : c.pc = .txPackets) :
    Kept u { l with txPackets := u.add l.txPackets 1, call := some { c with pc := .txBytes } }
      h := by
  obtain ⟨hlocal, -⟩ := hk.call c hcall
  refine hk.silent ?_ fun c' hc' => ?_
  · constructor
    case txPackets => simpa [Lane.due, hcall, hpc, Pc.rank] using add_modEq l.txPackets 1
    all_goals simp [Lane.due, hcall, hpc, Pc.rank, Nat.ModEq]
  · obtain rfl := Option.some.inj hc'
    refine ⟨hlocal.next ?_ ?_ ?_ ⟨rfl, rfl, rfl⟩, c, hcall, rfl⟩
    all_goals simp [hpc, Pc.rank]

theorem kept_txBytes (hk : Kept u l h) (hcall : l.call = some c) (hpc : c.pc = .txBytes) :
    Kept u { l with txBytes := u.add l.txBytes c.data.length, call := some { c with pc := .free } }
      h := by
  obtain ⟨hlocal, -⟩ := hk.call c hcall
  have hlength := hlocal.data_length (by rw [hpc]; decide)
  refine hk.silent ?_ fun c' hc' => ?_
  · constructor
    case txBytes =>
      simpa [Lane.due, hcall, hpc, Pc.rank, hlength] using add_modEq l.txBytes c.data.length
    all_goals simp [Lane.due, hcall, hpc, Pc.rank, Nat.ModEq]
  · obtain rfl := Option.some.inj hc'
    refine ⟨hlocal.next ?_ ?_ ?_ ⟨rfl, rfl, rfl⟩, c, hcall, rfl⟩
    all_goals simp [hpc, Pc.rank]

theorem handed_snoc (calls : List (Submission Skb × Bool)) (x : Submission Skb) (ok : Bool) :
    handed u (calls ++ [(x, ok)]) = handed u calls ++ if ok then [rewritten u x] else [] := by
  cases ok <;> simp [handed]

/-- A call without a result is not in the list of the results. -/
theorem zip_snoc_left {xs : List (Submission Skb)} {oks : List Bool} (h : xs.length = oks.length)
    (x : Submission Skb) : (xs ++ [x]).zip oks = xs.zip oks := by
  have happend := @List.zip_append _ _ xs [x] oks [] h
  simpa using happend

theorem kept_submit (x : Submission Skb) (hk : Kept u l h) (hcall : l.call = none) :
    Kept u { l with call := some ⟨x, pad x.frame, [], .storeSkb⟩ } (h ++ [.submitted x]) := by
  obtain ⟨-, hallocs, hframes, hfreed, hrxP, hrxB, htxP, htxB⟩ := hk
  simp only [Lane.due, hcall, add_zero, List.append_nil] at hallocs hframes hfreed hrxP hrxB htxP htxB
  have hsub : submitted (h ++ [.submitted x]) = submitted h ++ [x] := by simp [submitted]
  have hallocated : allocated (h ++ [.submitted x]) = allocated h := by simp [allocated]
  have hzip : (submitted h ++ [x]).zip (allocated h) = (submitted h).zip (allocated h) :=
    zip_snoc_left hallocs x
  refine ⟨fun c' hc' => ?_, ?_, ?_, ?_, ?_, ?_, ?_, ?_⟩
  · obtain rfl := Option.some.inj hc'
    refine ⟨⟨rfl, ?_, ?_, ?_, ?_⟩, submitted h, hsub⟩
    all_goals simp [Pc.rank]
  · simp [hsub, hallocated, Lane.due, Pc.rank, hallocs]
  · rw [hsub, hallocated, hzip, ← hframes]
    simp [frames, Lane.due, Pc.rank]
  · rw [hsub, List.map_append, ← hfreed]
    simp [freed, Lane.due, Pc.rank]
  · rw [hsub, hallocated, hzip]
    simpa [Lane.due, Pc.rank] using hrxP
  · rw [hsub, hallocated, hzip]
    simpa [Lane.due, Pc.rank] using hrxB
  · simpa [hsub, Lane.due, Pc.rank] using htxP.add_right 1
  · simpa [hsub, Lane.due, Pc.rank] using htxB.add_right (pad x.frame).length

theorem kept_refuse (skb : Skb) (ret : ℤ) (hk : Kept u l h) :
    Kept u l (h ++ [.refused skb ret]) := by
  have hsub : submitted (h ++ [.refused skb ret]) = submitted h := by simp [submitted]
  have hallocated : allocated (h ++ [.refused skb ret]) = allocated h := by simp [allocated]
  have hfreed : freed (h ++ [.refused skb ret]) = freed h := by simp [freed]
  have hframes : frames (h ++ [.refused skb ret]) = frames h := by simp [frames]
  obtain ⟨hcall, hallocs, hframes', hfreed', hrxP, hrxB, htxP, htxB⟩ := hk
  constructor <;> simp only [hsub, hallocated, hfreed, hframes] <;> assumption

theorem kept_alloc (ok : Bool) (hk : Kept u l h) (hcall : l.call = some c) (hpc : c.pc = .alloc) :
    Kept u { l with call := some { c with pc := if ok then .copyOut else .txPackets } }
      (h ++ [.allocated ok]) := by
  obtain ⟨hlocal, xs, hxs⟩ := hk.call c hcall
  obtain ⟨-, hallocs, hframes, hfreed, hrxP, hrxB, htxP, htxB⟩ := hk
  have hsub : submitted (h ++ [.allocated ok]) = submitted h := by simp [submitted]
  have hallocated : allocated (h ++ [.allocated ok]) = allocated h ++ [ok] := by simp [allocated]
  have hlength : xs.length = (allocated h).length := by
    simpa [Lane.due, hcall, hpc, Pc.rank, hxs] using hallocs
  -- the call is the first without a result
  have hzip : (submitted h).zip (allocated h) = xs.zip (allocated h) := by
    rw [hxs]
    exact zip_snoc_left hlength c.submission
  have hzip' : (submitted h).zip (allocated h ++ [ok]) =
      (submitted h).zip (allocated h) ++ [(c.submission, ok)] := by
    rw [hzip, hxs, List.zip_append hlength]
    rfl
  have hhanded := handed_snoc (u := u) ((submitted h).zip (allocated h)) c.submission ok
  refine ⟨fun c' hc' => ?_, ?_, ?_, ?_, ?_, ?_, ?_, ?_⟩
  · obtain rfl := Option.some.inj hc'
    refine ⟨hlocal.next ?_ ?_ ?_ ⟨rfl, rfl, rfl⟩, xs, hsub.trans hxs⟩
    all_goals cases ok <;> simp [hpc, Pc.rank]
  · rw [hsub, hallocated, hallocs]
    cases ok <;> simp [Lane.due, hcall, hpc, Pc.rank]
  · rw [hsub, hallocated, hzip', hhanded, ← hframes]
    cases ok <;> simp [frames, Lane.due, hcall, hpc, Pc.rank]
  · rw [hsub, ← hfreed]
    cases ok <;> simp [freed, Lane.due, hcall, hpc, Pc.rank]
  · rw [hsub, hallocated, hzip', hhanded]
    simp only [Lane.due, hcall, hpc, Pc.rank] at hrxP
    cases ok
    · simpa [Lane.due, Pc.rank] using hrxP
    · simpa [Lane.due, Pc.rank] using hrxP.add_right 1
  · rw [hsub, hallocated, hzip', hhanded]
    simp only [Lane.due, hcall, hpc, Pc.rank] at hrxB
    cases ok
    · simpa [Lane.due, Pc.rank] using hrxB
    · simpa [Lane.due, Pc.rank] using hrxB.add_right (pad c.submission.frame).length
  · rw [hsub]
    simp only [Lane.due, hcall, hpc, Pc.rank] at htxP
    cases ok <;> simpa [Lane.due, Pc.rank] using htxP
  · rw [hsub]
    simp only [Lane.due, hcall, hpc, Pc.rank] at htxB
    cases ok <;> simpa [Lane.due, Pc.rank] using htxB

theorem kept_netifRx (dst : Device) (hk : Kept u l h) (hcall : l.call = some c)
    (hpc : c.pc = .netifRx) :
    Kept u { l with call := some { c with pc := .txPackets } } (h ++ [.netifRx dst c.rx]) := by
  obtain ⟨hlocal, xs, hxs⟩ := hk.call c hcall
  have hrx := hlocal.rx (by rw [hpc]; decide) (by rw [hpc]; decide)
  obtain ⟨-, hallocs, hframes, hfreed, hrxP, hrxB, htxP, htxB⟩ := hk
  have hsub : submitted (h ++ [.netifRx dst c.rx]) = submitted h := by simp [submitted]
  have hallocated : allocated (h ++ [.netifRx dst c.rx]) = allocated h := by simp [allocated]
  simp only [Lane.due, hcall, hpc, Pc.rank] at hallocs hframes hfreed hrxP hrxB htxP htxB
  refine ⟨fun c' hc' => ?_, ?_, ?_, ?_, ?_, ?_, ?_, ?_⟩
  · obtain rfl := Option.some.inj hc'
    refine ⟨hlocal.next ?_ ?_ ?_ ⟨rfl, rfl, rfl⟩, xs, hsub.trans hxs⟩
    all_goals simp [hpc, Pc.rank]
  · simpa [hsub, hallocated, Lane.due, Pc.rank] using hallocs
  · rw [hsub, hallocated, ← hframes]
    simp [frames, Lane.due, Pc.rank, hrx]
  · rw [hsub, ← hfreed]
    simp [freed, Lane.due, Pc.rank]
  · rw [hsub, hallocated]
    simpa [Lane.due, Pc.rank] using hrxP
  · rw [hsub, hallocated]
    simpa [Lane.due, Pc.rank] using hrxB
  · rw [hsub]
    simpa [Lane.due, Pc.rank] using htxP
  · rw [hsub]
    simpa [Lane.due, Pc.rank] using htxB

theorem kept_free (hk : Kept u l h) (hcall : l.call = some c) (hpc : c.pc = .free) :
    Kept u { l with call := none } (h ++ [.freed l.skB]) := by
  obtain ⟨hlocal, -⟩ := hk.call c hcall
  have hskB := hlocal.skB (by rw [hpc]; decide)
  obtain ⟨-, hallocs, hframes, hfreed, hrxP, hrxB, htxP, htxB⟩ := hk
  have hsub : submitted (h ++ [.freed l.skB]) = submitted h := by simp [submitted]
  have hallocated : allocated (h ++ [.freed l.skB]) = allocated h := by simp [allocated]
  simp only [Lane.due, hcall, hpc, Pc.rank] at hallocs hframes hfreed hrxP hrxB htxP htxB
  refine ⟨fun c' hc' => (by cases hc'), ?_, ?_, ?_, ?_, ?_, ?_, ?_⟩
  · simpa [hsub, hallocated, Lane.due] using hallocs
  · rw [hsub, hallocated, ← hframes]
    simp [frames, Lane.due]
  · rw [hsub, ← hfreed]
    simp [freed, Lane.due, hskB]
  · rw [hsub, hallocated]
    simpa [Lane.due] using hrxP
  · rw [hsub, hallocated]
    simpa [Lane.due] using hrxB
  · rw [hsub]
    simpa [Lane.due] using htxP
  · rw [hsub]
    simpa [Lane.due] using htxB

end Statements

theorem kept_laneStep {dst : Device} {out : List (Event Skb)} (hk : Kept u l h)
    (hstep : LaneStep u dst l l' out) : Kept u l' (h ++ out) := by
  cases hstep with
  | submit x hcall => exact kept_submit x hk hcall
  | refuse x _ => exact kept_refuse x.skb _ hk
  | storeSkb c hcall hpc => simpa using kept_storeSkb hk hcall hpc
  | rewrites c data pc hcall hrewrites => simpa using kept_rewrites hk hcall hrewrites
  | copyIn c hcall hpc => simpa using kept_copyIn hk hcall hpc
  | setLen c hcall hpc => simpa using kept_setLen hk hcall hpc
  | alloc c ok hcall hpc => exact kept_alloc ok hk hcall hpc
  | copyOut c hcall hpc => simpa using kept_copyOut hk hcall hpc
  | rxPackets c hcall hpc => simpa using kept_rxPackets hk hcall hpc
  | rxBytes c hcall hpc => simpa using kept_rxBytes hk hcall hpc
  | netifRx c hcall hpc => exact kept_netifRx dst hk hcall hpc
  | txPackets c hcall hpc => simpa using kept_txPackets hk hcall hpc
  | txBytes c hcall hpc => simpa using kept_txBytes hk hcall hpc
  | free c hcall hpc => exact kept_free hk hcall hpc

/-! ### Every run -/

theorem part_append (d : Device) (log log' : List (Output Skb)) :
    part d (log ++ log') = part d log ++ part d log' := List.filterMap_append

theorem part_self (d : Device) (out : List (Event Skb)) : part d (out.map (Output.mk d)) = out := by
  simp [part, List.filterMap_map]

theorem part_of_ne {d d' : Device} (hd : d' ≠ d) (out : List (Event Skb)) :
    part d (out.map (Output.mk d')) = [] := by
  simp [part, hd]

theorem eq_or_eq_peer (d d' : Device) : d' = d ∨ d' = d.peer := by
  cases d <;> cases d' <;> decide

/-- A step, seen from one device: a step of its lane, or one of the other device. -/
theorem laneStep_of_step {s s' : State Skb} {out : List (Output Skb)} {a : Act Skb}
    (hstep : step u s a = some (s', out)) (d : Device) :
    LaneStep u d.peer (s.lane d) (s'.lane d) (part d out) ∨
      s'.lane d = s.lane d ∧ part d out = [] := by
  obtain ⟨⟨t, out⟩, hdevice, heq⟩ := Option.map_eq_some_iff.1 hstep
  cases heq
  obtain ⟨hlane, hpeer⟩ := deviceStep_lane hdevice
  rcases eq_or_eq_peer a.device d with rfl | rfl
  · rw [part_self]
    exact .inl hlane
  · exact .inr ⟨hpeer, part_of_ne (ne_peer _) _⟩

/-- What every step of a lane keeps, a step of the devices keeps of it. -/
theorem lane_keeps {I : Lane Skb → List (Event Skb) → Prop}
    (hkeep : ∀ {dst l l' h out}, I l h → LaneStep u dst l l' out → I l' (h ++ out))
    {s s' : State Skb} {log out : List (Output Skb)} {a : Act Skb} {d : Device}
    (h : I (s.lane d) (part d log)) (hstep : step u s a = some (s', out)) :
    I (s'.lane d) (part d (log ++ out)) := by
  rw [part_append]
  rcases laneStep_of_step hstep d with hlane | ⟨hlane, hout⟩
  · exact hkeep h hlane
  · rw [hlane, hout, List.append_nil]
    exact h

/-- What every step of a lane keeps holds of it in every run. -/
theorem lane_induction {I : Lane Skb → List (Event Skb) → Prop} {s₀ : State Skb} {d : Device}
    (hstart : I (s₀.lane d) [])
    (hkeep : ∀ {dst l l' h out}, I l h → LaneStep u dst l l' out → I l' (h ++ out))
    {acts : List (Act Skb)} {s : State Skb} {log : List (Output Skb)}
    (hrun : (system u Skb).exec s₀ acts = some (s, log)) : I (s.lane d) (part d log) := by
  refine System.exec_induction (I := fun s log => I (s.lane d) (part d log)) ?_ hstart hrun
  intro s log a s' out h hstep
  exact lane_keeps hkeep h hstep

theorem kept_step {s s' : State Skb} {log out : List (Output Skb)} {a : Act Skb}
    (hk : ∀ d, Kept u (s.lane d) (part d log)) (hstep : step u s a = some (s', out)) :
    ∀ d, Kept u (s'.lane d) (part d (log ++ out)) :=
  fun d => lane_keeps kept_laneStep (hk d) hstep

theorem kept_init (data : Device → Memory UInt8) (d : Device) :
    Kept u ((init Skb data).lane d) [] where
  call c hc := by cases hc
  allocs := rfl
  frames := rfl
  freed := rfl
  rxPackets := rfl
  rxBytes := rfl
  txPackets := rfl
  txBytes := rfl

theorem LaneStep.delivered {dst src : Device} {out : List (Event Skb)}
    (hstep : LaneStep u dst l l' out) (dev : Device) :
    delivered dev (out.map (Output.mk src)) = if dst = dev then frames out else [] := by
  cases hstep with
  | netifRx c _ _ => simp only [ExampleVI03.delivered, frames, List.map_cons, List.map_nil,
      List.filterMap_cons, List.filterMap_nil]; split_ifs <;> rfl
  | _ => simp [ExampleVI03.delivered, frames]

/-- What is handed to `netif_rx` on a device comes from the call on the other. -/
theorem delivered_step {s s' : State Skb} {out : List (Output Skb)} {a : Act Skb}
    (hstep : step u s a = some (s', out)) (d : Device) :
    delivered d.peer out = frames (part d out) := by
  obtain ⟨⟨t, out⟩, hdevice, heq⟩ := Option.map_eq_some_iff.1 hstep
  cases heq
  rw [(deviceStep_lane hdevice).1.delivered]
  rcases eq_or_eq_peer a.device d with rfl | rfl
  · rw [part_self, if_pos rfl]
  · rw [part_of_ne (ne_peer _), if_neg (ne_peer _)]
    rfl

theorem submitted_runStep {s s' : State Skb} {d : Device} {out : List (Event Skb)}
    (hstep : runStep u s d c = some (s', out)) : submitted out = [] := by
  unfold runStep at hstep
  cases hpc : c.pc <;> rw [hpc] at hstep <;> cases hstep <;> rfl

/-- A call on a frame that fits is begun. -/
theorem submitted_step {s s' : State Skb} {out : List (Output Skb)} {a : Act Skb}
    (hstep : step u s a = some (s', out)) (d : Device) :
    submitted (part d out) = accepted d [a] := by
  obtain ⟨⟨t, out⟩, hdevice, heq⟩ := Option.map_eq_some_iff.1 hstep
  cases heq
  have hpart : part d (out.map (Output.mk a.device)) = if a.device = d then out else [] := by
    split_ifs with hd
    · rw [← hd, part_self]
    · exact part_of_ne hd _
  rw [hpart]
  cases a with
  | startXmit d' x =>
    simp only [deviceStep] at hdevice
    cases hcall : s.call d' with
    | some c => simp [hcall] at hdevice
    | none =>
      simp only [hcall] at hdevice
      by_cases hlong : ethDataLen < (pad x.frame).length
      · rw [if_pos hlong] at hdevice
        cases hdevice
        by_cases hd : d' = d
        · simp [Act.device, accepted, xmits, submitted, hd, hlong]
        · simp [Act.device, accepted, xmits, submitted, hd]
      · rw [if_neg hlong] at hdevice
        cases hdevice
        by_cases hd : d' = d
        · simp [Act.device, accepted, xmits, submitted, hd, not_lt.1 hlong]
        · simp [Act.device, accepted, xmits, submitted, hd]
  | alloc d' ok =>
    obtain ⟨c, -, halloc⟩ := Option.bind_eq_some_iff.1 hdevice
    by_cases hpc : c.pc = .alloc
    · rw [if_pos hpc] at halloc
      cases halloc
      split_ifs <;> rfl
    · rw [if_neg hpc] at halloc
      cases halloc
  | run d' =>
    obtain ⟨c, -, hrun⟩ := Option.bind_eq_some_iff.1 hdevice
    have hnone := submitted_runStep hrun
    split_ifs
    · exact hnone
    · rfl

theorem accepted_append (d : Device) (acts acts' : List (Act Skb)) :
    accepted d (acts ++ acts') = accepted d acts ++ accepted d acts' := by
  rw [accepted, xmits, List.filterMap_append, List.filter_append]
  rfl

/-- When all the frames fit. -/
theorem accepted_eq_xmits {acts : List (Act Skb)} (d : Device)
    (hfits : ∀ d x, Act.startXmit d x ∈ acts → x.frame.length ≤ ethDataLen) :
    accepted d acts = xmits d acts := by
  refine List.filter_eq_self.2 fun x hx => ?_
  obtain ⟨a, ha, hax⟩ := List.mem_filterMap.1 hx
  cases a with
  | startXmit d' y =>
    by_cases hd : d' = d
    · simp only [if_pos hd, Option.some.injEq] at hax
      exact decide_eq_true (hax ▸ pad_length_le (hfits d' y ha))
    · simp [hd] at hax
  | alloc d' ok => cases hax
  | run d' => cases hax

/-- The history of a device, in terms of what the kernel has asked of it. -/
theorem histories {acts : List (Act Skb)} {s s' : State Skb} {log : List (Output Skb)}
    (hrun : (system u Skb).exec s acts = some (s', log)) (d : Device) :
    submitted (part d log) = accepted d acts ∧ delivered d.peer log = frames (part d log) := by
  induction acts generalizing s log with
  | nil =>
    cases hrun
    exact ⟨rfl, rfl⟩
  | cons a acts ih =>
    obtain ⟨t, out, outs, hstep, hrest, rfl⟩ := System.exec_cons.1 hrun
    obtain ⟨hsub, hframes⟩ := ih hrest
    have hsub' := submitted_step hstep d
    have hframes' := delivered_step hstep d
    constructor
    · rw [part_append, submitted, List.filterMap_append]
      exact (congrArg₂ _ hsub' hsub).trans (accepted_append d [a] acts).symm
    · rw [part_append, delivered, List.filterMap_append, frames, List.filterMap_append]
      exact congrArg₂ _ hframes' hframes

/-- The invariant of every run. -/
theorem kept_exec {acts : List (Act Skb)} {s : State Skb} {log : List (Output Skb)}
    {data : Device → Memory UInt8}
    (hrun : (system u Skb).exec (init Skb data) acts = some (s, log)) (d : Device) :
    Kept u (s.lane d) (part d log) :=
  lane_induction (kept_init data d) kept_laneStep hrun

/-- For each call there is memory, or there is not. -/
theorem length_handed_add_lost (u : Setup) (calls : List (Submission Skb × Bool)) :
    (handed u calls).length + (lost calls).length = calls.length := by
  rw [handed, lost, List.length_map, List.length_map]
  exact (List.length_eq_length_filter_add _).symm

theorem bytes_handed_add_lost (u : Setup) (calls : List (Submission Skb × Bool)) :
    ((handed u calls).map List.length).sum + ((lost calls).map fun x => (pad x.frame).length).sum =
      ((calls.map Prod.fst).map fun x => (pad x.frame).length).sum := by
  induction calls with
  | nil => rfl
  | cons z calls ih =>
    obtain ⟨x, ok⟩ := z
    rw [List.map_cons, List.map_cons, List.sum_cons, ← ih]
    cases ok
    · simp only [handed, lost, List.filter_cons, Bool.not_false, if_true, List.map_cons,
        List.sum_cons, Bool.false_eq_true, if_false]
      omega
    · simp only [handed, lost, List.filter_cons, Bool.not_true, if_true, List.map_cons,
        List.sum_cons, Bool.false_eq_true, if_false, rewritten_length]
      omega

/-- **What arrives, is freed and is counted**: in a run of any calls on the two devices with frames
of at most `ETH_DATA_LEN` bytes, their statements interleaved in any way, what a device receives are
the frames of the calls on the other for which there is memory, rewritten, in the order of the calls;
each call frees its `sk_buff` and nothing else; and when no call on a device is in progress, its
counters of transmission are those of reception of the other, plus the frames and bytes for which
there was no memory, modulo the width of the counters. -/
theorem frames_linked {acts : List (Act Skb)} {s : State Skb} {log : List (Output Skb)}
    {data : Device → Memory UInt8}
    (hrun : (system u Skb).exec (init Skb data) acts = some (s, log))
    (hfits : ∀ d x, Act.startXmit d x ∈ acts → x.frame.length ≤ ethDataLen) (d : Device) :
    let calls := (xmits d acts).zip (allocated (part d log))
    delivered d.peer log <+: handed u calls ∧
    freed (part d log) <+: (xmits d acts).map (fun x => some x.skb) ∧
    (s.call d = none →
      calls.map Prod.fst = xmits d acts ∧
      delivered d.peer log = handed u calls ∧
      freed (part d log) = (xmits d acts).map (fun x => some x.skb) ∧
      (s.stats d).txPackets ≡ (s.stats d.peer).rxPackets + (lost calls).length
        [MOD 2 ^ u.abi.longBits] ∧
      (s.stats d).txBytes ≡ (s.stats d.peer).rxBytes +
        ((lost calls).map fun x => (pad x.frame).length).sum [MOD 2 ^ u.abi.longBits]) := by
  intro calls
  obtain ⟨hsub, hdelivered⟩ := histories hrun d
  rw [accepted_eq_xmits d hfits] at hsub
  obtain ⟨-, hallocs, hframes, hfreed, hrxP, hrxB, htxP, htxB⟩ := kept_exec hrun d
  rw [hsub] at hallocs hframes hfreed hrxP hrxB htxP htxB
  refine ⟨?_, ⟨_, hfreed⟩, fun hidle => ?_⟩
  · rw [hdelivered]
    exact ⟨_, hframes⟩
  · have hcall : (s.lane d).call = none := hidle
    simp only [Lane.due, hcall, add_zero, List.append_nil] at hallocs hframes hfreed hrxP hrxB htxP htxB
    have hfst : calls.map Prod.fst = xmits d acts := List.map_fst_zip hallocs.le
    refine ⟨hfst, hdelivered.trans hframes, hfreed, ?_, ?_⟩
    · have hlength : calls.length = (xmits d acts).length := by rw [← hfst, List.length_map]
      rw [← hlength, ← length_handed_add_lost u] at htxP
      exact htxP.trans (hrxP.add_right _).symm
    · rw [← hfst, ← bytes_handed_add_lost u] at htxB
      exact htxB.trans (hrxB.add_right _).symm

/-- The checksum of the Internet, over `ihl` words of four bytes. -/
def exampleSetup : Setup where
  abi := .lp64
  ipFastCsum memory ihl :=
    let sum := ((List.range (2 * ihl)).map fun i =>
      (memory (2 * i)).toNat * 256 + (memory (2 * i + 1)).toNat).sum
    let check := 65535 - if sum = 0 then 0 else (sum - 1) % 65535 + 1
    (UInt8.ofNat (check / 256), UInt8.ofNat (check % 256))

/-- An empty IP packet. -/
def exampleFrame (skb : ℕ) : Submission ℕ :=
  ⟨skb, List.replicate 14 0 ++ [0x45] ++ List.replicate 19 0, fun _ => 0⟩

/-- A frame is sent on each device at the same time; there is memory only for that of `ex0`. -/
def exampleActs : List (Act ℕ) :=
  let both : List (Act ℕ) := [.run .ex0, .run .ex1]
  List.flatten
    [[.startXmit .ex0 (exampleFrame 7), .startXmit .ex1 (exampleFrame 8)],
      (List.replicate 7 both).flatten, [.alloc .ex1 false, .alloc .ex0 true],
      (List.replicate 3 both).flatten, List.replicate 4 (.run .ex0)]

theorem frames_linked_crossing :
    ∃ s log, (system exampleSetup ℕ).exec (init ℕ fun _ _ => 0) exampleActs = some (s, log) ∧
      delivered .ex1 log = [rewritten exampleSetup (exampleFrame 7)] ∧ delivered .ex0 log = [] ∧
      freed (part .ex0 log) = [some 7] ∧ freed (part .ex1 log) = [some 8] ∧
      (s.stats .ex1).txPackets ≡ (s.stats .ex0).rxPackets + 1 [MOD 2 ^ 64] := by
  obtain ⟨⟨s, log⟩, hrun, hval⟩ := Option.map_eq_some_iff.1
    (show ((system exampleSetup ℕ).exec (init ℕ fun _ _ => 0) exampleActs).map
        (fun r => ((r.1.call .ex0).isNone, (r.1.call .ex1).isNone, allocated (part .ex0 r.2),
          allocated (part .ex1 r.2))) = some (true, true, [true], [false]) by decide +kernel)
  simp only [Prod.mk.injEq, Option.isNone_iff_eq_none] at hval
  obtain ⟨hidle₀, hidle₁, hallocs₀, hallocs₁⟩ := hval
  have hfits : ∀ d x, Act.startXmit d x ∈ exampleActs → x.frame.length ≤ ethDataLen := by
    intro d x hx
    simp [exampleActs] at hx
    rcases hx with ⟨-, rfl⟩ | ⟨-, rfl⟩
    all_goals decide
  have h₀ := (frames_linked hrun hfits .ex0).2.2 hidle₀
  have h₁ := (frames_linked hrun hfits .ex1).2.2 hidle₁
  rw [hallocs₀] at h₀
  rw [hallocs₁] at h₁
  exact ⟨s, log, hrun, h₀.2.1, h₁.2.1, h₀.2.2.1, h₁.2.2.1, h₁.2.2.2.1⟩

end IldDrivers.ExampleVI03
