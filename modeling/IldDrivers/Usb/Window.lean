import IldDrivers.Usb.Parsing

/-!
# The part of `k_buffer` that a read copies (`example-VII-05`)

`example_read` copies what is left of the text after `*offset`, its NUL included. The number of these
bytes is computed in a `size_t`, and a read that starts beyond the NUL computes a large one.

* `textEnd`: where the text ends; `Terminated`: that it ends in the buffer;
* `remaining`, `tailStep_measure`: the length as the program computes it;
* `TextStep`, `textStep_of_callStep`: what a statement of a call does with the text;
* `Reading`, `reading_step`: the invariant of the runs in which one process reads at a time;
* `reads_inside_iff`: when all these reads copy bytes of the text only.
-/

namespace IldDrivers.ExampleVII

variable {Pid : Type*}

/-! ### The text -/

/-- `strlen (k_buffer)`: the index of the NUL. -/
def textEnd (kBuffer : Memory UInt8) : ℕ := (cstring (kBuffer.load 0 64)).length

/-- There is a NUL in `k_buffer`. -/
def Terminated (kBuffer : Memory UInt8) : Prop := 0 ∈ kBuffer.load 0 64

theorem Terminated.nul {kBuffer : Memory UInt8} (h : Terminated kBuffer) :
    textEnd kBuffer < 64 ∧ kBuffer (textEnd kBuffer) = 0 := by
  have hget : (kBuffer.load 0 64)[textEnd kBuffer]? = some 0 := getElem?_cstring_length h
  obtain ⟨hlt, -⟩ := List.getElem?_eq_some_iff.1 hget
  rw [Memory.load_length] at hlt
  rw [Memory.load_getElem? _ _ hlt, zero_add] at hget
  exact ⟨hlt, Option.some.inj hget⟩

/-- `snprintf` leaves a NUL. -/
theorem terminated_print (kBuffer : Memory UInt8) (text : List UInt8) :
    Terminated (kBuffer.store 0 (text.take 63 ++ [0])) := by
  have hlt : (text.take 63).length < 64 := Nat.lt_succ_of_le (List.length_take_le ..)
  refine List.mem_of_getElem? (i := (text.take 63).length) ?_
  rw [Memory.load_getElem? _ _ hlt, Memory.store_apply_add List.getElem?_concat_length]

/-- `lg`, when it is computed. -/
def remaining (S : Setup) (a : ReadArgs) (kBuffer : Memory UInt8) : ℕ :=
  ((textEnd kBuffer + 1 - a.offset : ℤ) % 2 ^ S.abi.longBits).toNat

theorem tailStep_measure (S : Setup) (a : ReadArgs) (f : Frame Pid) :
    tailStep S a f .measure = f.goto (if remaining S a f.kBuffer = 0 then .ret 0 [] 0
      else .copyOut (min a.length (remaining S a f.kBuffer))) := by
  change (if remaining S a f.kBuffer ≤ 0 then f.goto (.ret 0 [] 0)
    else f.goto (.copyOut (if remaining S a f.kBuffer > a.length then a.length
      else remaining S a f.kBuffer))) = _
  by_cases hzero : remaining S a f.kBuffer = 0
  · rw [if_pos hzero.le, if_pos hzero]
  · rw [if_neg (by omega), if_neg hzero]
    by_cases hlong : remaining S a f.kBuffer > a.length
    · rw [if_pos hlong, min_eq_left hlong.le]
    · rw [if_neg hlong, min_eq_right (not_lt.1 hlong)]

/-- After the copy the read returns: 0 if there was nothing to copy. -/
theorem tailStep_copyOut (S : Setup) (a : ReadArgs) (f : Frame Pid) (lg : ℕ) :
    ∃ ret user advance, tailStep S a f (.copyOut lg) = f.goto (.ret ret user advance) ∧
      (lg = 0 → ret = 0) := by
  dsimp only [tailStep]
  by_cases hfault : (copyToUser (f.kBuffer.load a.offset lg) a.copied).2 = 0
  · rw [if_neg (not_not.2 hfault)]
    exact ⟨_, _, _, rfl, fun hlg => by rw [hlg]; rfl⟩
  · rw [if_pos hfault]
    refine ⟨_, _, _, rfl, fun hlg => absurd ?_ hfault⟩
    subst hlg
    exact Nat.zero_sub _

theorem remaining_eq_zero_iff (S : Setup) (a : ReadArgs) (kBuffer : Memory UInt8) :
    remaining S a kBuffer = 0 ↔ (2 : ℤ) ^ S.abi.longBits ∣ textEnd kBuffer + 1 - a.offset := by
  have hnonneg : 0 ≤ (textEnd kBuffer + 1 - a.offset : ℤ) % 2 ^ S.abi.longBits :=
    Int.emod_nonneg _ (by positivity)
  rw [Int.dvd_iff_emod_eq_zero, remaining, Int.toNat_eq_zero]
  exact ⟨fun h => le_antisymm h hnonneg, Eq.le⟩

/-- A read that starts in the text or just after its NUL has at most the rest of it before it. -/
theorem remaining_le (S : Setup) {a : ReadArgs} {kBuffer : Memory UInt8}
    (h : a.offset ≤ textEnd kBuffer + 1) :
    a.offset + remaining S a kBuffer ≤ textEnd kBuffer + 1 := by
  have hle : (textEnd kBuffer + 1 - a.offset : ℤ) % 2 ^ S.abi.longBits ≤
      textEnd kBuffer + 1 - a.offset := by
    have hquot : 0 ≤ (textEnd kBuffer + 1 - a.offset : ℤ) / 2 ^ S.abi.longBits :=
      Int.ediv_nonneg (by omega) (by positivity)
    rw [Int.emod_def]
    exact sub_le_self _ (mul_nonneg (by positivity) hquot)
  unfold remaining
  omega

/-! ### What a statement does with the text -/

/-- Where a read that continues the text can be: it does not take the mutex. -/
def Pc.later : Pc → Bool
  | .enter | .measure | .copyOut _ | .ret _ _ _ => true
  | _ => false

/-- Neither at `snprintf` nor at the copy. -/
def Pc.plain : Pc → Bool
  | .format | .copyOut _ => false
  | _ => true

/-- An event of the call `c`. -/
inductive TextStep (S : Setup) (c : Call) (e : Event) (f f' : Frame Pid) : Prop
  /-- `snprintf`. -/
  | prints (hpc : f.pc = .format) (hpc' : f'.pc = .unlock none)
      (hk : f'.kBuffer = f.kBuffer.store 0 ((formatBytes f.ch.bytes).take 63 ++ [0]))
  | measures (a : ReadArgs) (he : e = .run) (hc : c = .read a) (hpc : f.pc = .measure)
      (hf' : f' = tailStep S a f .measure)
  | copies (a : ReadArgs) (lg : ℕ) (hc : c = .read a) (hpc : f.pc = .copyOut lg)
      (hf' : f' = tailStep S a f (.copyOut lg))
  | goes (hk : f'.kBuffer = f.kBuffer)
      (hpc' : f'.pc.plain = true ∨ f'.pc = .format ∧ c.dir = .input)
      (hlater : ∀ a, c = .read a → a.offset ≠ 0 → f.pc.later = true → f'.pc = .measure)

/-- A statement between the mutex and the end of the transfer. -/
theorem textStep_of_within {S : Setup} {c : Call} {e : Event} {f f' : Frame Pid}
    (hk : f'.kBuffer = f.kBuffer) (hpc : f.pc.later = false) (hpc' : f'.pc.plain = true) :
    TextStep S c e f f' :=
  .goes hk (.inl hpc') fun _ _ _ hlater => absurd (hpc.symm.trans hlater) Bool.false_ne_true

theorem textStep_of_runStep {S : Setup} {device : Ptr} {p : Pid} {c : Call} {f f' : Frame Pid}
    (h : runStep S device p c f = some f') : TextStep S c .run f f' := by
  obtain ⟨ch, kBuffer, o, pc⟩ := f
  cases ran_of_runStep h with
  | refuses _ _ hc hpc _ hf' | prepares _ _ hc hpc _ hf' =>
    cases hpc
    subst hf'
    exact .goes rfl (.inl rfl) fun a ha => by cases hc.symm.trans ha
  | begins a hc hpc hoffset hf' =>
    cases hpc
    subst hf'
    refine .goes rfl (.inl rfl) fun a' ha hne => absurd hoffset ?_
    cases hc.symm.trans ha
    exact hne
  | continues a hc hpc hoffset hf' =>
    cases hpc
    subst hf'
    exact .goes rfl (.inl rfl) fun _ _ _ _ => rfl
  | locks hpc _ hf' | noDevice hpc _ hf' | hasDevice hpc _ hf' | unlocksNoDev hpc hf'
  | waitsBusy hpc _ hf' | passes hpc _ hf' | wakesBusy hpc _ hf' | fills hpc hf'
  | waitsDone hpc _ hf' | done hpc _ hf' | wakesDone hpc _ hf' | fails hpc _ hf' | clears _ _ hpc hf'
  | unlocks _ hpc hf' | unlocksText hpc hf' =>
    cases hpc
    subst hf'
    exact textStep_of_within rfl rfl rfl
  | marks hpc hf' =>
    cases hpc
    subst hf'
    cases c <;> exact textStep_of_within rfl rfl rfl
  | stores i hpc hf' =>
    cases hpc
    subst hf'
    refine textStep_of_within rfl rfl ?_
    dsimp only
    split_ifs <;> rfl
  -- a write ends, a read goes on to `snprintf`
  | succeeds hpc _ hf' =>
    cases hpc
    subst hf'
    cases c with
    | write a => exact textStep_of_within rfl rfl rfl
    | read a => exact .goes rfl (.inr ⟨rfl, rfl⟩) fun _ _ _ hlater => by cases hlater
  | formats hpc hf' =>
    cases hpc
    subst hf'
    exact .prints rfl rfl rfl
  | measures a hc hpc hf' => exact .measures a rfl hc hpc hf'
  | copies a lg hc hpc hf' => exact .copies a lg hc hpc hf'

theorem textStep_of_callStep {S : Setup} {device : Ptr} {p : Pid} {c : Call} {f f' : Frame Pid}
    {e : Event} (h : callStep S device p c f e = some f') : TextStep S c e f f' := by
  by_cases he : e = .run
  · subst he
    exact textStep_of_runStep h
  · obtain ⟨ch, kBuffer, o, pc⟩ := f
    cases waited_of_callStep h he with
    | refused _ hpc hf' | submits hpc _ hf' | leavesLock hpc hf' | leavesBusy hpc hf'
    | leavesDone hpc hf' | timesBusy hpc hf' | timesDone hpc hf' =>
      cases hpc
      subst hf'
      exact textStep_of_within rfl rfl rfl

/-! ### One reader at a time -/

/-- The process is inside `example_read`. -/
def Proc.reads : Proc → Bool
  | .call (.read _) _ _ => true
  | _ => false

/-- The action is the start of a read. -/
def Act.startsRead : Act Pid → Bool
  | .start _ (.read _) => true
  | _ => false

/-- The reads follow each other: each starts when the one before it has returned. -/
def OneReader (s : State Pid) (act : Act Pid) : Prop :=
  act.startsRead = true → ∀ p, (s.proc p).reads = false

/-- The read whose length is computed in a step. -/
def measuring (s : State Pid) : Act Pid → Option ReadArgs
  | .proc p .run =>
      match s.proc p with
      | .call (.read a) _ .measure => some a
      | _ => none
  | _ => none

/-- Where the length is computed, the read starts in the text or just after its NUL, or asks for
nothing, or the difference is a multiple of what `size_t` can count. -/
def WithinText (S : Setup) (s : State Pid) (act : Act Pid) : Prop :=
  ∀ a ∈ measuring s act, a.offset ≤ textEnd s.kBuffer + 1 ∨ a.length = 0 ∨
    (2 : ℤ) ^ S.abi.longBits ∣ textEnd s.kBuffer + 1 - a.offset

/-- The text ends in `k_buffer`; what is about to be copied from it is before or at its NUL; a read that
starts beyond the NUL returns 0. -/
structure InsideText (s : State Pid) : Prop where
  ends : textEnd s.kBuffer < 64 ∧ s.kBuffer (textEnd s.kBuffer) = 0
  copies : ∀ p a o lg, s.proc p = .call (.read a) o (.copyOut lg) →
    ∀ i, a.offset ≤ i → i < a.offset + lg → i ≤ textEnd s.kBuffer
  returns : ∀ p a o ret user advance, s.proc p = .call (.read a) o (.ret ret user advance) →
    textEnd s.kBuffer < a.offset → ret = 0

/-- Only a read prints, and a read that continues the text does not take the mutex. -/
def Placed (c : Call) (pc : Pc) : Prop :=
  (pc = .format → c.dir = .input) ∧ ∀ a, c = .read a → a.offset ≠ 0 → pc.later = true

/-- The invariant. -/
structure Reading (s : State Pid) : Prop where
  terminated : Terminated s.kBuffer
  one : ∀ p q, (s.proc p).reads = true → (s.proc q).reads = true → p = q
  placed : ∀ p c o pc, s.proc p = .call c o pc → Placed c pc

theorem Proc.reads_call {c : Call} (h : c.dir = .input) (o : Fin 8 → ℤ) (pc : Pc) :
    (Proc.call c o pc).reads = true := by
  cases c with
  | write a => cases h
  | read a => rfl

theorem Proc.eq_call_of_reads {x : Proc} (h : x.reads = true) : ∃ a o pc, x = .call (.read a) o pc := by
  cases x with
  | user | release => cases h
  | call c o pc =>
    cases c with
    | write a => cases h
    | read a => exact ⟨a, o, pc, rfl⟩

theorem placed_enter (c : Call) : Placed c .enter := ⟨nofun, fun _ _ _ => rfl⟩

theorem TextStep.placed {S : Setup} {c : Call} {e : Event} {f f' : Frame Pid}
    (h : TextStep S c e f f') (hplaced : Placed c f.pc) : Placed c f'.pc := by
  cases h with
  | prints hpc hpc' hk =>
    refine ⟨by rw [hpc']; nofun, fun a ha hne => ?_⟩
    -- such a read is not at `snprintf`
    have hlater := hplaced.2 a ha hne
    rw [hpc] at hlater
    cases hlater
  | measures a he hc hpc hf' =>
    rw [hf', tailStep_measure]
    dsimp only
    split_ifs
    · exact ⟨nofun, fun _ _ _ => rfl⟩
    · exact ⟨nofun, fun _ _ _ => rfl⟩
  | copies a lg hc hpc hf' =>
    obtain ⟨ret, user, advance, htail, -⟩ := tailStep_copyOut S a f lg
    rw [hf', htail]
    exact ⟨nofun, fun _ _ _ => rfl⟩
  | goes hk hpc' hlater =>
    refine ⟨fun hformat => ?_, fun a ha hne => ?_⟩
    · rcases hpc' with hplain | ⟨-, hdir⟩
      · rw [hformat] at hplain
        cases hplain
      · exact hdir
    · rw [hlater a ha hne (hplaced.2 a ha hne)]
      rfl

/-- The text in `k_buffer` still ends there. -/
theorem TextStep.terminated {S : Setup} {c : Call} {e : Event} {f f' : Frame Pid}
    (h : TextStep S c e f f') (hterminated : Terminated f.kBuffer) : Terminated f'.kBuffer := by
  cases h with
  | prints hpc hpc' hk => exact hk ▸ terminated_print _ _
  | measures a he hc hpc hf' =>
    rw [hf', tailStep_measure]
    exact hterminated
  | copies a lg hc hpc hf' =>
    obtain ⟨ret, user, advance, htail, -⟩ := tailStep_copyOut S a f lg
    rw [hf', htail]
    exact hterminated
  | goes hk => exact hk ▸ hterminated

section Steps

variable [DecidableEq Pid] {S : Setup} {s s' : State Pid} {act : Act Pid} {out : List (Output Pid)}

/-- A process that reads did so before, unless its read starts now. -/
theorem reads_of_step {p : Pid} (hreads : (s'.proc p).reads = true)
    (hstep : step S s act = some (s', out)) :
    (∃ a, act = .start p (.read a)) ∨ (s.proc p).reads = true := by
  obtain ⟨a, o, pc, hp'⟩ := Proc.eq_call_of_reads hreads
  rcases call_of_step hp' hstep with ⟨rfl, -⟩ | ⟨e, o₀, pc₀, f, -, hp, -⟩ | ⟨-, hp⟩
  · exact .inl ⟨a, rfl⟩
  · exact .inr (by rw [hp]; rfl)
  · exact .inr (by rw [hp]; rfl)

theorem reading_step (h : Reading s) (hone : OneReader s act) (hstep : step S s act = some (s', out)) :
    Reading s' := by
  refine ⟨?_, fun p q hp' hq' => ?_, fun p c o pc hp' => ?_⟩
  · rcases keeps_or_calls hstep with ⟨hsame, -⟩ | ⟨p, e, c, o, pc, f, -, -, rfl, hcall⟩
    · exact hsame ▸ h.terminated
    · exact (textStep_of_callStep hcall).terminated h.terminated
  · rcases reads_of_step hp' hstep with ⟨a, rfl⟩ | hp
    · rcases reads_of_step hq' hstep with ⟨b, heq⟩ | hq
      · cases heq
        rfl
      · exact absurd hq (by rw [hone rfl q]; decide)
    · rcases reads_of_step hq' hstep with ⟨b, rfl⟩ | hq
      · exact absurd hp (by rw [hone rfl p]; decide)
      · exact h.one p q hp hq
  · rcases call_of_step hp' hstep with ⟨-, rfl⟩ | ⟨e, o₀, pc₀, f, -, hp, -, rfl, hcall⟩ | ⟨-, hp⟩
    · exact placed_enter c
    · exact (textStep_of_callStep hcall).placed (h.placed p c o₀ pc₀ hp)
    · exact h.placed p c o pc hp

/-- While a process reads, the others leave `k_buffer` alone. -/
theorem Reading.kBuffer_eq (h : Reading s) {p : Pid} (hp : (s.proc p).reads = true)
    (hact : ∀ e, act ≠ .proc p e) (hstep : step S s act = some (s', out)) :
    s'.kBuffer = s.kBuffer := by
  rcases keeps_or_calls hstep with ⟨hsame, -⟩ | ⟨q, e, c, o, pc, f, rfl, hq, rfl, hcall⟩
  · exact hsame
  · cases textStep_of_callStep hcall with
    | prints hpc =>
      -- `q` reads too
      have hdir := (h.placed q c o pc hq).1 hpc
      have hsame := h.one p q hp (by rw [hq]; exact Proc.reads_call hdir o pc)
      exact absurd (by rw [hsame]) (hact e)
    | measures a _ _ _ hf' =>
      rw [hf', tailStep_measure]
    | copies a lg _ _ hf' =>
      obtain ⟨ret, user, advance, htail, -⟩ := tailStep_copyOut S a ⟨s.chan c.dir, s.kBuffer, o, pc⟩ lg
      rw [hf', htail]
    | goes hk => exact hk

/-! ### What is copied -/

omit [DecidableEq Pid] in
theorem measuring_eq_some {a : ReadArgs} (h : a ∈ measuring s act) :
    ∃ p o, act = .proc p .run ∧ s.proc p = .call (.read a) o .measure := by
  unfold measuring at h
  split at h
  · next p =>
    split at h
    · next b o hp =>
      cases h
      exact ⟨p, o, rfl, hp⟩
    · cases h
  · cases h

omit [DecidableEq Pid] in
theorem mem_measuring {p : Pid} {a : ReadArgs} {o : Fin 8 → ℤ}
    (hp : s.proc p = .call (.read a) o .measure) : a ∈ measuring s (.proc p .run) := by
  simp [measuring, hp]

/-- A read that is to stay in the text computes its length as `WithinText` says. -/
theorem withinText_of_insideText (hinside : InsideText s') (hstep : step S s act = some (s', out)) :
    WithinText S s act := by
  intro a ha
  obtain ⟨p, o, rfl, hp⟩ := measuring_eq_some ha
  rcases callStep_of_step hp hstep with ⟨f, hcall, hs', -⟩ | ⟨ret, user, advance, hpc, -⟩
  · cases hcall
    by_contra hout
    push Not at hout
    obtain ⟨hoffset, hlength, hdvd⟩ := hout
    rw [← remaining_eq_zero_iff] at hdvd
    rw [tailStep_measure, if_neg hdvd] at hs'
    -- a copy that starts beyond the NUL
    have hproc : s'.proc p =
        .call (.read a) o (.copyOut (min a.length (remaining S a s.kBuffer))) := by
      rw [hs', proc_setFrame]
    have hk : s'.kBuffer = s.kBuffer := by rw [hs']
    have hpos : 0 < min a.length (remaining S a s.kBuffer) :=
      lt_min (Nat.pos_of_ne_zero hlength) (Nat.pos_of_ne_zero hdvd)
    have hlast := hinside.copies p a o _ hproc a.offset le_rfl (Nat.lt_add_of_pos_right hpos)
    rw [hk] at hlast
    omega
  · cases hpc

/-- What a read is about to copy when it has computed its length. -/
theorem copy_le_textEnd {a : ReadArgs} {kBuffer : Memory UInt8}
    (hwithin : a.offset ≤ textEnd kBuffer + 1 ∨ a.length = 0 ∨
      (2 : ℤ) ^ S.abi.longBits ∣ textEnd kBuffer + 1 - a.offset)
    (hrest : remaining S a kBuffer ≠ 0) {i : ℕ} (hge : a.offset ≤ i)
    (hlt : i < a.offset + min a.length (remaining S a kBuffer)) : i ≤ textEnd kBuffer := by
  rcases hwithin with hoffset | hlength | hdvd
  · have hle := remaining_le S hoffset
    have hmin := Nat.min_le_right a.length (remaining S a kBuffer)
    omega
  · rw [hlength, Nat.zero_min] at hlt
    omega
  · exact absurd ((remaining_eq_zero_iff S a kBuffer).2 hdvd) hrest

theorem copies_step (h : Reading s) (hinside : InsideText s) (hwithin : WithinText S s act)
    (hstep : step S s act = some (s', out)) {p : Pid} {a : ReadArgs} {o : Fin 8 → ℤ} {lg : ℕ}
    (hp' : s'.proc p = .call (.read a) o (.copyOut lg)) {i : ℕ} (hge : a.offset ≤ i)
    (hlt : i < a.offset + lg) : i ≤ textEnd s'.kBuffer := by
  rcases call_of_step hp' hstep with ⟨-, hpc⟩ | ⟨e, o₀, pc₀, f, rfl, hp, rfl, hpc, hcall⟩ | ⟨hact, hp⟩
  · cases hpc
  · cases textStep_of_callStep hcall with
    | prints _ hpc' =>
      rw [hpc'] at hpc
      cases hpc
    | measures b he hc hpc₀ hf' =>
      cases hc
      cases hpc₀
      cases he
      have hmeasured := hwithin a (mem_measuring hp)
      rw [hf', tailStep_measure] at hpc ⊢
      by_cases hrest : remaining S a s.kBuffer = 0
      · rw [if_pos hrest] at hpc
        cases hpc
      · rw [if_neg hrest] at hpc
        cases hpc
        exact copy_le_textEnd hmeasured hrest hge hlt
    | copies b lg' hc hpc₀ hf' =>
      obtain ⟨ret, user, advance, htail, -⟩ := tailStep_copyOut S b _ lg'
      rw [hf', htail] at hpc
      cases hpc
    | goes hk hpc' =>
      rw [hpc] at hpc'
      rcases hpc' with hplain | ⟨hformat, -⟩
      · cases hplain
      · cases hformat
  · rw [h.kBuffer_eq (by rw [hp]; rfl) hact hstep]
    exact hinside.copies p a o lg hp i hge hlt

theorem returns_step (h : Reading s) (hinside : InsideText s)
    (hstep : step S s act = some (s', out)) {p : Pid} {a : ReadArgs} {o : Fin 8 → ℤ} {ret : ℤ}
    {user : List UInt8} {advance : ℕ} (hp' : s'.proc p = .call (.read a) o (.ret ret user advance))
    (hlt : textEnd s'.kBuffer < a.offset) : ret = 0 := by
  rcases call_of_step hp' hstep with ⟨-, hpc⟩ | ⟨e, o₀, pc₀, f, rfl, hp, rfl, hpc, hcall⟩ | ⟨hact, hp⟩
  · cases hpc
  · cases textStep_of_callStep hcall with
    | prints _ hpc' =>
      rw [hpc'] at hpc
      cases hpc
    | measures b he hc hpc₀ hf' =>
      rw [hf', tailStep_measure] at hpc
      dsimp only at hpc
      split_ifs at hpc
      cases hpc
      rfl
    | copies b lg hc hpc₀ hf' =>
      cases hc
      cases hpc₀
      obtain ⟨ret', user', advance', htail, hzero⟩ :=
        tailStep_copyOut S a ⟨s.chan (Call.read a).dir, s.kBuffer, o₀, .copyOut lg⟩ lg
      rw [hf', htail] at hpc hlt
      cases hpc
      -- nothing lies beyond the NUL to be copied
      refine hzero (Nat.eq_zero_of_not_pos fun hpos => ?_)
      have hlast := hinside.copies p a o₀ lg hp a.offset le_rfl (Nat.lt_add_of_pos_right hpos)
      exact absurd hlt (not_lt.2 hlast)
    | goes hk hpc' hlater =>
      have hne : a.offset ≠ 0 := Nat.ne_of_gt (Nat.zero_lt_of_lt hlt)
      rw [hlater a rfl hne ((h.placed p _ o₀ pc₀ hp).2 a rfl hne)] at hpc
      cases hpc
  · rw [h.kBuffer_eq (by rw [hp]; rfl) hact hstep] at hlt
    exact hinside.returns p a o ret user advance hp hlt

theorem insideText_step (h : Reading s) (hone : OneReader s act) (hinside : InsideText s)
    (hwithin : WithinText S s act) (hstep : step S s act = some (s', out)) : InsideText s' where
  ends := (reading_step h hone hstep).terminated.nul
  copies _ _ _ _ hp' _ hge hlt := copies_step h hinside hwithin hstep hp' hge hlt
  returns _ _ _ _ _ _ hp' hlt := returns_step h hinside hstep hp' hlt

end Steps

/-! ### Every run -/

theorem reading_init (heap : Direction → Memory UInt8) (unplug : List UnplugStmt) :
    Reading (init Pid heap unplug) where
  terminated := List.mem_of_getElem? (Memory.load_getElem? _ _ (show 0 < 64 by decide))
  one _ _ hp _ := by cases hp
  placed _ _ _ _ hp := by cases hp

theorem insideText_init (heap : Direction → Memory UInt8) (unplug : List UnplugStmt) :
    InsideText (init Pid heap unplug) where
  ends := (reading_init heap unplug).terminated.nul
  copies _ _ _ _ hp := by cases hp
  returns _ _ _ _ _ _ hp := by cases hp

/-- **When the reads stay inside the text**: in every run in which they follow each other, whatever
else happens, their copies end at the NUL and they return 0 beyond it as long as each starts in the
text or just after it, and not after one has started farther on. (A read of no bytes does not count, nor
does one whose distance from the text `size_t` cannot tell from 0.) -/
theorem reads_inside_iff [DecidableEq Pid] {S : Setup} {heap : Direction → Memory UInt8}
    {unplug : List UnplugStmt} {acts : List (Act Pid)} {s : State Pid} {log : List (Output Pid)}
    (hreads : (system S Pid).Along OneReader (init Pid heap unplug) acts)
    (hrun : (system S Pid).exec (init Pid heap unplug) acts = some (s, log)) :
    (system S Pid).Always InsideText (init Pid heap unplug) acts ↔
      (system S Pid).Along (WithinText S) (init Pid heap unplug) acts := by
  refine System.always_iff_along_of_along (W := Reading) ?_ ?_ (reading_init heap unplug)
    (insideText_init heap unplug) hreads hrun
  · intro s act s' out h hone hstep
    exact reading_step h hone hstep
  · intro s act s' out h hone hinside hstep
    exact ⟨fun hinside' => withinText_of_insideText hinside' hstep,
      fun hwithin => insideText_step h hone hinside hwithin hstep⟩

instance [Fintype Pid] (s : State Pid) (act : Act Pid) : Decidable (OneReader s act) :=
  inferInstanceAs (Decidable (act.startsRead = true → ∀ p, (s.proc p).reads = false))

instance (S : Setup) (s : State Pid) (act : Act Pid) : Decidable (WithinText S s act) :=
  inferInstanceAs (Decidable (∀ a ∈ measuring s act, a.offset ≤ textEnd s.kBuffer + 1 ∨
    a.length = 0 ∨ (2 : ℤ) ^ S.abi.longBits ∣ textEnd s.kBuffer + 1 - a.offset))

/-- A report is read, then four bytes in the middle of its text, then what follows the NUL. -/
def readInside : List (Act Bool) :=
  Act.enters false (.read ⟨0, 100, 100⟩) 6 ++
    [.proc false (.submit 0), .complete .input 0 [1, 2, 3, 4, 5, 6, 7, 8]] ++
    List.replicate 7 (.proc false .run) ++
    .start false (.read ⟨8, 4, 4⟩) :: List.replicate 4 (.proc false .run) ++
    .start false (.read ⟨17, 100, 100⟩) :: List.replicate 3 (.proc false .run)

theorem reads_inside_iff_readInside :
    ∃ (s : State Bool) (log : List (Output Bool)),
      (system (demo .vii05) Bool).exec (init Bool (fun _ _ => 0) []) readInside = some (s, log) ∧
      log = [.returned false 0 [] 0,
        .returned false 17 [49, 32, 50, 32, 51, 32, 52, 32, 53, 32, 54, 32, 55, 32, 56, 10, 0] 17,
        .returned false 4 [53, 32, 54, 32] 4, .returned false 0 [] 0] ∧
      (system (demo .vii05) Bool).Always InsideText (init Bool (fun _ _ => 0) []) readInside := by
  obtain ⟨⟨s, log⟩, hrun, hlog⟩ := Option.map_eq_some_iff.1
    (show ((system (demo .vii05) Bool).exec (init Bool (fun _ _ => 0) []) readInside).map
      (fun r => r.2) = some [.returned false 0 [] 0,
        .returned false 17 [49, 32, 50, 32, 51, 32, 52, 32, 53, 32, 54, 32, 55, 32, 56, 10, 0] 17,
        .returned false 4 [53, 32, 54, 32] 4, .returned false 0 [] 0] by decide +kernel)
  exact ⟨s, log, hrun, hlog, (reads_inside_iff (by decide +kernel) hrun).2 (by decide +kernel)⟩

/-- What the next statement of a process copies from `k_buffer`. -/
def Proc.copying : Proc → Option (ℕ × ℕ)
  | .call (.read a) _ (.copyOut lg) => some (a.offset, lg)
  | _ => none

theorem Proc.eq_call_of_copying {x : Proc} {offset lg : ℕ} (h : x.copying = some (offset, lg)) :
    ∃ a o, x = .call (.read a) o (.copyOut lg) ∧ a.offset = offset := by
  unfold Proc.copying at h
  split at h
  · next a o lg' =>
    cases h
    exact ⟨a, o, rfl, rfl⟩
  · cases h

/-- The device has just been opened and nothing has been read; 100 bytes are asked for at offset 2. -/
def readBeyond : List (Act Bool) := Act.enters false (.read ⟨2, 100, 100⟩) 2

/-- 100 bytes are copied from `k_buffer[2]`, its NUL being at index 0, and `k_buffer` has 64 bytes. -/
theorem pread_copies_beyond :
    ∃ (s : State Bool) (log : List (Output Bool)),
      (system (demo .vii05) Bool).Along OneReader (init Bool (fun _ _ => 0) []) readBeyond ∧
      (system (demo .vii05) Bool).exec (init Bool (fun _ _ => 0) []) readBeyond = some (s, log) ∧
      textEnd s.kBuffer = 0 ∧ (s.proc false).copying = some (2, 100) ∧
      ¬ (system (demo .vii05) Bool).Always InsideText (init Bool (fun _ _ => 0) []) readBeyond := by
  obtain ⟨⟨s, log⟩, hrun, hval⟩ := Option.map_eq_some_iff.1
    (show ((system (demo .vii05) Bool).exec (init Bool (fun _ _ => 0) []) readBeyond).map
      (fun r => (textEnd r.1.kBuffer, (r.1.proc false).copying)) = some (0, some (2, 100))
      by decide +kernel)
  simp only [Prod.mk.injEq] at hval
  obtain ⟨hend, hcopying⟩ := hval
  refine ⟨s, log, by decide +kernel, hrun, hend, hcopying, fun halways => ?_⟩
  obtain ⟨a, o, hproc, hoffset⟩ := Proc.eq_call_of_copying hcopying
  have hlast := (halways.last hrun).copies false a o 100 hproc 2 (by omega) (by omega)
  rw [hend] at hlast
  exact absurd hlast (by decide)

end IldDrivers.ExampleVII
