import IldDrivers.Net.Delivery

/-!
# The linked devices without counters (`example-VI-02`)

`example-VI-02` is `example-VI-03` before its counters: the same frames and the same private
structures, and no statement about `net_dev->stats`.

* `system`: its calls, statement by statement;
* `exists_counted_run`: what it does in a run is what `example-VI-03` does in another, where it also
  counts.
-/

namespace IldDrivers.ExampleVI02

open ExampleVI03

variable {Skb : Type*}

/-! ### The machine -/

/-- One statement, other than `dev_alloc_skb`, of the call `c` on the device `src`: the reception ends
with `netif_rx`, which follows the copy, and the transmission is only the release of the `sk_buff`. -/
def runStep (u : Setup) (s : State Skb) (src : Device) (c : ExampleVI03.Call Skb) :
    Option (State Skb × List (Event Skb)) :=
  let dstPriv := s.priv src.peer
  match c.pc with
  | .copyOut =>
      some (s.setCall src
        (some { c with rx := dstPriv.data.load 0 dstPriv.dataLen, pc := .netifRx }), [])
  | .netifRx => some (s.setCall src (some { c with pc := .free }), [.netifRx src.peer c.rx])
  | .rxPackets | .rxBytes | .txPackets | .txBytes => none
  | _ => ExampleVI03.runStep u s src c

/-- The part of a step that the device takes. -/
def deviceStep (u : Setup) (s : State Skb) : Act Skb → Option (State Skb × List (Event Skb))
  | .startXmit d x => ExampleVI03.deviceStep u s (.startXmit d x)
  | .alloc d ok =>
      (s.call d).bind fun c =>
        if c.pc = .alloc then
          some (s.setCall d (some { c with pc := if ok then .copyOut else .free }), [.allocated ok])
        else none
  | .run d => (s.call d).bind (runStep u s d)

def step (u : Setup) (s : State Skb) (a : Act Skb) : Option (State Skb × List (Output Skb)) :=
  (deviceStep u s a).map fun r => (r.1, r.2.map (Output.mk a.device))

def system (u : Setup) (Skb : Type*) : System (State Skb) (Act Skb) (Output Skb) := ⟨step u⟩

/-! ### The same with counters -/

/-- The state with these counters. -/
def withStats (s : State Skb) (stats : Device → Stats) : State Skb := { s with stats := stats }

/-- The statement that follows one about the counters. -/
def afterCount : Pc → Option Pc
  | .rxPackets => some .rxBytes
  | .rxBytes => some .netifRx
  | .txPackets => some .txBytes
  | .txBytes => some .free
  | _ => none

section Counted

variable {u : Setup} {s s' t : State Skb} {d : Device} {c : ExampleVI03.Call Skb} {pc pc' : Pc}

theorem call_setCall (t : State Skb) (d : Device) (c : Option (ExampleVI03.Call Skb)) :
    (t.setCall d c).call d = c := Function.update_self ..

theorem setCall_setCall (t : State Skb) (c c' : Option (ExampleVI03.Call Skb)) :
    (t.setCall d c).setCall d c' = t.setCall d c' := by
  simp [State.setCall]

theorem setCall_withStats (t : State Skb) (stats : Device → Stats)
    (c c' : Option (ExampleVI03.Call Skb)) :
    (withStats (t.setCall d c) stats).setCall d c' = withStats (t.setCall d c') stats :=
  congrArg (withStats · stats) (setCall_setCall ..)

/-- The statements about the counters change nothing else. -/
theorem runStep_count (t : State Skb) (d : Device) (hpc : afterCount c.pc = some pc) :
    ∃ stats, ExampleVI03.runStep u t d c =
      some (withStats (t.setCall d (some { c with pc := pc })) stats, []) := by
  cases hcase : c.pc with
  | rxPackets | rxBytes | txPackets | txBytes =>
    rw [hcase] at hpc
    cases hpc
    rw [ExampleVI03.runStep, hcase]
    exact ⟨_, rfl⟩
  | _ =>
    rw [hcase] at hpc
    cases hpc

/-- The other statements do not depend on them. -/
theorem runStep_withStats (s : State Skb) (d : Device) (stats : Device → Stats)
    (hpc : afterCount c.pc = none) :
    ExampleVI03.runStep u (withStats s stats) d c =
      (ExampleVI03.runStep u s d c).map fun r => (withStats r.1 stats, r.2) := by
  unfold ExampleVI03.runStep
  cases hcase : c.pc with
  | rxPackets | rxBytes | txPackets | txBytes =>
    rw [hcase] at hpc
    cases hpc
  | _ => rfl

/-- What `example-VI-03` does for a statement of a call. -/
theorem step_run (hcall : t.call d = some c) {out : List (Event Skb)}
    (hrun : ExampleVI03.runStep u t d c = some (s, out)) :
    ExampleVI03.step u t (.run d) = some (s, out.map (Output.mk d)) := by
  simp only [ExampleVI03.step, ExampleVI03.deviceStep, hcall, Option.bind_some, hrun,
    Option.map_some, Act.device]

/-- A statement of a call and the rest of the run. -/
theorem exec_run {t' t'' : State Skb} {out : List (Event Skb)} {acts : List (Act Skb)}
    {log : List (Output Skb)} (hcall : t.call d = some c)
    (hrun : ExampleVI03.runStep u t d c = some (t', out))
    (hrest : (ExampleVI03.system u Skb).exec t' acts = some (t'', log)) :
    (ExampleVI03.system u Skb).exec t (.run d :: acts) =
      some (t'', out.map (Output.mk d) ++ log) := by
  exact System.exec_cons.2 ⟨t', out.map (Output.mk d), log, step_run hcall hrun, hrest, rfl⟩

/-- The two statements about the counters that follow one another, of the reception or of the
transmission. -/
theorem exec_count (hcall : t.call d = some c) (hpc : afterCount c.pc = some pc)
    (hpc' : afterCount pc = some pc') :
    ∃ stats, (ExampleVI03.system u Skb).exec t [.run d, .run d] =
      some (withStats (t.setCall d (some { c with pc := pc' })) stats, []) := by
  obtain ⟨stats, hfirst⟩ := runStep_count (u := u) t d hpc
  obtain ⟨stats', hsecond⟩ := runStep_count (u := u) (c := { c with pc := pc })
    (withStats (t.setCall d (some { c with pc := pc })) stats) d hpc'
  rw [setCall_withStats] at hsecond
  refine ⟨stats', exec_run hcall hfirst (exec_run ?_ hsecond rfl)⟩
  exact call_setCall ..

/-! ### Simulation -/

/-- The same but for the counters. -/
def Counted (s t : State Skb) : Prop := ∃ stats, t = withStats s stats

/-- The same calls. -/
def SameCalls (acts acts' : List (Act Skb)) : Prop := ∀ d, xmits d acts' = xmits d acts

theorem sameCalls_count (a : Act Skb) (d : Device) : SameCalls [a] [a, .run d, .run d] := by
  intro d'
  cases a <;> rfl

/-- A statement of `example-VI-02` that counts in `example-VI-03`, and the two that do it there. -/
theorem exec_then_count {a : Act Skb} {out : List (Output Skb)} (stats : Device → Stats)
    (c : ExampleVI03.Call Skb) (hstep : ExampleVI03.step u t a =
      some (withStats (s.setCall d (some { c with pc := pc })) stats, out))
    {pc'' : Pc} (hpc : afterCount pc = some pc') (hpc' : afterCount pc' = some pc'') :
    ∃ acts t', (ExampleVI03.system u Skb).exec t acts = some (t', out) ∧
      Counted (s.setCall d (some { c with pc := pc'' })) t' ∧ SameCalls [a] acts := by
  obtain ⟨stats', hcount⟩ := exec_count (u := u) (c := { c with pc := pc })
    (t := withStats (s.setCall d (some { c with pc := pc })) stats) (call_setCall ..) hpc hpc'
  rw [setCall_withStats] at hcount
  refine ⟨[a, .run d, .run d], _, ?_, ⟨stats', rfl⟩, sameCalls_count a d⟩
  exact System.exec_cons.2 ⟨_, out, [], hstep, hcount, (List.append_nil out).symm⟩

/-- A step that is the same in both programs. -/
theorem exec_same {a : Act Skb} {out : List (Output Skb)} (stats : Device → Stats)
    (hstep : ExampleVI03.step u t a = some (withStats s stats, out)) :
    ∃ acts t', (ExampleVI03.system u Skb).exec t acts = some (t', out) ∧
      Counted s t' ∧ SameCalls [a] acts := by
  refine ⟨[a], _, ?_, ⟨stats, rfl⟩, fun _ => rfl⟩
  exact System.exec_cons.2 ⟨_, out, [], hstep, rfl, (List.append_nil out).symm⟩

/-- A statement of a call is simulated. -/
theorem counted_run {out : List (Event Skb)} (stats : Device → Stats) (hcall : s.call d = some c)
    (hrun : runStep u s d c = some (s', out)) :
    ∃ acts t', (ExampleVI03.system u Skb).exec (withStats s stats) acts =
      some (t', out.map (Output.mk d)) ∧ Counted s' t' ∧ SameCalls [.run d] acts := by
  have hcall' : (withStats s stats).call d = some c := hcall
  have hrx : afterCount .rxPackets = some .rxBytes ∧ afterCount .rxBytes = some .netifRx :=
    ⟨rfl, rfl⟩
  have htx : afterCount .txPackets = some .txBytes ∧ afterCount .txBytes = some .free :=
    ⟨rfl, rfl⟩
  unfold runStep at hrun
  cases hcase : c.pc with
  | copyOut =>
    rw [hcase] at hrun
    cases hrun
    refine exec_then_count stats { c with rx := (s.priv d.peer).data.load 0 (s.priv d.peer).dataLen }
      (step_run hcall' ?_) hrx.1 hrx.2
    rw [ExampleVI03.runStep, hcase]
    rfl
  | netifRx =>
    rw [hcase] at hrun
    cases hrun
    refine exec_then_count stats c (step_run hcall' ?_) htx.1 htx.2
    rw [ExampleVI03.runStep, hcase]
    rfl
  | rxPackets | rxBytes | txPackets | txBytes =>
    rw [hcase] at hrun
    cases hrun
  | _ =>
    rw [hcase] at hrun
    have hsame : ExampleVI03.runStep u s d c = some (s', out) := hrun
    refine exec_same stats (step_run hcall' ?_)
    rw [runStep_withStats s d stats (by rw [hcase]; rfl), hsame]
    rfl

theorem counted_step {a : Act Skb} {out : List (Output Skb)} (h : Counted s t)
    (hstep : step u s a = some (s', out)) :
    ∃ acts t', (ExampleVI03.system u Skb).exec t acts = some (t', out) ∧ Counted s' t' ∧
      SameCalls [a] acts := by
  obtain ⟨stats, rfl⟩ := h
  obtain ⟨⟨s', out⟩, hdevice, heq⟩ := Option.map_eq_some_iff.1 hstep
  cases heq
  cases a with
  | startXmit d x =>
    refine exec_same stats ?_
    simp only [deviceStep, ExampleVI03.deviceStep] at hdevice
    have hcall : (withStats s stats).call d = s.call d := rfl
    cases hidle : s.call d with
    | some c => simp [hidle] at hdevice
    | none =>
      simp only [hidle] at hdevice
      simp only [ExampleVI03.step, ExampleVI03.deviceStep, hcall, hidle]
      split_ifs at hdevice ⊢
      · cases hdevice
        rfl
      · cases hdevice
        rfl
  | alloc d ok =>
    obtain ⟨c, hcall, halloc⟩ := Option.bind_eq_some_iff.1 hdevice
    have hcall' : (withStats s stats).call d = some c := hcall
    by_cases hpc : c.pc = .alloc
    · rw [if_pos hpc] at halloc
      cases halloc
      have hstep' : ∀ ok, ExampleVI03.step u (withStats s stats) (.alloc d ok) =
          some (withStats (s.setCall d (some { c with pc := if ok then .copyOut else .txPackets }))
            stats, [⟨d, .allocated ok⟩]) := by
        intro ok
        simp only [ExampleVI03.step, ExampleVI03.deviceStep, hcall', Option.bind_some, if_pos hpc]
        rfl
      cases ok with
      | false => exact exec_then_count stats c (hstep' false) rfl rfl
      | true => exact exec_same stats (hstep' true)
    · rw [if_neg hpc] at halloc
      cases halloc
  | run d =>
    obtain ⟨c, hcall, hrun⟩ := Option.bind_eq_some_iff.1 hdevice
    exact counted_run stats hcall hrun

end Counted

/-- **`example-VI-03` is `example-VI-02` with counters**: for each run of `example-VI-02` there is one
of `example-VI-03` with the same calls and the same history, which comes to the same state but for
the counters. -/
theorem exists_counted_run {u : Setup} {acts : List (Act Skb)} {s₀ s : State Skb}
    {log : List (Output Skb)} (hrun : (system u Skb).exec s₀ acts = some (s, log)) :
    ∃ acts' t, (ExampleVI03.system u Skb).exec s₀ acts' = some (t, log) ∧
      Counted s t ∧ SameCalls acts acts' := by
  refine System.exec_simulation (M := SameCalls) (fun _ => rfl) ?_ ?_ ⟨s₀.stats, rfl⟩ hrun
  · intro as as' bs bs' h h' d
    have happend : ∀ l l' : List (Act Skb), xmits d (l ++ l') = xmits d l ++ xmits d l' := by
      intro l l'
      exact List.filterMap_append
    rw [happend, happend, h d, h' d]
  · intro s t a s' out h hstep
    exact counted_step h hstep

end IldDrivers.ExampleVI02
