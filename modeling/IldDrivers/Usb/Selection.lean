import IldDrivers.Usb.Plug
import Mathlib.Tactic

/-!
# Which endpoints a probe selects (`example-VII-05`)

`example_probe` looks for its endpoints in a loop that writes to two global variables, and these live
on from one device to the next. The loop alone would leave the endpoint of the last device where the
new one has none; what keeps the devices apart is that every failed probe and every disconnect clears
the variables.

* `LastInterrupt`: the last interrupt endpoint of a direction in a list;
* `Choice`: what a probe returns, and the endpoints it leaves in the global variables;
* `probe_choice`: once the variables are NULL, a probe depends on its list and on the results of the
  calls inside it alone;
* `probes_answer`: all probes of all runs.
-/

namespace IldDrivers.ExampleVII.Plug

/-! ### The last endpoint of a direction -/

/-- An interrupt endpoint, for input or for output. -/
def EndpointDescriptor.IsInterrupt (d : EndpointDescriptor) (input : Bool) : Prop :=
  d.bmAttributes &&& usbEndpointXferTypeMask = usbEndpointXferInt ∧
    decide (d.bEndpointAddress &&& usbDirIn ≠ 0) = input

/-- The descriptor is in the list, and no other one of its direction comes after it. -/
def LastInterrupt (input : Bool) (ds : List EndpointDescriptor) (d : EndpointDescriptor) : Prop :=
  ∃ before after, ds = before ++ d :: after ∧ d.IsInterrupt input ∧
    ∀ e ∈ after, ¬ e.IsInterrupt input

theorem interruptEndpoint_snoc (input : Bool) (ds : List EndpointDescriptor)
    (d : EndpointDescriptor) :
    (d.IsInterrupt input → interruptEndpoint input (ds ++ [d]) = some d) ∧
      (¬ d.IsInterrupt input →
        interruptEndpoint input (ds ++ [d]) = interruptEndpoint input ds) := by
  unfold interruptEndpoint
  rw [List.filter_append]
  constructor
  · rintro ⟨hint, rfl⟩
    simp [hint]
  · intro hnot
    rw [List.filter_singleton, cond_eq_ite, if_neg, List.append_nil]
    rw [Bool.and_eq_true, decide_eq_true_eq, beq_iff_eq]
    exact hnot

theorem lastInterrupt_of_interruptEndpoint {input : Bool} {ds : List EndpointDescriptor}
    {d : EndpointDescriptor} (h : interruptEndpoint input ds = some d) :
    LastInterrupt input ds d := by
  induction ds using List.reverseRecOn with
  | nil => cases h
  | append_singleton ds e ih =>
    by_cases he : e.IsInterrupt input
    · rw [(interruptEndpoint_snoc input ds e).1 he] at h
      cases h
      exact ⟨ds, [], rfl, he, fun e' he' => by cases he'⟩
    · rw [(interruptEndpoint_snoc input ds e).2 he] at h
      obtain ⟨before, after, rfl, hd, hafter⟩ := ih h
      refine ⟨before, after ++ [e], by simp, hd, fun e' he' => ?_⟩
      rcases List.mem_append.1 he' with hmem | hmem
      · exact hafter e' hmem
      · rw [List.mem_singleton.1 hmem]
        exact he

/-! ### One probe -/

/-- What is returned, and the endpoints that the global variables point to. -/
structure Choice where
  ret : ℤ
  inEndpoint : Option EndpointDescriptor
  outEndpoint : Option EndpointDescriptor

def Probed.choice (r : Probed) : Choice := ⟨r.ret, r.globals.inEndpoint, r.globals.outEndpoint⟩

def Record.choice (r : Record) : Choice := ⟨r.ret, r.globals.inEndpoint, r.globals.outEndpoint⟩

/-- What the first probe after the registration of the driver comes to. -/
def firstChoice (ds : List EndpointDescriptor) (o : Outcomes) : Choice :=
  (probe 0 init.globals ds o).choice

/-- The endpoint for a direction is the last one of the list, and takes packets of the size of the
buffer. -/
def Selects (input : Bool) (ds : List EndpointDescriptor) (endpoint : Option EndpointDescriptor) :
    Prop :=
  ∃ d, endpoint = some d ∧ LastInterrupt input ds d ∧ exampleBufferSize ≤ d.wMaxPacketSize

/-- After the loop over the endpoints, the number of the probe and what is busy do not matter. -/
theorem acquireAll_choice (n m : ℕ) (dOut dIn : Option EndpointDescriptor) (o : Outcomes)
    (outBusy inBusy outBusy' inBusy' : ℤ) (log log' : List Entry) :
    (acquireAll n ⟨some n, dOut, dIn, none, none, none, none, outBusy, inBusy⟩ o log).choice =
      (acquireAll m ⟨some m, dOut, dIn, none, none, none, none, outBusy', inBusy'⟩ o log').choice := by
  obtain ⟨outUrb, inUrb, outBuffer, inBuffer, registerDev⟩ := o
  cases dOut with
  | none => rfl
  | some dOut =>
    cases dIn with
    | none => rfl
    | some dIn =>
      by_cases hout : dOut.wMaxPacketSize < exampleBufferSize
      · simp only [acquireAll, hout, if_true]
        rfl
      · by_cases hin : dIn.wMaxPacketSize < exampleBufferSize
        · simp only [acquireAll, hout, hin, if_true, if_false]
          rfl
        · simp only [acquireAll, hout, hin, if_false]
          -- one case for each call that can fail, in the order of the calls
          cases outUrb with
          | false => rfl
          | true =>
            cases inUrb with
            | false => rfl
            | true =>
              cases outBuffer with
              | false => rfl
              | true =>
                cases inBuffer with
                | false => rfl
                | true => cases registerDev <;> rfl

/-- The probe depends on the list and on the calls inside it. -/
theorem probe_choice {g : Globals} (hg : g.Null) (n : ℕ) (ds : List EndpointDescriptor)
    (o : Outcomes) : (probe n g ds o).choice = firstChoice ds o := by
  have hinit : init.globals.Null := kept_init.wf.idle rfl
  unfold firstChoice
  rw [probe_eq hg, probe_eq hinit]
  exact acquireAll_choice ..

theorem probe_selects {g : Globals} (hg : g.Null) {n : ℕ} {ds : List EndpointDescriptor}
    {o : Outcomes} (hret : (probe n g ds o).ret = 0) :
    Selects true ds (probe n g ds o).globals.inEndpoint ∧
      Selects false ds (probe n g ds o).globals.outEndpoint := by
  rw [probe_eq hg] at hret ⊢
  obtain ⟨dOut, dIn, hout, hin, hsizeOut, hsizeIn, hglobalOut, hglobalIn⟩ :=
    acquireAll_endpoints hret
  exact ⟨⟨dIn, hglobalIn, lastInterrupt_of_interruptEndpoint hin, hsizeIn⟩,
    ⟨dOut, hglobalOut, lastInterrupt_of_interruptEndpoint hout, hsizeOut⟩⟩

/-! ### Every run -/

/-- What a call comes to: a probe that returns 0 has selected the endpoints of its own list, and
every probe does what it would do after the registration of the driver. -/
def Answers : Act → Record → Prop
  | .probe ds o, r =>
      r.choice = firstChoice ds o ∧
        (r.ret = 0 → Selects true ds r.globals.inEndpoint ∧ Selects false ds r.globals.outEndpoint)
  | .disconnect, _ => True

theorem step_answers {s s' : State} {out : List Record} {a : Act} (hw : Wf s)
    (hstep : step s a = some (s', out)) : ∃ r, out = [r] ∧ Answers a r := by
  cases a with
  | probe ds o =>
    simp only [step] at hstep
    split_ifs at hstep with hbound
    cases hstep
    have hnull : s.globals.Null := hw.idle (by simpa using hbound)
    exact ⟨_, rfl, probe_choice hnull s.probes ds o, probe_selects hnull⟩
  | disconnect =>
    simp only [step] at hstep
    split_ifs at hstep
    cases hstep
    exact ⟨_, rfl, trivial⟩

theorem run_answers {acts : List Act} {s s' : State} {h₀ h : List Record} (hk : Kept s h₀)
    (hrun : system.exec s acts = some (s', h)) : List.Forall₂ Answers acts h := by
  induction acts generalizing s h₀ h with
  | nil =>
    cases hrun
    exact .nil
  | cons a acts ih =>
    obtain ⟨t, out, outs, hstep, hrest, rfl⟩ := System.exec_cons.1 hrun
    obtain ⟨r, rfl, hr⟩ := step_answers hk.wf hstep
    exact .cons hr (ih (kept_step hk hstep) hrest)

/-- **The endpoints of the device**: in every run of probes and disconnects, over any interfaces and
with any results of the calls inside the probes, a probe that returns 0 has selected the last
interrupt endpoint of each direction of its own list, with packets of at least the size of the
buffers; what a probe returns and which endpoints it selects are what they would be if it were the
first. -/
theorem probes_answer {acts : List Act} {s : State} {h : List Record}
    (hrun : system.exec init acts = some (s, h)) : List.Forall₂ Answers acts h :=
  run_answers kept_init hrun

/-- A board that has only an endpoint for input. -/
def inputOnly : List EndpointDescriptor := [⟨0x81, 3, 8⟩]

/-- The board, and after it a device without an endpoint for output, which is refused. -/
theorem probes_answer_k8055 :
    ∃ s h, system.exec init [.probe k8055 allSucceed, .disconnect, .probe inputOnly allSucceed] =
        some (s, h) ∧ h.map Record.ret = [0, 0, -eNoDev] ∧
      List.Forall₂ Answers
        [.probe k8055 allSucceed, .disconnect, .probe inputOnly allSucceed] h := by
  obtain ⟨⟨s, h⟩, hrun, hval⟩ := Option.map_eq_some_iff.1
    (show (system.exec init [.probe k8055 allSucceed, .disconnect,
        .probe inputOnly allSucceed]).map (fun r => r.2.map Record.ret) = some [0, 0, -eNoDev] by
      decide +kernel)
  exact ⟨s, h, hrun, hval, probes_answer hrun⟩

end IldDrivers.ExampleVII.Plug
