import IldDrivers.Fpga.Probe
import IldDrivers.Lib.History

/-!
# What probing and removing `example-fpga` leaves behind

A probe that fails is to return a negative error number, to leave the driver data NULL and to have
released what it has acquired; the removal of the driver is to release what the probe has acquired;
and nothing is to be released twice or used after its release.

* `Accounted`: these three of a history of calls;
* `Unwinds`: the probes that succeed, or fail early enough to be unwound as they should;
* `accounted_iff_unwinds`: the runs in which every probe is one of these are the runs that account
  for their resources.
-/

namespace IldDrivers.ExampleFpga

variable {Dev : Type*} [DecidableEq Dev]

/-! ### What is expected -/

/-- What a call does, with the probe that the resources belong to. -/
def Record.ledger (r : Record Dev) : List (LedgerEntry (ℕ × Resource)) :=
  r.log.map (Ledger.tag r.serial)

/-- The ledger of a history of calls. -/
def ledger (h : List (Record Dev)) : List (LedgerEntry (ℕ × Resource)) := h.flatMap Record.ledger

/-- The last call about the device `d`. -/
def lastOf (d : Dev) (h : List (Record Dev)) : Option (Record Dev) :=
  (h.filter fun r => r.dev = d).getLast?

/-- A failed probe is unwound, and a removal right after a successful probe of the device balances
it. -/
def CallAccounted (before : List (Record Dev)) (r : Record Dev) : Prop :=
  (r.isProbe = true → r.ret ≠ 0 → r.ret < 0 ∧ r.drvdata = none ∧ Ledger.Balanced r.ledger) ∧
  (r.isProbe = false → ∀ p, lastOf r.dev before = some p → p.isProbe = true → p.ret = 0 →
    Ledger.Balanced (p.ledger ++ r.ledger))

/-- The calls account for their resources. -/
structure Accounted (h : List (Record Dev)) : Prop where
  sound : Ledger.Sound (fun _ => 0) (ledger h)
  calls : History.EachAfter CallAccounted h

/-- The probe succeeds or ignores the device, or it fails in `kzalloc`, in `pci_enable_device` or,
when MSI could not be enabled, in `pci_request_region`. -/
def Unwinds (irq : ℕ) (o : Outcomes) : Prop :=
  irq = 0 ∨ o.kzalloc = false ∨ o.enableDevice ≠ none ∨
  (o.requestRegion ≠ none ∧ o.enableMsi = false) ∨
  (o.requestRegion = none ∧ (∀ m, o.ioremap m = true) ∧ o.requestIrq = true ∧
    o.allocChrdev = true ∧ o.cdevAdd = none)

/-! ### One probe -/

/-- What a probe that succeeds does with its resources. -/
def setupLog (msi : Bool) (created : Minor → Bool) : List Entry :=
  List.flatten
    [[.acquire .fpga, .use .fpga, .use .fpga, .acquire .enabled],
      if msi then [.acquire .msi] else [],
      [.use .fpga, .use .fpga, .acquire .region, .use .fpga, .acquire (.mapping .mem), .use .fpga,
        .acquire (.mapping .leds), .use .fpga, .acquire (.mapping .switches), .use .fpga,
        .acquire (.mapping .controls), .acquire .irqHandler, .use .fpga, .use (.mapping .switches),
        .use .fpga, .use (.mapping .switches), .use .fpga, .use (.mapping .controls),
        .acquire .chrdev],
      Minor.all.flatMap fun i => .use .fpga :: if created i then [.acquire (.device i)] else [],
      [.use .fpga, .acquire .cdev]]

def Resource.all : List Resource :=
  [.fpga, .enabled, .msi, .region, .mapping .mem, .mapping .leds, .mapping .switches,
    .mapping .controls, .irqHandler, .chrdev, .device .mem, .device .leds, .device .switches, .cdev]

theorem Resource.mem_all (r : Resource) : r ∈ Resource.all := by
  cases r with
  | mapping m => cases m <;> decide
  | device i => cases i <;> decide
  | _ => decide

/-- A choice of the devices of the class. -/
def Minor.table (mem leds switches : Bool) : Minor → Bool
  | .mem => mem
  | .leds => leds
  | .switches => switches

theorem Minor.eq_table (created : Minor → Bool) :
    created = table (created .mem) (created .leds) (created .switches) := by
  funext i
  cases i <;> rfl

/-- The set-up and the removal of a device, in all cases. -/
theorem setup_remove_cases : ∀ msi a b c : Bool,
    Ledger.Sound (fun _ => 0)
      (setupLog msi (Minor.table a b c) ++ remove 1 msi (Minor.table a b c)) ∧
    ∀ r ∈ Resource.all, Ledger.after (fun _ => 0)
      (setupLog msi (Minor.table a b c) ++ remove 1 msi (Minor.table a b c)) r = 0 := by
  decide +kernel

/-- **A device set up and removed**: nothing is released twice or used after its release, and
everything acquired is released. -/
theorem setup_remove {irq : ℕ} (hirq : irq ≠ 0) (msi : Bool) (created : Minor → Bool) :
    Ledger.Sound (fun _ => 0) (setupLog msi created ++ remove irq msi created) ∧
      Ledger.Balanced (setupLog msi created ++ remove irq msi created) := by
  have hone : remove irq msi created = remove 1 msi created := by
    simp [remove, releasePciDevice, hirq]
  rw [hone, Minor.eq_table created]
  obtain ⟨hsound, hafter⟩ := setup_remove_cases msi (created .mem) (created .leds)
    (created .switches)
  exact ⟨hsound, Ledger.balanced_of_after_eq hsound fun r => hafter r (Resource.mem_all r)⟩

/-- What a probe can come to. -/
inductive ProbeCase (irq : ℕ) (o : Outcomes) (r : Probed) : Prop
  | ignored (h : Unwinds irq o) (hret : r.ret = 0) (hdata : r.hasDrvdata = false)
      (hlog : r.log = [])
  | unwound (h : Unwinds irq o) (hret : r.ret < 0) (hdata : r.hasDrvdata = false)
      (hsound : Ledger.Sound (fun _ => 0) r.log) (hbalanced : Ledger.Balanced r.log)
  | setUp (h : Unwinds irq o) (hirq : irq ≠ 0) (hret : r.ret = 0) (hdata : r.hasDrvdata = true)
      (hlog : r.log = setupLog r.msiEnabled r.created)
  /-- It fails with a positive value, with the driver data set, or with MSI left enabled. -/
  | notUnwound (h : ¬ Unwinds irq o) (hret : r.ret ≠ 0)
      (hbad : ¬ (r.ret < 0 ∧ r.hasDrvdata = false ∧ Ledger.Balanced r.log))

/-- Without one of the mappings or the interrupt handler, the value returned is positive. -/
theorem initializePciDevice_unmapped {irq : ℕ} {o : Outcomes} (hirq : irq ≠ 0)
    (hen : o.enableDevice = none) (hregion : o.requestRegion = none)
    (h : ¬ ((∀ m, o.ioremap m = true) ∧ o.requestIrq = true)) :
    (initializePciDevice irq o).ret = eInval := by
  unfold initializePciDevice
  rw [hen, hregion]
  simp only [apply_ite PciSetup.ret]
  split_ifs with hmem hleds hswitches hcontrols hrequest
  · rfl
  · refine absurd ⟨fun m => ?_, by simpa [hirq] using hrequest⟩ h
    cases m with
    | mem => exact hmem
    | leds => exact hleds
    | switches => exact hswitches
    | controls => exact hcontrols
  all_goals rfl

section Cases

variable {irq : ℕ} {o : Outcomes}

/-- The region is not given: with MSI enabled that is left so. -/
theorem probeCase_of_region (hirq : irq ≠ 0) (hkz : o.kzalloc = true)
    (hen : o.enableDevice = none) {e : ℕ+} (hregion : o.requestRegion = some e) :
    ProbeCase irq o (probe irq o) := by
  cases hmsi : o.enableMsi with
  | false =>
    have hprobe : probe irq o = ⟨-(e : ℕ), false, false, fun _ => false,
        [.acquire .fpga, .use .fpga, .use .fpga, .acquire .enabled, .use .fpga, .use .fpga,
          .release .enabled, .release .fpga]⟩ := by
      simp [probe, initializePciDevice, hirq, hkz, hen, hregion, hmsi]
    rw [hprobe]
    exact .unwound (.inr (.inr (.inr (.inl ⟨by simp [hregion], hmsi⟩)))) (by simp) rfl
      (by simp only; decide) (by simp only; decide)
  | true =>
    have hprobe : probe irq o = ⟨-(e : ℕ), false, true, fun _ => false,
        [.acquire .fpga, .use .fpga, .use .fpga, .acquire .enabled, .acquire .msi, .use .fpga,
          .use .fpga, .release .enabled, .release .fpga]⟩ := by
      simp [probe, initializePciDevice, hirq, hkz, hen, hregion, hmsi]
    refine .notUnwound (fun h => ?_) (by simp [hprobe]) fun hbad => ?_
    · simp [Unwinds, hirq, hkz, hen, hregion, hmsi] at h
    · rw [hprobe] at hbad
      exact absurd hbad.2.2 (by simp only; decide)

/-- The hardware side is set up: what follows is not unwound. -/
theorem probeCase_of_mapped (hirq : irq ≠ 0) (hkz : o.kzalloc = true)
    (hen : o.enableDevice = none) (hregion : o.requestRegion = none)
    (hmap : ∀ m, o.ioremap m = true) (hrequest : o.requestIrq = true) :
    ProbeCase irq o (probe irq o) := by
  cases hchr : o.allocChrdev with
  | false =>
    have hret : (probe irq o).ret = eInval := by
      simp [probe, initializePciDevice, initializeCharDevice, hirq, hkz, hen, hregion, hmap,
        hrequest, hchr, eInval]
    refine .notUnwound (fun h => ?_) (by rw [hret]; decide) fun hbad => ?_
    · simp [Unwinds, hirq, hkz, hen, hregion, hchr] at h
    · rw [hret] at hbad
      exact absurd hbad.1 (by decide)
  | true =>
    cases hcdev : o.cdevAdd with
    | some e =>
      have hret : (probe irq o).ret = -(e : ℕ) ∧ (probe irq o).hasDrvdata = true := by
        simp [probe, initializePciDevice, initializeCharDevice, hirq, hkz, hen, hregion, hmap,
          hrequest, hchr, hcdev]
      refine .notUnwound (fun h => ?_) (by simp [hret.1]) fun hbad => ?_
      · simp [Unwinds, hirq, hkz, hen, hregion, hcdev] at h
      · rw [hret.2] at hbad
        exact absurd hbad.2.1 (by decide)
    | none =>
      have hprobe : probe irq o =
          ⟨0, true, o.enableMsi, o.createDevice, setupLog o.enableMsi o.createDevice⟩ := by
        simp [probe, initializePciDevice, initializeCharDevice, setupLog, hirq, hkz, hen, hregion,
          hmap, hrequest, hchr, hcdev]
      refine .setUp (.inr (.inr (.inr (.inr ⟨hregion, hmap, hrequest, hchr, hcdev⟩)))) hirq ?_ ?_ ?_
      all_goals rw [hprobe]

/-- A mapping or the interrupt handler is missing. -/
theorem probeCase_of_unmapped (hirq : irq ≠ 0) (hkz : o.kzalloc = true)
    (hen : o.enableDevice = none) (hregion : o.requestRegion = none)
    (hunmapped : ¬ ((∀ m, o.ioremap m = true) ∧ o.requestIrq = true)) :
    ProbeCase irq o (probe irq o) := by
  have hret : (probe irq o).ret = eInval := by
    have hpci := initializePciDevice_unmapped hirq hen hregion hunmapped
    have hne : eInval ≠ 0 := by decide
    simp [probe, hirq, hkz, hpci, hne]
  refine .notUnwound (fun h => ?_) (by rw [hret]; decide) fun hbad => ?_
  · simp only [Unwinds, hirq, hkz, hen, hregion] at h
    simp at h
    exact hunmapped ⟨h.1, h.2.1⟩
  · rw [hret] at hbad
    exact absurd hbad.1 (by decide)

end Cases

theorem probe_cases (irq : ℕ) (o : Outcomes) : ProbeCase irq o (probe irq o) := by
  by_cases hirq : irq = 0
  · subst hirq
    exact .ignored (.inl rfl) rfl rfl rfl
  cases hkz : o.kzalloc with
  | false =>
    have hprobe : probe irq o = ⟨-eNoMem, false, false, fun _ => false, []⟩ := by
      simp [probe, hirq, hkz]
    rw [hprobe]
    exact .unwound (.inr (.inl hkz)) (by simp only; decide) rfl trivial (fun _ => rfl)
  | true =>
    cases hen : o.enableDevice with
    | some e =>
      have hprobe : probe irq o = ⟨-(e : ℕ), false, false, fun _ => false,
          [.acquire .fpga, .use .fpga, .use .fpga, .release .fpga]⟩ := by
        simp [probe, initializePciDevice, hirq, hkz, hen]
      rw [hprobe]
      exact .unwound (.inr (.inr (.inl (by simp [hen])))) (by simp) rfl (by simp only; decide)
        (by simp only; decide)
    | none =>
      cases hregion : o.requestRegion with
      | some e => exact probeCase_of_region hirq hkz hen hregion
      | none =>
        by_cases hmapped : (∀ m, o.ioremap m = true) ∧ o.requestIrq = true
        · exact probeCase_of_mapped hirq hkz hen hregion hmapped.1 hmapped.2
        · exact probeCase_of_unmapped hirq hkz hen hregion hmapped

/-- A probe that unwinds as it should. -/
theorem ProbeCase.facts {irq : ℕ} {o : Outcomes} {r : Probed} (hcase : ProbeCase irq o r)
    (hu : Unwinds irq o) :
    Ledger.Sound (fun _ => 0) r.log ∧
    (r.ret ≠ 0 → r.ret < 0 ∧ r.hasDrvdata = false ∧ Ledger.Balanced r.log) ∧
    (0 ≤ r.ret → (r.hasDrvdata = false ∧ r.log = []) ∨
      (r.hasDrvdata = true ∧ irq ≠ 0 ∧ r.log = setupLog r.msiEnabled r.created)) := by
  cases hcase with
  | ignored _ hret hdata hlog =>
    exact ⟨hlog ▸ trivial, fun hne => absurd hret hne, fun _ => .inl ⟨hdata, hlog⟩⟩
  | unwound _ hret hdata hsound hbalanced =>
    exact ⟨hsound, fun _ => ⟨hret, hdata, hbalanced⟩, fun hpos => absurd hret (not_lt.2 hpos)⟩
  | setUp _ hirq hret hdata hlog =>
    refine ⟨?_, fun hne => absurd hret hne, fun _ => .inr ⟨hdata, hirq, hlog⟩⟩
    rw [hlog]
    exact (Ledger.sound_append.1 (setup_remove hirq r.msiEnabled r.created).1).1
  | notUnwound hnot => exact absurd hu hnot

/-! ### Every run -/

omit [DecidableEq Dev] in
theorem ledger_snoc (h : List (Record Dev)) (r : Record Dev) :
    ledger (h ++ [r]) = ledger h ++ r.ledger := by
  simp [ledger]

theorem lastOf_snoc (d : Dev) (h : List (Record Dev)) (r : Record Dev) :
    lastOf d (h ++ [r]) = if r.dev = d then some r else lastOf d h := by
  unfold lastOf
  rw [List.filter_append]
  split_ifs with hd
  · simp [hd]
  · simp [hd]

omit [DecidableEq Dev] in
/-- The call adds to the part of its probe, and to no other. -/
theorem part_snoc (n : ℕ) (h : List (Record Dev)) (r : Record Dev) :
    Ledger.part n (ledger (h ++ [r])) =
      Ledger.part n (ledger h) ++ if r.serial = n then r.log else [] := by
  rw [ledger_snoc, Ledger.part_append]
  congr 1
  unfold Record.ledger
  split_ifs with hn
  · subst hn
    exact Ledger.part_map_tag_self _ _
  · exact Ledger.part_map_tag_of_ne (Ne.symm hn) _

/-- The private structure `n` is in the driver data of the device, and what has been done with its
resources is the set-up. -/
structure Owns (irq : Dev → ℕ) (s : State Dev) (h : List (Record Dev)) (d : Dev) (n : ℕ) :
    Prop where
  lt_probes : n < s.probes
  irq_ne : irq d ≠ 0
  part_eq : Ledger.part n (ledger h) = setupLog (s.msiEnabled n) (s.created n)

/-- The last call about a bound device has been the probe that has set it up, or that has ignored
it. -/
structure BoundBy (s : State Dev) (d : Dev) (p : Record Dev) : Prop where
  ignored : s.drvdata d = none → p.log = []
  setUp : ∀ n, s.drvdata d = some n →
    p.serial = n ∧ p.log = setupLog (s.msiEnabled n) (s.created n)

/-- The invariant of the runs whose probes all unwind as they should. -/
structure Kept (irq : Dev → ℕ) (s : State Dev) (h : List (Record Dev)) : Prop where
  fresh : ∀ n, s.probes ≤ n → Ledger.part n (ledger h) = []
  parts : ∀ n, Ledger.Sound (fun _ => 0) (Ledger.part n (ledger h))
  owned : ∀ d n, s.bound d = true → s.drvdata d = some n → Owns irq s h d n
  distinct : ∀ d d' n, s.bound d = true → s.bound d' = true → s.drvdata d = some n →
    s.drvdata d' = some n → d = d'
  last : ∀ d p, s.bound d = true → lastOf d h = some p → BoundBy s d p
  calls : History.EachAfter CallAccounted h

theorem kept_init (irq : Dev → ℕ) : Kept irq (init Dev) [] where
  fresh _ _ := rfl
  parts _ := trivial
  owned _ _ hbound := by cases hbound
  distinct _ _ _ hbound := by cases hbound
  last _ _ hbound := by cases hbound
  calls := History.eachAfter_nil

section Probe

variable {irq : Dev → ℕ} {s : State Dev} {h : List (Record Dev)} {d : Dev} {r : Probed}

theorem probed_of_ne {d' : Dev} (hd : d' ≠ d) :
    (s.probed d r).bound d' = s.bound d' ∧ (s.probed d r).drvdata d' = s.drvdata d' :=
  ⟨Function.update_of_ne hd .., Function.update_of_ne hd ..⟩

theorem probed_of_lt {n : ℕ} (hn : n < s.probes) :
    (s.probed d r).msiEnabled n = s.msiEnabled n ∧ (s.probed d r).created n = s.created n :=
  ⟨Function.update_of_ne (ne_of_lt hn) .., Function.update_of_ne (ne_of_lt hn) ..⟩

theorem probed_probes :
    (s.probed d r).msiEnabled s.probes = r.msiEnabled ∧ (s.probed d r).created s.probes = r.created :=
  ⟨Function.update_self .., Function.update_self ..⟩

omit [DecidableEq Dev] in
theorem newDrvdata_eq_some {n : ℕ} (h : s.newDrvdata r = some n) :
    r.hasDrvdata = true ∧ n = s.probes := by
  unfold State.newDrvdata at h
  split_ifs at h with hdata
  exact ⟨hdata, by simpa using h.symm⟩

/-- The driver data of the device after the probe. -/
theorem ProbeCase.owner {o : Outcomes} (hcase : ProbeCase (irq d) o r) (hu : Unwinds (irq d) o)
    {n : ℕ} (hbound : (s.probed d r).bound d = true) (hn : (s.probed d r).drvdata d = some n) :
    n = s.probes ∧ irq d ≠ 0 ∧ r.log = setupLog r.msiEnabled r.created := by
  obtain ⟨hdata, hn⟩ := newDrvdata_eq_some (s := s) (r := r) (by simpa [State.probed] using hn)
  have hret : 0 ≤ r.ret := by simpa [State.probed] using hbound
  rcases (hcase.facts hu).2.2 hret with ⟨hnone, -⟩ | ⟨-, hirq, hlog⟩
  · rw [hnone] at hdata
    cases hdata
  · exact ⟨hn, hirq, hlog⟩

/-- The driver data of another device. -/
theorem Kept.lt_probes_of_ne (hk : Kept irq s h) {d' : Dev} (hd : d' ≠ d) {n : ℕ}
    (hbound : (s.probed d r).bound d' = true) (hn : (s.probed d r).drvdata d' = some n) :
    n < s.probes := by
  rw [(probed_of_ne hd).1] at hbound
  rw [(probed_of_ne hd).2] at hn
  exact (hk.owned d' n hbound hn).lt_probes

/-- The new structure is nobody else's. -/
theorem Kept.probe_distinct {o : Outcomes} (hk : Kept irq s h) (hcase : ProbeCase (irq d) o r)
    (hu : Unwinds (irq d) o) {d₁ d₂ : Dev} {n : ℕ} (h₁ : (s.probed d r).bound d₁ = true)
    (h₂ : (s.probed d r).bound d₂ = true) (hn₁ : (s.probed d r).drvdata d₁ = some n)
    (hn₂ : (s.probed d r).drvdata d₂ = some n) : d₁ = d₂ := by
  by_cases hd₁ : d₁ = d
  · by_cases hd₂ : d₂ = d
    · exact hd₁.trans hd₂.symm
    · subst hd₁
      exact absurd (hcase.owner hu h₁ hn₁).1 (ne_of_lt (hk.lt_probes_of_ne hd₂ h₂ hn₂))
  · by_cases hd₂ : d₂ = d
    · subst hd₂
      exact absurd (hcase.owner hu h₂ hn₂).1 (ne_of_lt (hk.lt_probes_of_ne hd₁ h₁ hn₁))
    · rw [(probed_of_ne hd₁).1] at h₁
      rw [(probed_of_ne hd₁).2] at hn₁
      rw [(probed_of_ne hd₂).1] at h₂
      rw [(probed_of_ne hd₂).2] at hn₂
      exact hk.distinct d₁ d₂ n h₁ h₂ hn₁ hn₂

/-- The probe of a device is its last call; the other devices keep theirs. -/
theorem Kept.probe_last {o : Outcomes} (hk : Kept irq s h) (hcase : ProbeCase (irq d) o r)
    (hu : Unwinds (irq d) o) {d' : Dev} {p : Record Dev} (hbound : (s.probed d r).bound d' = true)
    (hp : lastOf d' (h ++ [⟨d, true, r.ret, s.newDrvdata r, s.probes, r.log⟩]) = some p) :
    BoundBy (s.probed d r) d' p := by
  rw [lastOf_snoc] at hp
  by_cases hd : d' = d
  · subst hd
    rw [if_pos rfl] at hp
    cases hp
    refine ⟨fun hnone => ?_, fun n hn => ?_⟩
    · have hret : 0 ≤ r.ret := by simpa [State.probed] using hbound
      rcases (hcase.facts hu).2.2 hret with ⟨-, hlog⟩ | ⟨hdata, -⟩
      · exact hlog
      · simp [State.probed, State.newDrvdata, hdata] at hnone
    · obtain ⟨rfl, -, hlog⟩ := hcase.owner hu hbound hn
      obtain ⟨hmsi, hcreated⟩ := probed_probes (s := s) (d := d') (r := r)
      exact ⟨rfl, by rw [hmsi, hcreated, hlog]⟩
  · rw [if_neg (Ne.symm hd)] at hp
    rw [(probed_of_ne hd).1] at hbound
    obtain ⟨hignored, hsetUp⟩ := hk.last d' p hbound hp
    refine ⟨fun hnone => hignored ((probed_of_ne hd).2.symm.trans hnone), fun n hn => ?_⟩
    rw [(probed_of_ne hd).2] at hn
    obtain ⟨hmsi, hcreated⟩ :=
      probed_of_lt (s := s) (d := d) (r := r) (hk.owned d' n hbound hn).lt_probes
    rw [hmsi, hcreated]
    exact hsetUp n hn

/-- What a probe that unwinds as it should does to the invariant. -/
theorem Kept.probe {o : Outcomes} (hk : Kept irq s h) (hcase : ProbeCase (irq d) o r)
    (hu : Unwinds (irq d) o) :
    Kept irq (s.probed d r) (h ++ [⟨d, true, r.ret, s.newDrvdata r, s.probes, r.log⟩]) := by
  obtain ⟨hsound, hfailed, -⟩ := hcase.facts hu
  have hpart : Ledger.part s.probes
      (ledger (h ++ [⟨d, true, r.ret, s.newDrvdata r, s.probes, r.log⟩])) = r.log := by
    rw [part_snoc, if_pos rfl, hk.fresh _ le_rfl, List.nil_append]
  have hother : ∀ n, n ≠ s.probes → Ledger.part n
      (ledger (h ++ [⟨d, true, r.ret, s.newDrvdata r, s.probes, r.log⟩])) =
        Ledger.part n (ledger h) := fun n hn => by
    rw [part_snoc, if_neg (Ne.symm hn), List.append_nil]
  refine ⟨fun n hn => ?_, fun n => ?_, fun d' n hd' hn => ?_,
    fun _ _ _ h₁ h₂ hn₁ hn₂ => hk.probe_distinct hcase hu h₁ h₂ hn₁ hn₂,
    fun _ _ hd' hp => hk.probe_last hcase hu hd' hp, ?_⟩
  · have hn' : s.probes + 1 ≤ n := hn
    rw [hother n (by omega)]
    exact hk.fresh n (by omega)
  · by_cases hn : n = s.probes
    · rw [hn, hpart]
      exact hsound
    · rw [hother n hn]
      exact hk.parts n
  · by_cases hd : d' = d
    · subst hd
      obtain ⟨rfl, hirq, hlog⟩ := hcase.owner hu hd' hn
      obtain ⟨hmsi, hcreated⟩ := probed_probes (s := s) (d := d') (r := r)
      exact ⟨Nat.lt_succ_self _, hirq, by rw [hpart, hmsi, hcreated, hlog]⟩
    · have hlt := hk.lt_probes_of_ne hd hd' hn
      rw [(probed_of_ne hd).1] at hd'
      rw [(probed_of_ne hd).2] at hn
      obtain ⟨-, hirq, hlog⟩ := hk.owned d' n hd' hn
      obtain ⟨hmsi, hcreated⟩ := probed_of_lt (s := s) (d := d) (r := r) hlt
      exact ⟨Nat.lt_succ_of_lt hlt, hirq, by rw [hother n (ne_of_lt hlt), hmsi, hcreated, hlog]⟩
  · refine History.eachAfter_snoc.2 ⟨hk.calls, fun _ hne => ?_, fun hprobe => by cases hprobe⟩
    obtain ⟨hneg, hdata, hbalanced⟩ := hfailed hne
    exact ⟨hneg, by simp [State.newDrvdata, hdata], Ledger.balanced_map_tag.2 hbalanced⟩

end Probe

section Remove

variable {irq : Dev → ℕ} {s : State Dev} {h : List (Record Dev)} {d : Dev}

theorem unbound_bound {d' : Dev} (hd' : (s.unbound d).bound d' = true) :
    d' ≠ d ∧ s.bound d' = true := by
  by_cases hd : d' = d
  · subst hd
    simp [State.unbound] at hd'
  · exact ⟨hd, by simpa [State.unbound, Function.update_of_ne hd] using hd'⟩

/-- What a removal does to the invariant: it is about the resources of its device only. -/
theorem Kept.unbind (hk : Kept irq s h) {r : Record Dev} (hdev : r.dev = d)
    (hbound : s.bound d = true) (hserial : r.log ≠ [] → s.drvdata d = some r.serial)
    (hsound : Ledger.Sound (fun _ => 0) (Ledger.part r.serial (ledger h) ++ r.log))
    (hcall : CallAccounted h r) : Kept irq (s.unbound d) (h ++ [r]) := by
  have hother : ∀ n, (r.log ≠ [] → r.serial ≠ n) →
      Ledger.part n (ledger (h ++ [r])) = Ledger.part n (ledger h) := fun n hn => by
    rw [part_snoc]
    split_ifs with heq
    · have hnil : r.log = [] := by_contra fun hne => hn hne heq
      rw [hnil, List.append_nil]
    · exact List.append_nil _
  refine ⟨fun n hn => ?_, fun n => ?_, fun d' n hd' hn => ?_, fun d₁ d₂ n h₁ h₂ => ?_,
    fun d' p hd' hp => ?_, History.eachAfter_snoc.2 ⟨hk.calls, hcall⟩⟩
  · have hn' : s.probes ≤ n := hn
    rw [hother n fun hne => ?_]
    · exact hk.fresh n hn'
    · have hlt := (hk.owned d r.serial hbound (hserial hne)).lt_probes
      omega
  · by_cases hn : r.serial = n
    · rw [part_snoc, if_pos hn, ← hn]
      exact hsound
    · rw [hother n fun _ => hn]
      exact hk.parts n
  · obtain ⟨hd, hbound'⟩ := unbound_bound hd'
    obtain ⟨hlt, hirq, hpart⟩ := hk.owned d' n hbound' hn
    refine ⟨hlt, hirq, (hother n fun hne heq => hd ?_).trans hpart⟩
    exact hk.distinct d' d n hbound' hbound hn (heq ▸ hserial hne)
  · exact hk.distinct d₁ d₂ n (unbound_bound h₁).2 (unbound_bound h₂).2
  · obtain ⟨hd, hbound'⟩ := unbound_bound hd'
    rw [lastOf_snoc, if_neg (by rw [hdev]; exact Ne.symm hd)] at hp
    obtain ⟨hignored, hsetUp⟩ := hk.last d' p hbound' hp
    exact ⟨hignored, hsetUp⟩

/-- The removal of the driver from a device that the probe has ignored. -/
theorem Kept.removeIgnored (hk : Kept irq s h) (hbound : s.bound d = true)
    (hnone : s.drvdata d = none) :
    Kept irq (s.unbound d) (h ++ [⟨d, false, 0, none, s.probes, []⟩]) := by
  refine hk.unbind rfl hbound (fun hne => absurd rfl hne) ?_ ⟨(fun hprobe => by cases hprobe), ?_⟩
  · rw [List.append_nil]
    exact hk.parts _
  · intro _ p hp _ _
    have hlog : p.ledger = [] := by
      rw [Record.ledger, (hk.last d p hbound hp).ignored hnone, List.map_nil]
    rw [hlog]
    exact fun _ => rfl

/-- The removal of the driver from a device that it has set up. -/
theorem Kept.removeOwned (hk : Kept irq s h) (hbound : s.bound d = true) {n : ℕ}
    (hn : s.drvdata d = some n) :
    Kept irq (s.unbound d)
      (h ++ [⟨d, false, 0, some n, n, remove (irq d) (s.msiEnabled n) (s.created n)⟩]) := by
  obtain ⟨-, hirq, hpart⟩ := hk.owned d n hbound hn
  obtain ⟨hsound, hbalanced⟩ := setup_remove hirq (s.msiEnabled n) (s.created n)
  refine hk.unbind rfl hbound (fun _ => hn) ?_ ⟨(fun hprobe => by cases hprobe), ?_⟩
  · rw [hpart]
    exact hsound
  · intro _ p hp _ _
    obtain ⟨hserial, hlog⟩ := (hk.last d p hbound hp).setUp n hn
    simp only [Record.ledger]
    rw [hserial, hlog, ← List.map_append]
    exact Ledger.balanced_map_tag.2 hbalanced

end Remove

/-- The condition on a call. -/
def Act.Unwinds (irq : Dev → ℕ) : Act Dev → Prop
  | .probe d o => ExampleFpga.Unwinds (irq d) o
  | .remove _ => True

theorem kept_step {irq : Dev → ℕ} {s s' : State Dev} {h out : List (Record Dev)} {a : Act Dev}
    (hk : Kept irq s h) (ha : a.Unwinds irq) (hstep : step irq s a = some (s', out)) :
    Kept irq s' (h ++ out) := by
  cases a with
  | probe d o =>
    simp only [step] at hstep
    split_ifs at hstep
    cases hstep
    exact hk.probe (probe_cases (irq d) o) ha
  | remove d =>
    simp only [step] at hstep
    split_ifs at hstep with hbound
    have hbound' : s.bound d = true := by simpa using hbound
    cases hdata : s.drvdata d with
    | none =>
      rw [hdata] at hstep
      cases hstep
      exact hk.removeIgnored hbound' hdata
    | some n =>
      rw [hdata] at hstep
      cases hstep
      exact hk.removeOwned hbound' hdata

/-- Each probe of a run is in its history. -/
theorem mem_of_probe {irq : Dev → ℕ} {acts : List (Act Dev)} {s s' : State Dev}
    {h : List (Record Dev)} (hrun : (system irq).exec s acts = some (s', h)) {d : Dev}
    {o : Outcomes} (hprobe : Act.probe d o ∈ acts) :
    ∃ before r after, h = before ++ r :: after ∧ r.isProbe = true ∧
      r.ret = (probe (irq d) o).ret ∧
      (r.drvdata = none → (probe (irq d) o).hasDrvdata = false) ∧
      r.log = (probe (irq d) o).log := by
  induction acts generalizing s h with
  | nil => cases hprobe
  | cons a acts ih =>
    obtain ⟨t, out, outs, hstep, hrest, rfl⟩ := System.exec_cons.1 hrun
    rcases List.mem_cons.1 hprobe with rfl | hmem
    · simp only [system, step] at hstep
      split_ifs at hstep
      cases hstep
      refine ⟨[], _, outs, rfl, rfl, rfl, fun hnone => ?_, rfl⟩
      cases hdata : (probe (irq d) o).hasDrvdata with
      | false => rfl
      | true => simp [State.newDrvdata, hdata] at hnone
    · obtain ⟨before, r, after, rfl, hr⟩ := ih hrest hmem
      exact ⟨out ++ before, r, after, (List.append_assoc _ _ _).symm, hr⟩

/-- **The ledger of the devices**: in a run of probes and removals, over any devices and with any
results of the calls inside them, every failed probe returns a negative error number, leaves the
driver data NULL and releases what it has acquired, the removal after a successful probe balances
it, and nothing is released twice or used after its release, exactly when each probe of the run
succeeds, ignores the device, or fails in `kzalloc`, in `pci_enable_device` or, when MSI could not be
enabled, in `pci_request_region`. -/
theorem accounted_iff_unwinds {irq : Dev → ℕ} {acts : List (Act Dev)} {s : State Dev}
    {h : List (Record Dev)} (hrun : (system irq).exec (init Dev) acts = some (s, h)) :
    Accounted h ↔ ∀ d o, Act.probe d o ∈ acts → Unwinds (irq d) o := by
  constructor
  · intro hh d o hprobe
    obtain ⟨before, r, after, hsplit, hisProbe, hret, hdata, hlog⟩ := mem_of_probe hrun hprobe
    by_contra hnot
    cases probe_cases (irq d) o with
    | ignored hu | unwound hu | setUp hu => exact hnot hu
    | notUnwound _ hne hbad =>
      obtain ⟨hneg, hnone, hbalanced⟩ :=
        (hh.calls before r after hsplit).1 hisProbe (hret ▸ hne)
      refine hbad ⟨hret ▸ hneg, hdata hnone, ?_⟩
      rw [← hlog]
      exact Ledger.balanced_map_tag.1 hbalanced
  · intro hall
    have hacts : ∀ a ∈ acts, a.Unwinds irq := fun a ha => by
      cases a with
      | probe d o => exact hall d o ha
      | remove d => trivial
    have hk : Kept irq s h := System.exec_induction_along (I := Kept irq)
      (fun _ _ _ _ _ hk ha hstep => kept_step hk ha hstep) (kept_init irq)
      (System.along_of_forall hacts (init Dev)) hrun
    exact ⟨Ledger.sound_iff_parts.2 hk.parts, hk.calls⟩

/-- Every call inside the probe succeeds. -/
def allSucceed : Outcomes where
  kzalloc := true
  enableDevice := none
  enableMsi := true
  requestRegion := none
  ioremap := fun _ => true
  requestIrq := true
  allocChrdev := true
  createDevice := fun _ => true
  cdevAdd := none

/-- A device is set up, another one cannot be enabled, and the first is removed. -/
theorem accounted_iff_unwinds_setUp :
    ∃ s h, (system fun _ : Bool => 9).exec (init Bool)
        [.probe true allSucceed, .probe false { allSucceed with enableDevice := some 5 },
          .remove true] = some (s, h) ∧ h.map Record.ret = [0, -5, 0] ∧ Accounted h := by
  obtain ⟨⟨s, h⟩, hrun, hval⟩ := Option.map_eq_some_iff.1
    (show ((system fun _ : Bool => 9).exec (init Bool)
        [.probe true allSucceed, .probe false { allSucceed with enableDevice := some 5 },
          .remove true]).map (fun r => r.2.map Record.ret) = some [0, -5, 0] by decide +kernel)
  refine ⟨s, h, hrun, hval, (accounted_iff_unwinds hrun).2 fun d o hprobe => ?_⟩
  simp only [List.mem_cons, Act.probe.injEq, reduceCtorEq, List.not_mem_nil,
    or_false] at hprobe
  rcases hprobe with ⟨-, rfl⟩ | ⟨-, rfl⟩
  · exact .inr (.inr (.inr (.inr ⟨rfl, fun _ => rfl, rfl, rfl, rfl⟩)))
  · exact .inr (.inr (.inl (by simp)))

/-- Without numbers for the character device, the private structure is released by two functions,
used in between, and left in the driver data; and the value returned is positive. -/
theorem structure_released_twice :
    ∃ s h, (system fun _ : Bool => 9).exec (init Bool)
        [.probe true { allSucceed with allocChrdev := false }] = some (s, h) ∧
      h.map (fun r => (r.ret, r.drvdata, r.log.count (.release .fpga))) = [(22, some 0, 2)] ∧
      ¬ Accounted h := by
  obtain ⟨⟨s, h⟩, hrun, hval⟩ := Option.map_eq_some_iff.1
    (show ((system fun _ : Bool => 9).exec (init Bool)
        [.probe true { allSucceed with allocChrdev := false }]).map
        (fun r => (r.2.map fun x => (x.ret, x.drvdata, x.log.count (.release .fpga)),
          decide (Ledger.Sound (fun _ => 0) (ledger r.2)))) =
      some ([(22, some 0, 2)], false) by decide +kernel)
  simp only [Prod.mk.injEq, decide_eq_false_iff_not] at hval
  exact ⟨s, h, hrun, hval.1, fun hh => hval.2 hh.sound⟩

end IldDrivers.ExampleFpga
