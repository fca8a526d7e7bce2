import CameraDrivers.ReadCoherence
import Mathlib.Logic.Relation

/-!
# Ioctls that nothing interrupts

`unicam_ioctl` as a whole against its statements in a row: the section of a call leads to the
statement that returns, with the value and the device that the whole function gives. A run of
whole operations is thus a run of the machine whose parties take turns at every statement.
-/
namespace CameraDrivers.SequentialIoctls
open TransitionRuns UnicamState UnicamIoctl StreamingAgreement IoctlSteps ReadCoherence

variable (m : RegisterMap) (sensor : Imx219) (replies : ℕ → I2cReply)

/-- One statement after which the call is still in its section. -/
def Goes (x y : Section × UnicamDevice) : Prop :=
  sectionStep m sensor replies x.1 x.2 = (.inl y.1, y.2)

abbrev Leads : Section × UnicamDevice → Section × UnicamDevice → Prop :=
  Relation.ReflTransGen (Goes m sensor replies)

/-- The device after the last statement of a call: behind the flag START has its `atomic_set`. -/
def finished (l : Section) (dev : UnicamDevice) : UnicamDevice :=
  if l = .setStreaming then { dev with frameCount := 0 } else dev

variable {m sensor replies} {dev dev' : UnicamDevice} {l l' : Section}

theorem Leads.step (h : sectionStep m sensor replies l dev = (.inl l', dev')) :
    Leads m sensor replies (l, dev) (l', dev') :=
  Relation.ReflTransGen.single h

theorem logged_nil (dev : UnicamDevice) : dev.logged [] = dev := by simp [UnicamDevice.logged]

theorem logged_logged (dev : UnicamDevice) (ts us : List I2cTransfer) :
    (dev.logged ts).logged us = dev.logged (ts ++ us) := by
  simp [UnicamDevice.logged]

theorem leads_hwInit (ops : List RegisterOp) (val : BitVec 32) (dev : UnicamDevice) :
    Leads m sensor replies (.hwInit ops val, dev) (.readIdH, runOps m ops val dev) := by
  induction ops generalizing val dev with
  | nil => exact .step rfl
  | cons op ops ih => exact (Leads.step rfl).trans (ih _ _)

theorem leads_hwDisable (ops : List RegisterOp) (val : BitVec 32) (dev : UnicamDevice) :
    Leads m sensor replies (.hwDisable ops val, dev) (.clearStreaming, runOps m ops val dev) := by
  induction ops generalizing val dev with
  | nil => exact .step rfl
  | cons op ops ih => exact (Leads.step rfl).trans (ih _ _)

theorem leads_undo (ret : ℤ) (ops : List RegisterOp) (val : BitVec 32) (dev : UnicamDevice) :
    ∃ val', Leads m sensor replies (.undo ret ops val, dev)
      (.undo ret [] val', runOps m ops val dev) := by
  induction ops generalizing val dev with
  | nil => exact ⟨val, .refl⟩
  | cons op ops ih =>
    obtain ⟨val', h⟩ := ih (op.run m val dev).1 (op.run m val dev).2
    exact ⟨val', (Leads.step rfl).trans h⟩

/-- The statement behind the table, and behind a transfer that failed. -/
def afterTable (m : RegisterMap) (ret : ℤ) : Section :=
  if ret ≠ 0 then .undo ret (unicamHwDisableOps m) 0 else .setStreaming

theorem leads_writeTable (k : ℕ) (rest : List (BitVec 16 × BitVec 8)) (dev : UnicamDevice) :
    Leads m sensor replies (.writeReg k rest, dev)
      (afterTable m (imx219WriteTable rest (fun i => replies (i + k))).1,
        dev.logged (imx219WriteTable rest (fun i => replies (i + k))).2) := by
  induction rest generalizing k dev with
  | nil =>
    rw [imx219WriteTable, logged_nil]
    exact .step rfl
  | cons entry rest ih =>
    obtain ⟨addr, val⟩ := entry
    rw [imx219WriteTable]
    by_cases hret : (imx219WriteReg addr val (replies k)).ret = 0
    · have hnext := ih (k + 1) (dev.logged [(imx219WriteReg addr val (replies k)).transfer])
      rw [logged_logged] at hnext
      simp only [Nat.zero_add, hret, ne_eq, not_true_eq_false, if_false, Nat.add_right_comm _ 1 k]
      refine (Leads.step ?_).trans hnext
      simp [sectionStep, hret]
    · simp only [Nat.zero_add, ne_eq, hret, not_false_eq_true, if_true]
      refine Leads.step ?_
      simp [sectionStep, afterTable, hret]

/-- `imx219_configure_mode7`, from its first transfer on. -/
theorem leads_configure (dev : UnicamDevice) : Leads m sensor replies (.readIdH, dev)
    (afterTable m (imx219ConfigureMode7 sensor replies).1,
      dev.logged (imx219ConfigureMode7 sensor replies).2) := by
  rw [imx219ConfigureMode7]
  by_cases hh : (imx219ReadReg sensor.regModelIdH (replies 0)).ret = 0
  · let h := imx219ReadReg sensor.regModelIdH (replies 0)
    let l := imx219ReadReg sensor.regModelIdL (replies 1)
    have hfirst : Leads m sensor replies (.readIdH, dev)
        (.readIdL h.val, dev.logged [h.transfer]) := .step (by simp [sectionStep, hh, h])
    simp only [hh, ne_eq, not_true_eq_false, if_false]
    refine hfirst.trans ?_
    by_cases hl : (imx219ReadReg sensor.regModelIdL (replies 1)).ret = 0
    · simp only [hl, not_true_eq_false, if_false]
      by_cases hid : modelIdOf h.val l.val = sensor.modelId
      · have hsecond : Leads m sensor replies (.readIdL h.val, dev.logged [h.transfer])
            (.writeReg 2 sensor.mode7, dev.logged [h.transfer, l.transfer]) :=
          .step (by simp [sectionStep, hl, hid, l, logged_logged])
        have htable := hsecond.trans (leads_writeTable 2 sensor.mode7 _)
        rw [logged_logged] at htable
        simpa [h, l, hid] using htable
      · refine Leads.step ?_
        simp [sectionStep, afterTable, hl, hid, h, l, logged_logged, enodev]
    · refine Leads.step ?_
      simp [sectionStep, afterTable, hl, h, logged_logged]
  · simp only [ne_eq, hh, not_false_eq_true, if_true]
    refine Leads.step ?_
    simp [sectionStep, afterTable, hh]

/-- A call that its test does not answer comes to a statement that returns what the whole ioctl
returns, and leaves the device as the ioctl does. -/
theorem section_returns {call : Call} (h : answered call dev = none) (uncopied : BitVec 64) :
    ∃ l d ret d', Leads m sensor call.replies (entry m call dev, dev) (l, d) ∧
      sectionStep m sensor call.replies l d = (.inr ret, d') ∧
      unicamIoctl m sensor dev call.command.cmd call.replies uncopied = (ret, finished l d') := by
  obtain ⟨command, replies⟩ := call
  cases command with
  | start =>
    have hoff : dev.streaming = false := by simpa [answered] using h
    have hioctl : unicamIoctl m sensor dev Command.start.cmd replies uncopied =
      startStream m sensor dev replies := if_pos rfl
    let d := (unicamHwInit m dev).logged (imx219ConfigureMode7 sensor replies).2
    have hleads : Leads m sensor replies (.hwInit (unicamHwInitOps m dev) 0, dev)
        (afterTable m (imx219ConfigureMode7 sensor replies).1, d) :=
      (leads_hwInit _ 0 dev).trans (leads_configure _)
    rw [hioctl, startStream, if_neg (by simp [hoff])]
    by_cases hret : (imx219ConfigureMode7 sensor replies).1 = 0
    · have hflag : afterTable m (imx219ConfigureMode7 sensor replies).1 = .setStreaming :=
        if_neg (not_not.mpr hret)
      rw [hflag] at hleads
      refine ⟨.setStreaming, d, 0, _, hleads, rfl, ?_⟩
      simp [hret, finished, d]
    · have hundo : afterTable m (imx219ConfigureMode7 sensor replies).1 =
          .undo (imx219ConfigureMode7 sensor replies).1 (unicamHwDisableOps m) 0 := if_pos hret
      rw [hundo] at hleads
      obtain ⟨val, hlast⟩ := leads_undo (imx219ConfigureMode7 sensor replies).1
        (unicamHwDisableOps m) 0 d
      refine ⟨_, _, _, _, hleads.trans hlast, rfl, ?_⟩
      simp [hret, finished, unicamHwDisable, d]
  | stop =>
    have hon : dev.streaming = true := by simpa [answered] using h
    have hioctl : unicamIoctl m sensor dev Command.stop.cmd replies uncopied =
      stopStream m sensor dev replies := (if_neg start_ne_stop.symm).trans (if_pos rfl)
    rw [hioctl, stopStream, if_pos hon]
    refine ⟨.clearStreaming, _, 0, _, (Leads.step rfl).trans (leads_hwDisable _ 0 _), rfl, ?_⟩
    simp [finished, unicamHwDisable]

/-- A START that finds its sensor. -/
theorem section_returns_start : ∃ l d d',
    Leads sampleMap sampleSensor (sampleReplies 4)
      (.hwInit (unicamHwInitOps sampleMap sampleDevice) 0, sampleDevice) (l, d) ∧
    sectionStep sampleMap sampleSensor (sampleReplies 4) l d = (.inr 0, d') := by
  let call : Call := ⟨.start, sampleReplies 4⟩
  obtain ⟨l, d, ret, d', hleads, hlast, heq⟩ : ∃ l d ret d',
      Leads sampleMap sampleSensor call.replies
        (entry sampleMap call sampleDevice, sampleDevice) (l, d) ∧
      sectionStep sampleMap sampleSensor call.replies l d = (.inr ret, d') ∧
      unicamIoctl sampleMap sampleSensor sampleDevice call.command.cmd call.replies 0 =
        (ret, finished l d') := section_returns rfl 0
  have hret : ret = 0 := (congrArg Prod.fst heq).symm.trans (by decide)
  exact ⟨l, d, d', hleads, hret ▸ hlast⟩

section Machine

variable {ι : Type*} [DecidableEq ι] {x y : Driver ι} {pc : IoctlPc}

/-- Only the ioctl may be under way. -/
structure Calm (x : Driver ι) (pc : IoctlPc) (dev : UnicamDevice) : Prop where
  ioctl : x.ioctl = pc
  isr : x.isr = .idle
  readers : ∀ i, x.readers i = none
  dev : x.dev = dev

/-- The actions of one operation, `i` being the client that reads. What `unicam_ioctl` does not
know and a read of fewer than eight bytes have no statement to take. The handler has one statement
when ISTA is 0, three when no frame ended, four otherwise. -/
inductive Performs (i : ι) : Op → List (Action ι) → Prop
  | call (call : Call) (uncopied : BitVec 64) (k : ℕ) :
      Performs i (.ioctl call.command.cmd call.replies uncopied)
        (.begin call :: List.replicate k .ioctl)
  | unknown {cmd : BitVec 32} (replies : ℕ → I2cReply) (uncopied : BitVec 64)
      (start : cmd ≠ unicamIocStartStream) (stop : cmd ≠ unicamIocStopStream) :
      Performs i (.ioctl cmd replies uncopied) []
  | read {count : BitVec 64} (uncopied : BitVec 64) (large : ¬ count.toNat < 8) :
      Performs i (.read count uncopied) [.load i, .load i]
  | short {count : BitVec 64} (uncopied : BitVec 64) (small : count.toNat < 8) :
      Performs i (.read count uncopied) []
  | isr {k : ℕ} (statements : k ∈ [1, 3, 4]) : Performs i .isr (List.replicate k .isr)
  | hardware (ista ibwp : BitVec 32) : Performs i (.hardware ista ibwp) [.hardware ista ibwp]

/-- Statements of the ioctl that lead to a calm state. -/
def Reaches (m : RegisterMap) (sensor : Imx219) (x : Driver ι) (pc : IoctlPc)
    (dev : UnicamDevice) : Prop :=
  ∃ k y, Run (Steps (ReadCoherence.step m sensor)) x (List.replicate k .ioctl) y ∧ Calm y pc dev

theorem Calm.reaches (h : Calm x pc dev) : Reaches m sensor x pc dev := ⟨0, x, .refl x, h⟩

theorem Reaches.then {pc' : IoctlPc} (h : Reaches m sensor x pc dev)
    (hrest : ∀ y : Driver ι, Calm y pc dev → Reaches m sensor y pc' dev') :
    Reaches m sensor x pc' dev' := by
  obtain ⟨k, y, run, hy⟩ := h
  obtain ⟨k', z, run', hz⟩ := hrest y hy
  refine ⟨k + k', z, ?_, hz⟩
  rw [List.replicate_add]
  exact run.append run'

theorem Reaches.of_step (hs : ReadCoherence.step m sensor x .ioctl = some y)
    (hy : Calm y pc dev) : Reaches m sensor x pc dev :=
  ⟨1, y, .single hs, hy⟩

omit [DecidableEq ι] in
theorem calm_entered (h : Calm x pc dev) (l : Section) : Calm (entered l x) pc dev := by
  rw [entered]
  split
  · exact ⟨h.ioctl, h.isr, h.readers, h.dev⟩
  · exact h

theorem reaches_leads (hl : Leads m sensor replies (l, dev) (l', dev'))
    (h : Calm x (.inside replies l) dev) : Reaches m sensor x (.inside replies l') dev' := by
  generalize hp : (l', dev') = p at hl
  induction hl generalizing l' dev' with
  | refl =>
    cases hp
    exact h.reaches
  | @tail q r hq hr ih =>
    subst hp
    refine (ih rfl).then (fun y hy => ?_)
    have hnext : sectionStep m sensor replies q.1 q.2 = (.inl l', dev') := hr
    refine Reaches.of_step
      (y := { entered q.1 y with dev := dev', ioctl := .inside replies l' }) ?_ ?_
    · simp only [ReadCoherence.step, ioctlStep, hy.ioctl, hy.dev, hnext]
    · have hcalm := calm_entered hy q.1
      exact ⟨rfl, hcalm.isr, hcalm.readers, rfl⟩

/-- The statement that returns, with the `atomic_set` of a START that succeeded. -/
theorem reaches_finished {ret : ℤ} (hl : sectionStep m sensor replies l dev = (.inr ret, dev'))
    (h : Calm x (.inside replies l) dev) : Reaches m sensor x .idle (finished l dev') := by
  let y : Driver ι := { entered l x with dev := dev', ioctl := leave l }
  have hcalm := calm_entered h l
  have hlast : Reaches m sensor x (leave l) dev' := by
    refine Reaches.of_step (y := y) ?_ ⟨rfl, hcalm.isr, hcalm.readers, rfl⟩
    simp only [ReadCoherence.step, ioctlStep, h.ioctl, h.dev, hl, y]
  by_cases hset : l = .setStreaming
  · subst hset
    refine hlast.then (fun z hz => ?_)
    refine Reaches.of_step
      (y := { z with dev := { z.dev with frameCount := 0 }, ioctl := .idle }) ?_ ?_
    · simp only [ReadCoherence.step, ioctlStep, hz.ioctl, leave]
    · exact ⟨rfl, hz.isr, hz.readers, by simp [finished, hz.dev]⟩
  · have hleave : leave l = .idle := by
      cases l <;> first | rfl | exact absurd rfl hset
    rw [hleave] at hlast
    rw [finished, if_neg hset]
    exact hlast

/-- After its test a call needs statements of its own only. -/
theorem reaches_call (h : Calm x .idle dev) (call : Call) (uncopied : BitVec 64) :
    ∃ y, ReadCoherence.step m sensor x (.begin call) = some y ∧ Reaches m sensor y .idle
      (unicamIoctl m sensor dev call.command.cmd call.replies uncopied).2 := by
  cases ha : answered call dev with
  | some ret =>
    have hsame : (unicamIoctl m sensor dev call.command.cmd call.replies uncopied).2 = dev := by
      apply ioctl_noEffect
      rw [answered] at ha
      cases hc : call.command <;> cases hs : dev.streaming <;>
        simp_all [noEffect, Command.cmd]
    rw [hsame]
    refine ⟨{ x with epoch := x.epoch + 1 }, ?_, Calm.reaches ⟨h.ioctl, h.isr, h.readers, h.dev⟩⟩
    simp only [ReadCoherence.step, beginIoctl, h.ioctl, h.dev, ha]
  | none =>
    obtain ⟨l, d, ret, d', hleads, hlast, heq⟩ := section_returns ha uncopied
    rw [heq]
    let y : Driver ι :=
      { x with epoch := x.epoch + 1, ioctl := .inside call.replies (entry m call dev) }
    have hbegin : ReadCoherence.step m sensor x (.begin call) = some y := by
      simp only [ReadCoherence.step, beginIoctl, h.ioctl, h.dev, ha, y]
    have hentry : Calm y (.inside call.replies (entry m call dev)) dev :=
      ⟨rfl, h.isr, h.readers, h.dev⟩
    exact ⟨y, hbegin, (reaches_leads hleads hentry).then (fun z hz => reaches_finished hlast hz)⟩

/-- The actions of one operation, from one state in which nothing is under way to the next. -/
def Done (m : RegisterMap) (sensor : Imx219) (i : ι) (op : Op) (x : Driver ι)
    (dev : UnicamDevice) : Prop :=
  ∃ as y, Performs i op as ∧ Run (Steps (ReadCoherence.step m sensor)) x as y ∧ Calm y .idle dev

theorem done_call (i : ι) (h : Calm x .idle dev) (call : Call) (uncopied : BitVec 64) :
    Done m sensor i (.ioctl call.command.cmd call.replies uncopied) x
      (unicamIoctl m sensor dev call.command.cmd call.replies uncopied).2 := by
  obtain ⟨y, hbegin, k, z, run, hz⟩ := reaches_call h call uncopied
  exact ⟨_, z, .call call uncopied k, run_cons_iff.mpr ⟨y, hbegin, run⟩, hz⟩

theorem done_ioctl (i : ι) (h : Calm x .idle dev) (cmd : BitVec 32) (replies : ℕ → I2cReply)
    (uncopied : BitVec 64) : Done m sensor i (.ioctl cmd replies uncopied) x
      (unicamIoctl m sensor dev cmd replies uncopied).2 := by
  by_cases hstart : cmd = unicamIocStartStream
  · subst hstart
    exact done_call i h ⟨.start, replies⟩ uncopied
  · by_cases hstop : cmd = unicamIocStopStream
    · subst hstop
      exact done_call i h ⟨.stop, replies⟩ uncopied
    · rw [ioctl_noEffect (.inr (.inr ⟨hstart, hstop⟩))]
      exact ⟨[], x, .unknown replies uncopied hstart hstop, .refl x, h⟩

theorem done_read (i : ι) (h : Calm x .idle dev) (count uncopied : BitVec 64) :
    Done m sensor i (.read count uncopied) x dev := by
  by_cases hcount : count.toNat < 8
  · exact ⟨[], x, .short uncopied hcount, .refl x, h⟩
  · have hfirst : ReadCoherence.step m sensor x (.load i) = some (load i x) := rfl
    have hsecond : ReadCoherence.step m sensor (load i x) (.load i) = some (load i (load i x)) :=
      rfl
    have hload : load i (load i x) = x := by
      have hnone : Function.update x.readers i none = x.readers := by
        rw [← h.readers i, Function.update_eq_self]
      simp [load, h.readers, hnone]
    rw [hload] at hsecond
    exact ⟨_, x, .read uncopied hcount, (Run.single hfirst).snoc hsecond, h⟩

theorem run_isr (x : Driver ι) (k : ℕ) :
    Run (Steps (ReadCoherence.step m sensor)) x (List.replicate k .isr) ((isrStep m)^[k] x) := by
  induction k with
  | zero => exact .refl x
  | succ k ih =>
    rw [List.replicate_succ', Function.iterate_succ_apply']
    exact ih.snoc rfl

omit [DecidableEq ι] in
theorem isrStep_frame (m : RegisterMap) (x : Driver ι) :
    (isrStep m x).ioctl = x.ioctl ∧ (isrStep m x).readers = x.readers := by
  rw [isrStep]
  split
  · dsimp only
    split <;> exact ⟨rfl, rfl⟩
  · exact ⟨rfl, rfl⟩
  · split <;> exact ⟨rfl, rfl⟩
  · exact ⟨rfl, rfl⟩

omit [DecidableEq ι] in
theorem iterate_isrStep_frame (m : RegisterMap) (x : Driver ι) (k : ℕ) :
    ((isrStep m)^[k] x).ioctl = x.ioctl ∧ ((isrStep m)^[k] x).readers = x.readers := by
  induction k with
  | zero => exact ⟨rfl, rfl⟩
  | succ k ih =>
    rw [Function.iterate_succ_apply', (isrStep_frame m _).1, (isrStep_frame m _).2]
    exact ih

theorem done_op (i : ι) (h : Calm x .idle dev) (op : Op) :
    Done m sensor i op x (StreamingAgreement.step m sensor dev op) := by
  cases op with
  | ioctl cmd replies uncopied => exact done_ioctl i h cmd replies uncopied
  | read count uncopied => exact done_read i h count uncopied
  | isr =>
    obtain ⟨k, hk, hidle, hdev⟩ := isr_uninterrupted (m := m) h.isr
    obtain ⟨hioctl, hreaders⟩ := iterate_isrStep_frame m x k
    refine ⟨_, _, .isr hk, run_isr x k, hioctl.trans h.ioctl, hidle, ?_, ?_⟩
    · rw [hreaders]
      exact h.readers
    · rw [hdev, h.dev]
      rfl
  | hardware ista ibwp =>
    refine ⟨_, _, .hardware ista ibwp, .single rfl, h.ioctl, h.isr, h.readers, ?_⟩
    rw [h.dev]
    rfl

/-- The operations one after the other, each as a whole, are a run of the machine whose parties
take turns at every statement, with any client as the reader: every operation by its own actions,
and after each of them nothing is under way and the device is that of the whole operations. -/
theorem sequential_run (m : RegisterMap) (sensor : Imx219) (i : ι) (regs : BitVec 32 → BitVec 32)
    (busAddr bufSize : BitVec 64) (ops : List Op) : ∃ bss, List.Forall₂ (Performs i) ops bss ∧
      ∀ k, ∃ x, Run (Steps (ReadCoherence.step m sensor))
          (Driver.probed regs busAddr bufSize : Driver ι) (bss.take k).flatten x ∧
        x.ioctl = .idle ∧ x.isr = .idle ∧ (∀ j, x.readers j = none) ∧
        x.dev = runDevice m sensor ⟨regs, busAddr, bufSize, 0, 0, false, []⟩ (ops.take k) := by
  let dev : UnicamDevice := ⟨regs, busAddr, bufSize, 0, 0, false, []⟩
  have start : Calm (Driver.probed regs busAddr bufSize : Driver ι) .idle dev :=
    ⟨rfl, rfl, fun _ => rfl, rfl⟩
  have coarse : Run (fun dev op dev' => StreamingAgreement.step m sensor dev op = dev') dev ops
      (runDevice m sensor dev ops) := run_foldl_iff.mpr rfl
  obtain ⟨bss, -, hbss, -, -, hprefix⟩ := coarse.simulate_labels (fun dev x => Calm x .idle dev)
    (Performs i) start (by
      rintro dev op _ x h rfl
      exact done_op i h op)
  refine ⟨bss, hbss, fun k => ?_⟩
  obtain ⟨dev', x, hcoarse, run, hx⟩ := hprefix k
  obtain rfl := run_foldl_iff.mp hcoarse
  exact ⟨x, run, hx.ioctl, hx.isr, hx.readers, hx.dev⟩

end Machine

end CameraDrivers.SequentialIoctls
