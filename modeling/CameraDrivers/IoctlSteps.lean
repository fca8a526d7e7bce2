import CameraDrivers.StreamingAgreement

/-!
# START and STOP of manual-unicam, statement by statement

After its test of `dev->streaming` an ioctl is in a section that ends with the assignment of
the flag or with an error return. Every register access and every I2C transfer is one step.
-/
namespace CameraDrivers.IoctlSteps
open UnicamState UnicamIoctl StreamingAgreement

structure Call where
  command : Command
  replies : ℕ → I2cReply

/-- The next statement of a call that passed its test. In `writeReg` the number of the
transfer comes with the rest of the table. -/
inductive Section
  | hwInit (ops : List RegisterOp) (val : BitVec 32)
  | readIdH
  | readIdL (h : BitVec 8)
  | writeReg (k : ℕ) (rest : List (BitVec 16 × BitVec 8))
  | undo (ret : ℤ) (ops : List RegisterOp) (val : BitVec 32)
  | setStreaming
  | stopSensor
  | hwDisable (ops : List RegisterOp) (val : BitVec 32)
  | clearStreaming
  deriving DecidableEq

variable (m : RegisterMap) (sensor : Imx219)

/-- "Already streaming" and "Not streaming" return 0 at once. -/
def answered (call : Call) (dev : UnicamDevice) : Option ℤ :=
  match call.command with
  | .start => if dev.streaming then some 0 else none
  | .stop => if dev.streaming then none else some 0

def entry (call : Call) (dev : UnicamDevice) : Section :=
  match call.command with
  | .start => .hwInit (unicamHwInitOps m dev) 0
  | .stop => .stopSensor

/-- One statement inside the section: the next one, or the return value. -/
def sectionStep (replies : ℕ → I2cReply) (l : Section) (dev : UnicamDevice) :
    (Section ⊕ ℤ) × UnicamDevice :=
  match l with
  | .hwInit [] _ => (.inl .readIdH, dev)
  | .hwInit (op :: ops) val => (.inl (.hwInit ops (op.run m val dev).1), (op.run m val dev).2)
  | .readIdH =>
    let access := imx219ReadReg sensor.regModelIdH (replies 0)
    (.inl (if access.ret ≠ 0 then .undo access.ret (unicamHwDisableOps m) 0
      else .readIdL access.val), dev.logged [access.transfer])
  | .readIdL h =>
    let access := imx219ReadReg sensor.regModelIdL (replies 1)
    (.inl (if access.ret ≠ 0 then .undo access.ret (unicamHwDisableOps m) 0
      else if modelIdOf h access.val ≠ sensor.modelId then
        .undo (-enodev) (unicamHwDisableOps m) 0
      else .writeReg 2 sensor.mode7), dev.logged [access.transfer])
  | .writeReg _ [] => (.inl .setStreaming, dev)
  | .writeReg k ((addr, val) :: rest) =>
    let access := imx219WriteReg addr val (replies k)
    (.inl (if access.ret ≠ 0 then .undo access.ret (unicamHwDisableOps m) 0
      else .writeReg (k + 1) rest), dev.logged [access.transfer])
  | .undo ret [] _ => (.inr ret, dev)
  | .undo ret (op :: ops) val =>
    (.inl (.undo ret ops (op.run m val dev).1), (op.run m val dev).2)
  | .setStreaming => (.inr 0, { dev with streaming := true })
  | .stopSensor =>
    (.inl (.hwDisable (unicamHwDisableOps m) 0),
      dev.logged [(imx219StopStreaming sensor (replies 0)).transfer])
  | .hwDisable [] _ => (.inl .clearStreaming, dev)
  | .hwDisable (op :: ops) val =>
    (.inl (.hwDisable ops (op.run m val dev).1), (op.run m val dev).2)
  | .clearStreaming => (.inr 0, { dev with streaming := false })

variable {m sensor} {dev dev' : UnicamDevice} {l : Section} {replies : ℕ → I2cReply}

/-- Inside its section a call leaves the flag alone until its last statement. -/
theorem sectionStep_steady {l' : Section}
    (h : sectionStep m sensor replies l dev = (.inl l', dev')) :
    dev'.streaming = dev.streaming := by
  have hop : ∀ (op : RegisterOp) val, (op.run m val dev).2.streaming = dev.streaming := by
    intro op val
    cases op <;> rfl
  cases l with
  | hwInit ops val | undo ret ops val | hwDisable ops val =>
    cases ops with
    | nil =>
      cases h
      try rfl
    | cons op ops =>
      cases h
      exact hop op val
  | writeReg k rest =>
    cases rest with
    | nil =>
      cases h
      rfl
    | cons entry rest =>
      cases h
      rfl
  | readIdH | readIdL h | stopSensor =>
    cases h
    rfl
  | setStreaming | clearStreaming => cases h

/-- The sections of START, which begin with the flag down; those of STOP begin with it up. -/
def starts : Section → Bool
  | .stopSensor | .hwDisable _ _ | .clearStreaming => false
  | _ => true

theorem starts_entry {call : Call} (h : answered call dev = none) :
    dev.streaming = !starts (entry m call dev) := by
  rw [answered] at h
  cases hc : call.command <;> cases hs : dev.streaming <;> simp_all [entry, starts]

theorem sectionStep_starts {l' : Section}
    (h : sectionStep m sensor replies l dev = (.inl l', dev')) :
    starts l' = starts l := by
  cases l with
  | hwInit ops val | undo ret ops val | hwDisable ops val =>
    cases ops with
    | nil =>
      cases h
      all_goals rfl
    | cons op ops =>
      cases h
      rfl
  | writeReg k rest =>
    cases rest with
    | nil =>
      cases h
      rfl
    | cons entry rest =>
      simp only [sectionStep, Prod.mk.injEq, Sum.inl.injEq] at h
      rw [← h.1]
      split <;> rfl
  | readIdH =>
    simp only [sectionStep, Prod.mk.injEq, Sum.inl.injEq] at h
    rw [← h.1]
    split <;> rfl
  | readIdL h' =>
    simp only [sectionStep, Prod.mk.injEq, Sum.inl.injEq] at h
    rw [← h.1]
    split <;> try split
    all_goals rfl
  | stopSensor =>
    cases h
    rfl
  | setStreaming | clearStreaming => cases h

/-- An ioctl that returns from its section leaves the flag up only as a START. -/
theorem sectionStep_returns {ret : ℤ} (h : sectionStep m sensor replies l dev = (.inr ret, dev'))
    (hs : dev.streaming = !starts l) (hup : dev'.streaming = true) : l = .setStreaming := by
  cases l with
  | setStreaming => rfl
  | undo ret ops val =>
    cases ops with
    | nil =>
      cases h
      simp [hs, starts] at hup
    | cons op ops => cases h
  | clearStreaming =>
    cases h
    cases hup
  | hwInit ops val | hwDisable ops val => cases ops <;> cases h
  | writeReg k rest => cases rest <;> cases h
  | readIdH | readIdL h' | stopSensor => cases h

/-- No statement of a section touches the counter or the pointer. -/
theorem sectionStep_frame (m : RegisterMap) (sensor : Imx219) (replies : ℕ → I2cReply)
    (l : Section) (dev : UnicamDevice) :
    (sectionStep m sensor replies l dev).2.frameCount = dev.frameCount ∧
      (sectionStep m sensor replies l dev).2.currentWritePtr = dev.currentWritePtr := by
  have hop : ∀ (op : RegisterOp) val, (op.run m val dev).2.frameCount = dev.frameCount ∧
      (op.run m val dev).2.currentWritePtr = dev.currentWritePtr := by
    intro op val
    cases op <;> exact ⟨rfl, rfl⟩
  cases l with
  | hwInit ops val | undo ret ops val | hwDisable ops val =>
    cases ops with
    | nil => exact ⟨rfl, rfl⟩
    | cons op ops => exact hop op val
  | writeReg k rest => cases rest <;> exact ⟨rfl, rfl⟩
  | readIdH | readIdL h | setStreaming | stopSensor | clearStreaming => exact ⟨rfl, rfl⟩

end CameraDrivers.IoctlSteps
