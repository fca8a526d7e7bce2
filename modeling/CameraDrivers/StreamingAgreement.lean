import CameraDrivers.UnicamIoctl

/-!
# The streaming flag and the hardware of manual-unicam

In a sequential run the flag says which command took effect last, and the registers say
the same as the flag: a START that fails undoes what `unicam_hw_init` did, at whichever
transfer it fails.
-/
namespace CameraDrivers.StreamingAgreement
open UnicamState UnicamIoctl

/-- An ioctl, a read, a run of the interrupt handler, or the hardware setting its two status
registers. -/
inductive Op
  | ioctl (cmd : BitVec 32) (replies : ℕ → I2cReply) (uncopied : BitVec 64)
  | read (count uncopied : BitVec 64)
  | isr
  | hardware (ista ibwp : BitVec 32)

inductive Command | start | stop deriving DecidableEq

def Command.cmd : Command → BitVec 32
  | .start => unicamIocStartStream
  | .stop => unicamIocStopStream

variable (m : RegisterMap) (sensor : Imx219)

def raiseStatus (dev : UnicamDevice) (ista ibwp : BitVec 32) : UnicamDevice :=
  { dev with regs := Function.update (Function.update dev.regs m.ista ista) m.ibwp ibwp }

def step (dev : UnicamDevice) : Op → UnicamDevice
  | .ioctl cmd replies uncopied => (unicamIoctl m sensor dev cmd replies uncopied).2
  | .read _ _ => dev
  | .isr => (unicamIsr m dev).2
  | .hardware ista ibwp => raiseStatus m dev ista ibwp

def runDevice (dev : UnicamDevice) (ops : List Op) : UnicamDevice := ops.foldl (step m sensor) dev

/-- The transfers that an operation put on the bus. -/
def transfersOf (dev : UnicamDevice) (op : Op) : List I2cTransfer :=
  (step m sensor dev op).transfers.drop dev.transfers.length

/-- The transfers read the id that the sensor must have and wrote the whole table. -/
def Configured (replies : ℕ → I2cReply) (ts : List I2cTransfer) : Prop :=
  modelIdOf (replies 0).data (replies 1).data = sensor.modelId ∧ ts = configuredTransfers sensor

instance (replies : ℕ → I2cReply) (ts : List I2cTransfer) :
    Decidable (Configured sensor replies ts) :=
  inferInstanceAs (Decidable (_ ∧ _))

/-- The command that took effect last, after one more operation. A START takes effect by what it
did on the bus. -/
def effective (dev : UnicamDevice) (last : Option Command) (op : Op) : Option Command :=
  match op with
  | .ioctl cmd replies _ =>
    if cmd = unicamIocStartStream then
      if Configured sensor replies (transfersOf m sensor dev op) then some .start else last
    else if cmd = unicamIocStopStream then
      if last = some .start then some .stop else last
    else last
  | _ => last

def lastEffective (dev : UnicamDevice) : List Op → Option Command → Option Command
  | [], last => last
  | op :: ops, last => lastEffective (step m sensor dev op) ops (effective m sensor dev last op)

/-- The registers follow the flag. -/
structure Follows (dev : UnicamDevice) : Prop where
  enabled : dev.streaming = true → Enabled m dev
  disabled : dev.streaming = false → Disabled m dev

structure Agrees (dev : UnicamDevice) (last : Option Command) : Prop extends Follows m dev where
  streaming_iff : dev.streaming = true ↔ last = some .start

/-- START while streaming, STOP while not, and every other command. -/
def noEffect (dev : UnicamDevice) (cmd : BitVec 32) : Prop :=
  cmd = unicamIocStartStream ∧ dev.streaming = true ∨
    cmd = unicamIocStopStream ∧ dev.streaming = false ∨
    cmd ≠ unicamIocStartStream ∧ cmd ≠ unicamIocStopStream

variable {m sensor} {dev dev' : UnicamDevice} {replies : ℕ → I2cReply} {last : Option Command}

theorem start_ne_stop : unicamIocStartStream ≠ unicamIocStopStream := by decide

theorem ioctl_noEffect {cmd : BitVec 32} (h : noEffect dev cmd) (replies : ℕ → I2cReply)
    (uncopied : BitVec 64) : (unicamIoctl m sensor dev cmd replies uncopied).2 = dev := by
  rcases h with ⟨rfl, hs⟩ | ⟨rfl, hs⟩ | ⟨hstart, hstop⟩
  · simp [unicamIoctl, startStream, hs]
  · simp [unicamIoctl, stopStream, hs, start_ne_stop.symm]
  · rw [unicamIoctl, if_neg hstart, if_neg hstop]
    split <;> rfl

/-- A START on a stopped device: it streams with an enabled core, or fails with everything
switched off. -/
theorem startStream_cases (m : RegisterMap) (sensor : Imx219) (hs : dev.streaming = false)
    (replies : ℕ → I2cReply) :
    (Configures sensor replies ∧ (startStream m sensor dev replies).1 = 0 ∧
      (startStream m sensor dev replies).2.streaming = true ∧
      Enabled m (startStream m sensor dev replies).2) ∨
    (¬ Configures sensor replies ∧ (startStream m sensor dev replies).1 ≠ 0 ∧
      (startStream m sensor dev replies).2.streaming = false ∧
      Disabled m (startStream m sensor dev replies).2) := by
  have hret := imx219ConfigureMode7_ret sensor replies
  by_cases hc : Configures sensor replies
  · left
    have hstart : startStream m sensor dev replies = (0, { (unicamHwInit m dev).logged
        (imx219ConfigureMode7 sensor replies).2 with streaming := true, frameCount := 0 }) := by
      simp [startStream, hs, hret.mpr hc]
    rw [hstart]
    exact ⟨hc, rfl, rfl, (enabled_hwInit dev).congr (fun _ _ => rfl) rfl rfl⟩
  · right
    have hne : (imx219ConfigureMode7 sensor replies).1 ≠ 0 := fun h => hc (hret.mp h)
    have hstart : startStream m sensor dev replies = ((imx219ConfigureMode7 sensor replies).1,
        unicamHwDisable m ((unicamHwInit m dev).logged
          (imx219ConfigureMode7 sensor replies).2)) := by
      simp [startStream, hs, hne]
    rw [hstart]
    refine ⟨hc, hne, ?_, disabled_hwDisable _⟩
    exact hs

theorem stopStream_streaming (m : RegisterMap) (sensor : Imx219) (hs : dev.streaming = true)
    (replies : ℕ → I2cReply) :
    (stopStream m sensor dev replies).2.streaming = false ∧
      Disabled m (stopStream m sensor dev replies).2 := by
  have hstop : stopStream m sensor dev replies = (0, { unicamHwDisable m (dev.logged
      [(imx219StopStreaming sensor (replies 0)).transfer]) with streaming := false }) := by
    simp [stopStream, hs]
  rw [hstop]
  exact ⟨rfl, (disabled_hwDisable _).congr (fun _ _ => rfl)⟩

/-- The handler and the hardware touch the two status registers only. -/
theorem isr_frame (m : RegisterMap) (dev : UnicamDevice) :
    (unicamIsr m dev).2.streaming = dev.streaming ∧
    (unicamIsr m dev).2.busAddr = dev.busAddr ∧ (unicamIsr m dev).2.bufSize = dev.bufSize ∧
    ∀ r, ¬ m.isStatus r → (unicamIsr m dev).2.regs r = dev.regs r := by
  have hw : ∀ value r, ¬ m.isStatus r → (unicamRegWrite m dev m.ista value).regs r = dev.regs r :=
    fun value r hr => Function.update_of_ne (fun e => hr (.inl e)) _ _
  rw [unicamIsr]
  split
  · exact ⟨rfl, rfl, rfl, fun _ _ => rfl⟩
  · split <;> exact ⟨rfl, rfl, rfl, hw _⟩

theorem raiseStatus_frame (dev : UnicamDevice) (ista ibwp : BitVec 32) :
    ∀ r, ¬ m.isStatus r → (raiseStatus m dev ista ibwp).regs r = dev.regs r := by
  intro r hr
  simp only [RegisterMap.isStatus, not_or] at hr
  simp [raiseStatus, hr]

theorem Agrees.congr (h : Agrees m dev last) (hs : dev'.streaming = dev.streaming)
    (hr : ∀ r, ¬ m.isStatus r → dev'.regs r = dev.regs r)
    (ha : dev'.busAddr = dev.busAddr) (hb : dev'.bufSize = dev.bufSize) : Agrees m dev' last := by
  constructor
  · constructor
    · rw [hs]
      exact fun hon => (h.enabled hon).congr hr ha hb
    · rw [hs]
      exact fun hoff => (h.disabled hoff).congr hr
  · rw [hs]
    exact h.streaming_iff

/-- The bus after a START of a stopped device. -/
theorem start_transfers (hs : dev.streaming = false) (replies : ℕ → I2cReply)
    (uncopied : BitVec 64) :
    transfersOf m sensor dev (.ioctl unicamIocStartStream replies uncopied) =
      (imx219ConfigureMode7 sensor replies).2 := by
  have hlog : (startStream m sensor dev replies).2.transfers =
      dev.transfers ++ (imx219ConfigureMode7 sensor replies).2 := by
    rw [startStream]
    simp only [hs, Bool.false_eq_true, if_false]
    split <;> rfl
  have hstep : step m sensor dev (.ioctl unicamIocStartStream replies uncopied) =
      (startStream m sensor dev replies).2 := by simp [step, unicamIoctl]
  rw [transfersOf, hstep, hlog, List.drop_left]

theorem configured_start_iff (m : RegisterMap) (sensor : Imx219) (hs : dev.streaming = false)
    (replies : ℕ → I2cReply) (uncopied : BitVec 64) :
    Configured sensor replies
        (transfersOf m sensor dev (.ioctl unicamIocStartStream replies uncopied)) ↔
      Configures sensor replies := by
  rw [start_transfers hs, Configured, imx219ConfigureMode7_transfers]

/-- A START of a streaming device transfers nothing. -/
theorem not_configured_streaming (m : RegisterMap) (sensor : Imx219)
    (hs : dev.streaming = true) (replies : ℕ → I2cReply) (uncopied : BitVec 64) :
    ¬ Configured sensor replies
      (transfersOf m sensor dev (.ioctl unicamIocStartStream replies uncopied)) := by
  have hstep : step m sensor dev (.ioctl unicamIocStartStream replies uncopied) = dev := by
    simp [step, unicamIoctl, startStream, hs]
  rw [transfersOf, hstep, List.drop_length]
  rintro ⟨-, hts⟩
  cases hts

theorem agrees_start (h : Agrees m dev last) (replies : ℕ → I2cReply) (uncopied : BitVec 64) :
    Agrees m (startStream m sensor dev replies).2
      (effective m sensor dev last (.ioctl unicamIocStartStream replies uncopied)) := by
  cases hs : dev.streaming with
  | true =>
    have hno := not_configured_streaming m sensor hs replies uncopied
    simpa [startStream, hs, effective, hno] using h
  | false =>
    have hlast : last ≠ some .start := fun he => by simp [h.streaming_iff.mpr he] at hs
    have hiff := configured_start_iff m sensor hs replies uncopied
    rcases startStream_cases m sensor hs replies with ⟨hc, -, hon, hen⟩ | ⟨hc, -, hoff, hdis⟩
    · have he : effective m sensor dev last (.ioctl unicamIocStartStream replies uncopied) =
          some .start := by simp [effective, hiff, hc]
      rw [he]
      exact ⟨⟨fun _ => hen, fun hno => by simp [hon] at hno⟩, by simp [hon]⟩
    · have he : effective m sensor dev last (.ioctl unicamIocStartStream replies uncopied) =
          last := by simp [effective, hiff, hc]
      rw [he]
      exact ⟨⟨fun hno => by simp [hoff] at hno, fun _ => hdis⟩, by simp [hoff, hlast]⟩

theorem agrees_stop (h : Agrees m dev last) (replies : ℕ → I2cReply) (uncopied : BitVec 64) :
    Agrees m (stopStream m sensor dev replies).2
      (effective m sensor dev last (.ioctl unicamIocStopStream replies uncopied)) := by
  cases hs : dev.streaming with
  | false =>
    have hlast : last ≠ some .start := fun he => by simp [h.streaming_iff.mpr he] at hs
    simpa [stopStream, hs, effective, hlast, start_ne_stop.symm] using h
  | true =>
    have hlast := h.streaming_iff.mp hs
    obtain ⟨hoff, hdis⟩ := stopStream_streaming m sensor hs replies
    have he : effective m sensor dev last (.ioctl unicamIocStopStream replies uncopied) =
        some .stop := by simp [effective, hlast, start_ne_stop.symm]
    rw [he]
    exact ⟨⟨fun hno => by simp [hoff] at hno, fun _ => hdis⟩, by simp [hoff]⟩

theorem agrees_step (h : Agrees m dev last) (op : Op) :
    Agrees m (step m sensor dev op) (effective m sensor dev last op) := by
  cases op with
  | ioctl cmd replies uncopied =>
    by_cases hstart : cmd = unicamIocStartStream
    · subst hstart
      simpa [step, unicamIoctl] using agrees_start h replies uncopied
    · by_cases hstop : cmd = unicamIocStopStream
      · subst hstop
        simpa [step, unicamIoctl, start_ne_stop.symm] using agrees_stop h replies uncopied
      · have hkeep : step m sensor dev (.ioctl cmd replies uncopied) = dev :=
          ioctl_noEffect (.inr (.inr ⟨hstart, hstop⟩)) replies uncopied
        have he : effective m sensor dev last (.ioctl cmd replies uncopied) = last := by
          simp [effective, hstart, hstop]
        rw [hkeep, he]
        exact h
  | read count uncopied => exact h
  | isr =>
    obtain ⟨hs, ha, hb, hr⟩ := isr_frame m dev
    exact h.congr hs hr ha hb
  | hardware ista ibwp => exact h.congr rfl (raiseStatus_frame dev ista ibwp) rfl rfl

/-- In every state in which the registers follow the flag they go on doing so. -/
theorem follows_step (h : Follows m dev) (op : Op) : Follows m (step m sensor dev op) := by
  cases hs : dev.streaming with
  | true =>
    have ha : Agrees m dev (some .start) := ⟨h, by simp [hs]⟩
    exact (agrees_step ha op).toFollows
  | false =>
    have ha : Agrees m dev none := ⟨h, by simp [hs]⟩
    exact (agrees_step ha op).toFollows

theorem agrees_stopped (h : Disabled m dev) (hs : dev.streaming = false) :
    Agrees m dev none where
  enabled hon := by simp [hs] at hon
  disabled _ := h
  streaming_iff := by simp [hs]

theorem Agrees.run (h : Agrees m dev last) (ops : List Op) :
    Agrees m (runDevice m sensor dev ops) (lastEffective m sensor dev ops last) := by
  induction ops generalizing dev last with
  | nil => exact h
  | cons op ops ih => exact ih (agrees_step h op)

theorem agrees_run (h : Disabled m dev) (hs : dev.streaming = false) (ops : List Op) :
    Agrees m (runDevice m sensor dev ops) (lastEffective m sensor dev ops none) :=
  (agrees_stopped h hs).run ops

/-- From a stopped device, after every sequence of operations: the flag is the last command
that took effect, a START when its transfers read the right id and wrote the whole table; the
registers follow the flag, commands without effect change nothing, and a START that returns an
error leaves the device stopped. -/
theorem streaming_agrees (h : Disabled m dev) (hs : dev.streaming = false) (ops : List Op) :
    Agrees m (runDevice m sensor dev ops) (lastEffective m sensor dev ops none) ∧
    (∀ cmd replies uncopied, noEffect (runDevice m sensor dev ops) cmd →
      (unicamIoctl m sensor (runDevice m sensor dev ops) cmd replies uncopied).2 =
        runDevice m sensor dev ops) ∧
    ∀ replies uncopied ret dev',
      unicamIoctl m sensor (runDevice m sensor dev ops) unicamIocStartStream replies uncopied =
        (ret, dev') → ret ≠ 0 → dev'.streaming = false ∧ Disabled m dev' := by
  refine ⟨agrees_run h hs ops, fun cmd replies uncopied hno => ioctl_noEffect hno _ _, ?_⟩
  intro replies uncopied ret dev' hcall hret
  simp only [unicamIoctl, if_pos] at hcall
  cases hon : (runDevice m sensor dev ops).streaming with
  | true =>
    simp only [startStream, hon, if_pos, Prod.mk.injEq] at hcall
    exact absurd hcall.1.symm hret
  | false =>
    rcases startStream_cases m sensor hon replies with ⟨-, hzero, -⟩ | ⟨-, -, hoff, hdis⟩
    · rw [hcall] at hzero
      exact absurd hzero hret
    · rw [hcall] at hoff hdis
      exact ⟨hoff, hdis⟩

/-- A session with a frame end, its STOP, and a START that fails at its second write. -/
theorem streaming_agrees_session : ∃ ops : List Op, ops.length = 5 ∧
    Agrees sampleMap (runDevice sampleMap sampleSensor sampleDevice ops) (some .stop) := by
  let ops : List Op := [.ioctl unicamIocStartStream (sampleReplies 2) 0, .hardware 2 0x10000000,
    .isr, .ioctl unicamIocStopStream (sampleReplies 0) 0,
    .ioctl unicamIocStartStream (sampleReplies 1) 0]
  have hoff : Disabled sampleMap sampleDevice := ⟨rfl, rfl, rfl⟩
  have hlast : lastEffective sampleMap sampleSensor sampleDevice ops none = some .stop := by decide
  exact ⟨ops, rfl, hlast ▸ (streaming_agrees hoff rfl ops).1⟩

end CameraDrivers.StreamingAgreement
