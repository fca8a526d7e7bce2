import CameraDrivers.UnicamState

/-!
# The file operations and the interrupt handler of manual-unicam

The functions of src/src/manual-unicam-driver.c, each run as a whole. `i2c_transfer` is
answered by a sequence of replies and `copy_to_user` by the number of bytes it could not
copy. Delays and log messages are left out, and with them the branches of `unicam_isr` for
frame starts and CRC errors.
-/
namespace CameraDrivers.UnicamIoctl
open UnicamState

def eio : ℤ := 5
def efault : ℤ := 14
def enodev : ℤ := 19
def einval : ℤ := 22
def enotty : ℤ := 25

/-- `_IOC` of the ioctl headers. -/
def ioc (dir type nr size : BitVec 32) : BitVec 32 :=
  dir <<< 30 ||| size <<< 16 ||| type <<< 8 ||| nr

/-- The character U. -/
def unicamIocMagic : BitVec 32 := 0x55

def unicamIocStartStream : BitVec 32 := ioc 0 unicamIocMagic 1 0
def unicamIocStopStream : BitVec 32 := ioc 0 unicamIocMagic 2 0
def unicamIocGetBuffer : BitVec 32 := ioc 2 unicamIocMagic 3 8

/-- The result of an `imx219_*` access: the return value, the byte read, the transfer. -/
structure RegAccess where
  ret : ℤ
  val : BitVec 8
  transfer : I2cTransfer
  deriving DecidableEq

def regBytes (reg : BitVec 16) : List (BitVec 8) :=
  [(reg >>> 8).setWidth 8, (reg &&& 0xff).setWidth 8]

def imx219WriteReg (reg : BitVec 16) (val : BitVec 8) (reply : I2cReply) : RegAccess where
  ret := if reply.ret ≠ 1 then -eio else 0
  val := val
  transfer := ⟨regBytes reg ++ [val], false, reply.ret⟩

def imx219ReadReg (reg : BitVec 16) (reply : I2cReply) : RegAccess where
  ret := if reply.ret ≠ 2 then -eio else 0
  val := reply.data
  transfer := ⟨regBytes reg, true, reply.ret⟩

/-- `model_id_h << 8 | model_id_l`. -/
def modelIdOf (h l : BitVec 8) : BitVec 32 := h.setWidth 32 <<< 8 ||| l.setWidth 32

/-- The loop over `imx219_mode7_640x480`. -/
def imx219WriteTable : List (BitVec 16 × BitVec 8) → (ℕ → I2cReply) → ℤ × List I2cTransfer
  | [], _ => (0, [])
  | (addr, val) :: rest, replies =>
    let access := imx219WriteReg addr val (replies 0)
    if access.ret ≠ 0 then (access.ret, [access.transfer])
    else
      let after := imx219WriteTable rest (fun i => replies (i + 1))
      (after.1, access.transfer :: after.2)

def imx219ConfigureMode7 (sensor : Imx219) (replies : ℕ → I2cReply) : ℤ × List I2cTransfer :=
  let h := imx219ReadReg sensor.regModelIdH (replies 0)
  if h.ret ≠ 0 then (h.ret, [h.transfer])
  else
    let l := imx219ReadReg sensor.regModelIdL (replies 1)
    if l.ret ≠ 0 then (l.ret, [h.transfer, l.transfer])
    else if modelIdOf h.val l.val ≠ sensor.modelId then (-enodev, [h.transfer, l.transfer])
    else
      let after := imx219WriteTable sensor.mode7 (fun i => replies (i + 2))
      (after.1, h.transfer :: l.transfer :: after.2)

def imx219StopStreaming (sensor : Imx219) (reply : I2cReply) : RegAccess :=
  imx219WriteReg sensor.regModeSelect sensor.modeStandby reply

variable (m : RegisterMap) (sensor : Imx219)

/-- `unicam_hw_init` always returns 0, so its own error branch is not reached. -/
def startStream (dev : UnicamDevice) (replies : ℕ → I2cReply) : ℤ × UnicamDevice :=
  if dev.streaming then (0, dev)
  else
    let configured := imx219ConfigureMode7 sensor replies
    let dev := (unicamHwInit m dev).logged configured.2
    if configured.1 ≠ 0 then (configured.1, unicamHwDisable m dev)
    else (0, { dev with streaming := true, frameCount := 0 })

/-- The result of the standby write is not looked at. -/
def stopStream (dev : UnicamDevice) (replies : ℕ → I2cReply) : ℤ × UnicamDevice :=
  if dev.streaming then
    let dev := dev.logged [(imx219StopStreaming sensor (replies 0)).transfer]
    (0, { unicamHwDisable m dev with streaming := false })
  else (0, dev)

def unicamIoctl (dev : UnicamDevice) (cmd : BitVec 32) (replies : ℕ → I2cReply)
    (uncopied : BitVec 64) : ℤ × UnicamDevice :=
  if cmd = unicamIocStartStream then startStream m sensor dev replies
  else if cmd = unicamIocStopStream then stopStream m sensor dev replies
  else if cmd = unicamIocGetBuffer then (if uncopied ≠ 0 then -efault else 0, dev)
  else (-enotty, dev)

/-- `true` is IRQ_HANDLED. -/
def unicamIsr (dev : UnicamDevice) : Bool × UnicamDevice :=
  let ista := unicamRegRead dev m.ista
  if ista = 0 then (false, dev)
  else
    let dev := unicamRegWrite m dev m.ista ista
    if ista &&& m.fei ≠ 0 then
      (true, { dev with
        currentWritePtr := unicamRegRead dev m.ibwp, frameCount := dev.frameCount + 1 })
    else (true, dev)

/-- The return value and, on success, the two words copied to user space. -/
def unicamRead (dev : UnicamDevice) (count uncopied : BitVec 64) :
    ℤ × Option (BitVec 32 × BitVec 32) :=
  if count.toNat < 8 then (-einval, none)
  else if uncopied ≠ 0 then (-efault, none)
  else (8, some (dev.frameCount, dev.currentWritePtr))

variable {m sensor} {dev : UnicamDevice} {replies : ℕ → I2cReply}

@[simp] theorem imx219WriteReg_ret (reg : BitVec 16) (val : BitVec 8) (reply : I2cReply) :
    (imx219WriteReg reg val reply).ret = 0 ↔ reply.ret = 1 := by
  simp [imx219WriteReg, eio]

@[simp] theorem imx219ReadReg_ret (reg : BitVec 16) (reply : I2cReply) :
    (imx219ReadReg reg reply).ret = 0 ↔ reply.ret = 2 := by
  simp [imx219ReadReg, eio]

/-- The sensor answered with the right id and acknowledged every write of the table. -/
def Configures (sensor : Imx219) (replies : ℕ → I2cReply) : Prop :=
  (replies 0).ret = 2 ∧ (replies 1).ret = 2 ∧
    modelIdOf (replies 0).data (replies 1).data = sensor.modelId ∧
    ∀ i < sensor.mode7.length, (replies (i + 2)).ret = 1

instance (sensor : Imx219) (replies : ℕ → I2cReply) : Decidable (Configures sensor replies) :=
  inferInstanceAs (Decidable (_ ∧ _))

/-- The transfer of an entry that was acknowledged. -/
def acknowledgedEntry (entry : BitVec 16 × BitVec 8) : I2cTransfer :=
  ⟨regBytes entry.1 ++ [entry.2], false, 1⟩

/-- The bus after a configuration that went well: the two halves of the id were read, and the
table was acknowledged to its end. -/
def configuredTransfers (sensor : Imx219) : List I2cTransfer :=
  ⟨regBytes sensor.regModelIdH, true, 2⟩ :: ⟨regBytes sensor.regModelIdL, true, 2⟩ ::
    sensor.mode7.map acknowledgedEntry

theorem imx219WriteTable_ret (table : List (BitVec 16 × BitVec 8)) (replies : ℕ → I2cReply) :
    (imx219WriteTable table replies).1 = 0 ↔ ∀ i < table.length, (replies i).ret = 1 := by
  induction table generalizing replies with
  | nil => simp [imx219WriteTable]
  | cons entry rest ih =>
    rw [List.length_cons, Nat.forall_lt_succ_left, imx219WriteTable]
    by_cases h : (replies 0).ret = 1
    · simpa [h] using ih (fun i => replies (i + 1))
    · simp [h]

theorem imx219WriteTable_transfers (table : List (BitVec 16 × BitVec 8))
    (replies : ℕ → I2cReply) :
    (imx219WriteTable table replies).2 = table.map acknowledgedEntry ↔
      ∀ i < table.length, (replies i).ret = 1 := by
  induction table generalizing replies with
  | nil => simp [imx219WriteTable]
  | cons entry rest ih =>
    rw [List.length_cons, Nat.forall_lt_succ_left, imx219WriteTable]
    have hfirst : (imx219WriteReg entry.1 entry.2 (replies 0)).transfer = acknowledgedEntry entry ↔
        (replies 0).ret = 1 := by simp [imx219WriteReg, acknowledgedEntry]
    by_cases h : (replies 0).ret = 1
    · simpa [h, hfirst.mpr h] using ih (fun i => replies (i + 1))
    · simp [h, hfirst]

theorem imx219ConfigureMode7_ret (sensor : Imx219) (replies : ℕ → I2cReply) :
    (imx219ConfigureMode7 sensor replies).1 = 0 ↔ Configures sensor replies := by
  rw [imx219ConfigureMode7, Configures]
  by_cases h : (replies 0).ret = 2
  · by_cases l : (replies 1).ret = 2
    · by_cases id : modelIdOf (replies 0).data (replies 1).data = sensor.modelId
      · simpa [h, l, id, imx219ReadReg] using imx219WriteTable_ret sensor.mode7 _
      · simp [h, l, id, imx219ReadReg, enodev]
    · simp [h, l]
  · simp [h]

/-- The bus shows whether the sensor was configured. -/
theorem imx219ConfigureMode7_transfers (sensor : Imx219) (replies : ℕ → I2cReply) :
    modelIdOf (replies 0).data (replies 1).data = sensor.modelId ∧
        (imx219ConfigureMode7 sensor replies).2 = configuredTransfers sensor ↔
      Configures sensor replies := by
  rw [imx219ConfigureMode7, Configures, configuredTransfers]
  by_cases h : (replies 0).ret = 2
  · by_cases l : (replies 1).ret = 2
    · by_cases id : modelIdOf (replies 0).data (replies 1).data = sensor.modelId
      · simpa [h, l, id, imx219ReadReg] using imx219WriteTable_transfers sensor.mode7 _
      · simp [id]
    · simp [h, l, imx219ReadReg, eio]
  · simp [h, imx219ReadReg, eio]

end CameraDrivers.UnicamIoctl
