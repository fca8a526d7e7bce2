import Mathlib.Data.BitVec
import Mathlib.Data.List.Nodup
import Mathlib.Logic.Function.Basic

/-!
# The registers, the sensor and the state of manual-unicam

The two headers that manual-unicam-driver.c includes, bcm2835-unicam-regs.h and
imx219-regs.h, are not part of the repository: their constants are parameters. Register
accesses are kept as first-order statements, so that a function can be run as a whole or
one access at a time.
-/
namespace CameraDrivers.UnicamState

/-- The constants of bcm2835-unicam-regs.h: the offsets of ten different registers, and the
field values that the driver writes or tests. -/
structure RegisterMap where
  ctrl : BitVec 32
  ana : BitVec 32
  clk : BitVec 32
  ibsa0 : BitVec 32
  ibea0 : BitVec 32
  idi0 : BitVec 32
  ipipe : BitVec 32
  ictl : BitVec 32
  ista : BitVec 32
  ibwp : BitVec 32
  distinct : [ctrl, ana, clk, ibsa0, ibea0, idi0, ipipe, ictl, ista, ibwp].Nodup
  ar : BitVec 32
  ddl : BitVec 32
  cle : BitVec 32
  clhse : BitVec 32
  cltre : BitVec 32
  dtRaw10 : BitVec 32
  pumUnpack : BitVec 32
  pumShift : ℕ
  feie : BitVec 32
  fsie : BitVec 32
  cpe : BitVec 32
  fei : BitVec 32

/-- The constants of imx219-regs.h. -/
structure Imx219 where
  regModelIdH : BitVec 16
  regModelIdL : BitVec 16
  modelId : BitVec 32
  regModeSelect : BitVec 16
  modeStandby : BitVec 8
  mode7 : List (BitVec 16 × BitVec 8)

/-- What `i2c_transfer` returns, and the byte it delivers if it reads one. -/
structure I2cReply where
  ret : ℤ
  data : BitVec 8
  deriving DecidableEq

/-- A transfer on the bus: the bytes written, whether a read follows, the answer. -/
structure I2cTransfer where
  bytes : List (BitVec 8)
  reads : Bool
  ret : ℤ
  deriving DecidableEq

structure UnicamDevice where
  regs : BitVec 32 → BitVec 32
  busAddr : BitVec 64
  bufSize : BitVec 64
  frameCount : BitVec 32
  currentWritePtr : BitVec 32
  streaming : Bool
  transfers : List I2cTransfer

def UnicamDevice.logged (dev : UnicamDevice) (ts : List I2cTransfer) : UnicamDevice :=
  { dev with transfers := dev.transfers ++ ts }

/-- A statement of `unicam_hw_init` or `unicam_hw_disable`; the last three work on the local
`val`. -/
inductive RegisterOp
  | write (offset value : BitVec 32)
  | read (offset : BitVec 32)
  | clear (mask : BitVec 32)
  | writeBack (offset : BitVec 32)
  deriving DecidableEq

variable (m : RegisterMap)

def unicamRegRead (dev : UnicamDevice) (offset : BitVec 32) : BitVec 32 := dev.regs offset

/-- A write sets the register, except that a 1 written to a bit of ISTA clears it. -/
def unicamRegWrite (dev : UnicamDevice) (offset value : BitVec 32) : UnicamDevice :=
  let stored := if offset = m.ista then dev.regs offset &&& ~~~value else value
  { dev with regs := Function.update dev.regs offset stored }

/-- One statement, with the local `val` before and after. -/
def RegisterOp.run (op : RegisterOp) (val : BitVec 32) (dev : UnicamDevice) :
    BitVec 32 × UnicamDevice :=
  match op with
  | .write offset value => (val, unicamRegWrite m dev offset value)
  | .read offset => (unicamRegRead dev offset, dev)
  | .clear mask => (val &&& ~~~mask, dev)
  | .writeBack offset => (val, unicamRegWrite m dev offset val)

def runOps : List RegisterOp → BitVec 32 → UnicamDevice → UnicamDevice
  | [], _, dev => dev
  | op :: ops, val, dev => runOps ops (op.run m val dev).1 (op.run m val dev).2

def unicamHwInitOps (dev : UnicamDevice) : List RegisterOp :=
  [.write m.ctrl 0,
    .read m.ana,
    .clear m.ar,
    .clear m.ddl,
    .writeBack m.ana,
    .write m.clk (m.cle ||| m.clhse ||| m.cltre),
    .write m.ibsa0 (dev.busAddr.setWidth 32),
    .write m.ibea0 ((dev.busAddr + dev.bufSize).setWidth 32),
    .write m.idi0 m.dtRaw10,
    .write m.ipipe (m.pumUnpack <<< m.pumShift),
    .write m.ictl (m.feie ||| m.fsie),
    .write m.ctrl m.cpe]

def unicamHwDisableOps : List RegisterOp :=
  [.write m.ictl 0, .write m.ctrl 0, .write m.clk 0]

def unicamHwInit (dev : UnicamDevice) : UnicamDevice := runOps m (unicamHwInitOps m dev) 0 dev

def unicamHwDisable (dev : UnicamDevice) : UnicamDevice := runOps m (unicamHwDisableOps m) 0 dev

variable {m} {dev : UnicamDevice} {offset value : BitVec 32}

/-- The registers of a core that runs: both data lanes, the DMA window and the interrupts. -/
structure Enabled (m : RegisterMap) (dev : UnicamDevice) : Prop where
  ctrl : dev.regs m.ctrl = m.cpe
  ictl : dev.regs m.ictl = m.feie ||| m.fsie
  clk : dev.regs m.clk = m.cle ||| m.clhse ||| m.cltre
  ibsa0 : dev.regs m.ibsa0 = dev.busAddr.setWidth 32
  ibea0 : dev.regs m.ibea0 = (dev.busAddr + dev.bufSize).setWidth 32
  idi0 : dev.regs m.idi0 = m.dtRaw10
  ipipe : dev.regs m.ipipe = m.pumUnpack <<< m.pumShift

structure Disabled (m : RegisterMap) (dev : UnicamDevice) : Prop where
  ctrl : dev.regs m.ctrl = 0
  ictl : dev.regs m.ictl = 0
  clk : dev.regs m.clk = 0

/-- The registers that a run of the interrupt handler or a new status may change. -/
def RegisterMap.isStatus (m : RegisterMap) (offset : BitVec 32) : Prop :=
  offset = m.ista ∨ offset = m.ibwp

/-- The status registers are not among those that the driver programs. -/
theorem RegisterMap.not_isStatus
    (h : offset ∈ [m.ctrl, m.ana, m.clk, m.ibsa0, m.ibea0, m.idi0, m.ipipe, m.ictl]) :
    ¬ m.isStatus offset := by
  have hd : ([m.ctrl, m.ana, m.clk, m.ibsa0, m.ibea0, m.idi0, m.ipipe, m.ictl] ++
    [m.ista, m.ibwp]).Nodup := m.distinct
  intro hs
  rcases hs with rfl | rfl
  · exact (List.nodup_append.mp hd).2.2 _ h m.ista (by simp) rfl
  · exact (List.nodup_append.mp hd).2.2 _ h m.ibwp (by simp) rfl

theorem Enabled.congr {dev' : UnicamDevice} (h : Enabled m dev)
    (hr : ∀ r, ¬ m.isStatus r → dev'.regs r = dev.regs r)
    (ha : dev'.busAddr = dev.busAddr) (hb : dev'.bufSize = dev.bufSize) : Enabled m dev' := by
  constructor
  · rw [hr _ (RegisterMap.not_isStatus (by simp)), h.ctrl]
  · rw [hr _ (RegisterMap.not_isStatus (by simp)), h.ictl]
  · rw [hr _ (RegisterMap.not_isStatus (by simp)), h.clk]
  · rw [hr _ (RegisterMap.not_isStatus (by simp)), h.ibsa0, ha]
  · rw [hr _ (RegisterMap.not_isStatus (by simp)), h.ibea0, ha, hb]
  · rw [hr _ (RegisterMap.not_isStatus (by simp)), h.idi0]
  · rw [hr _ (RegisterMap.not_isStatus (by simp)), h.ipipe]

theorem Disabled.congr {dev' : UnicamDevice} (h : Disabled m dev)
    (hr : ∀ r, ¬ m.isStatus r → dev'.regs r = dev.regs r) : Disabled m dev' := by
  constructor
  · rw [hr _ (RegisterMap.not_isStatus (by simp)), h.ctrl]
  · rw [hr _ (RegisterMap.not_isStatus (by simp)), h.ictl]
  · rw [hr _ (RegisterMap.not_isStatus (by simp)), h.clk]

theorem enabled_hwInit (dev : UnicamDevice) : Enabled m (unicamHwInit m dev) := by
  have hd := m.distinct
  have hr := List.nodup_reverse.mpr m.distinct
  simp only [List.reverse_cons, List.reverse_nil, List.nil_append, List.cons_append,
    List.nodup_cons, List.mem_cons, not_or] at hd hr
  constructor <;>
    simp [unicamHwInit, unicamHwInitOps, runOps, RegisterOp.run, unicamRegWrite, Function.update,
      hd, hr]

theorem disabled_hwDisable (dev : UnicamDevice) : Disabled m (unicamHwDisable m dev) := by
  have hd := m.distinct
  have hr := List.nodup_reverse.mpr m.distinct
  simp only [List.reverse_cons, List.reverse_nil, List.nil_append, List.cons_append,
    List.nodup_cons, List.mem_cons, not_or] at hd hr
  constructor <;>
    simp [unicamHwDisable, unicamHwDisableOps, runOps, RegisterOp.run, unicamRegWrite,
      Function.update, hd, hr]

/-- Constants for the concrete runs of this development. -/
def sampleMap : RegisterMap where
  ctrl := 0x000
  ana := 0x008
  clk := 0x010
  ictl := 0x100
  ista := 0x104
  idi0 := 0x108
  ipipe := 0x10c
  ibsa0 := 0x110
  ibea0 := 0x114
  ibwp := 0x11c
  distinct := by decide
  ar := 0x4
  ddl := 0x8
  cle := 0x1
  clhse := 0x8
  cltre := 0x10
  dtRaw10 := 0x2b
  pumUnpack := 0x3
  pumShift := 0
  feie := 0x2
  fsie := 0x1
  cpe := 0x1
  fei := 0x2

def sampleSensor : Imx219 where
  regModelIdH := 0x0000
  regModelIdL := 0x0001
  modelId := 0x0219
  regModeSelect := 0x0100
  modeStandby := 0x00
  mode7 := [(0x0114, 0x01), (0x0100, 0x01)]

/-- A device just after its probe: a 16 MiB buffer, every register 0. -/
def sampleDevice : UnicamDevice := ⟨fun _ => 0, 0x10000000, 0x1000000, 0, 0, false, []⟩

/-- A sensor that answers with its id and acknowledges `n` writes. -/
def sampleReplies (n : ℕ) : ℕ → I2cReply
  | 0 => ⟨2, 0x02⟩
  | 1 => ⟨2, 0x19⟩
  | i + 2 => if i < n then ⟨1, 0⟩ else ⟨-5, 0⟩

end CameraDrivers.UnicamState
