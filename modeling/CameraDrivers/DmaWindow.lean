import CameraDrivers.StreamingAgreement
import Mathlib.Order.Interval.Set.Basic

/-!
# The DMA window of the Unicam core

`unicam_hw_init` stores the bus address of the buffer, and the address one past its end, in two
registers of 32 bits. The mask bounds the last byte of the buffer, not the address behind it.
-/
namespace CameraDrivers.DmaWindow
open UnicamState StreamingAgreement

/-- DMA_BIT_MASK(32), the coherent mask of a device that sets none. -/
def coherentMask : ℕ := 2 ^ 32 - 1

/-- `dma_alloc_coherent` keeps the last byte of a buffer under the mask. -/
def UnderMask (dev : UnicamDevice) : Prop :=
  dev.busAddr.toNat + dev.bufSize.toNat - 1 ≤ coherentMask

/-- The bus addresses of the allocated bytes. -/
def buffer (dev : UnicamDevice) : Set ℕ :=
  Set.Ico dev.busAddr.toNat (dev.busAddr.toNat + dev.bufSize.toNat)

/-- The bus addresses between the two registers. -/
def window (m : RegisterMap) (dev : UnicamDevice) : Set ℕ :=
  Set.Ico (dev.regs m.ibsa0).toNat (dev.regs m.ibea0).toNat

structure WindowIsBuffer (m : RegisterMap) (dev : UnicamDevice) : Prop where
  first : (dev.regs m.ibsa0).toNat = dev.busAddr.toNat
  last : (dev.regs m.ibea0).toNat = dev.busAddr.toNat + dev.bufSize.toNat
  ordered : (dev.regs m.ibsa0).toNat < (dev.regs m.ibea0).toNat
  inside : window m dev ⊆ buffer dev

/-- There is a buffer, and it does not end with the last byte of the 32-bit space. -/
def endsBelow (dev : UnicamDevice) : Prop :=
  0 < dev.bufSize.toNat ∧ dev.busAddr.toNat + dev.bufSize.toNat ≠ 2 ^ 32

variable {m : RegisterMap} {sensor : Imx219} {dev : UnicamDevice}

/-- A narrowed sum of two words is their sum modulo the narrow width. -/
theorem toNat_narrowed_add {v w : ℕ} (h : w ≤ v) (x y : BitVec v) :
    ((x + y).setWidth w).toNat = (x.toNat + y.toNat) % 2 ^ w := by
  rw [BitVec.toNat_setWidth, BitVec.toNat_add]
  exact Nat.mod_mod_of_dvd _ (Nat.pow_dvd_pow 2 h)

/-- The registers of a core that runs hold the two ends of the buffer modulo 4 GiB. -/
theorem enabled_ends (h : Enabled m dev) :
    (dev.regs m.ibsa0).toNat = dev.busAddr.toNat % 2 ^ 32 ∧
      (dev.regs m.ibea0).toNat = (dev.busAddr.toNat + dev.bufSize.toNat) % 2 ^ 32 := by
  rw [h.ibsa0, h.ibea0]
  exact ⟨BitVec.toNat_setWidth 32 _, toNat_narrowed_add (by omega) _ _⟩

/-- The buffer at the very top of the space leaves an end address of 0, and no window. -/
theorem enabled_wraps (h : Enabled m dev) (htop : dev.busAddr.toNat + dev.bufSize.toNat = 2 ^ 32) :
    (dev.regs m.ibea0).toNat = 0 ∧ window m dev = ∅ := by
  have hend : (dev.regs m.ibea0).toNat = 0 := by
    rw [(enabled_ends h).2, htop, Nat.mod_self]
  refine ⟨hend, ?_⟩
  rw [window, hend]
  exact Set.Ico_eq_empty (Nat.not_lt_zero _)

theorem enabled_windowIsBuffer_iff (h : Enabled m dev) (hmask : UnderMask dev) :
    WindowIsBuffer m dev ↔ endsBelow dev := by
  obtain ⟨hfirst, hlast⟩ := enabled_ends h
  rw [UnderMask, coherentMask] at hmask
  constructor
  · intro hw
    have hordered := hw.ordered
    rw [hw.first, hw.last] at hordered
    refine ⟨by omega, ?_⟩
    intro htop
    have hend := (enabled_wraps h htop).1
    have hsum := hw.last
    omega
  · intro hb
    obtain ⟨hsize, htop⟩ := hb
    rw [Nat.mod_eq_of_lt (by omega)] at hfirst hlast
    refine ⟨hfirst, hlast, by omega, ?_⟩
    rw [window, buffer, hfirst, hlast]

theorem unicamHwInit_frame (m : RegisterMap) (dev : UnicamDevice) :
    (unicamHwInit m dev).busAddr = dev.busAddr ∧ (unicamHwInit m dev).bufSize = dev.bufSize :=
  ⟨rfl, rfl⟩

/-- What `unicam_hw_init` programs is the buffer, unless that ends exactly at 4 GiB. -/
theorem windowIsBuffer_iff (m : RegisterMap) (dev : UnicamDevice) (hmask : UnderMask dev) :
    WindowIsBuffer m (unicamHwInit m dev) ↔ endsBelow dev := by
  obtain ⟨haddr, hsize⟩ := unicamHwInit_frame m dev
  have hmask' : UnderMask (unicamHwInit m dev) := by
    rwa [UnderMask, haddr, hsize]
  rw [enabled_windowIsBuffer_iff (enabled_hwInit dev) hmask', endsBelow, endsBelow, haddr, hsize]

/-- In every run from a stopped device: while it streams, the core is programmed with the
buffer, unless that ends exactly at 4 GiB. -/
theorem streaming_windowIsBuffer_iff (h : Disabled m dev) (hs : dev.streaming = false)
    (ops : List Op) (hon : (runDevice m sensor dev ops).streaming = true)
    (hmask : UnderMask (runDevice m sensor dev ops)) :
    WindowIsBuffer m (runDevice m sensor dev ops) ↔ endsBelow (runDevice m sensor dev ops) :=
  enabled_windowIsBuffer_iff ((agrees_run h hs ops).enabled hon) hmask

/-- The buffer of 16 MiB at 256 MiB. -/
theorem windowIsBuffer_sample : UnderMask sampleDevice ∧
    WindowIsBuffer sampleMap (unicamHwInit sampleMap sampleDevice) := by
  have hmask : UnderMask sampleDevice := by
    rw [UnderMask]
    decide
  exact ⟨hmask, (windowIsBuffer_iff sampleMap sampleDevice hmask).mpr (by rw [endsBelow]; decide)⟩

/-- A buffer of 16 MiB that ends with the last address of 32 bits. -/
theorem window_wraps_at_top : ¬ ∀ (m : RegisterMap) (dev : UnicamDevice), UnderMask dev →
    WindowIsBuffer m (unicamHwInit m dev) := by
  intro hall
  let top : UnicamDevice := { sampleDevice with busAddr := 0xff000000 }
  have hmask : UnderMask top := by
    rw [UnderMask]
    decide
  have hsum : top.busAddr.toNat + top.bufSize.toNat = 2 ^ 32 := by decide
  obtain ⟨haddr, hsize⟩ := unicamHwInit_frame sampleMap top
  rw [← haddr, ← hsize] at hsum
  have hlast := (hall sampleMap top hmask).last
  rw [(enabled_wraps (enabled_hwInit top) hsum).1, hsum] at hlast
  cases hlast

end CameraDrivers.DmaWindow
