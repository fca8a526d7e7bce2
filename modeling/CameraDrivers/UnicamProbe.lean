import CameraDrivers.ResourceLedger
import Mathlib.Data.Int.Notation

/-!
# The kernel calls of unicam_probe

A pattern says which calls fail for a reason outside the driver, and with which error. The
calls act on what the kernel and `dev` remember of the character device, and enter every
acquisition and release in a trace. What devm allocates is not in it: the device core
releases that.
-/
namespace CameraDrivers.UnicamProbe
open ResourceLedger

structure Errno where
  code : ℤ
  neg : code < 0

def enodev : Errno := ⟨-19, by decide⟩
def enomem : Errno := ⟨-12, by decide⟩
def eexist : Errno := ⟨-17, by decide⟩

/-- The calls that may fail; those of the character device are numbered by their sequence. -/
inductive Call
  | kzalloc
  | getResource
  | ioremap
  | getIrq
  | requestIrq
  | clkGetLp
  | clkGetVpu
  | enableLp
  | enableVpu
  | dmaAlloc
  | getAdapter
  | newClient
  | allocRegion (sequence : ℕ)
  | cdevAdd (sequence : ℕ)
  | classCreate (sequence : ℕ)
  | deviceCreate (sequence : ℕ)
  deriving DecidableEq

abbrev Pattern := Call → Option Errno

/-- A cdev and a device node belong to the number they were added with. -/
inductive Resource
  | clockLp
  | clockVpu
  | dmaBuffer
  | i2cClient
  | region (devt : ℕ)
  | cdev (devt : ℕ)
  | deviceClass
  | node (devt : ℕ)
  deriving DecidableEq

/-- `dev->class`: zeroed, an ERR_PTR or a class. -/
inductive ClassPtr
  | null
  | error
  | created
  deriving DecidableEq

/-- `nextDevt` is the number that the next `alloc_chrdev_region` returns, `classTaken` says
that a class of the driver's name is registered, `cdev` is the number that `dev->cdev` was
added with, and `gUnicamDev` that `g_unicam_dev` points to `dev`. -/
structure World where
  events : List (Event Resource)
  nextDevt : ℕ
  classTaken : Bool
  devt : ℕ
  cdev : ℕ
  deviceClass : ClassPtr
  gUnicamDev : Bool

/-- Before probe. -/
def World.start (nextDevt : ℕ) (classTaken : Bool) : World :=
  ⟨[], nextDevt, classTaken, 0, 0, .null, false⟩

def acquire (r : Resource) (w : World) : World := { w with events := w.events ++ [.acquire r] }

def release (r : Resource) (w : World) : World := { w with events := w.events ++ [.release r] }

def allocChrdevRegion (o : Option Errno) (w : World) : Option Errno × World :=
  match o with
  | some e => (some e, w)
  | none => (none, { acquire (.region w.nextDevt) w with
      devt := w.nextDevt, nextDevt := w.nextDevt + 1 })

def unregisterChrdevRegion (w : World) : World := release (.region w.devt) w

def cdevAdd (o : Option Errno) (w : World) : Option Errno × World :=
  match o with
  | some e => (some e, w)
  | none => (none, { acquire (.cdev w.devt) w with cdev := w.devt })

def cdevDel (w : World) : World := release (.cdev w.cdev) w

/-- A second class of the same name is refused. -/
def classCreate (o : Option Errno) (w : World) : Option Errno × World :=
  match o, w.classTaken with
  | some e, _ => (some e, { w with deviceClass := .error })
  | none, true => (some eexist, { w with deviceClass := .error })
  | none, false => (none, { acquire .deviceClass w with
      classTaken := true, deviceClass := .created })

/-- For NULL and for an ERR_PTR it does nothing. -/
def classDestroy (w : World) : World :=
  match w.deviceClass with
  | .created => { release .deviceClass w with classTaken := false }
  | _ => w

def deviceCreate (o : Option Errno) (w : World) : Option Errno × World :=
  match o with
  | some e => (some e, w)
  | none => (none, acquire (.node w.devt) w)

def deviceDestroy (w : World) : World := release (.node w.devt) w

section Labels
-- what follows the two calls of `err_clocks`
variable (after : World → World)

def errClocks (w : World) : World := after (release .clockLp (release .clockVpu w))

def errDma (w : World) : World := errClocks after (release .dmaBuffer w)

def errI2c (w : World) : World := errDma after (release .i2cClient w)

def errChrdev (w : World) : World := errI2c after (unregisterChrdevRegion w)

def errCdev (w : World) : World := errChrdev after (cdevDel w)

def errClass (w : World) : World := errCdev after (classDestroy w)

variable (p : Pattern) (next : World → ℤ × World)

/-- From the DMA buffer to the I2C client. `getAdapter` stands for both ways to find it. -/
def probeBuffer (w : World) : ℤ × World :=
  match p .dmaAlloc with
  | some _ => (enomem.code, errClocks after w)
  | none =>
    let w := acquire .dmaBuffer w
    match p .getAdapter with
    | some _ => (enodev.code, errDma after w)
    | none =>
      match p .newClient with
      | some e => (e.code, errDma after w)
      | none => next (acquire .i2cClient w)

def probeClocks (w : World) : ℤ × World :=
  match p .enableLp with
  | some e => (e.code, w)
  | none =>
    let w := acquire .clockLp w
    match p .enableVpu with
    | some e => (e.code, release .clockLp w)
    | none => probeBuffer after p next (acquire .clockVpu w)

/-- Calls whose error is returned at once. -/
def probeResources : List Call → World → ℤ × World
  | [], w => probeClocks after p next w
  | call :: calls, w =>
    match p call with
    | some e => (e.code, w)
    | none => probeResources calls w

/-- `unicam_probe` up to the I2C client; `next` registers the character device. -/
def probeFront (w : World) : ℤ × World :=
  match p .kzalloc with
  | some _ => (enomem.code, w)
  | none =>
    let w := { w with devt := 0, cdev := 0, deviceClass := .null, gUnicamDev := true }
    match p .getResource with
    | some _ => (enodev.code, w)
    | none => probeResources after p next [.ioremap, .getIrq, .requestIrq, .clkGetLp, .clkGetVpu] w

end Labels

/-- The calls before the DMA buffer, in order. -/
def early : List Call :=
  [.kzalloc, .getResource, .ioremap, .getIrq, .requestIrq, .clkGetLp, .clkGetVpu, .enableLp,
    .enableVpu]

/-- Where the front of probe hands over to the DMA buffer. -/
def World.clocked (w : World) : World :=
  acquire .clockVpu (acquire .clockLp
    { w with devt := 0, cdev := 0, deviceClass := .null, gUnicamDev := true })

variable (after : World → World) (p : Pattern) (next : World → ℤ × World) (w : World)

theorem Errno.code_ne_zero (e : Errno) : e.code ≠ 0 := Int.ne_of_lt e.neg

theorem probeResources_cases (calls : List Call) :
    (∃ e : Errno, probeResources after p next calls w = (e.code, w) ∧
      ∃ call ∈ calls, p call ≠ none) ∨
    probeResources after p next calls w = probeClocks after p next w ∧
      ∀ call ∈ calls, p call = none := by
  induction calls with
  | nil => exact .inr ⟨rfl, by simp⟩
  | cons call calls ih =>
    rw [probeResources]
    cases hc : p call with
    | some e => exact .inl ⟨e, rfl, call, by simp, by simp [hc]⟩
    | none =>
      cases ih with
      | inl h =>
        obtain ⟨e, heq, call', hmem, hfail⟩ := h
        exact .inl ⟨e, heq, call', List.mem_cons_of_mem _ hmem, hfail⟩
      | inr h => exact .inr ⟨h.1, by simpa [hc] using h.2⟩

/-- Before the DMA buffer an error is returned with at most the LP clock enabled and disabled
again. -/
structure ReturnsEarly (p : Pattern) (w w' : World) (ret : ℤ) : Prop where
  error : ret ≠ 0
  events : w'.events = w.events ∨
    w'.events = w.events ++ [.acquire .clockLp] ++ [.release .clockLp]
  call : ∃ call ∈ early, p call ≠ none
  points : p .kzalloc = none → w'.gUnicamDev = true

theorem probeClocks_cases (hw : w.gUnicamDev = true) :
    ReturnsEarly p w (probeClocks after p next w).2 (probeClocks after p next w).1 ∨
    probeClocks after p next w =
        probeBuffer after p next (acquire .clockVpu (acquire .clockLp w)) ∧
      p .enableLp = none ∧ p .enableVpu = none := by
  rw [probeClocks]
  cases hlp : p .enableLp with
  | some e =>
    exact .inl ⟨e.code_ne_zero, .inl rfl, ⟨.enableLp, by simp [early], by simp [hlp]⟩, fun _ => hw⟩
  | none =>
    cases hvpu : p .enableVpu with
    | some e =>
      exact .inl ⟨e.code_ne_zero, .inr rfl, ⟨.enableVpu, by simp [early], by simp [hvpu]⟩,
        fun _ => hw⟩
    | none => exact .inr ⟨rfl, rfl, rfl⟩

/-- Probe returns before the DMA buffer, or goes on with both clocks enabled. -/
theorem probeFront_cases :
    ReturnsEarly p w (probeFront after p next w).2 (probeFront after p next w).1 ∨
    probeFront after p next w = probeBuffer after p next w.clocked ∧
      ∀ call ∈ early, p call = none := by
  rw [probeFront]
  cases hk : p .kzalloc with
  | some e =>
    refine .inl ⟨enomem.code_ne_zero, .inl rfl, ⟨.kzalloc, by simp [early], by simp [hk]⟩, ?_⟩
    intro h
    rw [hk] at h
    cases h
  | none =>
    cases hg : p .getResource with
    | some e =>
      exact .inl ⟨enodev.code_ne_zero, .inl rfl, ⟨.getResource, by simp [early], by simp [hg]⟩,
        fun _ => rfl⟩
    | none =>
      let w₀ := { w with devt := 0, cdev := 0, deviceClass := .null, gUnicamDev := true }
      have hresources := probeResources_cases after p next w₀
        [.ioremap, .getIrq, .requestIrq, .clkGetLp, .clkGetVpu]
      have hsub : ∀ call ∈ [Call.ioremap, .getIrq, .requestIrq, .clkGetLp, .clkGetVpu],
          call ∈ early := by decide
      cases hresources with
      | inl h =>
        obtain ⟨e, heq, call, hmem, hfail⟩ := h
        simp only [w₀] at heq
        simp only [heq]
        exact .inl ⟨e.code_ne_zero, .inl rfl, ⟨call, hsub call hmem, hfail⟩, fun _ => rfl⟩
      | inr h =>
        obtain ⟨heq, hnone⟩ := h
        simp only [w₀] at heq
        simp only [heq]
        cases probeClocks_cases after p next w₀ rfl with
        | inl hearly => exact .inl ⟨hearly.error, hearly.events, hearly.call, hearly.points⟩
        | inr hlate =>
          obtain ⟨hclocks, hlp, hvpu⟩ := hlate
          exact .inr ⟨hclocks, by simpa [early, hk, hg, hlp, hvpu] using hnone⟩

end CameraDrivers.UnicamProbe
