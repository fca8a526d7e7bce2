import CameraDrivers.UnicamProbe
import Mathlib.Logic.Function.Iterate

/-!
# camera_probe, camera_init and camera_exit

`camera_probe` of camera_main.c statement by statement, with the resources it acquires and
releases and with what it has initialised of the objects that the file operations reach. The
local `vdev` is not assigned before it is used.
-/
namespace CameraDrivers.CameraProbe
open ResourceLedger
open UnicamProbe (Errno enodev enomem)

/-- The calls that may fail. -/
inductive Call
  | kzalloc
  | getAdapter
  | newDummy
  | v4l2Register
  | videoRegister
  | queueInit
  | deviceRegister
  | driverRegister
  deriving DecidableEq

abbrev Pattern := Call → Option Errno

inductive Resource
  | adapter
  | i2cClient
  | v4l2Device
  | videoDevice
  | vb2Queue
  deriving DecidableEq

/-- The value of the local `vdev`: `&cam->vdev` or any other. -/
inductive Pointer
  | camVdev
  | elsewhere
  deriving DecidableEq

inductive Statement
  | kzalloc
  | getAdapter
  | newDummy
  | v4l2Register
  | fillVdev
  | videoRegister
  | queueInit
  | setQueue
  | errUnregisterV4l2 (ret : ℤ)
  | errFreeI2c (ret : ℤ)
  | returned (ret : ℤ)
  deriving DecidableEq

/-- `lockShared` and `queueShared` say that `vdev->lock` and `vdev->queue` point to `cam->lock` and
to the queue of `cam`, `lockReady` and `queueReady` that these are initialised, `drvdata` that
`video_drvdata` returns `cam`, and `irq` that `camera_irq_setup` has registered the handler. -/
structure Probe where
  next : Statement
  events : List (Event Resource)
  vdev : Pointer
  lockShared : Bool
  lockReady : Bool
  drvdata : Bool
  registered : Bool
  queueReady : Bool
  queueShared : Bool
  irq : Bool
  deriving DecidableEq

def Probe.start (vdev : Pointer) : Probe where
  next := .kzalloc
  events := []
  vdev := vdev
  lockShared := false
  lockReady := false
  drvdata := false
  registered := false
  queueReady := false
  queueShared := false
  irq := false

def acquire (r : Resource) (w : Probe) : Probe := { w with events := w.events ++ [.acquire r] }

def release (r : Resource) (w : Probe) : Probe := { w with events := w.events ++ [.release r] }

def Probe.goto (w : Probe) (next : Statement) : Probe := { w with next := next }

@[simp] theorem next_goto (w : Probe) (next : Statement) : (w.goto next).next = next := rfl

@[simp] theorem events_goto (w : Probe) (next : Statement) : (w.goto next).events = w.events := rfl

@[simp] theorem events_acquire (r : Resource) (w : Probe) :
    (acquire r w).events = w.events ++ [.acquire r] := rfl

@[simp] theorem events_release (r : Resource) (w : Probe) :
    (release r w).events = w.events ++ [.release r] := rfl

/-- `i2c_put_adapter` follows `i2c_new_dummy_device` whatever that returned. -/
def probeStep (p : Pattern) (w : Probe) : Probe :=
  match w.next with
  | .kzalloc =>
    match p .kzalloc with
    | some _ => w.goto (.returned enomem.code)
    | none => w.goto .getAdapter
  | .getAdapter =>
    match p .getAdapter with
    | some _ => w.goto (.returned enodev.code)
    | none => (acquire .adapter w).goto .newDummy
  | .newDummy =>
    match p .newDummy with
    | some e => (release .adapter w).goto (.returned e.code)
    | none => (release .adapter (acquire .i2cClient w)).goto .v4l2Register
  | .v4l2Register =>
    match p .v4l2Register with
    | some e => w.goto (.errFreeI2c e.code)
    | none => (acquire .v4l2Device w).goto .fillVdev
  | .fillVdev => { w with lockShared := true }.goto .videoRegister
  | .videoRegister =>
    match p .videoRegister with
    | some e => w.goto (.errUnregisterV4l2 e.code)
    | none => { acquire .videoDevice w with registered := true }.goto .queueInit
  | .queueInit =>
    match p .queueInit with
    | some e => w.goto (.errUnregisterV4l2 e.code)
    | none => { acquire .vb2Queue w with queueReady := true }.goto .setQueue
  | .setQueue => { w with queueShared := true }.goto (.returned 0)
  | .errUnregisterV4l2 ret => (release .v4l2Device w).goto (.errFreeI2c ret)
  | .errFreeI2c ret => (release .i2cClient w).goto (.returned ret)
  | .returned _ => w

/-- No path has more statements. -/
def cameraProbe (p : Pattern) (w : Probe) : Probe := (probeStep p)^[9] w

/-- The module: its platform device and driver, and the probe if the core called it. -/
structure Module where
  device : Bool
  driver : Bool
  probe : Option Probe
  deriving DecidableEq

/-- The result of `platform_device_register_simple` is not looked at. The core calls probe when
both are registered, and registers the driver whatever probe returns. -/
def cameraInit (p : Pattern) : ℤ × Module :=
  let device := (p .deviceRegister).isNone
  match p .driverRegister with
  | some e => (e.code, ⟨device, false, none⟩)
  | none => (0, ⟨device, true, if device then some (cameraProbe p (.start .camVdev)) else none⟩)

/-- The driver has no remove callback, so unbinding releases only what devm manages. -/
def cameraExit (mod : Module) : Module := { mod with driver := false, device := false }

/-- The calls up to the registration of the video device. -/
def early : List Call := [.kzalloc, .getAdapter, .newDummy, .v4l2Register, .videoRegister]

/-- A probe that returned an error with everything given back. -/
structure Undone (w : Probe) : Prop where
  error : ∃ ret, w.next = .returned ret ∧ ret ≠ 0
  balanced : Balanced w.events

variable {p : Pattern}

/-- The state in which probe comes to `camera_queue_init`. -/
def opened (vdev : Pointer) : Probe where
  next := .queueInit
  events := [.acquire .adapter, .acquire .i2cClient, .release .adapter, .acquire .v4l2Device,
    .acquire .videoDevice]
  vdev := vdev
  lockShared := true
  lockReady := false
  drvdata := false
  registered := true
  queueReady := false
  queueShared := false
  irq := false

theorem probe_opens (h : ∀ call ∈ early, p call = none) (vdev : Pointer) :
    (probeStep p)^[6] (.start vdev) = opened vdev := by
  simp only [early, List.forall_mem_cons] at h
  obtain ⟨hk, ha, hn, hv, hr, -⟩ := h
  simp [Probe.start, probeStep, hk, ha, hn, hv, hr, Probe.goto, acquire, release, opened]

theorem cameraProbe_opened (h : ∀ call ∈ early, p call = none) (vdev : Pointer) :
    cameraProbe p (.start vdev) = (probeStep p)^[3] (opened vdev) := by
  rw [cameraProbe, ← probe_opens h, ← Function.iterate_add_apply]

/-- A failure up to the registration of the video device undoes what came before it. -/
theorem probe_early (p : Pattern) (vdev : Pointer) :
    (∃ call ∈ early, p call ≠ none) ∧ Undone (cameraProbe p (.start vdev)) ∨
      ∀ call ∈ early, p call = none := by
  cases hk : p .kzalloc with
  | some e =>
    refine .inl ⟨⟨.kzalloc, by simp [early], by simp [hk]⟩,
      ⟨enomem.code, ?_, enomem.code_ne_zero⟩, ?_⟩
    all_goals simp [cameraProbe, Probe.start, probeStep, hk, balanced_iff, settle]
  | none =>
    cases ha : p .getAdapter with
    | some e =>
      refine .inl ⟨⟨.getAdapter, by simp [early], by simp [ha]⟩,
        ⟨enodev.code, ?_, enodev.code_ne_zero⟩, ?_⟩
      all_goals simp [cameraProbe, Probe.start, probeStep, hk, ha, balanced_iff, settle]
    | none =>
      cases hn : p .newDummy with
      | some e =>
        refine .inl ⟨⟨.newDummy, by simp [early], by simp [hn]⟩, ⟨e.code, ?_, e.code_ne_zero⟩, ?_⟩
        all_goals simp [cameraProbe, Probe.start, probeStep, hk, ha, hn, balanced_iff, settle, post]
      | none =>
        cases hv : p .v4l2Register with
        | some e =>
          refine .inl ⟨⟨.v4l2Register, by simp [early], by simp [hv]⟩,
            ⟨e.code, ?_, e.code_ne_zero⟩, ?_⟩
          all_goals simp [cameraProbe, Probe.start, probeStep, hk, ha, hn, hv, balanced_iff,
            settle, post]
        | none =>
          cases hr : p .videoRegister with
          | some e =>
            refine .inl ⟨⟨.videoRegister, by simp [early], by simp [hr]⟩,
              ⟨e.code, ?_, e.code_ne_zero⟩, ?_⟩
            all_goals simp [cameraProbe, Probe.start, probeStep, hk, ha, hn, hv, hr, balanced_iff,
              settle, post]
          | none => exact .inr (by simp [early, hk, ha, hn, hv, hr])

end CameraDrivers.CameraProbe
