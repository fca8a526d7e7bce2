import CameraDrivers.CameraProbe
import CameraDrivers.TransitionRuns

/-!
# What user space reaches through the video device of camera_main.c

From the success of `video_register_device` on, user space can open the node and call every
ioctl of `camera_ioctl_ops`, while probe still runs and after it has returned. Each handler
depends on some of what probe should have initialised by then.
-/
namespace CameraDrivers.DevicePublication
open TransitionRuns CameraProbe

inductive Dependency
  | videoDevice
  | drvdata
  | lock
  | queue
  deriving DecidableEq

inductive UserOp
  | fopen
  | querycap
  | enumFmt
  | tryFmt
  | gFmt
  | sFmt
  | gParm
  | reqbufs
  | querybuf
  | qbuf
  | dqbuf
  | streamon
  | streamoff

/-- `video_ioctl2` takes `vdev->lock` around every handler, the handlers of camera_v4l2.c begin
with `video_drvdata`, and those of vb2 use `vdev->queue`. -/
def UserOp.needs : UserOp → List Dependency
  | .fopen => [.videoDevice]
  | .querycap | .enumFmt | .tryFmt | .gFmt | .sFmt | .gParm => [.videoDevice, .lock, .drvdata]
  | .reqbufs | .querybuf | .qbuf | .dqbuf | .streamon | .streamoff => [.videoDevice, .lock, .queue]

/-- Without a lock in `vdev->lock` none is taken. -/
def established (w : Probe) : Dependency → Bool
  | .videoDevice => w.vdev = .camVdev
  | .drvdata => w.drvdata
  | .lock => !w.lockShared || w.lockReady
  | .queue => w.queueShared && w.queueReady

/-- `incomplete` records that an operation needed something that was not initialised. -/
structure Session where
  probe : Probe
  incomplete : Bool

inductive Action
  | probe
  | user (op : UserOp)

def step (p : Pattern) (s : Session) : Action → Option Session
  | .probe => some { s with probe := probeStep p s.probe }
  | .user op =>
    if s.probe.registered then
      some { s with incomplete := s.incomplete || !op.needs.all (established s.probe) }
    else none

def start (vdev : Pointer) : Session := ⟨.start vdev, false⟩

/-- Every operation so far found what it depends on, and a probe that returned 0 has registered
the interrupt handler. -/
structure Complete (s : Session) : Prop where
  operations : s.incomplete = false
  handler : s.probe.next = .returned 0 → s.probe.irq = true

/-- What is known of the calls when probe is at a statement. -/
def known (p : Pattern) : Statement → Prop
  | .kzalloc => True
  | .getAdapter => ∀ call ∈ [Call.kzalloc], p call = none
  | .newDummy => ∀ call ∈ [Call.kzalloc, .getAdapter], p call = none
  | .v4l2Register => ∀ call ∈ [Call.kzalloc, .getAdapter, .newDummy], p call = none
  | .fillVdev | .videoRegister => ∀ call ∈ [Call.kzalloc, .getAdapter, .newDummy, .v4l2Register],
      p call = none
  | .queueInit | .setQueue => ∀ call ∈ early, p call = none
  | .errUnregisterV4l2 ret | .errFreeI2c ret => ret ≠ 0
  | .returned ret => ret = 0 → ∀ call ∈ early, p call = none

/-- The node is registered, or probe returns 0, only after every early call. -/
structure Known (p : Pattern) (w : Probe) : Prop where
  next : known p w.next
  registered : w.registered = true → ∀ call ∈ early, p call = none

variable {p : Pattern} {s t : Session}

/-- What no statement of probe does. -/
theorem probeStep_never (p : Pattern) (w : Probe) : (probeStep p w).lockReady = w.lockReady ∧
    (probeStep p w).drvdata = w.drvdata ∧ (probeStep p w).irq = w.irq ∧
    (probeStep p w).vdev = w.vdev := by
  rw [probeStep]
  split <;> first | exact ⟨rfl, rfl, rfl, rfl⟩ | (split <;> exact ⟨rfl, rfl, rfl, rfl⟩)

/-- Whatever was registered, its mutex was never initialised, and nobody asked for the
interrupt. -/
structure Bare (s : Session) : Prop where
  lockReady : s.probe.lockReady = false
  drvdata : s.probe.drvdata = false
  irq : s.probe.irq = false

theorem bare_step (h : Bare s) {a : Action} (hs : step p s a = some t) : Bare t := by
  cases a with
  | probe =>
    cases hs
    obtain ⟨hlock, hdrvdata, hirq, -⟩ := probeStep_never p s.probe
    exact ⟨hlock.trans h.lockReady, hdrvdata.trans h.drvdata, hirq.trans h.irq⟩
  | user op =>
    simp only [step, Option.ite_none_right_eq_some, Option.some.injEq] at hs
    obtain ⟨-, rfl⟩ := hs
    exact ⟨h.lockReady, h.drvdata, h.irq⟩

theorem bare_reachable {vdev : Pointer} (h : Reachable (Steps (step p)) (start vdev) s) : Bare s :=
  h.invariant Bare ⟨rfl, rfl, rfl⟩ (fun _ _ _ hb hs => bare_step hb hs)

/-- Each ioctl of camera_v4l2.c looks for a `cam` that nobody stored. -/
theorem ioctl_incomplete (h : Bare s) {op : UserOp} (hop : Dependency.drvdata ∈ op.needs)
    (hs : step p s (.user op) = some t) : t.incomplete = true := by
  simp only [step, Option.ite_none_right_eq_some, Option.some.injEq] at hs
  obtain ⟨-, rfl⟩ := hs
  have hmissing : op.needs.all (established s.probe) = false := by
    rw [List.all_eq_false]
    exact ⟨.drvdata, hop, by simp [established, h.drvdata]⟩
  simp [hmissing]

theorem run_probe (p : Pattern) (s : Session) (k : ℕ) : Run (Steps (step p)) s
    (List.replicate k .probe) { s with probe := (probeStep p)^[k] s.probe } := by
  induction k with
  | zero => exact .refl s
  | succ k ih =>
    rw [List.replicate_succ', Function.iterate_succ_apply']
    exact .snoc ih rfl

theorem known_probeStep {w : Probe} (h : Known p w) : Known p (probeStep p w) := by
  obtain ⟨hnext, hregistered⟩ := h
  rw [probeStep]
  cases hw : w.next with
  | kzalloc =>
    cases hc : p .kzalloc with
    | some e => exact ⟨fun hzero => absurd hzero UnicamProbe.enomem.code_ne_zero, hregistered⟩
    | none => exact ⟨by simp [known, hc], hregistered⟩
  | getAdapter =>
    rw [hw] at hnext
    cases hc : p .getAdapter with
    | some e => exact ⟨fun hzero => absurd hzero UnicamProbe.enodev.code_ne_zero, hregistered⟩
    | none => exact ⟨by simpa [known, hc] using hnext, hregistered⟩
  | newDummy =>
    rw [hw] at hnext
    cases hc : p .newDummy with
    | some e => exact ⟨fun hzero => absurd hzero e.code_ne_zero, hregistered⟩
    | none => exact ⟨by simpa [known, hc] using hnext, hregistered⟩
  | v4l2Register =>
    rw [hw] at hnext
    cases hc : p .v4l2Register with
    | some e => exact ⟨e.code_ne_zero, hregistered⟩
    | none => exact ⟨by simpa [known, hc] using hnext, hregistered⟩
  | fillVdev =>
    rw [hw] at hnext
    exact ⟨hnext, hregistered⟩
  | videoRegister =>
    rw [hw] at hnext
    cases hc : p .videoRegister with
    | some e => exact ⟨e.code_ne_zero, hregistered⟩
    | none =>
      have hearly : ∀ call ∈ early, p call = none := by simpa [known, early, hc] using hnext
      exact ⟨hearly, fun _ => hearly⟩
  | queueInit =>
    rw [hw] at hnext
    cases p .queueInit with
    | some e => exact ⟨e.code_ne_zero, hregistered⟩
    | none => exact ⟨hnext, hregistered⟩
  | setQueue =>
    rw [hw] at hnext
    exact ⟨fun _ => hnext, hregistered⟩
  | errUnregisterV4l2 ret =>
    rw [hw] at hnext
    exact ⟨hnext, hregistered⟩
  | errFreeI2c ret =>
    rw [hw] at hnext
    exact ⟨fun hzero => absurd hzero hnext, hregistered⟩
  | returned ret => exact ⟨hnext, hregistered⟩

/-- What every run keeps if an early call fails. -/
structure Unpublished (p : Pattern) (s : Session) : Prop where
  known : Known p s.probe
  operations : s.incomplete = false

theorem Unpublished.not_registered (hfail : ∃ call ∈ early, p call ≠ none)
    (h : Unpublished p s) : s.probe.registered = false := by
  obtain ⟨call, hmem, hne⟩ := hfail
  cases hr : s.probe.registered with
  | false => rfl
  | true => exact absurd (h.known.registered hr call hmem) hne

theorem unpublished_step (hfail : ∃ call ∈ early, p call ≠ none) (h : Unpublished p s)
    {a : Action} (hs : step p s a = some t) : Unpublished p t := by
  cases a with
  | probe =>
    cases hs
    exact ⟨known_probeStep h.known, h.operations⟩
  | user op =>
    have hr := h.not_registered hfail
    simp [step, hr] at hs

theorem unpublished_complete (hfail : ∃ call ∈ early, p call ≠ none) (h : Unpublished p s) :
    Complete s := by
  refine ⟨h.operations, fun hzero => ?_⟩
  have hnext := h.known.next
  rw [hzero] at hnext
  obtain ⟨call, hmem, hne⟩ := hfail
  exact absurd (hnext rfl call hmem) hne

/-- Whatever the uninitialised `vdev` holds: nothing incomplete is ever published exactly when
nothing is published at all. -/
theorem published_complete_iff (p : Pattern) (vdev : Pointer) :
    (∀ s, Reachable (Steps (step p)) (start vdev) s → Complete s) ↔
      ∃ call ∈ early, p call ≠ none := by
  constructor
  · intro h
    by_contra hno
    have hearly : ∀ call ∈ early, p call = none := by
      intro call hmem
      by_contra hne
      exact hno ⟨call, hmem, hne⟩
    have hopened := run_probe p (start vdev) 6
    have hprobe : (probeStep p)^[6] (start vdev).probe = opened vdev := probe_opens hearly vdev
    rw [hprobe] at hopened
    let opening : Session := { start vdev with probe := opened vdev }
    have hregistered : opening.probe.registered = true := rfl
    obtain ⟨t, hlast⟩ : ∃ t, step p opening (.user .querycap) = some t := by
      simp [step, hregistered]
    have hincomplete := ioctl_incomplete (bare_reachable ⟨_, hopened⟩) (by decide) hlast
    have hcomplete := h t ⟨_, .snoc hopened hlast⟩
    rw [hcomplete.operations] at hincomplete
    cases hincomplete
  · intro hfail s hreach
    apply unpublished_complete hfail
    apply hreach.invariant (Unpublished p)
    · exact ⟨⟨trivial, fun hr => nomatch hr⟩, rfl⟩
    · exact fun _ _ _ hu hs => unpublished_step hfail hu hs

/-- Every call succeeds, `vdev` happens to hold the right address, and the first QUERYCAP comes
before probe has returned. -/
theorem querycap_during_probe : ¬ ∀ (p : Pattern) (vdev : Pointer) (s : Session),
    Reachable (Steps (step p)) (start vdev) s → Complete s := by
  intro hall
  let as : List Action := List.replicate 6 .probe ++ [.user .querycap]
  have hrun : (follow (step (fun _ => none)) (start .camVdev) as).map (fun s => s.incomplete) =
      some true := by decide
  obtain ⟨s, hs, hincomplete⟩ := Option.map_eq_some_iff.mp hrun
  have hcomplete := hall (fun _ => none) .camVdev s ⟨as, run_steps_iff.mpr hs⟩
  rw [hcomplete.operations] at hincomplete
  cases hincomplete

end CameraDrivers.DevicePublication
