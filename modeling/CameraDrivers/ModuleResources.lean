import CameraDrivers.CameraProbe

/-!
# The resources of rpi_camera over load and unload

`camera_queue_init` comes after the registration of the video device and shares the label of
the calls before it, `camera_init` looks at one of its two results, and no remove callback
undoes what probe did.
-/
namespace CameraDrivers.ModuleResources
open ResourceLedger CameraProbe

/-- A probe that returns an error gives everything back, a failed load leaves nothing
registered, and an unload gives back what a successful probe acquired. -/
structure Balances (p : Pattern) : Prop where
  probed : ∀ ret, (cameraProbe p (.start .camVdev)).next = .returned ret → ret ≠ 0 →
    Balanced (cameraProbe p (.start .camVdev)).events
  loaded : (cameraInit p).1 ≠ 0 → (cameraInit p).2.device = false ∧ (cameraInit p).2.driver = false
  unloaded : (cameraInit p).1 = 0 → ∀ w, (cameraInit p).2.probe = some w → w.next = .returned 0 →
    ∃ w', (cameraExit (cameraInit p).2).probe = some w' ∧ Balanced w'.events

variable {p : Pattern}

/-- `camera_queue_init` fails with the video device registered. -/
theorem probe_queue_fails (h : ∀ call ∈ early, p call = none) {e : UnicamProbe.Errno}
    (hq : p .queueInit = some e) (vdev : Pointer) :
    (cameraProbe p (.start vdev)).next = .returned e.code ∧
      (cameraProbe p (.start vdev)).events.count (.acquire .videoDevice) = 1 ∧
      (cameraProbe p (.start vdev)).events.count (.release .videoDevice) = 0 := by
  rw [cameraProbe_opened h]
  simp [probeStep, opened, hq]

theorem probe_succeeds (h : ∀ call ∈ early, p call = none) (hq : p .queueInit = none)
    (vdev : Pointer) : (cameraProbe p (.start vdev)).next = .returned 0 ∧
      (cameraProbe p (.start vdev)).events.count (.acquire .videoDevice) = 1 ∧
      (cameraProbe p (.start vdev)).events.count (.release .videoDevice) = 0 := by
  rw [cameraProbe_opened h]
  simp [probeStep, opened, hq]

theorem unbalanced_of_kept {es : List (Event Resource)} {r : Resource}
    (hacquired : es.count (.acquire r) = 1) (hreleased : es.count (.release r) = 0) :
    ¬ Balanced es := by
  intro hb
  have hcount := hb.count r
  omega

theorem init_fails {e : UnicamProbe.Errno} (hd : p .driverRegister = some e) :
    (cameraInit p).1 ≠ 0 ∧ (cameraInit p).2.device = (p .deviceRegister).isNone ∧
      (cameraInit p).2.driver = false ∧ (cameraInit p).2.probe = none := by
  have hinit : cameraInit p = (e.code, ⟨(p .deviceRegister).isNone, false, none⟩) := by
    simp [cameraInit, hd]
  rw [hinit]
  exact ⟨e.code_ne_zero, rfl, rfl, rfl⟩

theorem init_succeeds (hd : p .driverRegister = none) : cameraInit p = (0,
    ⟨(p .deviceRegister).isNone, true,
      if (p .deviceRegister).isNone then some (cameraProbe p (.start .camVdev)) else none⟩) := by
  simp [cameraInit, hd]

theorem probed_iff (p : Pattern) :
    (∀ ret, (cameraProbe p (.start .camVdev)).next = .returned ret → ret ≠ 0 →
      Balanced (cameraProbe p (.start .camVdev)).events) ↔
    ((∀ call ∈ early, p call = none) → p .queueInit = none) := by
  constructor
  · intro h hearly
    cases hq : p .queueInit with
    | none => rfl
    | some e =>
      obtain ⟨hnext, hacquired, hreleased⟩ := probe_queue_fails hearly hq .camVdev
      exact absurd (h e.code hnext e.code_ne_zero) (unbalanced_of_kept hacquired hreleased)
  · intro h ret hnext hne
    cases probe_early p .camVdev with
    | inl hundone => exact hundone.2.balanced
    | inr hearly =>
      have hzero := (probe_succeeds hearly (h hearly) .camVdev).1
      rw [hzero] at hnext
      cases hnext
      exact absurd rfl hne

theorem loaded_iff (p : Pattern) :
    ((cameraInit p).1 ≠ 0 →
      (cameraInit p).2.device = false ∧ (cameraInit p).2.driver = false) ↔
    (p .driverRegister ≠ none → p .deviceRegister ≠ none) := by
  cases hd : p .driverRegister with
  | none =>
    rw [init_succeeds hd]
    simp
  | some e =>
    obtain ⟨herror, hdevice, hdriver, -⟩ := init_fails hd
    rw [hdevice, hdriver]
    cases hv : p .deviceRegister <;> simp [herror]

/-- After a load in which everything went well, unloading gives back nothing. -/
theorem unloaded_fails (h : ∀ call, p call = none) : (cameraInit p).1 = 0 ∧ ∃ w,
    (cameraInit p).2.probe = some w ∧ w.next = .returned 0 ∧
      ∀ w', (cameraExit (cameraInit p).2).probe = some w' → ¬ Balanced w'.events := by
  rw [init_succeeds (h .driverRegister), h .deviceRegister]
  obtain ⟨hnext, hacquired, hreleased⟩ :=
    probe_succeeds (fun call _ => h call) (h .queueInit) .camVdev
  refine ⟨rfl, _, rfl, hnext, ?_⟩
  intro w' hw'
  cases hw'
  exact unbalanced_of_kept hacquired hreleased

/-- The ways in which probe succeeds inside a successful load. -/
theorem unloaded_all {w : Probe} (hzero : (cameraInit p).1 = 0)
    (hw : (cameraInit p).2.probe = some w) (hnext : w.next = .returned 0) :
    ∀ call, p call = none := by
  have hdriver : p .driverRegister = none := by
    cases hd : p .driverRegister with
    | none => rfl
    | some e => exact absurd hzero (init_fails hd).1
  rw [init_succeeds hdriver] at hw
  cases hd : p .deviceRegister with
  | some e => simp [hd] at hw
  | none =>
    simp only [hd, Option.isNone_none, if_true, Option.some.injEq] at hw
    rw [← hw] at hnext
    cases probe_early p .camVdev with
    | inl hundone =>
      obtain ⟨ret, hret, hne⟩ := hundone.2.error
      rw [hnext] at hret
      cases hret
      exact absurd rfl hne
    | inr hearly =>
      cases hq : p .queueInit with
      | some e =>
        rw [(probe_queue_fails hearly hq .camVdev).1] at hnext
        exact absurd (Statement.returned.inj hnext) e.code_ne_zero
      | none =>
        intro call
        cases call with
        | kzalloc | getAdapter | newDummy | v4l2Register | videoRegister =>
          exact hearly _ (by simp [early])
        | queueInit => exact hq
        | deviceRegister => exact hd
        | driverRegister => exact hdriver

/-- Load and unload are balanced unless `camera_queue_init` fails behind a registered video
device, the driver cannot be registered next to a registered platform device, or all goes
well. -/
theorem balances_iff (p : Pattern) : Balances p ↔
    ((∀ call ∈ early, p call = none) → p .queueInit = none) ∧
    (p .driverRegister ≠ none → p .deviceRegister ≠ none) ∧
    ¬ ∀ call, p call = none := by
  constructor
  · intro h
    refine ⟨(probed_iff p).mp h.probed, (loaded_iff p).mp h.loaded, ?_⟩
    intro hall
    obtain ⟨hzero, w, hw, hnext, hkept⟩ := unloaded_fails hall
    obtain ⟨w', hw', hbalanced⟩ := h.unloaded hzero w hw hnext
    exact hkept w' hw' hbalanced
  · intro h
    obtain ⟨hqueue, hdriver, hsome⟩ := h
    refine ⟨(probed_iff p).mpr hqueue, (loaded_iff p).mpr hdriver, ?_⟩
    intro hzero w hw hnext
    exact absurd (unloaded_all hzero hw hnext) hsome

/-- A load without any failure, and its unload. -/
theorem unload_keeps_everything : ¬ ∀ p : Pattern, Balances p := by
  intro hall
  obtain ⟨hzero, w, hw, hnext, hkept⟩ := unloaded_fails (p := fun _ => none) (fun _ => rfl)
  obtain ⟨w', hw', hbalanced⟩ := (hall _).unloaded hzero w hw hnext
  exact hkept w' hw' hbalanced

end CameraDrivers.ModuleResources
