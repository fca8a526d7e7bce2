import CameraDrivers.UnicamProbe

/-!
# Probe and remove of src/manual-unicam-driver.c

The character device is registered twice. The second sequence overwrites `dev->devt`,
`dev->cdev` and `dev->class` and asks for a class of the same name, and every error label
falls through to a last `unregister_chrdev_region`.
-/
namespace CameraDrivers.DoubleRegistration
open ResourceLedger UnicamProbe

def errChrdevRegion (w : World) : World := unregisterChrdevRegion w

def secondSequence (p : Pattern) (w : World) : ℤ × World :=
  match allocChrdevRegion (p (.allocRegion 2)) w with
  | (some e, w) => (e.code, errI2c errChrdevRegion w)
  | (none, w) =>
    match cdevAdd (p (.cdevAdd 2)) w with
    | (some e, w) => (e.code, errChrdevRegion w)
    | (none, w) =>
      match classCreate (p (.classCreate 2)) w with
      | (some e, w) => (e.code, errCdev errChrdevRegion w)
      | (none, w) =>
        match deviceCreate (p (.deviceCreate 2)) w with
        | (some e, w) => (e.code, errClass errChrdevRegion w)
        | (none, w) => (0, w)

def firstSequence (p : Pattern) (w : World) : ℤ × World :=
  match allocChrdevRegion (p (.allocRegion 1)) w with
  | (some e, w) => (e.code, errI2c errChrdevRegion w)
  | (none, w) =>
    match cdevAdd (p (.cdevAdd 1)) w with
    | (some e, w) => (e.code, errChrdev errChrdevRegion w)
    | (none, w) =>
      match classCreate (p (.classCreate 1)) w with
      | (some e, w) => (e.code, errCdev errChrdevRegion w)
      -- the result is compared with NULL, and `device_create` returns an ERR_PTR
      | (none, w) => secondSequence p (deviceCreate (p (.deviceCreate 1)) w).2

def unicamProbe (p : Pattern) (w : World) : ℤ × World :=
  probeFront errChrdevRegion p (firstSequence p) w

def unicamRemove (w : World) : World :=
  let w := if w.deviceClass ≠ .null ∧ w.devt ≠ 0 then deviceDestroy w else w
  let w := if w.deviceClass ≠ .null then classDestroy w else w
  let w := unregisterChrdevRegion (cdevDel w)
  let w := release .dmaBuffer (release .i2cClient w)
  let w := release .clockLp (release .clockVpu w)
  { w with gUnicamDev := false }

/-- What a probe owes: an error gives everything back, a success leaves it to remove, and
there is a success when nothing outside the driver fails. -/
structure Clean (p : Pattern) (w : World) : Prop where
  failed : (unicamProbe p w).1 ≠ 0 →
    Balanced (unicamProbe p w).2.events ∧ (unicamProbe p w).2.gUnicamDev = false
  removed : (unicamProbe p w).1 = 0 → Balanced (unicamRemove (unicamProbe p w).2).events
  succeeds : (∀ call, p call = none) → w.classTaken = false → (unicamProbe p w).1 = 0

variable {p : Pattern} {w : World}

/-- The class of the first sequence is there, so the second `class_create` fails. -/
theorem secondSequence_fails (hw : w.classTaken = true) :
    (secondSequence p w).1 ≠ 0 ∧ (secondSequence p w).2.gUnicamDev = w.gUnicamDev := by
  rw [secondSequence, allocChrdevRegion.eq_def]
  cases p (.allocRegion 2) with
  | some e => exact ⟨e.code_ne_zero, rfl⟩
  | none =>
    simp only [cdevAdd]
    cases p (.cdevAdd 2) with
    | some e => exact ⟨e.code_ne_zero, rfl⟩
    | none =>
      simp only [classCreate, acquire, hw]
      cases p (.classCreate 2) with
      | some e => exact ⟨e.code_ne_zero, rfl⟩
      | none => exact ⟨eexist.code_ne_zero, rfl⟩

theorem firstSequence_fails (p : Pattern) (w : World) :
    (firstSequence p w).1 ≠ 0 ∧ (firstSequence p w).2.gUnicamDev = w.gUnicamDev := by
  rw [firstSequence, allocChrdevRegion.eq_def]
  cases p (.allocRegion 1) with
  | some e => exact ⟨e.code_ne_zero, rfl⟩
  | none =>
    simp only [cdevAdd]
    cases p (.cdevAdd 1) with
    | some e => exact ⟨e.code_ne_zero, rfl⟩
    | none =>
      simp only [classCreate, acquire]
      cases p (.classCreate 1) with
      | some e => exact ⟨e.code_ne_zero, rfl⟩
      | none =>
        cases hw : w.classTaken with
        | true => exact ⟨eexist.code_ne_zero, rfl⟩
        | false =>
          cases hn : p (.deviceCreate 1) with
          | some e => exact secondSequence_fails rfl
          | none => exact secondSequence_fails rfl

/-- No outcome of the kernel calls lets probe succeed, and from `devm_kzalloc` on
`g_unicam_dev` points to the device. -/
theorem unicamProbe_fails (p : Pattern) (w : World) :
    (unicamProbe p w).1 ≠ 0 ∧ (p .kzalloc = none → (unicamProbe p w).2.gUnicamDev = true) := by
  rw [unicamProbe]
  cases probeFront_cases errChrdevRegion p (firstSequence p) w with
  | inl h => exact ⟨h.error, h.points⟩
  | inr h =>
    rw [h.1, probeBuffer]
    cases p .dmaAlloc with
    | some e => exact ⟨enomem.code_ne_zero, fun _ => rfl⟩
    | none =>
      cases p .getAdapter with
      | some e => exact ⟨enodev.code_ne_zero, fun _ => rfl⟩
      | none =>
        cases p .newClient with
        | some e => exact ⟨e.code_ne_zero, fun _ => rfl⟩
        | none =>
          obtain ⟨herror, hpoints⟩ := firstSequence_fails p
            (acquire .i2cClient (acquire .dmaBuffer w.clocked))
          exact ⟨herror, fun _ => hpoints⟩

/-- Probe is clean when it does not even get its device structure, and otherwise not. -/
theorem unicamProbe_clean_iff (p : Pattern) (nextDevt : ℕ) (classTaken : Bool) :
    Clean p (.start nextDevt classTaken) ↔ p .kzalloc ≠ none := by
  obtain ⟨herror, hpoints⟩ := unicamProbe_fails p (.start nextDevt classTaken)
  constructor
  · intro h hk
    have hclear := (h.failed herror).2
    rw [hpoints hk] at hclear
    cases hclear
  · intro hk
    have hprobe : (unicamProbe p (.start nextDevt classTaken)).2 = .start nextDevt classTaken := by
      rw [unicamProbe, probeFront]
      cases he : p .kzalloc with
      | some e => rfl
      | none => exact absurd he hk
    refine ⟨fun _ => ?_, fun h => absurd h herror, fun h => absurd (h .kzalloc) hk⟩
    rw [hprobe]
    exact ⟨rfl, rfl⟩

/-- Nothing fails outside the driver, the second `class_create` finds the name taken. -/
theorem second_class_refused : ¬ ∀ (p : Pattern) (nextDevt : ℕ) (classTaken : Bool),
    Clean p (.start nextDevt classTaken) := by
  intro hall
  have hzero := (hall (fun _ => none) 1 false).succeeds (fun _ => rfl) rfl
  have hcode : (unicamProbe (fun _ => none) (.start 1 false)).1 = -17 := by decide
  rw [hcode] at hzero
  cases hzero

/-- In the second sequence the class of the first one is lost. -/
theorem secondSequence_leaks (hw : w.classTaken = true)
    (hclass : w.events.count (.acquire .deviceClass) = 1)
    (hnever : w.events.count (.release .deviceClass) = 0) :
    ¬ Balanced (secondSequence p w).2.events := by
  intro hb
  have hcount := hb.count .deviceClass
  revert hcount
  rw [secondSequence, allocChrdevRegion.eq_def]
  cases p (.allocRegion 2) with
  | some e =>
    simp [errI2c, errDma, errClocks, errChrdevRegion, unregisterChrdevRegion, release, hclass,
      hnever]
  | none =>
    simp only [cdevAdd]
    cases p (.cdevAdd 2) with
    | some e => simp [errChrdevRegion, unregisterChrdevRegion, release, acquire, hclass, hnever]
    | none =>
      simp only [classCreate, acquire, hw]
      cases p (.classCreate 2) <;>
        simp [errCdev, errChrdev, errI2c, errDma, errClocks, errChrdevRegion, cdevDel,
          unregisterChrdevRegion, release, hclass, hnever]

/-- What probe holds when it comes to the character device. -/
def opening (nextDevt : ℕ) (classTaken : Bool) : World :=
  acquire .i2cClient (acquire .dmaBuffer (World.start nextDevt classTaken).clocked)

/-- The first sequence gives its number back twice, or one it never had, or goes on. -/
theorem firstSequence_unbalanced (p : Pattern) (nextDevt : ℕ) (classTaken : Bool) :
    ¬ Balanced (firstSequence p (opening nextDevt classTaken)).2.events := by
  rw [firstSequence, allocChrdevRegion.eq_def]
  cases p (.allocRegion 1) with
  | some e =>
    intro hb
    have hcount := hb.count (.region 0)
    simp [errI2c, errDma, errClocks, errChrdevRegion, unregisterChrdevRegion, release, acquire,
      opening, World.clocked, World.start] at hcount
  | none =>
    simp only [cdevAdd]
    cases p (.cdevAdd 1) with
    | some e =>
      intro hb
      have hcount := hb.count (.region nextDevt)
      simp [errChrdev, errI2c, errDma, errClocks, errChrdevRegion, unregisterChrdevRegion, release,
        acquire, opening, World.clocked, World.start] at hcount
    | none =>
      simp only [classCreate, acquire]
      cases p (.classCreate 1) with
      | some e =>
        intro hb
        have hcount := hb.count (.region nextDevt)
        simp [errCdev, errChrdev, errI2c, errDma, errClocks, errChrdevRegion, cdevDel,
          unregisterChrdevRegion, release, acquire, opening, World.clocked, World.start] at hcount
      | none =>
        cases classTaken with
        | true =>
          intro hb
          have hcount := hb.count (.region nextDevt)
          simp [errCdev, errChrdev, errI2c, errDma, errClocks, errChrdevRegion, cdevDel,
            unregisterChrdevRegion, release, acquire, opening, World.clocked, World.start] at hcount
        | false =>
          cases p (.deviceCreate 1) with
          | some e => apply secondSequence_leaks <;> rfl
          | none => apply secondSequence_leaks <;> rfl

/-- The resources alone: an error accounts for them exactly when it comes before the DMA
buffer. -/
theorem unicamProbe_balanced_iff (p : Pattern) (nextDevt : ℕ) (classTaken : Bool) :
    Balanced (unicamProbe p (.start nextDevt classTaken)).2.events ↔
      ∃ call ∈ early, p call ≠ none := by
  rw [unicamProbe]
  cases probeFront_cases errChrdevRegion p (firstSequence p) (.start nextDevt classTaken) with
  | inl h =>
    refine ⟨fun _ => h.call, fun _ => ?_⟩
    cases h.events with
    | inl hevents =>
      rw [hevents]
      rfl
    | inr hevents =>
      rw [hevents]
      rfl
  | inr h =>
    have hnone : ¬ ∃ call ∈ early, p call ≠ none := by
      intro hcall
      obtain ⟨call, hmem, hfail⟩ := hcall
      exact hfail (h.2 call hmem)
    refine iff_of_false ?_ hnone
    rw [h.1, probeBuffer]
    -- before the first `alloc_chrdev_region`, the last label gives back number 0
    have hzero : ∀ es : List (Event Resource), es.count (.release (.region 0)) = 1 →
        es.count (.acquire (.region 0)) = 0 → ¬ Balanced es := by
      intro es hreleased hacquired hb
      rw [hb.count, hreleased] at hacquired
      cases hacquired
    cases p .dmaAlloc with
    | some e => apply hzero <;> rfl
    | none =>
      cases p .getAdapter with
      | some e => apply hzero <;> rfl
      | none =>
        cases p .newClient with
        | some e => apply hzero <;> rfl
        | none => exact firstSequence_unbalanced p nextDevt classTaken

end CameraDrivers.DoubleRegistration
