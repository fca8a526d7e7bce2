import CameraDrivers.CameraCallbacks
import CameraDrivers.SharedLines
import CameraDrivers.TransitionRuns

/-!
# The interrupt lines of rpi_camera

`camera_irq_setup` and `camera_irq_cleanup` of camera_irq.c for any number of cameras, on lines
that they share and under any lawful interrupt core. The handler does not ask whose interrupt
it is: whatever raises the line is a frame for every camera registered on it.
-/
namespace CameraDrivers.InterruptLines
open CameraState CameraCallbacks SharedLines TransitionRuns

def einval : ℤ := 22

/-- The return value, and whether the handler was registered; `ret` is what `request_irq`
returns. -/
def cameraIrqSetup (irq ret : ℤ) : ℤ × Bool :=
  if irq = 0 then (-einval, false)
  else if ret < 0 then (ret, false)
  else (0, true)

/-- Whether `free_irq` is called. -/
def cameraIrqCleanup (irq : ℤ) : Bool := irq ≠ 0

/-- `other` is whatever else the driver does to a camera. -/
inductive Action (ι : Type*) (n : ℕ)
  | setup (i : ι) (ret : ℤ)
  | cleanup (i : ι)
  | interrupt (line : ℤ) (elapsed : ℕ)
  | other (i : ι) (cam : CameraDev n)

/-- The state of the interrupt core and the cameras, with the number of warnings for each. -/
structure Host (κ ι : Type*) (n : ℕ) where
  irqs : κ
  cams : ι → CameraDev n
  clock : ℕ
  warned : ι → ℕ

variable {κ ι : Type*} [DecidableEq ι] {n : ℕ}

omit [DecidableEq ι] in
def Host.initial (irqs : κ) (cams : ι → CameraDev n) : Host κ ι n := ⟨irqs, cams, 0, fun _ => 0⟩

/-- `irq` has the `irq` of each camera. The clock stands still while the handlers run. -/
def next (core : IrqCore κ ℤ ι) (irq : ι → ℤ) (s : Host κ ι n) : Action ι n → Host κ ι n
  | .setup i ret =>
    if (cameraIrqSetup (irq i) ret).2 then { s with irqs := core.request s.irqs (irq i) i }
    else s
  | .cleanup i =>
    if cameraIrqCleanup (irq i) then
      let freed := core.free s.irqs (irq i) i
      { s with
        irqs := freed.2
        warned := if freed.1 then s.warned else Function.update s.warned i (s.warned i + 1) }
    else s
  | .interrupt line elapsed =>
    { s with
      cams := applyAll (cameraIrqHandler (s.clock + elapsed)) (core.calls s.irqs line) s.cams
      clock := s.clock + elapsed }
  | .other i cam => { s with cams := Function.update s.cams i cam }

def step (core : IrqCore κ ℤ ι) (irq : ι → ℤ) (s : Host κ ι n) (a : Action ι n)
    (s' : Host κ ι n) : Prop :=
  next core irq s a = s'

/-- The registrations of a camera after one more of its own calls. -/
def register (irq : ι → ℤ) (i : ι) (count : ℕ) : Action ι n → ℕ
  | .setup j ret => if j = i ∧ (cameraIrqSetup (irq i) ret).2 then count + 1 else count
  | .cleanup j => if j = i then count - 1 else count
  | _ => count

def registrations (irq : ι → ℤ) (i : ι) (as : List (Action ι n)) : ℕ := as.foldl (register irq i) 0

/-- The core calls a camera on its own line only, once for each of its registrations. -/
structure Registered (core : IrqCore κ ℤ ι) (irq : ι → ℤ) (s : Host κ ι n) (count : ι → ℕ) :
    Prop where
  own : ∀ i, (core.calls s.irqs (irq i)).count i = count i
  other : ∀ i line, line ≠ irq i → (core.calls s.irqs line).count i = 0
  assigned : ∀ i, irq i = 0 → count i = 0

variable {core : IrqCore κ ℤ ι} {irq : ι → ℤ} {s s' : Host κ ι n} {i j : ι} {count : ι → ℕ}

theorem cameraIrqSetup_registers_iff (irq ret : ℤ) :
    (cameraIrqSetup irq ret).2 = true ↔ irq ≠ 0 ∧ 0 ≤ ret := by
  by_cases h0 : irq = 0
  · simp [cameraIrqSetup, h0]
  · by_cases hret : ret < 0
    · simp [cameraIrqSetup, h0, hret]
    · simp [cameraIrqSetup, h0, hret, not_lt.mp hret]

theorem registered_initial {irqs : κ} (hnone : ∀ line, core.calls irqs line = []) (irq : ι → ℤ)
    (cams : ι → CameraDev n) : Registered core irq (Host.initial irqs cams) (fun _ => 0) := by
  constructor <;> simp [Host.initial, hnone]

theorem registered_setup (hcore : core.Lawful) (h : Registered core irq s count) (i : ι) (ret : ℤ) :
    Registered core irq (next core irq s (.setup i ret))
      (fun j => register (n := n) irq j (count j) (.setup i ret)) := by
  by_cases hset : (cameraIrqSetup (irq i) ret).2 = true
  · have hirq := ((cameraIrqSetup_registers_iff _ _).mp hset).1
    rw [next, if_pos hset]
    refine ⟨fun j => ?_, fun j line hline => ?_, fun j hj => ?_⟩
    · rw [hcore.request_count, h.own, register]
      by_cases hij : i = j
      · subst hij
        simp [hset]
      · simp [hij]
    · have hcount := hcore.request_count s.irqs (irq i) i line j
      rw [h.other j line hline, if_neg] at hcount
      · exact hcount
      · rintro ⟨rfl, rfl⟩
        exact hline rfl
    · have hij : i ≠ j := fun he => hirq (he ▸ hj)
      simp [register, hij, h.assigned j hj]
  · have hsame : (fun j => register (n := n) irq j (count j) (.setup i ret)) = count := by
      funext j
      rw [register, if_neg]
      rintro ⟨rfl, hset'⟩
      exact hset hset'
    rw [next, if_neg hset, hsame]
    exact h

theorem registered_cleanup (hcore : core.Lawful) (h : Registered core irq s count) (i : ι) :
    Registered core irq (next core irq s (.cleanup i))
      (fun j => register (n := n) irq j (count j) (.cleanup i)) := by
  by_cases hirq : irq i = 0
  · have hsame : (fun j => register (n := n) irq j (count j) (.cleanup i)) = count := by
      funext j
      by_cases hij : i = j
      · subst hij
        simp [register, h.assigned i hirq]
      · simp [register, hij]
    rw [next, if_neg (by simp [cameraIrqCleanup, hirq]), hsame]
    exact h
  · rw [next, if_pos (by simp [cameraIrqCleanup, hirq])]
    refine ⟨fun j => ?_, fun j line hline => ?_, fun j hj => ?_⟩
    · dsimp only
      rw [hcore.free_count, h.own, register]
      by_cases hij : i = j
      · subst hij
        simp
      · simp [hij]
    · have hcount := hcore.free_count s.irqs (irq i) i line j
      rw [h.other j line hline, Nat.zero_sub] at hcount
      exact hcount
    · have hij : i ≠ j := fun he => hirq (he ▸ hj)
      simp [register, hij, h.assigned j hj]

theorem registered_next (hcore : core.Lawful) (h : Registered core irq s count) (a : Action ι n) :
    Registered core irq (next core irq s a) (fun j => register irq j (count j) a) := by
  cases a with
  | setup i ret => exact registered_setup hcore h i ret
  | cleanup i => exact registered_cleanup hcore h i
  | interrupt line elapsed => exact ⟨h.own, h.other, h.assigned⟩
  | other i cam => exact ⟨h.own, h.other, h.assigned⟩

theorem registered_run (hcore : core.Lawful) {irqs : κ} (hnone : ∀ line, core.calls irqs line = [])
    {cams : ι → CameraDev n} {as : List (Action ι n)}
    (run : Run (step core irq) (Host.initial irqs cams) as s) :
    Registered core irq s (fun j => registrations irq j as) := by
  induction run with
  | refl => exact registered_initial hnone irq cams
  | @snoc s t as a run last ih =>
    subst last
    simpa [registrations] using registered_next hcore ih a

/-- An interrupt of a line runs the handler on a camera of that line once for each registration
that the camera's own calls have left, whoever raised it and whatever the others did. -/
theorem interrupt_runs (hcore : core.Lawful) {irqs : κ} (hnone : ∀ line, core.calls irqs line = [])
    {cams : ι → CameraDev n} {as : List (Action ι n)}
    (run : Run (step core irq) (Host.initial irqs cams) as s) (line : ℤ) (elapsed : ℕ) (i : ι) :
    (next core irq s (.interrupt line elapsed)).cams i =
      (cameraIrqHandler (s.clock + elapsed))^[
        if line = irq i then registrations irq i as else 0] (s.cams i) := by
  have h := registered_run hcore hnone run
  rw [next]
  dsimp only
  rw [applyAll_apply]
  congr 1
  by_cases hline : line = irq i
  · subst hline
    rw [if_pos rfl, h.own i]
  · rw [if_neg hline, h.other i line hline]

/-- Two cameras registered on line 5, and the first one freed. -/
def shared : Host (ℤ → List Bool) Bool 1 :=
  let core := listCore ℤ Bool
  let irq := fun _ => 5
  let both := next core irq (next core irq (.initial (fun _ => []) fun _ => .fresh 1)
    (.setup false 0)) (.setup true 0)
  next core irq both (.cleanup false)

theorem run_shared : Run (step (listCore ℤ Bool) fun _ => 5)
    (Host.initial (fun _ => []) fun _ => CameraDev.fresh 1)
    [.setup false 0, .setup true 0, .cleanup false] shared :=
  .snoc (.snoc (.snoc (.refl _) rfl) rfl) rfl

theorem interrupt_runs_shared :
    (next (listCore ℤ Bool) (fun _ => 5) shared (.interrupt 5 1)).cams false = shared.cams false ∧
      (next (listCore ℤ Bool) (fun _ => 5) shared (.interrupt 5 1)).cams true =
        cameraIrqHandler 1 (shared.cams true) := by
  constructor
  · rw [interrupt_runs listCore_lawful (fun _ => rfl) run_shared]
    rfl
  · rw [interrupt_runs listCore_lawful (fun _ => rfl) run_shared]
    rfl

/-- A cleanup warns exactly when the camera has an interrupt number and its own calls have left no
registration: after a setup that failed, or after another cleanup. -/
theorem cleanup_warns_iff (hcore : core.Lawful) {irqs : κ}
    (hnone : ∀ line, core.calls irqs line = []) {cams : ι → CameraDev n} {as : List (Action ι n)}
    (run : Run (step core irq) (Host.initial irqs cams) as s) (i : ι) :
    (next core irq s (.cleanup i)).warned i = s.warned i + 1 ↔
      irq i ≠ 0 ∧ registrations irq i as = 0 := by
  have hcount := (registered_run hcore hnone run).own i
  have hfound := hcore.free_found s.irqs (irq i) i
  rw [← List.count_pos_iff, hcount] at hfound
  by_cases hirq : irq i = 0
  · simp [next, cameraIrqCleanup, hirq]
  · by_cases hpos : 0 < registrations irq i as
    · have hne : registrations irq i as ≠ 0 := by omega
      simp [next, cameraIrqCleanup, hirq, hfound.mpr hpos, hne]
    · have hnot : (core.free s.irqs (irq i) i).1 = false := by
        rw [← Bool.not_eq_true]
        exact fun hf => hpos (hfound.mp hf)
      have hzero : registrations irq i as = 0 := by omega
      simp [next, cameraIrqCleanup, hirq, hnot, hzero]

/-- The second cleanup of a camera warns. -/
theorem cleanup_warns_shared :
    (next (listCore ℤ Bool) (fun _ => 5) shared (.cleanup false)).warned false = 1 :=
  (cleanup_warns_iff listCore_lawful (fun _ => rfl) run_shared false).mpr ⟨by decide, by decide⟩

end CameraDrivers.InterruptLines
