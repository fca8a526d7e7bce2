import CameraDrivers.IoctlSteps
import CameraDrivers.TransitionRuns

/-!
# The lifetime of the DMA buffer and of the unicam device

`unicam_probe` and `unicam_remove` of src/src/manual-unicam-driver.c, call by call, between
any steps of the file operations on any number of handles. `cdev_del` closes no handle and
removes no mapping, and the device structure is released after a failed probe or a remove.
-/
namespace CameraDrivers.UnicamLifetime
open TransitionRuns UnicamState IoctlSteps

/-- The calls of `unicam_probe` after `devm_kzalloc`; `resources` are those before the buffer. -/
inductive ProbeStep
  | resources
  | dmaAlloc
  | i2c
  | region
  | cdevAdd
  | classCreate
  | deviceCreate

/-- The calls below the error labels, which are those of `unicam_remove` in the same order;
the last one is the release of what devm allocated. -/
inductive TeardownStep
  | deviceDestroy
  | classDestroy
  | cdevDel
  | unregister
  | i2cUnregister
  | dmaFree
  | clocks
  | clearGlobal
  | release

inductive Phase
  | unbound
  | probing (s : ProbeStep)
  | bound
  | stopping (replies : ℕ → I2cReply) (l : Section)
  | teardown (removing : Bool) (s : TeardownStep)

/-- An open file with its `private_data`, and the statement its ioctl is at. -/
inductive Handle
  | closed
  | opened (device : ℕ)
  | inside (device : ℕ) (replies : ℕ → I2cReply) (l : Section)
  | resetCount (device : ℕ)

def Handle.device : Handle → Option ℕ
  | .closed => none
  | .opened g | .inside g _ _ | .resetCount g => some g

/-- Devices are numbered in the order of their `devm_kzalloc`, and `device` is the last one.
`strayed` records that a file operation ran on a released device. -/
structure Driver (ι : Type*) where
  phase : Phase
  dev : UnicamDevice
  device : ℕ
  live : Bool
  allocated : Bool
  cdevAdded : Bool
  gUnicamDev : Option ℕ
  handles : ι → Handle
  mappings : List ℕ
  strayed : Bool

inductive FileOp
  | release
  | access
  | mmap (size : BitVec 64) (ret : ℤ)
  | ioctl (call : Call)

inductive Action (ι : Type*)
  | bind (ok : Bool)
  | probe (ok : Bool) (busAddr : BitVec 64)
  | unbind (replies : ℕ → I2cReply)
  | teardown
  | fopen (i : ι)
  | file (i : ι) (op : FileOp)
  | proceed (i : ι)
  | munmap (k : ℕ)

def dmaBufferSize : BitVec 64 := 16 * 1024 * 1024

variable {ι : Type*} (m : RegisterMap) (sensor : Imx219)

/-- Before the first probe. -/
def Driver.unbound (regs : BitVec 32 → BitVec 32) : Driver ι where
  phase := .unbound
  dev := ⟨regs, 0, 0, 0, 0, false, []⟩
  device := 0
  live := false
  allocated := false
  cdevAdded := false
  gUnicamDev := none
  handles _ := .closed
  mappings := []
  strayed := false

def bind (ok : Bool) (x : Driver ι) : Option (Driver ι) :=
  match x.phase with
  | .unbound =>
    if ok then some { x with
      phase := .probing .resources
      dev := ⟨x.dev.regs, 0, 0, 0, 0, false, x.dev.transfers⟩
      device := x.device + 1
      live := true
      gUnicamDev := some (x.device + 1) }
    else some x
  | _ => none

/-- Where the error path of `unicam_probe` begins; before the clocks are enabled the error is
returned at once. -/
def failed : ProbeStep → TeardownStep
  | .resources => .release
  | .dmaAlloc => .clocks
  | .i2c => .dmaFree
  | .region => .i2cUnregister
  | .cdevAdd => .unregister
  | .classCreate => .cdevDel
  | .deviceCreate => .classDestroy

def probeStep (ok : Bool) (busAddr : BitVec 64) (x : Driver ι) : Option (Driver ι) :=
  match x.phase with
  | .probing s =>
    if ok then
      match s with
      | .resources => some { x with
          phase := .probing .dmaAlloc, dev := { x.dev with bufSize := dmaBufferSize } }
      | .dmaAlloc => some { x with
          phase := .probing .i2c, dev := { x.dev with busAddr := busAddr }, allocated := true }
      | .i2c => some { x with phase := .probing .region }
      | .region => some { x with phase := .probing .cdevAdd }
      | .cdevAdd => some { x with phase := .probing .classCreate, cdevAdded := true }
      | .classCreate => some { x with phase := .probing .deviceCreate }
      | .deviceCreate => some { x with phase := .bound }
    else some { x with phase := .teardown false (failed s) }
  | _ => none

/-- `unicam_remove` stops the core if the flag is up. -/
def unbind (replies : ℕ → I2cReply) (x : Driver ι) : Option (Driver ι) :=
  match x.phase with
  | .bound =>
    if x.dev.streaming then some { x with phase := .stopping replies .stopSensor }
    else some { x with phase := .teardown true .deviceDestroy }
  | _ => none

def TeardownStep.next (removing : Bool) : TeardownStep → Phase
  | .deviceDestroy => .teardown removing .classDestroy
  | .classDestroy => .teardown removing .cdevDel
  | .cdevDel => .teardown removing .unregister
  | .unregister => .teardown removing .i2cUnregister
  | .i2cUnregister => .teardown removing .dmaFree
  | .dmaFree => .teardown removing .clocks
  | .clocks => .teardown removing (if removing then .clearGlobal else .release)
  | .clearGlobal => .teardown removing .release
  | .release => .unbound

/-- STOP would clear the flag at the end, remove leaves it. -/
def stoppingStep (replies : ℕ → I2cReply) (l : Section) (x : Driver ι) : Driver ι :=
  match sectionStep m sensor replies l x.dev with
  | (.inl .clearStreaming, dev) => { x with dev := dev, phase := .teardown true .deviceDestroy }
  | (.inl l', dev) => { x with dev := dev, phase := .stopping replies l' }
  | (.inr _, dev) => { x with dev := dev, phase := .teardown true .deviceDestroy }

def teardownStep (x : Driver ι) : Option (Driver ι) :=
  match x.phase with
  | .stopping replies l => some (stoppingStep m sensor replies l x)
  | .teardown removing .cdevDel => some { x with
      phase := TeardownStep.cdevDel.next removing, cdevAdded := false }
  | .teardown removing .dmaFree => some { x with
      phase := TeardownStep.dmaFree.next removing, allocated := false }
  | .teardown removing .clearGlobal => some { x with
      phase := TeardownStep.clearGlobal.next removing, gUnicamDev := none }
  | .teardown removing .release => some { x with
      phase := TeardownStep.release.next removing, live := false }
  | .teardown removing s => some { x with phase := s.next removing }
  | _ => none

/-- A file operation on device `g`; on a released one only the fact is recorded. -/
def onDevice (g : ℕ) (x y : Driver ι) : Driver ι :=
  if x.live = true ∧ g = x.device then y else { x with strayed := true }

/-- After the assignment of the flag, START has its `atomic_set` left. -/
def returned (g : ℕ) : Section → Handle
  | .setStreaming => .resetCount g
  | _ => .opened g

section Handles
variable [DecidableEq ι]

def Driver.setHandle (x : Driver ι) (i : ι) (handle : Handle) : Driver ι :=
  { x with handles := Function.update x.handles i handle }

def unicamOpen (i : ι) (x : Driver ι) : Option (Driver ι) :=
  match x.handles i, x.cdevAdded with
  | .closed, true =>
    match x.gUnicamDev with
    | none => some x
    | some g => some (onDevice g x (x.setHandle i (.opened g)))
  | _, _ => none

/-- `access` stands for `unicam_read`, `unicam_poll` and GET_BUFFER. -/
def fileOp (i : ι) (g : ℕ) (x : Driver ι) : FileOp → Driver ι
  | .release => x.setHandle i .closed
  | .access => x
  | .mmap size ret =>
    if size > x.dev.bufSize ∨ ret ≠ 0 then x else { x with mappings := g :: x.mappings }
  | .ioctl call =>
    match answered call x.dev with
    | some _ => x
    | none => x.setHandle i (.inside g call.replies (entry m call x.dev))

def proceed (i : ι) (x : Driver ι) : Option (Driver ι) :=
  match x.handles i with
  | .inside g replies l =>
    match sectionStep m sensor replies l x.dev with
    | (.inl l', dev) =>
      some (onDevice g x ({ x with dev := dev }.setHandle i (.inside g replies l')))
    | (.inr _, dev) => some (onDevice g x ({ x with dev := dev }.setHandle i (returned g l)))
  | .resetCount g =>
    some (onDevice g x ({ x with dev := { x.dev with frameCount := 0 } }.setHandle i (.opened g)))
  | _ => none

def step (x : Driver ι) : Action ι → Option (Driver ι)
  | .bind ok => bind ok x
  | .probe ok busAddr => probeStep ok busAddr x
  | .unbind replies => unbind replies x
  | .teardown => teardownStep m sensor x
  | .fopen i => unicamOpen i x
  | .file i op =>
    match x.handles i with
    | .opened g => some (onDevice g x (fileOp m i g x op))
    | _ => none
  | .proceed i => proceed m sensor i x
  | .munmap k => some { x with mappings := x.mappings.eraseIdx k }

end Handles

/-- A core that runs and every user mapping have the coherent buffer, and no file operation
ran on a released device. -/
structure Backed (x : Driver ι) : Prop where
  core : x.dev.regs m.ctrl = m.cpe → x.allocated = true
  mapping : ∀ g ∈ x.mappings, g = x.device ∧ x.allocated = true
  operations : x.strayed = false

structure Unused (x : Driver ι) : Prop where
  handles : ∀ i, (x.handles i).device = none
  mappings : x.mappings = []
  core : x.dev.regs m.ctrl ≠ m.cpe

def Phase.frees : Phase → Bool
  | .teardown _ .dmaFree => true
  | _ => false

/-- When probe or remove frees the buffer, no handle is open, nothing is mapped and the core
is disabled. -/
def tidy (x : Driver ι) : Action ι → Prop
  | .teardown => x.phase.frees = true → Unused m x
  | _ => True

def Phase.hasDevice : Phase → Bool
  | .unbound => false
  | _ => true

/-- From `platform_set_drvdata` to the end of remove. -/
def Phase.isPublished : Phase → Bool
  | .unbound | .teardown _ .release => false
  | _ => true

def Phase.hasBuffer : Phase → Bool
  | .unbound | .probing .resources | .probing .dmaAlloc => false
  | .teardown _ .clocks | .teardown _ .clearGlobal | .teardown _ .release => false
  | _ => true

def Phase.hasCdev : Phase → Bool
  | .probing .classCreate | .probing .deviceCreate | .bound | .stopping _ _ => true
  | .teardown _ .deviceDestroy | .teardown _ .classDestroy | .teardown _ .cdevDel => true
  | _ => false

theorem Phase.of_hasCdev (p : Phase) (h : p.hasCdev = true) :
    p.hasDevice = true ∧ p.isPublished = true ∧ p.hasBuffer = true := by
  cases p with
  | unbound => cases h
  | probing s | teardown removing s => cases s <;> first | exact ⟨rfl, rfl, rfl⟩ | cases h
  | bound | stopping replies l => exact ⟨rfl, rfl, rfl⟩

/-- Between the release of the buffer and the next one, nobody is left to use it. -/
structure Inv (x : Driver ι) : Prop where
  live : x.live = x.phase.hasDevice
  allocated : x.allocated = x.phase.hasBuffer
  cdev : x.cdevAdded = x.phase.hasCdev
  published : x.phase.isPublished = true → x.gUnicamDev = some x.device
  unused : x.phase.hasBuffer = false → Unused m x
  owned : ∀ i g, (x.handles i).device = some g → g = x.device
  mapped : ∀ g ∈ x.mappings, g = x.device
  clean : x.strayed = false

variable {m sensor} {x y : Driver ι} {a : Action ι}

theorem Inv.backed (h : Inv m x) : Backed m x := by
  have hbuffer : ¬ Unused m x → x.allocated = true := by
    intro hu
    rw [h.allocated]
    cases hb : x.phase.hasBuffer with
    | true => rfl
    | false => exact absurd (h.unused hb) hu
  constructor
  · intro hon
    exact hbuffer (fun hu => hu.core hon)
  · intro g hg
    refine ⟨h.mapped g hg, hbuffer (fun hu => ?_)⟩
    rw [hu.mappings] at hg
    cases hg
  · exact h.clean

theorem inv_unbound {regs : BitVec 32 → BitVec 32} (off : regs m.ctrl ≠ m.cpe) :
    Inv m (.unbound regs : Driver ι) where
  live := rfl
  allocated := rfl
  cdev := rfl
  published hp := by cases hp
  unused _ := ⟨fun _ => rfl, rfl, off⟩
  owned i g hg := by cases hg
  mapped g hg := by cases hg
  clean := rfl

/-- While the buffer is there, the device, the handles and the mappings may change. -/
theorem Inv.used (h : Inv m x) (hb : x.phase.hasBuffer = true) {dev : UnicamDevice}
    {handles : ι → Handle} {mappings : List ℕ}
    (owned : ∀ i g, (handles i).device = some g → g = x.device)
    (mapped : ∀ g ∈ mappings, g = x.device) :
    Inv m { x with dev := dev, handles := handles, mappings := mappings } where
  live := h.live
  allocated := h.allocated
  cdev := h.cdev
  published := h.published
  unused hn := by simp [hb] at hn
  owned := owned
  mapped := mapped
  clean := h.clean

/-- A call of probe or remove that acquires and releases nothing of the kinds followed here. -/
theorem Inv.moved (h : Inv m x) {p : Phase} (hd : p.hasDevice = x.phase.hasDevice)
    (hp : p.isPublished = true → x.phase.isPublished = true)
    (hb : p.hasBuffer = x.phase.hasBuffer) (hc : p.hasCdev = x.phase.hasCdev) :
    Inv m { x with phase := p } where
  live := h.live.trans hd.symm
  allocated := h.allocated.trans hb.symm
  cdev := h.cdev.trans hc.symm
  published hp' := h.published (hp hp')
  unused hn :=
    have hu := h.unused (hb.symm.trans hn)
    ⟨hu.handles, hu.mappings, hu.core⟩
  owned := h.owned
  mapped := h.mapped
  clean := h.clean

theorem Inv.at_phase (h : Inv m x) {p : Phase} (hp : x.phase = p) :
    x.live = p.hasDevice ∧ x.allocated = p.hasBuffer ∧ x.cdevAdded = p.hasCdev ∧
      (p.isPublished = true → x.gUnicamDev = some x.device) := by
  subst hp
  exact ⟨h.live, h.allocated, h.cdev, h.published⟩

theorem inv_bind {ok : Bool} (h : Inv m x) (hs : bind ok x = some y) : Inv m y := by
  rw [bind] at hs
  split at hs
  · next hp =>
    have hu : Unused m x := h.unused (by rw [hp]; rfl)
    obtain ⟨-, ha, hc, -⟩ := h.at_phase hp
    split at hs
    · cases hs
      refine ⟨rfl, ha, hc, fun _ => rfl, fun _ => ⟨hu.handles, hu.mappings, hu.core⟩, ?_, ?_,
        h.clean⟩
      · intro i g hg
        rw [hu.handles i] at hg
        cases hg
      · intro g hg
        rw [hu.mappings] at hg
        cases hg
    · cases hs
      exact h
  · cases hs

theorem inv_probeStep {ok : Bool} {busAddr : BitVec 64} (h : Inv m x)
    (hs : probeStep ok busAddr x = some y) : Inv m y := by
  rw [probeStep] at hs
  split at hs
  · next s hp =>
    split at hs
    · have hdev : ∀ dev : UnicamDevice, dev.regs = x.dev.regs → Inv m { x with dev := dev } := by
        intro dev hregs
        exact ⟨h.live, h.allocated, h.cdev, h.published, fun hn =>
          ⟨(h.unused hn).handles, (h.unused hn).mappings, hregs ▸ (h.unused hn).core⟩,
          h.owned, h.mapped, h.clean⟩
      cases s with
      | resources =>
        cases hs
        apply (hdev { x.dev with bufSize := dmaBufferSize } rfl).moved <;> simp only [hp] <;>
          first | rfl | exact fun _ => rfl
      | dmaAlloc =>
        cases hs
        obtain ⟨hl, -, hc, hg⟩ := h.at_phase hp
        refine ⟨hl, rfl, hc, fun _ => hg rfl, fun hn => ?_, h.owned, h.mapped, h.clean⟩
        cases hn
      | cdevAdd =>
        cases hs
        obtain ⟨hl, ha, -, hg⟩ := h.at_phase hp
        refine ⟨hl, ha, rfl, fun _ => hg rfl, fun hn => ?_, h.owned, h.mapped, h.clean⟩
        cases hn
      | i2c | region | classCreate | deviceCreate =>
        cases hs
        apply h.moved <;> simp only [hp] <;> first | rfl | exact fun _ => rfl
    · cases hs
      apply h.moved <;> rw [hp] <;> cases s <;> first | rfl | exact fun _ => rfl
  · cases hs

theorem inv_unbind {replies : ℕ → I2cReply} (h : Inv m x) (hs : unbind replies x = some y) :
    Inv m y := by
  rw [unbind] at hs
  split at hs
  · next hp =>
    split at hs <;> cases hs <;> apply h.moved <;> rw [hp] <;> first | rfl | exact fun _ => rfl
  · cases hs

theorem inv_stoppingStep {replies : ℕ → I2cReply} {l : Section} (h : Inv m x)
    (hp : x.phase = .stopping replies l) : Inv m (stoppingStep m sensor replies l x) := by
  have hdev : ∀ dev, Inv m { x with dev := dev } := fun dev =>
    h.used (by rw [hp]; rfl) h.owned h.mapped
  rw [stoppingStep]
  split <;> apply (hdev _).moved <;> simp only [hp] <;> first | rfl | exact fun _ => rfl

theorem inv_teardownStep (h : Inv m x) (hok : tidy m x (.teardown : Action ι))
    (hs : teardownStep m sensor x = some y) : Inv m y := by
  rw [teardownStep] at hs
  split at hs
  · next replies l hp =>
    cases hs
    exact inv_stoppingStep h hp
  · next removing hp =>
    cases hs
    obtain ⟨hl, ha, -, hg⟩ := h.at_phase hp
    refine ⟨hl, ha, rfl, fun _ => hg rfl, fun hn => ?_, h.owned, h.mapped, h.clean⟩
    cases hn
  · next removing hp =>
    cases hs
    obtain ⟨hl, -, hc, hg⟩ := h.at_phase hp
    have hu : Unused m x := hok (by rw [hp]; rfl)
    exact ⟨hl, rfl, hc, fun _ => hg rfl, fun _ => ⟨hu.handles, hu.mappings, hu.core⟩, h.owned,
      h.mapped, h.clean⟩
  · next removing hp =>
    cases hs
    obtain ⟨hl, ha, hc, -⟩ := h.at_phase hp
    have hu : Unused m x := h.unused (by rw [hp]; rfl)
    refine ⟨hl, ha, hc, fun hn => ?_, fun _ => ⟨hu.handles, hu.mappings, hu.core⟩, h.owned,
      h.mapped, h.clean⟩
    cases hn
  · next removing hp =>
    cases hs
    obtain ⟨-, ha, hc, -⟩ := h.at_phase hp
    have hu : Unused m x := h.unused (by rw [hp]; rfl)
    refine ⟨rfl, ha, hc, fun hn => ?_, fun _ => ⟨hu.handles, hu.mappings, hu.core⟩, h.owned,
      h.mapped, h.clean⟩
    cases hn
  · next removing s hcdev hfree hglobal hrelease hp =>
    cases hs
    cases s with
    | cdevDel => exact absurd rfl hcdev
    | dmaFree => exact absurd rfl hfree
    | clearGlobal => exact absurd rfl hglobal
    | release => exact absurd rfl hrelease
    | clocks =>
      cases removing <;> apply h.moved <;> rw [hp] <;> first | rfl | exact fun _ => rfl
    | deviceDestroy | classDestroy | unregister | i2cUnregister =>
      apply h.moved <;> rw [hp] <;> first | rfl | exact fun _ => rfl
  · cases hs

/-- An open handle is one of the current device, which has its buffer and is not released. -/
theorem Inv.holds (h : Inv m x) {i : ι} {g : ℕ} (hg : (x.handles i).device = some g) :
    x.phase.hasBuffer = true ∧ x.live = true ∧ g = x.device := by
  have hb : x.phase.hasBuffer = true := by
    cases hb : x.phase.hasBuffer with
    | true => rfl
    | false =>
      rw [(h.unused hb).handles i] at hg
      cases hg
  have hl : x.live = true := by
    rw [h.live]
    cases hp : x.phase with
    | unbound =>
      rw [hp] at hb
      cases hb
    | probing s | bound | stopping replies l | teardown removing s => rfl
  exact ⟨hb, hl, h.owned i g hg⟩

theorem Inv.onDevice (h : Inv m x) {i : ι} {g : ℕ} (hg : (x.handles i).device = some g)
    (hy : x.phase.hasBuffer = true → g = x.device → Inv m y) : Inv m (onDevice g x y) := by
  obtain ⟨hb, hl, hd⟩ := h.holds hg
  rw [UnicamLifetime.onDevice, if_pos ⟨hl, hd⟩]
  exact hy hb hd

variable [DecidableEq ι]

/-- A handle that closes or goes on with its device. -/
theorem Inv.setHandle (h : Inv m x) (hb : x.phase.hasBuffer = true) (dev : UnicamDevice) (i : ι)
    {handle : Handle} (hg : ∀ g, handle.device = some g → g = x.device) :
    Inv m ({ x with dev := dev }.setHandle i handle) := by
  apply h.used hb
  · intro j g hj
    cases hij : decide (j = i) with
    | true =>
      rw [of_decide_eq_true hij, Function.update_self] at hj
      exact hg g hj
    | false =>
      rw [Function.update_of_ne (of_decide_eq_false hij)] at hj
      exact h.owned j g hj
  · exact h.mapped

theorem inv_unicamOpen {i : ι} (h : Inv m x) (hs : unicamOpen i x = some y) : Inv m y := by
  rw [unicamOpen] at hs
  split at hs
  · next hclosed hadded =>
    have hc : x.phase.hasCdev = true := by rw [← h.cdev, hadded]
    obtain ⟨hd, hp, hb⟩ := x.phase.of_hasCdev hc
    rw [h.published hp] at hs
    cases hs
    rw [UnicamLifetime.onDevice, if_pos ⟨h.live.trans hd, rfl⟩]
    exact h.setHandle hb x.dev i (fun g hg => (Option.some.inj hg).symm)
  · cases hs

theorem inv_fileOp {i : ι} {g : ℕ} {op : FileOp} (h : Inv m x)
    (hb : x.phase.hasBuffer = true) (hg : g = x.device) : Inv m (fileOp m i g x op) := by
  cases op with
  | release =>
    exact h.setHandle hb x.dev i (fun g' hg' => by cases hg')
  | access => exact h
  | mmap size ret =>
    rw [fileOp]
    split
    · exact h
    · apply h.used hb h.owned
      intro g' hg'
      cases hg' with
      | head => exact hg
      | tail _ htail => exact h.mapped g' htail
  | ioctl call =>
    rw [fileOp]
    split
    · exact h
    · exact h.setHandle hb x.dev i (fun g' hg' => (Option.some.inj hg').symm.trans hg)

theorem inv_proceed {i : ι} (h : Inv m x) (hs : proceed m sensor i x = some y) : Inv m y := by
  rw [proceed] at hs
  split at hs
  · next g replies l hi =>
    have hdevice : (x.handles i).device = some g := by rw [hi]; rfl
    split at hs
    · cases hs
      apply h.onDevice hdevice
      intro hb hg
      exact h.setHandle hb _ i (fun g' hg' => (Option.some.inj hg').symm.trans hg)
    · cases hs
      apply h.onDevice hdevice
      intro hb hg
      apply h.setHandle hb
      intro g' hg'
      cases l <;> exact (Option.some.inj hg').symm.trans hg
  · next g hi =>
    cases hs
    apply h.onDevice (i := i) (by rw [hi]; rfl)
    intro hb hg
    exact h.setHandle hb _ i (fun g' hg' => (Option.some.inj hg').symm.trans hg)
  · cases hs

theorem inv_step (h : Inv m x) (hok : tidy m x a) (hs : step m sensor x a = some y) :
    Inv m y := by
  cases a with
  | bind ok => exact inv_bind h hs
  | probe ok busAddr => exact inv_probeStep h hs
  | unbind replies => exact inv_unbind h hs
  | teardown => exact inv_teardownStep h hok hs
  | fopen i => exact inv_unicamOpen h hs
  | file i op =>
    simp only [step] at hs
    split at hs
    · next g hi =>
      cases hs
      apply h.onDevice (i := i) (by rw [hi]; rfl)
      intro hb hg
      exact inv_fileOp h hb hg
    · cases hs
  | proceed i => exact inv_proceed h hs
  | munmap k =>
    cases hs
    refine ⟨h.live, h.allocated, h.cdev, h.published, fun hn => ?_, h.owned, fun g hg => ?_,
      h.clean⟩
    · have hu := h.unused hn
      exact ⟨hu.handles, by simp [hu.mappings], hu.core⟩
    · exact h.mapped g (List.mem_of_mem_eraseIdx hg)

/-- On a released device every next statement of an open handle strays. -/
theorem released_strays (m : RegisterMap) (sensor : Imx219) {i : ι}
    (hi : (x.handles i).device ≠ none) (hl : x.live = false) :
    ∃ a z, step m sensor x a = some z ∧ z.strayed = true := by
  have hstray : ∀ g z, (onDevice g x z).strayed = true := by
    intro g z
    simp [onDevice, hl]
  cases hh : x.handles i with
  | closed =>
    rw [hh] at hi
    exact absurd rfl hi
  | opened g =>
    exact ⟨.file i .access, _, by simp only [step, hh]; rfl, hstray g _⟩
  | resetCount g =>
    exact ⟨.proceed i, _, by simp only [step, proceed, hh]; rfl, hstray g _⟩
  | inside g replies l =>
    cases hn : sectionStep m sensor replies l x.dev with
    | mk out dev =>
      cases out with
      | inl l' => exact ⟨.proceed i, _, by simp only [step, proceed, hh, hn]; rfl, hstray g _⟩
      | inr ret => exact ⟨.proceed i, _, by simp only [step, proceed, hh, hn]; rfl, hstray g _⟩

/-- The statements between `dma_free_coherent` and the release of the device. -/
theorem teardown_releases (m : RegisterMap) (sensor : Imx219) {removing : Bool}
    (hp : x.phase = .teardown removing .clocks) :
    ∃ as z, Run (Steps (step m sensor)) x as z ∧ z.handles = x.handles ∧ z.live = false := by
  cases removing with
  | false =>
    let z : Driver ι := { x with phase := .unbound, live := false }
    refine ⟨[.teardown, .teardown], z, run_steps_iff.mpr ?_, rfl, rfl⟩
    simp [follow, step, teardownStep, hp, TeardownStep.next, z]
  | true =>
    let z : Driver ι := { x with phase := .unbound, live := false, gUnicamDev := none }
    refine ⟨[.teardown, .teardown, .teardown], z, run_steps_iff.mpr ?_, rfl, rfl⟩
    simp [follow, step, teardownStep, hp, TeardownStep.next, z]

/-- A buffer freed while somebody uses it: the next state is bad, or a handle is left that
runs on the released device. -/
theorem untidy_unbacked (hs : step m sensor x .teardown = some y)
    (hbad : ¬ tidy m x (.teardown : Action ι)) :
    ∃ as z, Run (Steps (step m sensor)) y as z ∧ ¬ Backed m z := by
  simp only [tidy, Classical.not_imp] at hbad
  obtain ⟨hfrees, hused⟩ := hbad
  obtain ⟨removing, hp⟩ : ∃ removing, x.phase = .teardown removing .dmaFree := by
    cases hp : x.phase with
    | teardown removing s =>
      rw [hp] at hfrees
      cases s <;> first | exact ⟨removing, rfl⟩ | cases hfrees
    | unbound | probing s | bound | stopping replies l =>
      rw [hp] at hfrees
      cases hfrees
  simp only [step, teardownStep, hp, Option.some.injEq] at hs
  have hfreed : y.allocated = false := by rw [← hs]
  cases hm : x.mappings with
  | cons g mappings =>
    refine ⟨[], y, .refl y, fun hb => ?_⟩
    have hmapped := (hb.mapping g (by rw [← hs, hm]; exact List.mem_cons_self)).2
    rw [hfreed] at hmapped
    cases hmapped
  | nil =>
    cases hon : decide (x.dev.regs m.ctrl = m.cpe) with
    | true =>
      refine ⟨[], y, .refl y, fun hb => ?_⟩
      have hcore := hb.core (by rw [← hs]; exact of_decide_eq_true hon)
      rw [hfreed] at hcore
      cases hcore
    | false =>
      have hopen : ∃ i, (x.handles i).device ≠ none := by
        by_contra hno
        exact hused ⟨fun i => by_contra (fun hi => hno ⟨i, hi⟩), hm, of_decide_eq_false hon⟩
      obtain ⟨i, hi⟩ := hopen
      have hclocks : y.phase = .teardown removing .clocks := by
        rw [← hs]
        rfl
      obtain ⟨as, z, run, hhandles, hlive⟩ := teardown_releases m sensor hclocks
      have hi' : (z.handles i).device ≠ none := by
        rw [hhandles, ← hs]
        exact hi
      obtain ⟨a, z', hlast, hstrayed⟩ := released_strays m sensor hi' hlive
      refine ⟨as ++ [a], z', .snoc run hlast, fun hb => ?_⟩
      rw [hb.operations] at hstrayed
      cases hstrayed

/-- In a run that frees the buffer only when nobody uses it, whoever uses it has it. A run
that frees it while somebody does can go on to a state in which that is not so. -/
theorem lifetime_backed {regs : BitVec 32 → BitVec 32} (off : regs m.ctrl ≠ m.cpe) :
    (∀ (as : List (Action ι)) x,
      Run (Within (tidy m) (Steps (step m sensor))) (.unbound regs) as x →
      Run (Reaching (Backed m) (Steps (step m sensor))) (.unbound regs) as x) ∧
    ∀ x y : Driver ι, step m sensor x .teardown = some y → ¬ tidy m x (.teardown : Action ι) →
      ∃ as z, Run (Steps (step m sensor)) y as z ∧ ¬ Backed m z := by
  constructor
  · intro as x run
    apply run.reaching (Inv m) (inv_unbound off)
    · exact fun _ _ _ h hok hs => inv_step h hok hs
    · exact fun _ h => h.backed
  · exact fun x y hs hbad => untidy_unbacked hs hbad

instance [Fintype ι] : Decidable (Unused m x) :=
  decidable_of_iff ((∀ i, (x.handles i).device = none) ∧ x.mappings = [] ∧
      x.dev.regs m.ctrl ≠ m.cpe)
    ⟨fun h => ⟨h.1, h.2.1, h.2.2⟩, fun h => ⟨h.handles, h.mappings, h.core⟩⟩

instance [Fintype ι] : Decidable (tidy m x a) :=
  match a with
  | .teardown => inferInstanceAs (Decidable (_ → _))
  | .bind _ | .probe _ _ | .unbind _ | .fopen _ | .file _ _ | .proceed _ | .munmap _ =>
    isTrue trivial

/-- A probe that fails at `class_create`, then a whole session and a remove. -/
def tidyActions : List (Action Unit) :=
  List.flatten [[.bind true], List.replicate 5 (.probe true 0x10000000),
    [.probe false 0], List.replicate 6 .teardown,
    [.bind true], List.replicate 7 (.probe true 0x10000000),
    [.fopen (), .file () (.mmap 0x96000 0), .file () (.ioctl ⟨.start, sampleReplies 2⟩)],
    List.replicate 20 (.proceed ()),
    [.file () .access, .file () (.ioctl ⟨.stop, sampleReplies 1⟩)], List.replicate 6 (.proceed ()),
    [.munmap 0, .file () .release, .unbind (sampleReplies 1)], List.replicate 9 .teardown]

theorem lifetime_backed_session : ∃ x : Driver Unit,
    Run (Reaching (Backed sampleMap) (Steps (step sampleMap sampleSensor)))
      (.unbound (fun _ => 0)) tidyActions x ∧ x.device = 2 ∧ x.gUnicamDev = none := by
  have run : (follow (guarded (tidy sampleMap) (step sampleMap sampleSensor))
      (.unbound (fun _ => 0)) tidyActions).map (fun x => (x.device, x.gUnicamDev)) =
        some (2, none) := by decide +kernel
  obtain ⟨x, hf, hx⟩ := Option.map_eq_some_iff.mp run
  simp only [Prod.mk.injEq] at hx
  exact ⟨x, (lifetime_backed (by decide)).1 _ x (run_within_steps_iff.mpr hf), hx⟩

/-- A handle is opened and mapped before remove: the mapping is still there when the buffer is
freed. -/
theorem mapping_outlives_buffer : ¬ ∀ (m : RegisterMap) (sensor : Imx219)
    (regs : BitVec 32 → BitVec 32) (as : List (Action Unit)) (x : Driver Unit),
    regs m.ctrl ≠ m.cpe → Run (Steps (step m sensor)) (.unbound regs) as x →
      Run (Reaching (Backed m) (Steps (step m sensor))) (.unbound regs) as x := by
  intro hall
  let as : List (Action Unit) :=
    List.flatten [[.bind true], List.replicate 7 (.probe true 0x10000000),
      [.fopen (), .file () (.mmap 0x96000 0), .unbind (sampleReplies 1)],
      List.replicate 5 .teardown]
  have run : (follow (step sampleMap sampleSensor) (.unbound (fun _ => 0))
      (as ++ [.teardown])).map (fun x => (x.mappings, x.allocated)) =
        some ([1], false) := by decide +kernel
  obtain ⟨x, hf, hx⟩ := Option.map_eq_some_iff.mp run
  simp only [Prod.mk.injEq] at hx
  have hrun := hall _ _ _ _ x (by decide) (run_steps_iff.mpr hf)
  obtain ⟨t, -, -, hbacked⟩ := run_snoc_iff.mp hrun
  have hfreed := (hbacked.mapping 1 (by simp [hx.1])).2
  rw [hx.2] at hfreed
  cases hfreed

end CameraDrivers.UnicamLifetime
