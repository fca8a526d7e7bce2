import CameraDrivers.HandlerSteps

/-!
# The clocks behind the registers of manual-unicam

`unicam_probe` and `unicam_remove` of src/src/manual-unicam-driver.c enable and disable the
clocks call by call, while devm frees the interrupt only after they have returned. The line
is shared, so the handler may be called whenever it is registered, and a handle that is open
may go on with its ioctl at any time. A handle that outlives remove finds whatever the device
structure holds then.
-/
namespace CameraDrivers.ClockedAccess
open TransitionRuns UnicamState IoctlSteps HandlerSteps
open ReadCoherence (IsrPc)
open StreamingAgreement (raiseStatus)

/-- The calls of `unicam_probe` that may fail, after `devm_kzalloc`. -/
inductive ProbeCall
  | getResource
  | ioremap
  | getIrq
  | requestIrq
  | clkGetLp
  | clkGetVpu
  | enableLp
  | enableVpu
  | dmaAlloc
  | getAdapter
  | newClient
  | allocRegion
  | cdevAdd
  | classCreate
  | deviceCreate
  deriving DecidableEq

/-- The calls below the error labels and of `unicam_remove`; the last one is the release of
what devm manages. -/
inductive TeardownCall
  | deviceDestroy
  | classDestroy
  | cdevDel
  | unregister
  | i2cUnregister
  | dmaFree
  | disableVpu
  | disableLp
  | clearGlobal
  | release
  deriving DecidableEq

inductive Phase
  | unbound
  | probing (call : ProbeCall)
  | bound
  | stopping (replies : ℕ → I2cReply) (l : Section)
  | teardown (removing : Bool) (call : TeardownCall)

inductive Handle
  | closed
  | opened
  | inside (replies : ℕ → I2cReply) (l : Section)
  | resetCount

/-- `unclocked` records that a register was read or written while a clock was off. -/
structure Driver (ι : Type*) where
  phase : Phase
  dev : UnicamDevice
  lp : Bool
  vpu : Bool
  irq : Bool
  isr : IsrPc
  cdevAdded : Bool
  gUnicamDev : Bool
  handles : ι → Handle
  unclocked : Bool

/-- `access` stands for `unicam_read`, `unicam_poll`, `unicam_mmap` and GET_BUFFER. -/
inductive FileOp
  | release
  | access
  | ioctl (call : Call)

inductive Action (ι : Type*)
  | bind (ok : Bool)
  | probe (ok : Bool) (busAddr : BitVec 64)
  | unbind (replies : ℕ → I2cReply)
  | teardown
  | isr
  | hardware (ista ibwp : BitVec 32)
  | fopen (i : ι)
  | file (i : ι) (op : FileOp)
  | proceed (i : ι)

variable {ι : Type*} (m : RegisterMap) (sensor : Imx219)

/-- Before the first probe. -/
def Driver.unbound (regs : BitVec 32 → BitVec 32) : Driver ι where
  phase := .unbound
  dev := ⟨regs, 0, 0, 0, 0, false, []⟩
  lp := false
  vpu := false
  irq := false
  isr := .idle
  cdevAdded := false
  gUnicamDev := false
  handles _ := .closed
  unclocked := false

/-- The state after a statement; `touches` says whether it reads or writes a register. -/
def Driver.accessed (x : Driver ι) (touches : Bool) : Driver ι :=
  { x with unclocked := x.unclocked || touches && !(x.lp && x.vpu) }

/-- The `clear` of a mask works on a local variable. -/
def opTouches : RegisterOp → Bool
  | .clear _ => false
  | .write _ _ | .read _ | .writeBack _ => true

def sectionTouches : Section → Bool
  | .hwInit (op :: _) _ | .undo _ (op :: _) _ | .hwDisable (op :: _) _ => opTouches op
  | _ => false

def bind (ok : Bool) (x : Driver ι) : Option (Driver ι) :=
  match x.phase with
  | .unbound =>
    if ok then some { x with
      phase := .probing .getResource
      dev := ⟨x.dev.regs, 0, 0, 0, 0, false, x.dev.transfers⟩
      gUnicamDev := true }
    else some x
  | _ => none

def ProbeCall.next : ProbeCall → Phase
  | .getResource => .probing .ioremap
  | .ioremap => .probing .getIrq
  | .getIrq => .probing .requestIrq
  | .requestIrq => .probing .clkGetLp
  | .clkGetLp => .probing .clkGetVpu
  | .clkGetVpu => .probing .enableLp
  | .enableLp => .probing .enableVpu
  | .enableVpu => .probing .dmaAlloc
  | .dmaAlloc => .probing .getAdapter
  | .getAdapter => .probing .newClient
  | .newClient => .probing .allocRegion
  | .allocRegion => .probing .cdevAdd
  | .cdevAdd => .probing .classCreate
  | .classCreate => .probing .deviceCreate
  | .deviceCreate => .bound

/-- The first call after a failure, or the release that follows a plain return. -/
def ProbeCall.failed : ProbeCall → TeardownCall
  | .enableVpu => .disableLp
  | .dmaAlloc => .disableVpu
  | .getAdapter | .newClient => .dmaFree
  | .allocRegion => .i2cUnregister
  | .cdevAdd => .unregister
  | .classCreate => .cdevDel
  | .deviceCreate => .classDestroy
  | _ => .release

def ProbeCall.effect (busAddr : BitVec 64) (x : Driver ι) : ProbeCall → Driver ι
  | .requestIrq => { x with irq := true }
  | .enableLp => { x with lp := true }
  | .enableVpu => { x with vpu := true, dev := { x.dev with bufSize := 16 * 1024 * 1024 } }
  | .dmaAlloc => { x with dev := { x.dev with busAddr := busAddr } }
  | .cdevAdd => { x with cdevAdded := true }
  | _ => x

def probeStep (ok : Bool) (busAddr : BitVec 64) (x : Driver ι) : Option (Driver ι) :=
  match x.phase with
  | .probing call =>
    if ok then some { call.effect busAddr x with phase := call.next }
    else some { x with phase := .teardown false call.failed }
  | _ => none

/-- `unicam_remove` stops the sensor and the core if the flag is up. -/
def unbind (replies : ℕ → I2cReply) (x : Driver ι) : Option (Driver ι) :=
  match x.phase with
  | .bound =>
    if x.dev.streaming then some { x with phase := .stopping replies .stopSensor }
    else some { x with phase := .teardown true .deviceDestroy }
  | _ => none

def TeardownCall.next (removing : Bool) : TeardownCall → Phase
  | .deviceDestroy => .teardown removing .classDestroy
  | .classDestroy => .teardown removing .cdevDel
  | .cdevDel => .teardown removing .unregister
  | .unregister => .teardown removing .i2cUnregister
  | .i2cUnregister => .teardown removing .dmaFree
  | .dmaFree => .teardown removing .disableVpu
  | .disableVpu => .teardown removing .disableLp
  | .disableLp => .teardown removing (if removing then .clearGlobal else .release)
  | .clearGlobal => .teardown removing .release
  | .release => .unbound

def TeardownCall.effect (x : Driver ι) : TeardownCall → Driver ι
  | .cdevDel => { x with cdevAdded := false }
  | .disableVpu => { x with vpu := false }
  | .disableLp => { x with lp := false }
  | .clearGlobal => { x with gUnicamDev := false }
  | .release => { x with irq := false }
  | _ => x

/-- STOP would clear the flag at the end, remove leaves it. -/
def stoppingStep (replies : ℕ → I2cReply) (l : Section) (x : Driver ι) : Driver ι :=
  match sectionStep m sensor replies l x.dev with
  | (.inl .clearStreaming, dev) => { x with dev := dev, phase := .teardown true .deviceDestroy }
  | (.inl l', dev) => { x with dev := dev, phase := .stopping replies l' }
  | (.inr _, dev) => { x with dev := dev, phase := .teardown true .deviceDestroy }

/-- The release waits for a handler that runs. -/
def teardownStep (x : Driver ι) : Option (Driver ι) :=
  match x.phase with
  | .stopping replies l =>
    some ((stoppingStep m sensor replies l x).accessed (sectionTouches l))
  | .teardown removing call =>
    if call = .release ∧ x.isr ≠ .idle then none
    else some { call.effect x with phase := call.next removing }
  | _ => none

def isrStep (x : Driver ι) : Option (Driver ι) :=
  if x.isr = .idle ∧ x.irq = false then none
  else
    let after := handlerStep m x.isr x.dev
    some ({ x with isr := after.1, dev := after.2 }.accessed (handlerTouches m x.isr))

/-- After the assignment of the flag, START has its `atomic_set` left. -/
def returned : Section → Handle
  | .setStreaming => .resetCount
  | _ => .opened

section Handles
variable [DecidableEq ι]

def Driver.setHandle (x : Driver ι) (i : ι) (handle : Handle) : Driver ι :=
  { x with handles := Function.update x.handles i handle }

def unicamOpen (i : ι) (x : Driver ι) : Option (Driver ι) :=
  match x.handles i with
  | .closed =>
    if x.cdevAdded then some (if x.gUnicamDev then x.setHandle i .opened else x) else none
  | _ => none

def fileOp (i : ι) (x : Driver ι) : FileOp → Driver ι
  | .release => x.setHandle i .closed
  | .access => x
  | .ioctl call =>
    match answered call x.dev with
    | some _ => x
    | none => x.setHandle i (.inside call.replies (entry m call x.dev))

def proceed (i : ι) (x : Driver ι) : Option (Driver ι) :=
  match x.handles i with
  | .inside replies l =>
    match sectionStep m sensor replies l x.dev with
    | (.inl l', dev) =>
      some (({ x with dev := dev }.setHandle i (.inside replies l')).accessed (sectionTouches l))
    | (.inr _, dev) =>
      some (({ x with dev := dev }.setHandle i (returned l)).accessed (sectionTouches l))
  | .resetCount => some ({ x with dev := { x.dev with frameCount := 0 } }.setHandle i .opened)
  | _ => none

def step (x : Driver ι) : Action ι → Option (Driver ι)
  | .bind ok => bind ok x
  | .probe ok busAddr => probeStep ok busAddr x
  | .unbind replies => unbind replies x
  | .teardown => teardownStep m sensor x
  | .isr => isrStep m x
  | .hardware ista ibwp => some { x with dev := raiseStatus m x.dev ista ibwp }
  | .fopen i => unicamOpen i x
  | .file i op =>
    match x.handles i with
    | .opened => some (fileOp m i x op)
    | _ => none
  | .proceed i => proceed m sensor i x

end Handles

/-- Every register access so far had both clocks enabled. -/
def Clocked (x : Driver ι) : Prop := x.unclocked = false

/-- Between the calls that enable and that disable the LP clock. -/
def Phase.lpOn : Phase → Bool
  | .probing .enableVpu | .teardown _ .disableLp => true
  | .probing .dmaAlloc | .probing .getAdapter | .probing .newClient | .probing .allocRegion => true
  | .probing .cdevAdd | .probing .classCreate | .probing .deviceCreate => true
  | .bound | .stopping _ _ => true
  | .teardown _ .deviceDestroy | .teardown _ .classDestroy | .teardown _ .cdevDel => true
  | .teardown _ .unregister | .teardown _ .i2cUnregister | .teardown _ .dmaFree => true
  | .teardown _ .disableVpu => true
  | _ => false

/-- From the success of the second `clk_prepare_enable` to the first `clk_disable_unprepare`. -/
def Phase.vpuOn : Phase → Bool
  | .probing .enableVpu | .teardown _ .disableLp => false
  | p => p.lpOn

/-- Outside the window from the second `clk_prepare_enable` to the first
`clk_disable_unprepare`, no statement of the handler and of an ioctl touches a register. -/
def windowed (x : Driver ι) : Action ι → Prop
  | .isr => handlerTouches m x.isr = true → x.phase.vpuOn = true
  | .proceed i => ∀ l, (∃ replies, x.handles i = .inside replies l) → sectionTouches l = true →
      x.phase.vpuOn = true
  | _ => True

structure Inv (x : Driver ι) : Prop where
  lp : x.lp = x.phase.lpOn
  vpu : x.vpu = x.phase.vpuOn

variable {m sensor} {x y : Driver ι} {a : Action ι}

theorem Phase.lpOn_of_vpuOn (p : Phase) (h : p.vpuOn = true) : p.lpOn = true := by
  cases p with
  | probing call => cases call <;> first | rfl | cases h
  | teardown removing call => cases call <;> first | rfl | cases h
  | bound | stopping replies l => rfl
  | unbound => cases h

/-- In the window a register access is harmless. -/
theorem Inv.clocks (h : Inv x) : (x.lp && x.vpu) = x.phase.vpuOn := by
  rw [h.lp, h.vpu]
  cases hv : x.phase.vpuOn with
  | true => rw [x.phase.lpOn_of_vpuOn hv]; rfl
  | false => exact Bool.and_false _

theorem inv_unbound (regs : BitVec 32 → BitVec 32) : Inv (.unbound regs : Driver ι) := ⟨rfl, rfl⟩

theorem Inv.at_phase (h : Inv x) {p : Phase} (hp : x.phase = p) :
    x.lp = p.lpOn ∧ x.vpu = p.vpuOn := by
  subst hp
  exact ⟨h.lp, h.vpu⟩

/-- The statements of the handler and of the file operations leave the clocks alone. -/
theorem Inv.congr (h : Inv x) (hphase : y.phase = x.phase) (hlp : y.lp = x.lp)
    (hvpu : y.vpu = x.vpu) : Inv y := by
  constructor
  · rw [hlp, hphase]
    exact h.lp
  · rw [hvpu, hphase]
    exact h.vpu

/-- A step that leaves the clocks, the phase and the record as they are. -/
structure Frame (x y : Driver ι) : Prop where
  phase : y.phase = x.phase
  lp : y.lp = x.lp
  vpu : y.vpu = x.vpu
  unclocked : y.unclocked = x.unclocked

theorem Frame.inv (hf : Frame x y) (h : Inv x) : Inv y := h.congr hf.phase hf.lp hf.vpu

theorem Frame.clocked (hf : Frame x y) (hx : Clocked x) : Clocked y := hf.unclocked.trans hx

theorem inv_bind {ok : Bool} (h : Inv x) (hs : bind ok x = some y) : Inv y := by
  rw [bind] at hs
  split at hs
  · next hp =>
    split at hs
    · cases hs
      exact ⟨h.lp.trans (by rw [hp]; rfl), h.vpu.trans (by rw [hp]; rfl)⟩
    · cases hs
      exact h
  · cases hs

theorem inv_probeStep {ok : Bool} {busAddr : BitVec 64} (h : Inv x)
    (hs : probeStep ok busAddr x = some y) : Inv y := by
  rw [probeStep] at hs
  split at hs
  · next call hp =>
    obtain ⟨hlp, hvpu⟩ := h.at_phase hp
    split at hs
    · cases hs
      cases call <;> first | exact ⟨hlp, hvpu⟩ | exact ⟨rfl, hvpu⟩ | exact ⟨hlp, rfl⟩
    · cases hs
      cases call <;> exact ⟨hlp, hvpu⟩
  · cases hs

theorem inv_unbind {replies : ℕ → I2cReply} (h : Inv x) (hs : unbind replies x = some y) :
    Inv y := by
  rw [unbind] at hs
  split at hs
  · next hp =>
    obtain ⟨hlp, hvpu⟩ := h.at_phase hp
    split at hs <;> cases hs <;> exact ⟨hlp, hvpu⟩
  · cases hs

theorem inv_stoppingStep {replies : ℕ → I2cReply} {l : Section} (h : Inv x)
    (hp : x.phase = .stopping replies l) : Inv (stoppingStep m sensor replies l x) := by
  obtain ⟨hlp, hvpu⟩ := h.at_phase hp
  rw [stoppingStep]
  split <;> exact ⟨hlp, hvpu⟩

theorem inv_teardownStep (h : Inv x) (hs : teardownStep m sensor x = some y) : Inv y := by
  rw [teardownStep] at hs
  split at hs
  · next replies l hp =>
    cases hs
    exact (inv_stoppingStep h hp).congr rfl rfl rfl
  · next removing call hp =>
    obtain ⟨hlp, hvpu⟩ := h.at_phase hp
    split at hs
    · cases hs
    · cases hs
      cases call with
      | disableLp => cases removing <;> exact ⟨rfl, hvpu⟩
      | disableVpu => exact ⟨hlp, rfl⟩
      | deviceDestroy | classDestroy | cdevDel | unregister | i2cUnregister | dmaFree
      | clearGlobal | release => exact ⟨hlp, hvpu⟩
  · cases hs

theorem inv_isrStep (h : Inv x) (hs : isrStep m x = some y) : Inv y := by
  rw [isrStep] at hs
  split at hs
  · cases hs
  · cases hs
    exact h.congr rfl rfl rfl

/-- A statement that touches a register keeps the record clean exactly in the window. -/
theorem Inv.accessed_iff (h : Inv x) (hx : Clocked x) (hlp : y.lp = x.lp) (hvpu : y.vpu = x.vpu)
    (hclean : y.unclocked = x.unclocked) (touches : Bool) :
    Clocked (y.accessed touches) ↔ (touches = true → x.phase.vpuOn = true) := by
  have hrecord : (y.accessed touches).unclocked = (touches && !x.phase.vpuOn) := by
    rw [Driver.accessed, hlp, hvpu, h.clocks, hclean, hx, Bool.false_or]
  rw [Clocked, hrecord]
  cases touches <;> simp

theorem isrStep_iff (h : Inv x) (hx : Clocked x) (hs : isrStep m x = some y) :
    Clocked y ↔ (handlerTouches m x.isr = true → x.phase.vpuOn = true) := by
  rw [isrStep] at hs
  split at hs
  · cases hs
  · cases hs
    exact h.accessed_iff hx rfl rfl rfl _

/-- The accesses of remove come before the clocks are disabled. -/
theorem teardownStep_clocked (h : Inv x) (hx : Clocked x)
    (hs : teardownStep m sensor x = some y) : Clocked y := by
  rw [teardownStep] at hs
  split at hs
  · next replies l hp =>
    cases hs
    have hsame : (stoppingStep m sensor replies l x).lp = x.lp ∧
        (stoppingStep m sensor replies l x).vpu = x.vpu ∧
        (stoppingStep m sensor replies l x).unclocked = x.unclocked := by
      rw [stoppingStep]
      split <;> exact ⟨rfl, rfl, rfl⟩
    refine (h.accessed_iff hx hsame.1 hsame.2.1 hsame.2.2 _).mpr (fun _ => ?_)
    rw [hp]
    rfl
  · next removing call hp =>
    split at hs
    · cases hs
    · cases hs
      cases call <;> exact hx
  · cases hs

theorem bind_clocked {ok : Bool} (hx : Clocked x) (hs : bind ok x = some y) : Clocked y := by
  rw [bind] at hs
  split at hs
  · split at hs <;> cases hs <;> exact hx
  · cases hs

theorem probeStep_clocked {ok : Bool} {busAddr : BitVec 64} (hx : Clocked x)
    (hs : probeStep ok busAddr x = some y) : Clocked y := by
  rw [probeStep] at hs
  split at hs
  · next call hp =>
    split at hs
    · cases hs
      cases call <;> exact hx
    · cases hs
      exact hx
  · cases hs

theorem unbind_clocked {replies : ℕ → I2cReply} (hx : Clocked x)
    (hs : unbind replies x = some y) : Clocked y := by
  rw [unbind] at hs
  split at hs
  · split at hs <;> cases hs <;> exact hx
  · cases hs

variable [DecidableEq ι]

theorem unicamOpen_frame {i : ι} (hs : unicamOpen i x = some y) : Frame x y := by
  rw [unicamOpen] at hs
  split at hs
  · split at hs
    · cases hs
      split <;> exact ⟨rfl, rfl, rfl, rfl⟩
    · cases hs
  · cases hs

theorem fileOp_frame (i : ι) (op : FileOp) : Frame x (fileOp m i x op) := by
  cases op with
  | release | access => exact ⟨rfl, rfl, rfl, rfl⟩
  | ioctl call =>
    rw [fileOp]
    split <;> exact ⟨rfl, rfl, rfl, rfl⟩

theorem proceed_cases {i : ι} (hs : proceed m sensor i x = some y) :
    (∃ replies l z, x.handles i = .inside replies l ∧
      y = Driver.accessed z (sectionTouches l) ∧ Frame x z) ∨
    (x.handles i = .resetCount ∧ Frame x y) := by
  rw [proceed] at hs
  split at hs
  · next replies l hi =>
    split at hs
    · cases hs
      exact .inl ⟨replies, l, _, hi, rfl, ⟨rfl, rfl, rfl, rfl⟩⟩
    · cases hs
      exact .inl ⟨replies, l, _, hi, rfl, ⟨rfl, rfl, rfl, rfl⟩⟩
  · next hi =>
    cases hs
    exact .inr ⟨hi, ⟨rfl, rfl, rfl, rfl⟩⟩
  · cases hs

theorem proceed_iff {i : ι} (h : Inv x) (hx : Clocked x) (hs : proceed m sensor i x = some y) :
    Clocked y ↔ windowed m x (.proceed i) := by
  cases proceed_cases hs with
  | inl hinside =>
    obtain ⟨replies, l, z, hi, rfl, hframe⟩ := hinside
    rw [h.accessed_iff hx hframe.lp hframe.vpu hframe.unclocked]
    constructor
    · intro htouch l' hl'
      obtain ⟨replies', hi'⟩ := hl'
      rw [hi] at hi'
      cases hi'
      exact htouch
    · intro hwindow
      exact hwindow l ⟨replies, hi⟩
  | inr hreset =>
    obtain ⟨hi, hframe⟩ := hreset
    refine iff_of_true (hframe.clocked hx) ?_
    intro l hl
    obtain ⟨replies, hi'⟩ := hl
    rw [hi] at hi'
    cases hi'

theorem inv_step (h : Inv x) (hs : step m sensor x a = some y) : Inv y := by
  cases a with
  | bind ok => exact inv_bind h hs
  | probe ok busAddr => exact inv_probeStep h hs
  | unbind replies => exact inv_unbind h hs
  | teardown => exact inv_teardownStep h hs
  | isr => exact inv_isrStep h hs
  | hardware ista ibwp =>
    cases hs
    exact h.congr rfl rfl rfl
  | fopen i => exact (unicamOpen_frame hs).inv h
  | file i op =>
    simp only [step] at hs
    split at hs
    · cases hs
      exact (fileOp_frame i op).inv h
    · cases hs
  | proceed i =>
    cases proceed_cases hs with
    | inl hinside =>
      obtain ⟨_, _, z, -, rfl, hframe⟩ := hinside
      have hz : Inv z := hframe.inv h
      exact ⟨hz.lp, hz.vpu⟩
    | inr hreset => exact hreset.2.inv h

theorem step_clocked_iff (h : Inv x) (hx : Clocked x) (hs : step m sensor x a = some y) :
    Clocked y ↔ windowed m x a := by
  cases a with
  | bind ok => exact iff_of_true (bind_clocked hx hs) trivial
  | probe ok busAddr => exact iff_of_true (probeStep_clocked hx hs) trivial
  | unbind replies => exact iff_of_true (unbind_clocked hx hs) trivial
  | teardown => exact iff_of_true (teardownStep_clocked h hx hs) trivial
  | isr => exact isrStep_iff h hx hs
  | hardware ista ibwp =>
    cases hs
    exact iff_of_true hx trivial
  | fopen i => exact iff_of_true ((unicamOpen_frame hs).clocked hx) trivial
  | file i op =>
    simp only [step] at hs
    split at hs
    · cases hs
      exact iff_of_true ((fileOp_frame i op).clocked hx) trivial
    · cases hs
  | proceed i => exact proceed_iff h hx hs

/-- The runs that touch the registers with both clocks enabled are those in which the handler
and the ioctls touch them inside the window. -/
theorem clocked_run_iff (regs : BitVec 32 → BitVec 32) (as : List (Action ι)) (x : Driver ι) :
    Run (Reaching Clocked (Steps (step m sensor))) (.unbound regs) as x ↔
      Run (Within (windowed m) (Steps (step m sensor))) (.unbound regs) as x := by
  have hstart : Clocked (.unbound regs : Driver ι) := rfl
  apply reaching_iff_within Inv (inv_unbound regs) hstart
  · exact fun _ _ _ h hs => inv_step h hs
  · exact fun _ _ _ h hx hs => step_clocked_iff h hx hs

/-- The line is requested before the clocks are enabled. -/
theorem handler_before_clocks : ¬ ∀ (m : RegisterMap) (sensor : Imx219)
    (regs : BitVec 32 → BitVec 32) (as : List (Action Unit)) (x : Driver Unit),
    Run (Steps (step m sensor)) (.unbound regs) as x → Clocked x := by
  intro hall
  let as : List (Action Unit) := .bind true :: List.replicate 4 (.probe true 0) ++ [.isr]
  have run : (follow (step sampleMap sampleSensor) (.unbound (fun _ => 0)) as).map
      (fun x => x.unclocked) = some true := by decide +kernel
  obtain ⟨x, hf, hx⟩ := Option.map_eq_some_iff.mp run
  have hclocked := hall sampleMap sampleSensor _ as x (run_steps_iff.mpr hf)
  rw [hclocked] at hx
  cases hx

end CameraDrivers.ClockedAccess
