import CameraDrivers.MainCallbacks

/-!
# The streaming mode of the sensor behind camera_main.c

The helpers write registers with numbers of up to 16 bits through a bus call that carries 8 of
them. The mode of the sensor is known only from the writes that it acknowledged. Which
register controls the mode is not written down anywhere, so every one of them is considered.
-/
namespace CameraDrivers.SensorStreaming
open CameraState TransitionRuns
open MainCallbacks (Outcome i2cWrite einval startStreaming stopStreaming outcome_cases)

/-- A call of `i2c_smbus_write_byte_data` with its result. -/
structure SmbusWrite where
  command : ℕ
  value : BitVec 8
  ret : ℤ
  deriving DecidableEq

/-- The register and the value that the sensor sees. -/
def SmbusWrite.onBus (w : SmbusWrite) : BitVec 8 × BitVec 8 := i2cWrite w.command w.value

/-- The sensor sees the register number that stands in the code. -/
def SmbusWrite.Full (w : SmbusWrite) : Prop := w.onBus.1.toNat = w.command

instance (w : SmbusWrite) : Decidable w.Full := inferInstanceAs (Decidable (_ = _))

/-- Writes in their order, up to the first one that fails. -/
def smbusWrites : List (ℕ × BitVec 8) → (ℕ → ℤ) → ℤ × List SmbusWrite
  | [], _ => (0, [])
  | (command, value) :: rest, replies =>
    if replies 0 < 0 then (replies 0, [⟨command, value, replies 0⟩])
    else
      let after := smbusWrites rest (fun i => replies (i + 1))
      (after.1, ⟨command, value, replies 0⟩ :: after.2)

/-- A helper that refuses some resolutions. -/
def configure (supported : Prop) [Decidable supported] (writes : List (ℕ × BitVec 8))
    (replies : ℕ → ℤ) : ℤ × List SmbusWrite :=
  if supported then smbusWrites writes replies else (-einval, [])

def yuyvSupported (width height : ℤ) : Prop :=
  16 ≤ width ∧ 16 ≤ height ∧ width ≤ 16376 ∧ height ≤ 16376

instance (width height : ℤ) : Decidable (yuyvSupported width height) :=
  inferInstanceAs (Decidable (_ ∧ _))

def imx219SetYuyvFormat (width height : ℤ) : (ℕ → ℤ) → ℤ × List SmbusWrite :=
  configure (yuyvSupported width height) [(0x0120, 0x30), (0x0100, 0x01)]

def imx219SetResolution (width height : ℤ) : (ℕ → ℤ) → ℤ × List SmbusWrite :=
  configure (width = 640 ∧ height = 480) [(0x0160, 0x01)]

def imx219SetResolutionAndStreaming (width height : ℤ) : (ℕ → ℤ) → ℤ × List SmbusWrite :=
  configure (width = 640 ∧ height = 480) [(0x01, 0x01), (0x01, 0x01)]

inductive Helper | setYuyvFormat | setResolution | setResolutionAndStreaming deriving DecidableEq

def Helper.run : Helper → (width height : ℤ) → (ℕ → ℤ) → ℤ × List SmbusWrite
  | .setYuyvFormat => imx219SetYuyvFormat
  | .setResolution => imx219SetResolution
  | .setResolutionAndStreaming => imx219SetResolutionAndStreaming

def Helper.Supports (width height : ℤ) : Helper → Prop
  | .setYuyvFormat => yuyvSupported width height
  | .setResolution | .setResolutionAndStreaming => width = 640 ∧ height = 480

/-- A call of a callback, with the answer to its write. -/
inductive Call
  | start (reply : ℤ)
  | stop (reply : ℤ)

/-- The driver, and the writes on the bus that the sensor acknowledged. -/
structure Session (n : ℕ) where
  cam : CameraDev n
  acknowledged : List (BitVec 8 × BitVec 8)

variable {n : ℕ}

def Session.initial (n : ℕ) : Session n := ⟨.fresh n, []⟩

def Session.after (s : Session n) (reply : ℤ) (outcome : Outcome n) : Session n where
  cam := outcome.cam
  acknowledged := s.acknowledged ++ if 0 ≤ reply then outcome.writes else []

def call (client : Bool) (s : Session n) : Call → Session n
  | .start reply => s.after reply (startStreaming client reply s.cam)
  | .stop reply => s.after reply (stopStreaming client s.cam)

def step (client : Bool) (s : Session n) (c : Call) (t : Session n) : Prop := call client s c = t

def lastValue (register : BitVec 8) (writes : List (BitVec 8 × BitVec 8)) : Option (BitVec 8) :=
  ((writes.filter (fun w => w.1 = register)).getLast?).map Prod.snd

def Session.mode (s : Session n) (control : BitVec 8) : Option (BitVec 8) :=
  lastValue control s.acknowledged

def modeOn : BitVec 8 := 0x01
def modeOff : BitVec 8 := 0x00

/-- The sensor's mode, kept in the register `control`, follows the flag through a call. -/
structure FollowsFlag (control : BitVec 8) (client : Bool) (s : Session n) (c : Call) : Prop where
  on : (call client s c).cam.streaming = true → (call client s c).mode control = some modeOn
  off : ∀ reply, c = .stop reply → client = true → 0 ≤ reply →
    (call client s c).mode control = some modeOff
  failed : ∀ reply, c = .start reply → (startStreaming client reply s.cam).ret ≠ 0 →
    (call client s c).cam.streaming = s.cam.streaming ∧
      (call client s c).mode control = s.mode control

/-- If the write of the call is acknowledged, it went to the register `control`; the bus
carries 0x0160 as 0x60. -/
def addresses (control : BitVec 8) (client : Bool) : Call → Prop
  | .start reply => client = true → 0 ≤ reply → control = 0x60
  | .stop reply => client = true → 0 ≤ reply → control = 0x01

variable {control : BitVec 8} {client : Bool} {s t : Session n} {c : Call} {reply : ℤ}
variable {writes : List (ℕ × BitVec 8)} {replies : ℕ → ℤ}

theorem lastValue_concat (register : BitVec 8) (ws : List (BitVec 8 × BitVec 8))
    (w : BitVec 8 × BitVec 8) : lastValue register (ws ++ [w]) =
      if w.1 = register then some w.2 else lastValue register ws := by
  rw [lastValue, List.filter_append]
  by_cases h : w.1 = register
  · simp [h]
  · simp [h, lastValue]

/-- A call without a write, or with one that is not acknowledged. -/
theorem after_unacknowledged {outcome : Outcome n} (h : outcome.writes = [] ∨ reply < 0)
    (s : Session n) : s.after reply outcome = ⟨outcome.cam, s.acknowledged⟩ := by
  rcases h with hnil | hneg
  · simp [Session.after, hnil]
  · simp [Session.after, hneg]

theorem start_fails (h : client = false ∨ reply < 0) (s : Session n) :
    call client s (.start reply) = s := by
  have hwrites : (startStreaming client reply s.cam).writes = [] ∨ reply < 0 := by
    rcases h with rfl | h
    · exact .inl rfl
    · exact .inr h
  rw [call, after_unacknowledged hwrites, (MainCallbacks.startStreaming_fails h s.cam).2.1]

theorem start_succeeds (h : 0 ≤ reply) (s : Session n) :
    call true s (.start reply) =
      ⟨{ s.cam with streaming := true }, s.acknowledged ++ [(0x60, modeOn)]⟩ := by
  have hwrites : (startStreaming true reply s.cam).writes = [(0x60, modeOn)] := by
    have hpos : ¬ reply < 0 := by omega
    simp [startStreaming, MainCallbacks.imx219SetResolution, hpos, i2cWrite, modeOn]
  simp only [call, Session.after, (MainCallbacks.startStreaming_succeeds h s.cam).2, if_pos h,
    hwrites]

theorem stop_unacknowledged (h : client = false ∨ reply < 0) (s : Session n) :
    call client s (.stop reply) = ⟨{ s.cam with streaming := false }, s.acknowledged⟩ := by
  have hwrites : (stopStreaming client s.cam).writes = [] ∨ reply < 0 := by
    rcases h with rfl | h
    · exact .inl rfl
    · exact .inr h
  rw [call, after_unacknowledged hwrites]
  rfl

theorem stop_acknowledged (h : 0 ≤ reply) (s : Session n) :
    call true s (.stop reply) =
      ⟨{ s.cam with streaming := false }, s.acknowledged ++ [(0x01, modeOff)]⟩ := by
  simp [call, Session.after, stopStreaming, i2cWrite, modeOff, h]

/-- ON is only ever acknowledged for 0x60, and OFF only for 0x01. -/
structure Inv (control : BitVec 8) (s : Session n) : Prop where
  value : ∀ v, s.mode control = some v →
    control = 0x60 ∧ v = modeOn ∨ control = 0x01 ∧ v = modeOff
  flag : s.cam.streaming = true → s.mode control = some modeOn

theorem inv_initial (control : BitVec 8) (n : ℕ) : Inv control (Session.initial n) := by
  constructor
  · intro v hv
    cases hv
  · intro hon
    cases hon

/-- The last value after one more acknowledged write. -/
theorem mode_append (control : BitVec 8) (cam : CameraDev n) (s : Session n)
    (w : BitVec 8 × BitVec 8) : Session.mode ⟨cam, s.acknowledged ++ [w]⟩ control =
      if w.1 = control then some w.2 else s.mode control := lastValue_concat control _ w

theorem not_acknowledged (h : client = false ∨ reply < 0) (hclient : client = true) :
    ¬ 0 ≤ reply := by
  have hneg := h.resolve_left (by simp [hclient])
  omega

theorem addresses_unacknowledged (h : client = false ∨ reply < 0) (control : BitVec 8) :
    addresses control client (.start reply) ∧ addresses control client (.stop reply) :=
  ⟨fun hclient hreply => absurd hreply (not_acknowledged h hclient),
    fun hclient hreply => absurd hreply (not_acknowledged h hclient)⟩

theorem inv_step (h : Inv control s) (hok : addresses control client c)
    (hs : step client s c t) : Inv control t := by
  subst hs
  cases c with
  | start reply =>
    cases outcome_cases client reply with
    | inl hf => rwa [start_fails hf]
    | inr hsuccess =>
      obtain ⟨rfl, hreply⟩ := hsuccess
      have hcontrol := hok rfl hreply
      rw [start_succeeds hreply]
      constructor
      · intro v hv
        rw [mode_append, if_pos hcontrol.symm] at hv
        exact .inl ⟨hcontrol, (Option.some.inj hv).symm⟩
      · intro _
        rw [mode_append, if_pos hcontrol.symm]
  | stop reply =>
    cases outcome_cases client reply with
    | inl hf =>
      rw [stop_unacknowledged hf]
      refine ⟨h.value, ?_⟩
      intro hon
      cases hon
    | inr hsuccess =>
      obtain ⟨rfl, hreply⟩ := hsuccess
      have hcontrol := hok rfl hreply
      rw [stop_acknowledged hreply]
      constructor
      · intro v hv
        rw [mode_append, if_pos hcontrol.symm] at hv
        exact .inr ⟨hcontrol, (Option.some.inj hv).symm⟩
      · intro hon
        cases hon

theorem followsFlag_start_iff (h : Inv control s) (client : Bool) (reply : ℤ) :
    FollowsFlag control client s (.start reply) ↔ addresses control client (.start reply) := by
  cases outcome_cases client reply with
  | inl hf =>
    refine iff_of_true ?_ (addresses_unacknowledged hf control).1
    have hsame := start_fails hf s
    constructor
    · rw [hsame]
      exact h.flag
    · intro r hr
      cases hr
    · intro r hr _
      cases hr
      rw [hsame]
      exact ⟨rfl, rfl⟩
  | inr hsuccess =>
    obtain ⟨rfl, hreply⟩ := hsuccess
    have hcall := start_succeeds hreply s
    constructor
    · intro hf _ _
      have hon := hf.on (by rw [hcall])
      rw [hcall, mode_append] at hon
      by_contra hne
      rw [if_neg (Ne.symm hne)] at hon
      rcases h.value _ hon with ⟨hsame, -⟩ | ⟨-, hvalue⟩
      · exact hne hsame
      · cases hvalue
    · intro hok
      have hcontrol := hok rfl hreply
      constructor
      · intro _
        rw [hcall, mode_append, if_pos hcontrol.symm]
      · intro r hr
        cases hr
      · intro r hr hfail
        cases hr
        exact absurd (MainCallbacks.startStreaming_succeeds hreply s.cam).1 hfail

theorem followsFlag_stop_iff (h : Inv control s) (client : Bool) (reply : ℤ) :
    FollowsFlag control client s (.stop reply) ↔ addresses control client (.stop reply) := by
  cases outcome_cases client reply with
  | inl hf =>
    refine iff_of_true ?_ (addresses_unacknowledged hf control).2
    have hcall := stop_unacknowledged hf s
    constructor
    · intro hon
      rw [hcall] at hon
      cases hon
    · intro r hr hclient hreply
      cases hr
      exact absurd hreply (not_acknowledged hf hclient)
    · intro r hr
      cases hr
  | inr hsuccess =>
    obtain ⟨rfl, hreply⟩ := hsuccess
    have hcall := stop_acknowledged hreply s
    constructor
    · intro hf _ _
      have hoff := hf.off reply rfl rfl hreply
      rw [hcall, mode_append] at hoff
      by_contra hne
      rw [if_neg (Ne.symm hne)] at hoff
      rcases h.value _ hoff with ⟨-, hvalue⟩ | ⟨hsame, -⟩
      · cases hvalue
      · exact hne hsame
    · intro hok
      have hcontrol := hok rfl hreply
      constructor
      · intro hon
        rw [hcall] at hon
        cases hon
      · intro r hr _ _
        cases hr
        rw [hcall, mode_append, if_pos hcontrol.symm]
      · intro r hr
        cases hr

theorem followsFlag_iff (h : Inv control s) :
    FollowsFlag control client s c ↔ addresses control client c := by
  cases c with
  | start reply => exact followsFlag_start_iff h client reply
  | stop reply => exact followsFlag_stop_iff h client reply

theorem full_iff (w : SmbusWrite) : w.Full ↔ w.command < 2 ^ 8 := by
  rw [SmbusWrite.Full, SmbusWrite.onBus, i2cWrite, BitVec.toNat_ofNat]
  exact Nat.mod_eq_iff_lt (by decide)

theorem smbusWrites_mem {w : SmbusWrite} (h : w ∈ (smbusWrites writes replies).2) :
    (w.command, w.value) ∈ writes := by
  induction writes generalizing replies with
  | nil => cases h
  | cons entry rest ih =>
    obtain ⟨command, value⟩ := entry
    rw [smbusWrites] at h
    split at h
    · rw [List.mem_singleton.mp h]
      exact List.mem_cons_self
    · rcases List.mem_cons.mp h with rfl | hrest
      · exact List.mem_cons_self
      · exact List.mem_cons_of_mem _ (ih hrest)

theorem smbusWrites_first (command : ℕ) (value : BitVec 8) (rest : List (ℕ × BitVec 8))
    (replies : ℕ → ℤ) :
    ⟨command, value, replies 0⟩ ∈ (smbusWrites ((command, value) :: rest) replies).2 := by
  rw [smbusWrites]
  split <;> exact List.mem_cons_self

/-- A helper with a register number above a byte at its start keeps it only by refusing. -/
theorem configure_full_iff {supported : Prop} [Decidable supported] {command : ℕ}
    (wide : 2 ^ 8 ≤ command) (value : BitVec 8) (rest : List (ℕ × BitVec 8)) (replies : ℕ → ℤ) :
    (∀ w ∈ (configure supported ((command, value) :: rest) replies).2, w.Full) ↔ ¬ supported := by
  by_cases h : supported
  · rw [configure, if_pos h]
    refine iff_of_false ?_ (not_not_intro h)
    intro hall
    have hfirst := (full_iff _).mp (hall _ (smbusWrites_first command value rest replies))
    exact absurd hfirst (by simpa using wide)
  · rw [configure, if_neg h]
    exact iff_of_true (fun w hw => by cases hw) h

theorem setResolutionAndStreaming_full (width height : ℤ) (replies : ℕ → ℤ) :
    ∀ w ∈ (imx219SetResolutionAndStreaming width height replies).2, w.Full := by
  intro w hw
  rw [imx219SetResolutionAndStreaming, configure] at hw
  split at hw
  · have hmem := smbusWrites_mem hw
    simp only [List.mem_cons, Prod.mk.injEq, List.not_mem_nil, or_false, or_self] at hmem
    rw [full_iff, hmem.1]
    decide
  · cases hw

theorem helper_full_iff (helper : Helper) (width height : ℤ) (replies : ℕ → ℤ) :
    (∀ w ∈ (helper.run width height replies).2, w.Full) ↔
      (helper.Supports width height → helper = .setResolutionAndStreaming) := by
  cases helper with
  | setYuyvFormat =>
    rw [Helper.run, imx219SetYuyvFormat, configure_full_iff (by decide)]
    simp [Helper.Supports]
  | setResolution =>
    rw [Helper.run, imx219SetResolution, configure_full_iff (by decide)]
    simp [Helper.Supports]
  | setResolutionAndStreaming =>
    exact iff_of_true (setResolutionAndStreaming_full width height replies) (fun _ => rfl)

/-- What `start_streaming` calls is what the bus carries of `imx219_set_resolution`. -/
theorem setResolution_onBus (width height : ℤ) (replies : ℕ → ℤ) :
    MainCallbacks.imx219SetResolution width height (replies 0) =
      ((imx219SetResolution width height replies).1,
        (imx219SetResolution width height replies).2.map SmbusWrite.onBus) := by
  rw [MainCallbacks.imx219SetResolution, imx219SetResolution, configure]
  split
  · rw [smbusWrites]
    split <;> rfl
  · rfl

/-- For every register that may control the mode: the runs in which it follows the flag are those
in which every acknowledged write went to it. The helpers' register numbers reach the
bus if they fit a byte. -/
theorem streaming_followed_iff (control : BitVec 8) (client : Bool) (n : ℕ) (cs : List Call)
    (s : Session n) (helper : Helper) (width height : ℤ) (replies : ℕ → ℤ) :
    (Run (Within (FollowsFlag control client) (step client)) (.initial n) cs s ↔
      Run (Within (fun _ => addresses control client) (step client)) (.initial n) cs s) ∧
    ((∀ w ∈ (helper.run width height replies).2, w.Full) ↔
      (helper.Supports width height → helper = .setResolutionAndStreaming)) := by
  refine ⟨?_, helper_full_iff helper width height replies⟩
  apply run_within_iff (Inv control) (inv_initial control n)
  · exact fun _ _ _ h hok hs => inv_step h hok hs
  · exact fun _ _ _ h _ => followsFlag_iff h

/-- A start and a stop that are both acknowledged write two different registers, and the number
0x0160 does not reach the bus. -/
theorem mode_registers_differ :
    (¬ ∃ control : BitVec 8, ∀ (client : Bool) (n : ℕ) (cs : List Call) (s : Session n),
      Run (step client) (.initial n) cs s →
        Run (Within (FollowsFlag control client) (step client)) (.initial n) cs s) ∧
    ¬ ∀ (helper : Helper) (width height : ℤ) (replies : ℕ → ℤ),
      ∀ w ∈ (helper.run width height replies).2, w.Full := by
  constructor
  · intro hsome
    obtain ⟨control, hall⟩ := hsome
    have hrun : Run (step true) (.initial 0) [.start 0, .stop 0]
        (call true (call true (Session.initial 0) (.start 0)) (.stop 0)) :=
      run_cons_iff.mpr ⟨_, rfl, .single rfl⟩
    obtain ⟨t, hstart, hrest⟩ := run_cons_iff.mp (hall true 0 _ _ hrun)
    obtain ⟨z, hstop, -⟩ := run_cons_iff.mp hrest
    have haddressed := (followsFlag_iff (inv_initial control 0)).mp hstart.1
    have hinv := inv_step (inv_initial control 0) haddressed hstart.2
    have hon : control = 0x60 := haddressed rfl le_rfl
    have hoff : control = 0x01 := (followsFlag_iff hinv).mp hstop.1 rfl le_rfl
    rw [hon] at hoff
    cases hoff
  · intro hall
    have hfull := (helper_full_iff .setResolution 640 480 (fun _ => 0)).mp
      (hall .setResolution 640 480 (fun _ => 0)) ⟨rfl, rfl⟩
    cases hfull

end CameraDrivers.SensorStreaming
