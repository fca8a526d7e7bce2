import CameraDrivers.IoctlSteps
import CameraDrivers.TransitionRuns

/-!
# What unicam_read returns

One ioctl at a time, the interrupt handler and any number of readers, each statement by
statement. The handler stores the pointer and then counts the frame, under a lock that
`unicam_read` does not take, and START sets the counter to 0 after it has enabled the core
and leaves the pointer of the session before.
-/
namespace CameraDrivers.ReadCoherence
open TransitionRuns UnicamState UnicamIoctl StreamingAgreement IoctlSteps

inductive IoctlPc
  | idle
  | inside (replies : ℕ → I2cReply) (l : Section)
  | resetCount

/-- The next statement of `unicam_isr`, with the status it read. -/
inductive IsrPc
  | idle
  | clear (ista : BitVec 32)
  | sample (ista : BitVec 32)
  | count
  deriving DecidableEq

/-- A read between its two loads: the value of the first one and, to judge the pair, what was
the case then. -/
structure FirstLoad where
  count : BitVec 32
  handled : ℕ
  epoch : ℕ
  stores : ℕ
  torn : Bool
  streams : Bool
  deriving DecidableEq

/-- The device with the positions of the three parties. From `epoch` on it is history: the
ioctls begun, the times the core was enabled, the pointers of the frame ends counted since
it was enabled last, the pointers stored, how many of them before that, and the session of
the last one. -/
structure Driver (ι : Type*) where
  dev : UnicamDevice
  ioctl : IoctlPc
  isr : IsrPc
  readers : ι → Option FirstLoad
  epoch : ℕ
  session : ℕ
  samples : List (BitVec 32)
  stores : ℕ
  storesBefore : ℕ
  ptrFrom : Option ℕ

inductive Action (ι : Type*)
  | begin (call : Call)
  | ioctl
  | hardware (ista ibwp : BitVec 32)
  | isr
  | load (i : ι)

variable {ι : Type*} (m : RegisterMap) (sensor : Imx219)

/-- After a successful probe: nothing streams, no frame was ever counted. -/
def Driver.probed (regs : BitVec 32 → BitVec 32) (busAddr bufSize : BitVec 64) : Driver ι where
  dev := ⟨regs, busAddr, bufSize, 0, 0, false, []⟩
  ioctl := .idle
  isr := .idle
  readers _ := none
  epoch := 0
  session := 0
  samples := []
  stores := 0
  storesBefore := 0
  ptrFrom := none

/-- The last statement of `unicam_hw_init`, which writes UNICAM_CPE. -/
def enables : Section → Bool
  | .hwInit [_] _ => true
  | _ => false

def enabled (x : Driver ι) : Driver ι :=
  { x with session := x.session + 1, samples := [], storesBefore := x.stores }

def entered (l : Section) (x : Driver ι) : Driver ι := if enables l then enabled x else x

/-- An ioctl begins with its test of the flag; a call that the test answers is over. -/
def beginIoctl (call : Call) (x : Driver ι) : Option (Driver ι) :=
  match x.ioctl with
  | .idle =>
    match answered call x.dev with
    | some _ => some { x with epoch := x.epoch + 1 }
    | none => some { x with
        epoch := x.epoch + 1, ioctl := .inside call.replies (entry m call x.dev) }
  | _ => none

/-- After the assignment of the flag, START has its `atomic_set` left. -/
def leave : Section → IoctlPc
  | .setStreaming => .resetCount
  | _ => .idle

def ioctlStep (x : Driver ι) : Option (Driver ι) :=
  match x.ioctl with
  | .idle => none
  | .inside replies l =>
    match sectionStep m sensor replies l x.dev with
    | (.inl l', dev) => some { entered l x with dev := dev, ioctl := .inside replies l' }
    | (.inr _, dev) => some { entered l x with dev := dev, ioctl := leave l }
  | .resetCount => some { x with dev := { x.dev with frameCount := 0 }, ioctl := .idle }

def isrStep (x : Driver ι) : Driver ι :=
  match x.isr with
  | .idle =>
    let ista := unicamRegRead x.dev m.ista
    if ista = 0 then x else { x with isr := .clear ista }
  | .clear ista => { x with dev := unicamRegWrite m x.dev m.ista ista, isr := .sample ista }
  | .sample ista =>
    if ista &&& m.fei ≠ 0 then { x with
      dev := { x.dev with currentWritePtr := unicamRegRead x.dev m.ibwp }
      isr := .count
      stores := x.stores + 1
      ptrFrom := some x.session }
    else { x with isr := .idle }
  | .count => { x with
      dev := { x.dev with frameCount := x.dev.frameCount + 1 }
      isr := .idle
      samples := x.samples ++ [x.dev.currentWritePtr] }

/-- No ioctl is under way, and the last one left the device streaming. -/
def streams (x : Driver ι) : Bool :=
  match x.ioctl with
  | .idle => x.dev.streaming
  | _ => false

def firstLoad (x : Driver ι) : FirstLoad :=
  ⟨x.dev.frameCount, x.samples.length, x.epoch, x.stores, x.isr = .count, streams x⟩

/-- The first load of `unicam_read` reads the counter, the second one the pointer. -/
def load [DecidableEq ι] (i : ι) (x : Driver ι) : Driver ι :=
  match x.readers i with
  | none => { x with readers := Function.update x.readers i (some (firstLoad x)) }
  | some _ => { x with readers := Function.update x.readers i none }

def step [DecidableEq ι] (x : Driver ι) : Action ι → Option (Driver ι)
  | .begin call => beginIoctl m call x
  | .ioctl => ioctlStep m sensor x
  | .hardware ista ibwp => some { x with dev := raiseStatus m x.dev ista ibwp }
  | .isr => some (isrStep m x)
  | .load i => some (load i x)

/-- The pair of loads lies between a START that returned 0 and the next ioctl. -/
def inScope (x : Driver ι) (r : FirstLoad) : Prop := r.streams = true ∧ x.epoch = r.epoch

/-- The pair that the second load completes: the counter is the number of frame ends handled
since the core was enabled, the pointer is that of the last of them, and without a frame
end it is not the pointer of an earlier session. -/
structure Coherent (x : Driver ι) (r : FirstLoad) : Prop where
  count : r.count = BitVec.ofNat 32 r.handled
  pointer : r.count ≠ 0 → 0 < r.handled ∧
    x.samples[r.handled - 1]? = some x.dev.currentWritePtr
  fresh : r.count = 0 → x.ptrFrom = none ∨ x.ptrFrom = some x.session

/-- Every read in scope delivers a coherent pair. -/
def delivers (x : Driver ι) : Action ι → Prop
  | .load i => ∀ r ∈ x.readers i, inScope x r → Coherent x r
  | _ => True

/-- START resets the counter before the first frame end of the session is counted. Between
the two loads of a read no pointer is stored, and at the first one no frame end has its
pointer stored and its count left; a read that finds the counter at 0 comes after the first
pointer of the session, or no pointer was stored before it. -/
def undisturbed (x : Driver ι) : Action ι → Prop
  | .ioctl =>
    match x.ioctl with
    | .resetCount => x.samples = []
    | _ => True
  | .load i => ∀ r ∈ x.readers i, inScope x r →
      (r.count ≠ 0 → r.torn = false ∧ x.stores = r.stores) ∧
      (r.count = 0 → x.storesBefore = 0 ∨ x.storesBefore < x.stores)
  | _ => True

variable {m sensor} {x y : Driver ι} {r : FirstLoad} {a : Action ι}

instance : Decidable (inScope x r) := inferInstanceAs (Decidable (_ ∧ _))

instance : Decidable (undisturbed x a) :=
  match a with
  | .ioctl =>
    match h : x.ioctl with
    | .resetCount => decidable_of_iff (x.samples = []) (by simp [undisturbed, h])
    | .idle | .inside _ _ => isTrue (by simp [undisturbed, h])
  | .load i => inferInstanceAs (Decidable (∀ r ∈ x.readers i, _))
  | .begin _ | .hardware _ _ | .isr => isTrue trivial

/-- A read between its loads, while no ioctl has begun since the first one. -/
structure Reading (x : Driver ι) (r : FirstLoad) : Prop where
  epoch_le : r.epoch ≤ x.epoch
  stores_le : r.stores ≤ x.stores
  idle : inScope x r → x.ioctl = .idle
  count : inScope x r → r.count = BitVec.ofNat 32 r.handled
  steady : inScope x r → r.torn = false → x.stores = r.stores →
    x.samples.length = r.handled ∧ x.isr ≠ .count

structure Inv (x : Driver ι) : Prop where
  inside : ∀ replies l, x.ioctl = .inside replies l → x.dev.streaming = !starts l
  counted : x.dev.streaming = true → x.ioctl ≠ .resetCount →
    x.dev.frameCount = BitVec.ofNat 32 x.samples.length
  pointer : x.isr ≠ .count → ∀ v, x.samples.getLast? = some v → x.dev.currentWritePtr = v
  never : x.stores = 0 → x.ptrFrom = none
  before : x.storesBefore ≤ x.stores
  current : x.storesBefore < x.stores → x.ptrFrom = some x.session
  reading : ∀ i r, x.readers i = some r → Reading x r

theorem inv_probed (regs : BitVec 32 → BitVec 32) (busAddr bufSize : BitVec 64) :
    Inv (Driver.probed regs busAddr bufSize : Driver ι) := by
  constructor <;> simp [Driver.probed]

/-- A handler that nothing interrupts does what `unicam_isr` does. -/
theorem isr_uninterrupted (h : x.isr = .idle) : ∃ n ∈ [1, 3, 4],
    ((isrStep m)^[n] x).isr = .idle ∧ ((isrStep m)^[n] x).dev = (unicamIsr m x.dev).2 := by
  cases hista : decide (unicamRegRead x.dev m.ista = 0#32) with
  | true =>
    have h0 := of_decide_eq_true hista
    have first : isrStep m x = x := by simp [isrStep, h, h0]
    refine ⟨1, by decide, ?_⟩
    rw [Function.iterate_one, first]
    exact ⟨h, by simp [unicamIsr, h0]⟩
  | false =>
    have hne := of_decide_eq_false hista
    have first : isrStep m x = { x with isr := .clear (unicamRegRead x.dev m.ista) } := by
      simp [isrStep, h, hne]
    cases hfei : decide (unicamRegRead x.dev m.ista &&& m.fei = 0#32) with
    | true =>
      have h0 := of_decide_eq_true hfei
      refine ⟨3, by decide, ?_⟩
      rw [Function.iterate_succ_apply, first]
      simp [isrStep, unicamIsr, hne, h0]
    | false =>
      have hend := of_decide_eq_false hfei
      refine ⟨4, by decide, ?_⟩
      rw [Function.iterate_succ_apply, first]
      simp [isrStep, unicamIsr, hne, hend]

/-- Two loads in a row give the pair that `unicam_read` copies to the user. -/
theorem load_uninterrupted [DecidableEq ι] (i : ι) (h : x.readers i = none) :
    ((load i x).readers i).map (fun r => (r.count, (load i x).dev.currentWritePtr)) =
      (unicamRead x.dev 8 0).2 := by
  simp [load, h, firstLoad, unicamRead]

/-- A read in scope has only idle ioctls around it. -/
theorem Reading.new_epoch (h : Reading x r) (hs : x.stores = y.stores)
    (he : y.epoch = x.epoch + 1) : Reading y r := by
  have hno : ¬ inScope y r := by
    rintro ⟨-, hepoch⟩
    have hle := h.epoch_le
    omega
  have hle := h.epoch_le
  exact ⟨by omega, hs ▸ h.stores_le, fun hin => absurd hin hno, fun hin => absurd hin hno,
    fun hin => absurd hin hno⟩

theorem inv_begin {call : Call} (h : Inv x) (hs : beginIoctl m call x = some y) : Inv y := by
  rw [beginIoctl] at hs
  split at hs
  · next hidle =>
    have hcount : x.dev.streaming = true →
        x.dev.frameCount = BitVec.ofNat 32 x.samples.length := fun hup =>
      h.counted hup (by simp [hidle])
    split at hs <;> cases hs
    · refine ⟨?_, fun hup _ => hcount hup, h.pointer, h.never, h.before, h.current, ?_⟩
      · intro replies l hl
        simp [hidle] at hl
      · exact fun i r hr => (h.reading i r hr).new_epoch rfl rfl
    · next hans =>
      refine ⟨?_, fun hup _ => hcount hup, h.pointer, h.never, h.before, h.current, ?_⟩
      · intro replies l hl
        cases hl
        exact starts_entry hans
      · exact fun i r hr => (h.reading i r hr).new_epoch rfl rfl
  · cases hs

/-- While an ioctl runs, no read is in scope. -/
theorem Reading.not_idle (h : Reading x r) (hbusy : x.ioctl ≠ .idle) (hs : x.stores = y.stores)
    (he : y.epoch = x.epoch) : Reading y r := by
  have hno : ¬ inScope y r := fun hin => hbusy (h.idle ⟨hin.1, he ▸ hin.2⟩)
  exact ⟨he ▸ h.epoch_le, hs ▸ h.stores_le, fun hin => absurd hin hno, fun hin => absurd hin hno,
    fun hin => absurd hin hno⟩

/-- Writing UNICAM_CPE starts a session without samples. -/
theorem Inv.enabled (h : Inv x) (hdown : x.dev.streaming = false) (hbusy : x.ioctl ≠ .idle) :
    Inv (enabled x) where
  inside := h.inside
  counted hup := by simp [ReadCoherence.enabled, hdown] at hup
  pointer _ v hv := by simp [ReadCoherence.enabled] at hv
  never := h.never
  before := le_refl _
  current hlt := absurd hlt (lt_irrefl _)
  reading i r hr := (h.reading i r hr).not_idle hbusy rfl rfl

theorem Inv.continues (h : Inv x) {replies : ℕ → I2cReply} {l l' : Section} {dev : UnicamDevice}
    (hin : x.ioctl = .inside replies l)
    (hn : sectionStep m sensor replies l x.dev = (.inl l', dev)) :
    Inv { x with dev := dev, ioctl := .inside replies l' } := by
  have hup := sectionStep_steady hn
  obtain ⟨hcount, hptr⟩ := sectionStep_frame m sensor replies l x.dev
  rw [hn] at hcount hptr
  refine ⟨?_, fun hs _ => ?_, fun hi v hv => ?_, h.never, h.before, h.current, ?_⟩
  · intro replies' k hk
    cases hk
    rw [sectionStep_starts hn]
    exact hup.trans (h.inside _ _ hin)
  · exact hcount.trans (h.counted (hup.symm.trans hs) (by simp [hin]))
  · exact hptr.trans (h.pointer hi v hv)
  · exact fun i r hr => (h.reading i r hr).not_idle (by simp [hin]) rfl rfl

theorem Inv.returns (h : Inv x) {replies : ℕ → I2cReply} {l : Section} {ret : ℤ}
    {dev : UnicamDevice} (hin : x.ioctl = .inside replies l)
    (hn : sectionStep m sensor replies l x.dev = (.inr ret, dev)) :
    Inv { x with dev := dev, ioctl := leave l } := by
  obtain ⟨-, hptr⟩ := sectionStep_frame m sensor replies l x.dev
  rw [hn] at hptr
  refine ⟨?_, fun hs hne => ?_, fun hi v hv => ?_, h.never, h.before, h.current, ?_⟩
  · intro replies' k hk
    cases l <;> simp [leave] at hk
  · rw [sectionStep_returns hn (h.inside _ _ hin) hs] at hne
    exact absurd rfl hne
  · exact hptr.trans (h.pointer hi v hv)
  · exact fun i r hr => (h.reading i r hr).not_idle (by simp [hin]) rfl rfl

/-- What an ioctl does outside of the device: the last write of START begins a session. -/
theorem Inv.entered (h : Inv x) {replies : ℕ → I2cReply} {l : Section}
    (hin : x.ioctl = .inside replies l) :
    Inv (entered l x) ∧ (entered l x).ioctl = .inside replies l ∧ (entered l x).dev = x.dev := by
  rw [ReadCoherence.entered]
  cases he : enables l with
  | false => exact ⟨h, hin, rfl⟩
  | true =>
    have hstarts : starts l = true := by
      cases l <;> first | rfl | cases he
    have hdown : x.dev.streaming = false := by
      simpa [hstarts] using h.inside _ _ hin
    exact ⟨h.enabled hdown (by simp [hin]), hin, rfl⟩

theorem inv_ioctl (h : Inv x) (hok : undisturbed x (.ioctl : Action ι))
    (hs : ioctlStep m sensor x = some y) : Inv y := by
  rw [ioctlStep] at hs
  split at hs
  · cases hs
  · next replies l hin =>
    obtain ⟨hinv, hin', hdev⟩ := h.entered hin
    split at hs
    · next l' dev hn =>
      cases hs
      exact hinv.continues hin' (hdev ▸ hn)
    · next ret dev hn =>
      cases hs
      exact hinv.returns hin' (hdev ▸ hn)
  · next hin =>
    cases hs
    simp only [undisturbed, hin] at hok
    constructor
    · intro replies l hl
      cases hl
    · intro _ _
      simp [hok]
    · exact h.pointer
    · exact h.never
    · exact h.before
    · exact h.current
    · exact fun i r hr => (h.reading i r hr).not_idle (by simp [hin]) rfl rfl

/-- A statement of the handler, seen from a read under way. -/
theorem Reading.moved (h : Reading x r) (hepoch : y.epoch = x.epoch) (hioctl : y.ioctl = x.ioctl)
    (hstores : x.stores ≤ y.stores)
    (hsteady : inScope x r → r.torn = false → y.stores = r.stores →
      y.samples.length = r.handled ∧ y.isr ≠ .count) : Reading y r := by
  have hscope : inScope y r → inScope x r := fun hin => ⟨hin.1, hepoch.symm.trans hin.2⟩
  constructor
  · rw [hepoch]
    exact h.epoch_le
  · exact h.stores_le.trans hstores
  · exact fun hin => hioctl.trans (h.idle (hscope hin))
  · exact fun hin => h.count (hscope hin)
  · exact fun hin => hsteady (hscope hin)

/-- Nothing but the handler's place has changed. -/
theorem Inv.at_isr (h : Inv x) (dev : UnicamDevice) {pc : IsrPc} (hpc : pc ≠ .count)
    (hx : x.isr ≠ .count) (hcount : dev.frameCount = x.dev.frameCount)
    (hptr : dev.currentWritePtr = x.dev.currentWritePtr) (hup : dev.streaming = x.dev.streaming) :
    Inv { x with dev := dev, isr := pc } where
  inside replies l hl := hup.trans (h.inside replies l hl)
  counted hs hne := hcount.trans (h.counted (hup.symm.trans hs) hne)
  pointer _ v hv := hptr.trans (h.pointer hx v hv)
  never := h.never
  before := h.before
  current := h.current
  reading i r hr := by
    refine (h.reading i r hr).moved rfl rfl le_rfl ?_
    intro hin ht hst
    exact ⟨((h.reading i r hr).steady hin ht hst).1, hpc⟩

/-- The store of the pointer: every read under way has it between its loads. -/
theorem Inv.stored (h : Inv x) (p : BitVec 32) :
    Inv { x with
      dev := { x.dev with currentWritePtr := p }
      isr := .count
      stores := x.stores + 1
      ptrFrom := some x.session } where
  inside := h.inside
  counted := h.counted
  pointer hne := absurd rfl hne
  never h0 := absurd h0 (Nat.succ_ne_zero _)
  before := Nat.le_succ_of_le h.before
  current _ := rfl
  reading i r hr := by
    refine (h.reading i r hr).moved rfl rfl (Nat.le_succ _) ?_
    intro _ _ hst
    have hle := (h.reading i r hr).stores_le
    dsimp only at hst
    omega

/-- The count of a frame end: no steady read is under way. -/
theorem Inv.counts (h : Inv x) (hx : x.isr = .count) :
    Inv { x with
      dev := { x.dev with frameCount := x.dev.frameCount + 1 }
      isr := .idle
      samples := x.samples ++ [x.dev.currentWritePtr] } where
  inside := h.inside
  counted hs hne := by
    simp only [List.length_append, List.length_singleton, BitVec.ofNat_add]
    rw [h.counted hs hne]
    rfl
  pointer _ v hv := by
    simpa using hv
  never := h.never
  before := h.before
  current := h.current
  reading i r hr := by
    refine (h.reading i r hr).moved rfl rfl le_rfl ?_
    intro hin ht hst
    exact absurd hx ((h.reading i r hr).steady hin ht hst).2

theorem inv_isr (h : Inv x) : Inv (isrStep m x) := by
  rw [isrStep]
  cases hx : x.isr with
  | idle =>
    simp only
    split
    · exact h
    · exact h.at_isr x.dev (by simp) (by simp [hx]) rfl rfl rfl
  | clear ista => exact h.at_isr _ (by simp) (by simp [hx]) rfl rfl rfl
  | sample ista =>
    simp only
    split
    · exact h.stored _
    · exact h.at_isr x.dev (by simp) (by simp [hx]) rfl rfl rfl
  | count => exact h.counts hx

theorem reading_firstLoad (h : Inv x) : Reading x (firstLoad x) where
  epoch_le := le_refl _
  stores_le := le_refl _
  idle hin := by
    have hup := hin.1
    simp only [firstLoad, streams] at hup
    split at hup
    · next hidle => exact hidle
    · cases hup
  count hin := by
    have hup := hin.1
    simp only [firstLoad, streams] at hup
    split at hup
    · next hidle => exact h.counted hup (by simp [hidle])
    · cases hup
  steady hin ht _ := ⟨rfl, by simpa [firstLoad] using ht⟩

theorem inv_load [DecidableEq ι] (h : Inv x) (i : ι) : Inv (load i x) := by
  have hone : ∀ v, (∀ r, v = some r → Reading x r) →
      Inv { x with readers := Function.update x.readers i v } := by
    intro v hv
    refine ⟨h.inside, h.counted, h.pointer, h.never, h.before, h.current, fun j r hr => ?_⟩
    have hread : Reading x r := by
      by_cases hj : j = i
      · subst hj
        exact hv r (by simpa using hr)
      · exact h.reading j r (by simpa [hj] using hr)
    exact ⟨hread.epoch_le, hread.stores_le, hread.idle, hread.count, hread.steady⟩
  rw [load]
  split
  · exact hone _ (fun r hr => by cases hr; exact reading_firstLoad h)
  · exact hone _ (fun r hr => by cases hr)

theorem inv_step [DecidableEq ι] (h : Inv x) (hok : undisturbed x a)
    (hs : step m sensor x a = some y) : Inv y := by
  cases a with
  | begin call => exact inv_begin h hs
  | ioctl => exact inv_ioctl h hok hs
  | hardware ista ibwp =>
    cases hs
    exact ⟨h.inside, h.counted, h.pointer, h.never, h.before, h.current,
      fun i r hr => ⟨(h.reading i r hr).epoch_le, (h.reading i r hr).stores_le,
        (h.reading i r hr).idle, (h.reading i r hr).count, (h.reading i r hr).steady⟩⟩
  | isr =>
    cases hs
    exact inv_isr h
  | load i =>
    cases hs
    exact inv_load h i

theorem Inv.coherent (h : Inv x) {i : ι} (hr : x.readers i = some r) (hin : inScope x r)
    (hok : (r.count ≠ 0 → r.torn = false ∧ x.stores = r.stores) ∧
      (r.count = 0 → x.storesBefore = 0 ∨ x.storesBefore < x.stores)) : Coherent x r := by
  have hread := h.reading i r hr
  constructor
  · exact hread.count hin
  · intro hn
    obtain ⟨htorn, hstores⟩ := hok.1 hn
    obtain ⟨hlen, hisr⟩ := hread.steady hin htorn hstores
    have hpos : 0 < r.handled := by
      apply Nat.pos_of_ne_zero
      intro h0
      apply hn
      rw [hread.count hin, h0]
      rfl
    rw [← hlen] at hpos ⊢
    have hne : x.samples ≠ [] := List.ne_nil_of_length_pos hpos
    have hlast := List.getLast?_eq_some_getLast hne
    rw [h.pointer hisr _ hlast]
    exact ⟨hpos, by rw [← List.getLast?_eq_getElem?, hlast]⟩
  · intro hn
    have hcases : x.stores = 0 ∨ x.storesBefore < x.stores := by
      have hor := hok.2 hn
      omega
    cases hcases with
    | inl h0 => exact .inl (h.never h0)
    | inr hlt => exact .inr (h.current hlt)

/-- Where START resets the counter in time and every read is undisturbed, every read between
a START that returned 0 and the next ioctl delivers a coherent pair. -/
theorem read_coherent [DecidableEq ι] {regs : BitVec 32 → BitVec 32} {busAddr bufSize : BitVec 64}
    {as : List (Action ι)}
    (run : Run (Within undisturbed (Steps (step m sensor))) (.probed regs busAddr bufSize) as x) :
    Run (Within delivers (Steps (step m sensor))) (.probed regs busAddr bufSize) as x := by
  apply And.left
  apply run.upgrade Inv (inv_probed regs busAddr bufSize)
  · intro s a t hi hs
    exact inv_step hi hs.1 hs.2
  · intro s a t hi hs
    refine ⟨?_, hs.2⟩
    cases a with
    | load i => exact fun r hr hin => hi.coherent hr hin (hs.1 r hr hin)
    | begin call | ioctl | hardware ista ibwp | isr => trivial

/-- A START and the steps it takes when the sensor accepts the mode. -/
def startActions (n : ℕ) : List (Action Unit) :=
  .begin ⟨.start, sampleReplies 2⟩ :: List.replicate n .ioctl

def frameEnd (ibwp : BitVec 32) : List (Action Unit) :=
  .hardware sampleMap.fei ibwp :: List.replicate 4 .isr

/-- A read before the first frame end and one after it. -/
theorem read_coherent_first_frame : ∃ x : Driver Unit,
    Run (Within delivers (Steps (step sampleMap sampleSensor)))
      (.probed (fun _ => 0) 0x10000000 0x1000000)
      (startActions 20 ++ [.load (), .load ()] ++ frameEnd 0x10096000 ++ [.load (), .load ()]) x ∧
    x.dev.frameCount = 1 ∧ x.dev.currentWritePtr = 0x10096000 := by
  have run : (follow (guarded undisturbed (step sampleMap sampleSensor))
      (.probed (fun _ => 0) 0x10000000 0x1000000)
      (startActions 20 ++ [.load (), .load ()] ++ frameEnd 0x10096000 ++
        [.load (), .load ()])).map (fun x => (x.dev.frameCount, x.dev.currentWritePtr)) =
          some (1, 0x10096000) := by decide +kernel
  obtain ⟨x, hf, hx⟩ := Option.map_eq_some_iff.mp run
  simp only [Prod.mk.injEq] at hx
  exact ⟨x, read_coherent (run_within_steps_iff.mpr hf), hx⟩

/-- The first frame end is counted between the write of UNICAM_CPE and the `atomic_set`: the
read after START finds no frame although one was handled. -/
theorem counted_before_reset : ¬ ∀ (m : RegisterMap) (sensor : Imx219)
    (regs : BitVec 32 → BitVec 32) (busAddr bufSize : BitVec 64) (as : List (Action Unit))
    (x : Driver Unit),
    Run (Steps (step m sensor)) (.probed regs busAddr bufSize) as x →
      Run (Within delivers (Steps (step m sensor))) (.probed regs busAddr bufSize) as x := by
  intro hall
  have run : (follow (step sampleMap sampleSensor) (.probed (fun _ => 0) 0x10000000 0x1000000)
      (startActions 12 ++ frameEnd 0x10096000 ++ List.replicate 8 .ioctl ++ [.load ()])).map
        (fun x => (x.readers (), x.epoch)) = some (some ⟨0, 1, 1, 1, false, true⟩, 1) := by
    decide +kernel
  obtain ⟨x, hf, hx⟩ := Option.map_eq_some_iff.mp run
  simp only [Prod.mk.injEq] at hx
  have last : Steps (step sampleMap sampleSensor) x (.load ()) (load () x) := rfl
  have hrun := hall _ _ _ _ _ _ _ (.snoc (run_steps_iff.mpr hf) last)
  obtain ⟨t, hrun', hdelivers, -⟩ := run_snoc_iff.mp hrun
  have ht := run_steps_iff.mp hrun'.of_within
  cases hf.symm.trans ht
  have hcount := (hdelivers _ hx.1 ⟨rfl, hx.2⟩).count
  simp at hcount

end CameraDrivers.ReadCoherence
