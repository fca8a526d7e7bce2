import CameraDrivers.TransitionRuns
import Mathlib.Data.BitVec

/-!
# The format ioctls of rpi_camera

The handlers of camera_v4l2.c behind the V4L2 core, which clears the fields after `priv` for
callers that do not set its magic value, and gives G_FMT a cleared structure. S_FMT stores
what it returns, and G_FMT builds its answer from constants.
-/
namespace CameraDrivers.FormatIoctls
open TransitionRuns

structure PixFormat where
  width : BitVec 32
  height : BitVec 32
  pixelformat : BitVec 32
  field : BitVec 32
  bytesperline : BitVec 32
  sizeimage : BitVec 32
  colorspace : BitVec 32
  priv : BitVec 32
  flags : BitVec 32
  ycbcrEnc : BitVec 32
  quantization : BitVec 32
  xferFunc : BitVec 32
  deriving DecidableEq

/-- `rest` is what the union has behind `pix`. -/
structure V4l2Format where
  type : BitVec 32
  pix : PixFormat
  rest : BitVec 1216
  deriving DecidableEq

structure V4l2Fmtdesc where
  index : BitVec 32
  flags : BitVec 32
  description : String
  pixelformat : BitVec 32

def cameraWidth : BitVec 32 := 640
def cameraHeight : BitVec 32 := 480
def bytesPerPixel : BitVec 32 := 2

/-- `V4L2_PIX_FMT_YUYV`, the characters YUYV from the low byte on. -/
def cameraFmt : BitVec 32 := 0x56595559

def fieldNone : BitVec 32 := 1
def colorspaceSrgb : BitVec 32 := 8
def ycbcrEncDefault : BitVec 32 := 0
def quantizationDefault : BitVec 32 := 0
def xferFuncDefault : BitVec 32 := 0
def privMagic : BitVec 32 := 0xfeedcafe
def einval : ℤ := 22

def vidiocEnumFmtVidCap (f : V4l2Fmtdesc) : ℤ × V4l2Fmtdesc :=
  if f.index ≠ 0 then (-einval, f)
  else (0, { f with
    pixelformat := cameraFmt, description := "YUV 4: 2:2 (YUYV)", flags := 0 })

def vidiocTryFmtVidCap (f : V4l2Format) : ℤ × V4l2Format :=
  if f.pix.pixelformat ≠ cameraFmt then (-einval, f)
  else (0, { f with pix := { f.pix with
    width := cameraWidth
    height := cameraHeight
    field := fieldNone
    bytesperline := cameraWidth * bytesPerPixel
    sizeimage := cameraWidth * cameraHeight * bytesPerPixel
    colorspace := colorspaceSrgb
    ycbcrEnc := ycbcrEncDefault
    quantization := quantizationDefault
    xferFunc := xferFuncDefault } })

def vidiocGFmtVidCap (f : V4l2Format) : ℤ × V4l2Format :=
  (0, { f with pix := { f.pix with
    pixelformat := cameraFmt
    width := cameraWidth
    height := cameraHeight
    field := fieldNone
    bytesperline := cameraWidth * bytesPerPixel
    sizeimage := cameraWidth * cameraHeight * bytesPerPixel
    colorspace := colorspaceSrgb } })

/-- The last component is `cam->current_fmt`. -/
def vidiocSFmtVidCap (currentFmt f : V4l2Format) : ℤ × V4l2Format × V4l2Format :=
  let tried := vidiocTryFmtVidCap f
  if tried.1 < 0 then (tried.1, tried.2, currentFmt) else (0, tried.2, tried.2)

/-- The core, before TRY_FMT and S_FMT. -/
def sanitize (f : V4l2Format) : V4l2Format :=
  if f.pix.priv = privMagic then f
  else { f with pix := { f.pix with
    priv := privMagic, flags := 0, ycbcrEnc := 0, quantization := 0, xferFunc := 0 } }

/-- The core, before G_FMT. -/
def cleared (f : V4l2Format) : V4l2Format where
  type := f.type
  pix := ⟨0, 0, 0, 0, 0, 0, 0, privMagic, 0, 0, 0, 0⟩
  rest := 0

def tryFmt (f : V4l2Format) : ℤ × V4l2Format := vidiocTryFmtVidCap (sanitize f)

def gFmt (f : V4l2Format) : ℤ × V4l2Format := vidiocGFmtVidCap (cleared f)

def sFmt (currentFmt f : V4l2Format) : ℤ × V4l2Format × V4l2Format :=
  vidiocSFmtVidCap currentFmt (sanitize f)

/-- `lastSet` is history: the argument and the result of the last successful S_FMT. -/
structure Formats where
  currentFmt : V4l2Format
  lastSet : Option (V4l2Format × V4l2Format)

inductive Call
  | enumFmt (f : V4l2Fmtdesc)
  | tryFmt (f : V4l2Format)
  | sFmt (f : V4l2Format)
  | gFmt (f : V4l2Format)

def serve (s : Formats) : Call → Formats
  | .enumFmt _ | .tryFmt _ | .gFmt _ => s
  | .sFmt f =>
    let answer := sFmt s.currentFmt f
    { currentFmt := answer.2.2
      lastSet := if answer.1 = 0 then some (f, answer.2.1) else s.lastSet }

def step (s : Formats) (call : Call) (t : Formats) : Prop := serve s call = t

/-- TRY_FMT accepts its own result and the formats that ENUM_FMT lists, and an error leaves its
argument alone. -/
structure TryAgrees (f : V4l2Format) : Prop where
  again : (tryFmt f).1 = 0 → tryFmt (tryFmt f).2 = tryFmt f
  error : (tryFmt f).1 ≠ 0 → (tryFmt f).2 = sanitize f
  listed : (tryFmt f).1 = 0 ↔ ∃ desc, (vidiocEnumFmtVidCap desc).1 = 0 ∧
    (vidiocEnumFmtVidCap desc).2.pixelformat = f.pix.pixelformat

structure SetAgrees (currentFmt f : V4l2Format) : Prop where
  succeeds : (sFmt currentFmt f).1 = 0 ↔ (tryFmt f).1 = 0
  same : (sFmt currentFmt f).2.1 = (tryFmt f).2
  stored : (sFmt currentFmt f).1 = 0 → (sFmt currentFmt f).2.2 = (sFmt currentFmt f).2.1
  error : (sFmt currentFmt f).1 ≠ 0 →
    (sFmt currentFmt f).2.1 = sanitize f ∧ (sFmt currentFmt f).2.2 = currentFmt

/-- G_FMT returns the format that the last successful S_FMT returned. -/
def GetAgrees (s : Formats) (f : V4l2Format) : Prop :=
  ∀ set, s.lastSet = some set → (gFmt f).2.pix = set.2.pix

/-- The call agrees with the other ones, and only S_FMT changes `current_fmt`. -/
def agrees (s : Formats) : Call → Prop
  | .enumFmt f => (serve s (.enumFmt f)).currentFmt = s.currentFmt
  | .tryFmt f => TryAgrees f ∧ (serve s (.tryFmt f)).currentFmt = s.currentFmt
  | .sFmt f => SetAgrees s.currentFmt f
  | .gFmt f => GetAgrees s f ∧ (serve s (.gFmt f)).currentFmt = s.currentFmt

/-- The last S_FMT that a G_FMT looks back on was not given any flags. -/
def flagless (s : Formats) : Call → Prop
  | .gFmt _ => ∀ set, s.lastSet = some set → set.1.pix.priv = privMagic → set.1.pix.flags = 0
  | _ => True

variable {f : V4l2Format} {s t : Formats} {call : Call}

theorem sanitize_pixelformat (f : V4l2Format) :
    (sanitize f).pix.pixelformat = f.pix.pixelformat := by
  rw [sanitize]
  split <;> rfl

theorem sanitize_priv (f : V4l2Format) : (sanitize f).pix.priv = privMagic := by
  rw [sanitize]
  split
  · assumption
  · rfl

theorem sanitize_flags (f : V4l2Format) :
    (sanitize f).pix.flags = 0 ↔ (f.pix.priv = privMagic → f.pix.flags = 0) := by
  rw [sanitize]
  split
  · next hmagic => simp [hmagic]
  · next hmagic => simp [hmagic]

theorem tryFmt_iff (f : V4l2Format) : (tryFmt f).1 = 0 ↔ f.pix.pixelformat = cameraFmt := by
  rw [tryFmt, vidiocTryFmtVidCap, sanitize_pixelformat]
  split
  · next hother => simpa [einval] using hother
  · next hsame => simpa using hsame

/-- The result of a TRY_FMT that succeeds: all of the pixel format but the flags is fixed. -/
theorem tryFmt_result (h : (tryFmt f).1 = 0) : tryFmt f = (0, { sanitize f with
    pix := ⟨cameraWidth, cameraHeight, cameraFmt, fieldNone, cameraWidth * bytesPerPixel,
      cameraWidth * cameraHeight * bytesPerPixel, colorspaceSrgb, privMagic, (sanitize f).pix.flags,
      ycbcrEncDefault, quantizationDefault, xferFuncDefault⟩ }) := by
  have hpixel : (sanitize f).pix.pixelformat = cameraFmt :=
    (sanitize_pixelformat f).trans ((tryFmt_iff f).mp h)
  rw [tryFmt, vidiocTryFmtVidCap, if_neg (by simpa using hpixel)]
  congr 2
  dsimp only
  rw [hpixel, sanitize_priv]

theorem sanitize_of_magic (h : f.pix.priv = privMagic) : sanitize f = f := by
  rw [sanitize, if_pos h]

theorem tryAgrees (f : V4l2Format) : TryAgrees f where
  again h := by
    have hresult := tryFmt_result h
    rw [hresult, tryFmt, sanitize_of_magic rfl]
    rfl
  error h := by
    have hpixel : (sanitize f).pix.pixelformat ≠ cameraFmt := by
      intro he
      exact h ((tryFmt_iff f).mpr ((sanitize_pixelformat f).symm.trans he))
    rw [tryFmt, vidiocTryFmtVidCap, if_pos hpixel]
  listed := by
    rw [tryFmt_iff]
    constructor
    · intro hpixel
      exact ⟨⟨0, 0, "", 0⟩, rfl, hpixel.symm⟩
    · intro h
      obtain ⟨desc, hzero, hpixel⟩ := h
      rw [vidiocEnumFmtVidCap] at hzero hpixel
      split at hzero
      · cases hzero
      · next hindex =>
        rw [if_neg hindex] at hpixel
        exact hpixel.symm

theorem setAgrees (currentFmt f : V4l2Format) : SetAgrees currentFmt f := by
  have hset : sFmt currentFmt f = if (tryFmt f).1 < 0 then
      ((tryFmt f).1, (tryFmt f).2, currentFmt) else (0, (tryFmt f).2, (tryFmt f).2) := rfl
  have hret : (tryFmt f).1 < 0 ↔ (tryFmt f).1 ≠ 0 := by
    rw [tryFmt, vidiocTryFmtVidCap]
    split <;> simp [einval]
  by_cases hzero : (tryFmt f).1 = 0
  · rw [if_neg (fun hneg => hret.mp hneg hzero)] at hset
    rw [← hzero] at hset
    constructor <;> rw [hset]
    · exact fun _ => rfl
    · exact fun hne => absurd hzero hne
  · rw [if_pos (hret.mpr hzero)] at hset
    constructor <;> rw [hset]
    · exact fun hno => absurd hno hzero
    · exact fun _ => ⟨(tryAgrees f).error hzero, rfl⟩

/-- The history is that of S_FMTs that succeeded. -/
def History (s : Formats) : Prop :=
  ∀ set, s.lastSet = some set → (tryFmt set.1).1 = 0 ∧ set.2 = (tryFmt set.1).2

theorem history_step (h : History s) (hs : step s call t) : History t := by
  subst hs
  cases call with
  | enumFmt desc | tryFmt f | gFmt f => exact h
  | sFmt f =>
    have hset := setAgrees s.currentFmt f
    intro set hlast
    by_cases hzero : (sFmt s.currentFmt f).1 = 0
    · simp only [serve, if_pos hzero, Option.some.injEq] at hlast
      rw [← hlast]
      exact ⟨hset.succeeds.mp hzero, hset.same⟩
    · simp only [serve, if_neg hzero] at hlast
      exact h set hlast

/-- The answer to G_FMT has no flags, and apart from them it is every other answer. -/
theorem getAgrees_iff (h : History s) (f : V4l2Format) :
    GetAgrees s f ↔ flagless s (.gFmt f) := by
  refine forall₂_congr (fun set hlast => ?_)
  obtain ⟨hzero, hresult⟩ := h set hlast
  rw [hresult, tryFmt_result hzero, ← sanitize_flags]
  have hget : (gFmt f).2.pix = ⟨cameraWidth, cameraHeight, cameraFmt, fieldNone,
      cameraWidth * bytesPerPixel, cameraWidth * cameraHeight * bytesPerPixel, colorspaceSrgb,
      privMagic, 0, 0, 0, 0⟩ := rfl
  rw [hget]
  constructor
  · intro he
    exact (congrArg PixFormat.flags he).symm
  · intro hflags
    rw [hflags]
    rfl

theorem agrees_iff (h : History s) (call : Call) : agrees s call ↔ flagless s call := by
  cases call with
  | enumFmt desc => exact iff_of_true rfl trivial
  | tryFmt f => exact iff_of_true ⟨tryAgrees f, rfl⟩ trivial
  | sFmt f => exact iff_of_true (setAgrees s.currentFmt f) trivial
  | gFmt f =>
    constructor
    · intro hagrees
      exact (getAgrees_iff h f).mp hagrees.1
    · intro hflagless
      exact ⟨(getAgrees_iff h f).mpr hflagless, rfl⟩

/-- The ioctls agree in the runs in which no G_FMT looks back on flags. -/
theorem formats_run_iff (currentFmt : V4l2Format) (calls : List Call) (s : Formats) :
    Run (Within agrees step) ⟨currentFmt, none⟩ calls s ↔
      Run (Within flagless step) ⟨currentFmt, none⟩ calls s := by
  apply run_within_iff History
  · intro set hlast
    cases hlast
  · exact fun _ _ _ h _ hs => history_step h hs
  · exact fun _ call _ h _ => agrees_iff h call

/-- A YUYV format that asks for the driver's colorspace conversion. -/
def sampleFormat : V4l2Format where
  type := 1
  pix := ⟨640, 480, cameraFmt, 0, 0, 0, 0, privMagic, 2, 0, 0, 0⟩
  rest := 0

theorem get_forgets_flags : ¬ ∀ (currentFmt : V4l2Format) (calls : List Call) (s : Formats),
    Run step ⟨currentFmt, none⟩ calls s → Run (Within agrees step) ⟨currentFmt, none⟩ calls s := by
  intro hall
  have hrun := hall sampleFormat [.sFmt sampleFormat, .gFmt sampleFormat] _
    (run_cons_iff.mpr ⟨_, rfl, .single rfl⟩)
  obtain ⟨t, hfirst, hrest⟩ := run_cons_iff.mp hrun
  obtain ⟨u, hsecond, -⟩ := run_cons_iff.mp hrest
  have hstored : serve ⟨sampleFormat, none⟩ (.sFmt sampleFormat) = t := hfirst.2
  subst hstored
  have hflags := congrArg PixFormat.flags (hsecond.1.1 _ rfl)
  revert hflags
  decide

end CameraDrivers.FormatIoctls
