import CameraDrivers.UnicamIoctl

/-!
# The DMA buffer in user space

unicam_mmap compares the length of the vma with the buffer, and passes that length on to
dma_mmap_coherent as the size of the buffer. A page table sends pages of user space to pages of
the buffer, a page has `2 ^ pageShift` bytes.
-/
namespace CameraDrivers.BufferMapping
open UnicamState UnicamIoctl

def pageSize (pageShift : ℕ) : ℕ := 2 ^ pageShift

/-- The fields of `struct vm_area_struct` that the driver and its callee read. -/
structure VmArea (pageShift : ℕ) where
  vmStart : BitVec 64
  vmEnd : BitVec 64
  vmPgoff : BitVec 64
  nonempty : vmStart < vmEnd
  startAligned : pageSize pageShift ∣ vmStart.toNat
  endAligned : pageSize pageShift ∣ vmEnd.toNat

abbrev PageTable := ℕ → Option ℕ

/-- The device, and the pages of user space that show pages of its buffer. -/
structure Mapped where
  dev : UnicamDevice
  pages : PageTable

variable {pageShift : ℕ}

def VmArea.length (vma : VmArea pageShift) : ℕ := vma.vmEnd.toNat - vma.vmStart.toNat

/-- The first byte of the buffer that the vma asks for. -/
def VmArea.offset (vma : VmArea pageShift) : ℕ := vma.vmPgoff.toNat * pageSize pageShift

/-- `size` rounded up to pages. -/
def pageCount (pageShift : ℕ) (size : BitVec 64) : ℕ :=
  (size.toNat + (pageSize pageShift - 1)) / pageSize pageShift

/-- dma_mmap_coherent finds no room for the vma in a buffer of `size` bytes. -/
def Refused (vma : VmArea pageShift) (size : BitVec 64) : Prop :=
  pageCount pageShift size ≤ vma.vmPgoff.toNat ∨
    pageCount pageShift size - vma.vmPgoff.toNat < vma.length / pageSize pageShift

instance (vma : VmArea pageShift) (size : BitVec 64) : Decidable (Refused vma size) :=
  inferInstanceAs (Decidable (_ ∨ _))

/-- The pages of the vma show the buffer from page `vm_pgoff` on. -/
def mapPages (vma : VmArea pageShift) (pages : PageTable) : PageTable := fun page =>
  let first := vma.vmStart.toNat / pageSize pageShift
  if first ≤ page ∧ page < vma.vmEnd.toNat / pageSize pageShift then
    some (vma.vmPgoff.toNat + (page - first))
  else pages page

/-- The contract of dma_mmap_coherent, which has no other reason to fail. -/
structure Coherent (dmaMmapCoherent : VmArea pageShift → BitVec 64 → PageTable → ℤ × PageTable) :
    Prop where
  refuses : ∀ vma size pages, Refused vma size →
    (dmaMmapCoherent vma size pages).1 ≠ 0 ∧ (dmaMmapCoherent vma size pages).2 = pages
  maps : ∀ vma size pages, ¬ Refused vma size →
    dmaMmapCoherent vma size pages = (0, mapPages vma pages)

variable (dmaMmapCoherent : VmArea pageShift → BitVec 64 → PageTable → ℤ × PageTable)

def unicamMmap (vma : VmArea pageShift) (s : Mapped) : ℤ × Mapped :=
  let size := vma.vmEnd - vma.vmStart
  if size > s.dev.bufSize then (-einval, s)
  else
    let answer := dmaMmapCoherent vma size s.pages
    let mapped := { s with pages := answer.2 }
    if answer.1 ≠ 0 then (answer.1, mapped) else (0, mapped)

/-- The byte of the buffer that an address of user space shows. -/
def byteAt (pageShift : ℕ) (pages : PageTable) (address : ℕ) : Option ℕ :=
  (pages (address / pageSize pageShift)).map
    (fun page => page * pageSize pageShift + address % pageSize pageShift)

/-- The range of the vma lies inside the buffer. -/
def Inside (vma : VmArea pageShift) (dev : UnicamDevice) : Prop :=
  vma.offset + vma.length ≤ dev.bufSize.toNat

instance (vma : VmArea pageShift) (dev : UnicamDevice) : Decidable (Inside vma dev) :=
  inferInstanceAs (Decidable (_ ≤ _))

/-- The call succeeds for the ranges inside the buffer, maps exactly the bytes of the range, and
otherwise changes nothing. -/
structure MapsInside (vma : VmArea pageShift) (s : Mapped) : Prop where
  accepts : (unicamMmap dmaMmapCoherent vma s).1 = 0 ↔ Inside vma s.dev
  range : (unicamMmap dmaMmapCoherent vma s).1 = 0 → ∀ address,
    byteAt pageShift (unicamMmap dmaMmapCoherent vma s).2.pages address =
      if vma.vmStart.toNat ≤ address ∧ address < vma.vmEnd.toNat then
        some (vma.offset + (address - vma.vmStart.toNat))
      else byteAt pageShift s.pages address
  refuses : (unicamMmap dmaMmapCoherent vma s).1 ≠ 0 →
    (unicamMmap dmaMmapCoherent vma s).2.pages = s.pages
  device : (unicamMmap dmaMmapCoherent vma s).2.dev = s.dev

variable {dmaMmapCoherent} {vma : VmArea pageShift} {s : Mapped}

theorem pageSize_pos (pageShift : ℕ) : 0 < pageSize pageShift := Nat.two_pow_pos pageShift

theorem VmArea.start_lt (vma : VmArea pageShift) : vma.vmStart.toNat < vma.vmEnd.toNat :=
  vma.nonempty

theorem VmArea.toNat_size (vma : VmArea pageShift) :
    (vma.vmEnd - vma.vmStart).toNat = vma.length :=
  BitVec.toNat_sub_of_le (Nat.le_of_lt vma.nonempty)

theorem VmArea.length_dvd (vma : VmArea pageShift) : pageSize pageShift ∣ vma.length :=
  Nat.dvd_sub vma.endAligned vma.startAligned

theorem VmArea.pages_pos (vma : VmArea pageShift) : 0 < vma.length / pageSize pageShift := by
  have hlength : 0 < vma.length := Nat.sub_pos_of_lt vma.start_lt
  exact Nat.div_pos (Nat.le_of_dvd hlength vma.length_dvd) (pageSize_pos pageShift)

/-- The length of a vma is a whole number of pages, so rounding does nothing. -/
theorem pageCount_length (vma : VmArea pageShift) :
    pageCount pageShift (vma.vmEnd - vma.vmStart) = vma.length / pageSize pageShift := by
  have hpos := pageSize_pos pageShift
  obtain ⟨k, hk⟩ := vma.length_dvd
  rw [pageCount, vma.toNat_size, hk, Nat.mul_div_cancel_left k hpos, Nat.mul_add_div hpos,
    Nat.div_eq_of_lt (Nat.sub_lt hpos Nat.one_pos), Nat.add_zero]

/-- With its own length as the size of the buffer, a vma fits at offset 0 only. -/
theorem refused_iff (vma : VmArea pageShift) :
    Refused vma (vma.vmEnd - vma.vmStart) ↔ vma.vmPgoff ≠ 0 := by
  have hpages := vma.pages_pos
  rw [Refused, pageCount_length, ne_eq, BitVec.toNat_eq]
  change _ ↔ ¬ vma.vmPgoff.toNat = 0
  omega

/-- The mapping, read byte by byte. -/
theorem byteAt_mapPages (vma : VmArea pageShift) (pages : PageTable) (address : ℕ) :
    byteAt pageShift (mapPages vma pages) address =
      if vma.vmStart.toNat ≤ address ∧ address < vma.vmEnd.toNat then
        some (vma.offset + (address - vma.vmStart.toNat))
      else byteAt pageShift pages address := by
  have hpos := pageSize_pos pageShift
  obtain ⟨first, hfirst⟩ := vma.startAligned
  obtain ⟨last, hlast⟩ := vma.endAligned
  have hstart : vma.vmStart.toNat ≤ address ↔ first ≤ address / pageSize pageShift := by
    rw [hfirst, Nat.le_div_iff_mul_le hpos, Nat.mul_comm]
  have hend : address < vma.vmEnd.toNat ↔ address / pageSize pageShift < last := by
    rw [hlast, Nat.div_lt_iff_lt_mul hpos, Nat.mul_comm]
  simp only [byteAt, mapPages, hstart, hend]
  rw [hfirst, hlast, Nat.mul_div_cancel_left first hpos, Nat.mul_div_cancel_left last hpos]
  split
  · next hin =>
    have hdiv := Nat.div_add_mod address (pageSize pageShift)
    have hle := Nat.mul_le_mul_left (pageSize pageShift) hin.1
    rw [Option.map_some, Nat.add_mul, Nat.sub_mul, Nat.mul_comm (address / pageSize pageShift),
      Nat.mul_comm first, VmArea.offset]
    congr 1
    omega
  · rfl

theorem size_gt_iff (vma : VmArea pageShift) (bufSize : BitVec 64) :
    vma.vmEnd - vma.vmStart > bufSize ↔ bufSize.toNat < vma.length := by
  rw [← vma.toNat_size]
  rfl

theorem unicamMmap_refused (h : Coherent dmaMmapCoherent)
    (hout : s.dev.bufSize.toNat < vma.length ∨ vma.vmPgoff ≠ 0) :
    (unicamMmap dmaMmapCoherent vma s).1 ≠ 0 ∧ (unicamMmap dmaMmapCoherent vma s).2 = s := by
  rw [unicamMmap]
  split
  · have hret : -einval ≠ 0 := by decide
    exact ⟨hret, rfl⟩
  · next hsize =>
    rw [size_gt_iff] at hsize
    have hrefused := (refused_iff vma).mpr (hout.resolve_left hsize)
    obtain ⟨hret, hpages⟩ := h.refuses vma _ s.pages hrefused
    dsimp only
    rw [if_pos hret, hpages]
    exact ⟨hret, rfl⟩

theorem unicamMmap_mapped (h : Coherent dmaMmapCoherent)
    (hsize : vma.length ≤ s.dev.bufSize.toNat) (hpgoff : vma.vmPgoff = 0) :
    unicamMmap dmaMmapCoherent vma s = (0, { s with pages := mapPages vma s.pages }) := by
  have hfits : ¬ vma.vmEnd - vma.vmStart > s.dev.bufSize := by
    rw [size_gt_iff]
    exact Nat.not_lt.mpr hsize
  have hroom : ¬ Refused vma (vma.vmEnd - vma.vmStart) := by
    rw [refused_iff]
    exact not_not_intro hpgoff
  rw [unicamMmap, if_neg hfits, h.maps vma _ s.pages hroom]
  exact if_neg (not_not_intro rfl)

/-- The calls that succeed: the vma is no longer than the buffer and starts where it does. -/
theorem unicamMmap_zero_iff (h : Coherent dmaMmapCoherent) (vma : VmArea pageShift) (s : Mapped) :
    (unicamMmap dmaMmapCoherent vma s).1 = 0 ↔
      vma.length ≤ s.dev.bufSize.toNat ∧ vma.vmPgoff = 0 := by
  constructor
  · intro hzero
    by_contra hout
    rw [not_and_or, Nat.not_le] at hout
    exact (unicamMmap_refused h hout).1 hzero
  · intro hin
    rw [unicamMmap_mapped h hin.1 hin.2]

/-- Nothing outside the buffer is ever mapped, and what is mapped is the range of the vma. -/
theorem unicamMmap_effect (h : Coherent dmaMmapCoherent) (vma : VmArea pageShift) (s : Mapped) :
    ((unicamMmap dmaMmapCoherent vma s).1 = 0 ∧ Inside vma s.dev ∧
      (unicamMmap dmaMmapCoherent vma s).2 = { s with pages := mapPages vma s.pages }) ∨
    ((unicamMmap dmaMmapCoherent vma s).1 ≠ 0 ∧ (unicamMmap dmaMmapCoherent vma s).2 = s) := by
  by_cases hzero : (unicamMmap dmaMmapCoherent vma s).1 = 0
  · obtain ⟨hsize, hpgoff⟩ := (unicamMmap_zero_iff h vma s).mp hzero
    have hinside : Inside vma s.dev := by
      simpa [Inside, VmArea.offset, hpgoff] using hsize
    exact .inl ⟨hzero, hinside, congrArg Prod.snd (unicamMmap_mapped h hsize hpgoff)⟩
  · have hout : s.dev.bufSize.toNat < vma.length ∨ vma.vmPgoff ≠ 0 := by
      rw [unicamMmap_zero_iff h, not_and_or, Nat.not_le] at hzero
      exact hzero
    exact .inr ⟨hzero, (unicamMmap_refused h hout).2⟩

/-- Offset 0 is the only one at which the call succeeds. -/
theorem mapsInside_iff (h : Coherent dmaMmapCoherent) (vma : VmArea pageShift) (s : Mapped) :
    MapsInside dmaMmapCoherent vma s ↔ vma.vmPgoff = 0 ∨ ¬ Inside vma s.dev := by
  have heffect := unicamMmap_effect h vma s
  constructor
  · intro hmaps
    by_cases hinside : Inside vma s.dev
    · exact .inl ((unicamMmap_zero_iff h vma s).mp (hmaps.accepts.mpr hinside)).2
    · exact .inr hinside
  · intro hor
    constructor
    · constructor
      · intro hzero
        rcases heffect with ⟨-, hinside, -⟩ | ⟨hret, -⟩
        · exact hinside
        · exact absurd hzero hret
      · intro hinside
        have hpgoff := hor.resolve_right (not_not_intro hinside)
        apply (unicamMmap_zero_iff h vma s).mpr
        exact ⟨(Nat.le_add_left _ _).trans hinside, hpgoff⟩
    · intro hzero address
      rcases heffect with ⟨-, -, hstate⟩ | ⟨hret, -⟩
      · rw [hstate]
        exact byteAt_mapPages vma s.pages address
      · exact absurd hzero hret
    · intro hret
      rcases heffect with ⟨hzero, -, -⟩ | ⟨-, hstate⟩
      · exact absurd hzero hret
      · rw [hstate]
    · rcases heffect with ⟨-, -, hstate⟩ | ⟨-, hstate⟩
      · rw [hstate]
      · rw [hstate]

/-- dma_mmap_coherent with -ENXIO for the ranges that do not fit. -/
def sampleMmap (vma : VmArea pageShift) (size : BitVec 64) (pages : PageTable) : ℤ × PageTable :=
  if Refused vma size then (-6, pages) else (0, mapPages vma pages)

theorem coherent_sampleMmap : Coherent (@sampleMmap pageShift) where
  refuses vma size pages hrefused := by
    have hret : (-6 : ℤ) ≠ 0 := by decide
    rw [sampleMmap, if_pos hrefused]
    exact ⟨hret, rfl⟩
  maps vma size pages hroom := if_neg hroom

/-- The second page of the buffer. -/
def secondPage : VmArea 12 where
  vmStart := 0x10000
  vmEnd := 0x11000
  vmPgoff := 1
  nonempty := by decide
  startAligned := by decide
  endAligned := by decide

theorem mapsInside_buffer : MapsInside sampleMmap
    { secondPage with vmPgoff := 0 } ⟨sampleDevice, fun _ => none⟩ :=
  (mapsInside_iff coherent_sampleMmap _ _).mpr (.inl rfl)

theorem second_page_refused : ¬ ∀ (pageShift : ℕ)
    (dmaMmapCoherent : VmArea pageShift → BitVec 64 → PageTable → ℤ × PageTable),
    Coherent dmaMmapCoherent → ∀ (vma : VmArea pageShift) (s : Mapped),
      MapsInside dmaMmapCoherent vma s := by
  intro hall
  have hmaps := hall 12 sampleMmap coherent_sampleMmap secondPage ⟨sampleDevice, fun _ => none⟩
  have hinside : Inside secondPage sampleDevice := by decide
  have hzero := hmaps.accepts.mpr hinside
  have hpgoff := ((unicamMmap_zero_iff coherent_sampleMmap _ _).mp hzero).2
  revert hpgoff
  decide

end CameraDrivers.BufferMapping
