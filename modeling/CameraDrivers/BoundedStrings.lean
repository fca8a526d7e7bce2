import Mathlib.Data.List.TakeWhile

/-!
# Strings in character arrays of a fixed size

`strscpy` of the kernel and what a reader finds afterwards, who stops at the first NUL. The
copy is cut to leave room for the NUL, and the result tells whether it was.
-/
namespace CameraDrivers.BoundedStrings

abbrev Byte := BitVec 8

def e2big : ℤ := 7

/-- One character for each turn of the loop; the last place is for the NUL. -/
def strscpy : List Byte → List Byte → ℤ × List Byte
  | [], _ => (-e2big, [])
  | [_], [] => (0, [0])
  | [_], _ :: _ => (-e2big, [0])
  | _ :: d :: dest, [] => (0, 0 :: d :: dest)
  | _ :: d :: dest, c :: src =>
    let copied := strscpy (d :: dest) src
    (if copied.1 < 0 then copied.1 else copied.1 + 1, c :: copied.2)

/-- What a reader of the array takes the string to be. -/
def text (bytes : List Byte) : List Byte := bytes.takeWhile (· ≠ 0)

/-- An array member of a structure. -/
structure CharArray (size : ℕ) where
  bytes : List Byte
  length_eq : bytes.length = size

def characters (s : String) : List Byte := s.toList.map (fun c => BitVec.ofNat 8 c.toNat)

variable {dest src : List Byte} {size : ℕ}

theorem strscpy_length (dest src : List Byte) : (strscpy dest src).2.length = dest.length := by
  induction dest generalizing src with
  | nil => rfl
  | cons d dest ih =>
    cases dest with
    | nil => cases src <;> rfl
    | cons e dest =>
      cases src with
      | nil => rfl
      | cons c src => simpa [strscpy] using ih src

/-- `strscpy(member, src, sizeof(member))`. -/
def CharArray.assign (dest : CharArray size) (src : List Byte) : CharArray size :=
  ⟨(strscpy dest.bytes src).2, by rw [strscpy_length, dest.length_eq]⟩

theorem text_cons {c : Byte} (hc : c ≠ 0) (bytes : List Byte) :
    text (c :: bytes) = c :: text bytes := by
  rw [text, List.takeWhile_cons_of_pos (by simpa using hc), text]

/-- The string that is read is the longest prefix that leaves room for the NUL, whatever the
array held before. -/
theorem text_strscpy (hdest : dest ≠ []) (hsrc : 0 ∉ src) :
    text (strscpy dest src).2 = src.take (dest.length - 1) := by
  induction dest generalizing src with
  | nil => exact absurd rfl hdest
  | cons d dest ih =>
    cases dest with
    | nil => cases src <;> simp [strscpy, text]
    | cons e dest =>
      cases src with
      | nil => simp [strscpy, text]
      | cons c src =>
        simp only [List.mem_cons, not_or] at hsrc
        have htail := ih (by simp) hsrc.2
        simp only [strscpy, text_cons (Ne.symm hsrc.1), htail]
        simp

theorem CharArray.text_assign (dest : CharArray size) (hsize : 0 < size) (hsrc : 0 ∉ src) :
    text (dest.assign src).bytes = src.take (size - 1) := by
  have hne : dest.bytes ≠ [] := List.ne_nil_of_length_pos (by rw [dest.length_eq]; exact hsize)
  rw [assign, text_strscpy hne hsrc, dest.length_eq]

end CameraDrivers.BoundedStrings
