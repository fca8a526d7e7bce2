import Mathlib.Data.BitVec
import Mathlib.Data.List.Basic
import Mathlib.Logic.Function.Basic

/-!
# Registers behind a serial bus

A device with registers of one byte. A message begins with the number of a register, as the
framing of the device has it; the bytes behind it are written from that register on, and a read
starts at the register that was named last.
-/
namespace CameraDrivers.RegisterPeripheral

universe u

abbrev Byte := BitVec 8

/-- How the number of a register stands at the head of a message. -/
structure Framing (α : Type u) where
  encode : α → List Byte
  decode : List Byte → Option (α × List Byte)
  succ : α → α
  decode_encode : ∀ a data, decode (encode a ++ data) = some (a, data)
  decode_cut : ∀ a k, k < (encode a).length → decode ((encode a).take k) = none

structure Peripheral (α : Type u) where
  regs : α → Byte
  pointer : α

variable {α : Type u} [DecidableEq α]

/-- The registers after the writes of a table. -/
def writeAll (table : List (α × Byte)) (regs : α → Byte) : α → Byte :=
  table.foldl (fun regs entry => Function.update regs entry.1 entry.2) regs

/-- The last value that a table has for a register. -/
def lastEntry (table : List (α × Byte)) (a : α) : Option Byte :=
  ((table.filter (fun entry => entry.1 = a)).getLast?).map Prod.snd

variable (f : Framing α)

def store : List Byte → Peripheral α → Peripheral α
  | [], p => p
  | v :: data, p => store data ⟨Function.update p.regs p.pointer v, f.succ p.pointer⟩

/-- A message that ends within the number of a register is lost. -/
def receive (bytes : List Byte) (p : Peripheral α) : Peripheral α :=
  match f.decode bytes with
  | none => p
  | some (a, data) => store f data { p with pointer := a }

omit [DecidableEq α] in
/-- A read sends the register at the pointer. -/
def Peripheral.send (p : Peripheral α) : Byte × Peripheral α :=
  (p.regs p.pointer, { p with pointer := f.succ p.pointer })

/-- A message, or the part of it after which the transfer broke off. -/
def Reaches (bytes : List Byte) (done : Prop) (p p' : Peripheral α) : Prop :=
  done ∧ p' = receive f bytes p ∨ ¬ done ∧ ∃ k, p' = receive f (bytes.take k) p

variable {f} {p p' : Peripheral α} {a b : α} {v : Byte} {table : List (α × Byte)}
  {regs : α → Byte} {done : Prop}

@[simp] theorem writeAll_nil (regs : α → Byte) : writeAll [] regs = regs := rfl

@[simp] theorem writeAll_cons (entry : α × Byte) (table : List (α × Byte)) (regs : α → Byte) :
    writeAll (entry :: table) regs = writeAll table (Function.update regs entry.1 entry.2) := rfl

theorem writeAll_append (table table' : List (α × Byte)) (regs : α → Byte) :
    writeAll (table ++ table') regs = writeAll table' (writeAll table regs) :=
  List.foldl_append

theorem lastEntry_concat (table : List (α × Byte)) (entry : α × Byte) (a : α) :
    lastEntry (table ++ [entry]) a = if entry.1 = a then some entry.2 else lastEntry table a := by
  by_cases h : entry.1 = a <;> simp [lastEntry, List.filter_append, h]

/-- A register holds the last value written to it, or what it held before. -/
theorem writeAll_apply (table : List (α × Byte)) (regs : α → Byte) (a : α) :
    writeAll table regs a = (lastEntry table a).getD (regs a) := by
  induction table using List.reverseRecOn with
  | nil => rfl
  | append_singleton table entry ih =>
    rw [writeAll_append, lastEntry_concat, writeAll_cons, writeAll_nil]
    by_cases h : entry.1 = a
    · subst h
      simp
    · rw [Function.update_of_ne (Ne.symm h), ih, if_neg h]

theorem lastEntry_eq_none : lastEntry table a = none ↔ ∀ entry ∈ table, entry.1 ≠ a := by
  simp [lastEntry]

theorem receive_encode (a : α) (data : List Byte) (p : Peripheral α) :
    receive f (f.encode a ++ data) p = store f data { p with pointer := a } := by
  rw [receive, f.decode_encode]

/-- A register number alone writes nothing. -/
theorem receive_address (a : α) (p : Peripheral α) :
    receive f (f.encode a) p = { p with pointer := a } := by
  have h := receive_encode (f := f) a [] p
  rwa [List.append_nil] at h

theorem receive_write (a : α) (v : Byte) (p : Peripheral α) :
    (receive f (f.encode a ++ [v]) p).regs = Function.update p.regs a v := by
  rw [receive_encode]
  rfl

theorem receive_address_cut (a : α) (k : ℕ) (p : Peripheral α) :
    (receive f ((f.encode a).take k) p).regs = p.regs := by
  by_cases hk : k < (f.encode a).length
  · rw [receive, f.decode_cut a k hk]
  · rw [List.take_of_length_le (by omega), receive_address]

/-- The write of one register happens as a whole or not at all. -/
theorem receive_write_cut (a : α) (v : Byte) (k : ℕ) (p : Peripheral α) :
    (receive f ((f.encode a ++ [v]).take k) p).regs = p.regs ∨
      (receive f ((f.encode a ++ [v]).take k) p).regs = Function.update p.regs a v := by
  by_cases hk : k ≤ (f.encode a).length
  · rw [List.take_append_of_le_length hk]
    exact .inl (receive_address_cut a k p)
  · rw [List.take_of_length_le (by simp; omega)]
    exact .inr (receive_write a v p)

theorem Reaches.write (h : Reaches f (f.encode a ++ [v]) done p p') :
    p'.regs = Function.update p.regs a v ∨ ¬ done ∧ p'.regs = p.regs := by
  rcases h with ⟨-, rfl⟩ | ⟨hd, k, rfl⟩
  · exact .inl (receive_write a v p)
  · rcases receive_write_cut (f := f) a v k p with hr | hr
    · exact .inr ⟨hd, hr⟩
    · exact .inl hr

theorem Reaches.address (h : Reaches f (f.encode a) done p p') :
    p'.regs = p.regs ∧ (done → p'.pointer = a) := by
  rcases h with ⟨-, rfl⟩ | ⟨hd, k, rfl⟩
  · rw [receive_address]
    exact ⟨rfl, fun _ => rfl⟩
  · exact ⟨receive_address_cut a k p, fun hc => absurd hc hd⟩

end CameraDrivers.RegisterPeripheral
