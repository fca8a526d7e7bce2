import Mathlib.Data.BitVec
import Mathlib.Data.List.Nodup

/-!
# A mailbox with one place

Empty buffers wait in line. Each tick of a clock fills the first of them into the one place of
the mailbox, or stamps the letter that is still there anew, and the reader empties the place.
The line and the place hold each buffer once, letters are taken in the order in which their
buffers were given, and the numbers on them count the ticks.
-/
namespace CameraDrivers.FrameMailbox

inductive Mode | idle | arming | live deriving DecidableEq

/-- `index` is history: the number of ticks of the session when the letter was stamped last. -/
structure Letter (β : Type*) (w : ℕ) where
  buffer : β
  time : ℕ
  number : BitVec w
  index : ℕ

/-- From `given` on the history of the session: the buffers in the order they were given, the
letters that were taken, the ticks that stamped a letter, those of them that stamped one
anew, and the ticks before the counter was reset. -/
structure Mailbox (β : Type*) (w : ℕ) where
  mode : Mode
  clock : ℕ
  count : BitVec w
  pending : List β
  slot : Option (Letter β w)
  given : List β
  taken : List (Letter β w)
  stamped : ℕ
  overwritten : ℕ
  early : ℕ

inductive Act (β : Type*)
  | give (b : β)
  | take | start | reset | stop
  | tick (elapsed : ℕ)

variable {β : Type*} {w : ℕ}

def Mailbox.initial (β : Type*) (w : ℕ) : Mailbox β w := ⟨.idle, 0, 0, [], none, [], [], 0, 0, 0⟩

/-- The buffers that are not with the reader. -/
def Mailbox.held (m : Mailbox β w) : List β := m.slot.toList.map Letter.buffer ++ m.pending

def give [DecidableEq β] (b : β) (m : Mailbox β w) : Mailbox β w :=
  if m.mode = .arming ∨ m.held.contains b then m
  else { m with pending := m.pending ++ [b], given := m.given ++ [b] }

def take (m : Mailbox β w) : Mailbox β w :=
  match m.mode, m.slot with
  | .live, some f => { m with slot := none, taken := m.taken ++ [f] }
  | _, _ => m

def start (m : Mailbox β w) : Mailbox β w :=
  if m.mode = .idle then { m with mode := .arming } else m

def reset (m : Mailbox β w) : Mailbox β w :=
  if m.mode = .arming then { m with mode := .live, count := 0 } else m

def stop (m : Mailbox β w) : Mailbox β w :=
  if m.mode = .arming then m
  else ⟨.idle, m.clock, m.count, [], none, [], [], 0, 0, 0⟩

/-- The letter in the place after a tick, and the buffers still in line. -/
def restamp (m : Mailbox β w) (now : ℕ) : Option (Letter β w × List β) :=
  match m.slot, m.pending with
  | some f, bs => some (⟨f.buffer, now, m.count, m.stamped + 1⟩, bs)
  | none, b :: bs => some (⟨b, now, m.count, m.stamped + 1⟩, bs)
  | none, [] => none

def tick (elapsed : ℕ) (m : Mailbox β w) : Mailbox β w :=
  let now := m.clock + elapsed
  match m.mode, restamp m now with
  | .idle, _ | _, none => { m with clock := now }
  | mode, some (f, bs) => { m with
      clock := now
      count := m.count + 1
      pending := bs
      slot := some f
      stamped := m.stamped + 1
      overwritten := m.overwritten + if m.slot.isSome then 1 else 0
      early := if mode = .arming then m.stamped + 1 else m.early }

def act [DecidableEq β] (m : Mailbox β w) : Act β → Mailbox β w
  | .give b => give b m
  | .take => take m
  | .start => start m
  | .reset => reset m
  | .stop => stop m
  | .tick elapsed => tick elapsed m

def after [DecidableEq β] (m : Mailbox β w) (as : List (Act β)) : Mailbox β w := as.foldl act m

/-- The letters of the session: those taken, and the one in the place. -/
def Mailbox.letters (m : Mailbox β w) : List (Letter β w) := m.taken ++ m.slot.toList

/-- The account of a session. -/
structure Accounted (m : Mailbox β w) : Prop where
  nodup : m.held.Nodup
  order : m.given = m.taken.map Letter.buffer ++ m.held
  idle : m.mode = .idle → m.slot = none ∧ m.taken = [] ∧ m.stamped = 0 ∧ m.overwritten = 0
  stamped : m.stamped = m.letters.length + m.overwritten
  latest : ∀ f ∈ m.slot, f.index = m.stamped
  increasing : m.letters.Pairwise (fun f g => f.index < g.index ∧ f.time ≤ g.time)
  bounded : ∀ f ∈ m.letters, 0 < f.index ∧ f.index ≤ m.stamped ∧ f.time ≤ m.clock
  early_le : m.early ≤ m.stamped
  arming : m.mode = .arming → m.early = m.stamped
  count : m.mode = .live → m.count = BitVec.ofNat w (m.stamped - m.early)
  numbers : ∀ f ∈ m.letters, m.early < f.index →
    f.number = BitVec.ofNat w (f.index - m.early - 1)

variable {m : Mailbox β w}

theorem accounted_initial (β : Type*) (w : ℕ) : Accounted (Mailbox.initial β w) := by
  constructor <;> simp [Mailbox.initial, Mailbox.held, Mailbox.letters]

theorem accounted_give [DecidableEq β] (h : Accounted m) (b : β) : Accounted (give b m) := by
  rw [give]
  split
  · exact h
  · next hfree =>
    simp only [List.contains_iff_mem, not_or] at hfree
    have hheld : m.slot.toList.map Letter.buffer ++ (m.pending ++ [b]) = m.held ++ [b] := by
      rw [Mailbox.held, List.append_assoc]
    refine ⟨?_, ?_, h.idle, h.stamped, h.latest, h.increasing, h.bounded, h.early_le, h.arming,
      h.count, h.numbers⟩
    · rw [Mailbox.held, hheld]
      refine List.nodup_append.mpr ⟨h.nodup, by simp, fun a ha c hc => ?_⟩
      rw [List.mem_singleton.mp hc]
      exact ne_of_mem_of_not_mem ha hfree.2
    · rw [Mailbox.held, hheld, h.order, List.append_assoc]

theorem take_some {f : Letter β w} (hm : m.mode = .live) (hs : m.slot = some f) :
    take m = { m with slot := none, taken := m.taken ++ [f] } := by
  simp [take, hm, hs]

theorem accounted_take (h : Accounted m) : Accounted (take m) := by
  cases hm : m.mode with
  | idle => rwa [take, hm]
  | arming => rwa [take, hm]
  | live =>
    cases hs : m.slot with
    | none => rwa [take, hm, hs]
    | some f =>
      have hletters : m.taken ++ [f] = m.letters := by simp [Mailbox.letters, hs]
      have hheld : m.held = f.buffer :: m.pending := by simp [Mailbox.held, hs]
      have hnodup := h.nodup
      have horder := h.order
      rw [hheld] at hnodup horder
      rw [take_some hm hs]
      refine ⟨(List.nodup_cons.mp hnodup).2, ?_, by simp [hm], ?_, by simp, ?_, ?_, h.early_le,
        h.arming, h.count, ?_⟩
      · simpa [Mailbox.held] using horder
      all_goals simp only [Mailbox.letters, Option.toList_none, List.append_nil, hletters]
      · exact h.stamped
      · exact h.increasing
      · exact h.bounded
      · exact h.numbers

theorem accounted_start (h : Accounted m) : Accounted (start m) := by
  rw [start]
  split
  · next hm =>
    obtain ⟨hslot, htaken, hstamped, hover⟩ := h.idle hm
    have hearly := h.early_le
    refine ⟨h.nodup, h.order, by simp, h.stamped, h.latest, h.increasing, h.bounded, h.early_le,
      fun _ => ?_, by simp, h.numbers⟩
    change m.early = m.stamped
    omega
  · exact h

theorem accounted_reset (h : Accounted m) : Accounted (reset m) := by
  rw [reset]
  split
  · next hm =>
    refine ⟨h.nodup, h.order, by simp, h.stamped, h.latest, h.increasing, h.bounded, h.early_le,
      by simp, fun _ => ?_, h.numbers⟩
    simp [h.arming hm]
  · exact h

theorem accounted_stop (h : Accounted m) : Accounted (stop m) := by
  rw [stop]
  split
  · exact h
  · constructor <;> simp [Mailbox.held, Mailbox.letters]

/-- A tick stamps no letter, or puts the one that is next into the place. -/
theorem tick_cases (elapsed : ℕ) (m : Mailbox β w) :
    (m.mode = .idle ∨ m.held = []) ∧ tick elapsed m = { m with clock := m.clock + elapsed } ∨
    m.mode ≠ .idle ∧ ∃ b bs, m.held = b :: bs ∧ tick elapsed m = { m with
      clock := m.clock + elapsed
      count := m.count + 1
      pending := bs
      slot := some ⟨b, m.clock + elapsed, m.count, m.stamped + 1⟩
      stamped := m.stamped + 1
      overwritten := m.overwritten + if m.slot.isSome then 1 else 0
      early := if m.mode = .arming then m.stamped + 1 else m.early } := by
  cases hs : m.slot with
  | some f =>
    have hheld : m.held = f.buffer :: m.pending := by simp [Mailbox.held, hs]
    cases hm : m.mode with
    | idle => exact .inl ⟨.inl rfl, by simp [tick, restamp, hs, hm]⟩
    | arming => exact .inr ⟨by simp, _, _, hheld, by simp [tick, restamp, hs, hm]⟩
    | live => exact .inr ⟨by simp, _, _, hheld, by simp [tick, restamp, hs, hm]⟩
  | none =>
    have hheld : m.held = m.pending := by simp [Mailbox.held, hs]
    cases hp : m.pending with
    | nil =>
      refine .inl ⟨.inr (hheld.trans hp), ?_⟩
      cases hm : m.mode <;> simp [tick, restamp, hs, hp, hm]
    | cons b bs =>
      rw [hp] at hheld
      cases hm : m.mode with
      | idle => exact .inl ⟨.inl rfl, by simp [tick, restamp, hs, hp, hm]⟩
      | arming => exact .inr ⟨by simp, _, _, hheld, by simp [tick, restamp, hs, hp, hm]⟩
      | live => exact .inr ⟨by simp, _, _, hheld, by simp [tick, restamp, hs, hp, hm]⟩

/-- A tick that finds the place empty adds a letter, one that does not is an overwrite. -/
theorem stamped_next (h : Accounted m) :
    m.stamped + 1 = m.taken.length + 1 + (m.overwritten + if m.slot.isSome then 1 else 0) := by
  have hs := h.stamped
  rw [Mailbox.letters] at hs
  cases hm : m.slot with
  | none =>
    simp only [hm, Option.toList_none, List.append_nil] at hs
    simp
    omega
  | some f =>
    simp only [hm, Option.toList_some, List.length_append, List.length_singleton] at hs
    simp
    omega

theorem accounted_tick (h : Accounted m) (elapsed : ℕ) : Accounted (tick elapsed m) := by
  rcases tick_cases elapsed m with ⟨-, ht⟩ | ⟨hmode, b, bs, hheld, ht⟩
  · rw [ht]
    refine ⟨h.nodup, h.order, h.idle, h.stamped, h.latest, h.increasing, fun f hf => ?_,
      h.early_le, h.arming, h.count, h.numbers⟩
    have hb := h.bounded f hf
    exact ⟨hb.1, hb.2.1, hb.2.2.trans (Nat.le_add_right _ _)⟩
  · have htaken : ∀ f ∈ m.taken, f.index ≤ m.stamped ∧ f.time ≤ m.clock := fun f hf =>
      (h.bounded f (List.mem_append_left _ hf)).2
    have hnodup := h.nodup
    have horder := h.order
    rw [hheld] at hnodup horder
    have hsub : m.taken.Sublist m.letters := List.sublist_append_left _ _
    rw [ht]
    refine ⟨?_, ?_, fun hm => absurd hm hmode, ?_, by simp, ?_, ?_, ?_, ?_, ?_, ?_⟩
    · simpa [Mailbox.held] using hnodup
    · simpa [Mailbox.held] using horder
    · simpa [Mailbox.letters] using stamped_next h
    all_goals simp only [Mailbox.letters, Option.toList_some]
    · refine List.pairwise_append.mpr ⟨h.increasing.sublist hsub, by simp, fun f hf g hg => ?_⟩
      obtain rfl := List.mem_singleton.mp hg
      have hb := htaken f hf
      exact ⟨by simp only; omega, by simp only; omega⟩
    · intro f hf
      rcases List.mem_append.mp hf with hf | hf
      · have hpos := h.bounded f (hsub.subset hf)
        omega
      · obtain rfl := List.mem_singleton.mp hf
        simp
    · have hearly := h.early_le
      split <;> omega
    · intro hm
      simp [hm]
    · intro hm
      have hsplit : m.stamped + 1 - m.early = m.stamped - m.early + 1 := by
        have hearly := h.early_le
        omega
      rw [if_neg (by simp [hm]), hsplit, h.count hm, BitVec.ofNat_add]
      rfl
    · intro f hf hlate
      cases hm : m.mode with
      | idle => exact absurd hm hmode
      | arming =>
        rw [if_pos hm] at hlate
        rcases List.mem_append.mp hf with hf | hf
        · have hb := htaken f hf
          omega
        · obtain rfl := List.mem_singleton.mp hf
          simp at hlate
      | live =>
        rw [if_neg (by simp [hm])] at hlate
        simp only [reduceCtorEq, if_false]
        rcases List.mem_append.mp hf with hf | hf
        · exact h.numbers f (hsub.subset hf) hlate
        · obtain rfl := List.mem_singleton.mp hf
          have hindex : m.stamped + 1 - m.early - 1 = m.stamped - m.early := by omega
          rw [hindex, h.count hm]

theorem accounted_act [DecidableEq β] (h : Accounted m) (a : Act β) : Accounted (act m a) := by
  cases a with
  | give b => exact accounted_give h b
  | take => exact accounted_take h
  | start => exact accounted_start h
  | reset => exact accounted_reset h
  | stop => exact accounted_stop h
  | tick elapsed => exact accounted_tick h elapsed

theorem accounted_after [DecidableEq β] (as : List (Act β)) :
    Accounted (after (Mailbox.initial β w) as) := by
  induction as using List.reverseRecOn with
  | nil => exact accounted_initial β w
  | append_singleton as a ih =>
    rw [after, List.foldl_append]
    exact accounted_act ih a

end CameraDrivers.FrameMailbox
