import CameraDrivers.TransitionRuns

/-!
# Serial orders of calls whose sections exclude each other

A call tests a shared state. The test answers it at once, or the call works on the state in
a section of several steps, and only the last of these changes what the tests read. Where
no call enters its section while another is inside one, the interleaved run has a serial
order with the same results and the same final state.
-/
namespace CameraDrivers.ExclusiveSections
open TransitionRuns

universe u v w x

/-- Calls `ι` on a shared state `σ`, with positions `κ` inside a section and results `ρ`. -/
structure Calls (ι : Type u) (σ : Type v) (κ : Type w) (ρ : Type x) where
  test : ι → σ → Option ρ
  start : ι → σ → κ
  next : ι → κ → σ → (κ ⊕ ρ) × σ
  steady : ∀ {i l s l' s'}, next i l s = (.inl l', s') → ∀ j, test j s' = test j s

inductive Status (κ : Type w) (ρ : Type x)
  | waiting
  | inside (l : κ)
  | returned (r : ρ)

structure Interleaved (ι : Type u) (σ : Type v) (κ : Type w) (ρ : Type x) where
  shared : σ
  status : ι → Status κ ρ

variable {ι : Type u} {σ : Type v} {κ : Type w} {ρ : Type x} [DecidableEq ι]

def Interleaved.initial (s : σ) : Interleaved ι σ κ ρ := ⟨s, fun _ => .waiting⟩

def Interleaved.set (y : Interleaved ι σ κ ρ) (i : ι) (st : Status κ ρ) (s : σ) :
    Interleaved ι σ κ ρ := ⟨s, Function.update y.status i st⟩

variable (c : Calls ι σ κ ρ)

/-- One step of call `i`. -/
def step (y : Interleaved ι σ κ ρ) (i : ι) : Option (Interleaved ι σ κ ρ) :=
  match y.status i with
  | .waiting =>
    match c.test i y.shared with
    | some r => some (y.set i (.returned r) y.shared)
    | none => some (y.set i (.inside (c.start i y.shared)) y.shared)
  | .inside l =>
    match c.next i l y.shared with
    | (.inl l', s) => some (y.set i (.inside l') s)
    | (.inr r, s) => some (y.set i (.returned r) s)
  | .returned _ => none

/-- The rest of a section, run without interruption to a result and a state. -/
inductive Finishes (i : ι) : κ → σ → ρ × σ → Prop
  | stop {l s r s'} (last : c.next i l s = (.inr r, s')) : Finishes i l s (r, s')
  | more {l s l' s' out} (first : c.next i l s = (.inl l', s')) (rest : Finishes i l' s' out) :
      Finishes i l s out

/-- A call that runs alone, labelled with its result. -/
def Alone (s : σ) (call : ι × ρ) (t : σ) : Prop :=
  c.test call.1 s = some call.2 ∧ t = s ∨
    c.test call.1 s = none ∧ Finishes c call.1 (c.start call.1 s) s (call.2, t)

/-- Nobody is inside a section when a call enters one. -/
def exclusive (y : Interleaved ι σ κ ρ) (i : ι) : Prop :=
  y.status i = .waiting → c.test i y.shared = none → ∀ j l, y.status j ≠ .inside l

variable {c} {y z : Interleaved ι σ κ ρ} {s s₀ t : σ} {i : ι} {l : κ} {r : ρ}
  {order : List (ι × ρ)}

theorem step_answered (hw : y.status i = .waiting) (ht : c.test i y.shared = some r) :
    step c y i = some (y.set i (.returned r) y.shared) := by simp [step, hw, ht]

theorem step_enters (hw : y.status i = .waiting) (ht : c.test i y.shared = none) :
    step c y i = some (y.set i (.inside (c.start i y.shared)) y.shared) := by simp [step, hw, ht]

theorem step_inside (hl : y.status i = .inside l) {out : κ ⊕ ρ}
    (hn : c.next i l y.shared = (out, t)) :
    step c y i = some (y.set i (out.elim .inside .returned) t) := by
  cases out <;> simp [step, hl, hn]

omit [DecidableEq ι] in
theorem Finishes.unique {out out' : ρ × σ} (h : Finishes c i l s out)
    (h' : Finishes c i l s out') : out = out' := by
  induction h with
  | stop last =>
    cases h' with
    | stop last' =>
      rw [last] at last'
      cases last'
      rfl
    | more first' _ =>
      rw [last] at first'
      cases first'
  | more first _ ih =>
    cases h' with
    | stop last' =>
      rw [first] at last'
      cases last'
    | more first' rest' =>
      rw [first] at first'
      cases first'
      exact ih rest'

/-- The results so far, in an order in which the calls have run alone from `s₀` to `s`. -/
structure Ordered (c : Calls ι σ κ ρ) (s₀ : σ) (y : Interleaved ι σ κ ρ) (order : List (ι × ρ))
    (s : σ) : Prop where
  run : Run (Alone c) s₀ order s
  nodup : (order.map Prod.fst).Nodup
  returned_iff : ∀ i r, (i, r) ∈ order ↔ y.status i = .returned r

/-- At most one call is inside its section. What it has done so far leads, without
interruption, to what it does alone, and the tests do not see it. -/
inductive Serial (c : Calls ι σ κ ρ) (s₀ : σ) (y : Interleaved ι σ κ ρ) : Prop
  | quiet (order : List (ι × ρ)) (ordered : Ordered c s₀ y order y.shared)
      (nobody : ∀ i l, y.status i ≠ .inside l)
  | busy (order : List (ι × ρ)) (s : σ) (i : ι) (l : κ) (ordered : Ordered c s₀ y order s)
      (inside : y.status i = .inside l) (alone : ∀ j l', y.status j = .inside l' → j = i)
      (leads : ∀ r t, Finishes c i l y.shared (r, t) → Alone c s (i, r) t)
      (unseen : ∀ j, c.test j y.shared = c.test j s)

omit [DecidableEq ι] in
theorem serial_initial (c : Calls ι σ κ ρ) (s : σ) : Serial c s (.initial s) :=
  .quiet [] ⟨.refl s, by simp, by simp [Interleaved.initial]⟩ (by simp [Interleaved.initial])

/-- A call that returns is next in the order. -/
theorem Ordered.returns (h : Ordered c s₀ y order s) (hi : ∀ r, y.status i ≠ .returned r)
    (halone : Alone c s (i, r) t) (s' : σ) :
    Ordered c s₀ (y.set i (.returned r) s') (order ++ [(i, r)]) t := by
  have hnew : ∀ r', (i, r') ∉ order := fun r' hm => hi r' ((h.returned_iff i r').mp hm)
  refine ⟨.snoc h.run halone, ?_, fun j r' => ?_⟩
  · rw [List.map_append, List.nodup_append]
    refine ⟨h.nodup, by simp, ?_⟩
    intro j hj k hk e
    obtain ⟨⟨j, r'⟩, hm, rfl⟩ := List.mem_map.mp hj
    have hki : k = i := by simpa using hk
    exact hnew r' (hki ▸ e ▸ hm)
  · by_cases hj : j = i
    · subst hj
      simp only [List.mem_append, hnew, false_or, List.mem_singleton, Prod.mk.injEq, true_and,
        Interleaved.set, Function.update_self, Status.returned.injEq]
      exact eq_comm
    · simp [Interleaved.set, hj, h.returned_iff]

/-- A call that goes on inside its section leaves the order as it is. -/
theorem Ordered.continues (h : Ordered c s₀ y order s) (hi : ∀ r, y.status i ≠ .returned r)
    (l : κ) (s' : σ) : Ordered c s₀ (y.set i (.inside l) s') order s := by
  refine ⟨h.run, h.nodup, fun j r => ?_⟩
  by_cases hj : j = i
  · subst hj
    simp [Interleaved.set, h.returned_iff, hi]
  · simp [Interleaved.set, hj, h.returned_iff]

theorem serial_step (h : Serial c s₀ y) (hok : exclusive c y i) (hs : step c y i = some z) :
    Serial c s₀ z := by
  rw [step] at hs
  split at hs
  · next hw =>
    have hi : ∀ r, y.status i ≠ .returned r := by simp [hw]
    split at hs <;> cases hs
    · next r ht =>
      -- the test answers the call, whether or not another one is inside its section
      cases h with
      | quiet order ordered nobody =>
        refine .quiet _ (ordered.returns hi (.inl ⟨ht, rfl⟩) _) (fun j l => ?_)
        by_cases hj : j = i
        · simp [Interleaved.set, hj]
        · simpa [Interleaved.set, hj] using nobody j l
      | busy order s k l ordered inside alone leads unseen =>
        have hk : k ≠ i := by
          rintro rfl
          simp [inside] at hw
        have ht' : c.test i s = some r := (unseen i).symm.trans ht
        refine .busy _ s k l (ordered.returns hi (.inl ⟨ht', rfl⟩) _) ?_ (fun j l' hj => ?_) leads
          unseen
        · simpa [Interleaved.set, hk] using inside
        · by_cases hji : j = i
          · simp [Interleaved.set, hji] at hj
          · exact alone j l' (by simpa [Interleaved.set, hji] using hj)
    · next ht =>
      cases h with
      | quiet order ordered nobody =>
        refine .busy order y.shared i (c.start i y.shared) (ordered.continues hi _ _)
          (by simp [Interleaved.set]) (fun j l' hj => ?_) (fun r t hf => .inr ⟨ht, hf⟩)
          (fun _ => rfl)
        by_contra hji
        exact nobody j l' (by simpa [Interleaved.set, hji] using hj)
      | busy order s k l ordered inside _ _ _ => exact absurd inside (hok hw ht k l)
  · next l hin =>
    have hi : ∀ r, y.status i ≠ .returned r := by simp [hin]
    cases h with
    | quiet order ordered nobody => exact absurd hin (nobody i l)
    | busy order s k l₀ ordered inside alone leads unseen =>
      obtain rfl := alone i l hin
      rw [hin] at inside
      cases inside
      split at hs <;> cases hs
      · next l' s' hn =>
        refine .busy order s i l' (ordered.continues hi _ _) (by simp [Interleaved.set])
          (fun j l'' hj => ?_) (fun r t hf => leads r t (.more hn hf))
          (fun j => (c.steady hn j).trans (unseen j))
        by_cases hji : j = i
        · exact hji
        · exact alone j l'' (by simpa [Interleaved.set, hji] using hj)
      · next r s' hn =>
        refine .quiet _ (ordered.returns hi (leads r s' (.stop hn)) _) (fun j l' hj => ?_)
        by_cases hji : j = i
        · simp [Interleaved.set, hji] at hj
        · exact hji (alone j l' (by simpa [Interleaved.set, hji] using hj))
  · cases hs

/-- A run whose calls enter their sections one at a time, once all of them have returned,
has the results and the final state of a serial run. -/
theorem serialisable {is : List ι}
    (run : Run (Within (exclusive c) (Steps (step c))) (.initial s₀) is y)
    (done : ∀ i, ∃ r, y.status i = .returned r) :
    ∃ order, Run (Alone c) s₀ order y.shared ∧ (order.map Prod.fst).Nodup ∧
      ∀ i r, (i, r) ∈ order ↔ y.status i = .returned r := by
  have h : Serial c s₀ y := run.invariant (Serial c s₀) (serial_initial c s₀)
    (fun _ _ _ h hs => serial_step h hs.1 hs.2)
  cases h with
  | quiet order ordered _ => exact ⟨order, ordered.run, ordered.nodup, ordered.returned_iff⟩
  | busy _ _ i l _ inside _ _ _ =>
    obtain ⟨r, hr⟩ := done i
    rw [inside] at hr
    cases hr

end CameraDrivers.ExclusiveSections
