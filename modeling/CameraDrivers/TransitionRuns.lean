import Mathlib.Data.List.Forall2
import Mathlib.Data.List.Induction

/-!
# Finite runs of a labelled transition relation

A run is a finite sequence of labelled steps. `Within ok step` keeps the steps that
meet a condition on the state before the step, `Reaching good step` keeps the steps
that end in a good state. A property of every state reached by a run is thus a run
of `Reaching good step`, and a run whose steps all meet a condition is a run of
`Within ok step`.
-/
namespace CameraDrivers.TransitionRuns

universe u v w

variable {S : Type u} {A : Type v}

/-- Finite runs, extended at their end. -/
inductive Run (step : S → A → S → Prop) : S → List A → S → Prop
  | refl (s : S) : Run step s [] s
  | snoc {s t z : S} {as : List A} {a : A} (run : Run step s as t) (last : step t a z) :
      Run step s (as ++ [a]) z

def Within (ok : S → A → Prop) (step : S → A → S → Prop) (s : S) (a : A) (t : S) : Prop :=
  ok s a ∧ step s a t

def Reaching (good : S → Prop) (step : S → A → S → Prop) (s : S) (a : A) (t : S) : Prop :=
  step s a t ∧ good t

/-- The relation of an executable machine; `none` is a step that cannot be taken. -/
def Steps (next : S → A → Option S) (s : S) (a : A) (t : S) : Prop := next s a = some t

def Reachable (step : S → A → S → Prop) (s t : S) : Prop := ∃ as, Run step s as t

variable {step step' : S → A → S → Prop} {s t z : S} {as bs : List A}

theorem Run.single {a : A} (h : step s a t) : Run step s [a] t := .snoc (.refl s) h

theorem Run.append (h : Run step s as t) (h' : Run step t bs z) : Run step s (as ++ bs) z := by
  induction h' with
  | refl => simpa using h
  | snoc _ last ih => simpa only [List.append_assoc] using Run.snoc ih last

theorem run_nil_iff : Run step s [] t ↔ s = t := by
  constructor
  · intro h
    generalize he : ([] : List A) = bs at h
    cases h with
    | refl => rfl
    | snoc => simp at he
  · rintro rfl
    exact .refl s

theorem run_snoc_iff {a : A} : Run step s (as ++ [a]) z ↔ ∃ t, Run step s as t ∧ step t a z := by
  constructor
  · intro h
    generalize he : as ++ [a] = bs at h
    cases h with
    | refl => simp at he
    | snoc run last =>
      obtain ⟨rfl, hl⟩ := List.append_inj' he rfl
      cases hl
      exact ⟨_, run, last⟩
  · rintro ⟨t, run, last⟩
    exact .snoc run last

theorem run_append_iff : Run step s (as ++ bs) z ↔ ∃ t, Run step s as t ∧ Run step t bs z := by
  induction bs using List.reverseRecOn generalizing z with
  | nil => simp [run_nil_iff]
  | append_singleton bs b ih =>
    rw [← List.append_assoc, run_snoc_iff]
    simp only [ih, run_snoc_iff]
    constructor
    · rintro ⟨y, ⟨t, h, h'⟩, last⟩
      exact ⟨t, h, y, h', last⟩
    · rintro ⟨t, h, y, h', last⟩
      exact ⟨y, ⟨t, h, h'⟩, last⟩

theorem run_cons_iff {a : A} : Run step s (a :: as) z ↔ ∃ t, step s a t ∧ Run step t as z := by
  rw [← List.singleton_append, run_append_iff]
  constructor
  · rintro ⟨t, h, h'⟩
    rw [← List.nil_append [a], run_snoc_iff] at h
    obtain ⟨y, hy, first⟩ := h
    cases run_nil_iff.mp hy
    exact ⟨t, first, h'⟩
  · rintro ⟨t, first, h⟩
    exact ⟨t, .single first, h⟩

/-- Under an invariant, a run of one relation is a run of every relation that the steps from
the states of the invariant belong to. -/
theorem Run.upgrade (h : Run step s as t) (inv : S → Prop) (start : inv s)
    (preserved : ∀ s a t, inv s → step s a t → inv t)
    (enough : ∀ s a t, inv s → step s a t → step' s a t) : Run step' s as t ∧ inv t := by
  induction h with
  | refl => exact ⟨.refl _, start⟩
  | snoc _ last ih =>
    exact ⟨.snoc ih.1 (enough _ _ _ ih.2 last), preserved _ _ _ ih.2 last⟩

theorem Run.mono (hs : ∀ s a t, step s a t → step' s a t) (h : Run step s as t) :
    Run step' s as t :=
  (h.upgrade (fun _ => True) trivial (fun _ _ _ _ _ => trivial) (fun _ _ _ _ => hs _ _ _)).1

theorem Run.of_within {ok : S → A → Prop} (h : Run (Within ok step) s as t) : Run step s as t :=
  h.mono (fun _ _ _ hs => hs.2)

/-- The invariant rule: what holds at the start and survives every step holds at the end. -/
theorem Run.invariant (h : Run step s as t) (inv : S → Prop) (start : inv s)
    (preserved : ∀ s a t, inv s → step s a t → inv t) : inv t :=
  (h.upgrade inv start preserved (fun _ _ _ _ => id)).2

theorem Reachable.invariant (h : Reachable step s t) (inv : S → Prop) (start : inv s)
    (preserved : ∀ s a t, inv s → step s a t → inv t) : inv t :=
  h.elim (fun _ run => run.invariant inv start preserved)

/-- An invariant of the runs whose steps meet a condition makes every state they reach good. -/
theorem Run.reaching {good : S → Prop} {ok : S → A → Prop} (h : Run (Within ok step) s as t)
    (inv : S → Prop) (start : inv s) (preserved : ∀ s a t, inv s → ok s a → step s a t → inv t)
    (enough : ∀ s, inv s → good s) : Run (Reaching good step) s as t :=
  (h.upgrade inv start (fun _ _ _ hi hs => preserved _ _ _ hi hs.1 hs.2)
    (fun _ _ _ hi hs => ⟨hs.2, enough _ (preserved _ _ _ hi hs.1 hs.2)⟩)).1

/-- Where, in a reachable good state, a step ends in a good state exactly when it meets
the condition, the runs through good states are the runs whose steps meet the condition. -/
theorem reaching_iff_within (inv : S → Prop) {good : S → Prop} {ok : S → A → Prop} (start : inv s)
    (good_start : good s) (preserved : ∀ s a t, inv s → step s a t → inv t)
    (exact : ∀ s a t, inv s → good s → step s a t → (good t ↔ ok s a)) :
    Run (Reaching good step) s as t ↔ Run (Within ok step) s as t := by
  constructor
  · intro h
    refine (h.upgrade (fun s => inv s ∧ good s) ⟨start, good_start⟩ ?_ ?_).1
    · exact fun s a t hi hs => ⟨preserved _ _ _ hi.1 hs.1, hs.2⟩
    · exact fun s a t hi hs => ⟨(exact _ _ _ hi.1 hi.2 hs.1).mp hs.2, hs.1⟩
  · intro h
    apply h.reaching (fun s => inv s ∧ good s) ⟨start, good_start⟩
    · exact fun s a t hi hok hs =>
        ⟨preserved _ _ _ hi.1 hs, (exact _ _ _ hi.1 hi.2 hs).mpr hok⟩
    · exact fun s hi => hi.2

/-- Two conditions that say the same of every step from a state of an invariant allow the same
runs, if the invariant survives the steps that meet them. -/
theorem run_within_iff (inv : S → Prop) {ok ok' : S → A → Prop} (start : inv s)
    (preserved : ∀ s a t, inv s → ok' s a → step s a t → inv t)
    (same : ∀ s a t, inv s → step s a t → (ok s a ↔ ok' s a)) :
    Run (Within ok step) s as t ↔ Run (Within ok' step) s as t := by
  constructor
  · intro h
    refine (h.upgrade inv start ?_ ?_).1
    · exact fun s a t hi hs => preserved _ _ _ hi ((same _ _ _ hi hs.2).mp hs.1) hs.2
    · exact fun s a t hi hs => ⟨(same _ _ _ hi hs.2).mp hs.1, hs.2⟩
  · intro h
    refine (h.upgrade inv start ?_ ?_).1
    · exact fun s a t hi hs => preserved _ _ _ hi hs.1 hs.2
    · exact fun s a t hi hs => ⟨(same _ _ _ hi hs.2).mpr hs.1, hs.2⟩

/-- Evaluation of an executable machine along a list of labels. -/
def follow (next : S → A → Option S) : S → List A → Option S
  | s, [] => some s
  | s, a :: as => (next s a).bind (fun t => follow next t as)

theorem run_steps_iff {next : S → A → Option S} :
    Run (Steps next) s as t ↔ follow next s as = some t := by
  induction as generalizing s with
  | nil => simp [follow, run_nil_iff]
  | cons a as ih =>
    simp only [run_cons_iff, follow, Option.bind_eq_some_iff, ih]
    rfl

/-- An evaluation that ends is a run, and what was read off its result holds at the end. -/
theorem run_of_follow {B : Type*} {next : S → A → Option S} {f : S → B} {b : B}
    (h : (follow next s as).map f = some b) : ∃ t, Run (Steps next) s as t ∧ f t = b := by
  obtain ⟨t, hfollow, ht⟩ := Option.map_eq_some_iff.mp h
  exact ⟨t, run_steps_iff.mpr hfollow, ht⟩

/-- A machine that takes every step runs through every list of labels. -/
theorem run_foldl_iff {next : S → A → S} :
    Run (fun s a t => next s a = t) s as t ↔ as.foldl next s = t := by
  induction as generalizing s with
  | nil => exact run_nil_iff
  | cons a as ih => simp only [run_cons_iff, ih, List.foldl_cons, exists_eq_left']

/-- A machine that refuses the steps outside a condition. -/
def guarded (ok : S → A → Prop) [∀ s a, Decidable (ok s a)] (next : S → A → Option S) (s : S)
    (a : A) : Option S := if ok s a then next s a else none

theorem run_within_steps_iff {ok : S → A → Prop} [∀ s a, Decidable (ok s a)]
    {next : S → A → Option S} :
    Run (Within ok (Steps next)) s as t ↔ follow (guarded ok next) s as = some t := by
  rw [← run_steps_iff]
  have hsame : Within ok (Steps next) = Steps (guarded ok next) := by
    funext s a t
    by_cases h : ok s a <;> simp [Within, Steps, guarded, h]
  rw [hsame]

/-- A forward simulation: each step of the first machine is answered by a run of the second, and
`answers` says which runs answer which label. The two are related after every step. -/
theorem Run.simulate_labels {S' : Type w} {A' : Type*} {low : S' → A' → S' → Prop} {s' : S'}
    (h : Run step s as t) (related : S → S' → Prop) (answers : A → List A' → Prop)
    (start : related s s') (answer : ∀ s a t s', related s s' → step s a t →
      ∃ bs t', answers a bs ∧ Run low s' bs t' ∧ related t t') :
    ∃ bss t', List.Forall₂ answers as bss ∧ Run low s' bss.flatten t' ∧ related t t' ∧
      ∀ k, ∃ z z', Run step s (as.take k) z ∧ Run low s' (bss.take k).flatten z' ∧
        related z z' := by
  induction h with
  | refl =>
    refine ⟨[], s', .nil, .refl s', start, fun k => ⟨s, s', ?_, ?_, start⟩⟩
    · simpa using Run.refl s
    · simpa using Run.refl s'
  | @snoc t z as a run last ih =>
    obtain ⟨bss, y, hbss, low_run, hy, hprefix⟩ := ih
    obtain ⟨cs, y', hcs, low_last, hy'⟩ := answer _ _ _ _ hy last
    have hwhole : Run low s' (bss ++ [cs]).flatten y' := by
      rw [List.flatten_append, List.flatten_singleton]
      exact low_run.append low_last
    refine ⟨bss ++ [cs], y', List.rel_append hbss (.cons hcs .nil), hwhole, hy', fun k => ?_⟩
    by_cases hk : k ≤ as.length
    · rw [List.take_append_of_le_length hk, List.take_append_of_le_length (hbss.length_eq ▸ hk)]
      exact hprefix k
    · have hlen : bss.length = as.length := hbss.length_eq.symm
      rw [List.take_of_length_le (by simp; omega), List.take_of_length_le (by simp; omega)]
      exact ⟨z, y', run.snoc last, hwhole, hy'⟩

theorem Run.simulate {S' : Type w} {A' : Type*} {low : S' → A' → S' → Prop} {s' : S'}
    (h : Run step s as t) (related : S → S' → Prop) (start : related s s')
    (answer : ∀ s a t s', related s s' → step s a t →
      ∃ bs t', Run low s' bs t' ∧ related t t') :
    ∃ bs t', Run low s' bs t' ∧ related t t' := by
  obtain ⟨bss, t', -, run, ht, -⟩ := h.simulate_labels related (fun _ _ => True) start (by
    intro s a t s' hrel hs
    obtain ⟨bs, t', run, ht⟩ := answer s a t s' hrel hs
    exact ⟨bs, t', trivial, run, ht⟩)
  exact ⟨bss.flatten, t', run, ht⟩

end CameraDrivers.TransitionRuns
