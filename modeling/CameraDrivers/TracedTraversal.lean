import CameraDrivers.LinkedListHeap

/-!
# Traversals of a circular list with their pointer accesses

The loop of `list_for_each_entry_safe` with a trace of the cells whose pointers it and its body
follow, of the cells that are deleted, and of the calls that the body makes. Without the trace
it is the loop of `LinkedListHeap`. A body that deletes each cell it is given walks the
list of a ring once, in order, and no pointer of a deleted cell is followed.
-/
namespace CameraDrivers.TracedTraversal
open LinkedListHeap

/-- A read of the pointers of a cell, its deletion, or a call of something else. -/
inductive Access (κ ε : Type*)
  | follow (c : κ)
  | delete (c : κ)
  | emit (e : ε)

variable {κ σ ε : Type*} [DecidableEq κ]

/-- `__list_del_entry` reads both pointers of the entry. -/
def tracedListDel (l : ListHeap κ) (entry : κ) : Option (ListHeap κ × List (Access κ ε)) :=
  (listDel l entry).map (fun l' => (l', [.follow entry, .follow entry, .delete entry]))

def tracedFrom (heapOf : σ → ListHeap κ) (head : κ)
    (body : κ → σ → Option (σ × List (Access κ ε))) :
    ℕ → κ → Link κ → σ → Option (σ × List (Access κ ε))
  | 0, pos, _, s => if pos = head then some (s, []) else none
  | fuel + 1, pos, n, s =>
    if pos = head then some (s, [])
    else match n with
      | .cell c => (body pos s).bind (fun t =>
          (tracedFrom heapOf head body fuel c ((heapOf t.1).next c) t.1).map (fun z =>
            (z.1, t.2 ++ .follow c :: z.2)))
      | _ => none

def tracedForEachEntrySafe (heapOf : σ → ListHeap κ) (head : κ)
    (body : κ → σ → Option (σ × List (Access κ ε))) (fuel : ℕ) (s : σ) :
    Option (σ × List (Access κ ε)) :=
  match (heapOf s).next head with
  | .cell first =>
    (tracedFrom heapOf head body fuel first ((heapOf s).next first) s).map (fun z =>
      (z.1, .follow head :: .follow first :: z.2))
  | _ => none

/-- No pointer of a deleted cell is followed afterwards. -/
def FollowsLive (trace : List (Access κ ε)) : Prop :=
  trace.Pairwise (fun e e' => ∀ c, e = .delete c → e' ≠ .follow c)

def emitted (trace : List (Access κ ε)) : List ε :=
  trace.filterMap (fun
    | .emit e => some e
    | _ => none)

def deleted (trace : List (Access κ ε)) : List κ :=
  trace.filterMap (fun
    | .delete c => some c
    | _ => none)

/-- A body that unlinks its cell and then makes some calls. -/
def unlinkTrace (calls : κ → List ε) (x : κ) : List (Access κ ε) :=
  [.follow x, .follow x, .delete x] ++ (calls x).map .emit

def passTrace (head : κ) (calls : κ → List ε) : List κ → List (Access κ ε)
  | [] => []
  | x :: xs => unlinkTrace calls x ++ .follow (xs.headD head) :: passTrace head calls xs

/-- The trace of a loop that unlinks the cells `xs` one by one. -/
def drainTrace (head : κ) (calls : κ → List ε) (xs : List κ) : List (Access κ ε) :=
  .follow head :: .follow (xs.headD head) :: passTrace head calls xs

variable {head : κ} {xs : List κ} {calls : κ → List ε}

theorem tracedListDel_erases (l : ListHeap κ) (entry : κ) :
    (tracedListDel l entry : Option (ListHeap κ × List (Access κ ε))).map Prod.fst =
      listDel l entry := by
  rw [tracedListDel, Option.map_map]
  exact Option.map_id'

section Loop

variable {heapOf : σ → ListHeap κ} {body : κ → σ → Option (σ × List (Access κ ε))}
variable {inv : List κ → σ → Prop}

theorem tracedFrom_erases (fuel : ℕ) (pos : κ) (n : Link κ) (s : σ) :
    (tracedFrom heapOf head body fuel pos n s).map Prod.fst =
      forEachFrom heapOf head (fun c s => (body c s).map Prod.fst) fuel pos n s := by
  induction fuel generalizing pos n s with
  | zero =>
    simp only [tracedFrom, forEachFrom]
    split <;> rfl
  | succ fuel ih =>
    by_cases hpos : pos = head
    · simp only [tracedFrom, forEachFrom, if_pos hpos, Option.map_some]
    · cases n with
      | cell c =>
        simp only [tracedFrom, forEachFrom, if_neg hpos, Option.map_bind, Option.bind_map]
        congr 1
        funext t
        simp only [Function.comp_apply, Option.map_map]
        exact ih c _ t.1
      | null | poison1 | poison2 =>
        simp only [tracedFrom, forEachFrom, if_neg hpos, Option.map_none]

/-- The trace is all that the traced loop adds. -/
theorem tracedForEachEntrySafe_erases (fuel : ℕ) (s : σ) :
    (tracedForEachEntrySafe heapOf head body fuel s).map Prod.fst =
      listForEachEntrySafe heapOf head (fun c s => (body c s).map Prod.fst) fuel s := by
  cases hn : (heapOf s).next head with
  | cell first =>
    simp only [tracedForEachEntrySafe, listForEachEntrySafe, hn, Option.map_map]
    exact tracedFrom_erases fuel first _ s
  | null | poison1 | poison2 =>
    simp only [tracedForEachEntrySafe, listForEachEntrySafe, hn, Option.map_none]

private theorem tracedFrom_drain (ring : ∀ xs s, inv xs s → Ring (heapOf s) head xs)
    (step : ∀ x xs s, inv (x :: xs) s →
      ∃ t, body x s = some (t, unlinkTrace calls x) ∧ inv xs t)
    {s : σ} (h : inv xs s) :
    ∃ t, inv [] t ∧ ∀ fuel ≥ xs.length,
      tracedFrom heapOf head body fuel (xs.headD head) ((heapOf s).next (xs.headD head)) s =
        some (t, passTrace head calls xs) := by
  induction xs generalizing s with
  | nil =>
    refine ⟨s, h, ?_⟩
    intro fuel _
    cases fuel with
    | zero => exact if_pos rfl
    | succ fuel => exact if_pos rfl
  | cons x xs ih =>
    have hr := ring _ _ h
    have hne : x ≠ head := fun e => hr.not_mem (by simp [e])
    obtain ⟨t, ht, hi⟩ := step x xs s h
    obtain ⟨z, hend, hz⟩ := ih hi
    refine ⟨z, hend, ?_⟩
    intro fuel hfuel
    rw [List.length_cons] at hfuel
    obtain ⟨fuel, rfl⟩ := Nat.exists_eq_add_of_le' (Nat.le_trans (Nat.le_add_left 1 _) hfuel)
    have hrest := hz fuel (by omega)
    simp only [List.headD_cons, tracedFrom, if_neg hne, hr.next_first, ht, Option.bind_some,
      hrest, Option.map_some, passTrace]

/-- The loop that unlinks every element it visits: however much fuel is left after one pass
over the list, it stops on an empty ring with the same trace. -/
theorem tracedForEachEntrySafe_drain (ring : ∀ xs s, inv xs s → Ring (heapOf s) head xs)
    (step : ∀ x xs s, inv (x :: xs) s →
      ∃ t, body x s = some (t, unlinkTrace calls x) ∧ inv xs t)
    {s : σ} (h : inv xs s) :
    ∃ t, inv [] t ∧ ∀ fuel ≥ xs.length,
      tracedForEachEntrySafe heapOf head body fuel s = some (t, drainTrace head calls xs) := by
  obtain ⟨t, hend, ht⟩ := tracedFrom_drain ring step h
  refine ⟨t, hend, ?_⟩
  intro fuel hfuel
  rw [tracedForEachEntrySafe, (ring _ _ h).next_head]
  simp only [ht fuel hfuel, Option.map_some, drainTrace]

end Loop

omit [DecidableEq κ] in
theorem unlinkTrace_mem {c x : κ} (h : .follow c ∈ unlinkTrace calls x ∨
    .delete c ∈ unlinkTrace calls x) : c = x := by
  rcases h with h | h <;> simpa [unlinkTrace] using h

omit [DecidableEq κ] in
/-- From the read of the successor on, only pointers of the cells that are left are followed. -/
theorem follow_mem_rest {c : κ}
    (h : .follow c ∈ .follow (xs.headD head) :: passTrace head calls xs) : c ∈ head :: xs := by
  induction xs with
  | nil =>
    cases List.mem_singleton.mp h
    exact List.mem_cons_self
  | cons x xs ih =>
    rw [passTrace, List.mem_cons, List.mem_append] at h
    rcases h with hnext | hown | hrest
    · cases hnext
      exact List.mem_cons_of_mem _ List.mem_cons_self
    · rw [unlinkTrace_mem (.inl hown)]
      exact List.mem_cons_of_mem _ List.mem_cons_self
    · rcases List.mem_cons.mp (ih hrest) with rfl | hc
      · exact List.mem_cons_self
      · exact List.mem_cons_of_mem _ (List.mem_cons_of_mem _ hc)

omit [DecidableEq κ] in
theorem unlinkTrace_live (calls : κ → List ε) (x : κ) : FollowsLive (unlinkTrace calls x) := by
  rw [FollowsLive, unlinkTrace, List.pairwise_append]
  refine ⟨by simp, ?_, ?_⟩
  · rw [List.pairwise_map]
    exact List.pairwise_of_forall (fun _ _ _ h => by cases h)
  · intro e _ e' he' c _
    obtain ⟨call, -, rfl⟩ := List.mem_map.mp he'
    simp

omit [DecidableEq κ] in
/-- Each cell is deleted after its pointers were followed for the last time. -/
theorem passTrace_live (h : (head :: xs).Nodup) : FollowsLive (passTrace head calls xs) := by
  induction xs with
  | nil => exact .nil
  | cons x xs ih =>
    obtain ⟨hhead, hxs⟩ := List.nodup_cons.mp h
    obtain ⟨hx, hnd⟩ := List.nodup_cons.mp hxs
    have hrest : (head :: xs).Nodup :=
      List.nodup_cons.mpr ⟨fun hm => hhead (List.mem_cons_of_mem _ hm), hnd⟩
    rw [FollowsLive, passTrace, List.pairwise_append]
    refine ⟨unlinkTrace_live calls x, ?_, ?_⟩
    · exact .cons (fun _ _ _ h => by cases h) (ih hrest)
    · intro e he e' he' c hdelete hfollow
      subst hdelete hfollow
      have hcx : c = x := unlinkTrace_mem (.inr he)
      rcases List.mem_cons.mp (follow_mem_rest he') with hc | hc
      · exact hhead (by simp [← hc, hcx])
      · exact hx (hcx ▸ hc)

omit [DecidableEq κ] in
theorem drainTrace_live (h : (head :: xs).Nodup) : FollowsLive (drainTrace head calls xs) := by
  rw [FollowsLive, drainTrace]
  refine .cons (fun _ _ _ h => by cases h) (.cons (fun _ _ _ h => by cases h) ?_)
  exact passTrace_live h

omit [DecidableEq κ] in
theorem emitted_passTrace (head : κ) (calls : κ → List ε) (xs : List κ) :
    emitted (passTrace head calls xs) = xs.flatMap calls := by
  induction xs with
  | nil => rfl
  | cons x xs ih =>
    rw [emitted] at ih
    simp [emitted, passTrace, unlinkTrace, List.filterMap_append, List.filterMap_map, ih]

omit [DecidableEq κ] in
theorem emitted_drainTrace (head : κ) (calls : κ → List ε) (xs : List κ) :
    emitted (drainTrace head calls xs) = xs.flatMap calls := emitted_passTrace head calls xs

omit [DecidableEq κ] in
theorem deleted_passTrace (head : κ) (calls : κ → List ε) (xs : List κ) :
    deleted (passTrace head calls xs) = xs := by
  induction xs with
  | nil => rfl
  | cons x xs ih =>
    rw [deleted] at ih
    simp [deleted, passTrace, unlinkTrace, List.filterMap_append, List.filterMap_map, ih]

omit [DecidableEq κ] in
theorem deleted_drainTrace (head : κ) (calls : κ → List ε) (xs : List κ) :
    deleted (drainTrace head calls xs) = xs := deleted_passTrace head calls xs

end CameraDrivers.TracedTraversal
