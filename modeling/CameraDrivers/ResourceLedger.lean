import Mathlib.Data.List.Nodup

/-!
# Balanced traces of acquisitions and releases

A trace is settled against the list of what is held: a resource can be acquired while it is
not held, and released while it is held. A trace is balanced if it settles and leaves nothing
behind.
-/
namespace CameraDrivers.ResourceLedger

universe u

inductive Event (R : Type u)
  | acquire (r : R)
  | release (r : R)
  deriving DecidableEq

variable {R : Type u} [DecidableEq R]

def post (held : List R) : Event R → Option (List R)
  | .acquire r => if r ∈ held then none else some (r :: held)
  | .release r => if r ∈ held then some (held.erase r) else none

def settle : List R → List (Event R) → Option (List R)
  | held, [] => some held
  | held, e :: es => (post held e).bind (fun held' => settle held' es)

/-- Every resource acquired is released exactly once, and nothing else is released. -/
def Balanced (es : List (Event R)) : Prop := settle [] es = some []

instance (es : List (Event R)) : Decidable (Balanced es) := inferInstanceAs (Decidable (_ = _))

variable {held held' : List R} {es : List (Event R)} {e : Event R}

theorem balanced_iff (es : List (Event R)) : Balanced es ↔ settle [] es = some [] := Iff.rfl

theorem post_count (h : post held e = some held') (r : R) :
    held.count r + [e].count (.acquire r) = held'.count r + [e].count (.release r) := by
  cases e with
  | acquire r' =>
    simp only [post] at h
    split at h
    · cases h
    · cases h
      simp [List.count_cons, List.count_nil]
  | release r' =>
    simp only [post] at h
    split at h
    · next hmem =>
      cases h
      have hperm := (List.perm_cons_erase hmem).count_eq r
      simp only [List.count_cons, List.count_nil, beq_iff_eq, Event.release.injEq] at hperm ⊢
      simpa using hperm
    · cases h

/-- What is held is what was acquired more often than released. -/
theorem settle_count (h : settle held es = some held') (r : R) :
    held.count r + es.count (.acquire r) = held'.count r + es.count (.release r) := by
  induction es generalizing held with
  | nil =>
    cases h
    rfl
  | cons e es ih =>
    obtain ⟨mid, hpost, hrest⟩ := Option.bind_eq_some_iff.mp h
    have hfirst := post_count hpost r
    have hlast := ih hrest
    rw [← List.singleton_append, List.count_append, List.count_append]
    omega

theorem Balanced.count (h : Balanced es) (r : R) :
    es.count (.acquire r) = es.count (.release r) := by
  simpa using settle_count h r

theorem settle_append (held : List R) (es es' : List (Event R)) :
    settle held (es ++ es') = (settle held es).bind (fun mid => settle mid es') := by
  induction es generalizing held with
  | nil => rfl
  | cons e es ih =>
    simp only [List.cons_append, settle, Option.bind_assoc, ih]

theorem settle_acquire {rs : List R} (h : (rs.reverse ++ held).Nodup) :
    settle held (rs.map .acquire) = some (rs.reverse ++ held) := by
  induction rs generalizing held with
  | nil => rfl
  | cons r rs ih =>
    have hrest : (rs.reverse ++ r :: held).Nodup := by simpa using h
    have hnew : r ∉ held := (List.nodup_cons.mp (List.nodup_append.mp hrest).2.1).1
    have hpost : post held (.acquire r) = some (r :: held) := if_neg hnew
    rw [List.map_cons, settle, hpost, Option.bind_some, ih hrest]
    simp

theorem settle_release (rs held : List R) :
    settle (rs ++ held) (rs.map .release) = some held := by
  induction rs with
  | nil => rfl
  | cons r rs ih =>
    have hpost : post (r :: (rs ++ held)) (.release r) = some (rs ++ held) := by simp [post]
    rw [List.cons_append, List.map_cons, settle, hpost, Option.bind_some, ih]

/-- What is released in the opposite order of its acquisition is balanced. -/
theorem balanced_unwind {rs : List R} (h : rs.Nodup) :
    Balanced (rs.map .acquire ++ rs.reverse.map .release) := by
  have hnodup : (rs.reverse ++ []).Nodup := by
    rw [List.append_nil]
    exact List.nodup_reverse.mpr h
  have hacquired : settle [] (rs.map .acquire) = some rs.reverse := by
    simpa using settle_acquire hnodup
  have hreleased : settle rs.reverse (rs.reverse.map .release) = some [] := by
    simpa using settle_release rs.reverse []
  rw [Balanced, settle_append, hacquired, Option.bind_some, hreleased]

end CameraDrivers.ResourceLedger
