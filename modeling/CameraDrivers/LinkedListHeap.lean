import Mathlib.Data.List.Chain
import Mathlib.Data.List.Nodup
import Mathlib.Data.List.Induction

/-!
# Circular doubly linked lists in a pointer heap

The `struct list_head` lists of the Linux kernel: every cell has a `next` and a `prev`
pointer, a list is a ring through its head cell, and the elements carry their cell
inside them. Following a pointer that is not a cell is a fault, `none`.
-/
namespace CameraDrivers.LinkedListHeap

/-- A `struct list_head *`: a cell, or one of the values a cell holds while it is on no list. -/
inductive Link (κ : Type*) where
  | null | poison1 | poison2
  | cell (c : κ)
  deriving DecidableEq

def Link.isCell {κ : Type*} : Link κ → Bool
  | .cell _ => true
  | _ => false

structure ListHeap (κ : Type*) where
  next : κ → Link κ
  prev : κ → Link κ

variable {κ σ : Type*} [DecidableEq κ]

def initListHead (l : ListHeap κ) (head : κ) : ListHeap κ where
  next := Function.update l.next head (.cell head)
  prev := Function.update l.prev head (.cell head)

/-- The four stores of `__list_add`, in their order. -/
def listAdd (l : ListHeap κ) (new prev next : κ) : ListHeap κ where
  next := Function.update (Function.update l.next new (.cell next)) prev (.cell new)
  prev := Function.update (Function.update l.prev next (.cell new)) new (.cell prev)

def listAddTail (l : ListHeap κ) (new head : κ) : Option (ListHeap κ) :=
  match l.prev head with
  | .cell last => some (listAdd l new last head)
  | _ => none

/-- `__list_del` joins the two neighbours of the entry, which is then poisoned. -/
def listUnlink (l : ListHeap κ) (entry prev next : κ) : ListHeap κ where
  next := Function.update (Function.update l.next prev (.cell next)) entry .poison1
  prev := Function.update (Function.update l.prev next (.cell prev)) entry .poison2

def listDel (l : ListHeap κ) (entry : κ) : Option (ListHeap κ) :=
  match l.prev entry, l.next entry with
  | .cell prev, .cell next => some (listUnlink l entry prev next)
  | _, _ => none

/-- The loop of `list_for_each_entry_safe` from the cursor `pos` with the saved successor `n`. -/
def forEachFrom (heapOf : σ → ListHeap κ) (head : κ) (body : κ → σ → Option σ) :
    ℕ → κ → Link κ → σ → Option σ
  | 0, pos, _, s => if pos = head then some s else none
  | fuel + 1, pos, n, s =>
    if pos = head then some s
    else match n with
      | .cell c => (body pos s).bind (fun t =>
          forEachFrom heapOf head body fuel c ((heapOf t).next c) t)
      | _ => none

def listForEachEntrySafe (heapOf : σ → ListHeap κ) (head : κ) (body : κ → σ → Option σ)
    (fuel : ℕ) (s : σ) : Option σ :=
  match (heapOf s).next head with
  | .cell first => forEachFrom heapOf head body fuel first ((heapOf s).next first) s
  | _ => none

/-- What `list_empty` tests. -/
def ListEmpty (l : ListHeap κ) (head : κ) : Prop := l.next head = .cell head

/-- Neighbouring cells point at each other. -/
def Linked (l : ListHeap κ) (x y : κ) : Prop := l.next x = .cell y ∧ l.prev y = .cell x

/-- The ring of `head` goes once through the cells `xs`, in this order. -/
structure Ring (l : ListHeap κ) (head : κ) (xs : List κ) : Prop where
  nodup : (head :: xs).Nodup
  links : (head :: (xs ++ [head])).IsChain (Linked l)

variable {l l' : ListHeap κ} {head : κ} {xs ys : List κ}

omit [DecidableEq κ] in
/-- A chain reads only the forward pointers before its end and the backward ones after its start. -/
theorem chain_transport {ws : List κ} (h : ws.IsChain (Linked l))
    (hn : ∀ x ∈ ws.dropLast, l'.next x = l.next x)
    (hp : ∀ y ∈ ws.tail, l'.prev y = l.prev y) : ws.IsChain (Linked l') := by
  induction ws with
  | nil => exact .nil
  | cons x ws ih =>
    cases ws with
    | nil => exact .singleton x
    | cons y ws =>
      obtain ⟨hxy, ht⟩ := List.isChain_cons_cons.mp h
      refine List.isChain_cons_cons.mpr ⟨⟨?_, ?_⟩, ih ht ?_ ?_⟩
      · exact (hn x (by simp)).trans hxy.1
      · exact (hp y (by simp)).trans hxy.2
      · intro z hz
        exact hn z (by simp [hz])
      · intro z hz
        exact hp z (List.mem_of_mem_tail hz)

theorem ring_initListHead (l : ListHeap κ) (head : κ) : Ring (initListHead l head) head [] where
  nodup := by simp
  links := by simp [Linked, initListHead]

omit [DecidableEq κ] in
theorem Ring.not_mem (h : Ring l head xs) : head ∉ xs := (List.nodup_cons.mp h.nodup).1

omit [DecidableEq κ] in
/-- The head's successor is the first cell, or the head itself when the list is empty. -/
theorem Ring.next_head (h : Ring l head xs) : l.next head = .cell (xs.headD head) := by
  have hl := h.links
  cases xs with
  | nil => exact (List.isChain_cons_cons.mp hl).1.1
  | cons x xs => exact (List.isChain_cons_cons.mp hl).1.1

omit [DecidableEq κ] in
theorem ring_nil_iff : Ring l head [] ↔ Linked l head head := by
  constructor
  · intro h
    exact (List.isChain_cons_cons.mp h.links).1
  · intro h
    exact ⟨by simp, List.isChain_pair.mpr h⟩

omit [DecidableEq κ] in
theorem Ring.next_first {x : κ} (h : Ring l head (x :: xs)) :
    l.next x = .cell (xs.headD head) := by
  have hl := (List.isChain_cons_cons.mp h.links).2
  cases xs with
  | nil => exact (List.isChain_cons_cons.mp hl).1.1
  | cons y xs => exact (List.isChain_cons_cons.mp hl).1.1

omit [DecidableEq κ] in
theorem Ring.next_isCell (h : Ring l head xs) {x : κ} (hx : x ∈ xs) : (l.next x).isCell := by
  obtain ⟨as, bs, rfl⟩ := List.append_of_mem hx
  have hl := h.links
  rw [List.append_assoc, List.cons_append, ← List.cons_append, List.isChain_split] at hl
  obtain ⟨y, ys, he⟩ := List.exists_cons_of_ne_nil (l := bs ++ [head]) (by simp)
  rw [he] at hl
  rw [(List.isChain_cons_cons.mp hl.2).1.1]
  rfl

omit [DecidableEq κ] in
private theorem chain_unique {a : κ} (hx : head ∉ xs) (hy : head ∉ ys)
    (h : (a :: (xs ++ [head])).IsChain (Linked l)) (h' : (a :: (ys ++ [head])).IsChain (Linked l)) :
    xs = ys := by
  induction xs generalizing a ys with
  | nil =>
    cases ys with
    | nil => rfl
    | cons y ys =>
      have hn := (List.isChain_cons_cons.mp h).1.1
      rw [(List.isChain_cons_cons.mp h').1.1] at hn
      cases hn
      simp at hy
  | cons x xs ih =>
    have hn := (List.isChain_cons_cons.mp h).1.1
    cases ys with
    | nil =>
      rw [(List.isChain_cons_cons.mp h').1.1] at hn
      cases hn
      simp at hx
    | cons y ys =>
      rw [(List.isChain_cons_cons.mp h').1.1] at hn
      cases hn
      have ht := ih (by simp_all) (by simp_all) (List.isChain_cons_cons.mp h).2
        (List.isChain_cons_cons.mp h').2
      rw [ht]

omit [DecidableEq κ] in
/-- A heap holds at most one list of cells at a head. -/
theorem Ring.unique (h : Ring l head xs) (h' : Ring l head ys) : xs = ys :=
  chain_unique h.not_mem h'.not_mem h.links h'.links

/-- Appending a cell that is not on the list: it becomes the last one, and no cell
outside the ring is written. -/
theorem Ring.listAddTail {new : κ} (h : Ring l head xs) (hnew : new ∉ head :: xs) :
    ∃ l', listAddTail l new head = some l' ∧ Ring l' head (xs ++ [new]) ∧
      (∀ c ∉ head :: xs, c ≠ new → l'.next c = l.next c ∧ l'.prev c = l.prev c) := by
  obtain ⟨as, last, he⟩ := List.eq_nil_or_concat' (head :: xs) |>.resolve_left (by simp)
  have hl := h.links
  rw [← List.cons_append, he, List.append_assoc, List.singleton_append, List.isChain_split] at hl
  have hlast : l.prev head = .cell last := (List.isChain_pair.mp hl.2).2
  have hnd := h.nodup
  rw [he] at hnd hnew
  have hmem : ∀ y ∈ (as ++ [last]).tail, y ∈ xs := by
    intro y hy
    rw [← he] at hy
    exact hy
  have hne : new ≠ last := fun e => hnew (by simp [e])
  have hnh : new ≠ head := fun e => hnew (by rw [← he, e]; simp)
  refine ⟨listAdd l new last head, by simp [LinkedListHeap.listAddTail, hlast], ⟨?_, ?_⟩, ?_⟩
  · rw [← List.cons_append, he, List.nodup_append]
    refine ⟨hnd, by simp, ?_⟩
    intro a ha b hb
    rw [List.mem_singleton.mp hb]
    rintro rfl
    exact hnew ha
  · rw [List.append_assoc, ← List.cons_append, he, List.append_assoc, List.singleton_append,
      List.isChain_split]
    refine ⟨chain_transport hl.1 ?_ ?_, ?_⟩
    · intro x hx
      rw [List.dropLast_concat] at hx
      have hxl : x ≠ last := by
        rintro rfl
        exact (List.nodup_append.mp hnd).2.2 x hx x (by simp) rfl
      have hxn : x ≠ new := fun e => hnew (by simp [← e, hx])
      simp [listAdd, Function.update_of_ne hxl, Function.update_of_ne hxn]
    · intro y hy
      have hyx := hmem y hy
      have hyh : y ≠ head := fun e => h.not_mem (e ▸ hyx)
      have hyn : y ≠ new := fun e => hnew (e ▸ List.mem_of_mem_tail hy)
      simp [listAdd, Function.update_of_ne hyh, Function.update_of_ne hyn]
    · simp [Linked, listAdd, Function.update_of_ne hne, Function.update_of_ne hnh.symm]
  · intro c hc hcn
    have hcl : c ≠ last := fun e => hc (by rw [he, e]; simp)
    have hch : c ≠ head := fun e => hc (by simp [e])
    simp [listAdd, Function.update_of_ne hcl, Function.update_of_ne hch, Function.update_of_ne hcn]

/-- Unlinking a cell of a chain that meets its neighbours nowhere else. -/
private theorem chain_listUnlink {as bs : List κ} {p y q : κ}
    (h : (as ++ p :: y :: q :: bs).IsChain (Linked l)) (hpas : p ∉ as) (hyas : y ∉ as ++ [p])
    (hqas : q ∉ (as ++ [p]).tail) (hpbs : p ∉ (q :: bs).dropLast) (hybs : y ∉ q :: bs)
    (hqbs : q ∉ bs) : (as ++ p :: q :: bs).IsChain (Linked (listUnlink l y p q)) := by
  rw [List.isChain_split] at h ⊢
  obtain ⟨hleft, hright⟩ := h
  have hright := (List.isChain_cons_cons.mp (List.isChain_cons_cons.mp hright).2).2
  have hpy : p ≠ y := fun e => hyas (by simp [e])
  have hqy : q ≠ y := fun e => hybs (by simp [e])
  rw [List.isChain_cons_cons]
  refine ⟨chain_transport hleft ?_ ?_, ⟨?_, ?_⟩, chain_transport hright ?_ ?_⟩
  · intro x hx
    rw [List.dropLast_concat] at hx
    have hxp : x ≠ p := fun e => hpas (e ▸ hx)
    have hxy : x ≠ y := fun e => hyas (by simp [← e, hx])
    simp [listUnlink, Function.update_of_ne hxp, Function.update_of_ne hxy]
  · intro z hz
    have hzy : z ≠ y := fun e => hyas (e ▸ List.mem_of_mem_tail hz)
    have hzq : z ≠ q := fun e => hqas (e ▸ hz)
    simp [listUnlink, Function.update_of_ne hzq, Function.update_of_ne hzy]
  · simp [listUnlink, Function.update_of_ne hpy]
  · simp [listUnlink, Function.update_of_ne hqy]
  · intro x hx
    have hxp : x ≠ p := fun e => hpbs (e ▸ hx)
    have hxy : x ≠ y := fun e => hybs (e ▸ List.dropLast_subset _ hx)
    simp [listUnlink, Function.update_of_ne hxp, Function.update_of_ne hxy]
  · intro z hz
    have hzy : z ≠ y := fun e => hybs (e ▸ List.mem_cons_of_mem _ hz)
    have hzq : z ≠ q := fun e => hqbs (e ▸ hz)
    simp [listUnlink, Function.update_of_ne hzq, Function.update_of_ne hzy]

/-- Deleting an element closes the ring around it, poisons its cell and writes no cell
outside the ring. -/
theorem Ring.listDel {y : κ} (h : Ring l head (xs ++ y :: ys)) :
    ∃ l', listDel l y = some l' ∧ Ring l' head (xs ++ ys) ∧ l'.next y = .poison1 ∧
      (∀ c ∉ head :: (xs ++ y :: ys), l'.next c = l.next c ∧ l'.prev c = l.prev c) := by
  obtain ⟨as, p, hp⟩ := List.eq_nil_or_concat' (head :: xs) |>.resolve_left (by simp)
  obtain ⟨q, bs, hq⟩ := List.exists_cons_of_ne_nil (l := ys ++ [head]) (by simp)
  have hnd := h.nodup
  rw [← List.cons_append, hp] at hnd
  obtain ⟨hndp, hndy, hdisj⟩ := List.nodup_append.mp hnd
  obtain ⟨hyys, hndys⟩ := List.nodup_cons.mp hndy
  have hl : (as ++ p :: y :: q :: bs).IsChain (Linked l) := by
    have hl := h.links
    rwa [List.append_assoc, List.cons_append, hq, ← List.cons_append, hp, List.append_assoc,
      List.singleton_append] at hl
  have hhead : head ∈ as ++ [p] := hp ▸ List.mem_cons_self
  have hpas : p ∉ as := fun hm => (List.nodup_append.mp hndp).2.2 p hm p (by simp) rfl
  have hyas : y ∉ as ++ [p] := fun hm => hdisj y hm y (by simp) rfl
  have hybs : y ∉ q :: bs := by
    rw [← hq]
    have hyhead : y ≠ head := fun e => hyas (e ▸ hhead)
    simp [hyys, hyhead]
  -- the cell behind the deleted one is behind it or the head, never in the tail before it
  have hqas : q ∉ (as ++ [p]).tail := by
    intro hm
    have hqys : q ∈ ys ++ [head] := hq ▸ List.mem_cons_self
    rcases List.mem_append.mp hqys with hys | hys
    · exact hdisj q (List.mem_of_mem_tail hm) q (by simp [hys]) rfl
    · rw [List.mem_singleton.mp hys, ← hp] at hm
      exact h.not_mem (List.mem_append_left _ hm)
  have hpbs : p ∉ (q :: bs).dropLast := by
    intro hm
    rw [← hq, List.dropLast_concat] at hm
    exact hdisj p (by simp) p (by simp [hm]) rfl
  have hqbs : q ∉ bs := by
    have hndq : (ys ++ [head]).Nodup := by
      refine List.nodup_append.mpr ⟨hndys, by simp, fun a ha b hb e => ?_⟩
      exact hdisj b (List.mem_singleton.mp hb ▸ hhead) a (by simp [ha]) e.symm
    rw [hq] at hndq
    exact (List.nodup_cons.mp hndq).1
  have hlinks := List.isChain_cons_cons.mp ((List.isChain_split.mp hl).2)
  have hyp : l.prev y = .cell p := hlinks.1.2
  have hyq : l.next y = .cell q := (List.isChain_cons_cons.mp hlinks.2).1.1
  refine ⟨listUnlink l y p q, by simp [LinkedListHeap.listDel, hyp, hyq], ⟨?_, ?_⟩,
    by simp [listUnlink], ?_⟩
  · rw [← List.cons_append, hp, List.nodup_append]
    exact ⟨hndp, hndys, fun a ha b hb => hdisj a ha b (by simp [hb])⟩
  · rw [List.append_assoc, hq, ← List.cons_append, hp, List.append_assoc, List.singleton_append]
    exact chain_listUnlink hl hpas hyas hqas hpbs hybs hqbs
  · intro c hc
    have hcy : c ≠ y := fun e => hc (by simp [e])
    have hcp : c ≠ p := by
      intro e
      have hm : c ∈ head :: xs := by rw [hp, e]; simp
      exact hc (by rw [← List.cons_append]; exact List.mem_append_left _ hm)
    have hcq : c ≠ q := by
      intro e
      have hm : c ∈ ys ++ [head] := by rw [hq, e]; simp
      exact hc (by rcases List.mem_append.mp hm with hm | hm <;> simp_all)
    simp [listUnlink, Function.update_of_ne hcp, Function.update_of_ne hcy,
      Function.update_of_ne hcq]

section Loop

variable {heapOf : σ → ListHeap κ} {body : κ → σ → Option σ} {inv : List κ → σ → Prop}

/-- Whatever the heap looks like: what the body preserves holds after a loop that ends. -/
theorem forEachFrom_preserves (good : σ → Prop)
    (preserved : ∀ c s t, body c s = some t → good s → good t) {fuel : ℕ} {pos : κ} {n : Link κ}
    {s t : σ} (h : forEachFrom heapOf head body fuel pos n s = some t) (hs : good s) : good t := by
  induction fuel generalizing pos n s with
  | zero =>
    simp only [forEachFrom, Option.ite_none_right_eq_some, Option.some.injEq] at h
    exact h.2 ▸ hs
  | succ fuel ih =>
    simp only [forEachFrom] at h
    split at h
    · cases h
      exact hs
    · split at h
      · obtain ⟨z, hz, ht⟩ := Option.bind_eq_some_iff.mp h
        exact ih ht (preserved _ _ _ hz hs)
      · cases h

theorem listForEachEntrySafe_preserves (good : σ → Prop)
    (preserved : ∀ c s t, body c s = some t → good s → good t) {fuel : ℕ} {s t : σ}
    (h : listForEachEntrySafe heapOf head body fuel s = some t) (hs : good s) : good t := by
  rw [listForEachEntrySafe] at h
  split at h
  · exact forEachFrom_preserves good preserved h hs
  · cases h

/-- On an empty list the body is never run. -/
theorem listForEachEntrySafe_empty {s : σ} (h : ListEmpty (heapOf s) head) (fuel : ℕ) :
    listForEachEntrySafe heapOf head body (fuel + 1) s = some s := by
  rw [ListEmpty] at h
  simp [listForEachEntrySafe, h, forEachFrom]

private theorem forEachFrom_drain (ring : ∀ xs s, inv xs s → Ring (heapOf s) head xs)
    (step : ∀ x xs s, inv (x :: xs) s → ∃ t, body x s = some t ∧ inv xs t)
    {fuel : ℕ} {s : σ} (hfuel : xs.length ≤ fuel) (h : inv xs s) :
    ∃ t, forEachFrom heapOf head body fuel (xs.headD head) ((heapOf s).next (xs.headD head)) s =
      some t ∧ inv [] t := by
  induction fuel generalizing xs s with
  | zero =>
    cases List.eq_nil_of_length_eq_zero (Nat.le_zero.mp hfuel)
    exact ⟨s, by simp [forEachFrom], h⟩
  | succ fuel ih =>
    cases xs with
    | nil => exact ⟨s, by simp [forEachFrom], h⟩
    | cons x xs =>
      have hr := ring _ _ h
      have hne : x ≠ head := fun e => hr.not_mem (by simp [e])
      obtain ⟨t, ht, hi⟩ := step x xs s h
      obtain ⟨z, hz, hend⟩ := ih (by simpa using hfuel : xs.length ≤ fuel) hi
      refine ⟨z, ?_, hend⟩
      simpa [forEachFrom, hne, hr.next_first, ht] using hz

/-- The loop that unlinks every element it visits: it stops after one pass over the list,
on an empty ring, and the body sees the elements in list order. -/
theorem listForEachEntrySafe_drain (ring : ∀ xs s, inv xs s → Ring (heapOf s) head xs)
    (step : ∀ x xs s, inv (x :: xs) s → ∃ t, body x s = some t ∧ inv xs t)
    {fuel : ℕ} {s : σ} (hfuel : xs.length ≤ fuel) (h : inv xs s) :
    ∃ t, listForEachEntrySafe heapOf head body fuel s = some t ∧ inv [] t := by
  simpa [listForEachEntrySafe, (ring _ _ h).next_head] using forEachFrom_drain ring step hfuel h

end Loop

end CameraDrivers.LinkedListHeap
