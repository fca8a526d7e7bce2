import CameraDrivers.LinkedListHeap
import Mathlib.Data.List.DropRight

/-!
# Cells that are added to a circular list again

`list_add_tail` of a cell that is still linked leaves pointers that are no ring any more. They
are determined by the order of the calls: forward from the head they run through the loop
erasure of that order, and backward every added cell points at the one added before it.
The traversal that deletes the cells it visits ends on such pointers exactly when the first
cell does not point back into the rest of the path and the last one does not point at itself.
-/
namespace CameraDrivers.ReaddedCells
open LinkedListHeap

variable {κ σ : Type*} [DecidableEq κ]

/-- A further call cuts the path behind the cell, if it was on it. -/
def visit (path : List κ) (c : κ) : List κ := path.takeWhile (· ≠ c) ++ [c]

def loopErase (cs : List κ) : List κ := cs.foldl visit []

/-- The calls before the last one for `c`. -/
def before (c : κ) (cs : List κ) : List κ := (cs.rdropWhile (· ≠ c)).dropLast

/-- The calls after the last one for `c`. -/
def beyond (c : κ) (cs : List κ) : List κ := cs.rtakeWhile (· ≠ c)

/-- The calls of `list_add_tail` since the list was last drained, and what that drain left behind:
the cell the head still points at, and the one it points back at. -/
structure History (κ : Type*) where
  entry : Option κ
  base : Option κ
  added : List κ
  deriving DecidableEq

def History.clean : History κ := ⟨none, none, []⟩

def History.add (h : History κ) (c : κ) : History κ := { h with added := h.added ++ [c] }

def History.first (h : History κ) : Option κ := h.entry.or h.added.head?

def History.last (h : History κ) : Option κ := h.added.getLast?.or h.base

/-- The cell that was last when `c` was last added; `none` is the head. -/
def History.pred (h : History κ) (c : κ) : Option κ := (before c h.added).getLast?.or h.base

/-- The cells on the way forward from the head. -/
def History.path (h : History κ) : List κ :=
  match h.first with
  | none => []
  | some f => f :: loopErase (beyond f h.added)

/-- The cell added last was the last one already. -/
def History.looped (h : History κ) : Bool :=
  h.added.getLast?.any (fun c => h.pred c = some c)

def History.drainable (h : History κ) : Bool :=
  match h.first with
  | none => true
  | some f =>
    h.added.contains f && !h.looped && (h.pred f).all (fun p => !h.path.tail.contains p)

def History.drained (h : History κ) : History κ :=
  match h.first.bind h.pred with
  | none => .clean
  | some p => ⟨h.first, some p, []⟩

def Follows (l : ListHeap κ) (x y : κ) : Prop := l.next x = .cell y

/-- The pointers after the calls of a history. -/
structure Tangled (l : ListHeap κ) (head : κ) (h : History κ) : Prop where
  head_notMem : head ∉ h.added
  entry_ne : h.entry ≠ some head
  base_ne : h.base ≠ some head
  based : h.base.isSome = h.entry.isSome
  next_head : l.next head = .cell (h.first.getD head)
  prev_head : l.prev head = .cell (h.last.getD head)
  prev : ∀ c ∈ h.added, l.prev c = .cell ((h.pred c).getD head)
  poisoned : ∀ f, h.first = some f → f ∉ h.added → l.prev f = .poison2
  forward : ∀ f, h.first = some f → f ∈ h.added →
    (f :: loopErase (beyond f h.added)).IsChain (Follows l)
  next_last : ∀ c, h.added.getLast? = some c →
    l.next c = .cell (if h.pred c = some c then c else head)

variable {l : ListHeap κ} {head : κ} {h : History κ}

theorem loopErase_concat (cs : List κ) (c : κ) :
    loopErase (cs ++ [c]) = visit (loopErase cs) c := by
  simp [loopErase, List.foldl_append]

theorem mem_visit {path : List κ} {c x : κ} (hx : x ∈ visit path c) : x ∈ path ∨ x = c := by
  rcases List.mem_append.mp hx with hx | hx
  · exact .inl (List.takeWhile_subset _ hx)
  · exact .inr (List.mem_singleton.mp hx)

theorem notMem_takeWhile (path : List κ) (c : κ) : c ∉ path.takeWhile (· ≠ c) := by
  intro hc
  simpa using List.mem_takeWhile_imp hc

theorem visit_of_notMem {path : List κ} {c : κ} (hc : c ∉ path) : visit path c = path ++ [c] := by
  have hself : path.takeWhile (· ≠ c) = path := by
    rw [List.takeWhile_eq_self_iff]
    intro x hx
    simpa using ne_of_mem_of_not_mem hx hc
  rw [visit, hself]

theorem visit_append_cons {front rest : List κ} {c : κ} (hc : c ∉ front) :
    visit (front ++ c :: rest) c = front ++ [c] := by
  have hne : ∀ x ∈ front, decide (x ≠ c) = true := by
    intro x hx
    simpa using ne_of_mem_of_not_mem hx hc
  rw [visit, List.takeWhile_append_of_pos hne, List.takeWhile_cons_of_neg (by simp),
    List.append_nil]

theorem visit_nodup {path : List κ} (hp : path.Nodup) (c : κ) : (visit path c).Nodup := by
  refine List.nodup_append.mpr ⟨hp.sublist (List.takeWhile_sublist _), by simp, ?_⟩
  intro a ha b hb
  rw [List.mem_singleton.mp hb]
  rintro rfl
  exact notMem_takeWhile path a ha

theorem loopErase_nodup (cs : List κ) : (loopErase cs).Nodup := by
  induction cs using List.reverseRecOn with
  | nil => simp [loopErase]
  | append_singleton cs c ih => exact loopErase_concat cs c ▸ visit_nodup ih c

theorem mem_loopErase {cs : List κ} {x : κ} (hx : x ∈ loopErase cs) : x ∈ cs := by
  induction cs using List.reverseRecOn with
  | nil => simp [loopErase] at hx
  | append_singleton cs c ih =>
    rw [loopErase_concat] at hx
    rcases mem_visit hx with hx | rfl
    · exact List.mem_append_left _ (ih hx)
    · simp

theorem loopErase_getLast? (cs : List κ) : (loopErase cs).getLast? = cs.getLast? := by
  induction cs using List.reverseRecOn with
  | nil => rfl
  | append_singleton cs c ih => simp [loopErase_concat, visit]

theorem beyond_concat_self (c : κ) (cs : List κ) : beyond c (cs ++ [c]) = [] := by
  simp [beyond]

theorem beyond_concat_of_ne {b c : κ} (hcb : c ≠ b) (cs : List κ) :
    beyond b (cs ++ [c]) = beyond b cs ++ [c] := by
  simp [beyond, hcb]

theorem before_concat_self (c : κ) (cs : List κ) : before c (cs ++ [c]) = cs := by
  simp [before]

theorem before_concat_of_ne {b c : κ} (hcb : c ≠ b) (cs : List κ) :
    before b (cs ++ [c]) = before b cs := by
  simp [before, hcb]

theorem before_cons_eq_nil_iff (c : κ) (cs : List κ) : before c (c :: cs) = [] ↔ c ∉ cs := by
  induction cs using List.reverseRecOn with
  | nil => simpa using before_concat_self c []
  | append_singleton cs d ih =>
    rw [← List.cons_append]
    by_cases hd : d = c
    · subst hd
      rw [before_concat_self]
      simp
    · rw [before_concat_of_ne hd, ih]
      simp [Ne.symm hd]

theorem notMem_beyond (c : κ) (cs : List κ) : c ∉ beyond c cs := by
  intro hc
  simpa using List.mem_rtakeWhile_imp hc

theorem beyond_subset (c : κ) (cs : List κ) : beyond c cs ⊆ cs :=
  (List.rtakeWhile_suffix _ cs).subset

/-- The calls split at the last one for a cell. -/
theorem before_append_beyond {c : κ} {cs : List κ} (hc : c ∈ cs) :
    before c cs ++ c :: beyond c cs = cs := by
  induction cs using List.reverseRecOn with
  | nil => simp at hc
  | append_singleton cs d ih =>
    by_cases hd : d = c
    · subst hd
      rw [before_concat_self, beyond_concat_self]
    · have hcs : c ∈ cs := by
        simpa [Ne.symm hd] using hc
      rw [before_concat_of_ne hd, beyond_concat_of_ne hd, ← List.cons_append, ← List.append_assoc,
        ih hcs]

theorem tangled_clean (hn : l.next head = .cell head) (hp : l.prev head = .cell head) :
    Tangled l head .clean where
  head_notMem := by simp [History.clean]
  entry_ne := by simp [History.clean]
  base_ne := by simp [History.clean]
  based := rfl
  next_head := hn
  prev_head := hp
  prev := by simp [History.clean]
  poisoned := by simp [History.clean, History.first]
  forward := by simp [History.clean, History.first]
  next_last := by simp [History.clean]

theorem tangled_initListHead (l : ListHeap κ) (head : κ) :
    Tangled (initListHead l head) head .clean :=
  tangled_clean (by simp [initListHead]) (by simp [initListHead])

omit [DecidableEq κ] in
/-- A path of `next` pointers depends on those of its cells but the last. -/
theorem follows_transport {l' : ListHeap κ} {ws : List κ} (h : ws.IsChain (Follows l))
    (hn : ∀ x ∈ ws.dropLast, l'.next x = l.next x) : ws.IsChain (Follows l') := by
  induction ws with
  | nil => exact .nil
  | cons x ws ih =>
    cases ws with
    | nil => exact .singleton x
    | cons y ws =>
      obtain ⟨hxy, ht⟩ := List.isChain_cons_cons.mp h
      refine List.isChain_cons_cons.mpr ⟨(hn x (by simp)).trans hxy, ih ht ?_⟩
      intro z hz
      exact hn z (by simp [hz])

/-- The path after one more call, for a cell that is not its first. -/
theorem follows_visit {f x c : κ} {path : List κ} (hpath : (f :: path).IsChain (Follows l))
    (hnd : (f :: path).Nodup) (hx : (f :: path).getLast? = some x) (hc : c ≠ f) :
    (f :: visit path c).IsChain (Follows (listAdd l c x head)) := by
  obtain ⟨as, has⟩ := List.getLast?_eq_some_iff.mp hx
  have hxas : x ∉ as := fun hm => (List.nodup_append.mp (has ▸ hnd)).2.2 x hm x (by simp) rfl
  by_cases hcp : c ∈ path
  · obtain ⟨front, rest, rfl, hfront⟩ := List.eq_append_cons_of_mem hcp
    rw [← List.cons_append, List.isChain_split] at hpath
    rw [← List.cons_append] at hx hnd
    rw [visit_append_cons hfront, ← List.cons_append]
    apply follows_transport hpath.1
    intro y hy
    rw [List.dropLast_concat] at hy
    have hxrest : x ∈ c :: rest := by
      rw [List.getLast?_append_of_ne_nil _ (by simp)] at hx
      exact List.mem_of_getLast? hx
    have hyx : y ≠ x := (List.nodup_append.mp hnd).2.2 y hy x hxrest
    have hyc : y ≠ c := (List.nodup_append.mp hnd).2.2 y hy c (by simp)
    simp [listAdd, Function.update_of_ne hyx, Function.update_of_ne hyc]
  · have hcpath : c ∉ as ++ [x] := by
      rw [← has]
      simp [hc, hcp]
    rw [visit_of_notMem hcp, ← List.cons_append, has, List.append_assoc, List.singleton_append,
      List.isChain_split]
    refine ⟨follows_transport (has ▸ hpath) ?_, List.isChain_pair.mpr (by simp [Follows, listAdd])⟩
    intro y hy
    rw [List.dropLast_concat] at hy
    have hyx : y ≠ x := fun e => hxas (e ▸ hy)
    have hyc : y ≠ c := fun e => hcpath (by simp [← e, hy])
    simp [listAdd, Function.update_of_ne hyx, Function.update_of_ne hyc]

theorem History.pred_add_self (h : History κ) (c : κ) : (h.add c).pred c = h.last := by
  rw [pred, add, before_concat_self, last]

theorem History.pred_add_of_ne (h : History κ) {b c : κ} (hcb : c ≠ b) :
    (h.add c).pred b = h.pred b := by
  rw [pred, add, before_concat_of_ne hcb, pred]

omit [DecidableEq κ] in
theorem History.last_add (h : History κ) (c : κ) : (h.add c).last = some c := by
  simp [add, last]

omit [DecidableEq κ] in
theorem History.first_add (h : History κ) (c : κ) :
    (h.add c).first = some (h.first.getD c) := by
  cases he : h.entry with
  | some e => simp [add, first, he]
  | none =>
    cases ha : h.added with
    | nil => simp [add, first, he, ha]
    | cons a as => simp [add, first, he, ha]

/-- Where a cell was added last, the path behind it ends in the cell added last. -/
theorem getLast?_path {f : κ} {cs : List κ} (hf : f ∈ cs) :
    (f :: loopErase (beyond f cs)).getLast? = cs.getLast? := by
  have hsplit := before_append_beyond hf
  cases hb : beyond f cs with
  | nil =>
    rw [hb] at hsplit
    rw [← hsplit]
    simp [loopErase]
  | cons c rest =>
    have hne : loopErase (beyond f cs) ≠ [] := by
      intro he
      have hl := loopErase_getLast? (beyond f cs)
      rw [he, List.getLast?_nil, eq_comm, List.getLast?_eq_none_iff, hb] at hl
      cases hl
    rw [← hb, List.getLast?_cons_of_ne_nil hne, loopErase_getLast?]
    conv_rhs => rw [← hsplit]
    rw [List.getLast?_append_of_ne_nil _ (by simp), hb, List.getLast?_cons_cons]

theorem path_nodup (f : κ) (cs : List κ) : (f :: loopErase (beyond f cs)).Nodup :=
  List.nodup_cons.mpr ⟨fun hf => notMem_beyond f cs (mem_loopErase hf), loopErase_nodup _⟩

omit [DecidableEq κ] in
theorem History.mem_of_last {y : κ} (hy : h.last = some y) (ha : h.added ≠ []) :
    h.added.getLast? = some y := by
  rwa [last, List.getLast?_eq_some_getLast ha, Option.some_or,
    ← List.getLast?_eq_some_getLast ha] at hy

theorem Tangled.last_ne (ht : Tangled l head h) : h.last ≠ some head := by
  intro hl
  by_cases ha : h.added = []
  · exact ht.base_ne (by simpa [History.last, ha] using hl)
  · exact ht.head_notMem (List.mem_of_getLast? (History.mem_of_last hl ha))

/-- Nothing was added, and nothing is left of an earlier list. -/
theorem Tangled.first_eq_none (ht : Tangled l head h) (hl : h.last = none) : h.first = none := by
  have hb := ht.based
  simp only [History.last, Option.or_eq_none_iff, List.getLast?_eq_none_iff] at hl
  simp_all [History.first]

theorem Tangled.last_eq_none (ht : Tangled l head h) (hf : h.first = none) : h.last = none := by
  have hb := ht.based
  simp only [History.first, Option.or_eq_none_iff, List.head?_eq_none_iff] at hf
  simp_all [History.last]

theorem Tangled.first_ne (ht : Tangled l head h) : h.first ≠ some head := by
  intro hf
  cases he : h.entry with
  | some e => exact ht.entry_ne (by simpa [History.first, he] using hf)
  | none =>
    rw [History.first, he, Option.none_or] at hf
    exact ht.head_notMem (List.mem_of_head? hf)

theorem Tangled.listAddTail {c : κ} (ht : Tangled l head h) (hc : c ≠ head) :
    ∃ l', listAddTail l c head = some l' ∧ Tangled l' head (h.add c) := by
  obtain ⟨x, hx⟩ : ∃ x, h.last.getD head = x := ⟨_, rfl⟩
  have hadd : LinkedListHeap.listAddTail l c head = some (listAdd l c x head) := by
    simp [LinkedListHeap.listAddTail, ht.prev_head, hx]
  refine ⟨_, hadd, ?_⟩
  have hfirst : ∀ f, (h.add c).first = some f → f ≠ c → h.first = some f := by
    intro f hf hfc
    rw [h.first_add, Option.some.injEq] at hf
    cases hh : h.first with
    | none => simp [hh, Ne.symm hfc] at hf
    | some g => simpa [hh] using hf
  constructor
  · simp [History.add, ht.head_notMem, Ne.symm hc]
  · exact ht.entry_ne
  · exact ht.base_ne
  · exact ht.based
  · rw [h.first_add]
    cases hl : h.last with
    | none =>
      rw [hl, Option.getD_none] at hx
      simp [listAdd, ← hx, ht.first_eq_none hl]
    | some y =>
      rw [hl, Option.getD_some] at hx
      have hxh : head ≠ x := by
        rintro rfl
        exact ht.last_ne (hx ▸ hl)
      obtain ⟨f, hf⟩ : ∃ f, h.first = some f := by
        cases hf : h.first with
        | none => simp [ht.last_eq_none hf] at hl
        | some f => exact ⟨f, rfl⟩
      have hn := ht.next_head
      rw [hf] at hn ⊢
      simpa [listAdd, Function.update_of_ne hxh, Function.update_of_ne (Ne.symm hc)] using hn
  · rw [h.last_add]
    simp [listAdd, Function.update_of_ne (Ne.symm hc)]
  · intro b hb
    by_cases hbc : b = c
    · subst hbc
      rw [h.pred_add_self]
      simp [listAdd, hx]
    · have hb : b ∈ h.added := by simpa [History.add, hbc] using hb
      have hbh : b ≠ head := ne_of_mem_of_not_mem hb ht.head_notMem
      rw [h.pred_add_of_ne (Ne.symm hbc), ← ht.prev b hb]
      simp [listAdd, Function.update_of_ne hbc, Function.update_of_ne hbh]
  · intro f hf hadded
    simp only [History.add, List.mem_append, List.mem_singleton, not_or] at hadded
    have hf := hfirst f hf hadded.2
    have hfh : f ≠ head := by
      rintro rfl
      exact ht.first_ne hf
    rw [← ht.poisoned f hf hadded.1]
    simp [listAdd, Function.update_of_ne hadded.2, Function.update_of_ne hfh]
  · intro f hf hadded
    by_cases hfc : f = c
    · subst hfc
      rw [History.add, beyond_concat_self]
      exact .singleton f
    · have hf := hfirst f hf hfc
      have hadded : f ∈ h.added := by simpa [History.add, hfc] using hadded
      have hl : h.added.getLast? = some x := by
        obtain ⟨y, hy⟩ := Option.ne_none_iff_exists'.mp
          (fun e => List.ne_nil_of_mem hadded (List.getLast?_eq_none_iff.mp e))
        rw [hy, ← hx, History.last, hy]
        rfl
      rw [History.add, beyond_concat_of_ne (Ne.symm hfc), loopErase_concat]
      exact follows_visit (ht.forward f hf hadded) (path_nodup f h.added)
        (getLast?_path hadded ▸ hl) (Ne.symm hfc)
  · intro b hb
    obtain rfl : c = b := by simpa [History.add] using hb
    rw [h.pred_add_self]
    cases hl : h.last with
    | none =>
      rw [hl, Option.getD_none] at hx
      simp [listAdd, ← hx, Function.update_of_ne hc]
    | some y =>
      rw [hl, Option.getD_some] at hx
      subst hx
      by_cases hyc : y = c
      · simp [listAdd, hyc]
      · simp [listAdd, hyc, Function.update_of_ne (Ne.symm hyc)]

section Drain

variable {heapOf : σ → ListHeap κ} {body : κ → σ → Option σ} {s t : σ} {f p x : κ}
  {path rest : List κ} {fuel : ℕ}

/-- A loop body that deletes its cell and faults only if that does. -/
structure Deletes (heapOf : σ → ListHeap κ) (head : κ) (body : κ → σ → Option σ) : Prop where
  able : ∀ c s l, c ≠ head → listDel (heapOf s) c = some l → ∃ t, body c s = some t ∧ heapOf t = l
  faults : ∀ c s, listDel (heapOf s) c = none → body c s = none

/-- The pointers after every cell of the path was deleted, the first of which had `p` before it. -/
structure Emptied (l l' : ListHeap κ) (head p : κ) (path : List κ) : Prop where
  prev_head : l'.prev head = .cell p
  next_head : l'.next head = if p = head then .cell head else l.next head
  poisoned : ∀ x ∈ path, l'.prev x = .poison2
  others : ∀ x ∉ head :: path, l'.prev x = l.prev x

omit [DecidableEq κ] in
theorem follows_first (hchain : (f :: rest ++ [head]).IsChain (Follows l)) :
    l.next f = .cell (rest.headD head) := by
  cases rest with
  | nil => exact (List.isChain_cons_cons.mp hchain).1
  | cons g rest => exact (List.isChain_cons_cons.mp hchain).1

theorem listDel_eq {q : κ} (hp : l.prev f = .cell p) (hq : l.next f = .cell q) :
    listDel l f = some (listUnlink l f p q) := by
  simp [listDel, hp, hq]

theorem listUnlink_next_prev (l : ListHeap κ) {p q f : κ} (hpf : p ≠ f) :
    (listUnlink l f p q).next p = .cell q := by
  simp [listUnlink, Function.update_of_ne hpf]

theorem listUnlink_prev_next (l : ListHeap κ) {p q f : κ} (hqf : q ≠ f) :
    (listUnlink l f p q).prev q = .cell p := by
  simp [listUnlink, Function.update_of_ne hqf]

theorem listUnlink_next (l : ListHeap κ) (p q f : κ) : (listUnlink l f p q).next f = .poison1 := by
  simp [listUnlink]

theorem listUnlink_prev (l : ListHeap κ) (p q f : κ) : (listUnlink l f p q).prev f = .poison2 := by
  simp [listUnlink]

theorem listUnlink_next_of_ne (l : ListHeap κ) {p q f x : κ} (hxp : x ≠ p) (hxf : x ≠ f) :
    (listUnlink l f p q).next x = l.next x := by
  simp [listUnlink, Function.update_of_ne hxp, Function.update_of_ne hxf]

theorem listUnlink_prev_of_ne (l : ListHeap κ) {p q f x : κ} (hxq : x ≠ q) (hxf : x ≠ f) :
    (listUnlink l f p q).prev x = l.prev x := by
  simp [listUnlink, Function.update_of_ne hxq, Function.update_of_ne hxf]

/-- Deleting the first cell leaves the way through the others, if the cell before it is none
of them. -/
theorem follows_listUnlink {q : κ} (hchain : (f :: path).IsChain (Follows l))
    (hp : p ∉ path.dropLast) (hf : f ∉ path.dropLast) :
    path.IsChain (Follows (listUnlink l f p q)) := by
  apply follows_transport (List.isChain_cons.mp hchain).2
  intro y hy
  exact listUnlink_next_of_ne l (ne_of_mem_of_not_mem hy hp) (ne_of_mem_of_not_mem hy hf)

/-- Each deletion makes the cell before the first one the predecessor of the next one. -/
theorem forEachFrom_drains (hd : Deletes heapOf head body) (hnd : (head :: path).Nodup)
    (hchain : (path ++ [head]).IsChain (Follows (heapOf s)))
    (hprev : (heapOf s).prev (path.headD head) = .cell p) (hp : p ∉ path.tail)
    (hhead : p = head → (heapOf s).next head = .cell (path.headD head))
    (hfuel : path.length ≤ fuel) :
    ∃ t, forEachFrom heapOf head body fuel (path.headD head)
        ((heapOf s).next (path.headD head)) s = some t ∧
      path.foldlM (fun s c => body c s) s = some t ∧
      Emptied (heapOf s) (heapOf t) head p path := by
  induction path generalizing s fuel with
  | nil =>
    refine ⟨s, by cases fuel <;> simp [forEachFrom], rfl, hprev, ?_, by simp, fun _ _ => rfl⟩
    split
    · next he => exact hhead he
    · rfl
  | cons f rest ih =>
    obtain ⟨fuel, rfl⟩ : ∃ k, fuel = k + 1 := ⟨fuel - 1, by
      simp only [List.length_cons] at hfuel
      omega⟩
    have hnext := follows_first hchain
    have hfh : f ≠ head := fun e => (List.nodup_cons.mp hnd).1 (by simp [e])
    obtain ⟨hfrest, -⟩ := List.nodup_cons.mp (List.nodup_cons.mp hnd).2
    have hprest : p ∉ rest := by simpa using hp
    have hgf : rest.headD head ≠ f := by
      cases rest with
      | nil => exact hfh.symm
      | cons g rest => exact fun e => hfrest (by simp [← e])
    obtain ⟨t, ht, hheap⟩ := hd.able f s _ hfh (listDel_eq hprev hnext)
    have hchain' : (rest ++ [head]).IsChain (Follows (heapOf t)) := by
      rw [hheap]
      exact follows_listUnlink hchain (by simpa using hprest) (by simpa using hfrest)
    have hhead' : p = head → (heapOf t).next head = .cell (rest.headD head) := by
      rintro rfl
      rw [hheap, listUnlink_next_prev _ hfh.symm]
    have hprev' : (heapOf t).prev (rest.headD head) = .cell p := by
      rw [hheap, listUnlink_prev_next _ hgf]
    obtain ⟨z, hz, hfold, he⟩ := ih (s := t)
      (hnd.sublist ((List.sublist_cons_self f rest).cons_cons head)) hchain' hprev'
      (fun hm => hprest (List.mem_of_mem_tail hm)) hhead' (by simpa using hfuel)
    refine ⟨z, by simpa [forEachFrom, hfh, hnext, ht] using hz, by simpa [ht] using hfold,
      he.prev_head, ?_, ?_, ?_⟩
    · rw [he.next_head]
      split
      · rfl
      · next hph => rw [hheap, listUnlink_next_of_ne _ (Ne.symm hph) hfh.symm]
    · intro x hx
      rcases List.mem_cons.mp hx with rfl | hx
      · rw [he.others x (by simp [hfh, hfrest]), hheap, listUnlink_prev]
      · exact he.poisoned x hx
    · intro x hx
      simp only [List.mem_cons, not_or] at hx
      have hxg : x ≠ rest.headD head := by
        cases rest with
        | nil => exact hx.1
        | cons g rest => exact fun e => hx.2.2 (by simp [e])
      rw [he.others x (by simp [hx]), hheap, listUnlink_prev_of_ne _ hxg hx.2.1]

/-- The loop comes back to a cell that it has deleted. -/
theorem forEachFrom_selfLoop (hd : Deletes heapOf head body) (hx : x ≠ head)
    (hnext : (heapOf s).next x = .cell x) (hprev : (heapOf s).prev x = .cell p) (fuel : ℕ) :
    forEachFrom heapOf head body fuel x (.cell x) s = none := by
  cases fuel with
  | zero => simp [forEachFrom, hx]
  | succ fuel =>
    obtain ⟨t, ht, hheap⟩ := hd.able x s _ hx (listDel_eq hprev hnext)
    cases fuel <;> simp [forEachFrom, hx, ht, hheap, listUnlink_next]

/-- The first cell points back at a cell of the path: deleting the cells in between makes that
one its own successor. -/
theorem forEachFrom_faults_of_back (hd : Deletes heapOf head body)
    (hnd : (head :: f :: path ++ [p]).Nodup)
    (hchain : (f :: path ++ [p]).IsChain (Follows (heapOf s)))
    (hprev : (heapOf s).prev f = .cell p) (fuel : ℕ) :
    forEachFrom heapOf head body fuel f ((heapOf s).next f) s = none := by
  induction path generalizing f s fuel with
  | nil =>
    simp only [List.cons_append, List.nil_append, List.nodup_cons, List.mem_cons, List.not_mem_nil,
      or_false, not_or] at hnd
    obtain ⟨⟨hfh, hph⟩, hfp, -⟩ := hnd
    have hnext : (heapOf s).next f = .cell p := (List.isChain_cons_cons.mp hchain).1
    cases fuel with
    | zero => simp [forEachFrom, Ne.symm hfh]
    | succ fuel =>
      obtain ⟨t, ht, hheap⟩ := hd.able f s _ (Ne.symm hfh) (listDel_eq hprev hnext)
      have hself : (heapOf t).next p = .cell p := by
        rw [hheap, listUnlink_next_prev _ (Ne.symm hfp)]
      have hback : (heapOf t).prev p = .cell p := by
        rw [hheap, listUnlink_prev_next _ (Ne.symm hfp)]
      simpa [forEachFrom, Ne.symm hfh, hnext, ht, hself] using
        forEachFrom_selfLoop hd (Ne.symm hph) hself hback fuel
  | cons g path ih =>
    have hnext : (heapOf s).next f = .cell g := (List.isChain_cons_cons.mp hchain).1
    have hfh : f ≠ head := by
      rintro rfl
      simp at hnd
    have hfrest : f ∉ g :: path ++ [p] := (List.nodup_cons.mp (List.nodup_cons.mp hnd).2).1
    have hgf : g ≠ f := fun e => hfrest (by simp [e])
    have hpath : p ∉ g :: path := by
      have hnd' := (List.nodup_cons.mp (List.nodup_cons.mp hnd).2).2
      exact fun hm => (List.nodup_append.mp hnd').2.2 p hm p (by simp) rfl
    cases fuel with
    | zero => simp [forEachFrom, hfh]
    | succ fuel =>
      obtain ⟨t, ht, hheap⟩ := hd.able f s _ hfh (listDel_eq hprev hnext)
      have hrest : (g :: path ++ [p]).IsChain (Follows (heapOf t)) := by
        rw [hheap]
        refine follows_listUnlink hchain ?_ (fun hm => hfrest (List.dropLast_subset _ hm))
        rwa [List.dropLast_concat]
      have hback : (heapOf t).prev g = .cell p := by rw [hheap, listUnlink_prev_next _ hgf]
      have hnd' : (head :: g :: path ++ [p]).Nodup :=
        hnd.sublist ((List.sublist_cons_self f _).cons_cons head)
      simpa [forEachFrom, hfh, hnext, ht] using ih hnd' hrest hback fuel

/-- The last cell is its own successor. -/
theorem forEachFrom_faults_of_loop (hd : Deletes heapOf head body)
    (hnd : (head :: path ++ [x]).Nodup) (hchain : (path ++ [x]).IsChain (Follows (heapOf s)))
    (hnext : (heapOf s).next x = .cell x) (hprev : (heapOf s).prev (path.headD x) = .cell p)
    (hp : p ∉ (path ++ [x]).tail) (fuel : ℕ) :
    forEachFrom heapOf head body fuel (path.headD x) ((heapOf s).next (path.headD x)) s = none := by
  induction path generalizing s fuel with
  | nil =>
    have hx : x ≠ head := by
      rintro rfl
      simp at hnd
    rw [List.headD_nil] at hprev ⊢
    rw [hnext]
    exact forEachFrom_selfLoop hd hx hnext hprev fuel
  | cons f path ih =>
    rw [List.headD_cons] at hprev ⊢
    rw [List.cons_append, List.tail_cons] at hp
    have hfh : f ≠ head := by
      rintro rfl
      simp at hnd
    have hfrest : f ∉ path ++ [x] := (List.nodup_cons.mp (List.nodup_cons.mp hnd).2).1
    have hgf : path.headD x ≠ f := by
      cases path with
      | nil => exact fun e => hfrest (by simp [← e])
      | cons g path => exact fun e => hfrest (by simp [← e])
    have hf : (heapOf s).next f = .cell (path.headD x) := by
      cases path with
      | nil => exact (List.isChain_cons_cons.mp hchain).1
      | cons g path => exact (List.isChain_cons_cons.mp hchain).1
    have hxp : x ≠ p := by
      rintro rfl
      simp at hp
    have hxf : x ≠ f := by
      rintro rfl
      simp at hfrest
    cases fuel with
    | zero => simp [forEachFrom, hfh]
    | succ fuel =>
      obtain ⟨t, ht, hheap⟩ := hd.able f s _ hfh (listDel_eq hprev hf)
      have hrest : (path ++ [x]).IsChain (Follows (heapOf t)) := by
        rw [hheap]
        exact follows_listUnlink hchain (fun hm => hp (List.dropLast_subset _ hm))
          (fun hm => hfrest (List.dropLast_subset _ hm))
      have hself : (heapOf t).next x = .cell x := by
        rw [hheap, listUnlink_next_of_ne _ hxp hxf, hnext]
      have hback : (heapOf t).prev (path.headD x) = .cell p := by
        rw [hheap, listUnlink_prev_next _ hgf]
      have hnd' : (head :: path ++ [x]).Nodup :=
        hnd.sublist ((List.sublist_cons_self f _).cons_cons head)
      simpa [forEachFrom, hfh, hf, ht] using
        ih hnd' hrest hself hback (fun hm => hp (List.mem_of_mem_tail hm)) fuel

theorem forEachFrom_faults_of_poisoned (hd : Deletes heapOf head body) (hf : f ≠ head)
    (hprev : (heapOf s).prev f = .poison2) (n : Link κ) (fuel : ℕ) :
    forEachFrom heapOf head body fuel f n s = none := by
  have hbody : body f s = none := hd.faults f s (by simp [LinkedListHeap.listDel, hprev])
  cases fuel with
  | zero => simp [forEachFrom, hf]
  | succ fuel => cases n <;> simp [forEachFrom, hf, hbody]

/-- A drain leaves nothing behind when there was nothing before and the first cell was added
once. -/
theorem History.drained_entry_iff (hb : h.base.isSome = h.entry.isSome) :
    h.drained.entry = none ↔
      h.entry = none ∧ ∀ f, h.added.head? = some f → f ∉ h.added.tail := by
  cases he : h.entry with
  | some f =>
    obtain ⟨b, hbase⟩ := Option.isSome_iff_exists.mp (by rw [hb, he]; rfl : h.base.isSome)
    have hfirst : h.first = some f := by simp [first, he]
    obtain ⟨p, hp⟩ : ∃ p, h.pred f = some p := by
      rw [pred, hbase]
      cases (before f h.added).getLast? <;> simp
    simp [drained, hfirst, hp]
  | none =>
    have hbase : h.base = none := by simpa [he] using hb
    cases ha : h.added with
    | nil => simp [drained, first, he, ha, clean]
    | cons f cs =>
      have hfirst : h.first = some f := by simp [first, he, ha]
      have hpred : h.pred f = (before f (f :: cs)).getLast? := by simp [pred, ha, hbase]
      have hlast := before_cons_eq_nil_iff f cs
      cases hp : (before f (f :: cs)).getLast? with
      | none =>
        have hnil := List.getLast?_eq_none_iff.mp hp
        simpa [drained, hfirst, hpred, hp, clean] using hlast.mp hnil
      | some p =>
        have hmem : f ∈ cs := by
          by_contra hc
          rw [hlast.mpr hc] at hp
          cases hp
        simp [drained, hfirst, hpred, hp, hmem]

theorem History.drained_added (h : History κ) : h.drained.added = [] := by
  rw [drained]
  split <;> rfl

/-- The last call found its cell last already, or the first cell points back into the path,
or it is not on the list any more. -/
theorem History.not_drainable_iff {f : κ} (hf : h.first = some f) : h.drainable = false ↔
    f ∉ h.added ∨ h.looped = true ∨ ∃ p, h.pred f = some p ∧ p ∈ h.path.tail := by
  simp only [drainable, hf]
  by_cases ha : f ∈ h.added
  · cases hl : h.looped <;> cases hp : h.pred f <;> simp [ha]
  · simp [ha]

theorem Tangled.pred_ne (ht : Tangled l head h) (c : κ) : h.pred c ≠ some head := by
  intro hp
  cases hb : (before c h.added).getLast? with
  | none => exact ht.base_ne (by simpa [History.pred, hb] using hp)
  | some b =>
    obtain rfl : b = head := by simpa [History.pred, hb] using hp
    have hm := List.dropLast_subset _ (List.mem_of_getLast? hb)
    exact ht.head_notMem ((List.rdropWhile_prefix _ _).subset hm)

theorem History.path_eq (hf : h.first = some f) :
    h.path = f :: loopErase (beyond f h.added) := by
  simp [path, hf]

/-- A further call cuts or extends the path. -/
theorem History.path_add {f c : κ} (hf : h.first = some f) (ha : f ∈ h.added) :
    (h.add c).path = visit h.path c := by
  have hfirst : (h.add c).first = some f := by rw [h.first_add, hf, Option.getD_some]
  rw [path_eq hfirst, path_eq hf, add]
  by_cases hfc : c = f
  · subst hfc
    simp [beyond_concat_self, visit, loopErase]
  · rw [beyond_concat_of_ne hfc, loopErase_concat]
    simp [visit, Ne.symm hfc]

theorem History.looped_add (h : History κ) (c : κ) :
    (h.add c).looped = decide (h.last = some c) := by
  have hlast : (h.add c).added.getLast? = some c := by simp [add]
  rw [looped, hlast, Option.any_some, h.pred_add_self]

theorem History.path_nodup (h : History κ) : h.path.Nodup := by
  cases hf : h.first with
  | none => simp [path, hf]
  | some f => exact h.path_eq hf ▸ ReaddedCells.path_nodup f h.added

theorem Tangled.head_notMem_path (ht : Tangled l head h) : head ∉ h.path := by
  intro hm
  cases hf : h.first with
  | none => simp [History.path, hf] at hm
  | some f =>
    rw [h.path_eq hf] at hm
    rcases List.mem_cons.mp hm with rfl | hm
    · exact ht.first_ne hf
    · exact ht.head_notMem (beyond_subset _ _ (mem_loopErase hm))

/-- The path from the head to the cell added last. -/
theorem Tangled.exists_path (ht : Tangled l head h) (hf : h.first = some f) (ha : f ∈ h.added) :
    ∃ front x, h.path = front ++ [x] ∧ h.added.getLast? = some x ∧ front.headD x = f ∧
      (head :: h.path).Nodup ∧ h.path.IsChain (Follows l) := by
  have hpath := h.path_eq hf
  have hlast := getLast?_path ha
  rw [← hpath] at hlast
  obtain ⟨x, hx⟩ : ∃ x, h.path.getLast? = some x := by
    rw [hpath, List.getLast?_eq_some_getLast (by simp)]
    exact ⟨_, rfl⟩
  obtain ⟨front, hfront⟩ := List.getLast?_eq_some_iff.mp hx
  refine ⟨front, x, hfront, hlast ▸ hx, ?_,
    List.nodup_cons.mpr ⟨ht.head_notMem_path, h.path_nodup⟩, hpath ▸ ht.forward f hf ha⟩
  rw [hpath] at hfront
  cases front with
  | nil => exact (List.cons.inj hfront).1.symm
  | cons g front => exact (List.cons.inj hfront).1.symm

/-- The head still points at the cell that was deleted first. -/
theorem tangled_entered (hn : l.next head = .cell f) (hp : l.prev head = .cell p)
    (hf : l.prev f = .poison2) (hfh : f ≠ head) (hph : p ≠ head) :
    Tangled l head ⟨some f, some p, []⟩ where
  head_notMem := by simp
  entry_ne := by simpa using hfh
  base_ne := by simpa using hph
  based := rfl
  next_head := hn
  prev_head := hp
  prev := by simp
  poisoned g hg _ := by
    obtain rfl : f = g := by simpa [History.first] using hg
    exact hf
  forward := by simp
  next_last := by simp

/-- What the loop does where it ends: it deletes the path, in order. -/
theorem Tangled.drain (ht : Tangled (heapOf s) head h) (hd : Deletes heapOf head body)
    (hfuel : h.path.length ≤ fuel) (hok : h.drainable = true) :
    ∃ t, listForEachEntrySafe heapOf head body fuel s = some t ∧
      h.path.foldlM (fun s c => body c s) s = some t ∧ Tangled (heapOf t) head h.drained := by
  have hhead := ht.next_head
  cases hf : h.first with
  | none =>
    have hback := ht.prev_head
    rw [ht.last_eq_none hf] at hback
    rw [hf] at hhead
    have hpath : h.path = [] := by simp [History.path, hf]
    refine ⟨s, ?_, by rw [hpath]; rfl, ?_⟩
    · cases fuel <;> simp [listForEachEntrySafe, hhead, forEachFrom]
    · simpa [History.drained, hf] using tangled_clean hhead hback
  | some f =>
    have hgood := hok
    simp only [History.drainable, hf, Bool.and_eq_true, Bool.not_eq_true', List.contains_iff_mem]
      at hgood
    obtain ⟨⟨ha, hloop⟩, hpred⟩ := hgood
    obtain ⟨front, x, hpath, hx, hfront, hnd, hchain⟩ := ht.exists_path hf ha
    have hfirst := h.path_eq hf
    have hfh : f ≠ head := fun e => ht.first_ne (e ▸ hf)
    have hprev := ht.prev f ha
    have hnextLast : (heapOf s).next x = .cell head := by
      have hx' := ht.next_last x hx
      rw [if_neg] at hx'
      · exact hx'
      · simpa [History.looped, hx] using hloop
    have hring : (h.path ++ [head]).IsChain (Follows (heapOf s)) := by
      rw [hpath, List.append_assoc, List.singleton_append, List.isChain_split]
      exact ⟨hpath ▸ hchain, List.isChain_pair.mpr hnextLast⟩
    have hp : (h.pred f).getD head ∉ h.path.tail := by
      cases hb : h.pred f with
      | none => exact fun hm => (List.nodup_cons.mp hnd).1 (List.mem_of_mem_tail hm)
      | some p => simpa [hb] using hpred
    rw [hf, Option.getD_some] at hhead
    have hheadD : h.path.headD head = f := by rw [hfirst, List.headD_cons]
    obtain ⟨t, ht', hfold, he⟩ := forEachFrom_drains hd hnd hring (hheadD ▸ hprev) hp
      (fun _ => hheadD ▸ hhead) hfuel
    rw [hheadD] at ht'
    refine ⟨t, by simpa [listForEachEntrySafe, hhead] using ht', hfold, ?_⟩
    have hpoison := he.poisoned f (by simp [hfirst])
    have hnext := he.next_head
    have hback := he.prev_head
    cases hb : h.pred f with
    | none =>
      rw [hb] at hnext hback
      simpa [History.drained, hf, hb] using tangled_clean (by simpa using hnext) hback
    | some p =>
      have hph : p ≠ head := fun e => ht.pred_ne f (e ▸ hb)
      rw [hb, Option.getD_some, if_neg hph, hhead] at hnext
      rw [hb, Option.getD_some] at hback
      simpa [History.drained, hf, hb] using tangled_entered hnext hback hpoison hfh hph

theorem Tangled.drain_faults (ht : Tangled (heapOf s) head h) (hd : Deletes heapOf head body)
    (hok : h.drainable = false) (fuel : ℕ) :
    listForEachEntrySafe heapOf head body fuel s = none := by
  cases hf : h.first with
  | none => simp [History.drainable, hf] at hok
  | some f =>
    have hfh : f ≠ head := fun e => ht.first_ne (e ▸ hf)
    have hnext := ht.next_head
    rw [hf, Option.getD_some] at hnext
    rw [listForEachEntrySafe, hnext]
    by_cases ha : f ∈ h.added
    · obtain ⟨front, x, hpath, hx, hfront, hnd, hchain⟩ := ht.exists_path hf ha
      have hprev := ht.prev f ha
      by_cases hback : ∃ p, h.pred f = some p ∧ p ∈ h.path.tail
      · obtain ⟨p, hp, hm⟩ := hback
        rw [hp, Option.getD_some] at hprev
        obtain ⟨mid, rest, hsplit⟩ := List.append_of_mem hm
        have hfull : h.path = f :: mid ++ p :: rest := by
          have hfirst := h.path_eq hf
          rw [hfirst, List.tail_cons] at hsplit
          rw [hfirst, hsplit, List.cons_append]
        rw [hfull] at hnd hchain
        have hmid : (head :: f :: mid ++ [p]).Nodup := by
          refine hnd.sublist (List.Sublist.cons_cons head ?_)
          exact List.Sublist.append_left (by simp) _
        exact forEachFrom_faults_of_back hd hmid (List.isChain_split.mp hchain).1 hprev fuel
      · have hloop : h.looped = true := by
          rcases (h.not_drainable_iff hf).mp hok with hn | hl | hb
          · exact absurd ha hn
          · exact hl
          · exact absurd hb hback
        have hxx : h.pred x = some x := by simpa [History.looped, hx] using hloop
        have hself : (heapOf s).next x = .cell x := by simpa [hxx] using ht.next_last x hx
        have hp : (h.pred f).getD head ∉ (front ++ [x]).tail := by
          rw [← hpath]
          intro hm
          cases hb : h.pred f with
          | none =>
            rw [hb] at hm
            exact (List.nodup_cons.mp hnd).1 (List.mem_of_mem_tail hm)
          | some p => exact hback ⟨p, hb, by simpa [hb] using hm⟩
        rw [hpath] at hnd hchain
        have hfault := forEachFrom_faults_of_loop hd hnd hchain hself (hfront.symm ▸ hprev) hp fuel
        rwa [hfront] at hfault
    · exact forEachFrom_faults_of_poisoned hd hfh (ht.poisoned f hf ha) _ fuel

end Drain

end CameraDrivers.ReaddedCells
