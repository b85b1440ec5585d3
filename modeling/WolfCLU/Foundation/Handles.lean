import Mathlib.Data.List.ReduceOption
import Mathlib.Tactic

namespace Handles

abbrev Handle := Nat

-- handle h stands for the h-th acquisition, and NULL for no handle at all
structure Heap (κ : Type) where
  acquired : List κ
  released : List Handle

variable {κ : Type} {heap : Heap κ} {held held' front back : List (Option Handle)}

namespace Heap

def empty : Heap κ := ⟨[], []⟩

def acquire (k : κ) (heap : Heap κ) : Handle × Heap κ :=
  (heap.acquired.length, { heap with acquired := heap.acquired ++ [k] })

def releaseAll (pointers : List (Option Handle)) (heap : Heap κ) : Heap κ :=
  { heap with released := heap.released ++ pointers.reduceOption }

@[simp] theorem acquire_fst (k : κ) (heap : Heap κ) : (heap.acquire k).1 = heap.acquired.length := rfl

@[simp] theorem acquire_acquired (k : κ) (heap : Heap κ) :
    (heap.acquire k).2.acquired = heap.acquired ++ [k] := rfl

@[simp] theorem acquire_released (k : κ) (heap : Heap κ) :
    (heap.acquire k).2.released = heap.released := rfl

@[simp] theorem releaseAll_acquired (heap : Heap κ) :
    (heap.releaseAll held).acquired = heap.acquired := rfl

@[simp] theorem releaseAll_released (heap : Heap κ) :
    (heap.releaseAll held).released = heap.released ++ held.reduceOption := rfl

theorem releaseAll_null (front back : List (Option Handle)) (heap : Heap κ) :
    heap.releaseAll (front ++ none :: back) = heap.releaseAll (front ++ back) := by
  rw [releaseAll, releaseAll, List.reduceOption_append, List.reduceOption_cons_of_none,
    List.reduceOption_append]

theorem acquired_kept {h : Handle} {k r : κ} (hk : heap.acquired[h]? = some k) :
    (heap.acquire r).2.acquired[h]? = some k := by
  obtain ⟨hlt, hget⟩ := List.getElem?_eq_some_iff.mp hk
  rw [acquire_acquired, List.getElem?_append_left hlt]
  exact hk

theorem acquired_new (r : κ) : (heap.acquire r).2.acquired[(heap.acquire r).1]? = some r := by
  simp

end Heap

def Owned (heap : Heap κ) (held : List (Option Handle)) : Prop :=
  (heap.released ++ held.reduceOption).Perm (List.range heap.acquired.length)

namespace Owned

theorem empty : Owned (Heap.empty : Heap κ) [] := List.Perm.refl _

theorem perm (h : Owned heap held) (hperm : held.Perm held') : Owned heap held' := by
  refine List.Perm.trans ?_ h
  exact List.Perm.append_left _ (hperm.symm.filterMap _)

theorem null_cons : Owned heap (none :: held) ↔ Owned heap held := Iff.rfl

theorem acquire_cons (k : κ) (h : Owned heap held) :
    Owned (heap.acquire k).2 (some (heap.acquire k).1 :: held) := by
  have hmiddle : (heap.released ++ heap.acquired.length :: held.reduceOption).Perm
      (heap.acquired.length :: (heap.released ++ held.reduceOption)) := List.perm_middle
  rw [Owned, Heap.acquire_acquired, Heap.acquire_released, List.reduceOption_cons_of_some,
    List.length_append, List.length_singleton, List.range_succ]
  refine hmiddle.trans ?_
  refine List.Perm.trans (List.Perm.cons _ h) ?_
  exact (List.perm_append_singleton _ _).symm

theorem acquire (k : κ) (h : Owned heap (front ++ none :: back)) :
    Owned (heap.acquire k).2 (front ++ some (heap.acquire k).1 :: back) := by
  have hfree : Owned heap (front ++ back) := null_cons.mp (h.perm List.perm_middle)
  exact (hfree.acquire_cons k).perm List.perm_middle.symm

theorem releaseAll (h : Owned heap (front ++ back)) : Owned (heap.releaseAll front) back := by
  rw [Owned, Heap.releaseAll_released, Heap.releaseAll_acquired, List.append_assoc,
    ← List.reduceOption_append]
  exact h

theorem count_reduceOption (held : List (Option Handle)) (k : Handle) :
    held.reduceOption.count k = held.count (some k) := by
  induction held with
  | nil => rfl
  | cons p held ih =>
    cases p with
    | none => rw [List.reduceOption_cons_of_none, ih, List.count_cons_of_ne (by simp)]
    | some h =>
      rw [List.reduceOption_cons_of_some]
      by_cases heq : h = k
      · rw [heq, List.count_cons_self, List.count_cons_self, ih]
      · rw [List.count_cons_of_ne heq, List.count_cons_of_ne (by simpa using heq), ih]

theorem count (h : Owned heap held) {k : Handle} (hk : k < heap.acquired.length) :
    heap.released.count k + held.count (some k) = 1 := by
  rw [← count_reduceOption, ← List.count_append, h.count_eq, List.count_range, if_pos hk]

section Slots
variable {slots : List κ} {slot slot' : κ → Option Handle} {r : κ}

theorem map_elsewhere (hsame : ∀ r' ≠ r, slot' r' = slot r') {part : List κ} (hr : r ∉ part) :
    part.map slot' = part.map slot := by
  apply List.map_congr_left
  intro r' hmem
  apply hsame
  rintro rfl
  exact hr hmem

theorem acquire_slot (h : Owned heap (slots.map slot)) (hnodup : slots.Nodup) (hr : r ∈ slots)
    (hnull : slot r = none) (hnew : slot' r = some (heap.acquire r).1)
    (hsame : ∀ r' ≠ r, slot' r' = slot r') : Owned (heap.acquire r).2 (slots.map slot') := by
  obtain ⟨before, after, rfl⟩ := List.append_of_mem hr
  obtain ⟨hbefore, hafter⟩ : r ∉ before ∧ r ∉ after := by
    rw [List.nodup_middle, List.nodup_cons, List.mem_append, not_or] at hnodup
    exact hnodup.1
  rw [List.map_append, List.map_cons, hnull] at h
  rw [List.map_append, List.map_cons, hnew, map_elsewhere hsame hbefore,
    map_elsewhere hsame hafter]
  exact h.acquire r

theorem release_slot (h : Owned heap (slots.map slot)) (hnodup : slots.Nodup) (hr : r ∈ slots)
    (hnull : slot' r = none) (hsame : ∀ r' ≠ r, slot' r' = slot r') :
    Owned (heap.releaseAll [slot r]) (slots.map slot') := by
  obtain ⟨before, after, rfl⟩ := List.append_of_mem hr
  obtain ⟨hbefore, hafter⟩ : r ∉ before ∧ r ∉ after := by
    rw [List.nodup_middle, List.nodup_cons, List.mem_append, not_or] at hnodup
    exact hnodup.1
  rw [List.map_append, List.map_cons] at h
  have hfirst : Owned heap ([slot r] ++ (before.map slot ++ after.map slot)) :=
    h.perm List.perm_middle
  rw [List.map_append, List.map_cons, hnull, map_elsewhere hsame hbefore,
    map_elsewhere hsame hafter]
  exact (null_cons.mpr hfirst.releaseAll).perm List.perm_middle.symm

end Slots

end Owned

end Handles
