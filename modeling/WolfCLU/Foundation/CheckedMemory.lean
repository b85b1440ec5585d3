import WolfCLU.Foundation.Buffer

namespace CheckedMemory
open Buffer

variable {α : Type}


def area (m : List α) (off n : Nat) : Option (List α) :=
  if off + n ≤ m.length then some ((m.drop off).take n) else none

def store (m : List α) (off : Nat) (bs : List α) : Option (List α) :=
  if off + bs.length ≤ m.length then some (blit m off bs) else none

def scan [DecidableEq α] (stop : α) (m : List α) (off : Nat) : Option (List α) :=
  if stop ∈ m.drop off then some ((m.drop off).takeWhile (· ≠ stop)) else none

theorem area_of_le {m : List α} {off n : Nat} (h : off + n ≤ m.length) :
    area m off n = some ((m.drop off).take n) := if_pos h

theorem store_of_le {m bs : List α} {off : Nat} (h : off + bs.length ≤ m.length) :
    store m off bs = some (blit m off bs) := if_pos h

theorem scan_of_mem [DecidableEq α] {stop : α} {m : List α} {off : Nat} (h : stop ∈ m.drop off) :
    scan stop m off = some ((m.drop off).takeWhile (· ≠ stop)) := if_pos h

theorem mem_of_found {m : List α} {p : α → Bool} {off n i : Nat}
    (h : ((m.drop off).take n).findIdx? p = some i) : ∃ x ∈ m.drop off, p x = true := by
  obtain ⟨hi, hp, -⟩ := List.findIdx?_eq_some_iff_getElem.mp h
  exact ⟨_, List.mem_of_mem_take (List.getElem_mem hi), hp⟩

abbrev Guarded (ε α : Type) := ExceptT ε Option α

section Guarded
variable {ε β : Type}

def outside : Guarded ε α := ExceptT.mk none

def step (x : Except ε α) : Guarded ε α := ExceptT.mk (some x)

def read (m : List α) (off n : Nat) : Guarded ε (List α) := ExceptT.mk ((area m off n).map Except.ok)

def write (m : List α) (off : Nat) (bs : List α) : Guarded ε (List α) :=
  ExceptT.mk ((store m off bs).map Except.ok)

@[simp] theorem step_ok_bind (a : α) (f : α → Guarded ε β) : (step (.ok a) >>= f) = f a := rfl

@[simp] theorem step_error_bind (e : ε) (f : α → Guarded ε β) :
    (step (.error e) >>= f) = step (.error e) := rfl

theorem read_inside {m : List α} {off n : Nat} (h : off + n ≤ m.length) :
    (read m off n : Guarded ε (List α)) = step (.ok ((m.drop off).take n)) := by
  rw [read, area_of_le h]
  rfl

theorem read_bind_inside {m : List α} {off n : Nat} (h : off + n ≤ m.length)
    (f : List α → Guarded ε β) : (read m off n >>= f) = f ((m.drop off).take n) := by
  rw [read_inside h, step_ok_bind]

theorem write_bind_inside {m bs : List α} {off : Nat} (h : off + bs.length ≤ m.length)
    (f : List α → Guarded ε β) : (write m off bs >>= f) = f (blit m off bs) := by
  rw [write, store_of_le h]
  rfl

theorem read_bind_outside {m : List α} {off n : Nat} (h : m.length < off + n)
    (f : List α → Guarded ε β) : (read m off n >>= f) = outside := by
  rw [read, area, if_neg (not_le.mpr h)]
  rfl

theorem outside_bind (f : α → Guarded ε β) : (outside >>= f) = outside := rfl

theorem outside_ne_step (x : Except ε α) : outside ≠ step x := nofun

theorem step_bind_congr {x : Except ε α} {f : α → Guarded ε β} {g : α → Except ε β}
    (h : ∀ a, x = .ok a → f a = step (g a)) : (step x >>= f) = step (x >>= g) := by
  cases x with
  | error e => rfl
  | ok a => exact h a rfl

end Guarded

end CheckedMemory
