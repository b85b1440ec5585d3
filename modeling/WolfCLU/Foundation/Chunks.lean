import Mathlib.Tactic

namespace Chunks

variable {α σ : Type}

def chunks (n : Nat) (xs : List α) : List (List α) :=
  if n = 0 ∨ xs = [] then [] else xs.take n :: chunks n (xs.drop n)
termination_by xs.length
decreasing_by
  rename_i h
  have := List.length_pos_iff.mpr (not_or.mp h).2
  rw [List.length_drop]
  omega

theorem chunks_nil (n : Nat) : chunks n ([] : List α) = [] := by
  rw [chunks, if_pos (Or.inr rfl)]

theorem chunks_of_ne {n : Nat} (hn : 0 < n) {xs : List α} (h : xs ≠ []) :
    chunks n xs = xs.take n :: chunks n (xs.drop n) := by
  rw [chunks, if_neg (not_or.mpr ⟨by omega, h⟩)]

theorem chunks_induct {n : Nat} (hn : 0 < n) {motive : List α → Prop} (nil : motive [])
    (more : ∀ xs, xs ≠ [] → motive (xs.drop n) → motive xs) (xs : List α) : motive xs := by
  induction h : xs.length using Nat.strong_induction_on generalizing xs with
  | _ len ih =>
    cases xs with
    | nil => exact nil
    | cons x xs =>
      refine more _ (List.cons_ne_nil x xs) (ih _ ?_ _ rfl)
      simp only [List.length_drop, List.length_cons] at h ⊢
      omega

theorem flatten_chunks {n : Nat} (hn : 0 < n) (xs : List α) : (chunks n xs).flatten = xs := by
  induction xs using chunks_induct hn with
  | nil => rw [chunks_nil, List.flatten_nil]
  | more xs hne ih =>
    rw [chunks_of_ne hn hne, List.flatten_cons, ih, List.take_append_drop]

structure Transformer (σ α : Type) where
  update : σ → List α → Option (σ × List α)
  final : σ → Option (List α)

def Transformer.run (T : Transformer σ α) (s : σ) : List (List α) → Option (List α)
  | [] => T.final s
  | c :: cs =>
    match T.update s c with
    | none => none
    | some (s', o) => (T.run s' cs).map (o ++ ·)

end Chunks
