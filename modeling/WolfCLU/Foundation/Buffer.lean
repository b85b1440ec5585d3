import Mathlib.Tactic

namespace Buffer

variable {α : Type}

def blit (buffer : List α) (off : Nat) (bs : List α) : List α :=
  buffer.take off ++ bs ++ buffer.drop (off + bs.length)

theorem blit_length {buffer bs : List α} {off : Nat} (h : off + bs.length ≤ buffer.length) :
    (blit buffer off bs).length = buffer.length := by
  simp only [blit, List.length_append, List.length_take, List.length_drop]
  omega

theorem blit_take_append {buffer bs : List α} {off : Nat} (h : off ≤ buffer.length) :
    (blit buffer off bs).take (off + bs.length) = buffer.take off ++ bs := by
  have hl : (buffer.take off ++ bs).length = off + bs.length := by
    simp only [List.length_append, List.length_take]
    omega
  rw [blit, ← hl, List.take_left]

theorem blit_take_of_le {buffer bs : List α} {off k : Nat} (hk : k ≤ off)
    (h : off ≤ buffer.length) : (blit buffer off bs).take k = buffer.take k := by
  rw [blit, List.append_assoc, List.take_append_of_le_length (by simp only [List.length_take]; omega),
    List.take_take, Nat.min_eq_left hk]

theorem blit_window {buffer bs : List α} {off : Nat} (h : off ≤ buffer.length) :
    ((blit buffer off bs).drop off).take bs.length = bs := by
  have hl : (buffer.take off).length = off := by rw [List.length_take, Nat.min_eq_left h]
  rw [blit, List.append_assoc, List.drop_left' hl, List.take_left]

theorem blit_nil (buffer : List α) (off : Nat) : blit buffer off [] = buffer := by
  simp [blit]

theorem blit_blit {buffer xs ys : List α} {off : Nat} (h : off ≤ buffer.length) :
    blit (blit buffer off xs) (off + xs.length) ys = blit buffer off (xs ++ ys) := by
  have hl : (buffer.take off ++ xs).length = off + xs.length := by
    rw [List.length_append, List.length_take, Nat.min_eq_left h]
  conv_lhs => rw [blit, blit_take_append h, blit, List.drop_append, hl]
  rw [List.drop_of_length_le (by omega), blit]
  simp [Nat.add_assoc]

end Buffer
