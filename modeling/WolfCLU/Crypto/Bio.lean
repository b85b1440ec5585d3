import WolfCLU.Foundation.CString

namespace WolfCLU
open CString

inductive BioKind where
  | file
  | mem
  deriving DecidableEq, Repr

structure Bio where
  kind : BioKind
  rest : List Byte
  deriving DecidableEq, Repr

def Bio.read (bio : Bio) (n : Nat) : Int × List Byte × Bio :=
  if bio.rest = [] then
    match bio.kind with
    | .file => (0, [], bio)
    | .mem => (-1, [], bio)
  else ((bio.rest.take n).length, bio.rest.take n, { bio with rest := bio.rest.drop n })

theorem Bio.read_nil (kind : BioKind) (n : Nat) : (Bio.read ⟨kind, []⟩ n).1 ≤ 0 := by
  cases kind <;> simp [Bio.read]

theorem Bio.read_of_ne (kind : BioKind) {xs : List Byte} (hne : xs ≠ []) (n : Nat) :
    Bio.read ⟨kind, xs⟩ n = (((xs.take n).length : Int), xs.take n, ⟨kind, xs.drop n⟩) := by
  simp only [Bio.read, if_neg hne]

theorem Bio.read_rest_lt {bio : Bio} {n : Nat} (h : 0 < (bio.read n).1) :
    (bio.read n).2.2.rest.length < bio.rest.length := by
  obtain ⟨kind, xs⟩ := bio
  by_cases hne : xs = []
  · subst hne
    have := Bio.read_nil kind n
    omega
  · have := List.length_pos_iff.mpr hne
    rw [Bio.read_of_ne kind hne] at h ⊢
    simp only [List.length_take, List.length_drop] at h ⊢
    omega

theorem Bio.read_append (kind : BioKind) {xs : List Byte} (hne : xs ≠ []) (ys : List Byte) :
    Bio.read ⟨kind, xs ++ ys⟩ xs.length = ((xs.length : Int), xs, ⟨kind, ys⟩) := by
  have h : xs ++ ys ≠ [] := by simp [hne]
  simp only [Bio.read, if_neg h, List.take_left, List.drop_left]

end WolfCLU
