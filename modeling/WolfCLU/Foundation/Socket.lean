import Mathlib.Tactic

namespace Socket

variable {α : Type}

inductive Event (α : Type) where
  | interrupted
  | failed
  | segment (bs : List α)
  deriving DecidableEq, Repr

def bytes : List (Event α) → List α
  | [] => []
  | .interrupted :: s => bytes s
  | .failed :: _ => []
  | .segment bs :: s => if bs.isEmpty then [] else bs ++ bytes s

@[simp] theorem bytes_segment {bs : List α} (h : bs ≠ []) (s : List (Event α)) :
    bytes (.segment bs :: s) = bs ++ bytes s := by
  simp [bytes, h]

structure Received (α : Type) where
  n : Int
  interrupted : Bool
  data : List α
  rest : List (Event α)

def recv (s : List (Event α)) (len : Nat) : Received α :=
  match s with
  | [] => ⟨0, false, [], []⟩
  | .interrupted :: s => ⟨-1, true, [], s⟩
  | .failed :: s => ⟨-1, false, [], s⟩
  | .segment bs :: s =>
    ⟨(bs.take len).length, false, bs.take len,
      if len < bs.length then .segment (bs.drop len) :: s else s⟩

def oneSegment (bs : List α) : List (Event α) := [.segment bs]

def twoSegments (bs : List α) (t : Nat) : List (Event α) :=
  [.segment (bs.take t), .segment (bs.drop t)]

theorem bytes_oneSegment (bs : List α) : bytes (oneSegment bs) = bs := by
  cases bs <;> simp [oneSegment, bytes]

theorem bytes_twoSegments {bs : List α} {t : Nat} (ht : 0 < t) :
    bytes (twoSegments bs t) = bs := by
  cases bs with
  | nil => simp [twoSegments, bytes]
  | cons b bs =>
    cases t with
    | zero => omega
    | succ t =>
      by_cases hd : bs.length ≤ t
      · simp [twoSegments, bytes, hd]
      · simp [twoSegments, bytes, hd, List.take_append_drop]

end Socket
