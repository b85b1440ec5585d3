import WolfCLU.Foundation.Buffer
import WolfCLU.Foundation.CString
import WolfCLU.Foundation.Socket

namespace WolfCLU
open Buffer CString

abbrev SocketT := List (Socket.Event Byte)

def recv (sockfd : SocketT) (len : Nat) : Socket.Received Byte :=
  match sockfd with
  | .interrupted :: s => recv s len
  | s => Socket.recv s len

theorem recv_cases (sockfd : SocketT) {len : Nat} (hlen : 0 < len) :
    ((recv sockfd len).n ≤ 0 ∧ Socket.bytes sockfd = []) ∨
      ((recv sockfd len).n = (recv sockfd len).data.length ∧ (recv sockfd len).data ≠ [] ∧
        (recv sockfd len).data.length ≤ len ∧
        Socket.bytes sockfd = (recv sockfd len).data ++ Socket.bytes (recv sockfd len).rest) := by
  induction sockfd with
  | nil => left; simp [recv, Socket.recv, Socket.bytes]
  | cons e s ih =>
    cases e with
    | interrupted => simpa [recv, Socket.bytes] using ih
    | failed => left; simp [recv, Socket.recv, Socket.bytes]
    | segment bs =>
      cases bs with
      | nil => left; simp [recv, Socket.recv, Socket.bytes]
      | cons b bs =>
        right
        have hne : b :: bs ≠ [] := List.cons_ne_nil b bs
        simp only [recv, Socket.recv, Socket.bytes_segment hne]
        refine ⟨trivial, ?_, List.length_take_le _ _, ?_⟩
        · cases len with
          | zero => omega
          | succ len => simp
        · by_cases hlt : len < (b :: bs).length
          · have hd : (b :: bs).drop len ≠ [] := by simpa using hlt
            rw [if_pos hlt, Socket.bytes_segment hd, ← List.append_assoc, List.take_append_drop]
          · rw [if_neg hlt, List.take_of_length_le (by omega)]

end WolfCLU
