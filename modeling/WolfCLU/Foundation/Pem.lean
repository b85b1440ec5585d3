import WolfCLU.Foundation.Base64
import WolfCLU.Foundation.CString

namespace Pem
open Base64 CString

def header (label : List Byte) : List Byte := str "-----BEGIN " ++ label ++ str "-----\n"

def footer (label : List Byte) : List Byte := str "-----END " ++ label ++ str "-----\n"

def armor (label der : List Byte) : List Byte :=
  header label ++ (lines (encode der) ++ footer label)

def unarmor (label text : List Byte) : Option (List Byte) :=
  if text.take (header label).length ≠ header label then none
  else
    let rest := text.drop (header label).length
    let body := rest.takeWhile (· ≠ 45)
    if (rest.drop body.length).take (footer label).length ≠ footer label then none
    else decode (body.filter fun c => c ≠ 10)

theorem dash_not_mem_lines (der : List Byte) : (45 : Byte) ∉ lines (encode der) := by
  intro hmem
  rcases mem_lines hmem with h | h
  · exact dash_not_mem_encode der h
  · exact absurd h (by decide)

theorem footer_cons (label : List Byte) : ∃ rest, footer label = 45 :: rest := by
  refine ⟨str "----END " ++ label ++ str "-----\n", ?_⟩
  rw [footer, show str "-----END " = 45 :: str "----END " by decide]
  rfl

theorem takeWhile_body (label der : List Byte) :
    (lines (encode der) ++ footer label).takeWhile (· ≠ 45) = lines (encode der) := by
  obtain ⟨rest, hfooter⟩ := footer_cons label
  have hbody : ∀ c ∈ lines (encode der), decide (c ≠ 45) = true := by
    intro c hc
    have hne : c ≠ 45 := by
      rintro rfl
      exact dash_not_mem_lines der hc
    exact decide_eq_true hne
  rw [List.takeWhile_append_of_pos hbody, hfooter, List.takeWhile_cons_of_neg (by decide),
    List.append_nil]

theorem unarmor_armor (label der : List Byte) : unarmor label (armor label der) = some der := by
  have hfooter : (footer label).take (footer label).length = footer label := List.take_length
  rw [unarmor, armor, List.take_left, if_neg (fun h => h rfl), List.drop_left]
  simp only [takeWhile_body, List.drop_left, hfooter, ne_eq, not_true_eq_false, if_false]
  have hstripped := filter_lines (newline_not_mem_encode der)
  simp only [ne_eq] at hstripped
  rw [hstripped, decode_encode]

theorem armor_length (label der : List Byte) : der.length ≤ (armor label der).length := by
  have hfewer := (congrArg List.length (filter_lines (newline_not_mem_encode der))).ge.trans
    (List.length_filter_le _ (lines (encode der)))
  have hencoded := encode_length der
  simp only [armor, List.length_append]
  omega

end Pem
