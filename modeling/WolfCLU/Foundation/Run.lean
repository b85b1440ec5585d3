import Mathlib.Tactic

namespace Run

variable {σ ι ο : Type}

def final (step : ι → σ → σ × ο) : List ι → σ → σ
  | [], s => s
  | i :: is, s => final step is (step i s).1

def outputs (step : ι → σ → σ × ο) : List ι → σ → List ο
  | [], _ => []
  | i :: is, s => (step i s).2 :: outputs step is (step i s).1

def Admissible (step : ι → σ → σ × ο) (adm : ι → σ → Prop) : List ι → σ → Prop
  | [], _ => True
  | i :: is, s => adm i s ∧ Admissible step adm is (step i s).1

variable {step : ι → σ → σ × ο} {adm : ι → σ → Prop}

theorem history_from {P : List ο → σ → Prop}
    (hstep : ∀ past i s, P past s → adm i s → P (past ++ [(step i s).2]) (step i s).1)
    {is : List ι} {past : List ο} {s : σ} (hs : P past s) (h : Admissible step adm is s) :
    P (past ++ outputs step is s) (final step is s) := by
  induction is generalizing past s with
  | nil =>
    rw [outputs, List.append_nil]
    exact hs
  | cons i is ih =>
    obtain ⟨hi, his⟩ := h
    have hnext := ih (hstep past i s hs hi) his
    rw [List.append_assoc, List.singleton_append] at hnext
    exact hnext

theorem history_invariant {P : List ο → σ → Prop}
    (hstep : ∀ past i s, P past s → adm i s → P (past ++ [(step i s).2]) (step i s).1)
    {is : List ι} {s : σ} (hs : P [] s) (h : Admissible step adm is s) :
    P (outputs step is s) (final step is s) :=
  history_from hstep hs h

theorem admissible_of_forall {is : List ι} (h : ∀ i ∈ is, ∀ s, adm i s) (s : σ) :
    Admissible step adm is s := by
  induction is generalizing s with
  | nil => trivial
  | cons i is ih =>
    exact ⟨h i List.mem_cons_self s, ih (fun j hj => h j (List.mem_cons_of_mem i hj)) _⟩

end Run
