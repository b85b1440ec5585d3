import Mathlib.Tactic

namespace Renewal

variable {ε : Type} {change renew : ε → Prop}

def Renewed (change renew : ε → Prop) (log : List ε) : Prop :=
  ∀ front e back, log = front ++ e :: back → change e → ∃ r ∈ back, renew r

theorem renewed_concat {log : List ε} {r : ε} (hr : renew r) (hquiet : ¬ change r) :
    Renewed change renew (log ++ [r]) := by
  intro front e back hlog hchange
  rcases List.eq_nil_or_concat' back with rfl | ⟨rest, last, rfl⟩
  · obtain ⟨-, hlast⟩ := List.append_inj' hlog rfl
    cases hlast
    exact absurd hchange hquiet
  · rw [← List.cons_append, ← List.append_assoc] at hlog
    obtain ⟨-, hlast⟩ := List.append_inj' hlog rfl
    cases hlast
    exact ⟨r, by simp, hr⟩

theorem renewed_iff_quiet {log : List ε} (hnone : ∀ e ∈ log, ¬ renew e) :
    Renewed change renew log ↔ ∀ e ∈ log, ¬ change e := by
  constructor
  · intro h e he hchange
    obtain ⟨front, back, rfl⟩ := List.append_of_mem he
    obtain ⟨r, hr, hrenew⟩ := h front e back rfl hchange
    exact hnone r (List.mem_append_right front (List.mem_cons_of_mem e hr)) hrenew
  · rintro h front e back rfl hchange
    exact absurd hchange (h e (List.mem_append_right front List.mem_cons_self))

end Renewal
