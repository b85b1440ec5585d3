import Mathlib.Data.List.Basic
import WolfCLU.Foundation.CString

namespace Incremental
open CString

structure Digester (σ : Type) where
  update : σ → List Byte → Option σ
  final : σ → Option (List Byte)

variable {σ : Type} {D : Digester σ}

def Digester.Absorbs (D : Digester σ) (chunks : List (List Byte)) (s s' : σ) : Prop :=
  chunks.foldlM D.update s = some s'

theorem absorbs_nil {s s' : σ} : D.Absorbs [] s s' ↔ s = s' := by
  simp only [Digester.Absorbs, List.foldlM_nil, Option.pure_def, Option.some.injEq]

theorem absorbs_cons {c : List Byte} {chunks : List (List Byte)} {s s' : σ} :
    D.Absorbs (c :: chunks) s s' ↔ ∃ t, D.update s c = some t ∧ D.Absorbs chunks t s' := by
  simp only [Digester.Absorbs, List.foldlM_cons, Option.bind_eq_bind, Option.bind_eq_some_iff]

structure Digester.Computes (D : Digester σ) (absorbed : σ → List Byte → Prop)
    (hash : List Byte → List Byte) : Prop where
  update : ∀ {s s' data chunk}, absorbed s data → D.update s chunk = some s' →
    absorbed s' (data ++ chunk)
  final : ∀ {s data d}, absorbed s data → D.final s = some d → d = hash data

section Computes
variable {absorbed : σ → List Byte → Prop} {hash : List Byte → List Byte}

theorem Digester.Computes.run (h : D.Computes absorbed hash) {chunks : List (List Byte)}
    {s s' : σ} {data : List Byte} (hs : absorbed s data) (hrun : D.Absorbs chunks s s') :
    absorbed s' (data ++ chunks.flatten) := by
  induction chunks generalizing s data with
  | nil =>
    cases absorbs_nil.mp hrun
    simpa using hs
  | cons c chunks ih =>
    obtain ⟨t, hupdate, hrest⟩ := absorbs_cons.mp hrun
    have hnext := ih (h.update hs hupdate) hrest
    rwa [List.append_assoc] at hnext

theorem Digester.Computes.digest (h : D.Computes absorbed hash) {chunks : List (List Byte)}
    {s s' : σ} {d : List Byte} (hs : absorbed s []) (hrun : D.Absorbs chunks s s')
    (hfinal : D.final s' = some d) : d = hash chunks.flatten :=
  h.final (h.run hs hrun) hfinal

end Computes

end Incremental
