import Mathlib.Tactic

namespace Conversion

structure Codec (φ δ τ : Type) where
  encode : φ → δ → Option τ
  decode : φ → τ → Option δ

variable {φ δ α : Type}

section Convert
variable {τ : Type} {c : Codec φ δ τ} {f g : φ} {t u : τ}

def Codec.convert (c : Codec φ δ τ) (f g : φ) (t : τ) : Option τ := (c.decode f t).bind (c.encode g)

def Codec.Reads (c : Codec φ δ τ) : Prop := ∀ ⦃f d t⦄, c.encode f d = some t → c.decode f t = some d

theorem convert_eq_some : c.convert f g t = some u ↔
    ∃ d, c.decode f t = some d ∧ c.encode g d = some u := by
  rw [Codec.convert, Option.bind_eq_some_iff]

end Convert

section Preceded
variable {c : Codec φ δ (List α)} {f g k : φ} {t u p : List α}

def Codec.Skips (c : Codec φ δ (List α)) (f : φ) (p : List α) : Prop :=
  ∀ ⦃d t⦄, c.encode f d = some t → c.decode f (p ++ t) = some d

theorem Codec.Reads.skips_nil (hc : c.Reads) (f : φ) : c.Skips f [] := fun _ _ h => hc h

theorem decode_preceded (hp : c.Skips g p) (h : c.convert f g t = some u) :
    c.decode g (p ++ u) = c.decode f t := by
  obtain ⟨d, hdecode, hencode⟩ := convert_eq_some.mp h
  rw [hp hencode, hdecode]

theorem convert_preceded (hp : c.Skips g p) (h : c.convert f g t = some u) :
    c.convert g k (p ++ u) = c.convert f k t := by
  rw [Codec.convert, Codec.convert, decode_preceded hp h]

end Preceded

end Conversion
