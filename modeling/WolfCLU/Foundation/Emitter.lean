import WolfCLU.Foundation.Buffer

abbrev Emitter (α : Type) := Option (List α) → Nat → Nat × Option (List α)

namespace Emitter
open Buffer

variable {α : Type}

def put (bs : List α) : Emitter α := fun output off => (bs.length, output.map (blit · off bs))

def andThen (f g : Emitter α) : Emitter α := fun output off =>
  let (n, output) := f output off
  let (m, output) := g output (off + n)
  (n + m, output)

def Reaches (output : Option (List α)) (off : Nat) : Prop := ∀ buffer ∈ output, off ≤ buffer.length

def Emits (f : Emitter α) (bs : List α) : Prop :=
  ∀ output off, Reaches output off → f output off = put bs output off

theorem reaches_none (off : Nat) : Reaches (none : Option (List α)) off := by
  intro buffer hbuffer
  cases hbuffer

theorem reaches_put {output : Option (List α)} {off : Nat} (bs : List α) (h : Reaches output off) :
    Reaches (put bs output off).2 (off + bs.length) := by
  intro buffer hbuffer
  cases output with
  | none => cases hbuffer
  | some old =>
    cases hbuffer
    have hold := h old rfl
    simp only [blit, List.length_append, List.length_take, List.length_drop]
    omega

theorem emits_put (bs : List α) : Emits (put bs) bs := fun _ _ _ => rfl

theorem Emits.andThen {f g : Emitter α} {xs ys : List α} (hf : Emits f xs) (hg : Emits g ys) :
    Emits (andThen f g) (xs ++ ys) := by
  intro output off h
  have hnext := reaches_put xs h
  simp only [Emitter.andThen, hf output off h]
  rw [show (put xs output off).1 = xs.length from rfl, hg _ _ hnext]
  cases output with
  | none => simp [put]
  | some buffer =>
    simp only [put, Option.map_some, List.length_append, blit_blit (h buffer rfl)]

theorem Emits.count {f : Emitter α} {bs : List α} (h : Emits f bs) (off : Nat) :
    f none off = (bs.length, none) := h none off (reaches_none off)

theorem Emits.written {f : Emitter α} {bs buffer : List α} (h : Emits f bs) {off : Nat}
    (hoff : off ≤ buffer.length) : f (some buffer) off = (bs.length, some (blit buffer off bs)) := by
  refine h (some buffer) off ?_
  intro b hb
  cases hb
  exact hoff

end Emitter
