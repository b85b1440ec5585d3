import Mathlib.Tactic

namespace WolfCLU

def wolfcluFatalError : Int := -1
def wolfcluFailure : Int := 0
def wolfcluSuccess : Int := 1

def userInputError : Int := -1001
def outputFileError : Int := -1005

def memoryE : Int := -125
def badFuncArg : Int := -173
def notCompiledIn : Int := -174

theorem bind_eq_ok {ε α β : Type} {x : Except ε α} {f : α → Except ε β} {b : β} :
    x >>= f = .ok b ↔ ∃ a, x = .ok a ∧ f a = .ok b := by
  cases x with
  | error e => simp [bind, Except.bind]
  | ok a => simp [bind, Except.bind]

theorem ok_of_toOption {ε α : Type} {x : Except ε α} {a : α} (h : x.toOption = some a) :
    x = .ok a := by
  cases x with
  | error e => cases h
  | ok b => exact congrArg Except.ok (Option.some.inj h)

def Errors {ε α : Type} (P : ε → Prop) (x : Except ε α) : Prop := ∀ e, x = .error e → P e

section Errors
variable {ε α β : Type} {P : ε → Prop}

theorem errors_ok (a : α) : Errors P (.ok a) := by
  intro e h
  cases h

theorem errors_error {e : ε} (h : P e) : Errors P (.error e : Except ε α) := by
  intro e' heq
  cases heq
  exact h

theorem Errors.bind {x : Except ε α} {f : α → Except ε β} (hx : Errors P x)
    (hf : ∀ a, Errors P (f a)) : Errors P (x >>= f) := by
  cases x with
  | error e => exact errors_error (hx e rfl)
  | ok a => exact hf a

end Errors

def Fails (ret : Int) : Prop := ret ≠ wolfcluSuccess

theorem fails_of_neg {ret : Int} (h : ret < 0) : Fails ret := by
  unfold Fails wolfcluSuccess
  omega

theorem fails_fatal : Fails wolfcluFatalError := fails_of_neg (by decide)

theorem fails_memory : Fails memoryE := fails_of_neg (by decide)

end WolfCLU
