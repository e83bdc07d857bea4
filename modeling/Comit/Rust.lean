import Mathlib.Data.Fin.Basic
import Mathlib.Algebra.Group.Nat.Basic

/-!
The Rust vocabulary the models share.

* `Outcome` is what a call of a Rust function that returns `Result<α, ε>` comes to: `Ok`,
  `Err`, or a panic. Its `bind` is `?`: an `Err` is returned to the caller and a panic unwinds
  through it. `anyhow::Result<α>` is `Outcome Error α`, the error being the message that
  `anyhow!` or `bail!` formats.
* `U16`, `U32`, `U64` and `Usize` (of a 64-bit target) are the naturals below their bound.
  Arithmetic is checked as a debug build checks it (`addChecked`, `mulChecked`): an overflow
  panics with the message the compiler inserts. `tryFrom` is `<uN>::try_from`.
-/

namespace Comit

/-- What a call of a Rust function returning `Result<α, ε>` comes to: it returns `Ok` or `Err`,
or it panics (an `unwrap`, an `expect`, an arithmetic overflow of a debug build). -/
inductive Outcome (ε α : Type) where
  | ok (a : α)
  | err (e : ε)
  | panic (msg : String)
  deriving DecidableEq, Repr

/-- The message of an `anyhow::Error`. -/
abbrev Error := String

namespace Outcome

variable {ε α β : Type}

/-- `?`: an `Err` is returned to the caller, a panic unwinds through it. -/
def bind : Outcome ε α → (α → Outcome ε β) → Outcome ε β
  | ok a, f => f a
  | err e, _ => err e
  | panic m, _ => panic m

instance : Monad (Outcome ε) where
  pure := ok
  bind := bind

@[simp] theorem pure_eq (a : α) : (pure a : Outcome ε α) = ok a := rfl

@[simp] theorem ok_bind (a : α) (f : α → Outcome ε β) : (ok a >>= f) = f a := rfl

@[simp] theorem err_bind (e : ε) (f : α → Outcome ε β) : (err e >>= f) = err e := rfl

@[simp] theorem panic_bind (m : String) (f : α → Outcome ε β) : (panic m >>= f) = panic m := rfl

/-- The call did not panic. -/
def NoPanic : Outcome ε α → Prop
  | panic _ => False
  | _ => True

@[simp] theorem noPanic_ok (a : α) : NoPanic (ok a : Outcome ε α) := trivial

@[simp] theorem noPanic_err (e : ε) : NoPanic (err e : Outcome ε α) := trivial

end Outcome

/-! ### Fixed-width unsigned integers -/

/-- `u16`. -/
abbrev U16 := Fin (2 ^ 16)

/-- `u32`. -/
abbrev U32 := Fin (2 ^ 32)

/-- `u64`. -/
abbrev U64 := Fin (2 ^ 64)

/-- `usize` of a 64-bit target. -/
abbrev Usize := Fin (2 ^ 64)

section Checked

variable {ε : Type} {w : Nat}

/-- `a + b` on a `w`-bit unsigned integer, as a debug build runs it. -/
def addChecked (a b : Fin (2 ^ w)) : Outcome ε (Fin (2 ^ w)) :=
  if h : a.val + b.val < 2 ^ w then .ok ⟨a.val + b.val, h⟩
  else .panic "attempt to add with overflow"

/-- `a * b` on a `w`-bit unsigned integer, as a debug build runs it. -/
def mulChecked (a b : Fin (2 ^ w)) : Outcome ε (Fin (2 ^ w)) :=
  if h : a.val * b.val < 2 ^ w then .ok ⟨a.val * b.val, h⟩
  else .panic "attempt to multiply with overflow"

theorem addChecked_of_lt {a b : Fin (2 ^ w)} (h : a.val + b.val < 2 ^ w) :
    (addChecked a b : Outcome ε _) = .ok ⟨a.val + b.val, h⟩ := dif_pos h

theorem mulChecked_of_lt {a b : Fin (2 ^ w)} (h : a.val * b.val < 2 ^ w) :
    (mulChecked a b : Outcome ε _) = .ok ⟨a.val * b.val, h⟩ := dif_pos h

/-- An addition that does not fit panics. -/
theorem addChecked_of_le {a b : Fin (2 ^ w)} (h : 2 ^ w ≤ a.val + b.val) :
    (addChecked a b : Outcome ε _) = .panic "attempt to add with overflow" :=
  dif_neg (Nat.not_lt.mpr h)

end Checked

/-- `<uW>::try_from(n)`: `None` stands for the `TryFromIntError`. -/
def tryFrom (w : Nat) (n : Nat) : Option (Fin (2 ^ w)) :=
  if h : n < 2 ^ w then some ⟨n, h⟩ else none

@[simp] theorem tryFrom_eq_some {w n : Nat} {m : Fin (2 ^ w)} :
    tryFrom w n = some m ↔ m.val = n := by
  unfold tryFrom
  split
  · simp only [Option.some.injEq]
    exact ⟨fun h => h ▸ rfl, fun h => Fin.ext h.symm⟩
  · simp only [reduceCtorEq, false_iff]
    omega

theorem tryFrom_eq_none {w n : Nat} : tryFrom w n = none ↔ 2 ^ w ≤ n := by
  unfold tryFrom
  split <;> simp <;> omega

end Comit
