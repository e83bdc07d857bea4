import Comit.Text.Decimal
import Mathlib.Algebra.Order.Field.Rat
import Mathlib.Tactic.FieldSimp

/-!
Floating-point numbers as the code reads them: through their decimal text.

`Spread::new` and `Rate::from_f64` never compute with an `f64`; they test its sign and
finiteness and then cut up `to_string()`. `as_dai_rounded` goes the other way, building a numeral
and handing it to `f64::from_str`. So an `F64` here is what those functions observe of one: its
sign bit, whether it is finite, and the `Numeral` that Rust's `Display` prints for it (the
integer part without leading zeros, no exponent, and a fraction only when the value is not an
integer, never ending in `0`). `numeralValue` is the number a numeral denotes, the value
`f64::from_str` rounds to the nearest `f64`; the rounding itself is not modelled.

* `findIdx?_render`, `take_render`, `drop_render` — `find('.')` and `split_off` cut a
  rendering exactly into its integer part and its fraction.
* `numeralValue_render`, `numeralValue_point` — a numeral denotes its integer part plus its
  fraction digits over the matching power of ten.
* `Numeral.value_mul_pow`, `Numeral.digitsValue_frac_mod_ten` — shifting the point past the
  fraction gives the natural number `int · 10 ^ f + frac`; its last digit, the last digit of the
  fraction, is not zero.
-/

namespace Comit

/-- The text `f64::to_string` prints for a finite, non-negative value. -/
structure Numeral where
  int : Nat
  frac : List Char
  frac_digits : ∀ c ∈ frac, c.isDigit = true
  frac_last : frac.getLast? ≠ some '0'

namespace Numeral

/-- The characters: the integer part, then `.` and the fraction when there is one. -/
def render (x : Numeral) : List Char :=
  if x.frac = [] then decimal x.int else decimal x.int ++ '.' :: x.frac

/-- The number a numeral denotes. -/
def value (x : Numeral) : ℚ := x.int + digitsValue x.frac / 10 ^ x.frac.length

end Numeral

/-- An `f64` as the code observes it. `display` is read only when the value is finite. -/
structure F64 where
  isSignNegative : Bool
  isFinite : Bool
  display : Numeral

/-- `x.to_string()`. -/
def F64.toString (x : F64) : List Char := x.display.render

/-- The number a numeral `int` or `int.frac` denotes. -/
def numeralValue (s : List Char) : ℚ :=
  match s.findIdx? (· == '.') with
  | none => digitsValue s
  | some i => digitsValue (s.take i) + digitsValue (s.drop (i + 1)) / 10 ^ (s.drop (i + 1)).length

/-! ### Cutting a rendering at its point -/

private theorem point_not_digit : '.'.isDigit = false := by decide

theorem findIdx?_point_eq_none {s : List Char} (h : ∀ c ∈ s, c.isDigit = true) :
    s.findIdx? (· == '.') = none :=
  List.findIdx?_eq_none_iff.mpr fun c hc => by
    cases hp : c == '.'
    · rfl
    · have := h c hc
      rw [beq_iff_eq.mp hp, point_not_digit] at this
      exact absurd this (by decide)

/-- `find('.')` on digits, a point and more: the index of that point. -/
theorem findIdx?_point_append {s t : List Char} (h : ∀ c ∈ s, c.isDigit = true) :
    (s ++ '.' :: t).findIdx? (· == '.') = some s.length := by
  rw [List.findIdx?_append, findIdx?_point_eq_none h]
  simp

theorem findIdx?_render (x : Numeral) :
    x.render.findIdx? (· == '.') =
      if x.frac = [] then none else some (decimal x.int).length := by
  unfold Numeral.render
  split
  · exact findIdx?_point_eq_none fun _ => isDigit_of_mem_decimal
  · exact findIdx?_point_append fun _ => isDigit_of_mem_decimal

/-- `split_off(i + 1)` keeps the integer part and the point. -/
theorem take_render {x : Numeral} (h : x.frac ≠ []) :
    x.render.take ((decimal x.int).length + 1) = decimal x.int ++ ['.'] := by
  rw [Numeral.render, if_neg h, List.append_cons]
  exact List.take_left' (by simp)

/-- `split_off(i + 1)` returns the fraction. -/
theorem drop_render {x : Numeral} (h : x.frac ≠ []) :
    x.render.drop ((decimal x.int).length + 1) = x.frac := by
  rw [Numeral.render, if_neg h, List.append_cons]
  exact List.drop_left' (by simp)

/-- `truncate(len - 1)` removes the point again. -/
theorem take_length_sub_one_append_point (s : List Char) :
    (s ++ ['.']).take ((s ++ ['.']).length - 1) = s := by
  rw [List.length_append, List.length_singleton, Nat.add_sub_cancel, List.take_left]

/-! ### What a numeral denotes -/

theorem Numeral.value_mul_pow (x : Numeral) :
    x.value * 10 ^ x.frac.length = ((x.int * 10 ^ x.frac.length + digitsValue x.frac : Nat) : ℚ) := by
  rw [Numeral.value]
  push_cast
  field_simp

/-- A fraction that does not end in `0` is not a multiple of ten. -/
theorem Numeral.digitsValue_frac_mod_ten {x : Numeral} (h : x.frac ≠ []) :
    digitsValue x.frac % 10 ≠ 0 := by
  obtain ⟨init, c, hc⟩ := List.eq_nil_or_concat x.frac |>.resolve_left h
  have digit := toNat_of_isDigit (x.frac_digits c (by simp [hc]))
  have last : c ≠ '0' := fun h0 => x.frac_last (by simp [hc, h0])
  have ne : c.toNat ≠ 48 := fun h48 => last (eq_zero_of_toNat h48)
  rw [hc, List.concat_eq_append, digitsValue_append]
  show (digitsValue init * 10 ^ 1 + (0 * 10 + (c.toNat - '0'.toNat))) % 10 ≠ 0
  have : '0'.toNat = 48 := rfl
  omega

theorem numeralValue_point {s t : List Char} (h : ∀ c ∈ s, c.isDigit = true) :
    numeralValue (s ++ '.' :: t) = digitsValue s + digitsValue t / 10 ^ t.length := by
  have hd : (s ++ '.' :: t).drop (s.length + 1) = t := by
    rw [List.append_cons, List.drop_left' (by simp)]
  rw [numeralValue, findIdx?_point_append h]
  dsimp only
  rw [List.take_left, hd]

theorem numeralValue_digits {s : List Char} (h : ∀ c ∈ s, c.isDigit = true) :
    numeralValue s = digitsValue s := by
  rw [numeralValue, findIdx?_point_eq_none h]

/-- **A rendering denotes the numeral's value.** -/
theorem numeralValue_render (x : Numeral) : numeralValue x.render = x.value := by
  unfold Numeral.render Numeral.value
  split
  · rename_i h
    rw [numeralValue_digits fun _ => isDigit_of_mem_decimal, digitsValue_decimal, h]
    simp
  · rw [numeralValue_point fun _ => isDigit_of_mem_decimal, digitsValue_decimal]

end Comit
