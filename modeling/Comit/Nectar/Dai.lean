import Comit.Text.Float

/-!
`Amount` of `nectar`'s `ethereum::dai` (`src/ethereum/dai.rs`): a quantity of attodai, and
`Amount::as_dai_rounded`, which turns it into an `f64` of dai by cutting the decimal rendering of
the atto amount and parsing the result.

The `f64` is represented by the numeral handed to `f64::from_str` (the literal `0.0` on the
short branch); `numeralValue` is the number it denotes, before `from_str` rounds it to the
nearest `f64`.

* `asDaiRounded_cases` — the numeral is digits, a point and one or two digits, and it spells
  `a / 10 ^ 16` hundredths (integer division).
* `asDaiRounded_spec` — so `f64::from_str` accepts it (the `expect` never fires) and it denotes
  `⌊a / 10 ^ 16⌋ / 100` dai: the amount is truncated to hundredths, not rounded.
* `asDaiRounded_truncates` — `1.235` dai becomes the numeral `1.23`.
-/

namespace Comit

/-- `ATTOS_IN_DAI_EXP`. -/
def attosInDaiExp : Nat := 18

/-- `Amount(BigUint)`: a quantity of attodai. -/
structure Amount where
  val : Nat
  deriving DecidableEq, Repr

namespace Amount

/-- `Amount::as_dai_rounded`: the numeral it parses with `f64::from_str`, or the literal `0.0`
it returns when the rendering has at most `16` digits. -/
def asDaiRounded (self : Amount) : List Char :=
  let str := decimal self.val
  let precision := 2
  let truncate := attosInDaiExp - precision
  if str.length > truncate then
    let str := str.take (str.length - truncate)
    match str.length with
    | 1 => "0.0".toList ++ str
    | 2 => "0.".toList ++ str
    | _ => str.take (str.length - precision) ++ '.' :: str.drop (str.length - precision)
  else "0.0".toList

private theorem digitsValue_zero_cons (s : List Char) : digitsValue ('0' :: s) = digitsValue s := by
  rw [← List.singleton_append, digitsValue_append, show digitsValue ['0'] = 0 from rfl, Nat.zero_mul,
    Nat.zero_add]

private theorem isDigit_zero : '0'.isDigit = true := by decide

/-- The numeral is `p.q` with one or two fraction digits, and `p` hundreds plus `q` in its place
is the amount in hundredths of dai, truncated. -/
theorem asDaiRounded_cases (a : Amount) :
    ∃ p q, a.asDaiRounded = p ++ '.' :: q ∧ p ≠ [] ∧ q ≠ [] ∧ q.length ≤ 2 ∧
      (∀ c ∈ p ++ q, c.isDigit = true) ∧
      digitsValue p * 100 + digitsValue q * 10 ^ (2 - q.length) = a.val / 10 ^ 16 := by
  have hlen : (decimal a.val).length > 16 ↔ 10 ^ 16 ≤ a.val := lt_length_decimal 15 a.val
  unfold asDaiRounded
  simp only [attosInDaiExp, show 18 - 2 = 16 from rfl]
  split
  · rename_i h
    rw [take_decimal (hlen.mp h)]
    generalize a.val / 10 ^ 16 = N
    have digits : ∀ c ∈ decimal N, c.isDigit = true := fun _ => isDigit_of_mem_decimal
    have hpos := List.length_pos.mpr (decimal_ne_nil N)
    split
    · rename_i h1
      refine ⟨['0'], '0' :: decimal N, rfl, by simp, by simp, by simp [h1], ?_, ?_⟩
      · simpa [isDigit_zero] using digits
      · simp only [digitsValue_zero_cons, digitsValue_nil, digitsValue_decimal, List.length_cons, h1]
        omega
    · rename_i h2
      refine ⟨['0'], decimal N, rfl, by simp, decimal_ne_nil N, by omega, ?_, ?_⟩
      · simpa [isDigit_zero] using digits
      · simp only [digitsValue_zero_cons, digitsValue_nil, digitsValue_decimal, h2]
        omega
    · rename_i h1 h2
      simp only [imp_false] at h1 h2
      have h100 : 10 ^ 2 ≤ N := (lt_length_decimal 1 N).mp (by omega)
      have hdrop : ((decimal N).drop ((decimal N).length - 2)).length = 2 := by
        rw [List.length_drop]
        omega
      refine ⟨_, _, rfl, by rw [take_decimal h100]; exact decimal_ne_nil _,
        by rw [← List.length_pos, hdrop]; omega, hdrop.le, ?_, ?_⟩
      · intro c hc
        rw [List.take_append_drop] at hc
        exact isDigit_of_mem_decimal hc
      · rw [take_decimal h100, digitsValue_decimal, digitsValue_drop_decimal h100, hdrop]
        omega
  · rename_i h
    refine ⟨['0'], ['0'], rfl, by simp, by simp, by simp, by simp [isDigit_zero], ?_⟩
    rw [Nat.div_eq_of_lt (by omega)]
    rfl

/-- **`as_dai_rounded` truncates to hundredths.** `f64::from_str` accepts the numeral it builds,
which has at most two fraction digits and denotes `⌊a / 10 ^ 16⌋ / 100` dai. -/
theorem asDaiRounded_spec (a : Amount) :
    (∃ p q, a.asDaiRounded = p ++ '.' :: q ∧ p ≠ [] ∧ q ≠ [] ∧ q.length ≤ 2 ∧
      ∀ c ∈ p ++ q, c.isDigit = true) ∧
    numeralValue a.asDaiRounded = ((a.val / 10 ^ 16 : Nat) : ℚ) / 100 := by
  obtain ⟨p, q, htext, hp, hq, hq2, digits, hval⟩ := asDaiRounded_cases a
  refine ⟨⟨p, q, htext, hp, hq, hq2, digits⟩, ?_⟩
  rw [htext, numeralValue_point fun c hc => digits c (List.mem_append_left q hc), ← hval]
  have : q.length = 1 ∨ q.length = 2 := by
    have := List.length_pos.mpr hq
    omega
  rcases this with h | h <;> rw [h] <;> push_cast <;> ring

/-- `1.235` dai, which rounds to `1.24`, becomes the numeral `1.23`. -/
theorem asDaiRounded_truncates :
    (Amount.mk (1235 * 10 ^ 15)).asDaiRounded = "1.23".toList ∧
    numeralValue "1.23".toList = 123 / 100 ∧
    (((1235 * 10 ^ 15 + 5 * 10 ^ 15) / 10 ^ 16 : Nat) : ℚ) / 100 = 124 / 100 := by
  refine ⟨by decide, ?_, by norm_num⟩
  rw [show "1.23".toList = ['1'] ++ '.' :: ['2', '3'] from rfl,
    numeralValue_point (by decide)]
  norm_num [show digitsValue ['1'] = 1 from rfl, show digitsValue ['2', '3'] = 23 from rfl]

end Amount

end Comit
