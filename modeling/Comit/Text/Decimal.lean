import Comit.Rust
import Mathlib.Tactic.Ring

/-!
Decimal text, as the code prints and parses integers.

* `decimal n` is `n.to_string()` for an unsigned integer (and a `BigUint`): Lean's own
  `Nat.toDigits 10`, most significant digit first, `"0"` for zero.
* `fromStr w s` is `<uW>::from_str(s)`: an optional `+`, one or more ASCII digits, a value that
  fits; `none` stands for the `ParseIntError`. `digitsValue` is the value it accumulates.

Everything the models need is derived from one equation, `decimal_eq`: the last digit of `n`
comes off the end of `decimal n` and leaves `decimal (n / 10)`.

* `getLast?_decimal`, `dropLast_decimal` — the last character is the digit of `n % 10`;
  removing it (`String::truncate(len - 1)`) leaves the rendering of `n / 10`.
* `lt_length_decimal`, `take_decimal`, `digitsValue_drop_decimal` — `decimal n` is longer than
  `k + 1` characters exactly when `10 ^ (k + 1) ≤ n`; cutting its last `k` characters leaves the
  rendering of `n / 10 ^ k`, and those `k` characters are worth `n % 10 ^ k`.
* `fromStr_decimal` — parsing a rendering gives the number back.
-/

namespace Comit

/-! ### Rendering -/

/-- `n.to_string()`: the decimal digits of `n`, most significant first. -/
def decimal (n : Nat) : List Char := Nat.toDigits 10 n

private theorem toDigitsCore_succ (f n : Nat) (ds : List Char) :
    Nat.toDigitsCore 10 (f + 1) n ds =
      if n / 10 = 0 then Nat.digitChar (n % 10) :: ds
      else Nat.toDigitsCore 10 f (n / 10) (Nat.digitChar (n % 10) :: ds) := rfl

private theorem toDigitsCore_append (f n : Nat) (ds : List Char) :
    Nat.toDigitsCore 10 f n ds = Nat.toDigitsCore 10 f n [] ++ ds := by
  induction f generalizing n ds with
  | zero => rfl
  | succ f ih =>
    rw [toDigitsCore_succ, toDigitsCore_succ]
    split
    · rfl
    · rw [ih _ (_ :: ds), ih _ [_]]
      simp

private theorem toDigitsCore_fuel {f g n : Nat} (hf : n < f) (hg : n < g) (ds : List Char) :
    Nat.toDigitsCore 10 f n ds = Nat.toDigitsCore 10 g n ds := by
  induction f generalizing g n ds with
  | zero => omega
  | succ f ih =>
    obtain ⟨g, rfl⟩ : ∃ g', g = g' + 1 := ⟨g - 1, by omega⟩
    rw [toDigitsCore_succ, toDigitsCore_succ]
    split
    · rfl
    · exact ih (by omega) (by omega) _

/-- **The last digit comes off the end.** -/
theorem decimal_eq (n : Nat) :
    decimal n = (if n < 10 then [] else decimal (n / 10)) ++ [Nat.digitChar (n % 10)] := by
  rw [show decimal n = Nat.toDigitsCore 10 (n + 1) n [] from rfl, toDigitsCore_succ]
  split
  · rw [if_pos (by omega)]
    rfl
  · rw [if_neg (by omega), toDigitsCore_append,
      toDigitsCore_fuel (g := n / 10 + 1) (by omega) (by omega)]
    rfl

theorem decimal_of_lt_ten {n : Nat} (h : n < 10) : decimal n = [Nat.digitChar n] := by
  rw [decimal_eq, if_pos h, Nat.mod_eq_of_lt h]
  rfl

theorem decimal_of_ten_le {n : Nat} (h : 10 ≤ n) :
    decimal n = decimal (n / 10) ++ [Nat.digitChar (n % 10)] := by
  rw [decimal_eq, if_neg (by omega)]

theorem decimal_ne_nil (n : Nat) : decimal n ≠ [] := by
  rw [decimal_eq]
  simp

theorem getLast?_decimal (n : Nat) : (decimal n).getLast? = some (Nat.digitChar (n % 10)) := by
  rw [decimal_eq, List.getLast?_concat]

theorem dropLast_decimal {n : Nat} (h : 10 ≤ n) : (decimal n).dropLast = decimal (n / 10) := by
  rw [decimal_of_ten_le h, List.dropLast_concat]

theorem length_decimal_of_ten_le {n : Nat} (h : 10 ≤ n) :
    (decimal n).length = (decimal (n / 10)).length + 1 := by
  rw [decimal_of_ten_le h, List.length_append, List.length_singleton]

/-- The one character of a digit below ten. -/
theorem digitChar_eq_zero_iff {d : Nat} (h : d < 10) : Nat.digitChar d = '0' ↔ d = 0 := by
  have : ∀ d < 10, (Nat.digitChar d = '0' ↔ d = 0) := by decide
  exact this d h

/-- `String::ends_with('0')` on a rendering is divisibility by ten. -/
theorem getLast?_decimal_eq_zero_iff (n : Nat) :
    (decimal n).getLast? = some '0' ↔ n % 10 = 0 := by
  rw [getLast?_decimal, Option.some.injEq, digitChar_eq_zero_iff (Nat.mod_lt _ (by omega))]

/-- `decimal n` is longer than `k + 1` characters exactly when `n` has more than `k + 1`
digits. -/
theorem lt_length_decimal (k n : Nat) : k + 1 < (decimal n).length ↔ 10 ^ (k + 1) ≤ n := by
  induction k generalizing n with
  | zero =>
    by_cases h : 10 ≤ n
    · simp only [length_decimal_of_ten_le h, zero_add, pow_one, h, iff_true]
      have := decimal_ne_nil (n / 10)
      have := List.length_pos.mpr this
      omega
    · simp [decimal_of_lt_ten (Nat.lt_of_not_le h), h]
  | succ k ih =>
    by_cases h : 10 ≤ n
    · rw [length_decimal_of_ten_le h, Nat.add_lt_add_iff_right, ih,
        Nat.le_div_iff_mul_le (by omega), ← pow_succ]
    · simp only [decimal_of_lt_ten (Nat.lt_of_not_le h), List.length_singleton]
      have : 10 ≤ 10 ^ (k + 1 + 1) := Nat.le_self_pow (by omega) 10 |>.trans' (by rfl)
      omega

/-- `String::truncate(len - k)` on a rendering leaves the rendering of `n / 10 ^ k`. -/
theorem take_decimal {k n : Nat} (h : 10 ^ k ≤ n) :
    (decimal n).take ((decimal n).length - k) = decimal (n / 10 ^ k) := by
  induction k generalizing n with
  | zero => simp
  | succ k ih =>
    have hn : 10 ≤ n := le_trans (Nat.le_self_pow (by omega) 10) h
    have hk : 10 ^ k ≤ n / 10 := by
      rw [Nat.le_div_iff_mul_le (by omega), ← pow_succ]
      exact h
    have hlen : k ≤ (decimal (n / 10)).length := by
      rcases k with _ | k
      · omega
      · exact ((lt_length_decimal k _).mpr hk).le
    rw [length_decimal_of_ten_le hn, decimal_of_ten_le hn, Nat.add_sub_add_right,
      List.take_append_of_le_length (by omega), ih hk, Nat.div_div_eq_div_mul, ← pow_succ']

/-! ### Digits and their value -/

/-- Every character of a rendering is an ASCII digit. -/
theorem isDigit_of_mem_decimal {n : Nat} {c : Char} (h : c ∈ decimal n) : c.isDigit = true := by
  have digit : ∀ d < 10, (Nat.digitChar d).isDigit = true := by decide
  induction n using Nat.strong_induction_on with
  | _ n ih =>
    rw [decimal_eq, List.mem_append, List.mem_singleton] at h
    rcases h with h | rfl
    · split at h
      · simp at h
      · exact ih _ (Nat.div_lt_self (by omega) (by omega)) h
    · exact digit _ (Nat.mod_lt _ (by omega))

/-- The value `<uW>::from_str` accumulates over a run of digits, most significant first. -/
def digitsValue (s : List Char) : Nat :=
  s.foldl (fun acc c => acc * 10 + (c.toNat - '0'.toNat)) 0

private theorem foldl_digits (a : Nat) (s : List Char) :
    s.foldl (fun acc c => acc * 10 + (c.toNat - '0'.toNat)) a =
      a * 10 ^ s.length + digitsValue s := by
  induction s generalizing a with
  | nil => simp [digitsValue]
  | cons c s ih =>
    have hc : digitsValue (c :: s) =
        (0 * 10 + (c.toNat - '0'.toNat)) * 10 ^ s.length + digitsValue s := ih _
    rw [List.foldl_cons, ih, hc, List.length_cons, pow_succ]
    ring

@[simp] theorem digitsValue_nil : digitsValue [] = 0 := rfl

theorem digitsValue_append (s t : List Char) :
    digitsValue (s ++ t) = digitsValue s * 10 ^ t.length + digitsValue t := by
  rw [digitsValue, List.foldl_append, foldl_digits]
  rfl

theorem digitsValue_singleton_digitChar {d : Nat} (h : d < 10) :
    digitsValue [Nat.digitChar d] = d := by
  have : ∀ d < 10, digitsValue [Nat.digitChar d] = d := by decide
  exact this d h

@[simp] theorem digitsValue_decimal (n : Nat) : digitsValue (decimal n) = n := by
  induction n using Nat.strong_induction_on with
  | _ n ih =>
    rw [decimal_eq, digitsValue_append, digitsValue_singleton_digitChar (Nat.mod_lt _ (by omega))]
    split
    · simp only [digitsValue_nil, zero_mul, zero_add]
      exact Nat.mod_eq_of_lt ‹_›
    · rw [ih _ (Nat.div_lt_self (by omega) (by omega))]
      simp only [List.length_singleton, pow_one]
      omega

/-- The last `k` characters of a rendering are worth `n % 10 ^ k`. -/
theorem digitsValue_drop_decimal {k n : Nat} (h : 10 ^ k ≤ n) :
    digitsValue ((decimal n).drop ((decimal n).length - k)) = n % 10 ^ k := by
  have whole := digitsValue_decimal n
  rw [← List.take_append_drop ((decimal n).length - k) (decimal n), digitsValue_append,
    take_decimal h, digitsValue_decimal, List.length_drop] at whole
  have hk : k ≤ (decimal n).length := by
    rcases k with _ | k
    · omega
    · exact ((lt_length_decimal k n).mpr h).le
  rw [Nat.sub_sub_self hk] at whole
  have := Nat.div_add_mod n (10 ^ k)
  rw [Nat.mul_comm] at this
  omega

/-- An ASCII digit sits between `'0'` and `'9'`. -/
theorem toNat_of_isDigit {c : Char} (h : c.isDigit = true) : 48 ≤ c.toNat ∧ c.toNat ≤ 57 := by
  simp only [Char.isDigit, Bool.and_eq_true, decide_eq_true_eq] at h
  exact ⟨h.1, h.2⟩

theorem eq_zero_of_toNat {c : Char} (h : c.toNat = 48) : c = '0' :=
  Char.ext (UInt32.eq_of_val_eq (Fin.ext h))

/-- `k` digits are worth less than `10 ^ k`. -/
theorem digitsValue_lt_pow {s : List Char} (h : ∀ c ∈ s, c.isDigit = true) :
    digitsValue s < 10 ^ s.length := by
  induction s with
  | nil => simp
  | cons c s ih =>
    have hc := toNat_of_isDigit (h c (List.mem_cons_self c s))
    have hs := ih fun d hd => h d (List.mem_cons_of_mem c hd)
    rw [← List.singleton_append, digitsValue_append, List.length_append, List.length_singleton,
      Nat.add_comm 1, pow_succ]
    have : digitsValue [c] = c.toNat - 48 := by
      simp only [digitsValue, List.foldl, Nat.zero_mul, Nat.zero_add]
      rfl
    rw [this]
    have h9 : c.toNat - 48 ≤ 9 := by omega
    calc (c.toNat - 48) * 10 ^ s.length + digitsValue s
        < (c.toNat - 48) * 10 ^ s.length + 10 ^ s.length := by omega
      _ ≤ 9 * 10 ^ s.length + 10 ^ s.length := by gcongr
      _ = 10 ^ s.length * 10 := by ring

/-! ### Parsing -/

/-- `<uW>::from_str(s)`: an optional `+`, then one or more ASCII digits whose value fits in
`w` bits. `none` is the `ParseIntError` (empty, invalid digit, or overflow). -/
def fromStr (w : Nat) (s : List Char) : Option (Fin (2 ^ w)) :=
  let digits := if s.head? = some '+' then s.tail else s
  if digits ≠ [] ∧ digits.all Char.isDigit then tryFrom w (digitsValue digits) else none

/-- On a nonempty run of digits, `from_str` is the range check of its value. -/
theorem fromStr_digits (w : Nat) {s : List Char} (hs : s ≠ [])
    (hd : ∀ c ∈ s, c.isDigit = true) : fromStr w s = tryFrom w (digitsValue s) := by
  have hhead : s.head? ≠ some '+' := by
    intro h
    have := hd '+' (List.mem_of_mem_head? h)
    exact absurd this (by decide)
  simp only [fromStr, if_neg hhead, List.all_eq_true.mpr hd]
  exact if_pos ⟨hs, trivial⟩

/-- **Parsing a rendering gives the number back.** -/
theorem fromStr_decimal (w : Nat) (n : Nat) :
    fromStr w (decimal n) = tryFrom w n := by
  rw [fromStr_digits w (decimal_ne_nil n) (fun _ => isDigit_of_mem_decimal),
    digitsValue_decimal]

end Comit
