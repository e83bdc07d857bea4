import Comit.Text.Float
import Mathlib.Tactic.Positivity
import Mathlib.Tactic.NormNum.Ineq

/-!
`Rate` of `nectar` (`src/rate.rs`): a conversion rate `integer · 10 ^ (-inv_dec_exp)` with a
`u32` integer, built by `Rate::new` and `Rate::from_f64`.

`Rate::reduce` strips trailing zeros by printing the integer, cutting its last character and
parsing the rest again. `stripZeros` is what that computes, said with division by ten
(`reduce_spec`); every law below is proved of `stripZeros` and carried to the code through it.

* `stripZeros_mul`, `stripZeros_canonical` — stripping keeps the value and ends in canonical
  form: the exponent is zero, or the integer is not a multiple of ten, or it is zero.
* `canonical_unique` — two canonical pairs of one nonzero value are the same pair.
* `reduce_spec`, `new_isOk_iff` — `reduce` never panics and returns `stripZeros`; `new` returns
  `Ok` exactly when the stripped integer fits in `u32`, and `Err` otherwise.
* `fromF64_exact` — on a finite, non-negative `f64` whose numeral has `f` fraction digits and
  value `v`, `from_f64` returns a rate of value `v` exactly when `f ≤ 9` and `v · 10 ^ f < 2 ^ 32`,
  an `Err` otherwise, and never panics.
-/

namespace Comit

/-- `Rate`: the number `integer · 10 ^ (-inv_dec_exp)`. The derived `PartialEq` compares the
fields. -/
structure Rate where
  integer : U32
  invDecExp : Usize
  deriving DecidableEq, Repr

namespace Rate

/-- `Rate::MAX_PRECISION`. -/
def maxPrecision : Nat := 9

/-- The number a rate stands for. -/
def value (r : Rate) : ℚ := r.integer.val / 10 ^ r.invDecExp.val

/-- No trailing zero can come off: the exponent is zero, or the integer is not a multiple of
ten, or it is zero. -/
def Canonical (r : Rate) : Prop :=
  r.invDecExp.val = 0 ∨ r.integer.val % 10 ≠ 0 ∨ r.integer.val = 0

/-! ### Stripping trailing zeros -/

/-- What `Rate::reduce` computes: divide out tens while the exponent allows. -/
def stripZeros : Nat → Nat → Nat × Nat
  | n, 0 => (n, 0)
  | n, e + 1 => if 10 ≤ n ∧ n % 10 = 0 then stripZeros (n / 10) e else (n, e + 1)

/-- Stripping keeps the value: `j · 10 ^ e = n · 10 ^ d` for `(j, d) = stripZeros n e`. -/
theorem stripZeros_mul (n e : Nat) :
    (stripZeros n e).1 * 10 ^ e = n * 10 ^ (stripZeros n e).2 := by
  induction e generalizing n with
  | zero => rfl
  | succ e ih =>
    simp only [stripZeros]
    split
    · rename_i h
      rw [pow_succ, ← Nat.mul_assoc, ih, Nat.mul_right_comm, Nat.div_mul_cancel
        (Nat.dvd_of_mod_eq_zero h.2)]
    · rfl

theorem stripZeros_snd_le (n e : Nat) : (stripZeros n e).2 ≤ e := by
  induction e generalizing n with
  | zero => exact le_rfl
  | succ e ih =>
    simp only [stripZeros]
    split
    · exact (ih _).trans (Nat.le_succ e)
    · exact le_rfl

/-- Canonical form of a pair, as `Canonical` reads it on a rate. -/
def CanonicalPair (j d : Nat) : Prop := d = 0 ∨ j % 10 ≠ 0 ∨ j = 0

theorem stripZeros_canonical (n e : Nat) :
    CanonicalPair (stripZeros n e).1 (stripZeros n e).2 := by
  induction e generalizing n with
  | zero => exact .inl rfl
  | succ e ih =>
    simp only [stripZeros]
    split
    · exact ih _
    · rename_i h
      unfold CanonicalPair
      omega

/-- A canonical pair is left as it is. -/
theorem stripZeros_of_canonical {n e : Nat} (h : CanonicalPair n e) : stripZeros n e = (n, e) := by
  cases e with
  | zero => rfl
  | succ e =>
    unfold CanonicalPair at h
    rw [stripZeros, if_neg (by omega)]

private theorem canonical_unique_of_le {j d j' d' : Nat} (hc' : CanonicalPair j' d')
    (hj : j ≠ 0) (heq : j * 10 ^ d' = j' * 10 ^ d) (hle : d ≤ d') : j = j' ∧ d = d' := by
  obtain ⟨k, rfl⟩ := Nat.exists_eq_add_of_le hle
  have hj' : j * 10 ^ k = j' := by
    apply Nat.eq_of_mul_eq_mul_right (show 0 < 10 ^ d by positivity)
    rw [← heq, pow_add]
    ring
  cases k with
  | zero => simp only [pow_zero, Nat.mul_one] at hj'; exact ⟨hj', rfl⟩
  | succ k =>
    exfalso
    have hpos : 0 < 10 ^ k := by positivity
    unfold CanonicalPair at hc'
    rw [← hj', pow_succ] at hc'
    rcases hc' with h | h | h
    · omega
    · exact h (by rw [← Nat.mul_assoc]; exact Nat.mul_mod_left _ _)
    · exact hj (by simpa [hpos.ne'] using h)

/-- **Canonical forms are unique**: two canonical pairs of one nonzero value coincide. -/
theorem canonical_unique {j d j' d' : Nat} (hc : CanonicalPair j d) (hc' : CanonicalPair j' d')
    (hj : j ≠ 0) (heq : j * 10 ^ d' = j' * 10 ^ d) : j = j' ∧ d = d' := by
  rcases Nat.le_total d d' with hle | hle
  · exact canonical_unique_of_le hc' hj heq hle
  · have hj' : j' ≠ 0 := by
      rintro rfl
      simp only [Nat.zero_mul, Nat.mul_eq_zero, pow_eq_zero_iff', OfNat.ofNat_ne_zero,
        false_and, or_false] at heq
      exact hj heq
    obtain ⟨h1, h2⟩ := canonical_unique_of_le hc hj' heq.symm hle
    exact ⟨h1.symm, h2.symm⟩

/-- Inputs of one nonzero value strip to the same pair. -/
theorem stripZeros_eq_of_mul_eq {n e n' e' : Nat} (hn : n ≠ 0) (h : n * 10 ^ e' = n' * 10 ^ e) :
    stripZeros n e = stripZeros n' e' := by
  have hj : (stripZeros n e).1 ≠ 0 := by
    intro h0
    have := stripZeros_mul n e
    rw [h0, Nat.zero_mul] at this
    exact hn (by simpa using this.symm)
  have key : (stripZeros n e).1 * 10 ^ (stripZeros n' e').2 =
      (stripZeros n' e').1 * 10 ^ (stripZeros n e).2 := by
    have m := stripZeros_mul n e
    have m' := stripZeros_mul n' e'
    apply Nat.eq_of_mul_eq_mul_right (show 0 < 10 ^ e * 10 ^ e' by positivity)
    calc (stripZeros n e).1 * 10 ^ (stripZeros n' e').2 * (10 ^ e * 10 ^ e')
        = ((stripZeros n e).1 * 10 ^ e) * 10 ^ (stripZeros n' e').2 * 10 ^ e' := by ring
      _ = n * 10 ^ e' * 10 ^ (stripZeros n e).2 * 10 ^ (stripZeros n' e').2 := by rw [m]; ring
      _ = n' * 10 ^ e * 10 ^ (stripZeros n e).2 * 10 ^ (stripZeros n' e').2 := by rw [h]
      _ = ((stripZeros n' e').1 * 10 ^ e') * 10 ^ (stripZeros n e).2 * 10 ^ e := by rw [m']; ring
      _ = (stripZeros n' e').1 * 10 ^ (stripZeros n e).2 * (10 ^ e * 10 ^ e') := by ring
  obtain ⟨h1, h2⟩ := canonical_unique (stripZeros_canonical n e) (stripZeros_canonical n' e') hj key
  exact Prod.ext h1 h2

/-! ### `Rate::reduce` and `Rate::new` -/

theorem usize_natCast_val {n : Nat} (h : n < 2 ^ 64) : ((n : Usize)).val = n := by
  rw [Fin.val_natCast]
  exact Nat.mod_eq_of_lt h

theorem usize_val_sub_one {a : Usize} (h : a ≠ 0) : (a - 1).val = a.val - 1 := by
  have : a.val ≠ 0 := fun h' => h (Fin.ext h')
  rw [Fin.sub_def]
  simp only [Fin.val_one']
  have := a.isLt
  omega

/-- `Rate::reduce`: while the printed integer has more than one character, ends with `0`, and
the exponent is not zero, cut the `0` off, parse the rest and lower the exponent. -/
def reduce (integer : U64) (invDecExp : Usize) : Outcome Error (U64 × Usize) :=
  let integerStr := decimal integer.val
  if h : integerStr.length > 1 ∧ integerStr.getLast? = some '0' ∧ invDecExp ≠ 0 then
    match fromStr 64 (integerStr.take (integerStr.length - 1)) with
    | some integer => reduce integer (invDecExp - 1)
    | none => .panic "an integer"
  else .ok (integer, invDecExp)
termination_by invDecExp.val
decreasing_by
  rw [usize_val_sub_one h.2.2]
  have : invDecExp.val ≠ 0 := fun h' => h.2.2 (Fin.ext h')
  omega

/-- `Rate::new`. -/
def new (integer : U64) (inverseDecimalExponent : Usize) : Outcome Error Rate := do
  let (integer, invDecExp) ← reduce integer inverseDecimalExponent
  match tryFrom 32 integer.val with
  | none => .err "Value is unexpectedly large."
  | some integer => pure ⟨integer, invDecExp⟩

/-- The string test of `reduce` is the arithmetic test of `stripZeros`. -/
theorem reduce_test_iff (n : Nat) (e : Usize) :
    ((decimal n).length > 1 ∧ (decimal n).getLast? = some '0' ∧ e ≠ 0) ↔
      (10 ≤ n ∧ n % 10 = 0 ∧ e.val ≠ 0) := by
  rw [gt_iff_lt, lt_length_decimal 0 n, getLast?_decimal_eq_zero_iff, Ne, Ne, Fin.ext_iff]
  rfl

/-- **`reduce` never panics, and computes `stripZeros`.** -/
theorem reduce_spec (i e : Usize) :
    ∃ j d, reduce i e = .ok (j, d) ∧ (j.val, d.val) = stripZeros i.val e.val := by
  induction i, e using reduce.induct with
  | case1 i e _ test j parse ih =>
    obtain ⟨j', d', hred, hstrip⟩ := ih
    have test : (decimal i.val).length > 1 ∧ (decimal i.val).getLast? = some '0' ∧ e ≠ 0 := test
    have parse : fromStr 64 ((decimal i.val).take ((decimal i.val).length - 1)) = some j := parse
    have hstep : reduce i e = reduce j (e - 1) := by
      rw [reduce, dif_pos test]
      simp only [parse]
    have ht := (reduce_test_iff i.val e).mp test
    rw [← List.dropLast_eq_take, dropLast_decimal ht.1, fromStr_decimal, tryFrom_eq_some] at parse
    refine ⟨j', d', hstep.trans hred, ?_⟩
    obtain ⟨k, hk⟩ : ∃ k, e.val = k + 1 := ⟨e.val - 1, by omega⟩
    rw [hstrip, parse, usize_val_sub_one test.2.2, hk, stripZeros, if_pos ⟨ht.1, ht.2.1⟩,
      Nat.add_sub_cancel]
  | case2 i e _ test parse =>
    have test : (decimal i.val).length > 1 ∧ (decimal i.val).getLast? = some '0' ∧ e ≠ 0 := test
    have parse : fromStr 64 ((decimal i.val).take ((decimal i.val).length - 1)) = none := parse
    have ht := (reduce_test_iff i.val e).mp test
    rw [← List.dropLast_eq_take, dropLast_decimal ht.1, fromStr_decimal, tryFrom_eq_none] at parse
    exact absurd (lt_of_le_of_lt (Nat.div_le_self _ _) i.isLt) (not_lt.mpr parse)
  | case3 i e _ test =>
    have test : ¬((decimal i.val).length > 1 ∧ (decimal i.val).getLast? = some '0' ∧ e ≠ 0) :=
      test
    refine ⟨i, e, by rw [reduce]; exact dif_neg test, ?_⟩
    rw [reduce_test_iff] at test
    exact (stripZeros_of_canonical (by unfold CanonicalPair; omega)).symm

/-- `new` on what `reduce` returned. -/
theorem new_of_reduce {i e : U64} {j d : U64} (h : reduce i e = .ok (j, d)) :
    new i e = match tryFrom 32 j.val with
      | none => .err "Value is unexpectedly large."
      | some integer => .ok ⟨integer, d⟩ := by
  rw [new, h]
  rfl

/-- `new` on a pair that has no trailing zero to strip. -/
theorem new_of_canonical {k d : U64} (h : CanonicalPair k.val d.val) :
    new k d = match tryFrom 32 k.val with
      | none => .err "Value is unexpectedly large."
      | some integer => .ok ⟨integer, d⟩ := by
  obtain ⟨j, d', hred, hstrip⟩ := reduce_spec k d
  rw [stripZeros_of_canonical h, Prod.mk.injEq] at hstrip
  rw [new_of_reduce hred, Fin.ext hstrip.1, Fin.ext hstrip.2]

theorem new_eq_ok_iff (i e : U64) (r : Rate) :
    new i e = .ok r ↔ (r.integer.val, r.invDecExp.val) = stripZeros i.val e.val := by
  obtain ⟨j, d, hred, hstrip⟩ := reduce_spec i e
  rw [new_of_reduce hred, ← hstrip, Prod.mk.injEq]
  cases ht : tryFrom 32 j.val with
  | none =>
    rw [tryFrom_eq_none] at ht
    simp only [reduceCtorEq, false_iff, not_and]
    intro h
    have := r.integer.isLt
    omega
  | some integer =>
    rw [tryFrom_eq_some] at ht
    simp only [Outcome.ok.injEq]
    constructor
    · rintro rfl
      exact ⟨ht, rfl⟩
    · rintro ⟨h1, h2⟩
      exact congrArg₂ Rate.mk (Fin.ext (h1 ▸ ht)) (Fin.ext h2.symm)

/-- **`new` returns `Ok` exactly when the stripped integer fits in `u32`.** -/
theorem new_isOk_iff (i e : U64) :
    (∃ r, new i e = .ok r) ↔ (stripZeros i.val e.val).1 < 2 ^ 32 := by
  simp only [new_eq_ok_iff]
  constructor
  · rintro ⟨r, hr⟩
    rw [← hr]
    exact r.integer.isLt
  · intro h
    exact ⟨⟨⟨_, h⟩, ⟨_, lt_of_le_of_lt (stripZeros_snd_le _ _) e.isLt⟩⟩, rfl⟩

/-- `new` never panics. -/
theorem new_noPanic (i e : U64) : (new i e).NoPanic := by
  obtain ⟨j, d, hred, -⟩ := reduce_spec i e
  rw [new_of_reduce hred]
  split <;> trivial

theorem value_eq_iff {a d b e : Nat} :
    (a : ℚ) / 10 ^ d = b / 10 ^ e ↔ a * 10 ^ e = b * 10 ^ d := by
  rw [div_eq_div_iff (by positivity) (by positivity)]
  norm_cast

/-- What `new` returns stands for `i · 10 ^ (-e)`. -/
theorem value_of_new {i e : U64} {r : Rate} (h : new i e = .ok r) :
    r.value = (i.val : ℚ) / 10 ^ e.val := by
  rw [new_eq_ok_iff, Prod.ext_iff] at h
  simp only at h
  rw [value, value_eq_iff, h.1, h.2]
  exact stripZeros_mul _ _

/-- What `new` returns is canonical. -/
theorem canonical_of_new {i e : U64} {r : Rate} (h : new i e = .ok r) : r.Canonical := by
  rw [new_eq_ok_iff, Prod.ext_iff] at h
  have := stripZeros_canonical i.val e.val
  rw [← h.1, ← h.2] at this
  exact this

/-- `new` only ever lowers the exponent. -/
theorem invDecExp_le_of_new {i e : U64} {r : Rate} (h : new i e = .ok r) :
    r.invDecExp.val ≤ e.val := by
  rw [new_eq_ok_iff, Prod.ext_iff] at h
  exact (congrArg (· ≤ e.val) h.2).mpr (stripZeros_snd_le _ _)

/-- Inputs of one nonzero value give one result. -/
theorem new_eq_of_value_eq {i e i' e' : U64} (hi : i.val ≠ 0)
    (h : (i.val : ℚ) / 10 ^ e.val = i'.val / 10 ^ e'.val) : new i e = new i' e' := by
  obtain ⟨j, d, hred, hs⟩ := reduce_spec i e
  obtain ⟨j', d', hred', hs'⟩ := reduce_spec i' e'
  rw [value_eq_iff] at h
  rw [stripZeros_eq_of_mul_eq hi h, ← hs', Prod.mk.injEq] at hs
  rw [new_of_reduce hred, new_of_reduce hred', Fin.ext hs.1, Fin.ext hs.2]

/-- **Canonical rates of one nonzero value are equal.** -/
theorem eq_of_value_eq {r r' : Rate} (hc : r.Canonical) (hc' : r'.Canonical) (h0 : r.value ≠ 0)
    (hv : r.value = r'.value) : r = r' := by
  have hj : r.integer.val ≠ 0 := fun h => h0 (by simp [value, h])
  rw [value, value, value_eq_iff] at hv
  obtain ⟨h1, h2⟩ := canonical_unique hc hc' hj hv
  exact congrArg₂ Rate.mk (Fin.ext h1) (Fin.ext h2)

/-! ### `Rate::from_f64` -/

/-- `Rate::from_f64`. (Its first two messages say "Spread", as the source does.) -/
def fromF64 (rate : F64) : Outcome Error Rate :=
  if rate.isSignNegative then .err "Spread must be positive"
  else if !rate.isFinite then .err "Spread must be finite"
  else
    let rate := rate.toString
    match rate.findIdx? (· == '.') with
    | none =>
      match fromStr 64 rate with
      | none => .err "Rate is unexpectedly large."
      | some rate => new rate 0
    | some decimalIndex =>
      let mantissa := rate.drop (decimalIndex + 1)
      let rate := rate.take (decimalIndex + 1)
      if mantissa.length > maxPrecision then .err "Precision of the rate is too high."
      else
        let integer := rate.take (rate.length - 1)
        match fromStr 64 (integer ++ mantissa) with
        | none => .err "Rate is unexpectedly large"
        | some integer => new integer (mantissa.length : Usize)

/-- On a finite, non-negative `f64`, `from_f64` checks the precision and then parses the numeral
with its point shifted past the fraction, `int · 10 ^ f + frac`. -/
theorem fromF64_finite {x : F64} (hs : x.isSignNegative = false) (hf : x.isFinite = true) :
    ∃ msg, fromF64 x =
      if maxPrecision < x.display.frac.length then .err "Precision of the rate is too high."
      else match tryFrom 64 (x.display.int * 10 ^ x.display.frac.length +
          digitsValue x.display.frac) with
        | none => .err msg
        | some k => new k (x.display.frac.length : Usize) := by
  simp only [fromF64, hs, hf, Bool.not_true, F64.toString, findIdx?_render]
  by_cases hfrac : x.display.frac = []
  · refine ⟨"Rate is unexpectedly large.", ?_⟩
    simp only [hfrac, if_true, Numeral.render, fromStr_decimal, List.length_nil, pow_zero,
      Nat.mul_one, digitsValue_nil, Nat.add_zero, Nat.cast_zero]
    rfl
  · refine ⟨"Rate is unexpectedly large", ?_⟩
    simp only [hfrac, if_false, gt_iff_lt, take_render hfrac, drop_render hfrac,
      take_length_sub_one_append_point]
    rw [fromStr_digits 64 (by simp [decimal_ne_nil])
      (by simpa [or_imp, forall_and] using ⟨fun _ => isDigit_of_mem_decimal, x.display.frac_digits⟩),
      digitsValue_append, digitsValue_decimal]
    rfl

/-- The numeral with its point shifted past the fraction is in canonical form, since `Display`
prints no trailing zero in the fraction. -/
theorem canonicalPair_shift (x : Numeral) :
    CanonicalPair (x.int * 10 ^ x.frac.length + digitsValue x.frac) x.frac.length := by
  by_cases hfrac : x.frac = []
  · exact .inl (by simp [hfrac])
  obtain ⟨g, hg⟩ : ∃ g, x.frac.length = g + 1 :=
    ⟨_, (Nat.succ_pred_eq_of_pos (List.length_pos.mpr hfrac)).symm⟩
  have hint : x.int * 10 ^ x.frac.length % 10 = 0 := by
    rw [hg, pow_succ, ← Nat.mul_assoc]
    exact Nat.mul_mod_left _ _
  have := Numeral.digitsValue_frac_mod_ten hfrac
  exact .inr (.inl (by omega))

/-- An `Err` of `from_f64` is the whole answer on an input that the law rejects. -/
private theorem fromF64_law_of_err {x : F64} {msg : Error} {P : Prop} (h : fromF64 x = .err msg)
    (hP : ¬P) :
    (∀ r, fromF64 x = .ok r → r.value = x.display.value) ∧ ((∃ r, fromF64 x = .ok r) ↔ P) ∧
      (fromF64 x).NoPanic := by
  rw [h]
  refine ⟨fun r hr => ?_, ⟨fun ⟨r, hr⟩ => ?_, fun hp => absurd hp hP⟩, trivial⟩ <;> cases hr

/-- **`from_f64` is exact.** On a finite, non-negative `f64` whose numeral has value `v` and `f`
fraction digits, it returns a rate of value `v` exactly when `f ≤ 9` and `v · 10 ^ f < 2 ^ 32`;
otherwise an `Err`; it never panics. -/
theorem fromF64_exact (x : F64) (hs : x.isSignNegative = false) (hf : x.isFinite = true) :
    (∀ r, fromF64 x = .ok r → r.value = x.display.value) ∧
    ((∃ r, fromF64 x = .ok r) ↔
      x.display.frac.length ≤ 9 ∧ x.display.value * 10 ^ x.display.frac.length < 2 ^ 32) ∧
    (fromF64 x).NoPanic := by
  obtain ⟨msg, h⟩ := fromF64_finite hs hf
  set f := x.display.frac.length
  set N := x.display.int * 10 ^ f + digitsValue x.display.frac
  have hv : x.display.value * 10 ^ f = N := Numeral.value_mul_pow x.display
  have fits : (f ≤ 9 ∧ x.display.value * 10 ^ f < 2 ^ 32) ↔ f ≤ 9 ∧ N < 2 ^ 32 := by
    rw [hv]
    exact_mod_cast Iff.rfl
  rw [fits]
  by_cases hp : maxPrecision < f
  · rw [if_pos hp] at h
    exact fromF64_law_of_err h (by unfold maxPrecision at hp; omega)
  rw [if_neg hp] at h
  unfold maxPrecision at hp
  have hcast : ((f : Usize)).val = f := usize_natCast_val (by omega)
  have hcanon : CanonicalPair N f := canonicalPair_shift x.display
  cases h64 : tryFrom 64 N with
  | none =>
    rw [h64] at h
    dsimp only at h
    rw [tryFrom_eq_none] at h64
    exact fromF64_law_of_err h (fun hc => absurd (lt_of_lt_of_le hc.2 (by decide)) (not_lt.mpr h64))
  | some k =>
    rw [h64] at h
    rw [tryFrom_eq_some] at h64
    dsimp only at h
    rw [new_of_canonical (k := k) (d := (f : Usize)) (by rw [h64, hcast]; exact hcanon)] at h
    cases h32 : tryFrom 32 k.val with
    | none =>
      rw [h32] at h
      dsimp only at h
      rw [tryFrom_eq_none, h64] at h32
      exact fromF64_law_of_err h (fun hc => by omega)
    | some i =>
      rw [h32] at h
      dsimp only at h
      rw [tryFrom_eq_some, h64] at h32
      refine ⟨fun r hr => ?_, ⟨fun _ => ⟨by omega, h32 ▸ i.isLt⟩, fun _ => ⟨_, h⟩⟩, by rw [h]; trivial⟩
      rw [h] at hr
      cases hr
      rw [value, h32, hcast, ← hv]
      field_simp

/-- `0.05`, whose fraction has a leading zero, is read as `5 · 10 ^ -2`. -/
theorem fromF64_pointZeroFive :
    ∃ r, fromF64 ⟨false, true, ⟨0, ['0', '5'], by decide, by decide⟩⟩ = .ok r ∧ r.value = 1 / 20 := by
  have h5 : digitsValue ['0', '5'] = 5 := rfl
  obtain ⟨hval, hok, -⟩ := fromF64_exact ⟨false, true, ⟨0, ['0', '5'], by decide, by decide⟩⟩ rfl rfl
  obtain ⟨r, hr⟩ := hok.mpr ⟨by decide, by norm_num [Numeral.value, h5]⟩
  exact ⟨r, hr, (hval r hr).trans (by norm_num [Numeral.value, h5])⟩

/-- A rate `from_f64` returns is one that `new` returned, at an exponent of at most
`MAX_PRECISION`. -/
theorem new_of_fromF64 {x : F64} {r : Rate} (h : fromF64 x = .ok r) :
    ∃ k d : U64, d.val ≤ maxPrecision ∧ new k d = .ok r := by
  cases hs : x.isSignNegative
  · cases hf : x.isFinite
    · simp [fromF64, hs, hf] at h
    · obtain ⟨msg, hx⟩ := fromF64_finite hs hf
      rw [hx] at h
      split at h
      · cases h
      · split at h
        · cases h
        · rename_i hp _ _ _
          unfold maxPrecision at hp ⊢
          exact ⟨_, _, by rw [usize_natCast_val (by omega)]; omega, h⟩
  · simp [fromF64, hs] at h

end Rate

end Comit
