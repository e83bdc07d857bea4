import Comit.Nectar.Rate

/-!
`Spread` of `nectar` (`src/rate.rs`): a percentage added on top of a rate, held as a `u16` in
hundredths of a percent, and `Spread::apply`, which multiplies a rate by `(10000 + spread) / 10000`.

* `Spread.new_spec` — on a finite, non-negative `f64`, `Spread::new` never panics and returns
  `Spread(int · 100 + frac)` exactly when the numeral has at most two fraction digits and an
  integer part of at most `100`; the fraction is read as the integer its digits spell, so
  `5.5` gives `505` and `100.5` is accepted.
* `Spread.new_reads_fraction_digits` — `5.5` gives `Spread(505)` and `100.5` gives
  `Spread(10005)`.
* `Spread.apply_spec` — `apply` does not overflow while the exponent leaves room for `4`, and
  then returns the scaled rate exactly when its reduced integer fits in `u32`. Nothing guards
  the exponent sum itself: `Spread.apply_overflows` is a rate `Rate::new` accepts on which it
  panics, and `Spread.apply_noPanic_of_fromF64` shows rates from `from_f64` are safe.
* `Rate.new_canonical_form` — every rate `new`, `from_f64` and `apply` return is canonical, so
  on nonzero rates the derived equality is equality of value.
-/

namespace Comit

/-- `Spread(u16)`: the spread in hundredths of a percent. -/
structure Spread where
  val : U16
  deriving DecidableEq, Repr

namespace Spread

/-- The message of both "too high" errors of `Spread::new`. -/
def tooHigh : Error := "Spread value is too high, it should be between 0 and 100."

/-- `Spread::new`: the input is a percentage, `5.0` being `5%`. -/
def new (spread : F64) : Outcome Error Spread :=
  if spread.isSignNegative then .err "Spread must be positive"
  else if !spread.isFinite then .err "Spread must be finite"
  else
    let spread := spread.toString
    match spread.findIdx? (· == '.') with
    | none =>
      if spread.length ≤ 2 ∨ spread = "100".toList then
        match fromStr 16 spread with
        | none => .panic "an integer"
        | some spread => do
          let spread ← mulChecked spread 100
          pure ⟨spread⟩
      else .err tooHigh
    | some decimalIndex =>
      let mantissa := spread.drop (decimalIndex + 1)
      let spread := spread.take (decimalIndex + 1)
      if mantissa.length > 2 then
        .err "Precision of the rate is too high, maximum allow is 2 digits after the decimal point."
      else
        let integer := spread.take (spread.length - 1)
        if integer.length ≤ 2 ∨ integer = "100".toList then
          match fromStr 16 integer with
          | none => .panic "an integer"
          | some integer =>
            match fromStr 16 mantissa with
            | none => .panic "an integer"
            | some mantissa => do
              let hundreds ← mulChecked integer 100
              let spread ← addChecked hundreds mantissa
              pure ⟨spread⟩
        else .err tooHigh

/-- `Spread::apply`: widen to `u64`, multiply by `10000 + spread`, add `4` to the exponent. -/
def apply (self : Spread) (rate : Rate) : Outcome Error Rate := do
  let factor ← addChecked (10000 : U64) (Fin.castLE (by decide) self.val)
  let integer ← mulChecked (Fin.castLE (by decide) rate.integer : U64) factor
  let invDecExp ← addChecked rate.invDecExp (4 : Usize)
  Rate.new integer invDecExp

/-! ### What `Spread::new` accepts -/

/-- An integer part of at most two characters, or `"100"`, is one of at most `100`. -/
theorem integer_test_iff (n : Nat) :
    ((decimal n).length ≤ 2 ∨ decimal n = "100".toList) ↔ n ≤ 100 := by
  have hlen : 2 < (decimal n).length ↔ 100 ≤ n := lt_length_decimal 1 n
  have h100 : decimal n = "100".toList ↔ n = 100 :=
    ⟨fun h => by rw [← digitsValue_decimal n, h]; rfl, by rintro rfl; rfl⟩
  rw [h100]
  omega

private theorem spec_of_ok {x : F64} {v : U16} {P : Prop} {N : Nat} (h : new x = .ok ⟨v⟩)
    (hP : P) (hv : v.val = N) :
    (new x).NoPanic ∧ ∀ s, new x = .ok s ↔ P ∧ s.val.val = N := by
  rw [h]
  refine ⟨trivial, fun s => ⟨fun hs => ?_, fun hs => ?_⟩⟩
  · cases hs
    exact ⟨hP, hv⟩
  · rw [show s = ⟨v⟩ from congrArg Spread.mk (Fin.ext (hs.2.trans hv.symm))]

private theorem spec_of_err {x : F64} {m : Error} {P : Prop} {N : Nat} (h : new x = .err m)
    (hP : ¬P) :
    (new x).NoPanic ∧ ∀ s, new x = .ok s ↔ P ∧ s.val.val = N := by
  rw [h]
  exact ⟨trivial, fun s => ⟨fun hs => (by cases hs), fun hs => absurd hs.1 hP⟩⟩

/-- **What `Spread::new` computes.** On a finite, non-negative `f64` it never panics, and it
returns `Spread(int · 100 + frac)`, `frac` being the integer the fraction digits spell, exactly
when the numeral has at most two fraction digits and an integer part of at most `100`. -/
theorem new_spec (x : F64) (hs : x.isSignNegative = false) (hf : x.isFinite = true) :
    (new x).NoPanic ∧
    ∀ s, new x = .ok s ↔ (x.display.frac.length ≤ 2 ∧ x.display.int ≤ 100) ∧
      s.val.val = x.display.int * 100 + digitsValue x.display.frac := by
  have hint16 : ∀ n (h : n ≤ 100), tryFrom 16 n = some ⟨n, by omega⟩ := fun n h => dif_pos _
  have h100 : ((100 : U16)).val = 100 := rfl
  by_cases hfrac : x.display.frac = []
  · have hrender : x.display.render = decimal x.display.int := by simp [Numeral.render, hfrac]
    have hcond : x.display.frac.length ≤ 2 := by simp [hfrac]
    have hfind : (decimal x.display.int).findIdx? (· == '.') = none :=
      findIdx?_point_eq_none fun _ => isDigit_of_mem_decimal
    by_cases hint : x.display.int ≤ 100
    · refine spec_of_ok (v := ⟨x.display.int * 100, by omega⟩) ?_ ⟨hcond, hint⟩ (by simp [hfrac])
      simp only [new, hs, hf, Bool.false_eq_true, Bool.not_true, ↓reduceIte, F64.toString,
        hrender, hfind, integer_test_iff, hint, fromStr_decimal, hint16]
      rw [mulChecked_of_lt (by show x.display.int * (100 : U16).val < 2 ^ 16; rw [h100]; omega)]
      rfl
    · refine spec_of_err (m := tooHigh) ?_ (fun h => hint h.2)
      simp only [new, hs, hf, Bool.false_eq_true, Bool.not_true, ↓reduceIte, F64.toString,
        hrender, hfind, integer_test_iff, hint]
  · have hidx : x.display.render.findIdx? (· == '.') = some (decimal x.display.int).length := by
      rw [findIdx?_render, if_neg hfrac]
    by_cases hlen : x.display.frac.length > 2
    · refine spec_of_err
        (m := "Precision of the rate is too high, maximum allow is 2 digits after the decimal point.")
        ?_ (fun h => by omega)
      simp only [new, hs, hf, Bool.false_eq_true, Bool.not_true, ↓reduceIte, F64.toString, hidx,
        drop_render hfrac, hlen]
    have hcond : x.display.frac.length ≤ 2 := by omega
    have hdv : digitsValue x.display.frac < 100 :=
      lt_of_lt_of_le (digitsValue_lt_pow x.display.frac_digits)
        (Nat.pow_le_pow_right (by decide) hcond)
    by_cases hint : x.display.int ≤ 100
    · refine spec_of_ok (v := ⟨x.display.int * 100 + digitsValue x.display.frac, by omega⟩) ?_
        ⟨hcond, hint⟩ rfl
      simp only [new, hs, hf, Bool.false_eq_true, Bool.not_true, ↓reduceIte, F64.toString, hidx,
        drop_render hfrac, take_render hfrac, take_length_sub_one_append_point, hlen,
        integer_test_iff, hint, fromStr_decimal, hint16 _ hint,
        fromStr_digits 16 hfrac x.display.frac_digits, hint16 _ hdv.le]
      rw [mulChecked_of_lt (by show x.display.int * (100 : U16).val < 2 ^ 16; rw [h100]; omega)]
      rw [Outcome.ok_bind, addChecked_of_lt (by show x.display.int * (100 : U16).val + digitsValue x.display.frac < 2 ^ 16; rw [h100]; omega)]
      rfl
    · refine spec_of_err (m := tooHigh) ?_ (fun h => hint h.2)
      simp only [new, hs, hf, Bool.false_eq_true, Bool.not_true, ↓reduceIte, F64.toString, hidx,
        drop_render hfrac, take_render hfrac, take_length_sub_one_append_point, hlen,
        integer_test_iff, hint]

/-- `5.05` is `505` hundredths of a percent, and `Spread::new` returns that. -/
theorem new_fivePointZeroFive :
    new ⟨false, true, ⟨5, ['0', '5'], by decide, by decide⟩⟩ = .ok ⟨505⟩ :=
  ((new_spec _ rfl rfl).2 ⟨505⟩).mpr ⟨⟨by decide, by decide⟩, rfl⟩

/-- The fraction is read as the integer its digits spell: `5.5` gives `Spread(505)` although it
stands for `550` hundredths, and `100.5`, above `100`, is accepted. -/
theorem new_reads_fraction_digits :
    new ⟨false, true, ⟨5, ['5'], by decide, by decide⟩⟩ = .ok ⟨505⟩ ∧
    Numeral.value ⟨5, ['5'], by decide, by decide⟩ * 100 = 550 ∧
    new ⟨false, true, ⟨100, ['5'], by decide, by decide⟩⟩ = .ok ⟨10005⟩ ∧
    Numeral.value ⟨100, ['5'], by decide, by decide⟩ = 201 / 2 := by
  have h5 : digitsValue ['5'] = 5 := rfl
  refine ⟨by decide, ?_, by decide, ?_⟩ <;> norm_num [Numeral.value, h5]

/-! ### What `Spread::apply` computes -/

/-- The widened product `integer · (10000 + spread)` always fits in `u64`. -/
theorem product_lt (s : Spread) (r : Rate) : r.integer.val * (10000 + s.val.val) < 2 ^ 64 :=
  calc r.integer.val * (10000 + s.val.val) < 2 ^ 32 * 2 ^ 32 :=
        Nat.mul_lt_mul'' r.integer.isLt (by have := s.val.isLt; omega)
    _ = 2 ^ 64 := by rw [← pow_add]

/-- While the exponent leaves room for `4`, `apply` is `Rate::new` on the widened product. -/
theorem apply_of_lt {s : Spread} {r : Rate} (h : r.invDecExp.val + 4 < 2 ^ 64) :
    s.apply r = Rate.new ⟨_, product_lt s r⟩ ⟨_, h⟩ := by
  have hs := s.val.isLt
  rw [apply, addChecked_of_lt (by show 10000 + s.val.val < 2 ^ 64; omega), Outcome.ok_bind,
    mulChecked_of_lt (product_lt s r), Outcome.ok_bind, addChecked_of_lt h, Outcome.ok_bind]
  rfl

/-- The exponent sum is unchecked: when it does not fit, a debug build panics. -/
theorem apply_of_le {s : Spread} {r : Rate} (h : 2 ^ 64 ≤ r.invDecExp.val + 4) :
    s.apply r = .panic "attempt to add with overflow" := by
  have hs := s.val.isLt
  rw [apply, addChecked_of_lt (by show 10000 + s.val.val < 2 ^ 64; omega), Outcome.ok_bind,
    mulChecked_of_lt (product_lt s r), Outcome.ok_bind, addChecked_of_le h, Outcome.panic_bind]

/-- **What `Spread::apply` computes.** While the exponent leaves room for `4`, `apply` does not
panic; it returns a rate exactly when the product `integer · (10000 + spread)`, stripped of its
trailing zeros, fits in `u32`; that rate is canonical and stands for the input's value times
`(10000 + spread) / 10000`. -/
theorem apply_spec (s : Spread) (r : Rate) (h : r.invDecExp.val + 4 < 2 ^ 64) :
    (s.apply r).NoPanic ∧
    ((∃ r', s.apply r = .ok r') ↔
      (Rate.stripZeros (r.integer.val * (10000 + s.val.val)) (r.invDecExp.val + 4)).1 < 2 ^ 32) ∧
    ∀ r', s.apply r = .ok r' →
      r'.value = r.value * (10000 + s.val.val) / 10000 ∧ r'.Canonical := by
  rw [apply_of_lt h]
  refine ⟨Rate.new_noPanic _ _, Rate.new_isOk_iff _ _, fun r' hr => ⟨?_, Rate.canonical_of_new hr⟩⟩
  rw [Rate.value_of_new hr, Rate.value]
  push_cast
  rw [pow_add]
  ring

/-- The source's `apply_spread_20`: `20%` on top of `25` is `30`. -/
theorem apply_twentyPercent :
    ∃ r', (Spread.mk 2000).apply ⟨25, 0⟩ = .ok r' ∧ r'.value = 30 := by
  obtain ⟨-, hok, hval⟩ := apply_spec ⟨2000⟩ ⟨25, 0⟩ (by decide)
  obtain ⟨r', hr⟩ := hok.mpr (by decide)
  refine ⟨r', hr, ?_⟩
  rw [(hval r' hr).1, Rate.value, show ((25 : U32)).val = 25 from rfl,
    show ((0 : Usize)).val = 0 from rfl, show ((2000 : U16)).val = 2000 from rfl]
  norm_num

/-- `Rate::new` accepts every exponent and `apply` adds `4` to it unchecked: the rate
`1 · 10 ^ -(2 ^ 64 - 1)` that `new` returns, with the spread `0.0`, makes a debug build panic. -/
theorem apply_overflows :
    Rate.new 1 ⟨2 ^ 64 - 1, by decide⟩ = .ok ⟨1, ⟨2 ^ 64 - 1, by decide⟩⟩ ∧
    new ⟨false, true, ⟨0, [], by decide, by decide⟩⟩ = .ok ⟨0⟩ ∧
    (Spread.mk 0).apply ⟨1, ⟨2 ^ 64 - 1, by decide⟩⟩ = .panic "attempt to add with overflow" :=
  ⟨by rw [Rate.new_of_canonical (.inr (.inl (by decide)))]; rfl, by decide, apply_of_le (by decide)⟩

/-- A rate `from_f64` returned has an exponent of at most `9`, so `apply` never panics on it. -/
theorem apply_noPanic_of_fromF64 {x : F64} {r : Rate} (h : Rate.fromF64 x = .ok r) (s : Spread) :
    (s.apply r).NoPanic := by
  obtain ⟨k, d, hd, hnew⟩ := Rate.new_of_fromF64 h
  have := Rate.invDecExp_le_of_new hnew
  unfold Rate.maxPrecision at hd
  rw [apply_of_lt (by omega)]
  exact Rate.new_noPanic _ _

/-- `25.0` parses to `Rate { integer: 25, inv_dec_exp: 0 }`, and `20%` applies to it. -/
theorem apply_noPanic_twentyFive : ((Spread.mk 2000).apply ⟨25, 0⟩).NoPanic :=
  apply_noPanic_of_fromF64 (x := ⟨false, true, ⟨25, [], by decide, by decide⟩⟩) (by
    obtain ⟨msg, h⟩ := Rate.fromF64_finite (x := ⟨false, true, ⟨25, [], by decide, by decide⟩⟩) rfl rfl
    have h25 : tryFrom 64 (25 * 10 ^ 0 + digitsValue []) = some 25 := by decide
    rw [h, if_neg (by decide)]
    simp only [List.length_nil, h25]
    rw [Rate.new_of_canonical (.inl rfl)]
    rfl) ⟨2000⟩

end Spread

/-! ### Equality of the rates the code builds -/

namespace Rate

/-- The rates the code builds: what `Rate::new`, `Rate::from_f64` and `Spread::apply` return. -/
inductive Built : Rate → Prop
  | new {i e : U64} {r : Rate} : Rate.new i e = .ok r → Built r
  | fromF64 {x : F64} {r : Rate} : Rate.fromF64 x = .ok r → Built r
  | apply {s : Spread} {r₀ r : Rate} : s.apply r₀ = .ok r → Built r

/-- Every built rate is one that `Rate::new` returned. -/
theorem Built.exists_new {r : Rate} (h : Built r) : ∃ i e, Rate.new i e = .ok r := by
  cases h with
  | new h => exact ⟨_, _, h⟩
  | fromF64 h =>
    obtain ⟨k, d, -, h⟩ := new_of_fromF64 h
    exact ⟨k, d, h⟩
  | @apply s r₀ _ h =>
    by_cases hlt : r₀.invDecExp.val + 4 < 2 ^ 64
    · rw [Spread.apply_of_lt hlt] at h
      exact ⟨_, _, h⟩
    · rw [Spread.apply_of_le (by omega)] at h
      cases h

theorem Built.canonical {r : Rate} (h : Built r) : r.Canonical := by
  obtain ⟨i, e, h⟩ := h.exists_new
  exact canonical_of_new h

/-- **`Rate::new` returns the canonical form of its value.** It returns a rate exactly when the
stripped integer fits in `u32`, and an `Err` otherwise, never a panic; that rate stands for
`i · 10 ^ (-e)` and is canonical; inputs of one nonzero value give one result; and so, on the
nonzero rates the code builds, the derived equality is equality of value. -/
theorem new_canonical_form (i e : U64) :
    ((∃ r, new i e = .ok r) ↔ (stripZeros i.val e.val).1 < 2 ^ 32) ∧ (new i e).NoPanic ∧
    (∀ r, new i e = .ok r → r.value = (i.val : ℚ) / 10 ^ e.val ∧ r.Canonical) ∧
    (∀ i' e' : U64, i.val ≠ 0 → (i.val : ℚ) / 10 ^ e.val = i'.val / 10 ^ e'.val →
      new i e = new i' e') ∧
    ∀ r r', Built r → Built r' → r.value ≠ 0 → (r = r' ↔ r.value = r'.value) :=
  ⟨new_isOk_iff i e, new_noPanic i e, fun _ h => ⟨value_of_new h, canonical_of_new h⟩,
    fun _ _ => new_eq_of_value_eq,
    fun _ _ h h' h0 => ⟨congrArg value, eq_of_value_eq h.canonical h'.canonical h0⟩⟩

end Rate

end Comit
