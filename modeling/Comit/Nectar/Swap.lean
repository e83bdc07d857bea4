import Comit.Rust

/-!
`swap::hbit_herc20` of `nectar` (`src/swap.rs`): the driver of a Bitcoin-HTLC to ERC20-HTLC swap.
It awaits, in order, Alice's funding of the Bitcoin HTLC, Bob's deployment and funding of the
ERC20 HTLC and Alice's redeem of it, refunding on an `Abort`, and finally races Bob's redeem of
the Bitcoin HTLC against Alice's refund of it with `try_select`. Every awaited call is followed by
`?`, so an `Err` ends the driver at once.

The parties are oracles: `Alice` and `Bob` give the outcome of each of their calls as a function
of what the driver passes to it, and `RaceOrder` says which future of `try_select` completes
first. A run records every awaited call and how it completed (`Traced`); the results below are
about the final log alone.

* `Traced.errLast_bind` — `?` never makes up an error: a computation built from awaited calls
  that ends in `Err(e)` ends right after the call that returned `Err(e)`.
* `hbitHerc20_ok_iff` — the runs that return `Ok` are exactly the six of `okRuns`.
* `hbitHerc20_ok_settled` — so a run that returns `Ok` has resolved every HTLC whose funding step
  returned `Continue`, and a run that returns `Err(e)` stops at the awaited call that returned
  `Err(e)`.
* `hbitHerc20_err_unsettled` — after Alice's funding step returned `Continue`, an `Err` from
  Bob's deployment step ends the driver with the Bitcoin HTLC neither redeemed nor refunded.
-/

namespace Comit.Swap

/-- `Next<T>`: what a `Do` step returns. -/
inductive Next (α : Type)
  | continue (a : α)
  | abort
  deriving DecidableEq, Repr

/-- The calls `hbit_herc20` awaits. -/
inductive Step
  /-- Alice's `Do::<hbit::CorrectlyFunded>`. -/
  | aliceFundsHbit
  /-- Bob's `Do::<herc20::Deployed>`. -/
  | bobDeploysHerc20
  /-- Bob's `Do::<herc20::CorrectlyFunded>`. -/
  | bobFundsHerc20
  /-- Alice's `Do::<herc20::Redeemed>`. -/
  | aliceRedeemsHerc20
  /-- `alice.refund` (`hbit::Refund`). -/
  | aliceRefundsHbit
  /-- `bob.refund` (`herc20::Refund`). -/
  | bobRefundsHerc20
  /-- Bob's `Execute::<hbit::Redeemed>`. -/
  | bobRedeemsHbit
  deriving DecidableEq, Repr

/-- How an awaited call completed: a `Do` step with `Continue` or `Abort`, another call with
`Ok`, or an `Err`. -/
inductive Completion
  | continued
  | aborted
  | ok
  | err (e : Error)
  deriving DecidableEq, Repr

/-- How a `Do` step that returned `Ok(next)` is logged. -/
def Next.completion {α : Type} : Next α → Completion
  | .continue _ => .continued
  | .abort => .aborted

/-- The awaited calls of a run, in the order they completed. -/
abbrev Log := List (Step × Completion)

/-- A computation of the driver: the calls it awaited and how it came out. An `Err` is the
`anyhow::Error` that `?` returns. -/
structure Traced (α : Type) where
  log : Log
  result : Except Error α

namespace Traced

variable {α β : Type}

/-- `?`: after an `Err` nothing more is awaited. -/
def bind : Traced α → (α → Traced β) → Traced β
  | ⟨log, .ok a⟩, f => ⟨log ++ (f a).log, (f a).result⟩
  | ⟨log, .error e⟩, _ => ⟨log, .error e⟩

instance : Monad Traced where
  pure a := ⟨[], .ok a⟩
  bind := bind

@[simp] theorem pure_log (a : α) : (pure a : Traced α).log = [] := rfl

@[simp] theorem pure_result (a : α) : (pure a : Traced α).result = .ok a := rfl

@[simp] theorem bind_ok (log : Log) (a : α) (f : α → Traced β) :
    (⟨log, .ok a⟩ >>= f : Traced β) = ⟨log ++ (f a).log, (f a).result⟩ := rfl

@[simp] theorem bind_error (log : Log) (e : Error) (f : α → Traced β) :
    (⟨log, .error e⟩ >>= f : Traced β) = ⟨log, .error e⟩ := rfl

/-- The computation ends in `Err(e)` only right after an awaited call that returned `Err(e)`. -/
def ErrLast (t : Traced α) : Prop :=
  ∀ e, t.result = .error e → ∃ s, t.log.getLast? = some (s, .err e)

theorem errLast_pure (a : α) : ErrLast (pure a : Traced α) := fun _ h => nomatch h

/-- **`?` never makes up an error.** -/
theorem errLast_bind {t : Traced α} {f : α → Traced β} (ht : t.ErrLast) (hf : ∀ a, (f a).ErrLast) :
    (t >>= f).ErrLast := by
  obtain ⟨log, r⟩ := t
  cases r with
  | error e => rintro _ ⟨⟩; exact ht e rfl
  | ok a =>
    intro e he
    obtain ⟨s, hs⟩ := hf a e he
    exact ⟨s, by rw [bind_ok, List.getLast?_append, hs]; rfl⟩

end Traced

open Traced

/-- Await a `Do` step and apply `?`. -/
def awaitDo {α : Type} (s : Step) : Except Error (Next α) → Traced (Next α)
  | .ok (.continue a) => ⟨[(s, .continued)], .ok (.continue a)⟩
  | .ok .abort => ⟨[(s, .aborted)], .ok .abort⟩
  | .error e => ⟨[(s, .err e)], .error e⟩

/-- Await a call that returns an `anyhow::Result` and apply `?`. -/
def awaitResult {α : Type} (s : Step) : Except Error α → Traced α
  | .ok a => ⟨[(s, .ok)], .ok a⟩
  | .error e => ⟨[(s, .err e)], .error e⟩

theorem errLast_awaitDo {α : Type} (s : Step) (r : Except Error (Next α)) :
    (awaitDo s r).ErrLast := by
  rcases r with e | a | _ <;> intro e' h <;> cases h
  exact ⟨s, rfl⟩

theorem errLast_awaitResult {α : Type} (s : Step) (r : Except Error α) :
    (awaitResult s r).ErrLast := by
  rcases r with e | a <;> intro e' h <;> cases h
  exact ⟨s, rfl⟩

section Steps

variable {α β : Type} {s : Step} {b : β}

/-- A computation that goes on after a `Do` step returns `Ok` only if the step returned
`Ok(next)`, which it logged before the rest. -/
theorem awaitDo_bind_ok {r : Except Error (Next α)} {f : Next α → Traced β}
    (h : (awaitDo s r >>= f).result = .ok b) :
    ∃ n, (f n).result = .ok b ∧ (awaitDo s r >>= f).log = (s, n.completion) :: (f n).log := by
  rcases r with e | a | _
  · cases h
  · exact ⟨_, h, rfl⟩
  · exact ⟨_, h, rfl⟩

/-- A computation that goes on after a call returns `Ok` only if the call returned `Ok`. -/
theorem awaitResult_bind_ok {r : Except Error α} {f : α → Traced β}
    (h : (awaitResult s r >>= f).result = .ok b) :
    ∃ a, (f a).result = .ok b ∧ (awaitResult s r >>= f).log = (s, .ok) :: (f a).log := by
  rcases r with e | a
  · cases h
  · exact ⟨a, h, rfl⟩

theorem awaitResult_ok {r : Except Error β} (h : (awaitResult s r).result = .ok b) :
    (awaitResult s r).log = [(s, .ok)] := by
  rcases r with e | a
  · cases h
  · rfl

end Steps

/-- `herc20::Redeemed`, of which the driver reads the secret. -/
structure Herc20Redeemed (Secret : Type) where
  secret : Secret

/-- Alice's calls, as functions of what the driver passes them (the parameters and the expiry
are fixed for the run). The values of the refunds are not read. -/
structure Alice (HbitFunded Herc20Deployed Secret : Type) where
  doHbitFunded : Except Error (Next HbitFunded)
  doHerc20Redeemed : Herc20Deployed → Except Error (Next (Herc20Redeemed Secret))
  refund : HbitFunded → Except Error Unit

/-- Bob's calls. -/
structure Bob (HbitFunded Herc20Deployed Herc20Funded Secret : Type) where
  doHerc20Deployed : Except Error (Next Herc20Deployed)
  doHerc20Funded : Herc20Deployed → Except Error (Next Herc20Funded)
  executeHbitRedeemed : HbitFunded → Secret → Except Error Unit
  refund : Herc20Deployed → Except Error Unit

/-- Which future of `try_select(hbit_redeem, hbit_refund)` completes first. The first to
complete decides the result, `Ok` or `Err`, and the other is dropped. -/
inductive RaceOrder
  | redeemFirst
  | refundFirst
  deriving DecidableEq, Repr

section Driver

variable {HbitFunded Herc20Deployed Herc20Funded Secret : Type}

/-- `swap::hbit_herc20`. -/
def hbitHerc20 (alice : Alice HbitFunded Herc20Deployed Secret)
    (bob : Bob HbitFunded Herc20Deployed Herc20Funded Secret) (order : RaceOrder) : Traced Unit := do
  match ← awaitDo .aliceFundsHbit alice.doHbitFunded with
  | .abort => return ()
  | .continue hbitFunded =>
  match ← awaitDo .bobDeploysHerc20 bob.doHerc20Deployed with
  | .abort =>
    awaitResult .aliceRefundsHbit (alice.refund hbitFunded)
    return ()
  | .continue herc20Deployed =>
  match ← awaitDo .bobFundsHerc20 (bob.doHerc20Funded herc20Deployed) with
  | .abort =>
    awaitResult .aliceRefundsHbit (alice.refund hbitFunded)
    return ()
  | .continue _ =>
  match ← awaitDo .aliceRedeemsHerc20 (alice.doHerc20Redeemed herc20Deployed) with
  | .abort =>
    awaitResult .aliceRefundsHbit (alice.refund hbitFunded)
    awaitResult .bobRefundsHerc20 (bob.refund herc20Deployed)
    return ()
  | .continue herc20Redeemed =>
  match order with
  | .redeemFirst =>
    awaitResult .bobRedeemsHbit (bob.executeHbitRedeemed hbitFunded herc20Redeemed.secret)
  | .refundFirst => awaitResult .aliceRefundsHbit (alice.refund hbitFunded)

end Driver

/-! ### What a run leaves resolved -/

/-- Alice's funding step returned `Continue`: the Bitcoin HTLC is funded. -/
def HbitFundedIn (log : Log) : Prop := (.aliceFundsHbit, .continued) ∈ log

/-- Bob's redeem or Alice's refund of the Bitcoin HTLC completed with `Ok`. -/
def HbitResolvedIn (log : Log) : Prop :=
  (.bobRedeemsHbit, .ok) ∈ log ∨ (.aliceRefundsHbit, .ok) ∈ log

/-- Bob's funding step returned `Continue`: the ERC20 HTLC is funded. -/
def Herc20FundedIn (log : Log) : Prop := (.bobFundsHerc20, .continued) ∈ log

/-- Alice's redeem step returned `Continue`, or Bob's refund completed with `Ok`. -/
def Herc20ResolvedIn (log : Log) : Prop :=
  (.aliceRedeemsHerc20, .continued) ∈ log ∨ (.bobRefundsHerc20, .ok) ∈ log

/-- Every funded HTLC is resolved. -/
def Settled (log : Log) : Prop :=
  (HbitFundedIn log → HbitResolvedIn log) ∧ (Herc20FundedIn log → Herc20ResolvedIn log)

instance (log : Log) : Decidable (Settled log) :=
  inferInstanceAs (Decidable
    (((Step.aliceFundsHbit, Completion.continued) ∈ log →
      (Step.bobRedeemsHbit, Completion.ok) ∈ log ∨ (Step.aliceRefundsHbit, Completion.ok) ∈ log) ∧
    ((Step.bobFundsHerc20, Completion.continued) ∈ log →
      (Step.aliceRedeemsHerc20, Completion.continued) ∈ log ∨
        (Step.bobRefundsHerc20, Completion.ok) ∈ log)))

/-- The runs of `hbit_herc20` that return `Ok`, one for each way the driver can end without `?`
firing: Alice aborts the funding; Bob aborts the deployment or the funding and Alice refunds;
Alice aborts her redeem and both refund; or the race ends with Bob's redeem or Alice's refund. -/
def okRuns : List Log :=
  [[(.aliceFundsHbit, .aborted)],
   [(.aliceFundsHbit, .continued), (.bobDeploysHerc20, .aborted), (.aliceRefundsHbit, .ok)],
   [(.aliceFundsHbit, .continued), (.bobDeploysHerc20, .continued), (.bobFundsHerc20, .aborted),
     (.aliceRefundsHbit, .ok)],
   [(.aliceFundsHbit, .continued), (.bobDeploysHerc20, .continued), (.bobFundsHerc20, .continued),
     (.aliceRedeemsHerc20, .aborted), (.aliceRefundsHbit, .ok), (.bobRefundsHerc20, .ok)],
   [(.aliceFundsHbit, .continued), (.bobDeploysHerc20, .continued), (.bobFundsHerc20, .continued),
     (.aliceRedeemsHerc20, .continued), (.bobRedeemsHbit, .ok)],
   [(.aliceFundsHbit, .continued), (.bobDeploysHerc20, .continued), (.bobFundsHerc20, .continued),
     (.aliceRedeemsHerc20, .continued), (.aliceRefundsHbit, .ok)]]

theorem settled_of_mem_okRuns : ∀ log ∈ okRuns, Settled log := by decide

theorem getLast?_ne_err_of_mem_okRuns {log : Log} (h : log ∈ okRuns) (s : Step) (e : Error) :
    log.getLast? ≠ some (s, .err e) := by
  simp only [okRuns, List.mem_cons, List.mem_singleton, List.not_mem_nil, or_false] at h
  rcases h with rfl | rfl | rfl | rfl | rfl | rfl <;> simp

section Driver

variable {HbitFunded Herc20Deployed Herc20Funded Secret : Type}
variable (alice : Alice HbitFunded Herc20Deployed Secret)
  (bob : Bob HbitFunded Herc20Deployed Herc20Funded Secret) (order : RaceOrder)

/-- `hbit_herc20` ends in `Err(e)` only right after an awaited call returned `Err(e)`. -/
theorem hbitHerc20_errLast : (hbitHerc20 alice bob order).ErrLast := by
  unfold hbitHerc20
  refine errLast_bind (errLast_awaitDo _ _) fun n => ?_
  rcases n with hf | _
  · refine errLast_bind (errLast_awaitDo _ _) fun n => ?_
    rcases n with d | _
    · refine errLast_bind (errLast_awaitDo _ _) fun n => ?_
      rcases n with _ | _
      · refine errLast_bind (errLast_awaitDo _ _) fun n => ?_
        rcases n with r | _
        · cases order <;> exact errLast_awaitResult _ _
        · exact errLast_bind (errLast_awaitResult _ _) fun _ =>
            errLast_bind (errLast_awaitResult _ _) fun _ => errLast_pure _
      · exact errLast_bind (errLast_awaitResult _ _) fun _ => errLast_pure _
    · exact errLast_bind (errLast_awaitResult _ _) fun _ => errLast_pure _
  · exact errLast_pure _

/-- A run that returns `Ok` is one of `okRuns`. -/
theorem hbitHerc20_log_of_ok (h : (hbitHerc20 alice bob order).result = .ok ()) :
    (hbitHerc20 alice bob order).log ∈ okRuns := by
  unfold hbitHerc20 at h ⊢
  obtain ⟨n, h, hlog⟩ := awaitDo_bind_ok h
  rw [hlog]
  rcases n with hf | _ <;> dsimp only [Next.completion, pure_log] at h ⊢
  case abort => decide
  obtain ⟨n, h, hlog⟩ := awaitDo_bind_ok h
  rw [hlog]
  rcases n with d | _ <;> dsimp only [Next.completion] at h ⊢
  case abort =>
    obtain ⟨_, -, hlog⟩ := awaitResult_bind_ok h
    rw [hlog, pure_log]
    decide
  obtain ⟨n, h, hlog⟩ := awaitDo_bind_ok h
  rw [hlog]
  rcases n with _ | _ <;> dsimp only [Next.completion] at h ⊢
  case abort =>
    obtain ⟨_, -, hlog⟩ := awaitResult_bind_ok h
    rw [hlog, pure_log]
    decide
  obtain ⟨n, h, hlog⟩ := awaitDo_bind_ok h
  rw [hlog]
  rcases n with r | _ <;> dsimp only [Next.completion] at h ⊢
  case abort =>
    obtain ⟨_, h, hlog⟩ := awaitResult_bind_ok h
    rw [hlog]
    obtain ⟨_, -, hlog⟩ := awaitResult_bind_ok h
    rw [hlog, pure_log]
    decide
  cases order <;> rw [awaitResult_ok h] <;> decide

/-- **The runs that return `Ok`.** `hbit_herc20` returns `Ok` exactly when its run is one of
`okRuns`. -/
theorem hbitHerc20_ok_iff :
    (hbitHerc20 alice bob order).result = .ok () ↔ (hbitHerc20 alice bob order).log ∈ okRuns := by
  refine ⟨hbitHerc20_log_of_ok alice bob order, fun hmem => ?_⟩
  cases hr : (hbitHerc20 alice bob order).result with
  | ok u => rfl
  | error e =>
    obtain ⟨s, hs⟩ := hbitHerc20_errLast alice bob order e hr
    exact absurd hs (getLast?_ne_err_of_mem_okRuns hmem s e)

/-- **A run that returns `Ok` leaves no funded HTLC unresolved.** If Alice's funding step
returned `Continue`, Bob's redeem or Alice's refund of the Bitcoin HTLC completed with `Ok`; if
Bob's funding step returned `Continue`, Alice's redeem step returned `Continue` or Bob's refund
completed with `Ok`. A run that returns `Err(e)` ends right after the awaited call that returned
`Err(e)`. -/
theorem hbitHerc20_ok_settled :
    ((hbitHerc20 alice bob order).result = .ok () → Settled (hbitHerc20 alice bob order).log) ∧
    ∀ e, (hbitHerc20 alice bob order).result = .error e →
      ∃ s, (hbitHerc20 alice bob order).log.getLast? = some (s, .err e) :=
  ⟨fun h => settled_of_mem_okRuns _ (hbitHerc20_log_of_ok alice bob order h),
    hbitHerc20_errLast alice bob order⟩

/-- After Alice's funding step returned `Continue`, an `Err` of Bob's deployment step ends the
driver with that `Err`, before anything touches the funded Bitcoin HTLC. -/
theorem hbitHerc20_of_deploy_err {hf : HbitFunded} {e : Error}
    (h1 : alice.doHbitFunded = .ok (.continue hf)) (h2 : bob.doHerc20Deployed = .error e) :
    hbitHerc20 alice bob order =
      ⟨[(.aliceFundsHbit, .continued), (.bobDeploysHerc20, .err e)], .error e⟩ := by
  unfold hbitHerc20
  rw [h1, h2]
  rfl

end Driver

/-- Alice funds the Bitcoin HTLC and Bob's deployment step fails: the driver returns the `Err`
with the Bitcoin HTLC neither redeemed nor refunded. -/
theorem hbitHerc20_err_unsettled :
    ∃ (alice : Alice Unit Unit Unit) (bob : Bob Unit Unit Unit Unit) (e : Error),
      (hbitHerc20 alice bob .redeemFirst).result = .error e ∧
      ¬ Settled (hbitHerc20 alice bob .redeemFirst).log :=
  let alice : Alice Unit Unit Unit := ⟨.ok (.continue ()), fun _ => .ok .abort, fun _ => .ok ()⟩
  let bob : Bob Unit Unit Unit Unit :=
    ⟨.error "rpc", fun _ => .ok .abort, fun _ _ => .ok (), fun _ => .ok ()⟩
  have run := hbitHerc20_of_deploy_err alice bob .redeemFirst rfl rfl
  ⟨alice, bob, "rpc", by rw [run], by rw [run]; decide⟩

end Comit.Swap
