import Comit.Nectar.Swap
import Mathlib.Tactic.DeriveFintype

/-!
The protocol that `swap::hbit_herc20` (`src/swap.rs`) drives, as a state machine over the
outcomes of the calls it awaits, and the proof that the driver follows it.

A `Phase` says how far the two HTLCs have got. `Phase.awaits` lists the calls the protocol may
make in a phase and `Phase.next` says where each outcome of such a call leads; an `Err` of an
awaited call ends the swap in `failed`. The machine is stated on its own terms, with no
reference to the driver; what connects the two is `hbitHerc20_drives`.

* `drives_bind`, `drives_awaitDo`, `drives_awaitResult` — a small program logic for `Traced`: a
  computation *drives* the machine from a phase to a result-dependent phase when its log is a
  run of the machine between them.
* `hbitHerc20_drives`, `hbitHerc20_run_protocol` — every run of `hbit_herc20`, under every
  outcome of every call and either order of the final race, is a run of the machine from
  `start`: it ends in `done` when the driver returns `Ok` and in `failed` when it returns `Err`.
* `run_required`, `run_nodup` — what every run of the machine keeps: a phase is entered only
  after the outcomes it presupposes, and no call is made twice.
* `hbitHerc20_awaits_after_requires`, `hbitHerc20_steps_nodup` — carried over to the driver:
  every call it awaits comes after the outcomes the protocol requires before that call (Bob
  redeems the Bitcoin HTLC only after Alice's redeem revealed the secret; Bob refunds only
  after Alice gave up her redeem and got her refund), and it awaits no call twice.
-/

namespace Comit.Swap

deriving instance Fintype for Step

/-- How far a swap has got. -/
inductive Phase
  /-- Nothing is funded yet. -/
  | start
  /-- Alice's Bitcoin HTLC is funded. -/
  | hbitFunded
  /-- Bob's ERC20 HTLC is deployed too. -/
  | herc20Deployed
  /-- Bob's ERC20 HTLC is funded too. -/
  | herc20Funded
  /-- Alice redeemed the ERC20 HTLC, which reveals the secret: the Bitcoin HTLC is Bob's to
  redeem, or Alice's to refund. -/
  | secretRevealed
  /-- Bob gave up before funding: Alice takes her bitcoin back. -/
  | refundHbit
  /-- Alice gave up her redeem: both take their funds back, Alice first. -/
  | refundBoth
  /-- Alice has her bitcoin back; Bob takes his tokens back. -/
  | refundHerc20
  /-- The swap is over. -/
  | done
  /-- An awaited call failed. -/
  | failed
  deriving DecidableEq, Repr, Fintype

namespace Phase

/-- The calls the protocol makes in a phase. -/
def awaits : Phase → List Step
  | start => [.aliceFundsHbit]
  | hbitFunded => [.bobDeploysHerc20]
  | herc20Deployed => [.bobFundsHerc20]
  | herc20Funded => [.aliceRedeemsHerc20]
  | secretRevealed => [.bobRedeemsHbit, .aliceRefundsHbit]
  | refundHbit | refundBoth => [.aliceRefundsHbit]
  | refundHerc20 => [.bobRefundsHerc20]
  | done | failed => []

/-- Where an outcome other than `Err` of an awaited call leads. -/
def advance : Phase → Step → Completion → Option Phase
  | start, .aliceFundsHbit, .continued => some hbitFunded
  | start, .aliceFundsHbit, .aborted => some done
  | hbitFunded, .bobDeploysHerc20, .continued => some herc20Deployed
  | hbitFunded, .bobDeploysHerc20, .aborted => some refundHbit
  | herc20Deployed, .bobFundsHerc20, .continued => some herc20Funded
  | herc20Deployed, .bobFundsHerc20, .aborted => some refundHbit
  | herc20Funded, .aliceRedeemsHerc20, .continued => some secretRevealed
  | herc20Funded, .aliceRedeemsHerc20, .aborted => some refundBoth
  | secretRevealed, .bobRedeemsHbit, .ok => some done
  | secretRevealed, .aliceRefundsHbit, .ok => some done
  | refundHbit, .aliceRefundsHbit, .ok => some done
  | refundBoth, .aliceRefundsHbit, .ok => some refundHerc20
  | refundHerc20, .bobRefundsHerc20, .ok => some done
  | _, _, _ => none

/-- One transition: an `Err` of an awaited call fails the swap. -/
def next (p : Phase) : Step × Completion → Option Phase
  | (s, .err _) => if s ∈ p.awaits then some failed else none
  | (s, c) => p.advance s c

/-- A run of the machine over a log, if the log is one. -/
def run : Phase → Log → Option Phase
  | p, [] => some p
  | p, ev :: log => (p.next ev).bind fun q => q.run log

theorem run_append (p : Phase) (l₁ l₂ : Log) : p.run (l₁ ++ l₂) = (p.run l₁).bind (·.run l₂) := by
  induction l₁ generalizing p with
  | nil => rfl
  | cons ev l₁ ih =>
    show (p.next ev).bind _ = ((p.next ev).bind _).bind _
    cases p.next ev with
    | none => rfl
    | some q => exact ih q

/-- A run through `pre ++ ev :: post` passes a phase that makes the call of `ev`. -/
theorem run_split {p q : Phase} {pre post : Log} {ev : Step × Completion}
    (h : p.run (pre ++ ev :: post) = some q) :
    ∃ m m', p.run pre = some m ∧ m.next ev = some m' := by
  rw [run_append] at h
  obtain ⟨m, hm, h⟩ := Option.bind_eq_some.mp h
  obtain ⟨m', hm', -⟩ := Option.bind_eq_some.mp h
  exact ⟨m, m', hm, hm'⟩

/-! ### What the machine keeps along every run -/

/-- The outcomes a phase presupposes. -/
def required : Phase → Log
  | start | done | failed => []
  | hbitFunded | refundHbit => [(.aliceFundsHbit, .continued)]
  | herc20Deployed => [(.aliceFundsHbit, .continued), (.bobDeploysHerc20, .continued)]
  | herc20Funded =>
    [(.aliceFundsHbit, .continued), (.bobDeploysHerc20, .continued), (.bobFundsHerc20, .continued)]
  | secretRevealed =>
    [(.aliceFundsHbit, .continued), (.bobDeploysHerc20, .continued), (.bobFundsHerc20, .continued),
      (.aliceRedeemsHerc20, .continued)]
  | refundBoth =>
    [(.aliceFundsHbit, .continued), (.bobDeploysHerc20, .continued), (.bobFundsHerc20, .continued),
      (.aliceRedeemsHerc20, .aborted)]
  | refundHerc20 =>
    [(.aliceFundsHbit, .continued), (.bobDeploysHerc20, .continued), (.bobFundsHerc20, .continued),
      (.aliceRedeemsHerc20, .aborted), (.aliceRefundsHbit, .ok)]

/-- The calls the protocol may still make from a phase on. -/
def future : Phase → List Step
  | start => [.aliceFundsHbit, .bobDeploysHerc20, .bobFundsHerc20, .aliceRedeemsHerc20,
      .bobRedeemsHbit, .aliceRefundsHbit, .bobRefundsHerc20]
  | hbitFunded => [.bobDeploysHerc20, .bobFundsHerc20, .aliceRedeemsHerc20, .bobRedeemsHbit,
      .aliceRefundsHbit, .bobRefundsHerc20]
  | herc20Deployed => [.bobFundsHerc20, .aliceRedeemsHerc20, .bobRedeemsHbit, .aliceRefundsHbit,
      .bobRefundsHerc20]
  | herc20Funded => [.aliceRedeemsHerc20, .bobRedeemsHbit, .aliceRefundsHbit, .bobRefundsHerc20]
  | secretRevealed => [.bobRedeemsHbit, .aliceRefundsHbit]
  | refundHbit => [.aliceRefundsHbit]
  | refundBoth => [.aliceRefundsHbit, .bobRefundsHerc20]
  | refundHerc20 => [.bobRefundsHerc20]
  | done | failed => []

/-- The outcomes other than `Err`; `advance` reads no other. -/
def outcomes : List Completion := [.continued, .aborted, .ok]

/-! The transition table, checked once: an outcome is taken only of an awaited call, the phase
it leads to presupposes nothing but what its source did and that outcome, and the call is not
made again from there. -/

theorem advance_awaits : ∀ (p : Phase) (s : Step), ∀ c ∈ outcomes,
    (p.advance s c).isSome → s ∈ p.awaits := by
  decide

theorem advance_required : ∀ (p : Phase) (s : Step), ∀ c ∈ outcomes, (p.advance s c).all fun q =>
    decide (∀ e ∈ q.required, e ∈ p.required ∨ e = (s, c)) := by
  decide

theorem advance_future : ∀ (p : Phase) (s : Step), ∀ c ∈ outcomes, (p.advance s c).all fun q =>
    decide (s ∉ q.future ∧ ∀ t ∈ q.future, t ∈ p.future) := by
  decide

theorem of_all_decide {o : Option Phase} {q : Phase} {P : Phase → Prop} [DecidablePred P]
    (ho : o = some q) (h : o.all (fun q => decide (P q)) = true) : P q := by
  subst ho
  exact of_decide_eq_true h

theorem awaits_subset_future : ∀ p : Phase, ∀ s ∈ p.awaits, s ∈ p.future := by decide

/-- **One step.** What the table says of every transition, `Err` included. -/
theorem next_spec {p q : Phase} {s : Step} {c : Completion} (h : p.next (s, c) = some q) :
    s ∈ p.awaits ∧ (∀ e ∈ q.required, e ∈ p.required ∨ e = (s, c)) ∧
      s ∉ q.future ∧ ∀ t ∈ q.future, t ∈ p.future := by
  have table (hc : c ∈ outcomes) (h : p.advance s c = some q) :=
    And.intro (advance_awaits p s c hc (by rw [h]; rfl)) <|
      And.intro (of_all_decide h (advance_required p s c hc)) (of_all_decide h (advance_future p s c hc))
  cases c with
  | err e =>
    simp only [next] at h
    split at h
    · cases h
      exact ⟨‹_›, by simp [required], by simp [future], by simp [future]⟩
    · cases h
  | continued => exact table (by decide) h
  | aborted => exact table (by decide) h
  | ok => exact table (by decide) h

/-- **Every run.** A phase reached from `p` presupposes only what `p` did and what the run
logged. -/
theorem run_required {p q : Phase} {log : Log} (h : p.run log = some q) :
    ∀ e ∈ q.required, e ∈ p.required ∨ e ∈ log := by
  induction log generalizing p with
  | nil =>
    cases h
    exact fun e he => .inl he
  | cons ev log ih =>
    obtain ⟨m, hm, h⟩ := Option.bind_eq_some.mp h
    have hstep := (next_spec (s := ev.1) (c := ev.2) hm).2.1
    intro e he
    rcases ih h e he with he | he
    · rcases hstep e he with he | rfl
      · exact .inl he
      · exact .inr (List.mem_cons_self _ _)
    · exact .inr (List.mem_cons_of_mem _ he)

/-- **Every run.** A run makes no call twice, and only calls its first phase may still make. -/
theorem run_nodup {p q : Phase} {log : Log} (h : p.run log = some q) :
    (log.map Prod.fst).Nodup ∧ ∀ s ∈ log.map Prod.fst, s ∈ p.future := by
  induction log generalizing p with
  | nil => exact ⟨List.nodup_nil, by simp⟩
  | cons ev log ih =>
    obtain ⟨m, hm, h⟩ := Option.bind_eq_some.mp h
    obtain ⟨hawait, -, hgone, hsub⟩ := next_spec (s := ev.1) (c := ev.2) hm
    obtain ⟨hnodup, hrest⟩ := ih h
    rw [List.map_cons]
    refine ⟨List.nodup_cons.mpr ⟨fun hs => hgone (hrest _ hs), hnodup⟩, fun s hs => ?_⟩
    rcases List.mem_cons.mp hs with rfl | hs
    · exact awaits_subset_future _ _ hawait
    · exact hsub _ (hrest _ hs)

end Phase

/-! ### The driver follows the machine -/

namespace Traced

variable {α β : Type}

/-- Started in phase `p`, the computation's log is a run of the machine that ends in `Q a`
when it returns `Ok(a)` and in `failed` when it returns `Err`. -/
def Drives (p : Phase) (t : Traced α) (Q : α → Phase) : Prop :=
  p.run t.log = some (match t.result with
    | .ok a => Q a
    | .error _ => .failed)

theorem drives_pure {p : Phase} {a : α} {Q : α → Phase} (h : Q a = p) : (pure a : Traced α).Drives p Q :=
  congrArg some h.symm

theorem drives_bind {p : Phase} {t : Traced α} {f : α → Traced β} {Q : α → Phase} {R : β → Phase}
    (ht : t.Drives p Q) (hf : ∀ a, (f a).Drives (Q a) R) : (t >>= f).Drives p R := by
  obtain ⟨log, r⟩ := t
  cases r with
  | error e => exact ht
  | ok a =>
    show p.run (log ++ (f a).log) = _
    rw [Phase.run_append, show p.run log = some (Q a) from ht]
    exact hf a

end Traced

open Traced

section Await

variable {α : Type} {p : Phase} {s : Step}

theorem drives_awaitDo {r : Except Error (Next α)} (pc pa : Phase)
    (hc : p.advance s .continued = some pc) (ha : p.advance s .aborted = some pa)
    (hs : s ∈ p.awaits) :
    (awaitDo s r).Drives p fun | .continue _ => pc | .abort => pa := by
  rcases r with e | a | _
  · show (if s ∈ p.awaits then some Phase.failed else none).bind _ = _
    rw [if_pos hs]
    rfl
  · show (p.advance s .continued).bind _ = _
    rw [hc]
    rfl
  · show (p.advance s .aborted).bind _ = _
    rw [ha]
    rfl

theorem drives_awaitResult {r : Except Error α} (q : Phase) (hq : p.advance s .ok = some q)
    (hs : s ∈ p.awaits) : (awaitResult s r).Drives p fun _ => q := by
  rcases r with e | a
  · show (if s ∈ p.awaits then some Phase.failed else none).bind _ = _
    rw [if_pos hs]
    rfl
  · show (p.advance s .ok).bind _ = _
    rw [hq]
    rfl

end Await

section Driver

variable {HbitFunded Herc20Deployed Herc20Funded Secret : Type}
variable (alice : Alice HbitFunded Herc20Deployed Secret)
  (bob : Bob HbitFunded Herc20Deployed Herc20Funded Secret) (order : RaceOrder)

/-- **`hbit_herc20` follows the protocol.** Whatever Alice's and Bob's calls return and
whichever future of the race completes first, the calls the driver awaits and their outcomes
form a run of the machine from `start`, to `done` when it returns `Ok` and to `failed` when it
returns `Err`. -/
theorem hbitHerc20_drives : (hbitHerc20 alice bob order).Drives .start fun _ => .done := by
  unfold hbitHerc20
  refine drives_bind (drives_awaitDo .hbitFunded .done rfl rfl (by decide)) fun n => ?_
  rcases n with hf | _ <;> dsimp only
  case abort => exact drives_pure rfl
  refine drives_bind (drives_awaitDo .herc20Deployed .refundHbit rfl rfl (by decide)) fun n => ?_
  rcases n with d | _ <;> dsimp only
  case abort => exact drives_bind (drives_awaitResult .done rfl (by decide)) fun _ => drives_pure rfl
  refine drives_bind (drives_awaitDo .herc20Funded .refundHbit rfl rfl (by decide)) fun n => ?_
  rcases n with _ | _ <;> dsimp only
  case abort => exact drives_bind (drives_awaitResult .done rfl (by decide)) fun _ => drives_pure rfl
  refine drives_bind (drives_awaitDo .secretRevealed .refundBoth rfl rfl (by decide)) fun n => ?_
  rcases n with r | _ <;> dsimp only
  case abort =>
    exact drives_bind (drives_awaitResult .refundHerc20 rfl (by decide)) fun _ =>
      drives_bind (drives_awaitResult .done rfl (by decide)) fun _ => drives_pure rfl
  cases order <;> exact drives_awaitResult .done rfl (by decide)

/-- **`hbit_herc20` runs the protocol to its end.** For all of Alice's and Bob's outcomes and
either order of the race, the driver's log is a run of the machine from `start`, and the run ends
in `done` when the driver returns `Ok` and in `failed` when it returns `Err`. -/
theorem hbitHerc20_run_protocol :
    Phase.start.run (hbitHerc20 alice bob order).log =
      some (if (hbitHerc20 alice bob order).result.isOk then .done else .failed) := by
  rw [hbitHerc20_drives alice bob order]
  cases (hbitHerc20 alice bob order).result <;> rfl

/-- **No call twice.** In every run the driver awaits each call at most once. -/
theorem hbitHerc20_steps_nodup : ((hbitHerc20 alice bob order).log.map Prod.fst).Nodup :=
  (Phase.run_nodup (hbitHerc20_drives alice bob order)).1

end Driver

/-- The outcomes every phase that makes the call presupposes. -/
def Step.requires : Step → Log
  | .aliceFundsHbit => []
  | .bobDeploysHerc20 | .aliceRefundsHbit => [(.aliceFundsHbit, .continued)]
  | .bobFundsHerc20 => [(.aliceFundsHbit, .continued), (.bobDeploysHerc20, .continued)]
  | .aliceRedeemsHerc20 =>
    [(.aliceFundsHbit, .continued), (.bobDeploysHerc20, .continued), (.bobFundsHerc20, .continued)]
  | .bobRedeemsHbit =>
    [(.aliceFundsHbit, .continued), (.bobDeploysHerc20, .continued), (.bobFundsHerc20, .continued),
      (.aliceRedeemsHerc20, .continued)]
  | .bobRefundsHerc20 =>
    [(.aliceFundsHbit, .continued), (.bobDeploysHerc20, .continued), (.bobFundsHerc20, .continued),
      (.aliceRedeemsHerc20, .aborted), (.aliceRefundsHbit, .ok)]

theorem requires_subset_required : ∀ p : Phase, ∀ s ∈ p.awaits, ∀ e ∈ s.requires, e ∈ p.required := by
  decide

/-- In a run of the machine from `start`, every call comes after the outcomes it requires. -/
theorem Phase.run_requires {log pre post : Log} {s : Step} {c : Completion} {q : Phase}
    (h : Phase.start.run log = some q) (hlog : log = pre ++ (s, c) :: post) :
    ∀ e ∈ s.requires, e ∈ pre := by
  subst hlog
  obtain ⟨m, m', hm, hm'⟩ := run_split h
  intro e he
  have hreq := requires_subset_required m s (next_spec hm').1 e he
  simpa [required] using run_required hm e hreq

section Driver

variable {HbitFunded Herc20Deployed Herc20Funded Secret : Type}

/-- **Causal order.** Every call `hbit_herc20` awaits comes after the outcomes the protocol
requires before it: Bob deploys only after Alice's funding step continued, Alice redeems only
after Bob's funding step continued, Bob redeems the Bitcoin HTLC only after Alice's redeem step
continued (which reveals the secret), Alice refunds only a funded Bitcoin HTLC, and Bob refunds
only after Alice aborted her redeem and her own refund returned `Ok`. -/
theorem hbitHerc20_awaits_after_requires (alice : Alice HbitFunded Herc20Deployed Secret)
    (bob : Bob HbitFunded Herc20Deployed Herc20Funded Secret) (order : RaceOrder)
    (pre post : Log) (s : Step) (c : Completion)
    (hlog : (hbitHerc20 alice bob order).log = pre ++ (s, c) :: post) :
    ∀ e ∈ s.requires, e ∈ pre :=
  Phase.run_requires (hbitHerc20_drives alice bob order) hlog

end Driver

/-- A run in which every step continues and Bob's redeem wins the race: Bob's redeem comes after
Alice's redeem step continued. -/
theorem hbitHerc20_bobRedeems_after_aliceRedeems :
    ∃ (alice : Alice Unit Unit Unit) (bob : Bob Unit Unit Unit Unit),
      (hbitHerc20 alice bob .redeemFirst).log =
        [(.aliceFundsHbit, .continued), (.bobDeploysHerc20, .continued),
          (.bobFundsHerc20, .continued), (.aliceRedeemsHerc20, .continued)] ++
          [(.bobRedeemsHbit, .ok)] ∧
      ∀ e ∈ Step.bobRedeemsHbit.requires, e ∈
        [(.aliceFundsHbit, .continued), (.bobDeploysHerc20, .continued),
          (.bobFundsHerc20, .continued), (.aliceRedeemsHerc20, .continued)] :=
  let alice : Alice Unit Unit Unit :=
    ⟨.ok (.continue ()), fun _ => .ok (.continue ⟨()⟩), fun _ => .ok ()⟩
  let bob : Bob Unit Unit Unit Unit :=
    ⟨.ok (.continue ()), fun _ => .ok (.continue ()), fun _ _ => .ok (), fun _ => .ok ()⟩
  ⟨alice, bob, rfl, hbitHerc20_awaits_after_requires alice bob .redeemFirst _ [] _ _ rfl⟩

end Comit.Swap
