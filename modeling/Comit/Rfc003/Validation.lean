import Comit.Rust

/-!
`is_contained_in_transaction` of the comit node's RFC003 validation
(`swap_protocols/rfc003/validation.rs`) for a Bitcoin source ledger: find the output of the
funding transaction that pays the HTLC, and check that it carries the swap's amount.

The source still fetches the transaction with `unimplemented!()`, so as written the function
panics on its first line, whatever its input. The model takes the transaction that line is meant
to return as an input and describes the rest of the body, which is what runs once the fetch is
written; the `debug!` and `trace!` lines are left out, as they do not change the result. What the function reads of the swap is its
`source_asset` and the script of `bitcoin_htlc_address(&swap)`, which `OngoingSwap` holds.

* `find?_enumFrom_eq_none`, `find?_enumFrom_append` — `iter().enumerate().find(..)` finds nothing
  when no element matches, and otherwise the first match with its index.
* `isContainedInTransaction_spec` — only the first output paying the HTLC script is read: the
  function returns its location (the index cast to `u32`) when it carries the swap's amount and
  `PoorGuy` when it does not, and it panics exactly when no output pays the script.
* `isContainedInTransaction_empty` — so a transaction without outputs panics at the `unwrap`.
-/

namespace Comit.Rfc003

/-- `PoorGuy`: the HTLC output carries less than the swap asks for. -/
structure PoorGuy where
  deriving DecidableEq, Repr

/-- `TxOut`: its `value` in satoshi and its `script_pubkey`. -/
structure TxOut (Script : Type) where
  value : U64
  scriptPubkey : Script
  deriving DecidableEq, Repr

/-- `Transaction`, of which the function reads the outputs. -/
structure Transaction (Script : Type) where
  output : List (TxOut Script)
  deriving DecidableEq, Repr

/-- `OutPoint`: a transaction id and the index of one of its outputs. -/
structure OutPoint (TxId : Type) where
  txid : TxId
  vout : U32
  deriving DecidableEq, Repr

/-- What `is_contained_in_transaction` reads of an `OngoingSwap`: `source_asset`, in satoshi, and
the `script_pubkey` of `bitcoin_htlc_address(&swap)`. -/
structure OngoingSwap (Script : Type) where
  sourceAsset : U64
  htlcScript : Script
  deriving DecidableEq, Repr

/-- The message of `Option::unwrap` on `None`. -/
def unwrapNone : String := "called `Option::unwrap()` on a `None` value"

/-! ### `enumerate().find(..)` -/

section Find

variable {α : Type} (f : α → Bool)

theorem find?_enumFrom_eq_none (n : Nat) (l : List α) :
    (l.enumFrom n).find? (fun p => f p.2) = none ↔ ∀ x ∈ l, f x = false := by
  induction l generalizing n with
  | nil => simp
  | cons a l ih => cases h : f a <;> simp [List.enumFrom, h, ih]

/-- The first element that matches is found, with its index. -/
theorem find?_enumFrom_append (n : Nat) {pre post : List α} {a : α}
    (hpre : ∀ x ∈ pre, f x = false) (ha : f a = true) :
    ((pre ++ a :: post).enumFrom n).find? (fun p => f p.2) = some (n + pre.length, a) := by
  induction pre generalizing n with
  | nil => simp [List.enumFrom, ha]
  | cons b pre ih =>
    have hb : f b = false := hpre b (List.mem_cons_self b pre)
    rw [List.cons_append, List.enumFrom_cons, List.find?_cons_of_neg _ (by simp [hb]),
      ih (n + 1) fun x hx => hpre x (List.mem_cons_of_mem b hx), List.length_cons]
    congr 2
    omega

end Find

/-! ### The check -/

section Check

variable {Script TxId : Type} [DecidableEq Script]

/-- `BitcoinQuantity::is_contained_in_transaction`, on the transaction its first line is meant
to fetch. -/
def isContainedInTransaction (swap : OngoingSwap Script) (tx : TxId)
    (transaction : Transaction Script) : Outcome PoorGuy (OutPoint TxId) :=
  match transaction.output.enum.find? (fun p => p.2.scriptPubkey == swap.htlcScript) with
  | none => .panic unwrapNone
  | some (vout, txout) =>
    let location : OutPoint TxId := ⟨tx, (vout : U32)⟩
    let actualValue := txout.value
    let requiredValue := swap.sourceAsset
    let hasEnoughMoney := actualValue ≥ requiredValue
    if hasEnoughMoney then .ok location else .err ⟨⟩

/-- **What `is_contained_in_transaction` decides** after its fetch, on the transaction passed in
place of the `unimplemented!()` line (before which the body as written panics). It panics exactly
when no output pays the HTLC script. Otherwise split the outputs at the first one that does: the
function returns that output's location, its index cast to `u32`, when it carries at least the
swap's amount, and `PoorGuy` when it does not; the outputs after it are never read. -/
theorem isContainedInTransaction_spec (swap : OngoingSwap Script) (tx : TxId) :
    (∀ transaction : Transaction Script,
      isContainedInTransaction swap tx transaction = .panic unwrapNone ↔
        ∀ x ∈ transaction.output, x.scriptPubkey ≠ swap.htlcScript) ∧
    ∀ pre post : List (TxOut Script), ∀ o : TxOut Script,
      (∀ x ∈ pre, x.scriptPubkey ≠ swap.htlcScript) → o.scriptPubkey = swap.htlcScript →
      isContainedInTransaction swap tx ⟨pre ++ o :: post⟩ =
        if swap.sourceAsset ≤ o.value then .ok ⟨tx, (pre.length : U32)⟩ else .err ⟨⟩ := by
  refine ⟨fun transaction => ?_, fun pre post o hpre ho => ?_⟩
  · have hnone := find?_enumFrom_eq_none (fun x : TxOut Script => x.scriptPubkey == swap.htlcScript)
      0 transaction.output
    simp only [beq_eq_false_iff_ne] at hnone
    rw [← hnone, isContainedInTransaction, List.enum]
    split
    · exact iff_of_true rfl ‹_›
    · rename_i h
      refine iff_of_false (by dsimp only; split <;> simp) (by rw [h]; simp)
  · rw [isContainedInTransaction, List.enum,
      find?_enumFrom_append (fun x : TxOut Script => x.scriptPubkey == swap.htlcScript) 0
        (fun x hx => by simpa using hpre x hx) (by simpa using ho), Nat.zero_add]

/-- A transaction without outputs makes the `unwrap` panic, whatever the swap. -/
theorem isContainedInTransaction_empty (swap : OngoingSwap Script) (tx : TxId) :
    isContainedInTransaction swap tx (⟨[]⟩ : Transaction Script) = .panic unwrapNone := rfl

end Check

end Comit.Rfc003
