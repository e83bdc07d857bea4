import Comit.Rust

/-!
The actions the HTTP API of `cnd` offers Alice in a swap from `halight` (a Lightning HTLC, her
alpha ledger) to `herc20` (an ERC20 HTLC, Bob's beta ledger): the `*Action` impls of
`AliceSwap<Bitcoin, Erc20, halight::Finalized, herc20::Finalized>`
(`cnd/src/http_api/halight_herc20/alice.rs`). Each one looks at the swap and either builds the
action's data or fails with `ActionNotFound`: `fund` on a finalized swap whose Lightning HTLC is
`Opened` and whose ERC20 HTLC is still `None`, `redeem` once the ERC20 HTLC is `Funded`, and
`init`, `deploy` and `refund`, whose output is `Never`, on no swap.

The ledger states are those of the crates outside this file, with the states the actions do not
tell apart merged into `other`. The constants taken from other crates (`SecretHash::new`,
`EtherHtlc::redeem_tx_gas_limit()`, `ChainId::regtest()`) are parameters.
-/

namespace Comit.Cnd

/-- `ActionNotFound`: the swap's state has no such action. -/
structure ActionNotFound where
  deriving DecidableEq, Repr

/-- `halight::State`, of which the actions only ask whether it is `Opened(_)`. -/
inductive HalightState
  | opened
  | other
  deriving DecidableEq, Repr

/-- `herc20::State`, of which the actions ask whether it is `None` or `Funded`. -/
inductive Herc20State (Address : Type)
  | none
  | funded (htlcLocation : Address)
  | other
  deriving DecidableEq, Repr

/-- `halight::Finalized`, the amount in satoshi. -/
structure HalightFinalized (Identity : Type) where
  state : HalightState
  asset : Nat
  refundIdentity : Identity
  redeemIdentity : Identity
  cltvExpiry : Nat
  deriving DecidableEq, Repr

/-- `herc20::Finalized`, with the field the actions read. -/
structure Herc20Finalized (Address : Type) where
  state : Herc20State Address
  deriving DecidableEq, Repr

/-- `AliceSwap`: agreed on but not yet finalized, or finalized with both ledgers' states and
Alice's secret. -/
inductive AliceSwap (Identity Address Secret : Type)
  | created
  | finalized (alphaFinalized : HalightFinalized Identity) (betaFinalized : Herc20Finalized Address)
      (secret : Secret)
  deriving DecidableEq, Repr

/-- `lnd::Chain`. -/
inductive Chain
  | bitcoin
  deriving DecidableEq, Repr

/-- `bitcoin::Network`. -/
inductive Network
  | regtest
  deriving DecidableEq, Repr

/-- `lnd::SendPayment`: the Lightning payment that funds the `halight` HTLC. -/
structure SendPayment (Identity Hash : Type) where
  toPublicKey : Identity
  amount : Nat
  secretHash : Hash
  finalCltvDelta : Nat
  chain : Chain
  network : Network
  selfPublicKey : Identity
  deriving DecidableEq, Repr

/-- `ethereum::CallContract`: the call that redeems the `herc20` HTLC, its data the secret
(`toAddress` is the field `to`). -/
structure CallContract (Address Secret ChainId : Type) where
  toAddress : Address
  data : Option Secret
  gasLimit : Nat
  chainId : ChainId
  minBlockTimestamp : Option Nat
  deriving DecidableEq, Repr

section Actions

variable {Identity Address Secret Hash ChainId : Type}

/-- `FundAction::fund_action`. -/
def fundAction (secretHash : Secret → Hash) :
    AliceSwap Identity Address Secret → Except ActionNotFound (SendPayment Identity Hash)
  | .finalized ⟨.opened, asset, refundIdentity, redeemIdentity, cltvExpiry⟩ ⟨.none⟩ secret =>
    .ok { toPublicKey := redeemIdentity, amount := asset, secretHash := secretHash secret,
          finalCltvDelta := cltvExpiry, chain := .bitcoin, network := .regtest,
          selfPublicKey := refundIdentity }
  | _ => .error ⟨⟩

/-- `RedeemAction::redeem_action`. -/
def redeemAction (redeemTxGasLimit : Nat) (regtest : ChainId) :
    AliceSwap Identity Address Secret → Except ActionNotFound (CallContract Address Secret ChainId)
  | .finalized _ ⟨.funded htlcLocation⟩ secret =>
    .ok { toAddress := htlcLocation, data := some secret, gasLimit := redeemTxGasLimit,
          chainId := regtest, minBlockTimestamp := none }
  | _ => .error ⟨⟩

/-- The actions whose `Output` is `Never`: whatever the swap, `ActionNotFound`. -/
def neverAction (_ : AliceSwap Identity Address Secret) : Except ActionNotFound Empty := .error ⟨⟩

/-- `InitAction::init_action`. -/
def initAction : AliceSwap Identity Address Secret → Except ActionNotFound Empty := neverAction

/-- `DeployAction::deploy_action`. -/
def deployAction : AliceSwap Identity Address Secret → Except ActionNotFound Empty := neverAction

/-- `RefundAction::refund_action`. -/
def refundAction : AliceSwap Identity Address Secret → Except ActionNotFound Empty := neverAction

end Actions

end Comit.Cnd
