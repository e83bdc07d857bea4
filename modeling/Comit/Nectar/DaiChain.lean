import Comit.Rust
import Mathlib.Logic.Equiv.Defs

/-!
`Chain` of `nectar`'s `ethereum::dai` (`src/ethereum/dai.rs`): the Ethereum chain a Dai asset
lives on, named by a chain id and the address of the Dai contract on that chain. The four public
chains have variants of their own; every other pair is `Local`.

`ChainId` (of the `comit` crate) is a `u32`, and `ChainId::mainnet()` and `ChainId::ropsten()`
are its values `1` and `3`. An `Address` is the 160-bit number its 20 bytes spell.

* `new_eq_iff` — `Chain::new` returns exactly the canonical chain with the given id and address.
  So `chain_id` and `dai_contract_address` give back the pair it was built from, and rebuilding a
  chain from its pair gives it back exactly when it is canonical. A `Local` whose pair is a public
  chain's is a second name for that chain: `Chain::new` never builds it, and the derived
  `PartialEq` tells it apart from the public variant.
* `equivCanonical` — so `Chain::new` is a bijection from pairs onto the canonical chains.

`Chain::from_public_chain_id` is the match on the four public ids, with its error text.
-/

namespace Comit.Dai

/-- `ethereum::Address`. -/
abbrev Address := Fin (2 ^ 160)

/-- `ethereum::ChainId`. -/
abbrev ChainId := U32

/-- `DAI_CONTRACT_ADDRESS_MAINNET` (Dai 1.0.8). -/
def daiContractAddressMainnet : Address := 0x6B175474E89094C44Da98b954EedeAC495271d0F

/-- `DAI_CONTRACT_ADDRESS_KOVAN` (Dai 1.0.8). -/
def daiContractAddressKovan : Address := 0x4f96fe3b7a6cf9725f59d353f723c1bdb64ca6aa

/-- `DAI_CONTRACT_ADDRESS_RINKEBY` (Dai 1.0.4). -/
def daiContractAddressRinkeby : Address := 0x6A9865aDE2B6207dAAC49f8bCba9705dEB0B0e6D

/-- `DAI_CONTRACT_ADDRESS_ROPSTEN` (Dai 1.0.4). -/
def daiContractAddressRopsten : Address := 0x31F42841c2db5173425b5223809CF3A38FEde360

/-- `Chain`. -/
inductive Chain
  | mainnet
  | kovan
  | rinkeby
  | ropsten
  | «local» (chainId : ChainId) (daiContractAddress : Address)
  deriving DecidableEq, Repr

namespace Chain

/-- `Chain::new`: a public variant when the pair is that chain's, `Local` otherwise. -/
def new (chainId : ChainId) (daiContractAddress : Address) : Chain :=
  if chainId = 1 ∧ daiContractAddress = daiContractAddressMainnet then mainnet
  else if chainId = 3 ∧ daiContractAddress = daiContractAddressRopsten then ropsten
  else if chainId = 4 ∧ daiContractAddress = daiContractAddressRinkeby then rinkeby
  else if chainId = 42 ∧ daiContractAddress = daiContractAddressKovan then kovan
  else «local» chainId daiContractAddress

/-- `Chain::from_public_chain_id`. -/
def fromPublicChainId (chainId : ChainId) : Except Error Chain :=
  match chainId.val with
  | 1 => .ok mainnet
  | 3 => .ok ropsten
  | 4 => .ok rinkeby
  | 42 => .ok kovan
  | _ => .error "chain_id does not correspond to public chain"

/-- `Chain::dai_contract_address`. -/
def daiContractAddress : Chain → Address
  | mainnet => daiContractAddressMainnet
  | kovan => daiContractAddressKovan
  | rinkeby => daiContractAddressRinkeby
  | ropsten => daiContractAddressRopsten
  | «local» _ daiContractAddress => daiContractAddress

/-- `Chain::chain_id`. -/
def chainId : Chain → ChainId
  | mainnet => 1
  | kovan => 42
  | rinkeby => 4
  | ropsten => 3
  | «local» chainId _ => chainId

/-- The public chains, in the order `Chain::new` tries them. -/
def publicChains : List Chain := [mainnet, ropsten, rinkeby, kovan]

/-- A chain is canonical unless it is a `Local` with a public chain's id and address. -/
def Canonical : Chain → Prop
  | «local» id a => ∀ p ∈ publicChains, ¬(p.chainId = id ∧ p.daiContractAddress = a)
  | _ => True

instance : DecidablePred Canonical
  | «local» id a =>
    inferInstanceAs (Decidable (∀ p ∈ publicChains, ¬(p.chainId = id ∧ p.daiContractAddress = a)))
  | mainnet | kovan | rinkeby | ropsten => isTrue trivial

/-! ### `Chain::new` and its inverse -/

/-- **`Chain::new` loses nothing.** Whatever the pair, the chain it builds answers `chain_id`
and `dai_contract_address` with that pair. -/
theorem new_chainId_daiContractAddress (id : ChainId) (a : Address) :
    (new id a).chainId = id ∧ (new id a).daiContractAddress = a := by
  unfold new
  split_ifs with h₁ h₂ h₃ h₄
  · exact ⟨h₁.1.symm, h₁.2.symm⟩
  · exact ⟨h₂.1.symm, h₂.2.symm⟩
  · exact ⟨h₃.1.symm, h₃.2.symm⟩
  · exact ⟨h₄.1.symm, h₄.2.symm⟩
  · exact ⟨rfl, rfl⟩

theorem new_canonical (id : ChainId) (a : Address) : (new id a).Canonical := by
  unfold new
  split_ifs with h₁ h₂ h₃ h₄
  any_goals trivial
  rintro p hp ⟨rfl, rfl⟩
  simp only [publicChains, List.mem_cons, List.not_mem_nil, or_false] at hp
  rcases hp with rfl | rfl | rfl | rfl
  exacts [h₁ ⟨rfl, rfl⟩, h₂ ⟨rfl, rfl⟩, h₃ ⟨rfl, rfl⟩, h₄ ⟨rfl, rfl⟩]

theorem new_of_canonical {c : Chain} (h : c.Canonical) : new c.chainId c.daiContractAddress = c := by
  cases c with
  | «local» id a =>
    have hp (p) (hp : p ∈ publicChains) : ¬(id = p.chainId ∧ a = p.daiContractAddress) :=
      fun ⟨h₁, h₂⟩ => h p hp ⟨h₁.symm, h₂.symm⟩
    show new id a = «local» id a
    unfold new
    split_ifs with h₁ h₂ h₃ h₄
    exacts [absurd h₁ (hp mainnet (by decide)), absurd h₂ (hp ropsten (by decide)),
      absurd h₃ (hp rinkeby (by decide)), absurd h₄ (hp kovan (by decide)), rfl]
  | _ => decide

/-- **What `Chain::new` builds.** It returns `c` exactly when `c` is the canonical chain with
the given id and address. So it loses nothing of the pair, and it never builds a `Local` that
names a public chain: the derived `PartialEq` would tell such a value apart from the public
variant with the same id and address. -/
theorem new_eq_iff (id : ChainId) (a : Address) (c : Chain) :
    new id a = c ↔ c.Canonical ∧ c.chainId = id ∧ c.daiContractAddress = a := by
  constructor
  · rintro rfl
    exact ⟨new_canonical id a, new_chainId_daiContractAddress id a⟩
  · rintro ⟨hc, rfl, rfl⟩
    exact new_of_canonical hc

/-- A `Local` with Mainnet's pair is a second name for Mainnet. -/
example : ¬(Chain.local 1 daiContractAddressMainnet).Canonical ∧
    new 1 daiContractAddressMainnet = mainnet := by
  decide

/-- `Chain::new` and `(chain_id, dai_contract_address)` are inverse bijections between pairs and
canonical chains. -/
def equivCanonical : ChainId × Address ≃ {c : Chain // c.Canonical} where
  toFun p := ⟨new p.1 p.2, new_canonical p.1 p.2⟩
  invFun c := (c.1.chainId, c.1.daiContractAddress)
  left_inv p := by
    obtain ⟨h₁, h₂⟩ := new_chainId_daiContractAddress p.1 p.2
    exact Prod.ext h₁ h₂
  right_inv c := Subtype.ext (new_of_canonical c.2)

end Chain

end Comit.Dai
