import Comit.Rust

/-!
`EventStore` of the trading service (`trading_service/src/event_store.rs`): four maps from a
trade's `Uuid` to the event of each stage, `OfferCreated`, `OrderCreated`, `OrderTaken` and
`ContractDeployed`. A `store_*` call asks `current_state` which stage the trade is in (the first
map, in that order, that lacks the id) and inserts only when it is the stage just before its own.

This module is the store as one thread sees it: every call runs to its end before the next one
starts. `Comit.TradingService.Interleaving` splits the calls into their locked steps.

* `currentState_eq_before_iff` — `current_state` answers "just before `k`" exactly when the
  maps before `k` hold the id and the map of `k` does not.
* `Call.run_eq`, `Call.requiredState_eq_before` — every `store_*` is `_store` on its own map,
  with the required state "just before" that map.
* `Call.prefix_run` — a call keeps the maps holding each id a prefix of the four.
* `runAll_ok_count` — when calls do not overlap, at most one call of each kind and id returns
  `Ok`, and none once the store holds that event.
-/

namespace Comit.TradingService

/-- The four maps of `EventStore`, by the event they hold, in the order `current_state` reads
them. -/
inductive EventKind
  | offerCreated
  | orderCreated
  | orderTaken
  | contractDeployed
  deriving DecidableEq, Repr

/-- `TradeState`. -/
inductive TradeState
  | nonExistent
  | offerCreated
  | orderCreated
  | orderTaken
  | contractDeployed
  deriving DecidableEq, Repr

/-- `Error`. -/
inductive Error
  | incorrectState
  deriving DecidableEq, Repr

namespace EventKind

/-- The position of a map in the order `current_state` reads them. -/
def index : EventKind → Nat
  | offerCreated => 0
  | orderCreated => 1
  | orderTaken => 2
  | contractDeployed => 3

/-- The map `current_state` reads after this one. -/
def next? : EventKind → Option EventKind
  | offerCreated => some orderCreated
  | orderCreated => some orderTaken
  | orderTaken => some contractDeployed
  | contractDeployed => none

theorem index_inj {j k : EventKind} (h : j.index = k.index) : j = k := by
  cases j <;> cases k <;> first | rfl | cases h

theorem index_next? {j k : EventKind} (h : j.next? = some k) : k.index = j.index + 1 := by
  cases j <;> cases k <;> first | rfl | cases h

end EventKind

/-- What `current_state` returns when the map of `k` is the first one without the id. -/
def TradeState.before : EventKind → TradeState
  | .offerCreated => .nonExistent
  | .orderCreated => .offerCreated
  | .orderTaken => .orderCreated
  | .contractDeployed => .orderTaken

theorem TradeState.before_inj {j k : EventKind} (h : before j = before k) : j = k := by
  cases j <;> cases k <;> first | rfl | cases h

theorem TradeState.before_ne_contractDeployed (k : EventKind) : before k ≠ .contractDeployed := by
  cases k <;> nofun

/-- An event of kind `k`: its `uid`, and the rest of its fields, which the store never reads. -/
structure Event (Uuid : Type) (Fields : EventKind → Type) (k : EventKind) where
  uid : Uuid
  fields : Fields k

/-- `EventStore`: one map per kind. A `HashMap` is a partial function. -/
structure EventStore (Uuid : Type) (Fields : EventKind → Type) where
  offerCreated : Uuid → Option (Event Uuid Fields .offerCreated)
  orderCreated : Uuid → Option (Event Uuid Fields .orderCreated)
  orderTaken : Uuid → Option (Event Uuid Fields .orderTaken)
  contractDeployed : Uuid → Option (Event Uuid Fields .contractDeployed)

/-- `HashMap::insert`. -/
def mapInsert {Uuid α : Type} [DecidableEq Uuid] (m : Uuid → Option α) (id : Uuid) (a : α) :
    Uuid → Option α :=
  fun id' => if id' = id then some a else m id'

namespace EventStore

variable {Uuid : Type} [DecidableEq Uuid] {Fields : EventKind → Type}

/-- `EventStore::new`. -/
def new : EventStore Uuid Fields := ⟨fun _ => none, fun _ => none, fun _ => none, fun _ => none⟩

/-- `_get(&self.<map>, id)`: the event of kind `k` stored for `id`. -/
def get (self : EventStore Uuid Fields) : (k : EventKind) → Uuid → Option (Event Uuid Fields k)
  | .offerCreated => self.offerCreated
  | .orderCreated => self.orderCreated
  | .orderTaken => self.orderTaken
  | .contractDeployed => self.contractDeployed

/-- `<map>.write().unwrap().insert(id, event.clone())`. -/
def insertEvent (self : EventStore Uuid Fields) :
    (k : EventKind) → Uuid → Event Uuid Fields k → EventStore Uuid Fields
  | .offerCreated, id, e => { self with offerCreated := mapInsert self.offerCreated id e }
  | .orderCreated, id, e => { self with orderCreated := mapInsert self.orderCreated id e }
  | .orderTaken, id, e => { self with orderTaken := mapInsert self.orderTaken id e }
  | .contractDeployed, id, e =>
    { self with contractDeployed := mapInsert self.contractDeployed id e }

/-- `EventStore::current_state`. -/
def currentState (self : EventStore Uuid Fields) (id : Uuid) : TradeState :=
  if (self.get .offerCreated id).isNone then .nonExistent
  else if (self.get .orderCreated id).isNone then .offerCreated
  else if (self.get .orderTaken id).isNone then .orderCreated
  else if (self.get .contractDeployed id).isNone then .orderTaken
  else .contractDeployed

/-- `EventStore::_store`: insert into the map of `k` when `current_state` is `requiredState`. -/
def store (self : EventStore Uuid Fields) (k : EventKind) (requiredState : TradeState) (id : Uuid)
    (event : Event Uuid Fields k) : Outcome Error Unit × EventStore Uuid Fields :=
  if self.currentState id = requiredState then (.ok (), self.insertEvent k id event)
  else (.err .incorrectState, self)

/-- `EventStore::store_offer_created`. -/
def storeOfferCreated (self : EventStore Uuid Fields) (event : Event Uuid Fields .offerCreated) :
    Outcome Error Unit × EventStore Uuid Fields :=
  let uid := event.uid
  self.store .offerCreated .nonExistent uid event

/-- `EventStore::store_trade_created`. -/
def storeTradeCreated (self : EventStore Uuid Fields) (event : Event Uuid Fields .orderCreated) :
    Outcome Error Unit × EventStore Uuid Fields :=
  let uid := event.uid
  self.store .orderCreated .offerCreated uid event

/-- `EventStore::store_trade_accepted`. -/
def storeTradeAccepted (self : EventStore Uuid Fields) (event : Event Uuid Fields .orderTaken) :
    Outcome Error Unit × EventStore Uuid Fields :=
  let uid := event.uid
  self.store .orderTaken .orderCreated uid event

/-- `EventStore::store_contract_deployed`. -/
def storeContractDeployed (self : EventStore Uuid Fields)
    (event : Event Uuid Fields .contractDeployed) : Outcome Error Unit × EventStore Uuid Fields :=
  let uid := event.uid
  self.store .contractDeployed .orderTaken uid event

/-- The four `get_*`: `_get(..).map_or(Err(IncorrectState), Ok)`. -/
def getEvent (self : EventStore Uuid Fields) (k : EventKind) (id : Uuid) :
    Outcome Error (Event Uuid Fields k) :=
  match self.get k id with
  | none => .err .incorrectState
  | some event => .ok event

/-- `EventStore::get_offer_created`. -/
def getOfferCreated (self : EventStore Uuid Fields) (id : Uuid) :
    Outcome Error (Event Uuid Fields .offerCreated) := self.getEvent .offerCreated id

/-- `EventStore::get_order_created`. -/
def getOrderCreated (self : EventStore Uuid Fields) (id : Uuid) :
    Outcome Error (Event Uuid Fields .orderCreated) := self.getEvent .orderCreated id

/-- `EventStore::get_order_taken`. -/
def getOrderTaken (self : EventStore Uuid Fields) (id : Uuid) :
    Outcome Error (Event Uuid Fields .orderTaken) := self.getEvent .orderTaken id

/-- `EventStore::get_contract_deployed`. -/
def getContractDeployed (self : EventStore Uuid Fields) (id : Uuid) :
    Outcome Error (Event Uuid Fields .contractDeployed) := self.getEvent .contractDeployed id

/-! ### Which maps hold an id -/

/-- The map of `k` holds `id`. -/
def has (self : EventStore Uuid Fields) (k : EventKind) (id : Uuid) : Bool := (self.get k id).isSome

omit [DecidableEq Uuid] in
theorem getEvent_isOk_iff (s : EventStore Uuid Fields) (k : EventKind) (id : Uuid) :
    (∃ e, s.getEvent k id = .ok e) ↔ s.has k id = true := by
  unfold getEvent has
  cases s.get k id <;> simp

omit [DecidableEq Uuid] in
@[simp] theorem has_new (k : EventKind) (id : Uuid) : (new : EventStore Uuid Fields).has k id = false := by
  cases k <;> rfl

@[simp] theorem has_insertEvent (s : EventStore Uuid Fields) (k : EventKind) (id : Uuid)
    (e : Event Uuid Fields k) (k' : EventKind) (id' : Uuid) :
    (s.insertEvent k id e).has k' id' = (s.has k' id' || (k' == k && id' == id)) := by
  cases k <;> cases k' <;> by_cases h : id' = id <;>
    simp [has, get, insertEvent, mapInsert, h]

/-- The event just inserted is the one stored. -/
theorem get_insertEvent_self (s : EventStore Uuid Fields) (k : EventKind) (id : Uuid)
    (e : Event Uuid Fields k) : (s.insertEvent k id e).get k id = some e := by
  cases k <;> simp [get, insertEvent, mapInsert]

omit [DecidableEq Uuid] in
/-- **`current_state` answers "just before `k`"** exactly when the maps before `k` hold the id
and the map of `k` does not. -/
theorem currentState_eq_before_iff (s : EventStore Uuid Fields) (id : Uuid) (k : EventKind) :
    s.currentState id = .before k ↔
      (∀ j : EventKind, j.index < k.index → s.has j id = true) ∧ s.has k id = false := by
  have all : ∀ P : EventKind → Prop, (∀ j, P j) ↔
      P .offerCreated ∧ P .orderCreated ∧ P .orderTaken ∧ P .contractDeployed :=
    fun P => ⟨fun h => ⟨h _, h _, h _, h _⟩, fun ⟨h0, h1, h2, h3⟩ j => by cases j <;> assumption⟩
  rw [all]
  unfold currentState has
  cases k <;>
    cases s.get .offerCreated id <;> cases s.get .orderCreated id <;>
    cases s.get .orderTaken id <;> cases s.get .contractDeployed id <;>
    simp [TradeState.before, EventKind.index]

omit [DecidableEq Uuid] in
/-- A store whose map of `k` holds the id is not "just before `k`". -/
theorem currentState_ne_before {s : EventStore Uuid Fields} {id : Uuid} {k : EventKind}
    (h : s.has k id = true) : s.currentState id ≠ .before k := fun hs => by
  rw [(currentState_eq_before_iff s id k).mp hs |>.2] at h
  cases h

/-! ### The prefix property -/

/-- For every id, the maps holding it come first in the order `current_state` reads them. -/
def Prefix (s : EventStore Uuid Fields) : Prop :=
  ∀ id j k, j.index ≤ k.index → s.has k id = true → s.has j id = true

omit [DecidableEq Uuid] in
theorem prefix_new : Prefix (new : EventStore Uuid Fields) := fun _ _ _ _ h => by simp at h

/-- Inserting into the map of `k` an id that every map before `k` holds keeps the prefix. -/
theorem prefix_insertEvent {s : EventStore Uuid Fields} (hp : Prefix s) {k : EventKind} {id : Uuid}
    (hbefore : ∀ j : EventKind, j.index < k.index → s.has j id = true) (e : Event Uuid Fields k) :
    Prefix (s.insertEvent k id e) := by
  intro id' j k' hle hk'
  simp only [has_insertEvent, Bool.or_eq_true, Bool.and_eq_true, beq_iff_eq] at hk' ⊢
  rcases hk' with hk' | ⟨rfl, rfl⟩
  · exact .inl (hp id' j k' hle hk')
  · by_cases hj : j = k'
    · exact .inr ⟨hj, rfl⟩
    · exact .inl (hbefore j (lt_of_le_of_ne hle fun h => hj (EventKind.index_inj h)))

/-- `_store` with the state "just before" its own map keeps the prefix. -/
theorem prefix_store {s : EventStore Uuid Fields} (hp : Prefix s) (k : EventKind) (id : Uuid)
    (e : Event Uuid Fields k) : Prefix (s.store k (.before k) id e).2 := by
  unfold store
  split
  · exact prefix_insertEvent hp ((currentState_eq_before_iff s id k).mp ‹_›).1 e
  · exact hp

end EventStore

/-! ### The four `store_*` calls -/

/-- A call of one of the four `store_*` functions, with its event. -/
inductive Call (Uuid : Type) (Fields : EventKind → Type)
  | storeOfferCreated (event : Event Uuid Fields .offerCreated)
  | storeTradeCreated (event : Event Uuid Fields .orderCreated)
  | storeTradeAccepted (event : Event Uuid Fields .orderTaken)
  | storeContractDeployed (event : Event Uuid Fields .contractDeployed)

namespace Call

open EventStore

variable {Uuid : Type} [DecidableEq Uuid] {Fields : EventKind → Type}

/-- The map the call inserts into. -/
def kind : Call Uuid Fields → EventKind
  | storeOfferCreated _ => .offerCreated
  | storeTradeCreated _ => .orderCreated
  | storeTradeAccepted _ => .orderTaken
  | storeContractDeployed _ => .contractDeployed

/-- `event.uid`. -/
def uid : Call Uuid Fields → Uuid
  | storeOfferCreated e | storeTradeCreated e | storeTradeAccepted e | storeContractDeployed e =>
    e.uid

/-- The `required_state` the call passes to `_store`. -/
def requiredState : Call Uuid Fields → TradeState
  | storeOfferCreated _ => .nonExistent
  | storeTradeCreated _ => .offerCreated
  | storeTradeAccepted _ => .orderCreated
  | storeContractDeployed _ => .orderTaken

/-- The insert `_store` makes for the call. -/
def write (s : EventStore Uuid Fields) : Call Uuid Fields → EventStore Uuid Fields
  | storeOfferCreated e => s.insertEvent .offerCreated e.uid e
  | storeTradeCreated e => s.insertEvent .orderCreated e.uid e
  | storeTradeAccepted e => s.insertEvent .orderTaken e.uid e
  | storeContractDeployed e => s.insertEvent .contractDeployed e.uid e

/-- The call, run to its end on the store `s`: its result and the store after it. -/
def run (s : EventStore Uuid Fields) : Call Uuid Fields → Outcome Error Unit × EventStore Uuid Fields
  | storeOfferCreated e => s.storeOfferCreated e
  | storeTradeCreated e => s.storeTradeCreated e
  | storeTradeAccepted e => s.storeTradeAccepted e
  | storeContractDeployed e => s.storeContractDeployed e

/-- Every `store_*` is `_store` on its own map with its own required state. -/
theorem run_eq (s : EventStore Uuid Fields) (c : Call Uuid Fields) :
    c.run s = if s.currentState c.uid = c.requiredState then (.ok (), c.write s)
      else (.err .incorrectState, s) := by
  cases c <;> rfl

omit [DecidableEq Uuid] in
/-- **Every `store_*` requires the state "just before" its own map**: the order of the maps in
`current_state` and the required states agree. -/
theorem requiredState_eq_before (c : Call Uuid Fields) : c.requiredState = .before c.kind := by
  cases c <;> rfl

@[simp] theorem has_write (s : EventStore Uuid Fields) (c : Call Uuid Fields) (k : EventKind)
    (id : Uuid) : (c.write s).has k id = (s.has k id || (k == c.kind && id == c.uid)) := by
  cases c <;> simp [write, kind, uid]

theorem prefix_write {s : EventStore Uuid Fields} (hp : Prefix s) (c : Call Uuid Fields)
    (hbefore : ∀ j : EventKind, j.index < c.kind.index → s.has j c.uid = true) :
    Prefix (c.write s) := by
  cases c <;> exact prefix_insertEvent hp hbefore _

/-- A call keeps the prefix property. -/
theorem prefix_run {s : EventStore Uuid Fields} (hp : Prefix s) (c : Call Uuid Fields) :
    Prefix (c.run s).2 := by
  rw [run_eq, requiredState_eq_before]
  split
  · exact prefix_write hp c ((currentState_eq_before_iff s _ _).mp ‹_›).1
  · exact hp

/-- A call that returns `Err` leaves the store as it was. -/
theorem run_of_err {s : EventStore Uuid Fields} {c : Call Uuid Fields} {e : Error}
    (h : (c.run s).1 = .err e) : (c.run s).2 = s := by
  rw [run_eq] at h ⊢
  split at h
  · cases h
  · rw [if_neg ‹_›]

/-- Once the store holds an event of the call's kind for its id, the call returns `Err`. -/
theorem run_of_has {s : EventStore Uuid Fields} {c : Call Uuid Fields}
    (h : s.has c.kind c.uid = true) : c.run s = (.err .incorrectState, s) := by
  rw [run_eq, requiredState_eq_before, if_neg (currentState_ne_before h)]

/-- After a call that returns `Ok`, the store holds its event. -/
theorem has_run_of_ok {s : EventStore Uuid Fields} {c : Call Uuid Fields}
    (h : (c.run s).1 = .ok ()) : (c.run s).2.has c.kind c.uid = true := by
  rw [run_eq] at h ⊢
  split at h
  · rw [if_pos ‹_›]
    simp
  · cases h

/-- A call never removes an id from a map. -/
theorem has_run_of_has {s : EventStore Uuid Fields} {k : EventKind} {id : Uuid}
    (h : s.has k id = true) (c : Call Uuid Fields) : (c.run s).2.has k id = true := by
  rw [run_eq]
  split
  · simp [h]
  · exact h

end Call

/-! ### Calls one after another -/

namespace EventStore

variable {Uuid : Type} [DecidableEq Uuid] {Fields : EventKind → Type}

/-- Calls made one after another, each returning before the next starts: every call with its
result, and the store at the end. -/
def runAll (s : EventStore Uuid Fields) : List (Call Uuid Fields) →
    List (Call Uuid Fields × Outcome Error Unit) × EventStore Uuid Fields
  | [] => ([], s)
  | c :: cs =>
    let (r, s') := c.run s
    let (rs, s'') := runAll s' cs
    ((c, r) :: rs, s'')

theorem runAll_cons (s : EventStore Uuid Fields) (c : Call Uuid Fields) (cs : List (Call Uuid Fields)) :
    (s.runAll (c :: cs)).1 = (c, (c.run s).1) :: ((c.run s).2.runAll cs).1 := rfl

/-- The calls of kind `k` for `id` that returned `Ok`. -/
def okCount (k : EventKind) (id : Uuid) (rs : List (Call Uuid Fields × Outcome Error Unit)) : Nat :=
  (rs.filter fun p => p.1.kind == k && decide (p.1.uid = id) && p.2 == .ok ()).length

theorem okCount_cons (k : EventKind) (id : Uuid) (c : Call Uuid Fields) (r : Outcome Error Unit)
    (rs : List (Call Uuid Fields × Outcome Error Unit)) :
    okCount k id ((c, r) :: rs) =
      okCount k id rs + if c.kind = k ∧ c.uid = id ∧ r = .ok () then 1 else 0 := by
  unfold okCount
  rw [List.filter_cons]
  by_cases h : c.kind = k ∧ c.uid = id ∧ r = .ok ()
  · obtain ⟨rfl, rfl, rfl⟩ := h
    simp
  · have hb : (c.kind == k && decide (c.uid = id) && r == .ok ()) = false := by
      simpa [not_and] using h
    simp only [hb, if_neg h]
    rfl

/-- **Calls that do not overlap store each event at most once.** Over any sequence of calls, at
most one call of each kind and id returns `Ok`, and none does once the store holds that event. -/
theorem runAll_ok_count (s : EventStore Uuid Fields) (cs : List (Call Uuid Fields)) (k : EventKind)
    (id : Uuid) : okCount k id (s.runAll cs).1 ≤ if s.has k id then 0 else 1 := by
  induction cs generalizing s with
  | nil => simp [runAll, okCount]
  | cons c cs ih =>
    rw [runAll_cons, okCount_cons]
    have step := ih (c.run s).2
    by_cases hc : c.kind = k ∧ c.uid = id ∧ (c.run s).1 = .ok ()
    · obtain ⟨rfl, rfl, hok⟩ := hc
      have hnot : s.has c.kind c.uid = false := by
        cases hs : s.has c.kind c.uid
        · rfl
        · rw [Call.run_of_has hs] at hok
          cases hok
      rw [Call.has_run_of_ok hok, if_pos rfl] at step
      rw [if_pos ⟨rfl, rfl, hok⟩, hnot]
      simp only [Bool.false_eq_true, if_false]
      omega
    · rw [if_neg hc, Nat.add_zero]
      refine step.trans ?_
      cases h : s.has k id
      · simp only [Bool.false_eq_true, if_false]
        split <;> omega
      · rw [Call.has_run_of_has h]

end EventStore

end Comit.TradingService
