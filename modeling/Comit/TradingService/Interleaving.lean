import Comit.TradingService.EventStore

/-!
`EventStore` under concurrent calls. Every map sits behind its own `RwLock`, so a `store_*` call
is not one atomic step: `current_state` takes the read lock of each map in turn (one `_get` a
step, stopping at the first map without the id), and `_store` then takes the write lock of its
own map to insert. Another call can run between any two of these steps.

`Sys` is the store with the calls in progress. `Sys.next` lets a new call start or one call
take its next step, and `Reachable` is every state that some interleaving of any calls, with
any ids and events, reaches from `EventStore::new()`.

* `Thread.runAlone_start` — a call whose steps all run before any other call's computes what
  the sequential model of `Comit.TradingService.EventStore` computes.
* `reachable_inv` — in every reachable state the maps holding each id form a prefix, and every
  call about to insert has seen its id in every map before its own (maps only grow, so what it
  saw still holds).
* `reachable_prefix_property` — so `get_contract_deployed(u) = Ok` implies the three other `get_*` are
  `Ok`; and the store changes only at the insert step of a call, which returns `Ok`.
* `storeOfferCreated_race` — two `store_offer_created` calls for one id can both pass the check
  before either inserts: both return `Ok`, and the second event replaces the first.
-/

namespace Comit.TradingService

open EventStore

/-- Where a call of `_store` is: inside `current_state`, about to `_get` the map of `k`; about
to take the write lock and insert, the state having matched; or returned. -/
inductive Pc
  | reading (k : EventKind)
  | writing
  | returned (r : Outcome Error Unit)
  deriving DecidableEq, Repr

/-- `_store` compares the state `current_state` found with the required one. -/
def Pc.compare (requiredState state : TradeState) : Pc :=
  if state = requiredState then .writing else .returned (.err .incorrectState)

/-- A call in progress. -/
structure Thread (Uuid : Type) (Fields : EventKind → Type) where
  call : Call Uuid Fields
  pc : Pc

namespace Thread

variable {Uuid : Type} [DecidableEq Uuid] {Fields : EventKind → Type}

/-- A call as it starts: about to read `offer_created`. -/
def start (c : Call Uuid Fields) : Thread Uuid Fields := ⟨c, .reading .offerCreated⟩

/-- The next locked step of a call, on the store as it is at that moment; `none` once the call
has returned. -/
def step (t : Thread Uuid Fields) (s : EventStore Uuid Fields) :
    Option (Thread Uuid Fields × EventStore Uuid Fields) :=
  match t.pc with
  | .reading k =>
    if (s.get k t.call.uid).isNone then
      some (⟨t.call, .compare t.call.requiredState (.before k)⟩, s)
    else
      match k.next? with
      | some k' => some (⟨t.call, .reading k'⟩, s)
      | none => some (⟨t.call, .compare t.call.requiredState .contractDeployed⟩, s)
  | .writing => some (⟨t.call, .returned (.ok ())⟩, t.call.write s)
  | .returned _ => none

/-- A call taking up to `n` steps with no other call in between. -/
def runAlone : Nat → Thread Uuid Fields → EventStore Uuid Fields →
    Thread Uuid Fields × EventStore Uuid Fields
  | 0, t, s => (t, s)
  | n + 1, t, s =>
    match t.step s with
    | none => (t, s)
    | some (t', s') => runAlone n t' s'

theorem runAlone_reading_none {n : Nat} {c : Call Uuid Fields} {k : EventKind}
    {s : EventStore Uuid Fields} (h : (s.get k c.uid).isNone = true) :
    runAlone (n + 1) ⟨c, .reading k⟩ s = runAlone n ⟨c, .compare c.requiredState (.before k)⟩ s := by
  simp only [runAlone, step, h, if_true]

theorem runAlone_reading_some {n : Nat} {c : Call Uuid Fields} {k k' : EventKind}
    {s : EventStore Uuid Fields} (h : (s.get k c.uid).isNone = false) (hk : k.next? = some k') :
    runAlone (n + 1) ⟨c, .reading k⟩ s = runAlone n ⟨c, .reading k'⟩ s := by
  simp only [runAlone, step, h, hk, Bool.false_eq_true, if_false]

theorem runAlone_reading_last {n : Nat} {c : Call Uuid Fields} {s : EventStore Uuid Fields}
    (h : (s.get .contractDeployed c.uid).isNone = false) :
    runAlone (n + 1) ⟨c, .reading .contractDeployed⟩ s =
      runAlone n ⟨c, .compare c.requiredState .contractDeployed⟩ s := by
  simp only [runAlone, step, h, EventKind.next?, Bool.false_eq_true, if_false]

/-- Once `current_state` has its answer, the call inserts or not, and returns. -/
theorem runAlone_compare (n : Nat) (c : Call Uuid Fields) (s : EventStore Uuid Fields)
    (state : TradeState) :
    runAlone (n + 1) ⟨c, .compare c.requiredState state⟩ s =
      (⟨c, .returned (if state = c.requiredState then (Outcome.ok (), c.write s)
          else (Outcome.err Error.incorrectState, s)).1⟩,
        (if state = c.requiredState then (Outcome.ok (), c.write s)
          else (Outcome.err Error.incorrectState, s)).2) := by
  unfold Pc.compare
  split <;> cases n <;> simp [runAlone, step]

/-- **A call run alone is the sequential call.** Its steps, with no other call's in between,
return what `Call.run` returns and leave the store `Call.run` leaves. -/
theorem runAlone_start (c : Call Uuid Fields) (s : EventStore Uuid Fields) :
    runAlone 5 (start c) s = (⟨c, .returned (c.run s).1⟩, (c.run s).2) := by
  rw [Call.run_eq]
  unfold currentState start
  cases h0 : (s.get .offerCreated c.uid).isNone
  · rw [runAlone_reading_some (n := 4) h0 rfl]
    cases h1 : (s.get .orderCreated c.uid).isNone
    · rw [runAlone_reading_some (n := 3) h1 rfl]
      cases h2 : (s.get .orderTaken c.uid).isNone
      · rw [runAlone_reading_some (n := 2) h2 rfl]
        cases h3 : (s.get .contractDeployed c.uid).isNone
        · rw [runAlone_reading_last (n := 1) h3, runAlone_compare]
          simp only [Bool.false_eq_true, if_false]
        · rw [runAlone_reading_none (n := 1) h3, runAlone_compare]
          simp only [Bool.false_eq_true, if_false, if_true]
          rfl
      · rw [runAlone_reading_none (n := 2) h2, runAlone_compare]
        simp only [Bool.false_eq_true, if_false, if_true]
        rfl
    · rw [runAlone_reading_none (n := 3) h1, runAlone_compare]
      simp only [Bool.false_eq_true, if_false, if_true]
      rfl
  · rw [runAlone_reading_none (n := 4) h0, runAlone_compare]
    simp only [if_true]
    rfl

/-- What a step can do: it keeps the call, and it changes the store only as the insert of a
call about to write, which then returns `Ok`. -/
theorem step_cases {t t' : Thread Uuid Fields} {s s' : EventStore Uuid Fields}
    (h : t.step s = some (t', s')) :
    t'.call = t.call ∧
      (s' = s ∨ t.pc = .writing ∧ t'.pc = .returned (.ok ()) ∧ s' = t.call.write s) := by
  unfold step at h
  split at h
  · split at h
    · cases h
      exact ⟨rfl, .inl rfl⟩
    · split at h <;> cases h <;> exact ⟨rfl, .inl rfl⟩
  · cases h
    exact ⟨rfl, .inr ⟨‹_›, rfl, rfl⟩⟩
  · cases h

/-- What a call has seen: every map it has read so far held its id; once it is about to
insert, that is every map before its own. -/
def Seen (s : EventStore Uuid Fields) (t : Thread Uuid Fields) : Prop :=
  match t.pc with
  | .reading k => ∀ j : EventKind, j.index < k.index → s.has j t.call.uid = true
  | .writing => ∀ j : EventKind, j.index < t.call.kind.index → s.has j t.call.uid = true
  | .returned _ => True

omit [DecidableEq Uuid] in
/-- What a call has seen stays true while the maps only grow. -/
theorem Seen.mono {s s' : EventStore Uuid Fields} {t : Thread Uuid Fields}
    (hmono : ∀ k id, s.has k id = true → s'.has k id = true) (h : t.Seen s) : t.Seen s' := by
  obtain ⟨c, pc⟩ := t
  cases pc with
  | reading k => exact fun j hj => hmono _ _ (h j hj)
  | writing => exact fun j hj => hmono _ _ (h j hj)
  | returned r => trivial

omit [DecidableEq Uuid] in
theorem seen_start (c : Call Uuid Fields) (s : EventStore Uuid Fields) : (start c).Seen s :=
  fun _ hj => absurd hj (Nat.not_lt_zero _)

omit [DecidableEq Uuid] in
/-- `_store` only goes on to insert when the first map without the id is its own. -/
theorem compare_seen {s : EventStore Uuid Fields} {c : Call Uuid Fields} {k : EventKind}
    (h : ∀ j : EventKind, j.index < k.index → s.has j c.uid = true) :
    Seen s ⟨c, .compare c.requiredState (.before k)⟩ := by
  unfold Pc.compare
  split
  · rename_i hk
    rw [Call.requiredState_eq_before] at hk
    show ∀ j : EventKind, j.index < c.kind.index → s.has j c.uid = true
    rw [← TradeState.before_inj hk]
    exact h
  · trivial

/-- A step keeps what the stepping call has seen. -/
theorem step_seen {t t' : Thread Uuid Fields} {s s' : EventStore Uuid Fields} (ht : t.Seen s)
    (h : t.step s = some (t', s')) : t'.Seen s' := by
  unfold step at h
  unfold Seen at ht
  split at h
  · rename_i k hk
    rw [hk] at ht
    split at h
    · cases h
      exact compare_seen ht
    · rename_i hfound
      have hk' : s.has k t.call.uid = true := by
        unfold has
        cases hg : s.get k t.call.uid <;> simp_all
      split at h
      · rename_i k' hnext
        cases h
        intro j hj
        rw [EventKind.index_next? hnext] at hj
        rcases Nat.lt_succ_iff_lt_or_eq.mp hj with hj | hj
        · exact ht j hj
        · rw [EventKind.index_inj hj]
          exact hk'
      · cases h
        show Seen s ⟨t.call, _⟩
        unfold Pc.compare
        rw [if_neg (by rw [Call.requiredState_eq_before]; exact (TradeState.before_ne_contractDeployed _).symm)]
        trivial
  · cases h
    trivial
  · cases h

end Thread

/-- The store and the calls in progress. -/
structure Sys (Uuid : Type) (Fields : EventKind → Type) where
  store : EventStore Uuid Fields
  threads : List (Thread Uuid Fields)

/-- What can happen next: a `store_*` call starts, or the call at index `i` takes its next
step. -/
inductive Action (Uuid : Type) (Fields : EventKind → Type)
  | call (c : Call Uuid Fields)
  | step (i : Nat)

namespace Sys

variable {Uuid : Type} [DecidableEq Uuid] {Fields : EventKind → Type}

/-- `EventStore::new()`, no call in progress. -/
def init : Sys Uuid Fields := ⟨EventStore.new, []⟩

def next (s : Sys Uuid Fields) : Action Uuid Fields → Option (Sys Uuid Fields)
  | .call c => some ⟨s.store, s.threads ++ [Thread.start c]⟩
  | .step i =>
    match s.threads[i]? with
    | none => none
    | some t => (t.step s.store).map fun p => ⟨p.2, s.threads.set i p.1⟩

/-- The actions of a list, in order. -/
def run (s : Sys Uuid Fields) : List (Action Uuid Fields) → Option (Sys Uuid Fields)
  | [] => some s
  | a :: as => (s.next a).bind fun s' => s'.run as

/-- The store changes only at the insert step of a call, which returns `Ok` at that step. -/
theorem next_store {s s' : Sys Uuid Fields} {a : Action Uuid Fields} (h : s.next a = some s') :
    s'.store = s.store ∨ ∃ i t, a = .step i ∧ s.threads[i]? = some t ∧ t.pc = .writing ∧
      (s'.threads[i]?).map Thread.pc = some (.returned (.ok ())) ∧ s'.store = t.call.write s.store := by
  cases a with
  | call c =>
    cases h
    exact .inl rfl
  | step i =>
    simp only [next] at h
    split at h
    · cases h
    · rename_i t ht
      obtain ⟨⟨t', st⟩, hstep, rfl⟩ := Option.map_eq_some'.mp h
      obtain ⟨-, hs | ⟨hw, hr, rfl⟩⟩ := Thread.step_cases hstep
      · exact .inl hs
      · have hi : i < s.threads.length := (List.getElem?_eq_some_iff.mp ht).1
        refine .inr ⟨i, t, rfl, ht, hw, ?_, rfl⟩
        simp [List.getElem?_set_self hi, hr]

end Sys

/-- The states some interleaving of calls reaches from `EventStore::new()`. -/
inductive Reachable {Uuid : Type} [DecidableEq Uuid] {Fields : EventKind → Type} :
    Sys Uuid Fields → Prop
  | init : Reachable Sys.init
  | next {s s' : Sys Uuid Fields} {a : Action Uuid Fields} :
      Reachable s → s.next a = some s' → Reachable s'

/-- The invariant: the prefix property, and what every call in progress has seen. -/
structure Inv {Uuid : Type} {Fields : EventKind → Type} (s : Sys Uuid Fields) : Prop where
  maps : Prefix s.store
  seen : ∀ t ∈ s.threads, t.Seen s.store

section Invariant

variable {Uuid : Type} [DecidableEq Uuid] {Fields : EventKind → Type}

omit [DecidableEq Uuid] in
theorem inv_init : Inv (Sys.init : Sys Uuid Fields) :=
  ⟨prefix_new, fun _ h => nomatch h⟩

omit [DecidableEq Uuid] in
theorem inv_call {s : Sys Uuid Fields} (hs : Inv s) (c : Call Uuid Fields) :
    Inv ⟨s.store, s.threads ++ [Thread.start c]⟩ := by
  refine ⟨hs.maps, fun t ht => ?_⟩
  rcases List.mem_append.mp ht with ht | ht
  · exact hs.seen t ht
  · rw [List.mem_singleton.mp ht]
    exact Thread.seen_start c _

/-- One call's step keeps the invariant: the prefix because an insert comes only after the call
has seen its id in every map before its own, and what the other calls have seen because maps
only grow. -/
theorem inv_step {s : Sys Uuid Fields} (hs : Inv s) {i : Nat} {t t' : Thread Uuid Fields}
    {st : EventStore Uuid Fields} (ht : s.threads[i]? = some t) (h : t.step s.store = some (t', st)) :
    Inv ⟨st, s.threads.set i t'⟩ := by
  have tseen := hs.seen t (List.mem_iff_getElem?.mpr ⟨i, ht⟩)
  obtain ⟨-, hst⟩ := Thread.step_cases h
  have hmono : ∀ k id, s.store.has k id = true → st.has k id = true := by
    rcases hst with rfl | ⟨-, -, rfl⟩
    · exact fun _ _ h => h
    · intro k id h
      simp [h]
  refine ⟨?_, fun u hu => ?_⟩
  · rcases hst with rfl | ⟨hw, -, rfl⟩
    · exact hs.maps
    · unfold Thread.Seen at tseen
      rw [hw] at tseen
      exact Call.prefix_write hs.maps t.call tseen
  · rcases List.mem_or_eq_of_mem_set hu with hu | rfl
    · exact (hs.seen u hu).mono hmono
    · exact Thread.step_seen tseen h

theorem inv_next {s s' : Sys Uuid Fields} {a : Action Uuid Fields} (hs : Inv s)
    (h : s.next a = some s') : Inv s' := by
  cases a with
  | call c =>
    cases h
    exact inv_call hs c
  | step i =>
    simp only [Sys.next] at h
    split at h
    · cases h
    · rename_i t ht
      obtain ⟨⟨t', st⟩, hstep, rfl⟩ := Option.map_eq_some'.mp h
      exact inv_step hs ht hstep

/-- **The invariant holds in every state any interleaving reaches.** -/
theorem reachable_inv {s : Sys Uuid Fields} (h : Reachable s) : Inv s := by
  induction h with
  | init => exact inv_init
  | next _ hn ih => exact inv_next ih hn

theorem reachable_run {s s' : Sys Uuid Fields} {as : List (Action Uuid Fields)} (hs : Reachable s)
    (h : s.run as = some s') : Reachable s' := by
  induction as generalizing s with
  | nil =>
    cases h
    exact hs
  | cons a as ih =>
    simp only [Sys.run] at h
    obtain ⟨s₁, hn, hr⟩ := Option.bind_eq_some.mp h
    exact ih (hs.next hn) hr

/-- **Under any interleaving, the maps holding an id form a prefix.** In every reachable state,
a uid is in `order_created` only if it is in `offer_created`, in `order_taken` only if it is in
`order_created`, and in `contract_deployed` only if it is in `order_taken`; so
`get_contract_deployed(u) = Ok` implies the other three `get_*` return `Ok`. A step changes the
store only when a call about to insert takes its write lock, and that call returns `Ok` at that
step: a call that returns `Err(IncorrectState)` has inserted nothing. -/
theorem reachable_prefix_property {s : Sys Uuid Fields} (h : Reachable s) :
    (∀ id, (s.store.has .orderCreated id = true → s.store.has .offerCreated id = true) ∧
      (s.store.has .orderTaken id = true → s.store.has .orderCreated id = true) ∧
      (s.store.has .contractDeployed id = true → s.store.has .orderTaken id = true)) ∧
    (∀ a s', s.next a = some s' → s'.store ≠ s.store →
      ∃ i t, a = .step i ∧ s.threads[i]? = some t ∧ t.pc = .writing ∧
        (s'.threads[i]?).map Thread.pc = some (.returned (.ok ()))) ∧
    ∀ id, (∃ e, s.store.getContractDeployed id = .ok e) →
      (∃ e, s.store.getOrderTaken id = .ok e) ∧ (∃ e, s.store.getOrderCreated id = .ok e) ∧
        (∃ e, s.store.getOfferCreated id = .ok e) := by
  have hp := (reachable_inv h).maps
  refine ⟨fun id => ⟨hp id _ _ (by decide), hp id _ _ (by decide), hp id _ _ (by decide)⟩,
    fun a s' hn hne => ?_, fun id hd => ?_⟩
  · rcases Sys.next_store hn with heq | ⟨i, t, ha, ht, hw, hr, -⟩
    · exact absurd heq hne
    · exact ⟨i, t, ha, ht, hw, hr⟩
  · simp only [getContractDeployed, getOrderTaken, getOrderCreated, getOfferCreated,
      getEvent_isOk_iff] at hd ⊢
    exact ⟨hp id _ _ (by decide) hd, hp id _ _ (by decide) hd, hp id _ _ (by decide) hd⟩

/-- The four calls of one trade, each run to its end: `get_contract_deployed(0)` is `Ok`, and
so is `get_offer_created(0)`. -/
theorem reachable_prefix_fullTrade :
    ∃ s : Sys Nat (fun _ => Nat), Reachable s ∧ (∃ e, s.store.getContractDeployed 0 = .ok e) ∧
      ∃ e, s.store.getOfferCreated 0 = .ok e := by
  let trade : List (Action Nat fun _ => Nat) :=
    [.call (.storeOfferCreated ⟨0, 0⟩), .step 0, .step 0,
      .call (.storeTradeCreated ⟨0, 0⟩), .step 1, .step 1, .step 1,
      .call (.storeTradeAccepted ⟨0, 0⟩), .step 2, .step 2, .step 2, .step 2,
      .call (.storeContractDeployed ⟨0, 0⟩), .step 3, .step 3, .step 3, .step 3, .step 3]
  have hhas : (Sys.init.run trade).map (fun s => s.store.has .contractDeployed 0) = some true := by
    decide
  cases hrun : Sys.init.run trade with
  | none =>
    rw [hrun] at hhas
    cases hhas
  | some s =>
    rw [hrun, Option.map_some'] at hhas
    have hs := reachable_run .init hrun
    have hd : ∃ e, s.store.getContractDeployed 0 = .ok e :=
      (getEvent_isOk_iff _ _ _).mpr (Option.some.inj hhas)
    exact ⟨s, hs, hd, ((reachable_prefix_property hs).2.2 0 hd).2.2⟩

end Invariant

/-! ### The check-then-insert race -/

/-- Two `store_offer_created` calls for id `0`, with events `1` and `2`: both read
`offer_created` before either inserts, then both insert. -/
def raceTrace : List (Action Nat fun _ => Nat) :=
  [.call (.storeOfferCreated ⟨0, 1⟩), .call (.storeOfferCreated ⟨0, 2⟩),
    .step 0, .step 1, .step 0, .step 1]

/-- **Two calls storing one event can both succeed.** Both `store_offer_created` calls for id
`0` return `Ok`, and `get_offer_created(0)` returns the second event: the first, whose call
returned `Ok`, has been overwritten. -/
theorem storeOfferCreated_race :
    ∃ s : Sys Nat (fun _ => Nat), Reachable s ∧
      s.threads = [⟨.storeOfferCreated ⟨0, 1⟩, .returned (.ok ())⟩,
        ⟨.storeOfferCreated ⟨0, 2⟩, .returned (.ok ())⟩] ∧
      s.store.getOfferCreated 0 = .ok ⟨0, 2⟩ := by
  have hthreads : (Sys.init.run raceTrace).map Sys.threads =
      some [⟨.storeOfferCreated ⟨0, 1⟩, .returned (.ok ())⟩,
        ⟨.storeOfferCreated ⟨0, 2⟩, .returned (.ok ())⟩] := rfl
  have hget : (Sys.init.run raceTrace).map (fun s => s.store.getOfferCreated 0) =
      some (.ok ⟨0, 2⟩) := rfl
  cases hrun : Sys.init.run raceTrace with
  | none =>
    rw [hrun] at hthreads
    cases hthreads
  | some s =>
    rw [hrun, Option.map_some'] at hthreads hget
    exact ⟨s, reachable_run .init hrun, Option.some.inj hthreads, Option.some.inj hget⟩

end Comit.TradingService
