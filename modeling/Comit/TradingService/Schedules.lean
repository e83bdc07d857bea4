import Comit.TradingService.Interleaving

/-!
What the concurrent `EventStore` of `Comit.TradingService.Interleaving` computes, beyond the
prefix property.

* `Sys.run_has` — along any run of the system the maps only grow.
* `reachable_okStored`, `returned_ok_getEvent` — under any interleaving, once a `store_*` call
  has returned `Ok`, the map of its kind holds its id in that state and every later one, so the
  matching `get_*` returns `Ok`. The event it returns need not be that call's: an overlapping
  call of the same kind may have replaced it (`storeOfferCreated_race`).
* `Sys.serial_eq_runAll`, `serial_refines_runAll` — when every call runs all its locked steps
  before the next call starts, the calls return exactly what `runAll` returns and leave exactly
  its store, and such a run is one of the system's. So the sequential model
  `Comit.TradingService.EventStore` is what the concurrent store computes on non-overlapping
  calls; only overlapping calls can diverge from it.
-/

namespace Comit.TradingService

open EventStore

namespace Thread

variable {Uuid : Type} [DecidableEq Uuid] {Fields : EventKind → Type}

omit [DecidableEq Uuid] in
theorem compare_ne_ok (requiredState state : TradeState) :
    Pc.compare requiredState state ≠ .returned (.ok ()) := by
  unfold Pc.compare
  split <;> simp

/-- A call returns `Ok` only at the step that inserts its event. -/
theorem step_returned_ok {t t' : Thread Uuid Fields} {s s' : EventStore Uuid Fields}
    (h : t.step s = some (t', s')) (hok : t'.pc = .returned (.ok ())) :
    t.pc = .writing ∧ s' = t.call.write s := by
  unfold step at h
  split at h
  · split at h
    · cases h
      exact absurd hok (compare_ne_ok _ _)
    · split at h <;> cases h
      · cases hok
      · exact absurd hok (compare_ne_ok _ _)
  · cases h
    exact ⟨‹_›, rfl⟩
  · cases h

end Thread

namespace Sys

variable {Uuid : Type} [DecidableEq Uuid] {Fields : EventKind → Type}

/-- A step never removes an id from a map. -/
theorem next_has {s s' : Sys Uuid Fields} {a : Action Uuid Fields} (h : s.next a = some s')
    {k : EventKind} {id : Uuid} (hk : s.store.has k id = true) : s'.store.has k id = true := by
  rcases next_store h with heq | ⟨_, _, -, -, -, -, heq⟩ <;> rw [heq]
  · exact hk
  · simp [hk]

/-- **The maps only grow**, along any run. -/
theorem run_has {s s' : Sys Uuid Fields} {as : List (Action Uuid Fields)} (h : s.run as = some s')
    {k : EventKind} {id : Uuid} (hk : s.store.has k id = true) : s'.store.has k id = true := by
  induction as generalizing s with
  | nil =>
    cases h
    exact hk
  | cons a as ih =>
    obtain ⟨s₁, hn, hr⟩ := Option.bind_eq_some.mp h
    exact ih hr (next_has hn hk)

/-- Every call that has returned `Ok` finds the map of its kind holding its id. -/
def OkStored (s : Sys Uuid Fields) : Prop :=
  ∀ t ∈ s.threads, t.pc = .returned (.ok ()) → s.store.has t.call.kind t.call.uid = true

theorem okStored_next {s s' : Sys Uuid Fields} {a : Action Uuid Fields} (hs : s.OkStored)
    (h : s.next a = some s') : s'.OkStored := by
  cases a with
  | call c =>
    cases h
    intro t ht hok
    rcases List.mem_append.mp ht with ht | ht
    · exact hs t ht hok
    · rw [List.mem_singleton.mp ht] at hok
      cases hok
  | step i =>
    simp only [next] at h
    split at h
    · cases h
    · rename_i t ht
      obtain ⟨⟨t', st⟩, hstep, rfl⟩ := Option.map_eq_some'.mp h
      obtain ⟨hcall, -⟩ := Thread.step_cases hstep
      intro u hu hok
      rcases List.mem_or_eq_of_mem_set hu with hu | rfl
      · exact next_has (a := .step i) (by simp [next, ht, hstep]) (hs u hu hok)
      · obtain ⟨-, rfl⟩ := Thread.step_returned_ok hstep hok
        simp [hcall]

end Sys

section Reachable

variable {Uuid : Type} [DecidableEq Uuid] {Fields : EventKind → Type}

theorem reachable_okStored {s : Sys Uuid Fields} (h : Reachable s) : s.OkStored := by
  induction h with
  | init => exact fun _ h => nomatch h
  | next _ hn ih => exact Sys.okStored_next ih hn

/-- **An `Ok` is never lost to the map.** Under any interleaving, once a `store_*` call has
returned `Ok`, the `get_*` of its kind for its id returns `Ok` in that state and in every state
reached from it. -/
theorem returned_ok_getEvent {s s' : Sys Uuid Fields} {t : Thread Uuid Fields}
    {as : List (Action Uuid Fields)} (hs : Reachable s) (ht : t ∈ s.threads)
    (hok : t.pc = .returned (.ok ())) (hrun : s.run as = some s') :
    ∃ e, s'.store.getEvent t.call.kind t.call.uid = .ok e :=
  (getEvent_isOk_iff _ _ _).mpr (Sys.run_has hrun (reachable_okStored hs t ht hok))

end Reachable

/-- After the race the first `store_offer_created` call for id `0` has returned `Ok`. A third
call for id `0` then runs to its end and returns `Err(IncorrectState)`, and
`get_offer_created(0)` still returns `Ok`. -/
theorem raceTrace_getOfferCreated :
    ∃ s s' : Sys Nat (fun _ => Nat), Sys.init.run raceTrace = some s ∧
      s.run [.call (.storeOfferCreated ⟨0, 3⟩), .step 2, .step 2] = some s' ∧
      s'.threads.getLast? = some ⟨.storeOfferCreated ⟨0, 3⟩, .returned (.err .incorrectState)⟩ ∧
      ∃ e, s'.store.getEvent .offerCreated 0 = .ok e :=
  ⟨_, _, rfl, rfl, rfl, returned_ok_getEvent (t := ⟨.storeOfferCreated ⟨0, 1⟩, .returned (.ok ())⟩)
    (reachable_run .init (show Sys.init.run raceTrace = _ from rfl)) (List.mem_cons_self _ _) rfl
    (show Sys.run _ [.call (.storeOfferCreated ⟨0, 3⟩), .step 2, .step 2] = _ from rfl)⟩

/-! ### Calls that do not overlap -/

namespace Sys

variable {Uuid : Type} [DecidableEq Uuid] {Fields : EventKind → Type}

/-- A call started with no call in progress, run through all its locked steps. -/
def callAlone (s : Sys Uuid Fields) (c : Call Uuid Fields) : Sys Uuid Fields :=
  ⟨(Thread.runAlone 5 (Thread.start c) s.store).2,
    s.threads ++ [(Thread.runAlone 5 (Thread.start c) s.store).1]⟩

/-- Calls one after another, each run to its end before the next starts. -/
def serial (s : Sys Uuid Fields) (cs : List (Call Uuid Fields)) : Sys Uuid Fields :=
  cs.foldl callAlone s

theorem set_of_getElem? {α : Type} {l : List α} {i : Nat} {a : α} (h : l[i]? = some a) :
    l.set i a = l :=
  List.ext_getElem? fun j => by
    rw [List.getElem?_set]
    split
    · subst_vars
      rw [if_pos (List.getElem?_eq_some_iff.mp h).1, h]
    · rfl

/-- The steps of one call with no other step in between are a run of the system. -/
theorem exists_run_runAlone (n : Nat) {s : Sys Uuid Fields} {i : Nat} {t : Thread Uuid Fields}
    (ht : s.threads[i]? = some t) :
    ∃ as, s.run as = some ⟨(Thread.runAlone n t s.store).2,
      s.threads.set i (Thread.runAlone n t s.store).1⟩ := by
  induction n generalizing s t with
  | zero => exact ⟨[], by rw [Thread.runAlone, set_of_getElem? ht]; rfl⟩
  | succ n ih =>
    cases hstep : t.step s.store with
    | none => exact ⟨[], by rw [Thread.runAlone, hstep, set_of_getElem? ht]; rfl⟩
    | some p =>
      obtain ⟨t₁, s₁⟩ := p
      have hi : i < s.threads.length := (List.getElem?_eq_some_iff.mp ht).1
      have hnext : s.next (.step i) = some ⟨s₁, s.threads.set i t₁⟩ := by
        simp [next, ht, hstep]
      obtain ⟨as, has⟩ := ih (s := ⟨s₁, s.threads.set i t₁⟩) (List.getElem?_set_self hi)
      refine ⟨.step i :: as, ?_⟩
      rw [run, hnext, Option.some_bind, has, List.set_set, Thread.runAlone, hstep]

/-- Running a call alone is a run of the system. -/
theorem exists_run_callAlone (s : Sys Uuid Fields) (c : Call Uuid Fields) :
    ∃ as, s.run as = some (s.callAlone c) := by
  have ht : (s.threads ++ [Thread.start c])[s.threads.length]? = some (Thread.start c) := by simp
  obtain ⟨as, has⟩ := exists_run_runAlone 5 (s := ⟨s.store, s.threads ++ [Thread.start c]⟩) ht
  refine ⟨.call c :: as, ?_⟩
  rw [run, show s.next (.call c) = some ⟨s.store, s.threads ++ [Thread.start c]⟩ from rfl,
    Option.some_bind, has]
  simp [callAlone]

/-- A call run alone returns what `Call.run` returns and leaves its store. -/
theorem callAlone_eq (st : EventStore Uuid Fields) (ts : List (Thread Uuid Fields))
    (c : Call Uuid Fields) :
    callAlone ⟨st, ts⟩ c = ⟨(c.run st).2, ts ++ [⟨c, .returned (c.run st).1⟩]⟩ := by
  simp only [callAlone, Thread.runAlone_start]

/-- **Non-overlapping calls compute `runAll`.** Calls run one after another through their
locked steps return, in order, what `runAll` returns, and leave the store `runAll` leaves. -/
theorem serial_eq_runAll (st : EventStore Uuid Fields) (ts : List (Thread Uuid Fields))
    (cs : List (Call Uuid Fields)) :
    serial ⟨st, ts⟩ cs =
      ⟨(st.runAll cs).2, ts ++ (st.runAll cs).1.map fun p => ⟨p.1, .returned p.2⟩⟩ := by
  induction cs generalizing st ts with
  | nil => simp [serial, runAll]
  | cons c cs ih =>
    rw [serial, List.foldl_cons, ← serial, callAlone_eq, ih]
    simp [runAll]

theorem reachable_serial {s : Sys Uuid Fields} (hs : Reachable s) (cs : List (Call Uuid Fields)) :
    Reachable (serial s cs) := by
  induction cs generalizing s with
  | nil => exact hs
  | cons c cs ih =>
    obtain ⟨as, has⟩ := exists_run_callAlone s c
    exact ih (reachable_run hs has)

end Sys

/-- **The sequential model is what non-overlapping calls compute.** For every list of `store_*`
calls, starting from `EventStore::new()`, running each call through all its locked steps before
the next starts is a run of the concurrent store, and it ends with every call returned with the
result `runAll` gives it and with the store `runAll` leaves. -/
theorem serial_refines_runAll {Uuid : Type} [DecidableEq Uuid] {Fields : EventKind → Type}
    (cs : List (Call Uuid Fields)) :
    Reachable (Sys.init.serial cs) ∧
      Sys.init.serial cs = ⟨(new.runAll cs).2, (new.runAll cs).1.map fun p => ⟨p.1, .returned p.2⟩⟩ :=
  ⟨Sys.reachable_serial .init cs, Sys.serial_eq_runAll new [] cs⟩

end Comit.TradingService
