-- SUMMARY: The lease of the leader election: its record in the API server, and what acquire, the renewal and the release do with it.
import KrabkaOperator.Base.History
import Mathlib.Algebra.Group.Int.Defs
import Mathlib.Logic.Function.Basic

/-!
# The leader-election lease

A replica acquires the lease, renews it while it leads, and gives it back when it
stops. Each write is a create or a replace with the `resourceVersion` of a read, so
a write after a change by another replica is refused.
-/

namespace Leader

/-! ## The record -/

/-- A point in time, or an extent, in nanoseconds. -/
abbrev Time := Nat

def nanosPerSecond : Time := 1000000000

/-- Whole seconds. -/
def asSecond (t : Time) : Int := Int.ofNat (t / nanosPerSecond)

def fromSecs (seconds : Int) : Int := seconds * Int.ofNat nanosPerSecond

structure LeaseSpec where
  holderIdentity : Option String := none
  leaseDurationSeconds : Option Int := none
  acquireTime : Option Time := none
  renewTime : Option Time := none
  leaseTransitions : Option Int := none
  deriving DecidableEq, Repr

structure Lease where
  resourceVersion : Nat
  spec : Option LeaseSpec
  deriving DecidableEq, Repr

def Lease.holder (lease : Lease) : Option String := lease.spec >>= (·.holderIdentity)

def Lease.transitions (lease : Lease) : Int :=
  (lease.spec >>= (·.leaseTransitions)).getD 0

/-- The largest `i32`. -/
def maxI32 : Int := 2 ^ 31 - 1

/-- The extent as whole seconds, when they are an `i32`. -/
def leaseDurationSeconds (extent : Time) : Option Int :=
  if asSecond extent ≤ maxI32 then some (asSecond extent) else none

def heldByUs (lease : Lease) (identity : String) : Bool := lease.holder = some identity

def isVacant (lease : Lease) : Bool :=
  match lease.holder with
  | none => true
  | some holder => holder.isEmpty

/-- The extent that a holder has between two renewals. -/
def leaseDuration (spec : LeaseSpec) (fallback : Time) : Int :=
  match spec.leaseDurationSeconds with
  | some raw => fromSecs raw
  | none => Int.ofNat fallback

def isExpired (lease : Lease) (fallback now : Time) : Bool :=
  match lease.spec with
  | none => true
  | some spec =>
    match spec.renewTime with
    | none => true
    | some renew => leaseDuration spec fallback < fromSecs (asSecond now - asSecond renew)

def isClaimable (lease : Lease) (fallback now : Time) : Bool :=
  isVacant lease || isExpired lease fallback now

/-- The lease of the first holder. -/
def created (identity : String) (seconds : Int) (now : Time) : LeaseSpec where
  holderIdentity := some identity
  leaseDurationSeconds := some seconds
  acquireTime := some now
  renewTime := some now
  leaseTransitions := some 1

def saturatingSucc (n : Int) : Int := min (n + 1) maxI32

def claim (lease : Lease) (identity : String) (seconds : Int) (now : Time) : Lease :=
  let spec := lease.spec.getD {}
  { lease with
    spec := some {
      holderIdentity := some identity
      leaseDurationSeconds := some seconds
      acquireTime := some now
      renewTime := some now
      leaseTransitions :=
        if spec.holderIdentity = some identity then spec.leaseTransitions
        else some (saturatingSucc (spec.leaseTransitions.getD 0)) } }

/-- What a renewal writes back. -/
def renewed (lease : Lease) (seconds : Int) (now : Time) : Lease :=
  { lease with
    spec := some { lease.spec.getD {} with
      leaseDurationSeconds := some seconds
      renewTime := some now } }

/-- What a release writes back, unless another replica holds the lease. -/
def released (lease : Lease) (identity : String) (now : Time) : Option Lease :=
  if heldByUs lease identity then
    some { lease with
      spec := some { lease.spec.getD {} with
        holderIdentity := none
        leaseDurationSeconds := some 1
        acquireTime := some now
        renewTime := some now } }
  else none

/-! ## The API server -/

inductive Fault where
  | none
  /-- The request fails and changes nothing. -/
  | refused
  /-- The request is carried out, and the answer is lost. -/
  | lost
  deriving DecidableEq, Repr

inductive ApiError where
  /-- The code 409. -/
  | conflict
  | other
  deriving DecidableEq, Repr

structure Store where
  lease : Option Lease
  /-- The last `resourceVersion` that was given out. -/
  version : Nat
  deriving DecidableEq, Repr

def Store.put (store : Store) (spec : Option LeaseSpec) : Store where
  lease := some ⟨store.version + 1, spec⟩
  version := store.version + 1

/-- The answer to a write that the server accepts. -/
def answerWrite (fault : Fault) (before after : Store) : Except ApiError Unit × Store :=
  match fault with
  | .none => (.ok (), after)
  | .refused => (.error .other, before)
  | .lost => (.error .other, after)

def Store.create (store : Store) (spec : LeaseSpec) (fault : Fault) : Except ApiError Unit × Store :=
  match store.lease with
  | some _ => (.error .conflict, store)
  | none => answerWrite fault store (store.put (some spec))

def Store.replace (store : Store) (lease : Lease) (fault : Fault) : Except ApiError Unit × Store :=
  match store.lease with
  | none => (.error .other, store)
  | some current =>
    if current.resourceVersion = lease.resourceVersion then
      answerWrite fault store (store.put lease.spec)
    else (.error .conflict, store)

/-! ## Replicas -/

/-- Where a replica is. -/
inductive Task where
  | down
  /-- In `acquire`, before the read. -/
  | acquiring
  /-- In `acquire`, with the lease that was read. -/
  | found (lease : Option Lease)
  | creating (spec : LeaseSpec)
  | claiming (lease : Lease)
  | waiting (wake : Time)
  /-- Asleep in `renew_loop`, after the last success. -/
  | leading (lastSuccess wake : Time)
  /-- In `renew_once`, before the read. -/
  | renewing (lastSuccess : Time)
  | refreshing (lastSuccess : Time) (lease : Lease)
  | replacing (lastSuccess : Time) (lease : Lease)
  /-- `renew_loop` has ended. -/
  | ended
  /-- In `release`, which was called at the given time. -/
  | releasing (now : Time)
  | clearing (lease : Lease)
  deriving DecidableEq, Repr

/-- `acquire` has returned, `renew_loop` has not ended and `release` was not called. -/
def Task.leads : Task → Bool
  | .leading _ _ | .renewing _ | .refreshing _ _ | .replacing _ _ => true
  | _ => false

structure Config (ι : Type) where
  identity : ι → String
  leaseDuration : Time
  retryInterval : Time

structure State (ι : Type) where
  now : Time
  store : Store
  task : ι → Task

inductive Event (ι : Type) where
  | tick (extent : Time)
  | start (i : ι)
  /-- The process ends, wherever it is. -/
  | crash (i : ι)
  | release (i : ι)
  /-- The next call, or the next look at the clock. -/
  | step (i : ι) (fault : Fault)
  deriving DecidableEq, Repr

section Steps

variable {ι : Type} (cfg : Config ι)

/-- The duration that is written to the lease. `acquire` fails without one. -/
def Config.seconds : Int := (Leader.leaseDurationSeconds cfg.leaseDuration).getD 0

/-- `acquire` returns, and `renew_loop` starts. -/
def Config.acquired (now : Time) : Task := .leading now (now + cfg.retryInterval)

/-- What `acquire` does with the lease that it has read. -/
def Config.decide (i : ι) (now : Time) : Option Lease → Task
  | none => .creating (created (cfg.identity i) cfg.seconds now)
  | some existing =>
    if heldByUs existing (cfg.identity i) then cfg.acquired now
    else if isClaimable existing cfg.leaseDuration now then
      .claiming (claim existing (cfg.identity i) cfg.seconds now)
    else .waiting (now + cfg.retryInterval)

/-- A renewal that may succeed later: it is lost after the deadline. -/
def Config.retry (lastSuccess now : Time) : Task :=
  if cfg.leaseDuration ≤ now - lastSuccess then .ended
  else .leading lastSuccess (now + cfg.retryInterval)

/-- The read of a call. -/
def answerRead (fault : Fault) (store : Store) : Except ApiError (Option Lease) :=
  match fault with
  | .none => .ok store.lease
  | _ => .error .other

/-- One step of a replica. -/
def Config.advance (i : ι) (fault : Fault) (now : Time) (store : Store) : Task → Task × Store
  | .down => (.down, store)
  | .acquiring =>
    match answerRead fault store with
    | .ok lease => (.found lease, store)
    | .error _ => (.down, store)
  | .found lease => (cfg.decide i now lease, store)
  | .creating spec =>
    match store.create spec fault with
    | (.ok _, store') => (cfg.acquired now, store')
    | (.error .conflict, store') => (.acquiring, store')
    | (.error .other, store') => (.down, store')
  | .claiming lease =>
    match store.replace lease fault with
    | (.ok _, store') => (cfg.acquired now, store')
    | (.error _, store') => (.waiting (now + cfg.retryInterval), store')
  | .waiting wake => (if wake ≤ now then .acquiring else .waiting wake, store)
  | .leading lastSuccess wake =>
    (if wake ≤ now then .renewing lastSuccess else .leading lastSuccess wake, store)
  | .renewing lastSuccess =>
    match answerRead fault store with
    | .ok (some lease) => (.refreshing lastSuccess lease, store)
    | .ok none => (.ended, store)
    | .error _ => (cfg.retry lastSuccess now, store)
  | .refreshing lastSuccess lease =>
    if heldByUs lease (cfg.identity i) then
      (.replacing lastSuccess (renewed lease cfg.seconds now), store)
    else (.ended, store)
  | .replacing lastSuccess lease =>
    match store.replace lease fault with
    | (.ok _, store') => (cfg.acquired now, store')
    | (.error _, store') => (cfg.retry lastSuccess now, store')
  | .ended => (.ended, store)
  | .releasing called =>
    match answerRead fault store with
    | .ok (some lease) =>
      match released lease (cfg.identity i) called with
      | some lease' => (.clearing lease', store)
      | none => (.down, store)
    | .ok none => (.down, store)
    | .error _ => (.down, store)
  | .clearing lease => (.down, (store.replace lease fault).2)

variable [DecidableEq ι]

def State.withTask (s : State ι) (i : ι) (task : Task) : State ι :=
  { s with task := Function.update s.task i task }

def step : Event ι → State ι → State ι
  | .tick extent, s => { s with now := s.now + extent }
  | .start i, s =>
    match s.task i with
    | .down =>
      if (Leader.leaseDurationSeconds cfg.leaseDuration).isSome then s.withTask i .acquiring else s
    | _ => s
  | .crash i, s => s.withTask i .down
  | .release i, s =>
    if (s.task i).leads || s.task i = .ended then s.withTask i (.releasing s.now) else s
  | .step i fault, s =>
    let (task, store) := cfg.advance i fault s.now s.store (s.task i)
    { s with store, task := Function.update s.task i task }

def exec (e : Event ι) (s : State ι) : List (State ι) := [step cfg e s]

theorem finish_exec {e : Event ι} {s : State ι} :
    History.finish (exec cfg) e s = step cfg e s := rfl

end Steps

end Leader
