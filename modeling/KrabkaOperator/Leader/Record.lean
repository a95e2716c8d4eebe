-- SUMMARY: What the steps of the replicas do to the holder and to the transition count of the lease.
import KrabkaOperator.Leader.Lease

/-!
# The lease record

A replica decides on the lease that it has read. Its write is accepted only while
that lease is still the stored one, so the decision is about the stored lease.
-/

namespace Leader

/-! ## Expiry -/

def holderOf (lease : Option Lease) : Option String := lease >>= Lease.holder

def transitionsOf (lease : Option Lease) : Int := (lease.map Lease.transitions).getD 0

/-- The lease has a holder, whose last renewal is longer ago than the duration of the
    lease. -/
def Lapsed (lease : Option Lease) (now : Time) : Prop :=
  ∃ cur spec raw renew, lease = some cur ∧ cur.spec = some spec ∧
    spec.leaseDurationSeconds = some raw ∧ spec.renewTime = some renew ∧
    fromSecs raw < Int.ofNat now - Int.ofNat renew

/-- A lease with a holder tells when it was renewed, and for how long. -/
def Lease.Timed (lease : Lease) : Prop :=
  isVacant lease = false → ∃ spec raw renew, lease.spec = some spec ∧
    spec.leaseDurationSeconds = some raw ∧ spec.renewTime = some renew

/-- Whole seconds that passed between two points in time are over in less than one more. -/
theorem lt_of_fromSecs_lt {raw : Int} {now renew : Time}
    (h : fromSecs raw < fromSecs (asSecond now - asSecond renew)) :
    fromSecs raw < Int.ofNat now - Int.ofNat renew := by
  have hnow := Nat.div_add_mod now nanosPerSecond
  have hrenew := Nat.div_add_mod renew nanosPerSecond
  have hmod : renew % nanosPerSecond < nanosPerSecond := Nat.mod_lt _ (by decide)
  simp only [fromSecs, asSecond, nanosPerSecond, Int.ofNat_eq_natCast] at *
  omega

/-- A lease that a replica takes from its holder has lapsed. -/
theorem lapsed_of_isExpired {lease : Lease} {fallback now : Time} (htimed : lease.Timed)
    (hvacant : isVacant lease = false) (h : isExpired lease fallback now = true) :
    Lapsed (some lease) now := by
  obtain ⟨spec, raw, renew, hspec, hraw, hrenew⟩ := htimed hvacant
  simp only [isExpired, hspec, hrenew, leaseDuration, hraw, decide_eq_true_eq] at h
  exact ⟨lease, spec, raw, renew, rfl, hspec, hraw, hrenew, lt_of_fromSecs_lt h⟩

theorem isExpired_mono {lease : Lease} {fallback now now' : Time} (hle : now ≤ now')
    (h : isExpired lease fallback now = true) : isExpired lease fallback now' = true := by
  unfold isExpired at h ⊢
  cases hspec : lease.spec with
  | none => rfl
  | some spec =>
    cases hrenew : spec.renewTime with
    | none => simp only [hrenew]
    | some renew =>
      have hsec : asSecond now ≤ asSecond now' := Int.ofNat_le.mpr (Nat.div_le_div_right hle)
      simp only [hspec, hrenew, decide_eq_true_eq] at h ⊢
      refine Int.lt_of_lt_of_le h ?_
      exact Int.mul_le_mul_of_nonneg_right (Int.sub_le_sub_right hsec _) (Int.natCast_nonneg _)

/-! ## What is in flight -/

/-- A lease that was read: as long as its version is the stored one, it is the stored lease. -/
def Store.Read (store : Store) (lease : Lease) : Prop :=
  lease.resourceVersion ≤ store.version ∧
    ∀ cur, store.lease = some cur → cur.resourceVersion = lease.resourceVersion → cur = lease

def Store.Ok (store : Store) : Prop :=
  ∀ cur, store.lease = some cur → cur.resourceVersion ≤ store.version ∧ cur.Timed

theorem Store.Ok.read {store : Store} (h : store.Ok) {lease : Lease}
    (hlease : store.lease = some lease) : store.Read lease := by
  refine ⟨(h lease hlease).1, fun cur hcur _ => ?_⟩
  rw [hlease, Option.some_inj] at hcur
  exact hcur.symm

theorem Store.Read.put {store : Store} {lease : Lease} (h : store.Read lease)
    (spec : Option LeaseSpec) : (store.put spec).Read lease := by
  refine ⟨Nat.le_succ_of_le h.1, fun cur hcur hversion => ?_⟩
  cases hcur
  have hle := h.1
  simp only at hversion
  omega

variable {ι : Type} {cfg : Config ι}

/-- What a replica has in hand comes from a lease that it has read. -/
def Task.Ok (cfg : Config ι) (i : ι) (now : Time) (store : Store) : Task → Prop
  | .found (some lease) => store.Read lease
  | .creating spec => ∃ t, spec = created (cfg.identity i) cfg.seconds t
  | .claiming lease => ∃ old t, t ≤ now ∧ store.Read old ∧
      heldByUs old (cfg.identity i) = false ∧ isClaimable old cfg.leaseDuration t = true ∧
      lease = claim old (cfg.identity i) cfg.seconds t
  | .refreshing _ lease => store.Read lease
  | .replacing _ lease => ∃ old t, store.Read old ∧ heldByUs old (cfg.identity i) = true ∧
      lease = renewed old cfg.seconds t
  | .clearing lease => ∃ old t, store.Read old ∧
      released old (cfg.identity i) t = some lease
  | _ => True

section Task

variable {i : ι} {now now' : Time} {store : Store} {task : Task}

theorem Task.Ok.later (h : task.Ok cfg i now store) (hle : now ≤ now') :
    task.Ok cfg i now' store := by
  cases task with
  | claiming lease =>
    obtain ⟨old, t, ht, hrest⟩ := h
    exact ⟨old, t, ht.trans hle, hrest⟩
  | found lease =>
    cases lease with
    | none => trivial
    | some lease => exact h
  | _ => exact h

theorem Task.Ok.put (h : task.Ok cfg i now store) (spec : Option LeaseSpec) :
    task.Ok cfg i now (store.put spec) := by
  cases task with
  | found lease =>
    cases lease with
    | none => trivial
    | some lease => exact Store.Read.put h spec
  | claiming lease =>
    obtain ⟨old, t, ht, hread, hrest⟩ := h
    exact ⟨old, t, ht, hread.put spec, hrest⟩
  | refreshing last lease => exact Store.Read.put h spec
  | replacing last lease =>
    obtain ⟨old, t, hread, hrest⟩ := h
    exact ⟨old, t, hread.put spec, hrest⟩
  | clearing lease =>
    obtain ⟨old, t, hread, hrest⟩ := h
    exact ⟨old, t, hread.put spec, hrest⟩
  | _ => exact h

/-- A write that the server accepts. -/
inductive Writes (store : Store) : Task → Option LeaseSpec → Prop
  | create {spec : LeaseSpec} (h : store.lease = none) : Writes store (.creating spec) (some spec)
  | claim {lease cur : Lease} (h : store.lease = some cur)
      (hversion : cur.resourceVersion = lease.resourceVersion) :
      Writes store (.claiming lease) lease.spec
  | renew {last : Time} {lease cur : Lease} (h : store.lease = some cur)
      (hversion : cur.resourceVersion = lease.resourceVersion) :
      Writes store (.replacing last lease) lease.spec
  | clear {lease cur : Lease} (h : store.lease = some cur)
      (hversion : cur.resourceVersion = lease.resourceVersion) :
      Writes store (.clearing lease) lease.spec

theorem answerWrite_cases (fault : Fault) (before after : Store) :
    (answerWrite fault before after).2 = before ∨ (answerWrite fault before after).2 = after := by
  cases fault
  · exact .inr rfl
  · exact .inl rfl
  · exact .inr rfl

theorem create_cases (store : Store) (spec : LeaseSpec) (fault : Fault) :
    (store.create spec fault).2 = store ∨
      (store.lease = none ∧ (store.create spec fault).2 = store.put (some spec)) := by
  unfold Store.create
  cases hlease : store.lease with
  | none =>
    rcases answerWrite_cases fault store (store.put (some spec)) with h | h
    · exact .inl h
    · exact .inr ⟨rfl, h⟩
  | some cur => exact .inl rfl

theorem replace_cases (store : Store) (lease : Lease) (fault : Fault) :
    (store.replace lease fault).2 = store ∨
      ∃ cur, store.lease = some cur ∧ cur.resourceVersion = lease.resourceVersion ∧
        (store.replace lease fault).2 = store.put lease.spec := by
  unfold Store.replace
  cases hlease : store.lease with
  | none => exact .inl rfl
  | some cur =>
    dsimp only
    by_cases hversion : cur.resourceVersion = lease.resourceVersion
    · rw [if_pos hversion]
      rcases answerWrite_cases fault store (store.put lease.spec) with h | h
      · exact .inl h
      · exact .inr ⟨cur, rfl, hversion, h⟩
    · rw [if_neg hversion]
      exact .inl rfl

variable (cfg) in
/-- A step leaves the store or writes to it. -/
theorem advance_store (i : ι) (fault : Fault) (now : Time) (store : Store) (task : Task) :
    (cfg.advance i fault now store task).2 = store ∨ ∃ spec, Writes store task spec ∧
      (cfg.advance i fault now store task).2 = store.put spec := by
  cases task with
  | creating spec =>
    have hcases := create_cases store spec fault
    simp only [Config.advance]
    split <;> next heq =>
      rw [heq] at hcases
      rcases hcases with h | ⟨hnone, h⟩
      · exact .inl h
      · exact .inr ⟨_, .create hnone, h⟩
  | claiming lease =>
    have hcases := replace_cases store lease fault
    simp only [Config.advance]
    split <;> next heq =>
      rw [heq] at hcases
      rcases hcases with h | ⟨cur, hcur, hversion, h⟩
      · exact .inl h
      · exact .inr ⟨_, .claim hcur hversion, h⟩
  | replacing last lease =>
    have hcases := replace_cases store lease fault
    simp only [Config.advance]
    split <;> next heq =>
      rw [heq] at hcases
      rcases hcases with h | ⟨cur, hcur, hversion, h⟩
      · exact .inl h
      · exact .inr ⟨_, .renew hcur hversion, h⟩
  | clearing lease =>
    rcases replace_cases store lease fault with h | ⟨cur, hcur, hversion, h⟩
    · exact .inl h
    · exact .inr ⟨_, .clear hcur hversion, h⟩
  | acquiring => left; simp only [Config.advance]; split <;> rfl
  | renewing last => left; simp only [Config.advance]; split <;> rfl
  | refreshing last lease => left; simp only [Config.advance]; split <;> rfl
  | releasing called =>
    left
    simp only [Config.advance]
    split
    · split <;> rfl
    · rfl
    · rfl
  | _ => exact .inl rfl

/-- What a replica does next, it does with what it has read. -/
theorem advance_ok (hstore : store.Ok) (h : task.Ok cfg i now store) (fault : Fault) :
    (cfg.advance i fault now store task).1.Ok cfg i now
      (cfg.advance i fault now store task).2 := by
  have hretry : ∀ last store', (cfg.retry last now).Ok cfg i now store' := by
    intro last store'
    unfold Config.retry
    split <;> trivial
  cases task with
  | acquiring =>
    cases fault with
    | none =>
      cases hlease : store.lease with
      | none =>
        simp only [Config.advance, answerRead, hlease]
        trivial
      | some lease =>
        simp only [Config.advance, answerRead, hlease]
        exact hstore.read hlease
    | refused => trivial
    | lost => trivial
  | found lease =>
    cases lease with
    | none => exact ⟨now, rfl⟩
    | some lease =>
      simp only [Config.advance, Config.decide]
      split
      · trivial
      · next hheld =>
        split
        · next hclaim =>
          exact ⟨lease, now, Nat.le_refl now, h, by simpa using hheld, hclaim, rfl⟩
        · trivial
  | creating spec =>
    simp only [Config.advance]
    split <;> trivial
  | claiming lease =>
    simp only [Config.advance]
    split <;> trivial
  | waiting wake =>
    simp only [Config.advance]
    split <;> trivial
  | leading last wake =>
    simp only [Config.advance]
    split <;> trivial
  | renewing last =>
    cases fault with
    | none =>
      cases hlease : store.lease with
      | none =>
        simp only [Config.advance, answerRead, hlease]
        trivial
      | some lease =>
        simp only [Config.advance, answerRead, hlease]
        exact hstore.read hlease
    | refused => exact hretry _ _
    | lost => exact hretry _ _
  | refreshing last lease =>
    simp only [Config.advance]
    split
    · next hheld => exact ⟨lease, now, h, hheld, rfl⟩
    · trivial
  | replacing last lease =>
    simp only [Config.advance]
    split
    · trivial
    · exact hretry _ _
  | releasing called =>
    cases fault with
    | none =>
      cases hlease : store.lease with
      | none =>
        simp only [Config.advance, answerRead, hlease]
        trivial
      | some lease =>
        simp only [Config.advance, answerRead, hlease]
        split
        · next lease' hreleased => exact ⟨lease, called, hstore.read hlease, hreleased⟩
        · trivial
    | refused => trivial
    | lost => trivial
  | down => trivial
  | ended => trivial
  | clearing lease => trivial

end Task

/-! ## Claims, renewals and releases -/

section Writes

variable {i : ι} {now : Time} {store : Store} {task : Task} {spec : Option LeaseSpec}

theorem holder_eq_of_heldByUs {lease : Lease} {identity : String} :
    heldByUs lease identity = true ↔ lease.holder = some identity := by
  simp [heldByUs]

theorem holder_renewed {lease : Lease} {seconds : Int} :
    (renewed lease seconds now).holder = lease.holder := by
  cases hspec : lease.spec <;> simp [Lease.holder, renewed, hspec]

theorem transitions_renewed {lease : Lease} {seconds : Int} :
    (renewed lease seconds now).transitions = lease.transitions := by
  cases hspec : lease.spec <;> simp [Lease.transitions, renewed, hspec]

theorem transitions_claim {lease : Lease} {identity : String} {seconds : Int}
    (h : heldByUs lease identity = false) :
    (claim lease identity seconds now).transitions = saturatingSucc lease.transitions := by
  cases hspec : lease.spec with
  | none => simp [Lease.transitions, claim, hspec]
  | some spec =>
    have hne : spec.holderIdentity ≠ some identity := by
      simpa [heldByUs, Lease.holder, hspec] using h
    simp [Lease.transitions, claim, hspec, hne]

theorem released_eq_some {lease lease' : Lease} {identity : String}
    (h : released lease identity now = some lease') :
    lease.holder = some identity ∧ lease'.holder = none ∧
      lease'.transitions = lease.transitions ∧
      lease'.resourceVersion = lease.resourceVersion := by
  unfold released at h
  split at h
  · next hheld =>
    cases h
    refine ⟨holder_eq_of_heldByUs.mp hheld, rfl, ?_, rfl⟩
    cases hspec : lease.spec <;> simp [Lease.transitions, hspec]
  · cases h

/-- The stored lease after an accepted write. -/
def Store.written (store : Store) (spec : Option LeaseSpec) : Lease := ⟨store.version + 1, spec⟩

/-- A replica that is about to take the lease. -/
def Task.claims : Task → Bool
  | .creating _ | .claiming _ => true
  | _ => false

/-- The holder and the transition count before and after an accepted write of a replica. -/
inductive RecordWrite (cfg : Config ι) (i : ι) (now : Time) (before : Option Lease) (after : Lease) :
    Task → Prop
  | claim {task : Task} (htask : task.claims = true)
      (hvacant : holderOf before = none ∨ holderOf before = some "" ∨ Lapsed before now)
      (hother : holderOf before ≠ some (cfg.identity i))
      (hholder : after.holder = some (cfg.identity i))
      (hcount : after.transitions = saturatingSucc (transitionsOf before)) :
      RecordWrite cfg i now before after task
  | renew {last : Time} {lease : Lease} (hours : holderOf before = some (cfg.identity i))
      (hholder : after.holder = some (cfg.identity i))
      (hcount : after.transitions = transitionsOf before) :
      RecordWrite cfg i now before after (.replacing last lease)
  | release {lease : Lease} (hours : holderOf before = some (cfg.identity i))
      (hholder : after.holder = none) (hcount : after.transitions = transitionsOf before) :
      RecordWrite cfg i now before after (.clearing lease)

theorem isVacant_iff {lease : Lease} :
    isVacant lease = true ↔ lease.holder = none ∨ lease.holder = some "" := by
  unfold isVacant
  cases hholder : lease.holder <;> simp

theorem Writes.record (h : Writes store task spec) (hstore : store.Ok)
    (htask : task.Ok cfg i now store) :
    RecordWrite cfg i now store.lease (store.written spec) task ∧ (store.written spec).Timed := by
  cases h with
  | create hnone =>
    obtain ⟨t, rfl⟩ := htask
    refine ⟨.claim rfl (.inl ?_) ?_ rfl ?_, fun _ => ⟨_, _, _, rfl, rfl, rfl⟩⟩
    · simp [holderOf, hnone]
    · simp [holderOf, hnone]
    · rw [hnone]
      exact (by decide : (1 : Int) = saturatingSucc (transitionsOf none))
  | claim hcur hversion =>
    obtain ⟨old, t, ht, hread, hheld, hclaim, rfl⟩ := htask
    obtain rfl := hread.2 _ hcur hversion
    rw [hcur]
    refine ⟨.claim rfl ?_ ?_ rfl (transitions_claim hheld), fun _ => ⟨_, _, _, rfl, rfl, rfl⟩⟩
    · cases hvacant : isVacant _ with
      | true =>
        rcases isVacant_iff.mp hvacant with h | h
        · exact .inl h
        · exact .inr (.inl h)
      | false =>
        have hexpired := hclaim
        rw [isClaimable, hvacant, Bool.false_or] at hexpired
        exact .inr (.inr (lapsed_of_isExpired (hstore _ hcur).2 hvacant
          (isExpired_mono ht hexpired)))
    · simpa [heldByUs, holderOf] using hheld
  | renew hcur hversion =>
    obtain ⟨old, t, hread, hheld, rfl⟩ := htask
    obtain rfl := hread.2 _ hcur hversion
    rw [hcur]
    have hours := holder_eq_of_heldByUs.mp hheld
    exact ⟨.renew hours (holder_renewed.trans hours) transitions_renewed,
      fun _ => ⟨_, _, _, rfl, rfl, rfl⟩⟩
  | clear hcur hversion =>
    obtain ⟨old, t, hread, hreleased⟩ := htask
    obtain ⟨hours, hholder, hcount, hold⟩ := released_eq_some hreleased
    obtain rfl := hread.2 _ hcur (hversion.trans hold)
    rw [hcur]
    refine ⟨.release hours hholder hcount, fun hvacant => ?_⟩
    rw [isVacant_iff.mpr (.inl (show (store.written _).holder = none from hholder))] at hvacant
    cases hvacant

end Writes

/-! ## Runs -/

structure Inv (cfg : Config ι) (s : State ι) : Prop where
  store : s.store.Ok
  task : ∀ i, (s.task i).Ok cfg i s.now s.store

/-- No replica runs, and the lease, if there is one, tells when it was renewed. -/
structure Fresh (s : State ι) : Prop where
  down : ∀ i, s.task i = .down
  store : s.store.Ok

theorem Fresh.inv {s : State ι} (h : Fresh s) : Inv cfg s :=
  ⟨h.store, fun i => by rw [h.down i]; trivial⟩

/-- What a step does to the record of the lease. -/
inductive RecordStep (cfg : Config ι) (s s' : State ι) : Event ι → Prop
  | same {e : Event ι} (h : s'.store.lease = s.store.lease) : RecordStep cfg s s' e
  | write {i : ι} {fault : Fault} {after : Lease} (h : s'.store.lease = some after)
      (hrecord : RecordWrite cfg i s.now s.store.lease after (s.task i)) :
      RecordStep cfg s s' (.step i fault)

section Runs

variable [DecidableEq ι] {s : State ι}

theorem Inv.withTask {i : ι} {task : Task} (h : Inv cfg s) (ht : task.Ok cfg i s.now s.store) :
    Inv cfg (s.withTask i task) := by
  refine ⟨h.store, fun j => ?_⟩
  by_cases hj : j = i
  · subst hj
    simpa [State.withTask] using ht
  · simpa [State.withTask, Function.update_of_ne hj] using h.task j

theorem Store.Ok.put {store : Store} {spec : Option LeaseSpec} (h : (store.written spec).Timed) :
    (store.put spec).Ok := by
  intro cur hcur
  cases hcur
  exact ⟨Nat.le_refl _, h⟩

theorem Inv.step (h : Inv cfg s) (e : Event ι) :
    RecordStep cfg s (step cfg e s) e ∧ Inv cfg (Leader.step cfg e s) := by
  cases e with
  | tick extent =>
    exact ⟨.same rfl, h.store, fun i => (h.task i).later (Nat.le_add_right _ _)⟩
  | start i =>
    simp only [Leader.step]
    split
    · split
      · exact ⟨.same rfl, h.withTask trivial⟩
      · exact ⟨.same rfl, h⟩
    · exact ⟨.same rfl, h⟩
  | crash i => exact ⟨.same rfl, h.withTask trivial⟩
  | release i =>
    simp only [Leader.step]
    split
    · exact ⟨.same rfl, h.withTask trivial⟩
    · exact ⟨.same rfl, h⟩
  | step i fault =>
    have hnext := advance_ok h.store (h.task i) fault
    have hinv : ∀ store', store' = (cfg.advance i fault s.now s.store (s.task i)).2 →
        store'.Ok → (∀ j, j ≠ i → (s.task j).Ok cfg j s.now store') →
        Inv cfg (Leader.step cfg (.step i fault) s) := by
      intro store' hstore' hok hothers
      subst hstore'
      refine ⟨hok, fun j => ?_⟩
      by_cases hj : j = i
      · subst hj
        simpa [Leader.step] using hnext
      · simpa [Leader.step, Function.update_of_ne hj] using hothers j hj
    rcases advance_store cfg i fault s.now s.store (s.task i) with
      heq | ⟨spec, hwrites, heq⟩
    · exact ⟨.same (congrArg Store.lease heq), hinv _ heq.symm h.store fun j _ => h.task j⟩
    · obtain ⟨hrecord, htimed⟩ := hwrites.record h.store (h.task i)
      exact ⟨.write (congrArg Store.lease heq) hrecord,
        hinv _ heq.symm (.put htimed) fun j _ => (h.task j).put spec⟩

/-- In every run from a state in which no replica runs, the lease changes its holder only by
    a claim of a free or lapsed lease and by the release of its holder, and claims alone count
    its transitions. -/
theorem lease_record_safe (cfg : Config ι) (hs : Fresh s) (events : List (Event ι)) :
    History.Along (exec cfg) (fun e s => RecordStep cfg s (step cfg e s) e) events s :=
  (History.along_of_forall (fun _ _ => trivial) events s).of_invariant hs.inv
    fun e _ _ h => h.step e

end Runs

/-! ## Two replicas -/

namespace Sample

/-- Two replicas with the default intervals. -/
def config : Config Bool where
  identity := fun i => if i then "operator-1" else "operator-0"
  leaseDuration := 15 * nanosPerSecond
  retryInterval := 2 * nanosPerSecond

/-- There is no lease, and no replica runs. -/
def start : State Bool where
  now := 0
  store := ⟨none, 0⟩
  task := fun _ => .down

theorem start_fresh : Fresh start := ⟨fun _ => rfl, fun _ h => nomatch h⟩

/-- A replica starts and acquires the lease with three calls. -/
def acquires (i : Bool) : List (Event Bool) :=
  [.start i, .step i .none, .step i .none, .step i .none]

/-- A replica gives the lease back. -/
def releases (i : Bool) : List (Event Bool) := [.release i, .step i .none, .step i .none]

end Sample

theorem lease_record_safe_handover :
    History.Along (exec Sample.config)
      (fun e s => RecordStep Sample.config s (step Sample.config e s) e)
      (Sample.acquires false ++ Sample.releases false ++ Sample.acquires true) Sample.start :=
  lease_record_safe Sample.config Sample.start_fresh _

end Leader
