-- SUMMARY: At most one replica leads, as long as each lease that a replica leads by expires only after the replica has given up.
import KrabkaOperator.Leader.Record

/-!
# Mutual exclusion

A replica whose renewals fail gives up at the first retry after the lease duration.
The others may take the lease once its whole seconds have passed. The one comes
before the other only if the retries fall right.
-/

namespace Leader

section Definitions

variable {ι : Type} (cfg : Config ι)

/-- When a replica that was last successful at `t` has given up. -/
def Config.deadline (t : Time) : Time :=
  t + (cfg.leaseDuration + cfg.retryInterval - 1) / cfg.retryInterval * cfg.retryInterval

/-- A lease that a replica may lead by from now on: others see its holder, and it expires
    only after the replica would have given up. -/
def Outlasts (i : ι) (now : Time) (lease : Lease) : Prop :=
  cfg.identity i ≠ "" ∧ isExpired lease cfg.leaseDuration (cfg.deadline now) = false

instance (i : ι) (now : Time) (lease : Lease) : Decidable (Outlasts cfg i now lease) :=
  inferInstanceAs (Decidable (_ ∧ _))

/-- Whenever a replica re-confirms or writes the lease, the lease outlasts the replica. -/
def LeadsInTime : Event ι → State ι → Prop
  | .step i _, s =>
    match s.task i with
    | .found (some lease) => heldByUs lease (cfg.identity i) = true → Outlasts cfg i s.now lease
    | .creating spec => Outlasts cfg i s.now (s.store.written (some spec))
    | .claiming lease => Outlasts cfg i s.now lease
    | .replacing _ lease => Outlasts cfg i s.now lease
    | _ => True
  | _, _ => True

/-- A replica that sleeps until `t` at least, or does not run. -/
def Task.rests (t : Time) : Task → Bool
  | .down | .ended => true
  | .waiting wake => t ≤ wake
  | .leading _ wake => t ≤ wake
  | _ => false

/-- API calls take no time, and replicas wake in time. -/
def Timely : Event ι → State ι → Prop
  | .tick extent, s => ∀ i, (s.task i).rests (s.now + extent) = true
  | _, _ => True

end Definitions

/-- When the retries divide a whole number of seconds, a lease that is renewed now outlasts
    its replica. -/
theorem outlasts_of_dvd {ι : Type} {cfg : Config ι} {i : ι} {now : Time} {lease : Lease}
    {spec : LeaseSpec} (hne : cfg.identity i ≠ "") (hretry : 0 < cfg.retryInterval)
    (hdvd : cfg.retryInterval ∣ cfg.leaseDuration) (hwhole : nanosPerSecond ∣ cfg.leaseDuration)
    (hspec : lease.spec = some spec) (hrenew : spec.renewTime = some now)
    (hduration : spec.leaseDurationSeconds = some (asSecond cfg.leaseDuration)) :
    Outlasts cfg i now lease := by
  have hdeadline : cfg.deadline now = now + cfg.leaseDuration := by
    obtain ⟨n, hn⟩ := hdvd
    have hceil : (cfg.leaseDuration + cfg.retryInterval - 1) / cfg.retryInterval = n := by
      rw [hn, Nat.add_sub_assoc hretry, Nat.mul_add_div hretry]
      rw [Nat.div_eq_of_lt (Nat.sub_lt hretry Nat.one_pos), Nat.add_zero]
    rw [Config.deadline, hceil, hn, Nat.mul_comm]
  have hseconds : asSecond (now + cfg.leaseDuration) - asSecond now =
      asSecond cfg.leaseDuration := by
    obtain ⟨n, hn⟩ := hwhole
    simp only [asSecond, hn, nanosPerSecond, Int.ofNat_eq_natCast]
    omega
  refine ⟨hne, ?_⟩
  simp only [isExpired, hspec, hrenew, leaseDuration, hduration, hdeadline, hseconds]
  exact decide_eq_false (Int.lt_irrefl _)

/-! ## The invariant -/

section Invariant

variable {ι : Type} {cfg : Config ι} {i j : ι} {now : Time} {store : Store}

theorem le_deadline (t : Time) (hretry : 0 < cfg.retryInterval) {k : Nat}
    (hk : k * cfg.retryInterval < cfg.leaseDuration) :
    t + (k + 1) * cfg.retryInterval ≤ cfg.deadline t := by
  unfold Config.deadline
  refine Nat.add_le_add_left (Nat.mul_le_mul_right _ ?_) t
  rw [Nat.le_div_iff_mul_le hretry, Nat.succ_mul]
  omega

/-- A replica that others cannot take the lease from. -/
def Guards (cfg : Config ι) (i : ι) (t : Time) (store : Store) : Prop :=
  cfg.identity i ≠ "" ∧ ∃ cur, store.lease = some cur ∧ cur.holder = some (cfg.identity i) ∧
    isExpired cur cfg.leaseDuration t = false

theorem Guards.earlier {t t' : Time} (h : Guards cfg i t store) (hle : t' ≤ t) :
    Guards cfg i t' store := by
  obtain ⟨hne, cur, hcur, hholder, hexpired⟩ := h
  refine ⟨hne, cur, hcur, hholder, ?_⟩
  cases hearlier : isExpired cur cfg.leaseDuration t' with
  | false => rfl
  | true =>
    rw [isExpired_mono hle hearlier] at hexpired
    cases hexpired

/-- No other replica writes a guarded lease. -/
theorem Guards.not_writes (h : Guards cfg i now store) (hid : Function.Injective cfg.identity)
    (hj : j ≠ i) {task : Task} (htask : task.Ok cfg j now store) {spec : Option LeaseSpec} :
    ¬ Writes store task spec := by
  obtain ⟨hne, cur, hcur, hholder, hexpired⟩ := h
  intro hwrites
  cases hwrites with
  | create hnone =>
    rw [hnone] at hcur
    cases hcur
  | claim hstored hversion =>
    obtain ⟨old, t, ht, hread, -, hclaim, rfl⟩ := htask
    obtain rfl := hread.2 _ hstored hversion
    obtain rfl : cur = _ := Option.some.inj (hcur.symm.trans hstored)
    rcases Bool.or_eq_true_iff.mp hclaim with hvacant | hlapsed
    · rcases isVacant_iff.mp hvacant with hnone | hempty
      · rw [hnone] at hholder
        cases hholder
      · exact hne (Option.some.inj (hholder.symm.trans hempty))
    · rw [isExpired_mono ht hlapsed] at hexpired
      cases hexpired
  | renew hstored hversion =>
    obtain ⟨old, t, hread, hheld, rfl⟩ := htask
    obtain rfl := hread.2 _ hstored hversion
    obtain rfl : cur = _ := Option.some.inj (hcur.symm.trans hstored)
    have hours := holder_eq_of_heldByUs.mp hheld
    exact hj (hid (Option.some.inj (hours.symm.trans hholder)))
  | clear hstored hversion =>
    obtain ⟨old, t, hread, hreleased⟩ := htask
    obtain ⟨hours, -, -, hold⟩ := released_eq_some hreleased
    obtain rfl := hread.2 _ hstored (hversion.trans hold)
    obtain rfl : cur = _ := Option.some.inj (hcur.symm.trans hstored)
    exact hj (hid (Option.some.inj (hours.symm.trans hholder)))

/-- A leader guards the lease until it has given up, and retries in time. -/
def Task.Keeps (cfg : Config ι) (i : ι) (now : Time) (store : Store) : Task → Prop
  | .found (some lease) => heldByUs lease (cfg.identity i) = true → cfg.identity i ≠ "" →
      isExpired lease cfg.leaseDuration now = false → store.lease = some lease
  | .leading last wake => Guards cfg i (cfg.deadline last) store ∧ now ≤ wake ∧
      ∃ k, wake = last + (k + 1) * cfg.retryInterval ∧ k * cfg.retryInterval < cfg.leaseDuration
  | .renewing last | .refreshing last _ | .replacing last _ =>
      Guards cfg i (cfg.deadline last) store ∧
      ∃ k, now = last + (k + 1) * cfg.retryInterval ∧ k * cfg.retryInterval < cfg.leaseDuration
  | _ => True

/-- Whoever leads guards the lease now. -/
theorem Task.Keeps.guards {task : Task} (h : task.Keeps cfg i now store)
    (hretry : 0 < cfg.retryInterval) (hleads : task.leads = true) : Guards cfg i now store := by
  have hcall : ∀ last, (Guards cfg i (cfg.deadline last) store ∧
      ∃ k, now = last + (k + 1) * cfg.retryInterval ∧
        k * cfg.retryInterval < cfg.leaseDuration) → Guards cfg i now store := by
    rintro last ⟨hguards, k, hnow, hk⟩
    exact hguards.earlier (hnow ▸ le_deadline last hretry hk)
  cases task with
  | leading last wake =>
    obtain ⟨hguards, hnow, k, hwake, hk⟩ := h
    exact hguards.earlier (hnow.trans (hwake ▸ le_deadline last hretry hk))
  | renewing last => exact hcall last h
  | refreshing last lease => exact hcall last h
  | replacing last lease => exact hcall last h
  | _ => cases hleads

/-- The write of another replica cannot reach what a replica relies on. -/
theorem Task.Keeps.put {task : Task} (h : task.Keeps cfg i now store)
    (hretry : 0 < cfg.retryInterval) (hid : Function.Injective cfg.identity) (hj : j ≠ i)
    {taskJ : Task} (htaskJ : taskJ.Ok cfg j now store) {spec : Option LeaseSpec}
    (hwrites : Writes store taskJ spec) : task.Keeps cfg i now (store.put spec) := by
  by_cases hleads : task.leads = true
  · exact absurd hwrites ((h.guards hretry hleads).not_writes hid hj htaskJ)
  · cases task with
    | found lease =>
      cases lease with
      | none => trivial
      | some lease =>
        intro hheld hne hexpired
        have hguards : Guards cfg i now store :=
          ⟨hne, lease, h hheld hne hexpired, holder_eq_of_heldByUs.mp hheld, hexpired⟩
        exact absurd hwrites (hguards.not_writes hid hj htaskJ)
    | leading last wake => exact absurd rfl hleads
    | renewing last => exact absurd rfl hleads
    | refreshing last lease => exact absurd rfl hleads
    | replacing last lease => exact absurd rfl hleads
    | _ => trivial

theorem Task.Keeps.tick {task : Task} {extent : Time} (h : task.Keeps cfg i now store)
    (hrests : task.rests (now + extent) = true) : task.Keeps cfg i (now + extent) store := by
  cases task with
  | leading last wake =>
    obtain ⟨hguards, -, hwake⟩ := h
    exact ⟨hguards, by simpa [Task.rests] using hrests, hwake⟩
  | found lease => cases hrests
  | renewing last => cases hrests
  | refreshing last lease => cases hrests
  | replacing last lease => cases hrests
  | _ => trivial

end Invariant

/-! ## Steps -/

section Steps

variable {ι : Type} {cfg : Config ι} {i : ι} {now : Time} {store : Store} {fault : Fault}

theorem create_ok {spec : LeaseSpec} {store' : Store}
    (h : store.create spec fault = (.ok (), store')) : store' = store.put (some spec) := by
  unfold Store.create at h
  split at h
  · cases h
  · cases fault <;> cases h
    rfl

theorem replace_ok {lease : Lease} {store' : Store}
    (h : store.replace lease fault = (.ok (), store')) : store' = store.put lease.spec := by
  unfold Store.replace at h
  split at h
  · cases h
  · split at h
    · cases fault <;> cases h
      rfl
    · cases h

/-- The lease as it is stored expires like the one that was written. -/
theorem Outlasts.guards {lease : Lease} (h : Outlasts cfg i now lease)
    (hholder : lease.holder = some (cfg.identity i)) :
    Guards cfg i (cfg.deadline now) (store.put lease.spec) :=
  ⟨h.1, _, rfl, hholder, h.2⟩

theorem acquired_keeps (hinterval : cfg.retryInterval < cfg.leaseDuration)
    (h : Guards cfg i (cfg.deadline now) store) : (cfg.acquired now).Keeps cfg i now store := by
  refine ⟨h, Nat.le_add_right _ _, 0, ?_, ?_⟩
  · rw [Nat.zero_add, Nat.one_mul]
  · rw [Nat.zero_mul]
    exact Nat.zero_lt_of_lt hinterval

theorem retry_keeps {last : Time} (h : Guards cfg i (cfg.deadline last) store) {k : Nat}
    (hnow : now = last + (k + 1) * cfg.retryInterval) :
    (cfg.retry last now).Keeps cfg i now store := by
  unfold Config.retry
  split
  · trivial
  · next hbefore =>
    refine ⟨h, Nat.le_add_right _ _, k + 1, ?_, ?_⟩
    · rw [hnow, Nat.succ_mul (k + 1), Nat.add_assoc]
    · rw [hnow, Nat.add_sub_cancel_left] at hbefore
      exact Nat.lt_of_not_le hbefore

theorem deadline_mono {t t' : Time} (h : t ≤ t') : cfg.deadline t ≤ cfg.deadline t' :=
  Nat.add_le_add_right h _

variable {s : State ι}

/-- A replica that steps keeps what it leads by, or starts to lead by a lease that outlasts
    it. -/
theorem advance_keeps (hinterval : cfg.retryInterval < cfg.leaseDuration)
    (hkeeps : (s.task i).Keeps cfg i s.now s.store) (hok : (s.task i).Ok cfg i s.now s.store)
    (hlead : LeadsInTime cfg (.step i fault) s) :
    (cfg.advance i fault s.now s.store (s.task i)).1.Keeps cfg i s.now
      (cfg.advance i fault s.now s.store (s.task i)).2 := by
  unfold LeadsInTime at hlead
  cases htask : s.task i with
  | acquiring =>
    cases fault with
    | none =>
      cases hlease : s.store.lease with
      | none =>
        simp only [Config.advance, answerRead, hlease]
        trivial
      | some lease =>
        simp only [Config.advance, answerRead, hlease]
        exact fun _ _ _ => hlease
    | refused => trivial
    | lost => trivial
  | found lease =>
    cases lease with
    | none => trivial
    | some lease =>
      simp only [htask] at hlead hkeeps
      simp only [Config.advance, Config.decide]
      split
      · next hheld =>
        obtain ⟨hne, hexpired⟩ := hlead hheld
        have hguards : Guards cfg i (cfg.deadline s.now) s.store → (cfg.acquired s.now).Keeps cfg i
            s.now s.store := acquired_keeps hinterval
        have hnow : isExpired lease cfg.leaseDuration s.now = false := by
          cases h : isExpired lease cfg.leaseDuration s.now with
          | false => rfl
          | true =>
            rw [isExpired_mono (show s.now ≤ cfg.deadline s.now from Nat.le_add_right _ _) h]
              at hexpired
            cases hexpired
        exact hguards ⟨hne, lease, hkeeps hheld hne hnow, holder_eq_of_heldByUs.mp hheld, hexpired⟩
      · split <;> trivial
  | creating spec =>
    simp only [htask] at hlead hok
    obtain ⟨t, rfl⟩ := hok
    simp only [Config.advance]
    split
    · next heq =>
      rw [create_ok heq]
      exact acquired_keeps hinterval (hlead.guards rfl)
    · trivial
    · trivial
  | claiming lease =>
    simp only [htask] at hlead hok
    obtain ⟨old, t, -, -, -, -, rfl⟩ := hok
    simp only [Config.advance]
    split
    · next heq =>
      rw [replace_ok heq]
      exact acquired_keeps hinterval (hlead.guards rfl)
    · trivial
  | waiting wake =>
    simp only [Config.advance]
    split <;> trivial
  | leading last wake =>
    rw [htask] at hkeeps
    simp only [Config.advance]
    split
    · next hwake =>
      obtain ⟨hguards, hnow, k, rfl, hk⟩ := hkeeps
      exact ⟨hguards, k, Nat.le_antisymm hnow hwake, hk⟩
    · exact hkeeps
  | renewing last =>
    rw [htask] at hkeeps
    cases fault with
    | none =>
      cases hlease : s.store.lease with
      | none =>
        simp only [Config.advance, answerRead, hlease]
        trivial
      | some lease =>
        simp only [Config.advance, answerRead, hlease]
        exact hkeeps
    | refused =>
      obtain ⟨hguards, k, hnow, -⟩ := hkeeps
      exact retry_keeps hguards hnow
    | lost =>
      obtain ⟨hguards, k, hnow, -⟩ := hkeeps
      exact retry_keeps hguards hnow
  | refreshing last lease =>
    rw [htask] at hkeeps
    simp only [Config.advance]
    split
    · exact hkeeps
    · trivial
  | replacing last lease =>
    simp only [htask] at hlead hok hkeeps
    obtain ⟨old, t, -, hheld, rfl⟩ := hok
    obtain ⟨hguards, k, hnow, -⟩ := hkeeps
    have hholder : (renewed old cfg.seconds t).holder = some (cfg.identity i) :=
      holder_renewed.trans (holder_eq_of_heldByUs.mp hheld)
    have hwritten : Guards cfg i (cfg.deadline s.now)
        (s.store.put (renewed old cfg.seconds t).spec) := hlead.guards hholder
    simp only [Config.advance]
    split
    · next heq =>
      rw [replace_ok heq]
      exact acquired_keeps hinterval hwritten
    · next heq =>
      have hcases := replace_cases s.store (renewed old cfg.seconds t) fault
      rw [heq] at hcases
      -- A renewal whose answer is lost is carried out all the same.
      rcases hcases with hsame | ⟨cur, -, -, hput⟩
      · simp only at hsame
        rw [hsame]
        exact retry_keeps hguards hnow
      · simp only at hput
        rw [hput]
        have hle : last ≤ s.now := hnow ▸ Nat.le_add_right _ _
        exact retry_keeps (hwritten.earlier (deadline_mono hle)) hnow
  | releasing called =>
    cases fault with
    | none =>
      cases hlease : s.store.lease with
      | none =>
        simp only [Config.advance, answerRead, hlease]
        trivial
      | some lease =>
        simp only [Config.advance, answerRead, hlease]
        split <;> trivial
    | refused => trivial
    | lost => trivial
  | down => trivial
  | ended => trivial
  | clearing lease => trivial

/-- All replicas at once. -/
structure Exclusive (cfg : Config ι) (s : State ι) : Prop where
  inv : Inv cfg s
  task : ∀ i, (s.task i).Keeps cfg i s.now s.store

variable [DecidableEq ι]

theorem Exclusive.withTask {task : Task} (h : Exclusive cfg s)
    (hok : task.Ok cfg i s.now s.store) (hkeeps : task.Keeps cfg i s.now s.store) :
    Exclusive cfg (s.withTask i task) := by
  refine ⟨h.inv.withTask hok, fun j => ?_⟩
  by_cases hj : j = i
  · subst hj
    simpa [State.withTask] using hkeeps
  · simpa [State.withTask, Function.update_of_ne hj] using h.task j

theorem Exclusive.step (h : Exclusive cfg s) (hid : Function.Injective cfg.identity)
    (hretry : 0 < cfg.retryInterval) (hinterval : cfg.retryInterval < cfg.leaseDuration)
    {e : Event ι} (htimely : Timely e s) (hlead : LeadsInTime cfg e s) :
    Exclusive cfg (step cfg e s) := by
  have hinv := (h.inv.step e).2
  cases e with
  | tick extent => exact ⟨hinv, fun i => (h.task i).tick (htimely i)⟩
  | start i =>
    simp only [Leader.step]
    split
    · split
      · exact h.withTask trivial trivial
      · exact h
    · exact h
  | crash i => exact h.withTask trivial trivial
  | release i =>
    simp only [Leader.step]
    split
    · exact h.withTask trivial trivial
    · exact h
  | step i fault =>
    refine ⟨hinv, fun j => ?_⟩
    by_cases hj : j = i
    · subst hj
      have hkeeps := advance_keeps hinterval (h.task j) (h.inv.task j) hlead
      simpa [Leader.step] using hkeeps
    · have hother : (s.task j).Keeps cfg j s.now
          (cfg.advance i fault s.now s.store (s.task i)).2 := by
        rcases advance_store cfg i fault s.now s.store (s.task i) with
          heq | ⟨spec, hwrites, heq⟩
        · rw [heq]
          exact h.task j
        · rw [heq]
          exact (h.task j).put hretry hid (Ne.symm hj) (h.inv.task i) hwrites
      simpa [Leader.step, Function.update_of_ne hj] using hother

end Steps

/-! ## Runs -/

section Runs

variable {ι : Type} {cfg : Config ι} {s : State ι}

theorem Fresh.exclusive (h : Fresh s) : Exclusive cfg s :=
  ⟨h.inv, fun i => by rw [h.down i]; trivial⟩

theorem Exclusive.unique (h : Exclusive cfg s) (hid : Function.Injective cfg.identity)
    (hretry : 0 < cfg.retryInterval) {i j : ι} (hi : (s.task i).leads = true)
    (hj : (s.task j).leads = true) : i = j := by
  obtain ⟨-, cur, hcur, hholder, -⟩ := (h.task i).guards hretry hi
  obtain ⟨-, cur', hcur', hholder', -⟩ := (h.task j).guards hretry hj
  obtain rfl : cur = cur' := Option.some.inj (hcur.symm.trans hcur')
  exact hid (Option.some.inj (hholder.symm.trans hholder'))

variable [DecidableEq ι]

/-- In every run in which leases outlast the replicas that lead by them, at most one replica
    leads at any time. -/
theorem at_most_one_leader (hid : Function.Injective cfg.identity)
    (hretry : 0 < cfg.retryInterval) (hinterval : cfg.retryInterval < cfg.leaseDuration)
    (hs : Fresh s) (events : List (Event ι)) (htimely : History.Along (exec cfg) Timely events s)
    (hlead : History.Along (exec cfg) (LeadsInTime cfg) events s) :
    ∀ t ∈ History.states (exec cfg) events s, ∀ i j, (t.task i).leads = true →
      (t.task j).leads = true → i = j := by
  intro t ht i j hi hj
  have hexclusive : Exclusive cfg t :=
    History.invariant_states hs.exclusive (htimely.and hlead)
      (fun e a he ha b hb => by
        rw [List.mem_singleton.mp hb]
        exact ha.step hid hretry hinterval he.1 he.2) t ht
  exact hexclusive.unique hid hretry hi hj

end Runs

/-! ## Two replicas -/

instance : (e : Event Bool) → (s : State Bool) → Decidable (Timely e s)
  | .tick extent, s =>
    inferInstanceAs (Decidable (∀ i, (s.task i).rests (s.now + extent) = true))
  | .start _, _ | .crash _, _ | .release _, _ | .step _ _, _ => isTrue trivial

instance (cfg : Config Bool) (e : Event Bool) (s : State Bool) : Decidable (LeadsInTime cfg e s) := by
  unfold LeadsInTime
  split
  · split <;> infer_instance
  · infer_instance

namespace Sample

/-- The retries divide the lease duration. -/
def evenConfig : Config Bool := { config with retryInterval := 3 * nanosPerSecond }

theorem identity_injective : Function.Injective evenConfig.identity := by
  intro i j
  cases i <;> cases j <;> decide

def handover : List (Event Bool) := acquires false ++ releases false ++ acquires true

/-- A replica wakes up to renew the lease, and its read fails. -/
def failsToRenew (i : Bool) : List (Event Bool) :=
  [.tick (2 * nanosPerSecond), .step i .none, .step i .refused]

/-- The first replica acquires the lease at 0.9 s and cannot renew it from then on. The
    second one finds it expired at 16 s. -/
def takeover : List (Event Bool) :=
  .tick 900000000 :: acquires false ++ (List.replicate 7 (failsToRenew false)).flatten ++
    .tick 1100000000 :: acquires true

end Sample

theorem at_most_one_leader_handover :
    ¬ ((((History.final (exec Sample.evenConfig) Sample.handover Sample.start).task false).leads =
        true) ∧
      ((History.final (exec Sample.evenConfig) Sample.handover Sample.start).task true).leads =
        true) := by
  rintro ⟨hfirst, hsecond⟩
  have hsame := at_most_one_leader Sample.identity_injective (by decide) (by decide)
    Sample.start_fresh Sample.handover (by decide) (by decide) _
    History.final_mem_states false true hfirst hsecond
  cases hsame

/-- With the default intervals the first replica still leads when the second one does. -/
theorem two_leaders_takeover :
    History.Along (exec Sample.config) Timely Sample.takeover Sample.start ∧
      Sample.config.retryInterval < Sample.config.leaseDuration ∧
      ∃ t ∈ History.states (exec Sample.config) Sample.takeover Sample.start,
        (t.task false).leads = true ∧ (t.task true).leads = true := by
  refine ⟨by decide, by decide, _, History.final_mem_states, ?_⟩
  decide

end Leader
