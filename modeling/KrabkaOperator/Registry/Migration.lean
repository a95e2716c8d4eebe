-- SUMMARY: A registry keeps a workload while its Deployment makes way for a StatefulSet, and no pass deletes a Deployment of somebody else.
import KrabkaOperator.Registry.Reconcile
import KrabkaOperator.Registry.Settings

/-!
# From a Deployment to a StatefulSet

An earlier operator ran the registry as a Deployment. A pass deletes it, and only it, after
the StatefulSet is there, so the registry always has one of them. Passes may be repeated,
stopped half-way and run beside each other.
-/

namespace Registry

open Kube Crd Interleave

abbrev Dialogue := Prog.Dialogue Resp

variable {cfg : Config} {obj : SchemaRegistry} {log : Dialogue} {tlsSecret : Option String}

/-! ## What a pass has seen -/

/-- The pass has applied the StatefulSet of its object. -/
def HasApplied (cfg : Config) (obj : SchemaRegistry) (tlsSecret : Option String) (log : Dialogue) :
    Prop :=
  ∃ bootstrap set, renderStatefulSet cfg.lib obj bootstrap (imageOf cfg obj) tlsSecret = .ok set ∧
    ⟨.applyStatefulSet set, .ok ()⟩ ∈ log

/-- What a pass knows when it deletes the Deployment or patches the status. -/
inductive Guard (cfg : Config) (obj : SchemaRegistry) (log : Dialogue) : Req → Prop where
  | quiet {r : Req} (hdelete : r ≠ .deleteDeployment)
      (hstatus : ∀ status, r ≠ .patchStatus status) :
    Guard cfg obj log r
  | delete {d : Deployment} (happlied : ∃ tlsSecret, HasApplied cfg obj tlsSecret log)
      (hread : log.getLast? = some ⟨.getDeployment, .ok (some d)⟩) (howned : d.ownedBy obj = true) :
    Guard cfg obj log .deleteDeployment
  | stopped {reason message : String} (hreason : reason ≠ "Available") :
    Guard cfg obj log (.patchStatus (statusOf obj reason message (none, none) none))
  | report {tlsSecret : Option String} {live : Option LiveSet}
      (happlied : HasApplied cfg obj tlsSecret log)
      (hread : log.getLast? = some ⟨.getStatefulSet, .ok live⟩) :
    Guard cfg obj log (.patchStatus (report obj tlsSecret live))

theorem stopWith_behaves {α : Type} {reason message : String} {action : Action}
    (hreason : reason ≠ "Available") :
    Behaves (Guard cfg obj) (stopWith obj reason message action : Op (Except Action α)) log := by
  refine ⟨.stopped hreason, fun x => ?_⟩
  cases x <;> trivial

theorem kafkaBootstrap_behaves (cluster : String) :
    Behaves (Guard cfg obj) (kafkaBootstrap obj cluster) log := by
  unfold kafkaBootstrap
  have hread : Behaves (Guard cfg obj) (ask (.getKafka cluster) >>= kube) log := by
    refine ⟨.quiet nofun fun _ => nofun, fun x => ?_⟩
    cases x <;> trivial
  refine hread.bind fun kafka log' => ?_
  cases kafka >>= internalListenerBootstrap with
  | none => exact stopWith_behaves (by decide)
  | some bootstrap => trivial

theorem resolveBootstrap_behaves : Behaves (Guard cfg obj) (resolveBootstrap obj) log := by
  unfold resolveBootstrap
  cases obj.spec.bootstrapServers with
  | some bootstrap => trivial
  | none =>
    cases obj.labels["krabka.io/cluster"]? with
    | none => exact stopWith_behaves (by decide)
    | some cluster => exact kafkaBootstrap_behaves cluster

theorem rendered_behavesTo {α β : Type} {Q : β → Dialogue → Prop} {x : Except RenderError α}
    {f : α → Op β} (h : ∀ a, x = .ok a → BehavesTo (Guard cfg obj) Q (f a) log) :
    BehavesTo (Guard cfg obj) Q (rendered x >>= f) log := by
  cases x with
  | error e => trivial
  | ok a => exact h a rfl

theorem applyCertificateCr_behaves (issuer : CertManagerIssuerRef) :
    Behaves (Guard cfg obj) (applyCertificateCr obj issuer) log := by
  refine (rendered_behavesTo (Q := fun _ _ => True) fun cert _ => ?_).behaves
  refine ⟨.quiet nofun fun _ => nofun, fun x => ?_⟩
  cases x with
  | ok u => trivial
  | error e => cases e <;> trivial

theorem issueTls_behaves (issuer : CertManagerIssuerRef) :
    Behaves (Guard cfg obj) (issueTls obj issuer) log := by
  refine (applyCertificateCr_behaves issuer).bind fun _ log' => ?_
  refine ⟨.quiet nofun fun _ => nofun, fun x => ?_⟩
  cases x with
  | error e => trivial
  | ok found =>
    cases found with
    | true => trivial
    | false => exact stopWith_behaves (by decide)

theorem resolveTls_behaves : Behaves (Guard cfg obj) (resolveTls obj) log := by
  unfold resolveTls
  cases obj.spec.tls with
  | none => trivial
  | some tls =>
    dsimp only
    cases tls.secretName with
    | none =>
      cases tls.issuerRef with
      | none => exact stopWith_behaves (by decide)
      | some issuer => exact issueTls_behaves issuer
    | some secret =>
      cases tls.issuerRef with
      | none => trivial
      | some issuer => exact stopWith_behaves (by decide)

theorem applyService_behaves (name : String) (svc : Except RenderError Service) :
    Behaves (Guard cfg obj) (applyService name svc) log := by
  refine (rendered_behavesTo (Q := fun _ _ => True) fun svc _ => ?_).behaves
  refine ⟨.quiet nofun fun _ => nofun, fun x => ?_⟩
  cases x <;> trivial

theorem applyStatefulSet_behavesTo (bootstrap : String) :
    BehavesTo (Guard cfg obj) (fun _ => HasApplied cfg obj tlsSecret)
      (applyStatefulSet cfg obj bootstrap tlsSecret) log := by
  refine rendered_behavesTo fun set hset => ⟨.quiet nofun fun _ => nofun, fun x => ?_⟩
  cases x with
  | error e => trivial
  | ok u => exact ⟨bootstrap, set, hset, List.mem_concat_self⟩

theorem HasApplied.append (h : HasApplied cfg obj tlsSecret log) (more : Dialogue) :
    HasApplied cfg obj tlsSecret (log ++ more) := by
  obtain ⟨bootstrap, set, hset, hmem⟩ := h
  exact ⟨bootstrap, set, hset, List.mem_append_left _ hmem⟩

theorem deleteOwnedDeployment_behavesTo (h : HasApplied cfg obj tlsSecret log) :
    BehavesTo (Guard cfg obj) (fun _ => HasApplied cfg obj tlsSecret)
      (deleteOwnedDeployment obj) log := by
  refine ⟨.quiet nofun fun _ => nofun, fun x => ?_⟩
  cases x with
  | error e => trivial
  | ok found =>
    cases found with
    | none => exact h.append _
    | some d =>
      change BehavesTo _ _ (if d.ownedBy obj then _ else _) _
      split
      · rename_i howned
        refine ⟨.delete ⟨tlsSecret, h.append _⟩ List.getLast?_concat howned, fun x => ?_⟩
        cases x with
        | ok u => exact (h.append _).append _
        | error e =>
          cases e with
          | notFound => exact (h.append _).append _
          | refused => trivial
          | lost => trivial
          | conflict => trivial
      · exact h.append _

theorem reportStatus_behaves (h : HasApplied cfg obj tlsSecret log) :
    Behaves (Guard cfg obj) (reportStatus obj tlsSecret) log := by
  refine ⟨.quiet nofun fun _ => nofun, fun x => ?_⟩
  cases x with
  | error e => trivial
  | ok live =>
    refine ⟨.report (h.append _) List.getLast?_concat, fun x => ?_⟩
    cases x <;> trivial

theorem deploy_behaves (bootstrap : String) :
    Behaves (Guard cfg obj) (deploy cfg obj bootstrap tlsSecret) log := by
  refine (applyService_behaves _ _).bind fun _ log₁ => ?_
  refine (applyService_behaves _ _).bind fun _ log₂ => ?_
  apply BehavesTo.behaves (Q := fun _ _ => True)
  refine BehavesTo.bind ((applyStatefulSet_behavesTo bootstrap).mono fun _ log₃ h₃ => ?_)
  refine BehavesTo.bind ((deleteOwnedDeployment_behavesTo h₃).mono fun _ log₄ h₄ => ?_)
  exact (reportStatus_behaves h₄).to

theorem reconcileInner_behaves : Behaves (Guard cfg obj) (reconcileInner cfg obj) log := by
  unfold reconcileInner
  cases validateConfig cfg.lib obj.spec with
  | error why =>
    refine ⟨.stopped (by decide), fun x => ?_⟩
    cases x <;> trivial
  | ok u =>
    refine resolveBootstrap_behaves.bind fun bootstrap log₁ => ?_
    cases bootstrap with
    | error action => trivial
    | ok bootstrap =>
      refine resolveTls_behaves.bind fun tlsSecret log₂ => ?_
      cases tlsSecret with
      | error action => trivial
      | ok tlsSecret => exact deploy_behaves bootstrap

/-! ## The answers -/

section Answers

variable {c : Operator.Choice} {w : World} {r : Req}

/-- The StatefulSet stays, and the Deployment does not change. -/
structure Keeps (w w' : World) : Prop where
  statefulSet : w.statefulSet.isSome = true → w'.statefulSet.isSome = true
  deployment : w'.deployment = w.deployment

theorem Keeps.refl (w : World) : Keeps w w := ⟨id, rfl⟩

theorem keeps_read {α : Type} (c : Operator.Choice) (w : World) (x : α) :
    Keeps w (Operator.answerRead c w x).2 := by
  rw [Operator.answerRead_world]
  exact .refl w

theorem Keeps.write {w' : World} (h : Keeps w w') (c : Operator.Choice) :
    Keeps w (Operator.answerWrite c w w').2 := by
  rcases Operator.answerWrite_world c w w' with heq | heq
  · rw [heq]
    exact .refl w
  · rwa [heq]

/-- Only the request that deletes the Deployment changes it. -/
theorem answer_keeps (hr : r ≠ .deleteDeployment) (c : Operator.Choice) (w : World) :
    Keeps w (answer r c w).2 := by
  cases r with
  | getKafka name => exact keeps_read c w _
  | getSecret name => exact keeps_read c w _
  | getDeployment => exact keeps_read c w _
  | getStatefulSet => exact keeps_read c w _
  | deleteDeployment => exact absurd rfl hr
  | applyService name svc =>
    refine Keeps.write ?_ c
    exact ⟨id, rfl⟩
  | patchStatus status =>
    refine Keeps.write ?_ c
    exact ⟨id, rfl⟩
  | applyCertificate cert =>
    rw [answer]
    split
    · refine Keeps.write ?_ c
      exact ⟨id, rfl⟩
    · exact .refl w
  | applyStatefulSet set =>
    rw [answer]
    split
    · refine Keeps.write ?_ c
      exact ⟨fun _ => rfl, rfl⟩
    · exact .refl w

theorem answer_delete (c : Operator.Choice) (w : World) :
    (answer .deleteDeployment c w).2.statefulSet = w.statefulSet ∧
      ((answer .deleteDeployment c w).2.deployment = w.deployment ∨
        (answer .deleteDeployment c w).2.deployment = none) := by
  rw [answer]
  cases hdeployment : w.deployment with
  | none => exact ⟨rfl, .inl hdeployment⟩
  | some d =>
    rcases Operator.answerWrite_world c w { w with deployment := none } with heq | heq
    · exact ⟨by rw [heq], .inl (by rw [heq, hdeployment])⟩
    · exact ⟨by rw [heq], .inr (by rw [heq])⟩

theorem answer_statefulSet (r : Req) (c : Operator.Choice) {w : World}
    (h : w.statefulSet.isSome = true) : (answer r c w).2.statefulSet.isSome = true := by
  by_cases hr : r = .deleteDeployment
  · subst hr
    rwa [(answer_delete c w).1]
  · exact (answer_keeps hr c w).statefulSet h

theorem answer_deployment (r : Req) (c : Operator.Choice) (w : World) :
    (answer r c w).2.deployment = w.deployment ∨ (answer r c w).2.deployment = none := by
  by_cases hr : r = .deleteDeployment
  · subst hr
    exact (answer_delete c w).2
  · exact .inl (answer_keeps hr c w).deployment

/-- A Deployment that was read is not replaced by another one. -/
theorem stays_or_gone {w' : World} {d : Deployment}
    (h : w'.deployment = w.deployment ∨ w'.deployment = none)
    (hd : w.deployment = some d ∨ w.deployment = none) :
    w'.deployment = some d ∨ w'.deployment = none := by
  rcases h with heq | heq
  · rwa [heq]
  · exact .inr heq

/-- An applied StatefulSet is there after its answer. -/
theorem isSome_of_applied {set : StatefulSet}
    (h : (⟨r, (answer r c w).1⟩ : (r : Req) × Resp r) = ⟨.applyStatefulSet set, .ok ()⟩) :
    (answer r c w).2.statefulSet.isSome = true := by
  obtain ⟨rfl, heq⟩ := Sigma.mk.inj h
  have hok := eq_of_heq heq
  rw [answer] at hok ⊢
  split
  · rename_i hsame
    rw [if_pos hsame] at hok
    rw [Operator.answerWrite_of_ok hok]
    rfl
  · rename_i hsame
    rw [if_neg hsame] at hok
    cases hok

/-- A Deployment that a read returns is there after its answer. -/
theorem deployment_of_read {d : Deployment}
    (h : (⟨r, (answer r c w).1⟩ : (r : Req) × Resp r) = ⟨.getDeployment, .ok (some d)⟩) :
    (answer r c w).2.deployment = some d := by
  obtain ⟨rfl, heq⟩ := Sigma.mk.inj h
  have hok : (Operator.answerRead c w w.deployment).1 = .ok (some d) := eq_of_heq heq
  rw [answer, Operator.answerRead_world]
  exact Operator.eq_of_answerRead hok

end Answers

/-! ## Runs -/

namespace State

def world (s : State) : World := s.runs.world

def dialogue (s : State) (i : Nat) : Dialogue := (s.runs.party i).2

/-- The next request of a pass. -/
def next (s : State) (i : Nat) : Option Req := Interleave.next (s.runs.party i).1

/-- No pass has been started. -/
def Fresh (s : State) : Prop := ∀ i, s.next i = none ∧ s.dialogue i = []

end State

/-- The registry has its Deployment or its StatefulSet. -/
def World.HasWorkload (w : World) : Prop :=
  w.statefulSet.isSome = true ∨ w.deployment.isSome = true

/-- What users and other controllers leave to the operator: they delete no StatefulSet, and no
    Deployment before there is one, and they do not put another Deployment in the place of one
    that a pass is about to delete. -/
structure Leaves (s : State) (f : World → World) : Prop where
  statefulSet : s.world.statefulSet.isSome = true → (f s.world).statefulSet.isSome = true
  workload : s.world.HasWorkload → (f s.world).HasWorkload
  pending : ∀ i, s.next i = some .deleteDeployment →
    (f s.world).deployment = s.world.deployment ∨ (f s.world).deployment = none

def Fair (e : Event) (s : State) : Prop := ∀ f, e = .change f → Leaves s f

theorem fair_start {s : State} (i : Nat) (obj : SchemaRegistry) : Fair (.start i obj) s :=
  fun _ h => nomatch h

theorem fair_call {s : State} (i : Nat) (c : Operator.Choice) : Fair (.call i c) s :=
  fun _ h => nomatch h

/-- What is left of each pass meets its guard. -/
def Guarded (cfg : Config) (s : State) : Prop :=
  ∀ i, Behaves (Guard cfg (s.obj i)) (s.runs.party i).1 (s.dialogue i)

theorem Guarded.guard {s : State} (h : Guarded cfg s) {i : Nat} {r : Req}
    (hr : s.next i = some r) : Guard cfg (s.obj i) (s.dialogue i) r := by
  obtain ⟨k, hk⟩ := call_of_next hr
  have hbehaves := h i
  rw [hk] at hbehaves
  exact hbehaves.1

/-- No event can take the guards away. -/
theorem Guarded.step {s : State} (h : Guarded cfg s) (e : Event) :
    Guarded cfg (step cfg e s) := by
  cases e with
  | call j c => exact Behaves.step_party answer (m := .request j c) h fun _ _ => nofun
  | change f => exact h
  | start j obj =>
    intro i
    -- The new pass has its guards from the start, and the others go on.
    by_cases hi : i = j
    · subst hi
      have hobj : (Registry.step cfg (.start i obj) s).obj i = obj := Function.update_self ..
      have hself : (Registry.step cfg (.start i obj) s).runs.party i =
          (reconcileInner cfg obj, []) := Function.update_self ..
      rw [State.dialogue, hself, hobj]
      exact reconcileInner_behaves
    · have hobj : (Registry.step cfg (.start j obj) s).obj i = s.obj i :=
        Function.update_of_ne hi ..
      have hne : (Registry.step cfg (.start j obj) s).runs.party i = s.runs.party i :=
        Function.update_of_ne hi ..
      rw [State.dialogue, hne, hobj]
      exact h i

/-- What holds between any two requests. -/
structure Inv (cfg : Config) (s : State) : Prop where
  behaves : Guarded cfg s
  applied : ∀ i set, ⟨.applyStatefulSet set, .ok ()⟩ ∈ s.dialogue i →
    s.world.statefulSet.isSome = true
  pending : ∀ i d, s.next i = some .deleteDeployment →
    (s.dialogue i).getLast? = some ⟨.getDeployment, .ok (some d)⟩ →
      s.world.deployment = some d ∨ s.world.deployment = none

theorem inv_of_fresh {s : State} (h : s.Fresh) : Inv cfg s where
  behaves i := by
    have hnext := (h i).1
    unfold State.next at hnext
    cases hp : (s.runs.party i).1 with
    | ret a => trivial
    | fail e => trivial
    | call r k => rw [hp] at hnext; cases hnext
  applied i set hmem := by
    rw [(h i).2] at hmem
    cases hmem
  pending i d hnext := by
    rw [(h i).1] at hnext
    cases hnext

section Step

variable {s : State} {i j : Nat} {c : Operator.Choice} {e : Event}

variable (cfg) in
/-- A call answers the next request of its pass, or does nothing. -/
theorem step_call (s : State) (j : Nat) (c : Operator.Choice) :
    (∃ r k, (s.runs.party j).1 = .call r k ∧ s.next j = some r ∧
      (step cfg (.call j c) s).runs = answered answer j c s.runs r k) ∨
    s.next j = none ∧ (step cfg (.call j c) s).runs = s.runs := by
  rcases step_request answer j c s.runs with ⟨r, k, hp, hstep⟩ | ⟨hnone, hstep⟩
  · exact .inl ⟨r, k, hp, by rw [State.next, hp]; rfl, hstep⟩
  · exact .inr ⟨hnone, hstep⟩

theorem Inv.call (h : Inv cfg s) (j : Nat) (c : Operator.Choice) :
    Inv cfg (step cfg (.call j c) s) := by
  have hbehaves := h.behaves.step (.call j c)
  rcases step_call cfg s j c with ⟨r, k, hp, hnext, hruns⟩ | ⟨-, hruns⟩
  · refine ⟨hbehaves, fun i set hmem => ?_, fun i d hdelete hread => ?_⟩
    · rw [State.dialogue, hruns] at hmem
      rw [State.world, hruns]
      by_cases hi : i = j
      · subst hi
        rw [answered_party_self] at hmem
        rcases List.mem_append.mp hmem with hold | hnew
        · exact answer_statefulSet r c (h.applied i set hold)
        · exact isSome_of_applied (List.mem_singleton.mp hnew).symm
      · rw [answered_party_of_ne hi] at hmem
        exact answer_statefulSet r c (h.applied i set hmem)
    · rw [State.next, hruns] at hdelete
      rw [State.dialogue, hruns] at hread
      rw [State.world, hruns]
      by_cases hi : i = j
      · subst hi
        rw [answered_party_self, List.getLast?_concat] at hread
        exact .inl (deployment_of_read (Option.some.inj hread))
      · rw [answered_party_of_ne hi] at hdelete hread
        exact stays_or_gone (answer_deployment r c s.runs.world) (h.pending i d hdelete hread)
  · refine ⟨hbehaves, fun i set hmem => ?_, fun i d hdelete hread => ?_⟩
    · rw [State.dialogue, hruns] at hmem
      rw [State.world, hruns]
      exact h.applied i set hmem
    · rw [State.next, hruns] at hdelete
      rw [State.dialogue, hruns] at hread
      rw [State.world, hruns]
      exact h.pending i d hdelete hread

theorem Inv.start (h : Inv cfg s) (j : Nat) (obj : SchemaRegistry) :
    Inv cfg (step cfg (.start j obj) s) := by
  have hself : (step cfg (.start j obj) s).runs.party j = (reconcileInner cfg obj, []) :=
    Function.update_self ..
  have hne {i : Nat} (hi : i ≠ j) : (step cfg (.start j obj) s).runs.party i = s.runs.party i :=
    Function.update_of_ne hi ..
  refine ⟨h.behaves.step (.start j obj), fun i set hmem => ?_, fun i d hdelete hread => ?_⟩
  · rw [State.dialogue] at hmem
    by_cases hi : i = j
    · subst hi
      rw [hself] at hmem
      cases hmem
    · rw [hne hi] at hmem
      exact h.applied i set hmem
  · rw [State.dialogue] at hread
    rw [State.next] at hdelete
    by_cases hi : i = j
    · subst hi
      rw [hself] at hread
      cases hread
    · rw [hne hi] at hread hdelete
      exact h.pending i d hdelete hread

theorem Inv.change (h : Inv cfg s) {f : World → World} (hf : Leaves s f) :
    Inv cfg (step cfg (.change f) s) where
  behaves := h.behaves
  applied i set hmem := hf.statefulSet (h.applied i set hmem)
  pending i d hdelete hread :=
    stays_or_gone (hf.pending i hdelete) (h.pending i d hdelete hread)

theorem Inv.step (h : Inv cfg s) (hfair : Fair e s) : Inv cfg (step cfg e s) := by
  cases e with
  | start j obj => exact h.start j obj
  | call j c => exact h.call j c
  | change f => exact h.change (hfair f rfl)

/-- A call that takes the Deployment away: its pass owns it, and the StatefulSet is there. -/
theorem Inv.owned (h : Inv cfg s) {d : Deployment} (hd : s.world.deployment = some d)
    (hgone : (Registry.step cfg (.call j c) s).world.deployment = none) :
    d.ownedBy (s.obj j) = true ∧ s.world.statefulSet.isSome = true := by
  rcases step_call cfg s j c with ⟨r, k, hp, hnext, hruns⟩ | ⟨-, hruns⟩
  · rw [State.world, hruns] at hgone
    by_cases hr : r = .deleteDeployment
    · subst hr
      cases h.behaves.guard hnext with
      | quiet hdelete => exact absurd rfl hdelete
      | delete happlied hread howned =>
        obtain ⟨-, -, set, -, hset⟩ := happlied
        refine ⟨?_, h.applied j set hset⟩
        rcases h.pending j _ hnext hread with hsame | hnone
        · rwa [Option.some.inj (hd.symm.trans hsame)]
        · exact absurd (hd.symm.trans hnone) nofun
    · have hkept := (answer_keeps hr c s.world).deployment
      exact absurd (hd.symm.trans (hkept.symm.trans hgone)) nofun
  · rw [State.world, hruns] at hgone
    exact absurd (hd.symm.trans hgone) nofun

theorem Inv.hasWorkload (h : Inv cfg s) (hfair : Fair e s) (hs : s.world.HasWorkload) :
    (Registry.step cfg e s).world.HasWorkload := by
  cases e with
  | start j obj => exact hs
  | change f => exact (hfair f rfl).workload hs
  | call j c =>
    cases hdeployment : s.world.deployment with
    | none =>
      have hset := hs.resolve_right (by rw [hdeployment]; exact nofun)
      rcases step_call cfg s j c with ⟨r, k, -, -, hruns⟩ | ⟨-, hruns⟩
      · rw [State.world, hruns]
        exact .inl (answer_statefulSet r c hset)
      · rw [State.world, hruns]
        exact .inl hset
    | some d =>
      cases hafter : (Registry.step cfg (.call j c) s).world.deployment with
      | some d' => exact .inr (by rw [hafter]; rfl)
      | none =>
        have hset := (h.owned hdeployment hafter).2
        rcases step_call cfg s j c with ⟨r, k, -, -, hruns⟩ | ⟨-, hruns⟩
        · rw [State.world, hruns]
          exact .inl (answer_statefulSet r c hset)
        · rw [State.world, hruns]
          exact .inl hset

end Step

/-- In every run of any number of passes, repeated, stopped or beside each other, with faults
    and with changes that leave the workloads to the operator: a registry that has a workload
    keeps one, and a Deployment that a pass takes away is owned by its registry and goes only
    once the StatefulSet is there. -/
theorem migration_keeps_workload {s : State} (hs : s.Fresh) {events : List Event}
    (hfair : History.Along (exec cfg) Fair events s) :
    (s.world.HasWorkload → ∀ t ∈ History.states (exec cfg) events s, t.world.HasWorkload) ∧
    ∀ pre i c post, events = pre ++ .call i c :: post → ∀ d,
      (History.final (exec cfg) pre s).world.deployment = some d →
      (step cfg (.call i c) (History.final (exec cfg) pre s)).world.deployment = none →
      d.ownedBy ((History.final (exec cfg) pre s).obj i) = true ∧
        (History.final (exec cfg) pre s).world.statefulSet.isSome = true := by
  have hinv (e : Event) (s : State) (he : Fair e s) (h : Inv cfg s) :
      ∀ t ∈ exec cfg e s, Inv cfg t := by
    intro t ht
    rw [List.mem_singleton.mp ht]
    exact h.step he
  constructor
  · intro hwork t ht
    refine (History.invariant_states (I := fun t => Inv cfg t ∧ t.world.HasWorkload)
      ⟨inv_of_fresh hs, hwork⟩ hfair (fun e s he h t ht => ?_) t ht).2
    rw [List.mem_singleton.mp ht]
    exact ⟨h.1.step he, h.1.hasWorkload he h.2⟩
  · rintro pre i c post rfl d hd hgone
    have hpre := History.invariant_states (inv_of_fresh hs) hfair.append.1 hinv
    exact (hpre _ History.final_mem_states).owned hd hgone

namespace Sample

def config : Config := ⟨Sample.lib, none, "registry:1"⟩

/-- A namespace with the Deployment of an earlier operator. -/
def before : World :=
  { deployment := some ⟨[⟨"krabka.io/v1alpha1", "SchemaRegistry", "demo", "u-1", true, true⟩]⟩ }

def idle : State := ⟨fun _ => registry, ⟨before, fun _ => (.ret .driftRequeue, []), []⟩⟩

/-- The controller of StatefulSets reports two ready replicas. -/
def rollOut (w : World) : World :=
  { w with statefulSet := w.statefulSet.map fun live => { live with status := some (2, some 2) } }

/-- A pass that is stopped before it deletes the Deployment, and one that goes through. -/
def migration : List Event :=
  [.start 0 registry, .call 0 {}, .call 0 {}, .call 0 {}, .call 0 {}, .start 1 registry, .call 1 {},
    .call 1 {}, .call 1 {}, .change rollOut, .call 1 {}, .call 1 {}, .call 1 {}, .call 1 {}]

theorem leaves_rollOut (s : State) : Leaves s rollOut where
  statefulSet h := by
    rw [rollOut, Option.isSome_map]
    exact h
  workload h := by
    rcases h with h | h
    · exact .inl (by rw [rollOut, Option.isSome_map]; exact h)
    · exact .inr h
  pending _ _ := .inl rfl

end Sample

open Sample in
theorem migration_keeps_workload_crash :
    (∀ t ∈ History.states (exec Sample.config) migration idle, t.world.HasWorkload) ∧
    (History.final (exec Sample.config) (migration.take 11) idle).world.deployment.isSome = true ∧
    (History.final (exec Sample.config) migration idle).world.deployment = none ∧
    (History.final (exec Sample.config) migration idle).world.status.any
      (fun status => status.readyReplicas = some 2) = true := by
  have hfair : History.Along (exec Sample.config) Fair migration idle :=
    ⟨fair_start _ _, fair_call _ _, fair_call _ _, fair_call _ _, fair_call _ _, fair_start _ _,
      fair_call _ _, fair_call _ _, fair_call _ _, fun f h => Event.change.inj h ▸ leaves_rollOut _,
      fair_call _ _, fair_call _ _, fair_call _ _, fair_call _ _, trivial⟩
  have hfresh : idle.Fresh := fun i => ⟨rfl, rfl⟩
  exact ⟨(migration_keeps_workload hfresh hfair).1 (.inr rfl), by decide, by decide, by decide⟩

end Registry
