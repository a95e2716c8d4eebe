-- SUMMARY: A policy that is no longer asked for goes away only if the status knows of it.
import KrabkaOperator.Cluster.Run
import KrabkaOperator.Network.Reconcile

/-!
# Cleanup

Without `spec.networkPolicy` a pass deletes the policy if the status that it has read
says `Available`. The status is patched at the end of a pass, after the apply.
-/

namespace Network

open Kube Crd Operator

variable {lib : ClusterCa.CaLib}

/-! ## Passes without a policy -/

/-- A pass has come to its last phase. -/
def Finalizes (log : Prog.Dialogue Resp) : Prop := Req.reconcileMetrics ∈ log.map (·.1)

/-- The policies as they were in `w`, or without that of the cluster. -/
def Settled (cluster : String) (w : World) (b : World × Prog.Dialogue Resp) : Prop :=
  (¬ Finalizes b.2 ∧ b.1.policies = w.policies) ∨
    (Finalizes b.2 ∧ b.1.policies[policyName cluster]? = none)

/-- An answer to a request of the other phases. -/
theorem Settled.other {cluster : String} {w : World} {b : World × Prog.Dialogue Resp}
    (h : Settled cluster w b) {r : Req} {x : Resp r} {v : World}
    (hr : r ≠ .reconcileMetrics) (hb : v.policies = b.1.policies) :
    Settled cluster w (v, b.2 ++ [⟨r, x⟩]) := by
  have hfin : Finalizes (b.2 ++ [⟨r, x⟩]) ↔ Finalizes b.2 := by
    simp [Finalizes, hr.symm]
  rcases h with ⟨hnot, heq⟩ | ⟨hdone, hnone⟩
  · exact .inl ⟨fun h => hnot (hfin.mp h), hb.trans heq⟩
  · exact .inr ⟨hfin.mpr hdone, by rw [hb]; exact hnone⟩

/-- The answers of an environment without faults. -/
abbrev faultless : (r : Req) → Int → World × Prog.Dialogue Resp → Resp r × (World × Prog.Dialogue Resp) :=
  Prog.via (Prog.logged answer) fun clock => ({ clock } : Choice)

theorem carryOut_of_ne {pass : Pass} {r : Operator.Req} (hfin : r ≠ .effect .finalizeKafka)
    (hpatch : r ≠ .effect .patchKafkaStatus) : carryOut pass r = Prog.request (Req.operator r) := by
  unfold carryOut
  split
  · exact absurd rfl hfin
  · exact absurd rfl hpatch
  · rfl

theorem deletePolicy_gone {name : String} {clock : Int} {w : World} :
    (answer (.deletePolicy name) { clock } w).2.policies[name]? = none := by
  simp only [answer]
  split
  · assumption
  · simp [answerWrite]

theorem finalizeKafka_settles {pass : Pass} (hunset : pass.base.kafka.spec.networkPolicy = none)
    (hrendered : wasRendered pass.status = true) {w : World} (s : World × Prog.Dialogue Resp) :
    Prog.Sat faultless (fun _ _ _ => True)
      (fun x b => ∀ v, x = .ok v → Settled pass.base.kafka.name w b) (finalizeKafka pass) s := by
  unfold finalizeKafka reconcileNetworkPolicy
  simp only [hunset, hrendered, Option.isNone_none, if_true, Prog.when]
  intro c
  refine ⟨trivial, fun c' => ⟨trivial, fun c'' => ⟨trivial, fun _ _ => .inr ⟨?_, ?_⟩⟩⟩⟩
  · simp [Finalizes, Prog.via, Prog.logged]
  · exact deletePolicy_gone

theorem carryOut_settles {pass : Pass} (hunset : pass.base.kafka.spec.networkPolicy = none)
    (hrendered : wasRendered pass.status = true) {w : World} (r : Operator.Req)
    (s : World × Prog.Dialogue Resp) (hs : Settled pass.base.kafka.name w s) :
    Prog.Sat faultless (fun _ _ _ => True)
      (fun x b => ∀ v, x = .ok v → Settled pass.base.kafka.name w b) (carryOut pass r) s := by
  by_cases hfin : r = .effect .finalizeKafka
  · subst hfin
    exact @finalizeKafka_settles pass hunset hrendered w s
  by_cases hpatch : r = .effect .patchKafkaStatus
  · subst hpatch
    intro c
    refine ⟨trivial, fun c' => ⟨trivial, ?_⟩⟩
    have hread := hs.other (r := .getStatus pass.base.kafka.name)
      (x := (faultless (.getStatus pass.base.kafka.name) c s).1) (v := s.1) (fun h => nomatch h) rfl
    exact fun _ _ => hread.other (fun h => nomatch h) rfl
  · rw [carryOut_of_ne hfin hpatch]
    exact fun c => ⟨trivial, fun _ _ => hs.other (fun h => nomatch h) rfl⟩

/-- Without faults a pass whose status knows of the policy deletes it in its last phase. -/
theorem reconcileInner_settles {pass : Pass} (hunset : pass.base.kafka.spec.networkPolicy = none)
    (hrendered : wasRendered pass.status = true) (w : World) :
    Prog.Sat faultless (fun _ _ _ => True)
      (fun x b => ∀ u, x = .ok u → Settled pass.base.kafka.name w b)
      (reconcileInner lib pass) (w, []) := by
  have hstart : Settled pass.base.kafka.name w (w, []) := .inl ⟨by simp [Finalizes], rfl⟩
  refine Prog.sat_refined (I := Settled pass.base.kafka.name w) _
    (fun r s hs => carryOut_settles hunset hrendered r s hs) (fun a s hs _ _ => hs)
    (fun e s u h => nomatch h) hstart

/-- The requests of a pass that is not asked for a policy. -/
def Unpoliced (status : List Condition) : Req → Prop
  | .applyPolicy _ => False
  | .deletePolicy _ => wasRendered status = true
  | _ => True

theorem kube_makes {R : Req → Prop} {α : Type} {x : Except KubeError α} : Prog.Makes R (kube x) := by
  cases x <;> trivial

theorem carryOut_makes {pass : Pass} (hunset : pass.base.kafka.spec.networkPolicy = none)
    (r : Operator.Req) : Prog.Makes (Unpoliced pass.status) (carryOut pass r) := by
  by_cases hfin : r = .effect .finalizeKafka
  · subst hfin
    change Prog.Makes _ (finalizeKafka pass)
    unfold finalizeKafka reconcileNetworkPolicy
    simp only [hunset, Option.isNone_none, if_true]
    refine Prog.makes_request trivial fun metrics => Prog.Makes.bind ?_ fun outcome => ?_
    · unfold Prog.when
      split
      · next hrendered => exact Prog.makes_request hrendered fun _ => trivial
      · trivial
    · refine Prog.makes_request trivial fun x => Prog.Makes.bind kube_makes fun _ => ?_
      refine Prog.Makes.bind kube_makes fun _ => ?_
      split <;> trivial
  by_cases hpatch : r = .effect .patchKafkaStatus
  · subst hpatch
    exact Prog.makes_request trivial fun x =>
      Prog.Makes.bind kube_makes fun _ => Prog.makes_request trivial fun _ => trivial
  · rw [carryOut_of_ne hfin hpatch]
    exact ⟨trivial, fun _ => trivial⟩

theorem reconcileInner_makes {pass : Pass} (hunset : pass.base.kafka.spec.networkPolicy = none) :
    Prog.Makes (Unpoliced pass.status) (reconcileInner lib pass) :=
  (Prog.makes_any _).refined fun r _ => carryOut_makes hunset r

/-- A pass without `spec.networkPolicy` leaves the policies, or deletes one that its status
    knows of. -/
theorem answer_unpoliced {status : List Condition} {r : Req} (h : Unpoliced status r) (c : Choice)
    (w : World) : (answer r c w).2.policies = w.policies ∨
      (wasRendered status = true ∧ ∃ name, (answer r c w).2.policies = w.policies.erase name) := by
  cases r with
  | operator r => exact .inl rfl
  | reconcileMetrics => exact .inl (congrArg World.policies (answerRead_world _ _ _))
  | deletePolicy name =>
    simp only [answer]
    split
    · exact .inl rfl
    · rcases answerWrite_world _ _ _ with heq | heq
      · exact .inl (congrArg World.policies heq)
      · exact .inr ⟨h, name, congrArg World.policies heq⟩
  | applyPolicy np => exact h.elim
  | getStatus kafka => exact .inl (congrArg World.policies (answerRead_world _ _ _))
  | patchStatus kafka conditions =>
    simp only [answer]
    rcases answerWrite_world _ _ _ with heq | heq
    · exact .inl (by rw [heq])
    · exact .inl (by rw [heq])

/-! ## Passes -/

section Passes

variable {pass : Pass} {choices : List Choice} {w : World}

theorem finish_pass : History.finish (Event.exec lib) (.pass pass choices) w =
    ((reconcileInner lib pass).run answer choices w).2 :=
  (Prog.run_eq_getLastD _ _ _).symm

/-- No pass without `spec.networkPolicy` brings a policy into being. -/
theorem finish_absent (hunset : pass.base.kafka.spec.networkPolicy = none) {name : String}
    (hw : w.policies[name]? = none) :
    (History.finish (Event.exec lib) (.pass pass choices) w).policies[name]? = none := by
  rw [finish_pass]
  refine (reconcileInner_makes hunset).run_invariant (I := fun b : World => b.policies[name]? = none)
    (fun a r c hr ha => ?_) hw choices
  rcases answer_unpoliced hr c a with heq | ⟨-, name', heq⟩
  · rw [heq]
    exact ha
  · rw [heq, Std.ExtTreeMap.getElem?_erase, ha, ite_self]

/-- A pass whose status knows of no policy leaves all policies. -/
theorem finish_policies (hunset : pass.base.kafka.spec.networkPolicy = none)
    (hstatus : wasRendered pass.status = false) :
    (History.finish (Event.exec lib) (.pass pass choices) w).policies = w.policies := by
  rw [finish_pass]
  refine (reconcileInner_makes hunset).run_invariant (I := fun b : World => b.policies = w.policies)
    (fun a r c hr ha => ?_) rfl choices
  rcases answer_unpoliced hr c a with heq | ⟨hrendered, -⟩
  · exact heq.trans ha
  · rw [hstatus] at hrendered
    cases hrendered

/-- All requests of a pass are answered, and it ends without an error. -/
def Completes (lib : ClusterCa.CaLib) (pass : Pass) (choices : List Choice) (w : World) : Prop :=
  ((reconcileInner lib pass).run answer choices w).1 = .done () ∧
    ∀ c ∈ choices, c.fault = .none

/-- A completed pass whose status knows of the policy has come to its last phase and
    deleted the policy, or has ended early and left it. -/
theorem finish_settled (hunset : pass.base.kafka.spec.networkPolicy = none)
    (hstatus : wasRendered pass.status = true) (hdone : Completes lib pass choices w) :
    Settled pass.base.kafka.name w
      ((reconcileInner lib pass).run (Prog.logged answer) choices (w, [])).2 := by
  obtain ⟨hrun, hfaults⟩ := hdone
  have hclocks : (choices.map (·.clock)).map (fun clock => ({ clock } : Choice)) = choices := by
    rw [List.map_map]
    refine (List.map_congr_left fun c hc => ?_).trans (List.map_id _)
    have hfault := hfaults c hc
    cases c
    cases hfault
    rfl
  have hsame := (Prog.run_logged answer (reconcileInner lib pass) choices w []).1
  have hvia := Prog.run_via (Prog.logged answer)
    (fun clock => ({ clock } : Choice)) (reconcileInner lib pass)
    (choices.map (·.clock)) (w, [])
  rw [hclocks] at hvia
  have hend : (reconcileInner lib pass).run faultless (choices.map (·.clock)) (w, []) =
      (.done (), ((reconcileInner lib pass).run (Prog.logged answer) choices (w, [])).2) :=
    hvia.trans (Prod.ext (hsame.trans hrun) rfl)
  exact (reconcileInner_settles hunset hstatus w).run_done hend () rfl

end Passes

/-! ## Runs -/

namespace Sample

open ClusterCa

def start : World := { store := Cluster.Sample.start }

/-- A pass over the cluster `demo` with the status that is stored. -/
def pass (policy : Option NetworkPolicySpec) (w : World) : Pass where
  base := { Cluster.Sample.pass [] with
    kafka := { Kafka.minimal "demo" with spec := { networkPolicy := policy } } }
  status := w.conditions["demo"]?.getD []

/-- It is answered without a fault for its first `n` requests and stops then. -/
def passFor (policy : Option NetworkPolicySpec) (n : Nat) (w : World) : Event :=
  .pass (pass policy w) (List.replicate n {})

/-- A pass that applies the policy and patches the status. -/
def policed : World := History.finish (Event.exec SampleLib.lib) (passFor (some {}) 60 start) start

/-- The same pass, up to the apply. -/
def crashed : World := History.finish (Event.exec SampleLib.lib) (passFor (some {}) 32 start) start

theorem completes_replicate {policy : Option NetworkPolicySpec} {n : Nat} {w : World}
    (h : ((reconcileInner SampleLib.lib (pass policy w)).run answer (List.replicate n {}) w).1 =
      .done ()) : Completes SampleLib.lib (pass policy w) (List.replicate n {}) w :=
  ⟨h, fun c hc => by rw [List.eq_of_mem_replicate hc]⟩

end Sample

end Network
