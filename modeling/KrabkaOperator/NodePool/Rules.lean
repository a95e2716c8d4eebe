-- SUMMARY: Proof rules for the requests of the pool controller, and which of them leave the StatefulSets.
import KrabkaOperator.NodePool.Reconcile

/-!
# Rules for the requests

The rules are stated for runs that keep their dialogue, so that a later request
can be tied to what an earlier one has read.
-/

namespace NodePool

open Kube Crd Operator

/-- A state of the world with the dialogue of the pass so far. -/
abbrev Logged := World × Prog.Dialogue Resp

/-! ## Kinds of requests -/

/-- What a request may change: nothing, a status, what a drain changes, the voters, what
    belongs to the life of a pool, or StatefulSets. -/
inductive ReqKind where
  | read
  | status
  | drain
  | voter
  | life
  | sets
  deriving DecidableEq, Repr

def Req.kind : Req → ReqKind
  | .patchStatus _ _ => .status
  | .getRebalance _ | .applyRebalance _ | .commandRebalance _ _ | .unregisterBroker _
  | .annotateUnregistered _ _ => .drain
  | .removeRaftVoter _ => .voter
  | .setFinalizers _ _ | .deleteRebalance _ => .life
  | .applyStatefulSet _ | .scaleToZero _ => .sets
  | _ => .read

/-- The world after a request that is carried out. -/
def Req.done (r : Req) (w : World) : World := (answer r {} w).2

/-- A request is carried out or changes nothing. -/
theorem answer_cases (r : Req) (c : Choice) (w : World) :
    (answer r c w).2 = w ∨ (answer r c w).2 = r.done w := by
  obtain ⟨fault, clock⟩ := c
  cases fault with
  | none => cases r <;> exact .inr rfl
  | refused => cases r <;> exact .inl rfl
  | lost => cases r <;> exact .inr rfl

theorem answer_read {r : Req} (h : r.kind = .read) (c : Choice) (w : World) :
    (answer r c w).2 = w := by
  have hdone : r.done w = w := by
    cases r with
    | getKafka _ | listPools _ | listStatefulSets _ | listPods _ | getStatefulSet _
    | describePartitionAssignments | listPartitionReassignments | describeMetadataQuorum
    | effect _ => rfl
    | _ => cases h
  rcases answer_cases r c w with heq | heq
  · exact heq
  · exact heq.trans hdone

/-- Every request of the program has one of the kinds. -/
abbrev MakesKinds {α : Type} (K : List ReqKind) (p : Op α) : Prop :=
  Prog.Makes (fun r => r.kind ∈ K) p

section Makes

variable {K : List ReqKind} {α β : Type} {pool : String}

theorem makes_kube {R : Req → Prop} {x : Except KubeError α} : Prog.Makes R (kube x : Op α) := by
  cases x <;> trivial

theorem makes_map {R : Req → Prop} {p : Op α} {f : α → β} (h : Prog.Makes R p) :
    Prog.Makes R (f <$> p) :=
  h.bind fun _ => trivial

theorem makes_pure {R : Req → Prop} {a : α} : Prog.Makes R (pure a : Op α) := trivial

section Status

variable (hs : ReqKind.status ∈ K)
include hs

theorem patchStatusForPool_makes {cond : Condition} :
    MakesKinds K (patchStatusForPool pool cond) :=
  Prog.makes_request hs fun _ => makes_kube

theorem patchBrokerDrainCondition_makes {reason message : String} :
    MakesKinds K (some <$> patchBrokerDrainCondition pool reason message) :=
  makes_map ((patchStatusForPool_makes hs).bind fun _ => makes_pure)

end Status

variable (hq : ReqKind.read ∈ K)
include hq

theorem effect_makes {e : Effect} : MakesKinds K (effect e) :=
  Prog.makes_request hq fun _ => makes_kube

theorem getKafka_makes {name : String} : MakesKinds K (getKafka name) :=
  Prog.makes_request hq fun _ => makes_kube

theorem getStatefulSet_makes {name : String} : MakesKinds K (getStatefulSet name) :=
  Prog.makes_request hq fun _ => makes_kube

theorem listPools_makes {cluster : String} : MakesKinds K (listPools cluster) :=
  Prog.makes_request hq fun _ => makes_kube

theorem listStatefulSets_makes {cluster : String} : MakesKinds K (listStatefulSets cluster) :=
  Prog.makes_request hq fun _ => makes_kube

theorem listPods_makes {cluster : String} : MakesKinds K (listPods cluster) :=
  Prog.makes_request hq fun _ => makes_kube

theorem describeMetadataQuorum_makes : MakesKinds K describeMetadataQuorum :=
  Prog.makes_request hq fun _ => makes_kube

theorem ensureDirectoryIds_makes (ids : List Int) : MakesKinds K (ensureDirectoryIds ids) := by
  induction ids with
  | nil => trivial
  | cons id ids ih => exact (effect_makes hq).bind fun _ => ih

theorem evaluatePoolReadiness_makes {pass : PoolPass} {parent : Parent} {reason message : String} :
    MakesKinds K (evaluatePoolReadiness pass parent reason message) := by
  unfold evaluatePoolReadiness
  refine Prog.makes_ite trivial ?_
  refine Prog.Makes.bind ?_ fun health => ?_
  · exact Prog.makes_ite ((effect_makes hq).bind fun _ => makes_pure) makes_pure
  cases health with
  | error e => trivial
  | ok _ =>
    refine Prog.makes_ite trivial ((effect_makes hq).attempt.bind fun address => ?_)
    cases address with
    | error e => trivial
    | ok _ =>
      refine (effect_makes hq).attempt.bind fun client => ?_
      cases client with
      | error e => trivial
      | ok _ =>
        refine (describeMetadataQuorum_makes hq).attempt.bind fun read => ?_
        cases read with
        | error e => trivial
        | ok quorum => exact Prog.makes_ite trivial trivial

theorem reportPool_makes (hs : ReqKind.status ∈ K) {pass : PoolPass} {parent : Parent} :
    MakesKinds K (reportPool pass parent) := by
  unfold reportPool
  refine (Prog.makes_when (effect_makes hq)).bind fun _ => ?_
  refine (getStatefulSet_makes hq).bind fun live => ?_
  refine (evaluatePoolReadiness_makes hq).bind fun condition => ?_
  refine (Prog.makes_when (effect_makes hq)).bind fun _ => ?_
  exact Prog.Makes.bind (Prog.makes_request hs fun _ => makes_kube) fun _ => makes_pure

omit hq in
theorem dropFinalizer_makes (hd : ReqKind.drain ∈ K) (hl : ReqKind.life ∈ K) {cluster : String}
    {pool : KafkaNodePool} {pods : List Pod} {roles : RoleMask} :
    MakesKinds K (dropFinalizer cluster pool pods roles) := by
  unfold dropFinalizer
  refine Prog.makes_ite trivial ?_
  refine Prog.Makes.bind (Prog.makes_when ?_) fun _ => ?_
  · refine Prog.Makes.bind (Prog.makes_request hd fun _ => makes_kube) fun found => ?_
    cases found with
    | none => trivial
    | some obj => exact Prog.makes_request hl fun _ => makes_kube
  · exact Prog.Makes.bind (Prog.makes_request hl fun _ => makes_kube) fun _ => makes_pure

/-! ### The drain -/

section Drain

variable (hs : ReqKind.status ∈ K) (hd : ReqKind.drain ∈ K)
include hs hd

omit hq hs in
theorem commandRebalance_makes {name command : String} :
    MakesKinds K (commandRebalance name command) :=
  Prog.makes_request hd fun _ => makes_kube

omit hq in
theorem awaitProposal_makes {name : String} {rebalance : KafkaRebalance} {brokers : List Int} :
    MakesKinds K (awaitProposal pool name rebalance brokers) := by
  unfold awaitProposal
  split
  · exact (commandRebalance_makes hd).bind fun _ => patchBrokerDrainCondition_makes hs
  · exact patchBrokerDrainCondition_makes hs
  · exact patchBrokerDrainCondition_makes hs
  · exact patchBrokerDrainCondition_makes hs
  · exact patchBrokerDrainCondition_makes hs
  · exact Prog.makes_ite (patchBrokerDrainCondition_makes hs) trivial

theorem checkRemoved_makes {pool : KafkaNodePool} {name : String} {rebalance : KafkaRebalance}
    {brokers : List Int} : MakesKinds K (checkRemoved pool name rebalance brokers) := by
  unfold checkRemoved
  refine (effect_makes hq).bind fun _ => (effect_makes hq).bind fun _ => ?_
  refine Prog.Makes.bind (Prog.makes_request hq fun _ => makes_kube) fun assignments => ?_
  split
  · refine Prog.Makes.bind ?_ fun _ => patchBrokerDrainCondition_makes hs
    exact Prog.makes_ite trivial (commandRebalance_makes hd)
  · refine Prog.Makes.bind (Prog.makes_request hq fun _ => makes_kube) fun inFlight => ?_
    refine Prog.makes_ite (patchBrokerDrainCondition_makes hs) ?_
    dsimp only
    split
    · refine Prog.Makes.bind (Prog.makes_request hd fun _ => makes_kube) fun _ => ?_
      refine Prog.Makes.bind (Prog.makes_request hd fun _ => makes_kube) fun _ => ?_
      exact patchBrokerDrainCondition_makes hs
    · trivial

theorem reconcileBrokerDrain_makes {pool : KafkaNodePool} {cluster : String}
    {live desired start : Int} :
    MakesKinds K (reconcileBrokerDrain pool cluster live desired start) := by
  unfold reconcileBrokerDrain
  refine Prog.makes_ite trivial ?_
  refine Prog.Makes.bind (Prog.makes_request hd fun _ => makes_kube) fun found => ?_
  cases found with
  | none =>
    refine Prog.Makes.bind (Prog.makes_request hd fun _ => makes_kube) fun _ => ?_
    exact patchBrokerDrainCondition_makes hs
  | some rebalance =>
    refine Prog.makes_ite (patchBrokerDrainCondition_makes hs) ?_
    refine (awaitProposal_makes hs hd).bind fun waited => ?_
    cases waited with
    | some action => trivial
    | none => exact checkRemoved_makes hq hs hd

end Drain

/-! ### The voters -/

section Voters

variable (hs : ReqKind.status ∈ K) (hv : ReqKind.voter ∈ K)
include hs hv

theorem removeNextVoter_makes {first last : Int} :
    MakesKinds K (removeNextVoter pool first last) := by
  unfold removeNextVoter
  refine (effect_makes hq).bind fun _ => (effect_makes hq).bind fun _ => ?_
  refine (effect_makes hq).bind fun _ => (describeMetadataQuorum_makes hq).bind fun quorum => ?_
  split
  · trivial
  · refine Prog.makes_ite ((patchStatusForPool_makes hs).bind fun _ => makes_pure) ?_
    refine (effect_makes hq).bind fun _ => ?_
    refine Prog.Makes.bind (Prog.makes_request hv fun _ => makes_kube) fun _ => ?_
    exact (patchStatusForPool_makes hs).bind fun _ => makes_pure

theorem removeDeletedVoter_makes {start replicas : Int} :
    MakesKinds K (removeDeletedVoter pool start replicas) := by
  unfold removeDeletedVoter
  refine (effect_makes hq).bind fun _ => (effect_makes hq).bind fun _ => ?_
  refine (effect_makes hq).attempt.bind fun client => ?_
  cases client with
  | error e => trivial
  | ok _ =>
    refine (describeMetadataQuorum_makes hq).attempt.bind fun read => ?_
    cases read with
    | error e => trivial
    | ok quorum =>
      dsimp only
      split
      · trivial
      · split
        · trivial
        · refine Prog.makes_ite ((patchStatusForPool_makes hs).bind fun _ => makes_pure) ?_
          refine Prog.Makes.bind (Prog.Makes.attempt
            (Prog.makes_request hv fun _ => makes_kube)) fun removed => ?_
          cases removed <;> trivial

theorem reconcileControllerScaleDown_makes (hd : ReqKind.drain ∈ K) {pool : KafkaNodePool}
    {cluster : String} {observed : Option StatefulSet} :
    MakesKinds K (reconcileControllerScaleDown pool cluster observed) := by
  unfold reconcileControllerScaleDown
  split
  · trivial
  · refine Prog.makes_ite trivial ?_
    refine Prog.Makes.bind ?_ fun drained => ?_
    · exact Prog.makes_ite (reconcileBrokerDrain_makes hq hs hd) makes_pure
    cases drained with
    | some action => trivial
    | none =>
      refine Prog.makes_ite trivial ?_
      split
      · exact removeNextVoter_makes hq hs hv
      · trivial

end Voters

end Makes

section Rules

variable {α : Type} {S : Logged → Req → Logged → Prop} {Q : Except ReconcileError α → Logged → Prop}
  {w : World} {l : Prog.Dialogue Resp}

theorem sat_getKafka {name : String} {k : Option Parent → Op α}
    (hS : ∀ l', S (w, l) (.getKafka name) (w, l'))
    (herr : ∀ e s, Q (.error e) s)
    (hk : Prog.Sat (Prog.logged answer) S Q (k (w.kafkas.find? (·.name = name)))
      (w, l ++ [⟨.getKafka name, .ok (w.kafkas.find? (·.name = name))⟩])) :
    Prog.Sat (Prog.logged answer) S Q (getKafka name >>= k) (w, l) := by
  rintro ⟨_ | _ | _, clock⟩
  · exact ⟨hS _, hk⟩
  · exact ⟨hS _, herr _ _⟩
  · exact ⟨hS _, herr _ _⟩

theorem sat_getStatefulSet {name : String} {k : Option StatefulSet → Op α}
    (hS : ∀ l', S (w, l) (.getStatefulSet name) (w, l'))
    (herr : ∀ e s, Q (.error e) s)
    (hk : Prog.Sat (Prog.logged answer) S Q (k (w.statefulSet? name))
      (w, l ++ [⟨.getStatefulSet name, .ok (w.statefulSet? name)⟩])) :
    Prog.Sat (Prog.logged answer) S Q (getStatefulSet name >>= k) (w, l) := by
  rintro ⟨_ | _ | _, clock⟩
  · exact ⟨hS _, hk⟩
  · exact ⟨hS _, herr _ _⟩
  · exact ⟨hS _, herr _ _⟩

theorem sat_getRebalance {name : String} {k : Option KafkaRebalance → Op α}
    (hS : ∀ l', S (w, l) (.getRebalance name) (w, l'))
    (herr : ∀ e s, Q (.error e) s)
    (hk : ∀ l', Prog.Sat (Prog.logged answer) S Q (k (w.rebalance? name)) (w, l')) :
    Prog.Sat (Prog.logged answer) S Q (getRebalance name >>= k) (w, l) := by
  rintro ⟨_ | _ | _, clock⟩
  · exact ⟨hS _, hk _⟩
  · exact ⟨hS _, herr _ _⟩
  · exact ⟨hS _, herr _ _⟩

theorem sat_describePartitionAssignments {k : List PartitionAssignment → Op α}
    (hS : ∀ l', S (w, l) .describePartitionAssignments (w, l'))
    (herr : ∀ e s, Q (.error e) s)
    (hk : Prog.Sat (Prog.logged answer) S Q (k w.assignments)
      (w, l ++ [⟨.describePartitionAssignments, .ok w.assignments⟩])) :
    Prog.Sat (Prog.logged answer) S Q (describePartitionAssignments >>= k) (w, l) := by
  rintro ⟨_ | _ | _, clock⟩
  · exact ⟨hS _, hk⟩
  · exact ⟨hS _, herr _ _⟩
  · exact ⟨hS _, herr _ _⟩

theorem sat_listPartitionReassignments {k : List PartitionAssignment → Op α}
    (hS : ∀ l', S (w, l) .listPartitionReassignments (w, l'))
    (herr : ∀ e s, Q (.error e) s)
    (hk : Prog.Sat (Prog.logged answer) S Q (k w.reassignments)
      (w, l ++ [⟨.listPartitionReassignments, .ok w.reassignments⟩])) :
    Prog.Sat (Prog.logged answer) S Q (listPartitionReassignments >>= k) (w, l) := by
  rintro ⟨_ | _ | _, clock⟩
  · exact ⟨hS _, hk⟩
  · exact ⟨hS _, herr _ _⟩
  · exact ⟨hS _, herr _ _⟩

theorem sat_describeMetadataQuorum {k : Quorum → Op α}
    (hS : ∀ l', S (w, l) .describeMetadataQuorum (w, l'))
    (herr : ∀ e s, Q (.error e) s)
    (hk : Prog.Sat (Prog.logged answer) S Q (k w.quorum)
      (w, l ++ [⟨.describeMetadataQuorum, .ok w.quorum⟩])) :
    Prog.Sat (Prog.logged answer) S Q (describeMetadataQuorum >>= k) (w, l) := by
  rintro ⟨_ | _ | _, clock⟩
  · exact ⟨hS _, hk⟩
  · exact ⟨hS _, herr _ _⟩
  · exact ⟨hS _, herr _ _⟩

theorem sat_describeMetadataQuorum_attempt {k : Except ReconcileError Quorum → Op α}
    (hS : ∀ l', S (w, l) .describeMetadataQuorum (w, l'))
    (herr : ∀ e s, Prog.Sat (Prog.logged answer) S Q (k (.error e)) s)
    (hk : Prog.Sat (Prog.logged answer) S Q (k (.ok w.quorum))
      (w, l ++ [⟨.describeMetadataQuorum, .ok w.quorum⟩])) :
    Prog.Sat (Prog.logged answer) S Q (describeMetadataQuorum.attempt >>= k) (w, l) := by
  rintro ⟨_ | _ | _, clock⟩
  · exact ⟨hS _, hk⟩
  · exact ⟨hS _, herr _ _⟩
  · exact ⟨hS _, herr _ _⟩

/-- A call that changes nothing. -/
theorem sat_effect {e : Effect} {k : Unit → Op α}
    (hS : ∀ l', S (w, l) (.effect e) (w, l')) (herr : ∀ e s, Q (.error e) s)
    (hk : ∀ l', Prog.Sat (Prog.logged answer) S Q (k ()) (w, l')) :
    Prog.Sat (Prog.logged answer) S Q (effect e >>= k) (w, l) := by
  rintro ⟨_ | _ | _, clock⟩
  · exact ⟨hS _, hk _⟩
  · exact ⟨hS _, herr _ _⟩
  · exact ⟨hS _, herr _ _⟩

theorem sat_effect_attempt {e : Effect} {k : Except ReconcileError Unit → Op α}
    (hS : ∀ l', S (w, l) (.effect e) (w, l'))
    (hk : ∀ x l', Prog.Sat (Prog.logged answer) S Q (k x) (w, l')) :
    Prog.Sat (Prog.logged answer) S Q ((effect e).attempt >>= k) (w, l) := by
  rintro ⟨_ | _ | _, clock⟩
  · exact ⟨hS _, hk _ _⟩
  · exact ⟨hS _, hk _ _⟩
  · exact ⟨hS _, hk _ _⟩

end Rules

/-! ## The numbers -/

theorem mem_intRange {lo hi id : Int} : id ∈ intRange lo hi ↔ lo ≤ id ∧ id < hi := by
  simp only [intRange, List.mem_map, List.mem_range]
  constructor
  · rintro ⟨n, hn, rfl⟩
    omega
  · rintro ⟨hlo, hhi⟩
    exact ⟨(id - lo).toNat, by omega, by omega⟩

/-- The node ids that a pool loses when it shrinks. The largest `i32` is none. -/
def Removed (start live desired id : Int) : Prop :=
  start + desired ≤ id ∧ id < start + live ∧ -(2 ^ 31) ≤ id ∧ id < maxI32

theorem Removed.mem {start live desired id : Int} (h : Removed start live desired id) :
    id ∈ removedBrokerIds start live desired := by
  obtain ⟨hlo, hhi, hmin, hmax⟩ := h
  simp only [removedBrokerIds, mem_intRange, saturatingAdd, maxI32] at *
  omega

/-! ## Lookups -/

theorem find?_map_of_same {α : Type} {l : List α} {P : α → Bool} {g : α → α}
    (h : ∀ a, P (g a) = P a) : (l.map g).find? P = (l.find? P).map g := by
  have hcomp : P ∘ g = P := funext h
  rw [List.find?_map, hcomp]

theorem pool?_updatePool {w : World} {name n : String} {f : KafkaNodePool → KafkaNodePool}
    (hf : ∀ p, (f p).name = p.name) :
    (w.updatePool name f).pool? n =
      (w.pool? n).map fun p => if p.name = name then f p else p := by
  refine find?_map_of_same fun p => ?_
  split
  · rw [hf]
  · rfl

theorem rebalance?_updateRebalance {w : World} {name n : String}
    {f : KafkaRebalance → KafkaRebalance} (hf : ∀ r, (f r).name = r.name) :
    (w.updateRebalance name f).rebalance? n =
      (w.rebalance? n).map fun r => if r.name = name then f r else r := by
  refine find?_map_of_same fun r => ?_
  split
  · rw [hf]
  · rfl

end NodePool
