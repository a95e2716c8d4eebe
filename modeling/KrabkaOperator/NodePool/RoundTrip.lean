-- SUMMARY: The identity of a pool read back from what is rendered for it, and the changes that the topology checks report.
import KrabkaOperator.NodePool.Reconcile
import KrabkaOperator.NodePool.Topology

/-!
# Identity round trip

The first node id and the roles of a pool are rendered into annotations of the StatefulSet
and of its pods. The operator writes them after the user's metadata, and the reader looks at
them first.
-/

namespace NodePool

open Kube Crd

variable {check : KafkaNodePool → Except (String × String) Unit} {pool : KafkaNodePool}
  {start : Int} {mask : RoleMask}

/-! ## Reading back -/

/-- What a pool shows. -/
def poolIdentity (pool : KafkaNodePool) : PoolIdentity :=
  (some pool.spec.nodeIdStart, some (roleMask pool.spec.roles))

theorem parseRoleMask_name (h : mask.nonempty = some mask) : parseRoleMask mask.name = some mask := by
  obtain ⟨broker, controller⟩ := mask
  cases broker <;> cases controller
  · cases h
  · decide
  · decide
  · decide

/-- The mask of a role list says which roles are in it. -/
theorem roleMask_eq_iff {roles roles' : List NodeRole} :
    roleMask roles = roleMask roles' ↔ ∀ role, role ∈ roles ↔ role ∈ roles' := by
  simp only [roleMask, RoleMask.mk.injEq, decide_eq_decide]
  constructor
  · rintro ⟨hbroker, hcontroller⟩ role
    cases role with
    | broker => exact hbroker
    | controller => exact hcontroller
  · intro h
    exact ⟨h .broker, h .controller⟩

theorem nonempty_roleMask {roles : List NodeRole} (h : roles ≠ []) :
    (roleMask roles).nonempty = some (roleMask roles) := by
  obtain ⟨role, rest, rfl⟩ := List.exists_cons_of_ne_nil h
  cases role <;> simp [RoleMask.nonempty, roleMask]

theorem roles_of_validate (h : validate check pool = .ok ()) : pool.spec.roles ≠ [] := by
  unfold validate at h
  exact (Checks.guard_eq_ok.mp h).1

theorem parseI32_nodeIdStart (h : validate check pool = .ok ()) :
    Decimal.parseI32 (toString pool.spec.nodeIdStart) = some pool.spec.nodeIdStart := by
  obtain ⟨-, hlow, hhigh⟩ := validate_nodes h
  refine Decimal.parseI32_toString ?_
  unfold maxNodeId at hhigh
  omega

theorem observedStatefulsetIdentity_of_annotations {sts : StatefulSet}
    (h : validate check pool = .ok ())
    (hstart : sts.annotations[ nodeIdStartAnnotation]? = some (toString pool.spec.nodeIdStart))
    (hroles : sts.annotations[ processRolesAnnotation]? = some (roleMask pool.spec.roles).name) :
    observedStatefulsetIdentity sts = poolIdentity pool := by
  have hmask := parseRoleMask_name (nonempty_roleMask (roles_of_validate h))
  simp only [observedStatefulsetIdentity, poolIdentity, hstart, hroles, Option.some_or,
    Option.bind_eq_bind, Option.bind_some, parseI32_nodeIdStart h, hmask]

theorem observedPodIdentity_of_annotations {pod : Pod} (h : validate check pool = .ok ())
    (hstart : pod.annotations[ nodeIdStartAnnotation]? = some (toString pool.spec.nodeIdStart))
    (hroles : pod.annotations[ processRolesAnnotation]? = some (roleMask pool.spec.roles).name) :
    observedPodIdentity pod = poolIdentity pool := by
  have hmask := parseRoleMask_name (nonempty_roleMask (roles_of_validate h))
  simp only [observedPodIdentity, poolIdentity, hstart, hroles, Option.some_or,
    Option.bind_eq_bind, Option.bind_some, parseI32_nodeIdStart h, hmask]

/-! ## What is rendered -/

/-- The live StatefulSet of a rendered one has the rendered annotations. -/
def LiveFrom (rendered live : StatefulSet) : Prop :=
  ∀ key value : String, rendered.annotations[key]? = some value →
    live.annotations[key]? = some value

/-- A pod that a StatefulSet makes has the annotations of the template. -/
def CreatedFrom (sts : StatefulSet) (pod : Pod) : Prop :=
  ∀ spec ∈ sts.spec, ∀ key value : String, spec.templateAnnotations[key]? = some value →
    pod.annotations[key]? = some value

variable (parent : Parent) (pass : PoolPass)

theorem renderStatefulset_start :
    (renderStatefulset parent pass).annotations[ nodeIdStartAnnotation]? =
      some (toString pass.pool.spec.nodeIdStart) := by
  simp [renderStatefulset, BTreeMap.getElem?_ofList, nodeIdStartAnnotation, processRolesAnnotation,
    List.lookup_cons]

theorem renderStatefulset_roles :
    (renderStatefulset parent pass).annotations[ processRolesAnnotation]? =
      some (roleMask pass.pool.spec.roles).name := by
  simp [renderStatefulset, BTreeMap.getElem?_ofList, processRolesAnnotation]

theorem renderPodAnnotations_start :
    (renderPodAnnotations pass)[ nodeIdStartAnnotation]? =
      some (toString pass.pool.spec.nodeIdStart) := by
  rw [renderPodAnnotations, Std.ExtTreeMap.getElem?_insert, if_neg (by decide),
    Std.ExtTreeMap.getElem?_insert_self]

theorem renderPodAnnotations_roles :
    (renderPodAnnotations pass)[ processRolesAnnotation]? =
      some (roleMask pass.pool.spec.roles).name := by
  rw [renderPodAnnotations, Std.ExtTreeMap.getElem?_insert_self]

variable {parent pass}

theorem observedStatefulsetIdentity_rendered (h : validate check pass.pool = .ok ())
    {live : StatefulSet} (hlive : LiveFrom (renderStatefulset parent pass) live) :
    observedStatefulsetIdentity live = poolIdentity pass.pool :=
  observedStatefulsetIdentity_of_annotations h (hlive _ _ (renderStatefulset_start parent pass))
    (hlive _ _ (renderStatefulset_roles parent pass))

theorem observedPodIdentity_created (h : validate check pass.pool = .ok ()) {pod : Pod}
    (hpod : CreatedFrom (renderStatefulset parent pass) pod) :
    observedPodIdentity pod = poolIdentity pass.pool :=
  observedPodIdentity_of_annotations h (hpod _ rfl _ _ (renderPodAnnotations_start pass))
    (hpod _ rfl _ _ (renderPodAnnotations_roles pass))

/-! ## Changes that are reported -/

/-- An error that reports the identity of the pool as changed. -/
def IsChangeOf (name : String) : PoolValidationError → Prop
  | .nodeIdStartChanged pool _ _ => pool = name
  | .rolesChanged pool _ _ => pool = name
  | _ => False

theorem not_isChangeOf_of_nodeIdEnd {replicas : Int} {e : PoolValidationError} {name : String}
    (h : nodeIdEndForReplicas pool replicas = .error e) : ¬ IsChangeOf name e := by
  unfold nodeIdEndForReplicas at h
  split at h
  · split at h
    · cases h
    · cases h
      exact id
  · cases h
    exact id

theorem not_isChangeOf_of_validate {e : PoolValidationError} {name : String}
    (h : validate check pool = .error e) : ¬ IsChangeOf name e := by
  unfold validate at h
  rcases Checks.guard_eq_error.mp h with ⟨-, rfl⟩ | ⟨-, h⟩
  · exact id
  cases hrole : duplicateRole? [] pool.spec.roles with
  | some role =>
    rw [hrole] at h
    cases h
    exact id
  | none =>
    rw [hrole] at h
    rcases Checks.guard_eq_error.mp h with ⟨-, rfl⟩ | ⟨-, h⟩
    · exact id
    rcases Checks.guard_eq_error.mp h with ⟨-, rfl⟩ | ⟨-, h⟩
    · exact id
    rcases Checks.bind_eq_error.mp h with h | ⟨last, -, h⟩
    · exact not_isChangeOf_of_nodeIdEnd h
    · cases hcheck : check pool with
      | error e' =>
        rw [hcheck] at h
        cases h
        exact id
      | ok u =>
        rw [hcheck] at h
        cases h

variable {statefulsets : List StatefulSet} {pods : List Pod}

/-- A range that is refused for a change is refused for the pool that shows another identity. -/
theorem changed_of_occupiedRange {e : PoolValidationError} {name : String}
    (h : occupiedRange check statefulsets pods pool = .error e) (he : IsChangeOf name e) :
    pool.name = name ∧
      ((∃ start ∈ (observedPoolIdentity pool.name statefulsets pods).1,
          start ≠ pool.spec.nodeIdStart) ∨
        ∃ roles ∈ (observedPoolIdentity pool.name statefulsets pods).2,
          roles ≠ roleMask pool.spec.roles) := by
  unfold occupiedRange at h
  rcases Checks.bind_eq_error.mp h with hvalid | ⟨u, -, h⟩
  · exact absurd he (not_isChangeOf_of_validate hvalid)
  · have hlast {replicas : Int} {f : Int → Except PoolValidationError NodeRange}
        (hf : ∀ last, ∃ range, f last = .ok range)
        (h : (nodeIdEndForReplicas pool replicas >>= f) = .error e) : False := by
      rcases Checks.bind_eq_error.mp h with hlast | ⟨last, -, hok⟩
      · exact not_isChangeOf_of_nodeIdEnd hlast he
      · obtain ⟨range, hrange⟩ := hf last
        rw [hrange] at hok
        cases hok
    generalize observedPoolIdentity pool.name statefulsets pods = identity at h ⊢
    rcases identity with ⟨_ | start, _ | roles⟩
    · exact (hlast (fun last => ⟨_, rfl⟩) h).elim
    · rcases Checks.guard_eq_error.mp h with ⟨hne, rfl⟩ | ⟨-, h⟩
      · exact ⟨he, .inr ⟨roles, rfl, hne⟩⟩
      · exact (hlast (fun last => ⟨_, rfl⟩) h).elim
    · rcases Checks.guard_eq_error.mp h with ⟨hne, rfl⟩ | ⟨-, h⟩
      · exact ⟨he, .inl ⟨start, rfl, hne⟩⟩
      · exact (hlast (fun last => ⟨_, rfl⟩) h).elim
    · rcases Checks.guard_eq_error.mp h with ⟨hne, rfl⟩ | ⟨-, h⟩
      · exact ⟨he, .inl ⟨start, rfl, hne⟩⟩
      · rcases Checks.guard_eq_error.mp h with ⟨hne, rfl⟩ | ⟨-, h⟩
        · exact ⟨he, .inr ⟨roles, rfl, hne⟩⟩
        · exact (hlast (fun last => ⟨_, rfl⟩) h).elim

/-- A changed pool that is valid by itself is refused for the change. -/
theorem occupiedRange_of_changed (hvalid : validate check pool = .ok ())
    (h : (∃ start ∈ (observedPoolIdentity pool.name statefulsets pods).1,
          start ≠ pool.spec.nodeIdStart) ∨
        ∃ roles ∈ (observedPoolIdentity pool.name statefulsets pods).2,
          roles ≠ roleMask pool.spec.roles) :
    ∃ e, occupiedRange check statefulsets pods pool = .error e ∧ IsChangeOf pool.name e := by
  unfold occupiedRange
  rw [hvalid]
  generalize observedPoolIdentity pool.name statefulsets pods = identity at h ⊢
  rcases identity with ⟨_ | start, _ | roles⟩
  · simp at h
  · have hne : roles ≠ roleMask pool.spec.roles := by simpa using h
    exact ⟨_, Checks.guard_eq_error.mpr (.inl ⟨hne, rfl⟩), rfl⟩
  · have hne : start ≠ pool.spec.nodeIdStart := by simpa using h
    exact ⟨_, Checks.guard_eq_error.mpr (.inl ⟨hne, rfl⟩), rfl⟩
  · by_cases hne : start ≠ pool.spec.nodeIdStart
    · exact ⟨_, Checks.guard_eq_error.mpr (.inl ⟨hne, rfl⟩), rfl⟩
    · have hroles : roles ≠ roleMask pool.spec.roles := by
        rcases h with ⟨start', hmem, hstart⟩ | ⟨roles', hmem, hroles⟩
        · cases hmem
          exact absurd hstart hne
        · cases hmem
          exact hroles
      exact ⟨_, Checks.guard_eq_error.mpr
        (.inr ⟨hne, Checks.guard_eq_error.mpr (.inl ⟨hroles, rfl⟩)⟩), rfl⟩

/-! ## The observed pool -/

/-- Two specs of a pool with the same first id and the same roles. -/
def SameIdentity (pool old : KafkaNodePool) : Prop :=
  pool.spec.nodeIdStart = old.spec.nodeIdStart ∧
    ∀ role, role ∈ pool.spec.roles ↔ role ∈ old.spec.roles

theorem poolIdentity_eq_iff {pool old : KafkaNodePool} :
    poolIdentity pool = poolIdentity old ↔ SameIdentity pool old := by
  simp only [poolIdentity, Prod.mk.injEq, Option.some.injEq, roleMask_eq_iff, SameIdentity]

/-- All that is observed of a pool has been made for specs with the identity of `old`, with any
    template, parent and number of replicas. -/
structure ObservedFrom (old : KafkaNodePool) (statefulsets : List StatefulSet)
    (pods : List Pod) : Prop where
  sets : ∀ sts ∈ statefulsets, poolLabelsMatch sts.labels old.name = true →
    ∃ check parent pass, validate check pass.pool = .ok () ∧ SameIdentity pass.pool old ∧
      LiveFrom (renderStatefulset parent pass) sts
  pods : ∀ pod ∈ pods, poolLabelsMatch pod.labels old.name = true →
    ∃ check parent pass, validate check pass.pool = .ok () ∧ SameIdentity pass.pool old ∧
      CreatedFrom (renderStatefulset parent pass) pod

/-- Something of the pool is observed. -/
def Seen (name : String) (statefulsets : List StatefulSet) (pods : List Pod) : Prop :=
  (∃ sts ∈ statefulsets, poolLabelsMatch sts.labels name = true) ∨
    ∃ pod ∈ pods, poolLabelsMatch pod.labels name = true

variable {old : KafkaNodePool}

theorem observedPoolIdentity_of_observedFrom (h : ObservedFrom old statefulsets pods) :
    (¬ Seen old.name statefulsets pods ∧
        observedPoolIdentity old.name statefulsets pods = (none, none)) ∨
      observedPoolIdentity old.name statefulsets pods = poolIdentity old := by
  unfold observedPoolIdentity
  cases hsts : statefulsets.find? fun sts => poolLabelsMatch sts.labels old.name with
  | some sts =>
    have hmatch := List.find?_some hsts
    obtain ⟨check, parent, pass, hvalid, hsame, hlive⟩ :=
      h.sets sts (List.mem_of_find?_eq_some hsts) hmatch
    right
    simp only [Option.map_some, Option.getD_some,
      observedStatefulsetIdentity_rendered hvalid hlive, poolIdentity_eq_iff.mpr hsame]
    rfl
  | none =>
    cases hpod : pods.find? fun pod => poolLabelsMatch pod.labels old.name with
    | some pod =>
      have hmatch := List.find?_some hpod
      obtain ⟨check, parent, pass, hvalid, hsame, hcreated⟩ :=
        h.pods pod (List.mem_of_find?_eq_some hpod) hmatch
      right
      simp only [Option.map_some, Option.getD_some, Option.map_none, Option.getD_none,
        Option.none_or, observedPodIdentity_created hvalid hcreated, poolIdentity_eq_iff.mpr hsame]
    | none =>
      refine .inl ⟨?_, rfl⟩
      rintro (⟨sts, hmem, hmatch⟩ | ⟨pod, hmem, hmatch⟩)
      · exact List.find?_eq_none.mp hsts sts hmem hmatch
      · exact List.find?_eq_none.mp hpod pod hmem hmatch

/-- A pool that shows another identity than its spec asks for has changed. -/
theorem not_sameIdentity_of_observed (h : ObservedFrom old statefulsets pods)
    (hname : pool.name = old.name)
    (hne : (∃ start ∈ (observedPoolIdentity pool.name statefulsets pods).1,
        start ≠ pool.spec.nodeIdStart) ∨
      ∃ roles ∈ (observedPoolIdentity pool.name statefulsets pods).2,
        roles ≠ roleMask pool.spec.roles) : ¬ SameIdentity pool old := by
  intro hsame
  rw [hname] at hne
  rcases observedPoolIdentity_of_observedFrom h with ⟨-, hnone⟩ | hsome
  · simp [hnone] at hne
  · rw [hsome] at hne
    rcases hne with ⟨start, hstart, hne⟩ | ⟨roles, hroles, hne⟩
    · cases hstart
      exact hne hsame.1.symm
    · cases hroles
      exact hne (roleMask_eq_iff.mpr hsame.2).symm

/-- A changed pool of which something is seen shows its old identity. -/
theorem observed_of_not_sameIdentity (h : ObservedFrom old statefulsets pods)
    (hname : pool.name = old.name) (hseen : Seen old.name statefulsets pods)
    (hchanged : ¬ SameIdentity pool old) :
    (∃ start ∈ (observedPoolIdentity pool.name statefulsets pods).1,
        start ≠ pool.spec.nodeIdStart) ∨
      ∃ roles ∈ (observedPoolIdentity pool.name statefulsets pods).2,
        roles ≠ roleMask pool.spec.roles := by
  rw [hname]
  rcases observedPoolIdentity_of_observedFrom h with ⟨hnot, -⟩ | hsome
  · exact absurd hseen hnot
  · rw [hsome]
    by_cases hstart : old.spec.nodeIdStart = pool.spec.nodeIdStart
    · refine .inr ⟨_, rfl, fun hroles => hchanged ⟨hstart.symm, ?_⟩⟩
      exact roleMask_eq_iff.mp hroles.symm
    · exact .inl ⟨_, rfl, hstart⟩

/-- An unchanged pool is not reported as changed. -/
theorem not_isChangeOf_of_sameIdentity {pools : List KafkaNodePool}
    (h : ObservedFrom old statefulsets pods) (hnodup : (pools.map (·.name)).Nodup)
    (hpool : pool ∈ pools) (hname : pool.name = old.name) (hsame : SameIdentity pool old)
    {e : PoolValidationError} (he : validateTopology check pools statefulsets pods = .error e) :
    ¬ IsChangeOf pool.name e := by
  intro hchange
  have hpools : pools ≠ [] := List.ne_nil_of_mem hpool
  unfold validateTopology at he
  rw [if_neg hpools] at he
  rcases Checks.bind_eq_error.mp he with hranges | ⟨ranges, -, he⟩
  · obtain ⟨other, hother, hrange⟩ := Checks.exists_of_mapM_eq_error hranges
    obtain ⟨heq, hne⟩ := changed_of_occupiedRange hrange hchange
    obtain rfl : other = pool := List.inj_on_of_nodup_map hnodup hother hpool heq
    exact not_sameIdentity_of_observed h hname hne hsame
  · rcases Checks.guard_eq_error.mp he with ⟨-, rfl⟩ | ⟨-, he⟩
    · exact hchange
    · split at he
      · cases he
        exact hchange
      · cases he

/-- A changed pool of which something is seen does not pass. -/
theorem validateTopology_ne_ok_of_changed {pools : List KafkaNodePool}
    (h : ObservedFrom old statefulsets pods) (hpool : pool ∈ pools) (hname : pool.name = old.name)
    (hseen : Seen old.name statefulsets pods) (hchanged : ¬ SameIdentity pool old) :
    validateTopology check pools statefulsets pods ≠ .ok () := by
  intro hok
  have hvalid := (validateTopology_eq_ok (List.ne_nil_of_mem hpool)).mp hok
  rcases observed_of_not_sameIdentity h hname hseen hchanged with
    ⟨start, hmem, hne⟩ | ⟨roles, hmem, hne⟩
  · exact hne (hvalid.start pool hpool start hmem)
  · exact hne (hvalid.roles pool hpool roles hmem)

/-- The identity of a valid pool is read back from its StatefulSet and from the pods of that,
    with any metadata of the user. So a pool that keeps its identity is never reported as
    changed, and one that does not is always refused, for that reason if it is valid by
    itself. -/
theorem identity_round_trip {parent : Parent} {pass : PoolPass}
    (h : validate check pass.pool = .ok ()) :
    observedStatefulsetIdentity (renderStatefulset parent pass) =
        (some pass.pool.spec.nodeIdStart, some (roleMask pass.pool.spec.roles)) ∧
      (∀ pod, CreatedFrom (renderStatefulset parent pass) pod →
        observedPodIdentity pod =
          (some pass.pool.spec.nodeIdStart, some (roleMask pass.pool.spec.roles))) ∧
      ∀ pools statefulsets pods, ObservedFrom pass.pool statefulsets pods →
        (pools.map (·.name)).Nodup → ∀ pool ∈ pools, pool.name = pass.pool.name →
          (SameIdentity pool pass.pool → ∀ e,
            validateTopology check pools statefulsets pods = .error e →
              ¬ IsChangeOf pool.name e) ∧
          (Seen pass.pool.name statefulsets pods → ¬ SameIdentity pool pass.pool →
            validateTopology check pools statefulsets pods ≠ .ok () ∧
              (validate check pool = .ok () →
                ∃ e, occupiedRange check statefulsets pods pool = .error e ∧
                  IsChangeOf pool.name e)) := by
  refine ⟨observedStatefulsetIdentity_rendered h fun _ _ => id,
    fun pod hpod => observedPodIdentity_created h hpod,
    fun pools statefulsets pods hfrom hnodup pool hpool hname =>
      ⟨fun hsame e he => ?_, fun hseen hchanged => ⟨?_, fun hvalid => ?_⟩⟩⟩
  · exact not_isChangeOf_of_sameIdentity hfrom hnodup hpool hname hsame he
  · exact validateTopology_ne_ok_of_changed hfrom hpool hname hseen hchanged
  · exact occupiedRange_of_changed hvalid (observed_of_not_sameIdentity hfrom hname hseen hchanged)

namespace Sample

/-- A pool whose template carries the annotations and labels of the operator with other values. -/
def forgingPass : PoolPass where
  pool := nodes "a" 3 2 [.broker]
  podLabels := BTreeMap.ofList [("krabka.io/controller-role", "true")]
  podAnnotations := BTreeMap.ofList [( nodeIdStartAnnotation, "7"),
    ( processRolesAnnotation, "controller")]

def forgingSts : StatefulSet := renderStatefulset { name := "demo" } forgingPass

end Sample

open Sample in
/-- The values of the user do not show, and a change of the roles is noticed. -/
theorem identity_round_trip_forging :
    observedStatefulsetIdentity forgingSts = (some 3, some ⟨true, false⟩) ∧
      validateTopology (fun _ => .ok ()) [nodes "a" 3 2 [.controller]] [forgingSts] [] ≠
        .ok () := by
  have hvalid : validate (fun _ => .ok ()) forgingPass.pool = .ok () := by decide
  have hround := @identity_round_trip (fun _ => .ok ()) { name := "demo" } forgingPass hvalid
  have hfrom : ObservedFrom forgingPass.pool [forgingSts] [] :=
    { sets sts hsts _ := by
        obtain rfl := List.mem_singleton.mp hsts
        exact ⟨fun _ => .ok (), { name := "demo" }, forgingPass, hvalid,
          ⟨rfl, fun role => Iff.rfl⟩, fun _ _ => id⟩
      pods pod hpod := absurd hpod List.not_mem_nil }
  refine ⟨hround.1, ((hround.2.2 [nodes "a" 3 2 [.controller]] [forgingSts] [] hfrom (by decide)
    (nodes "a" 3 2 [.controller]) List.mem_cons_self rfl).2 (.inl ⟨forgingSts, ?_, ?_⟩) ?_).1⟩
  · exact List.mem_cons_self
  · decide
  · exact fun hsame => absurd ((hsame.2 .controller).mp (by decide)) (by decide)

end NodePool
