-- SUMMARY: The replication health of the brokers of a pool: whose metrics are read, and when these are the pool's own pods.
import KrabkaOperator.Base.Checks
import KrabkaOperator.Base.Decimal
import KrabkaOperator.Base.Separated
import KrabkaOperator.Kube.Objects
import KrabkaOperator.NodePool.Identity

/-!
# Replication health

A pool is ready when each of its brokers reports no offline and no under-replicated
partition. The brokers are found by a prefix of the pod names.
-/

namespace NodePool

open Kube

/-! ## Metrics -/

/-- The lines of a text. A line ends with `\n` or `\r\n`. -/
def lines (s : List Char) : List (List Char) :=
  let pieces := s.splitOn '\n'
  let ended := pieces.dropLast.map fun l => if l.getLast? = some '\r' then l.dropLast else l
  ended ++ (pieces.getLast?.filter (· ≠ [])).toList

/-- What is before and behind the first blank of a line. -/
def splitOnce (line : List Char) : Option (List Char × List Char) :=
  if ' ' ∈ line then some (line.takeWhile (· ≠ ' '), (line.dropWhile (· ≠ ' ')).drop 1) else none

/-- The first value of a gauge that is a number. -/
def prometheusGauge (body name : String) : Option Int :=
  (lines body.toList).findSome? fun line =>
    splitOnce line >>= fun (metric, value) =>
      if metric = name.toList then Decimal.parseSigned (2 ^ 63) (String.ofList value) else none

/-- The gauges that must be zero, each with the reason it gives otherwise. -/
def replicationMetrics : List (String × String) :=
  [("krabka_broker_offline_partitions_count", "OfflinePartitions"),
    ("krabka_broker_under_replicated_partitions", "UnderReplicatedPartitions")]

def classifyReplicationMetric (body broker metric reason : String) :
    Except (String × String) Unit :=
  match prometheusGauge body metric with
  | some value =>
    if value = 0 then .ok ()
    else .error (reason, "broker " ++ broker ++ " reports " ++ metric ++ "=" ++ toString value)
  | none => .error ("ReplicationHealthUnknown",
      "broker " ++ broker ++ " does not publish " ++ metric)

def classifyReplicationMetrics (body broker : String) : Except (String × String) Unit :=
  replicationMetrics.forM fun (metric, reason) =>
    classifyReplicationMetric body broker metric reason

/-! ## The pods that are asked -/

/-- A pod with the address it has got. -/
structure AddressedPod extends Pod where
  podIp : Option String

/-- Why the metrics of a broker cannot be read. -/
inductive FetchError where
  | request (error : String)
  | response (error : String)
  | body (error : String)
  deriving DecidableEq, Repr

def FetchError.message (address : String) : FetchError → String
  | request error => "broker " ++ address ++ " metrics request failed: " ++ error
  | response error => "broker " ++ address ++ " metrics response failed: " ++ error
  | body error => "broker " ++ address ++ " metrics body failed: " ++ error

def metricsPort : Int := 9404

def metricsUrl (address : String) : String :=
  "http://" ++ address ++ ":" ++ toString metricsPort ++ "/metrics"

/-- The addresses of the pods whose name starts with the name of the StatefulSet and a dash. -/
def replicationAddresses (pods : List AddressedPod) (statefulset : String) : List String :=
  (pods.filter fun pod => (statefulset ++ "-").toList.isPrefixOf pod.name.toList).filterMap (·.podIp)

/-- The replicas as a `usize`. -/
def addressCount (replicas : Int) : Nat := if 0 ≤ replicas then replicas.toNat else 2 ^ 64 - 1

def waitingForAddresses (replicas : Int) : String × String :=
  ("ReplicationHealthUnknown",
    "waiting for metrics addresses from all " ++ toString replicas ++ " broker pods")

/-- Reads the metrics of one broker. -/
def brokerMetrics (fetch : String → Except FetchError String) (address : String) :
    Except (String × String) Unit :=
  match fetch (metricsUrl address) with
  | .error error => .error ("ReplicationHealthUnknown", error.message address)
  | .ok body => classifyReplicationMetrics body address

/-- The health of the brokers of a StatefulSet. `fetch` reads a URL. -/
def brokerReplicationHealth (fetch : String → Except FetchError String)
    (pods : List AddressedPod) (statefulset : String) (replicas : Int) :
    Except (String × String) Unit :=
  let addresses := replicationAddresses pods statefulset
  if addresses.length ≠ addressCount replicas then .error (waitingForAddresses replicas)
  else addresses.forM (brokerMetrics fetch)

/-! ## The pool's own pods -/

/-- The pods that a StatefulSet makes have its name, a dash and an ordinal. -/
def IsPodOf (statefulset name : String) : Prop :=
  ∃ ordinal : Nat, name = statefulset ++ "-" ++ toString ordinal

/-- Reads the ordinal in the name of a pod of the StatefulSet. -/
def podOrdinal (statefulset name : String) : Option Nat :=
  stripPre (statefulset ++ "-") name >>= fun rest =>
    (Decimal.parseDigits rest.toList).filter fun ordinal => rest = toString ordinal

theorem stripPre_eq_some {pre s rest : String} : stripPre pre s = some rest ↔ s = pre ++ rest := by
  constructor
  · unfold stripPre
    intro h
    split at h
    · rename_i hpre
      obtain ⟨l, hl⟩ := List.isPrefixOf_iff_prefix.mp hpre
      cases h
      rw [← String.toList_inj, String.toList_append, ← hl]
      simp
    · cases h
  · rintro rfl
    exact stripPre_append pre rest

theorem isSome_podOrdinal {statefulset name : String} :
    (podOrdinal statefulset name).isSome ↔ IsPodOf statefulset name := by
  simp only [Option.isSome_iff_exists, podOrdinal, Option.bind_eq_bind, Option.bind_eq_some_iff,
    stripPre_eq_some, Option.filter_eq_some_iff, decide_eq_true_eq]
  constructor
  · rintro ⟨ordinal, rest, rfl, -, rfl⟩
    exact ⟨ordinal, rfl⟩
  · rintro ⟨ordinal, rfl⟩
    refine ⟨ordinal, toString ordinal, rfl, ?_, rfl⟩
    rw [show (toString ordinal).toList = Nat.toDigits 10 ordinal from Nat.toList_repr]
    exact Decimal.parseDigits_toDigits ordinal

instance (statefulset name : String) : Decidable (IsPodOf statefulset name) :=
  decidable_of_iff _ isSome_podOrdinal

def ownAddresses (pods : List AddressedPod) (statefulset : String) : List String :=
  (pods.filter fun pod => IsPodOf statefulset pod.name).filterMap (·.podIp)

/-- The health of a pool is that of its own pods. -/
structure LooksAtOwnPods (pods : List AddressedPod) (statefulset : String) : Prop where
  addresses : replicationAddresses pods statefulset = ownAddresses pods statefulset
  /-- Only the metrics of the own pods count. -/
  decided : ∀ fetch fetch' replicas,
    (∀ address ∈ ownAddresses pods statefulset,
      fetch (metricsUrl address) = fetch' (metricsUrl address)) →
    brokerReplicationHealth fetch pods statefulset replicas =
      brokerReplicationHealth fetch' pods statefulset replicas
  /-- A healthy pool is complete, and each of its pods is healthy. -/
  healthy : ∀ fetch replicas, brokerReplicationHealth fetch pods statefulset replicas = .ok () →
    (ownAddresses pods statefulset).length = addressCount replicas ∧
      ∀ address ∈ ownAddresses pods statefulset, brokerMetrics fetch address = .ok ()
  /-- A complete pool does not wait. -/
  complete : ∀ fetch replicas, (ownAddresses pods statefulset).length = addressCount replicas →
    brokerReplicationHealth fetch pods statefulset replicas ≠ .error (waitingForAddresses replicas)

/-- Each pod with an address whose name starts like those of the StatefulSet is one of its
    pods. -/
def OnlyOwnPrefix (pods : List AddressedPod) (statefulset : String) : Prop :=
  ∀ pod ∈ pods, pod.podIp.isSome → (statefulset ++ "-").toList <+: pod.name.toList →
    IsPodOf statefulset pod.name

instance (pods : List AddressedPod) (statefulset : String) :
    Decidable (OnlyOwnPrefix pods statefulset) :=
  inferInstanceAs (Decidable (∀ pod ∈ pods, _ → _ → _))

theorem IsPodOf.starts {statefulset name : String} (h : IsPodOf statefulset name) :
    (statefulset ++ "-").toList <+: name.toList := by
  obtain ⟨ordinal, rfl⟩ := h
  simp [String.toList_append]

/-- Keeping more entries changes the collected values just when one more entry has a value. -/
theorem filterMap_filter_eq_iff {α β : Type} {p q : α → Bool} {f : α → Option β}
    (hqp : ∀ x, q x = true → p x = true) (xs : List α) :
    (xs.filter p).filterMap f = (xs.filter q).filterMap f ↔
      ∀ x ∈ xs, (f x).isSome → p x = true → q x = true := by
  induction xs with
  | nil => simp
  | cons x xs ih =>
    rw [List.forall_mem_cons, ← ih]
    by_cases hq : q x = true
    · simp only [List.filter_cons, hqp x hq, hq, if_true, List.filterMap_cons]
      cases f x <;> simp
    · by_cases hp : p x = true
      · cases hf : f x with
        | none => simp [hp, hq, hf]
        | some b =>
          -- The shorter list has no value for `x`.
          refine iff_of_false (fun heq => ?_) (fun h => hq (h.1 rfl hp))
          have hle : (xs.filter q).Sublist (xs.filter p) :=
            List.monotone_filter_right xs fun x => hqp x
          have := (hle.filterMap f).length_le
          have := congrArg List.length heq
          simp only [List.filter_cons, hp, hq, if_true, List.filterMap_cons, hf, List.length_cons,
            Bool.false_eq_true, if_false] at this
          omega
      · simp [hp, hq]

theorem isPrefixOf_starts {statefulset name : String} :
    (statefulset ++ "-").toList.isPrefixOf name.toList = true ↔
      (statefulset ++ "-").toList <+: name.toList :=
  List.isPrefixOf_iff_prefix

theorem replicationAddresses_eq_iff {pods : List AddressedPod} {statefulset : String} :
    replicationAddresses pods statefulset = ownAddresses pods statefulset ↔
      OnlyOwnPrefix pods statefulset := by
  unfold replicationAddresses ownAddresses OnlyOwnPrefix
  rw [filterMap_filter_eq_iff fun pod hown => ?_]
  · simp only [isPrefixOf_starts, decide_eq_true_eq]
  · exact isPrefixOf_starts.mpr (of_decide_eq_true hown).starts

/-! ## Outcomes -/

theorem classifyReplicationMetric_starts {body broker metric reason : String}
    {error : String × String}
    (h : classifyReplicationMetric body broker metric reason = .error error) :
    error.2.toList.head? = some 'b' := by
  unfold classifyReplicationMetric at h
  split at h
  · split at h
    · cases h
    · cases h
      simp [String.toList_append]
  · cases h
    simp [String.toList_append]

/-- What is wrong with one broker is told with `broker` first. -/
theorem brokerMetrics_starts {fetch : String → Except FetchError String} {address : String}
    {error : String × String} (h : brokerMetrics fetch address = .error error) :
    error.2.toList.head? = some 'b' := by
  unfold brokerMetrics at h
  split at h
  · rename_i failed _
    cases h
    cases failed <;> simp [FetchError.message, String.toList_append]
  · obtain ⟨entry, -, hentry⟩ := Checks.exists_of_forM_eq_error h
    exact classifyReplicationMetric_starts hentry

theorem brokerReplicationHealth_eq_ok {fetch : String → Except FetchError String}
    {pods : List AddressedPod} {statefulset : String} {replicas : Int} :
    brokerReplicationHealth fetch pods statefulset replicas = .ok () ↔
      (replicationAddresses pods statefulset).length = addressCount replicas ∧
        ∀ address ∈ replicationAddresses pods statefulset, brokerMetrics fetch address = .ok () := by
  unfold brokerReplicationHealth
  by_cases h : (replicationAddresses pods statefulset).length = addressCount replicas
  · rw [if_neg (not_not.mpr h), Checks.forM_eq_ok]
    exact ⟨fun hall => ⟨h, hall⟩, And.right⟩
  · simp [h]

theorem brokerReplicationHealth_ne_waiting {fetch : String → Except FetchError String}
    {pods : List AddressedPod} {statefulset : String} {replicas : Int}
    (h : (replicationAddresses pods statefulset).length = addressCount replicas) :
    brokerReplicationHealth fetch pods statefulset replicas ≠
      .error (waitingForAddresses replicas) := by
  intro hwait
  unfold brokerReplicationHealth at hwait
  rw [if_neg (not_not.mpr h)] at hwait
  obtain ⟨address, -, haddress⟩ := Checks.exists_of_forM_eq_error hwait
  have hhead := brokerMetrics_starts haddress
  rw [show (waitingForAddresses replicas).2.toList.head? = some 'w' by
    simp [waitingForAddresses, String.toList_append]] at hhead
  exact absurd hhead (by decide)

/-- The health of a pool is that of its own pods just when no other pod with an address has a
    name that starts with the name of the StatefulSet and a dash. -/
theorem looksAtOwnPods_iff {pods : List AddressedPod} {statefulset : String} :
    LooksAtOwnPods pods statefulset ↔ OnlyOwnPrefix pods statefulset := by
  constructor
  · intro h
    exact replicationAddresses_eq_iff.mp h.addresses
  · intro h
    have haddresses := replicationAddresses_eq_iff.mpr h
    refine ⟨haddresses, fun fetch fetch' replicas hsame => ?_, fun fetch replicas hok => ?_,
      fun fetch replicas hlen => ?_⟩
    · have hmetrics : (ownAddresses pods statefulset).forM (brokerMetrics fetch) =
          (ownAddresses pods statefulset).forM (brokerMetrics fetch') := by
        refine Checks.forM_congr fun address haddress => ?_
        simp only [brokerMetrics, hsame address haddress]
      simp only [brokerReplicationHealth, haddresses, hmetrics]
    · rw [← haddresses]
      exact brokerReplicationHealth_eq_ok.mp hok
    · exact brokerReplicationHealth_ne_waiting (haddresses ▸ hlen)

namespace Sample

def healthyMetrics : String :=
  "krabka_broker_offline_partitions_count 0\nkrabka_broker_under_replicated_partitions 0\n"

def addressedPod (name ip : String) : AddressedPod :=
  { name, labels := ∅, annotations := ∅, spec := none, podIp := some ip }

/-- One pod of the pool `a` and one of the pool `a-b`. -/
def siblingPods : List AddressedPod :=
  [addressedPod "c-a-0" "10.0.0.1", addressedPod "c-a-b-0" "10.0.0.2"]

end Sample

open Sample in
/-- The pod of the sibling makes a complete pool wait, and stands in for a missing pod of a pool
    of two. -/
theorem sibling_pods_counted :
    ¬ LooksAtOwnPods siblingPods "c-a" ∧ ownAddresses siblingPods "c-a" = ["10.0.0.1"] ∧
      brokerReplicationHealth (fun _ => .ok healthyMetrics) siblingPods "c-a" 1 =
        .error (waitingForAddresses 1) ∧
      brokerReplicationHealth (fun _ => .ok healthyMetrics) siblingPods "c-a" 2 = .ok () :=
  ⟨fun h => absurd h.addresses (by decide), by decide, by decide,
    by decide⟩

/-! ## Pods of StatefulSets -/

theorem ordinal_has_no_dash (ordinal : Nat) (r s : String) : toString ordinal ≠ r ++ "-" ++ s := by
  intro h
  have hmem : '-' ∈ (toString ordinal).toList := by simp [h, String.toList_append]
  rw [show (toString ordinal).toList = Nat.toDigits 10 ordinal from Nat.toList_repr] at hmem
  exact absurd (Nat.isDigit_of_mem_toDigits (by decide) (by decide) hmem) (by decide)

/-- The pods of a second StatefulSet have the prefix of a first one just when the second name
    is the first one, or extends it by a dash. -/
theorem starts_iff_of_isPodOf {statefulset statefulset' name : String}
    (h : IsPodOf statefulset' name) :
    (statefulset ++ "-").toList <+: name.toList ↔
      statefulset' = statefulset ∨ ∃ r, statefulset' = statefulset ++ "-" ++ r := by
  obtain ⟨ordinal, rfl⟩ := h
  constructor
  · rintro ⟨l, hl⟩
    have heq : statefulset ++ "-" ++ String.ofList l = statefulset' ++ "-" ++ toString ordinal := by
      rw [← String.toList_inj, String.toList_append, String.toList_ofList, hl]
    rcases Separated.dash_eq_dash.mp heq with ⟨rfl, -⟩ | ⟨r, -, hr⟩ | ⟨r, rfl, -⟩
    · exact .inl rfl
    · exact absurd hr (ordinal_has_no_dash ordinal r _)
    · exact .inr ⟨r, rfl⟩
  · rintro (rfl | ⟨r, rfl⟩)
    · simp [String.toList_append]
    · simp [String.toList_append]

/-- Among the pods of StatefulSets, those whose set extends the name of a pool disturb its
    health. -/
theorem onlyOwnPrefix_iff_of_sets {pods : List AddressedPod} {statefulset : String}
    {setOf : AddressedPod → String} (hset : ∀ pod ∈ pods, IsPodOf (setOf pod) pod.name) :
    OnlyOwnPrefix pods statefulset ↔
      ∀ pod ∈ pods, pod.podIp.isSome → ∀ r, setOf pod ≠ statefulset ++ "-" ++ r := by
  constructor
  · intro h pod hpod hip r hr
    obtain ⟨ordinal, hown⟩ := h pod hpod hip
      ((starts_iff_of_isPodOf (hset pod hpod)).mpr (.inr ⟨r, hr⟩))
    obtain ⟨ordinal', hother⟩ := hset pod hpod
    rw [hr, hown] at hother
    rcases Separated.dash_eq_dash.mp hother with ⟨heq, -⟩ | ⟨r', -, hr'⟩ | ⟨r', -, hr'⟩
    · have := congrArg String.length heq
      simp only [String.length_append] at this
      have hdash : "-".length = 1 := rfl
      omega
    · exact ordinal_has_no_dash ordinal' r' _ hr'
    · exact ordinal_has_no_dash ordinal r' _ hr'
  · intro h pod hpod hip hstarts
    rcases (starts_iff_of_isPodOf (hset pod hpod)).mp hstarts with heq | ⟨r, hr⟩
    · exact heq ▸ hset pod hpod
    · exact absurd hr (h pod hpod hip r)

end NodePool
