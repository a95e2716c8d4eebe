-- SUMMARY: The names of the Services and StatefulSets of the clusters of a namespace: when two purposes have one name.
import KrabkaOperator.Base.Separated
import KrabkaOperator.Listeners.Services

/-!
# Names of objects

A name is the name of the cluster and further parts with dashes between them. The parts may
have dashes themselves, so two purposes can have one name.
-/

namespace Listeners

open Crd Kube

/-! ## Purposes -/

/-- A cluster with the names of its pools and the ids of its brokers. -/
structure NamedCluster where
  kafka : Kafka
  pools : List String
  brokerIds : List Int
  nonneg : ∀ id ∈ brokerIds, 0 ≤ id

namespace NamedCluster

variable (c : NamedCluster)

def name : String := c.kafka.name

/-- The external listeners of a cluster. -/
def external : List ExternalListener := externalListeners (effectiveListeners c.kafka.spec)

end NamedCluster

/-- What a Service is for. -/
inductive Purpose where
  | broker (cluster listener : String) (id : Int)
  | bootstrap (cluster listener : String)
  | controllers (cluster : String)
  | headless (cluster : String)
  | metrics (cluster : String)
  deriving DecidableEq, Repr

namespace Purpose

def serviceName : Purpose → String
  | broker cluster listener id => brokerServiceName cluster listener id
  | bootstrap cluster listener => bootstrapServiceName cluster listener
  | controllers cluster => controllerBootstrapServiceName cluster
  | headless cluster => headlessServiceName cluster
  | metrics cluster => metricsServiceName cluster

def cluster : Purpose → String
  | broker cluster _ _ | bootstrap cluster _ | controllers cluster | headless cluster
  | metrics cluster => cluster

/-- The part of the name between the cluster and the last part. -/
def middle : Purpose → String
  | broker _ listener _ | bootstrap _ listener => listener
  | controllers _ => "controller"
  | headless _ | metrics _ => "broker"

def last : Purpose → String
  | broker _ _ id => toString id
  | bootstrap _ _ | controllers _ => "bootstrap"
  | headless _ => "headless"
  | metrics _ => "metrics"

theorem serviceName_eq (p : Purpose) :
    p.serviceName = p.cluster ++ "-" ++ p.middle ++ "-" ++ p.last := by
  cases p with
  | broker => rfl
  | bootstrap cluster listener =>
    simp only [serviceName, bootstrapServiceName, Purpose.cluster, middle, last,
      String.append_assoc]
    rfl
  | controllers cluster =>
    simp only [serviceName, controllerBootstrapServiceName, Purpose.cluster, middle, last,
      String.append_assoc]
    rfl
  | headless cluster =>
    simp only [serviceName, headlessServiceName, Purpose.cluster, middle, last,
      String.append_assoc]
    rfl
  | metrics cluster =>
    simp only [serviceName, metricsServiceName, Purpose.cluster, middle, last,
      String.append_assoc]
    rfl

end Purpose

/-- A Service that is rendered for a purpose of a cluster. -/
inductive RenderedFor (owner : Kafka) (svc : Service) : Purpose → Prop where
  | broker {l id pod} (h : renderBrokerService owner l id pod = .ok svc) :
    RenderedFor owner svc (.broker owner.name l.1.name id)
  | bootstrap {l} (h : renderBootstrapService owner l = .ok svc) :
    RenderedFor owner svc (.bootstrap owner.name l.1.name)
  | controllers (h : renderControllerBootstrapService owner = .ok svc) :
    RenderedFor owner svc (.controllers owner.name)
  | headless (h : renderService owner = .ok svc) : RenderedFor owner svc (.headless owner.name)
  | metrics {labels} (h : renderMetricsService owner labels = .ok svc) :
    RenderedFor owner svc (.metrics owner.name)

theorem RenderedFor.name_eq {owner : Kafka} {svc : Service} {p : Purpose}
    (h : RenderedFor owner svc p) : svc.name = some p.serviceName := by
  cases h with
  | broker h =>
    obtain ⟨ref, -, hsvc⟩ := Checks.bind_eq_ok.mp h
    cases hsvc
    rfl
  | bootstrap h =>
    obtain ⟨ref, -, hsvc⟩ := Checks.bind_eq_ok.mp h
    cases hsvc
    rfl
  | controllers h =>
    obtain ⟨ref, -, hsvc⟩ := Checks.bind_eq_ok.mp h
    cases hsvc
    rfl
  | headless h =>
    obtain ⟨ref, -, hsvc⟩ := Checks.bind_eq_ok.mp h
    cases hsvc
    rfl
  | metrics h =>
    obtain ⟨ref, -, hsvc⟩ := Checks.bind_eq_ok.mp h
    cases hsvc
    rfl

/-- The Services of a cluster. -/
def servicePurposes (c : NamedCluster) : List Purpose :=
  ([.controllers c.name, .headless c.name, .metrics c.name] : List Purpose) ++
    c.external.flatMap fun l =>
      Purpose.bootstrap c.name l.1.name :: c.brokerIds.map (Purpose.broker c.name l.1.name ·)

theorem mem_servicePurposes {c : NamedCluster} {p : Purpose} : p ∈ servicePurposes c ↔
    p = .controllers c.name ∨ p = .headless c.name ∨ p = .metrics c.name ∨
      ∃ l ∈ c.external, p = .bootstrap c.name l.1.name ∨
        ∃ id ∈ c.brokerIds, p = .broker c.name l.1.name id := by
  simp [servicePurposes, eq_comm]

/-- The StatefulSets of a cluster, as the cluster and the pool. -/
def setPurposes (c : NamedCluster) : List (String × String) := c.pools.map fun pool => (c.name, pool)

/-- No two objects of the clusters of a namespace have one name. -/
structure NamesApart (clusters : List NamedCluster) : Prop where
  services : ∀ p ∈ clusters.flatMap servicePurposes, ∀ q ∈ clusters.flatMap servicePurposes,
    p.serviceName = q.serviceName → p = q
  sets : ∀ p ∈ clusters.flatMap setPurposes, ∀ q ∈ clusters.flatMap setPurposes,
    NodePool.statefulSetName p.1 p.2 = NodePool.statefulSetName q.1 q.2 → p = q

/-- No external listener is called `controller`, and where the name of a cluster extends that of
    another one, no listener or pool of the shorter one continues its name as the longer one
    does. -/
structure NamesFree (clusters : List NamedCluster) : Prop where
  controller : ∀ c ∈ clusters, ∀ l ∈ c.external, l.1.name ≠ "controller"
  extended : ∀ c ∈ clusters, ∀ c' ∈ clusters, ∀ r, c'.name = c.name ++ "-" ++ r →
    (∀ l ∈ c.external, l.1.name ≠ r ++ "-" ++ "controller" ∧
      ∀ l' ∈ c'.external, l.1.name ≠ r ++ "-" ++ l'.1.name) ∧
    ∀ pool ∈ c.pools, ∀ pool' ∈ c'.pools, pool ≠ r ++ "-" ++ pool'

/-! ## Reading a name -/

/-- The purposes that the namespace can have. -/
def Purpose.Valid : Purpose → Prop
  | .broker _ _ id => 0 ≤ id
  | _ => True

theorem Purpose.last_has_no_dash {p : Purpose} (h : p.Valid) : '-' ∉ p.last.toList := by
  cases p with
  | broker => exact Decimal.dash_not_mem_toString h
  | bootstrap => simp [last]
  | controllers => simp [last]
  | headless => simp [last]
  | metrics => simp [last]

/-- A number is not one of the fixed words, which start with a letter. -/
theorem toString_ne_of_letter {id : Int} {s : String} {c : Char} (hc : c ∈ s.toList)
    (hdigit : c.isDigit = false) (hsign : c ≠ '-') : toString id ≠ s := by
  rintro rfl
  exact Decimal.not_mem_toString hdigit hsign hc

/-- Two purposes with one name have one last part, and their clusters and middle parts meet. -/
theorem Purpose.of_serviceName_eq {p q : Purpose} (hp : p.Valid) (hq : q.Valid)
    (h : p.serviceName = q.serviceName) : p.last = q.last ∧
      ((p.cluster = q.cluster ∧ p.middle = q.middle) ∨
        (∃ r, p.cluster = q.cluster ++ "-" ++ r ∧ q.middle = r ++ "-" ++ p.middle) ∨
        (∃ r, q.cluster = p.cluster ++ "-" ++ r ∧ p.middle = r ++ "-" ++ q.middle)) := by
  rw [p.serviceName_eq, q.serviceName_eq] at h
  obtain ⟨hstem, hlast⟩ := Separated.eq_of_dash_eq_dash (last_has_no_dash hp) (last_has_no_dash hq) h
  exact ⟨hlast, Separated.dash_eq_dash.mp hstem⟩

theorem Purpose.broker_last_ne {cluster listener : String} {id : Int} {q : Purpose}
    (hq : ∀ cluster' listener' id', q ≠ .broker cluster' listener' id') :
    (broker cluster listener id).last ≠ q.last := by
  cases q with
  | broker cluster' listener' id' => exact absurd rfl (hq cluster' listener' id')
  | bootstrap => exact toString_ne_of_letter (c := 'b') (by simp [last]) (by decide) (by decide)
  | controllers => exact toString_ne_of_letter (c := 'b') (by simp [last]) (by decide) (by decide)
  | headless => exact toString_ne_of_letter (c := 'h') (by simp [last]) (by decide) (by decide)
  | metrics => exact toString_ne_of_letter (c := 'm') (by simp [last]) (by decide) (by decide)

/-- Purposes with the same parts are the same, unless a listener is called `controller`. -/
theorem Purpose.eq_of_parts {p q : Purpose} (hlast : p.last = q.last)
    (hcluster : p.cluster = q.cluster) (hmiddle : p.middle = q.middle)
    (hp : ∀ cluster, p ≠ .bootstrap cluster "controller")
    (hq : ∀ cluster, q ≠ .bootstrap cluster "controller") : p = q := by
  cases p with
  | broker cluster listener id =>
    cases q with
    | broker cluster' listener' id' =>
      obtain rfl : cluster = cluster' := hcluster
      obtain rfl : listener = listener' := hmiddle
      obtain rfl : id = id' := Decimal.toString_injective hlast
      rfl
    | bootstrap => exact absurd hlast (broker_last_ne (by simp))
    | controllers => exact absurd hlast (broker_last_ne (by simp))
    | headless => exact absurd hlast (broker_last_ne (by simp))
    | metrics => exact absurd hlast (broker_last_ne (by simp))
  | bootstrap cluster listener =>
    cases q with
    | broker => exact absurd hlast.symm (broker_last_ne (by simp))
    | bootstrap cluster' listener' =>
      obtain rfl : cluster = cluster' := hcluster
      obtain rfl : listener = listener' := hmiddle
      rfl
    | controllers cluster' =>
      obtain rfl : listener = "controller" := hmiddle
      exact absurd rfl (hp cluster)
    | headless => simp [last] at hlast
    | metrics => simp [last] at hlast
  | controllers cluster =>
    cases q with
    | broker => exact absurd hlast.symm (broker_last_ne (by simp))
    | bootstrap cluster' listener' =>
      obtain rfl : "controller" = listener' := hmiddle
      exact absurd rfl (hq cluster')
    | controllers cluster' =>
      obtain rfl : cluster = cluster' := hcluster
      rfl
    | headless => simp [last] at hlast
    | metrics => simp [last] at hlast
  | headless cluster =>
    cases q with
    | broker => exact absurd hlast.symm (broker_last_ne (by simp))
    | bootstrap => simp [last] at hlast
    | controllers => simp [last] at hlast
    | headless cluster' =>
      obtain rfl : cluster = cluster' := hcluster
      rfl
    | metrics => simp [last] at hlast
  | metrics cluster =>
    cases q with
    | broker => exact absurd hlast.symm (broker_last_ne (by simp))
    | bootstrap => simp [last] at hlast
    | controllers => simp [last] at hlast
    | headless => simp [last] at hlast
    | metrics cluster' =>
      obtain rfl : cluster = cluster' := hcluster
      rfl

/-! ## The purposes of a cluster -/

variable {c c' : NamedCluster} {p q : Purpose}

theorem cluster_of_mem (hp : p ∈ servicePurposes c) : p.cluster = c.name := by
  rcases mem_servicePurposes.mp hp with rfl | rfl | rfl | ⟨l, -, rfl | ⟨id, -, rfl⟩⟩ <;> rfl

theorem valid_of_mem (hp : p ∈ servicePurposes c) : p.Valid := by
  rcases mem_servicePurposes.mp hp with rfl | rfl | rfl | ⟨l, -, rfl | ⟨id, hid, rfl⟩⟩
  · trivial
  · trivial
  · trivial
  · trivial
  · exact c.nonneg id hid

/-- A middle part with a dash is the name of an external listener. -/
theorem exists_listener_of_dash (hp : p ∈ servicePurposes c) (hdash : '-' ∈ p.middle.toList) :
    (∃ l ∈ c.external, p.middle = l.1.name) ∧
      (p.last = "bootstrap" ∨ ∃ id : Int, p.last = toString id) := by
  rcases mem_servicePurposes.mp hp with rfl | rfl | rfl | ⟨l, hl, rfl | ⟨id, -, rfl⟩⟩
  · exact absurd hdash (by simp [Purpose.middle])
  · exact absurd hdash (by simp [Purpose.middle])
  · exact absurd hdash (by simp [Purpose.middle])
  · exact ⟨⟨l, hl, rfl⟩, .inl rfl⟩
  · exact ⟨⟨l, hl, rfl⟩, .inr ⟨id, rfl⟩⟩

/-- A purpose whose last part is `bootstrap` or a number has a listener, or is the one of the
    controllers. -/
theorem middle_of_last (hp : p ∈ servicePurposes c)
    (hlast : p.last = "bootstrap" ∨ ∃ id : Int, p.last = toString id) :
    p.middle = "controller" ∨ ∃ l ∈ c.external, p.middle = l.1.name := by
  rcases mem_servicePurposes.mp hp with rfl | rfl | rfl | ⟨l, hl, rfl | ⟨id, -, rfl⟩⟩
  · exact .inl rfl
  · rcases hlast with h | ⟨id, h⟩
    · simp [Purpose.last] at h
    · exact absurd h.symm (toString_ne_of_letter (c := 'h') (by simp [Purpose.last]) (by decide)
        (by decide))
  · rcases hlast with h | ⟨id, h⟩
    · simp [Purpose.last] at h
    · exact absurd h.symm (toString_ne_of_letter (c := 'm') (by simp [Purpose.last]) (by decide)
        (by decide))
  · exact .inr ⟨l, hl, rfl⟩
  · exact .inr ⟨l, hl, rfl⟩

/-! ## When names are apart -/

variable {clusters : List NamedCluster}

theorem name_ne_extended {s r : String} : s ≠ s ++ "-" ++ r := by
  intro h
  have hlen := congrArg String.length h
  simp only [String.length_append] at hlen
  have hdash : "-".length = 1 := rfl
  omega

theorem ne_bootstrap_controller (hfree : NamesFree clusters) (hc : c ∈ clusters)
    (hp : p ∈ servicePurposes c) (cluster : String) : p ≠ .bootstrap cluster "controller" := by
  rintro rfl
  rcases mem_servicePurposes.mp hp with h | h | h | ⟨l, hl, h | ⟨id, -, h⟩⟩
  · cases h
  · cases h
  · cases h
  · exact hfree.controller c hc l hl (congrArg Purpose.middle h).symm
  · cases h

/-- A purpose of a longer cluster name is apart from those of the shorter one. -/
theorem extended_apart (hfree : NamesFree clusters) (hc : c ∈ clusters) (hc' : c' ∈ clusters)
    (hp : p ∈ servicePurposes c) (hq : q ∈ servicePurposes c') (hlast : p.last = q.last)
    {r : String} (hname : c'.name = c.name ++ "-" ++ r) : p.middle ≠ r ++ "-" ++ q.middle := by
  intro hmiddle
  obtain ⟨⟨l, hl, heq⟩, hp'⟩ := exists_listener_of_dash hp (by simp [hmiddle, String.toList_append])
  obtain ⟨hcontroller, hlisteners⟩ := (hfree.extended c hc c' hc' r hname).1 l hl
  rw [heq] at hmiddle
  rcases middle_of_last hq (hlast ▸ hp') with hq' | ⟨l', hl', hq'⟩
  · exact hcontroller (hq' ▸ hmiddle)
  · exact hlisteners l' hl' (hq' ▸ hmiddle)

theorem services_apart (hfree : NamesFree clusters) (hc : c ∈ clusters) (hc' : c' ∈ clusters)
    (hp : p ∈ servicePurposes c) (hq : q ∈ servicePurposes c')
    (h : p.serviceName = q.serviceName) : p = q := by
  obtain ⟨hlast, hparts⟩ := Purpose.of_serviceName_eq (valid_of_mem hp) (valid_of_mem hq) h
  rw [cluster_of_mem hp, cluster_of_mem hq] at hparts
  rcases hparts with ⟨hname, hmiddle⟩ | ⟨r, hname, hmiddle⟩ | ⟨r, hname, hmiddle⟩
  · refine Purpose.eq_of_parts hlast ?_ hmiddle (ne_bootstrap_controller hfree hc hp)
      (ne_bootstrap_controller hfree hc' hq)
    rw [cluster_of_mem hp, cluster_of_mem hq, hname]
  · exact absurd hmiddle (extended_apart hfree hc' hc hq hp hlast.symm hname)
  · exact absurd hmiddle (extended_apart hfree hc hc' hp hq hlast hname)

theorem sets_apart (hfree : NamesFree clusters) (hc : c ∈ clusters) (hc' : c' ∈ clusters)
    {s t : String × String} (hs : s ∈ setPurposes c) (ht : t ∈ setPurposes c')
    (h : NodePool.statefulSetName s.1 s.2 = NodePool.statefulSetName t.1 t.2) : s = t := by
  obtain ⟨pool, hpool, rfl⟩ := List.mem_map.mp hs
  obtain ⟨pool', hpool', rfl⟩ := List.mem_map.mp ht
  rcases Separated.dash_eq_dash.mp h with ⟨hname, hpools⟩ | ⟨r, hname, hpools⟩ | ⟨r, hname, hpools⟩
  · exact Prod.ext hname hpools
  · exact absurd hpools ((hfree.extended c' hc' c hc r hname).2 pool' hpool' pool hpool)
  · exact absurd hpools ((hfree.extended c hc c' hc' r hname).2 pool hpool pool' hpool')

theorem bootstrap_mem (hc : c ∈ clusters) {l : ExternalListener} (hl : l ∈ c.external) :
    .bootstrap c.name l.1.name ∈ clusters.flatMap servicePurposes :=
  List.mem_flatMap.mpr ⟨c, hc, mem_servicePurposes.mpr (.inr (.inr (.inr ⟨l, hl, .inl rfl⟩)))⟩

theorem controllers_mem (hc : c ∈ clusters) :
    .controllers c.name ∈ clusters.flatMap servicePurposes :=
  List.mem_flatMap.mpr ⟨c, hc, mem_servicePurposes.mpr (.inl rfl)⟩

/-- Two purposes have one name when the middle part of the one continues its cluster to that of
    the other. -/
theorem serviceName_of_extended {r : String} (hlast : p.last = q.last)
    (hcluster : q.cluster = p.cluster ++ "-" ++ r) (hmiddle : p.middle = r ++ "-" ++ q.middle) :
    p.serviceName = q.serviceName := by
  rw [p.serviceName_eq, q.serviceName_eq, hlast, hcluster, hmiddle]
  simp only [String.append_assoc]

/-- The objects of the clusters of a namespace have names of their own just when no external
    listener is called `controller` and no listener or pool of a cluster continues its name to
    that of a listener, the controllers or a pool of another one. -/
theorem namesApart_iff : NamesApart clusters ↔ NamesFree clusters := by
  constructor
  · intro h
    refine ⟨fun c hc l hl heq => ?_, fun c hc c' hc' r hname =>
      ⟨fun l hl => ⟨fun heq => ?_, fun l' hl' heq => ?_⟩, fun pool hpool pool' hpool' heq => ?_⟩⟩
    · have hsame := h.services _ (bootstrap_mem hc hl) _ (controllers_mem hc) (by
        simp only [Purpose.serviceName_eq, Purpose.cluster, Purpose.middle, Purpose.last, heq])
      cases hsame
    · have hsame := h.services _ (bootstrap_mem hc hl) _ (controllers_mem hc')
        (serviceName_of_extended rfl hname heq)
      cases hsame
    · have hsame := h.services _ (bootstrap_mem hc hl) _ (bootstrap_mem hc' hl')
        (serviceName_of_extended rfl hname heq)
      have hcluster := congrArg Purpose.cluster hsame
      exact name_ne_extended (hcluster.trans hname)
    · have hmem {d : NamedCluster} {pool : String} (hd : d ∈ clusters) (hpool : pool ∈ d.pools) :
          (d.name, pool) ∈ clusters.flatMap setPurposes :=
        List.mem_flatMap.mpr ⟨d, hd, List.mem_map_of_mem hpool⟩
      have hsame := h.sets _ (hmem hc hpool) _ (hmem hc' hpool') (by
        simp only [NodePool.statefulSetName, heq, hname, String.append_assoc])
      exact name_ne_extended ((congrArg Prod.fst hsame).trans hname)
  · intro hfree
    refine ⟨fun p hp q hq h => ?_, fun s hs t ht h => ?_⟩
    · obtain ⟨c, hc, hp⟩ := List.mem_flatMap.mp hp
      obtain ⟨c', hc', hq⟩ := List.mem_flatMap.mp hq
      exact services_apart hfree hc hc' hp hq h
    · obtain ⟨c, hc, hs⟩ := List.mem_flatMap.mp hs
      obtain ⟨c', hc', ht⟩ := List.mem_flatMap.mp ht
      exact sets_apart hfree hc hc' hs ht h

namespace Sample

/-- A cluster with one external listener and one pool. -/
def namedCluster (name listener pool : String) : NamedCluster where
  kafka := { Kafka.minimal name with spec := { listeners :=
    [{ name := "plain", port := 9094, type := .internal },
      { name := listener, port := 9095, type := .nodeport }] } }
  pools := [pool]
  brokerIds := [0]
  nonneg := by decide

end Sample

open Sample in
/-- A listener called `controller` has the bootstrap Service of the controllers, and a cluster
    `a` has Services and StatefulSets of a cluster `a-b`. -/
theorem names_collide :
    ((validateSpecListeners (fun _ => true) (namedCluster "a" "controller" "p").kafka.spec = .ok () ∧
        ¬ NamesApart [namedCluster "a" "controller" "p"]) ∧
      bootstrapServiceName "a" "controller" = controllerBootstrapServiceName "a") ∧
    (validateSpecListeners (fun _ => true) (namedCluster "a" "b-c" "b-p").kafka.spec = .ok () ∧
        validateSpecListeners (fun _ => true) (namedCluster "a-b" "c" "p").kafka.spec = .ok () ∧
        ¬ NamesApart [namedCluster "a" "b-c" "b-p", namedCluster "a-b" "c" "p"]) ∧
      bootstrapServiceName "a" "b-c" = bootstrapServiceName "a-b" "c" ∧
      NodePool.statefulSetName "a" "b-p" = NodePool.statefulSetName "a-b" "p" := by
  refine ⟨⟨⟨by decide, fun h => ?_⟩, by decide⟩,
    ⟨by decide, by decide, fun h => ?_⟩, by decide, by decide⟩
  · exact absurd (h.services (.bootstrap "a" "controller") (by decide) (.controllers "a")
      (by decide) (by decide)) (by decide)
  · exact absurd (h.services (.bootstrap "a" "b-c") (by decide) (.bootstrap "a-b" "c")
      (by decide) (by decide)) (by decide)

end Listeners
