-- SUMMARY: Runs of all three controllers: Kafka passes, user passes and renewal checks, each of which may stop at any request.
import KrabkaOperator.ClusterCa.Renewal
import KrabkaOperator.Cluster.Run
import KrabkaOperator.User.Pass

/-!
# Activities

Three kinds of programs write the Secrets of a namespace: the passes over a
`Kafka`, the passes over a `KafkaUser`, and the renewal check. A run is a history
of their activities, one after the other.
-/

namespace Cluster

open Kube Crd Operator ClusterCa

inductive Activity where
  | kafka (e : Event)
  | user (pass : User.UserPass) (choices : List Choice)
  | renewal (kafkas : List Kafka) (choices : List Choice)

namespace Activity

variable (lib : CaLib)

/-- The states that an activity passes. -/
def exec : Activity → World → List World
  | .kafka e, w => e.exec lib w
  | .user p choices, w => (User.reconcileInner lib p).after answer choices w
  | .renewal kafkas choices, w => (runRenewalCheck lib kafkas).after answer choices w

/-- The requests of an activity, with the states around them. -/
def trace : Activity → World → List (Prog.Step Req World)
  | .kafka e, w => e.trace lib w
  | .user p choices, w => (User.reconcileInner lib p).trace answer choices w
  | .renewal kafkas choices, w => (runRenewalCheck lib kafkas).trace answer choices w

/-- The `Kafka`s that an activity works with. -/
def kafkas : Activity → List Kafka
  | .kafka (.pass p _) => [p.kafka]
  | .kafka _ => []
  | .user p _ => p.kafka.toList
  | .renewal kafkas _ => kafkas

end Activity

end Cluster
