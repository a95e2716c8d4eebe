-- SUMMARY: The config hash of a Kafka: the canonical listener intent, the hashed segments and the rollout hash.
import KrabkaOperator.ClusterCa.Library
import KrabkaOperator.Crd.Kafka
import Mathlib.Data.List.Sort

/-!
# Config hash

A pool rolls when its config hash changes. The hash covers a text that is put
together from segments of the spec and of the CA material. Texts are lists of
characters.
-/

namespace Config

open Crd ClusterCa

/-- The decimal text of a number. -/
def intText (n : Int) : List Char := (toString n).toList

def boolText (b : Bool) : List Char := (toString b).toList

/-- A line of a text. -/
def line (s : List Char) : List Char := s ++ ['\n']

/-- The text for an optional value, empty without one. -/
def optText {α : Type} (o : Option α) (f : α → List Char) : List Char :=
  match o with
  | none => []
  | some a => f a

/-! ## Listener intent -/

def listenerTypeText : ListenerType → List Char
  | .internal => "Internal".toList
  | .nodeport => "Nodeport".toList
  | .loadbalancer => "Loadbalancer".toList
  | .ingress => "Ingress".toList
  | .route => "Route".toList

def bootstrapIntent (b : BootstrapConfig) : List Char :=
  optText b.nodePort (fun np => line ("  bootstrap.nodePort=".toList ++ intText np)) ++
  optText b.loadBalancerIp fun ip => line ("  bootstrap.loadBalancerIP=".toList ++ ip.toList)

def overrideIntent (o : BrokerOverride) : List Char :=
  let broker := "  broker".toList ++ intText o.broker
  optText o.advertisedHost (fun h => line (broker ++ ".advertisedHost=".toList ++ h.toList)) ++
  optText o.advertisedPort (fun p => line (broker ++ ".advertisedPort=".toList ++ intText p)) ++
  optText o.nodePort (fun np => line (broker ++ ".nodePort=".toList ++ intText np)) ++
  optText o.loadBalancerIp fun ip => line (broker ++ ".loadBalancerIP=".toList ++ ip.toList)

/-- The overrides in the order of their brokers. -/
def sortedOverrides (overrides : List BrokerOverride) : List BrokerOverride :=
  overrides.insertionSort fun a b => a.broker ≤ b.broker

def configurationIntent (cfg : ListenerConfiguration) : List Char :=
  optText cfg.bootstrap bootstrapIntent ++ (sortedOverrides cfg.brokers).flatMap overrideIntent

def listenerIntent (l : Listener) : List Char :=
  line ("listener:name=".toList ++ l.name.toList ++ ",port=".toList ++ intText l.port ++
    ",type=".toList ++ listenerTypeText l.type ++ ",tls=".toList ++ boolText l.tls) ++
  optText l.configuration configurationIntent

/-- Serializes the intent of `spec.listeners`. No listeners give the empty text. -/
def canonicalListenerIntent (listeners : List Listener) (interBrokerListenerName : Option String) :
    List Char :=
  if listeners = [] then []
  else
    optText interBrokerListenerName (fun name => line ("inter_broker=".toList ++ name.toList)) ++
    listeners.flatMap listenerIntent

/-! ## Segments -/

/-- The `[runtime]` section of the tuning, empty when no field is set. -/
def renderRuntimeToml (tuning : BrokerTuning) : List Char :=
  let values := tuning.fields.flatMap fun (field, value) =>
    line (field.toList ++ " = ".toList ++ value.toList)
  if values = [] then [] else "[runtime]\n".toList ++ values ++ ['\n']

def configPart (config : Option (Kube.BTreeMap String)) : List Char :=
  optText config fun m => m.toList.flatMap fun (k, v) => line (k.toList ++ ['='] ++ v.toList)

def metricsPart (metrics : Option MetricsConfig) : List Char :=
  optText metrics fun _ => "metrics=on".toList

variable (lib : CaLib)

/-- Truncated SHA-256 hex digest of a text. -/
def configHash (content : List Char) : String := String.ofList ((lib.sha256 content).toList.take 16)

/-- Mixes the served leaf certificates into the hash. -/
def rolloutConfigHash (baseHash : String) (leafMaterial : List Char) : String :=
  configHash lib (baseHash.toList ++ ['\x1E'] ++ leafMaterial)

/-- The text that the combined hash covers. It is the bare config segment when all
    other segments are empty. -/
def combinedConfigText (spec : KafkaSpec) (clusterCaCertPem : Option Pem)
    (metadataVersionPin loggingFilter : Option String) : List Char :=
  let config := configPart spec.config
  let intent := canonicalListenerIntent spec.listeners spec.interBrokerListenerName
  let metrics := metricsPart spec.metricsConfig
  let ca := clusterCaCertPem.getD []
  let metadata := optText metadataVersionPin String.toList
  let logging := optText loggingFilter String.toList
  let runtime := optText spec.brokerTuning renderRuntimeToml
  if intent = [] ∧ metrics = [] ∧ ca = [] ∧ metadata = [] ∧ logging = [] ∧ runtime = [] then config
  else
    config ++ ['\x1F'] ++ intent ++ ['\x1F'] ++ metrics ++ ['\x1F'] ++ ca ++ ['\x1F'] ++ metadata ++
      ['\x1F'] ++ logging ++ ['\x1F'] ++ runtime

def combinedConfigHash (spec : KafkaSpec) (clusterCaCertPem : Option Pem)
    (metadataVersionPin loggingFilter : Option String) : String :=
  configHash lib (combinedConfigText spec clusterCaCertPem metadataVersionPin loggingFilter)

end Config
