-- SUMMARY: The errors of the admin client, and the bootstrap address at which the operator reaches the brokers of a ready Kafka.
import KrabkaOperator.Crd.NodePool
import KrabkaOperator.Listeners.Validation

/-!
# The admin client

The controllers of users and topics call the brokers through an admin client. They
take its address from the status of the parent `Kafka`.
-/

namespace Admin

open Crd Listeners

/-- An error that a broker reports for one resource. -/
structure KafkaError where
  code : Int
  name : String
  message : Option String := none
  deriving DecidableEq, Repr

/-- An error of a call: the broker refuses it, or it does not get that far. The text of the
    latter comes from the client. -/
inductive AdminError where
  | broker (api : String) (error : KafkaError)
  | other (transport : Bool) (text : String)
  deriving DecidableEq, Repr

/-- `Op: NAME (code)`, or the text of the client. -/
def AdminError.detail (op : String) : AdminError → String
  | .broker _ e => op ++ ": " ++ e.name ++ " (" ++ toString e.code ++ ")"
  | .other _ text => op ++ ": " ++ text

/-! ## Requeues -/

/-- An extent of time, in nanoseconds. -/
abbrev Time := Int

def secs (n : Int) : Time := n * 1000000000

/-- The requeue times of the operator. -/
structure Config where
  controllerErrorRequeue : Time := secs 15
  controllerDependencyRequeue : Time := secs 30
  controllerDriftRequeue : Time := secs 60
  controllerInvalidRequeue : Time := secs 300
  userTlsDriftRequeue : Time := secs 21600
  delegationTokenInvalidRequeue : Time := secs 3600
  delegationTokenTransientBackoff : Time := secs 300
  delegationTokenMinRequeue : Time := secs 60
  delegationTokenMaxRequeue : Time := secs 86400
  deriving DecidableEq, Repr

inductive Action where
  | awaitChange
  | requeue (after : Time)
  deriving DecidableEq, Repr

/-! ## The parent -/

structure ListenerStatus where
  name : String
  bootstrapServers : String
  deriving DecidableEq, Repr

structure KafkaStatus where
  conditions : List Condition
  listeners : List ListenerStatus
  deriving DecidableEq, Repr

/-- A `Kafka` as a user or a topic sees it. -/
structure Parent where
  kafka : Kafka
  status : Option KafkaStatus

/-- A matching listener, only when the cluster reports `Ready`. -/
def readyListenerBootstrap (parent : Parent) (predicate : ListenerStatus → Bool) : Option String :=
  match parent.status with
  | none => none
  | some status =>
    if (status.conditions.find? (·.type = "Ready")).any (·.status = "True") then
      ((status.listeners.find? predicate).map (·.bootstrapServers)).filter (· ≠ "")
    else
      none

/-- The bootstrap address of the reserved mTLS listener of the operator. -/
def operatorListenerBootstrap (parent : Parent) : Option String :=
  let name := (operatorListener (userListeners parent.kafka.spec)).name
  readyListenerBootstrap parent fun listener => listener.name = name

/-- A `Kafka` with the default spec that reports `Ready`. -/
def Parent.ready (name : String) : Parent where
  kafka := .minimal name
  status := some {
    conditions := [⟨"Ready", "True", "Ready", ""⟩]
    listeners := [⟨operatorListenerName, name ++ "-kafka-internal.default.svc:9091"⟩] }

end Admin
