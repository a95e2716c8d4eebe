-- SUMMARY: The tuning of the brokers: its fields with their kinds, the checks of each and of the relations between them, and its rendering.
import KrabkaOperator.Base.Checks
import KrabkaOperator.Crd.Kafka
import Mathlib.Data.List.Basic
import Mathlib.Algebra.Order.Field.Rat
import Mathlib.Algebra.Order.Field.Basic
import Mathlib.Tactic.NormNum

/-!
# Broker tuning

`spec.brokerTuning` has about 140 optional fields. A field has a name and a kind, and the kind
says what its values are and how they are checked. Some fields are also compared with each
other, where a field that is not set stands for a default.
-/

namespace Tuning

open Crd

/-! ## Values -/

/-- A time in seconds, a size in bytes or a fraction. -/
inductive Measure where
  | finite (value : ℚ)
  | nonFinite
  deriving DecidableEq

namespace Measure

/-- Comparisons are made between finite measures only: each field is checked before. -/
def lt : Measure → Measure → Prop
  | finite a, finite b => a < b
  | _, _ => False

def le : Measure → Measure → Prop
  | finite a, finite b => a ≤ b
  | _, _ => False

instance : LT Measure := ⟨lt⟩
instance : LE Measure := ⟨le⟩

instance : DecidableRel lt
  | finite a, finite b => inferInstanceAs (Decidable (a < b))
  | finite _, nonFinite => isFalse id
  | nonFinite, _ => isFalse id

instance : DecidableRel le
  | finite a, finite b => inferInstanceAs (Decidable (a ≤ b))
  | finite _, nonFinite => isFalse id
  | nonFinite, _ => isFalse id

instance (a b : Measure) : Decidable (a < b) := inferInstanceAs (Decidable (lt a b))
instance (a b : Measure) : Decidable (a ≤ b) := inferInstanceAs (Decidable (le a b))

variable {a b c : Measure}

theorem ne_nonFinite_of_lt (h : a < b) : a ≠ nonFinite ∧ b ≠ nonFinite := by
  cases a with
  | nonFinite => exact h.elim
  | finite a =>
    cases b with
    | nonFinite => exact h.elim
    | finite b => exact ⟨nofun, nofun⟩

theorem not_le (ha : a ≠ nonFinite) (hb : b ≠ nonFinite) : ¬ a ≤ b ↔ b < a := by
  cases a with
  | nonFinite => exact absurd rfl ha
  | finite a =>
    cases b with
    | nonFinite => exact absurd rfl hb
    | finite b => exact Rat.not_le

theorem not_lt (ha : a ≠ nonFinite) (hb : b ≠ nonFinite) : ¬ a < b ↔ b ≤ a := by
  rw [← not_le hb ha, not_not]

theorem lt_of_lt_of_le (hab : a < b) (hbc : b ≤ c) : a < c := by
  cases a with
  | nonFinite => exact hab.elim
  | finite a =>
    cases b with
    | nonFinite => exact hab.elim
    | finite b =>
      cases c with
      | nonFinite => exact hbc.elim
      | finite c => exact (show a < b from hab).trans_le hbc

theorem le_of_lt (h : a < b) : a ≤ b := by
  cases a with
  | nonFinite => exact h.elim
  | finite a =>
    cases b with
    | nonFinite => exact h.elim
    | finite b => exact Rat.le_of_lt h

end Measure

def millis (n : Int) : Measure := .finite (n / 1000)

theorem millis_ne_nonFinite {n : Int} : millis n ≠ .nonFinite := nofun

theorem millis_lt_millis {m n : Int} : millis m < millis n ↔ m < n := by
  change (m : ℚ) / 1000 < (n : ℚ) / 1000 ↔ m < n
  rw [div_lt_div_iff_of_pos_right (by norm_num), Int.cast_lt]

def bytes (n : Nat) : Measure := .finite n

def fraction (q : ℚ) : Measure := .finite q

/-! ## Fields -/

/-- How a measure is checked. -/
inductive MeasureKind where
  | time
  | timeNonnegative
  | timeVoter
  | timeTransactionMax
  | timeI32
  | timeI64
  | sizeI32
  | sizeU32
  | sizeUsize
  | sizeU64
  | sizeSnapshotFetch
  | ratioPositive
  | ratioUnit
  deriving DecidableEq, Repr

inductive Kind where
  | measure (kind : MeasureKind)
  /-- An integer that is not below `least`. -/
  | refined (least : Int)
  | number
  | flag
  | string
  deriving DecidableEq, Repr

/-- The values of a kind. -/
abbrev Kind.Value : Kind → Type
  | measure _ => Measure
  | refined _ | number => Int
  | flag => Bool
  | string => String

structure Field where
  name : String
  kind : Kind
  deriving DecidableEq, Repr

structure MeasureField where
  name : String
  kind : MeasureKind
  deriving DecidableEq, Repr

def MeasureField.field (f : MeasureField) : Field := ⟨f.name, .measure f.kind⟩

structure StringField where
  name : String
  deriving DecidableEq, Repr

def StringField.field (f : StringField) : Field := ⟨f.name, .string⟩

/-- The fields that are set, each with a value of its kind. -/
def TypedTuning : Type := (f : Field) → Option f.kind.Value

namespace TypedTuning

def unset : TypedTuning := fun _ => none

def set (t : TypedTuning) (f : Field) (value : f.kind.Value) : TypedTuning :=
  fun g => if h : f = g then some (h ▸ value) else t g

def measure (t : TypedTuning) (f : MeasureField) : Option Measure := t f.field

def string (t : TypedTuning) (f : StringField) : Option String := t f.field

end TypedTuning

/-! ## The fields that are compared -/

def selfRegistrationBackoffMin : MeasureField := ⟨"self_registration_backoff_min", .time⟩
def selfRegistrationBackoffMax : MeasureField := ⟨"self_registration_backoff_max", .time⟩
def rlmmBootstrapBackoffInitial : MeasureField := ⟨"rlmm_bootstrap_backoff_initial", .time⟩
def rlmmBootstrapBackoffMax : MeasureField := ⟨"rlmm_bootstrap_backoff_max", .time⟩
def replicationFetchMin : MeasureField := ⟨"replication_fetch_min", .sizeI32⟩
def replicationFetchMax : MeasureField := ⟨"replication_fetch_max", .sizeI32⟩
def replicationReconnectInitialDelay : MeasureField := ⟨"replication_reconnect_initial_delay", .time⟩
def replicationReconnectDelayCap : MeasureField := ⟨"replication_reconnect_delay_cap", .time⟩
def heartbeatInterval : MeasureField := ⟨"heartbeat_interval", .time⟩
def heartbeatTimeout : MeasureField := ⟨"heartbeat_timeout", .time⟩
def controllerHeartbeatInterval : MeasureField := ⟨"controller_heartbeat_interval", .time⟩
def controllerElectionTimeout : MeasureField := ⟨"controller_election_timeout", .time⟩
def delegationTokenDefaultRenewPeriod : MeasureField := ⟨"delegation_token_default_renew_period", .timeI64⟩
def delegationTokenMaxLifetime : MeasureField := ⟨"delegation_token_max_lifetime", .timeI64⟩
def clientMetricsEvictionTick : MeasureField := ⟨"client_metrics_eviction_tick", .time⟩
def clientMetricsStaleFloor : MeasureField := ⟨"client_metrics_stale_floor", .time⟩
def uncleanRecoveryAggressiveDeadline : MeasureField := ⟨"unclean_recovery_aggressive_deadline", .time⟩
def uncleanRecoveryBalancedDeadline : MeasureField := ⟨"unclean_recovery_balanced_deadline", .time⟩
def telemetryDecompressedOutputFloor : MeasureField := ⟨"telemetry_decompressed_output_floor", .sizeUsize⟩
def telemetryDecompressedOutputCeiling : MeasureField := ⟨"telemetry_decompressed_output_ceiling", .sizeUsize⟩
def recordDecompressionMaxRatio : MeasureField := ⟨"record_decompression_max_ratio", .ratioPositive⟩
def recordDecompressionOutputFloor : MeasureField := ⟨"record_decompression_output_floor", .sizeU64⟩
def recordDecompressionOutputCeiling : MeasureField := ⟨"record_decompression_output_ceiling", .sizeU64⟩
def transactionMinTimeout : MeasureField := ⟨"transaction_min_timeout", .timeI32⟩
def transactionMaxTimeout : MeasureField := ⟨"transaction_max_timeout", .timeTransactionMax⟩
def consumerGroupMinSessionTimeout : MeasureField := ⟨"consumer_group_min_session_timeout", .time⟩
def consumerGroupMaxSessionTimeout : MeasureField := ⟨"consumer_group_max_session_timeout", .time⟩
def consumerGroupSessionTimeout : MeasureField := ⟨"consumer_group_session_timeout", .time⟩
def consumerGroupMinHeartbeatInterval : MeasureField := ⟨"consumer_group_min_heartbeat_interval", .time⟩
def consumerGroupMaxHeartbeatInterval : MeasureField := ⟨"consumer_group_max_heartbeat_interval", .time⟩
def consumerGroupHeartbeatInterval : MeasureField := ⟨"consumer_group_heartbeat_interval", .time⟩
def shareGroupSessionTimeout : MeasureField := ⟨"share_group_session_timeout", .time⟩
def shareGroupHeartbeatInterval : MeasureField := ⟨"share_group_heartbeat_interval", .time⟩
def streamsGroupSessionTimeout : MeasureField := ⟨"streams_group_session_timeout", .time⟩
def streamsGroupHeartbeatInterval : MeasureField := ⟨"streams_group_heartbeat_interval", .time⟩

def interBrokerServerName : StringField := ⟨"inter_broker_server_name"⟩
def shareGroupIsolationLevel : StringField := ⟨"share_group_isolation_level"⟩
def streamsGroupAssignor : StringField := ⟨"streams_group_assignor"⟩

/-- All fields in the order of the schema. -/
def table : List Field :=
  [⟨"startup_leader_wait_timeout", .measure .time⟩, selfRegistrationBackoffMin.field,
    selfRegistrationBackoffMax.field, ⟨"observer_poll_interval", .measure .time⟩,
    ⟨"audit_spool_replay_interval", .measure .time⟩,
    ⟨"audit_stats_poll_interval", .measure .time⟩,
    ⟨"audit_partition_wait_timeout", .measure .time⟩, ⟨"liveness_tick_interval", .measure .time⟩,
    ⟨"gauge_poll_interval", .measure .time⟩, ⟨"cleaner_interval", .measure .time⟩,
    ⟨"isr_scan_interval", .measure .time⟩, ⟨"future_log_move_retry_backoff", .measure .time⟩,
    clientMetricsEvictionTick.field, clientMetricsStaleFloor.field,
    ⟨"client_metrics_default_interval", .measure .timeI32⟩,
    ⟨"client_metrics_telemetry_max", .measure .sizeI32⟩,
    ⟨"client_metrics_prom_snapshot_ttl", .measure .time⟩,
    ⟨"rlmm_reconcile_tick", .measure .time⟩, rlmmBootstrapBackoffInitial.field,
    rlmmBootstrapBackoffMax.field, ⟨"connection_creation_throttle_max", .measure .time⟩,
    ⟨"opa_http_timeout", .measure .time⟩, ⟨"oauth_jwks_http_timeout", .measure .time⟩,
    ⟨"auto_join_retry_backoff", .measure .time⟩,
    ⟨"auto_join_voter_request_timeout", .measure .timeVoter⟩, replicationFetchMax.field,
    ⟨"replication_fetch_max_wait", .measure .timeI32⟩, replicationFetchMin.field,
    ⟨"replication_throttle_exhausted_backoff", .measure .time⟩,
    ⟨"replication_send_error_backoff", .measure .time⟩,
    ⟨"replication_unknown_topic_retry_delay", .measure .time⟩,
    ⟨"replication_epoch_fence_backoff", .measure .time⟩,
    ⟨"replication_unexpected_error_backoff", .measure .time⟩,
    replicationReconnectInitialDelay.field, replicationReconnectDelayCap.field,
    ⟨"coordinator_session_expiry_tick", .measure .time⟩,
    ⟨"coordinator_shutdown_ack_timeout", .measure .time⟩, consumerGroupSessionTimeout.field,
    consumerGroupHeartbeatInterval.field, consumerGroupMinSessionTimeout.field,
    consumerGroupMaxSessionTimeout.field, consumerGroupMinHeartbeatInterval.field,
    consumerGroupMaxHeartbeatInterval.field, ⟨"consumer_group_max_size", .refined 1⟩,
    ⟨"classic_group_initial_rebalance_delay", .measure .time⟩,
    ⟨"sync_group_follower_wait", .measure .time⟩, uncleanRecoveryAggressiveDeadline.field,
    uncleanRecoveryBalancedDeadline.field, ⟨"operator_recovery_deadline", .measure .time⟩,
    ⟨"quota_throttle_max", .measure .time⟩, ⟨"self_registration_max_attempts", .refined 1⟩,
    ⟨"observer_fetch_max", .measure .sizeU32⟩, ⟨"audit_event_queue_capacity", .refined 1⟩,
    ⟨"audit_tail_window_offsets", .refined 1⟩, ⟨"audit_tail_read_max", .measure .sizeUsize⟩,
    ⟨"offsets_topic_metadata_wait_timeout", .measure .time⟩,
    ⟨"client_metrics_stale_push_intervals", .refined 1⟩,
    ⟨"client_metrics_otlp_queue_capacity", .refined 1⟩,
    ⟨"coordinator_actor_mailbox_capacity", .refined 1⟩,
    ⟨"diskless_wal_local_replica_count", .refined 1⟩,
    ⟨"diskless_wal_flush_interval", .measure .time⟩,
    ⟨"diskless_wal_flush_max_size", .measure .sizeUsize⟩,
    ⟨"diskless_wal_trim_safety_lag", .refined 0⟩,
    ⟨"diskless_wal_index_projection_timeout", .measure .time⟩,
    ⟨"unclean_recovery_queue_capacity", .refined 1⟩,
    ⟨"share_recovery_read_max", .measure .sizeUsize⟩,
    ⟨"share_session_cache_max_when_unlimited", .refined 1⟩,
    ⟨"log_read_buffer_cap", .measure .sizeUsize⟩,
    ⟨"log_timestamp_scan_window", .measure .sizeUsize⟩,
    ⟨"socket_request_max", .measure .sizeU32⟩, ⟨"sendfile_min", .measure .sizeUsize⟩,
    ⟨"socket_send_buffer", .measure .sizeUsize⟩, ⟨"socket_receive_buffer", .measure .sizeUsize⟩,
    ⟨"acl_max_principal", .measure .sizeUsize⟩, ⟨"acl_max_resource_name", .measure .sizeUsize⟩,
    ⟨"telemetry_max_decompression_ratio", .measure .ratioPositive⟩,
    telemetryDecompressedOutputFloor.field, telemetryDecompressedOutputCeiling.field,
    recordDecompressionMaxRatio.field, recordDecompressionOutputFloor.field,
    recordDecompressionOutputCeiling.field, interBrokerServerName.field,
    ⟨"producer_id_expiration", .measure .timeI64⟩,
    ⟨"producer_id_expiration_scan_interval", .measure .time⟩, ⟨"max_produce_group", .refined 1⟩,
    ⟨"partition_writer_queue_depth", .refined 1⟩, ⟨"default_min_insync_replicas", .refined 1⟩,
    ⟨"future_log_move_read_chunk", .measure .sizeUsize⟩,
    ⟨"share_state_num_partitions", .refined 1⟩, ⟨"share_state_replication_factor", .refined 1⟩,
    ⟨"transaction_state_num_partitions", .refined 1⟩,
    ⟨"transaction_recovery_read_max", .measure .sizeUsize⟩,
    ⟨"transaction_state_replication_factor", .refined 1⟩, transactionMinTimeout.field,
    transactionMaxTimeout.field, ⟨"partition_disk_scan_interval", .measure .timeNonnegative⟩,
    ⟨"observer_lag_bound", .number⟩, heartbeatInterval.field, heartbeatTimeout.field,
    ⟨"replica_lag_time_max", .measure .time⟩, controllerElectionTimeout.field,
    controllerHeartbeatInterval.field, ⟨"controller_fetch_miss_limit", .refined 1⟩,
    ⟨"metadata_raft_command_queue_capacity", .refined 1⟩,
    ⟨"metadata_raft_fetch_max", .measure .sizeI32⟩,
    ⟨"controlled_shutdown_drain_timeout", .measure .time⟩,
    ⟨"metadata_max_between_snapshots", .measure .sizeU64⟩,
    ⟨"metadata_max_snapshot_interval", .measure .timeNonnegative⟩,
    ⟨"metadata_snapshot_interval_records", .refined 1⟩,
    ⟨"metadata_snapshot_fetch_max", .measure .sizeSnapshotFetch⟩,
    ⟨"txn_abort_cleanup_interval", .measure .timeNonnegative⟩,
    ⟨"leader_imbalance_check_interval", .measure .time⟩,
    ⟨"leader_imbalance_per_broker", .measure .ratioUnit⟩,
    ⟨"tls_reload_interval", .measure .timeNonnegative⟩,
    ⟨"max_incremental_fetch_session_cache_slots", .number⟩, ⟨"max_connections", .number⟩,
    ⟨"max_connections_per_ip", .number⟩, delegationTokenMaxLifetime.field,
    ⟨"delegation_token_expiry_check_interval", .measure .timeI64⟩,
    delegationTokenDefaultRenewPeriod.field, ⟨"remote_log_manager_interval", .measure .time⟩,
    ⟨"share_group_enable", .flag⟩, shareGroupSessionTimeout.field,
    shareGroupHeartbeatInterval.field, ⟨"share_group_max_size", .refined 1⟩,
    ⟨"share_group_record_lock_duration", .measure .time⟩,
    ⟨"share_group_max_delivery_attempts", .refined 1⟩,
    ⟨"share_group_max_inflight_records", .refined 1⟩, shareGroupIsolationLevel.field,
    ⟨"streams_group_enable", .flag⟩, streamsGroupSessionTimeout.field,
    streamsGroupHeartbeatInterval.field, ⟨"streams_group_max_size", .refined 1⟩,
    ⟨"streams_internal_topic_replication_factor", .refined 1⟩,
    ⟨"streams_group_num_standby_replicas", .refined 0⟩,
    ⟨"streams_group_num_warmup_replicas", .refined 0⟩,
    ⟨"streams_group_acceptable_recovery_lag", .refined 0⟩,
    ⟨"streams_group_task_offset_interval", .measure .time⟩, streamsGroupAssignor.field]

/-! ## Errors -/

/-- `snake_case` as `camelCase`. -/
def camelCase (field : String) : String :=
  match field.toList.splitOn '_' with
  | [] => ""
  | first :: rest => String.ofList (first ++ rest.flatMap fun part =>
      match part with
      | [] => []
      | c :: cs => c.toUpper :: cs)

def path (field : String) : String := "spec.brokerTuning." ++ camelCase field

inductive TuningError where
  | invalid (field error : String)
  | relation (left right message : String)
  | notWithin (value min max : String)
  | decompression (error : String)
  deriving DecidableEq, Repr

def TuningError.text : TuningError → String
  | invalid field error => path field ++ ": " ++ error
  | relation left right message => path left ++ " and " ++ path right ++ ": " ++ message
  | notWithin value min max =>
    path value ++ " must be within " ++ path min ++ " and " ++ path max
  | decompression error => path recordDecompressionMaxRatio.name ++ ", " ++
      path recordDecompressionOutputFloor.name ++ ", and " ++
      path recordDecompressionOutputCeiling.name ++ ": " ++ error

/-! ## Checks of one field -/

/-- Code beyond the operator: conversions to integers, texts, and rules of the brokers. -/
structure Lib where
  millisI64 : Measure → Int
  bytesU64 : Measure → Nat
  human : MeasureKind → Measure → String
  tomlString : String → String
  refinedError : (least value : Int) → String
  emptyStringError : String
  snapshotFetchMax : Measure → Except String Unit
  recordDecompression : (maxRatio floor ceiling : Option Measure) → Except String Unit

abbrev Check := Except TuningError Unit

def ensure (c : Prop) [Decidable c] (e : TuningError) : Check := if c then .ok () else .error e

variable (lib : Lib)

def validateNonnegativeTime (field : String) (value : Measure) : Check :=
  ensure (value ≠ .nonFinite ∧ millis 0 ≤ value) (.invalid field "must be finite and nonnegative")

def validatePositiveTime (field : String) (value : Measure) : Check := do
  validateNonnegativeTime field value
  ensure (millis 0 < value) (.invalid field "must be positive")

def validateWholeMillisTime (field : String) (value : Measure) : Check := do
  validatePositiveTime field value
  ensure (millis (lib.millisI64 value) = value)
    (.invalid field "must be a whole number of milliseconds")

def validateBoundedTime (field : String) (value : Measure) (max : Int) : Check := do
  validateWholeMillisTime lib field value
  ensure (lib.millisI64 value ≤ max) (.invalid field ("must be at most " ++ toString max ++ "ms"))

def validateSize (field : String) (value : Measure) (max : Nat) : Check := do
  ensure (value ≠ .nonFinite ∧ ¬ value ≤ bytes 0 ∧ bytes (lib.bytesU64 value) = value)
    (.invalid field "must be a positive whole number of bytes")
  ensure (lib.bytesU64 value ≤ max)
    (.invalid field ("must be at most " ++ toString max ++ " bytes"))

def validatePositiveRatio (field : String) (value : Measure) : Check :=
  ensure (value ≠ .nonFinite ∧ fraction 0 < value) (.invalid field "must be finite and positive")

def validateUnitIntervalRatio (field : String) (value : Measure) : Check :=
  ensure (value ≠ .nonFinite ∧ fraction 0 ≤ value ∧ value ≤ fraction 1)
    (.invalid field "must be between 0% and 100%")

def maxI32 : Int := 2 ^ 31 - 1

def validateMeasure (field : String) : MeasureKind → Measure → Check
  | .time, value => validatePositiveTime field value
  | .timeNonnegative, value => validateNonnegativeTime field value
  | .timeVoter, value | .timeI32, value => validateBoundedTime lib field value maxI32
  | .timeTransactionMax, value => validateBoundedTime lib field value (maxI32 - 1)
  | .timeI64, value => validateWholeMillisTime lib field value
  | .sizeI32, value => validateSize lib field value maxI32.toNat
  | .sizeU32, value => validateSize lib field value (2 ^ 32 - 1)
  | .sizeUsize, value | .sizeU64, value => validateSize lib field value (2 ^ 64 - 1)
  | .sizeSnapshotFetch, value => (lib.snapshotFetchMax value).mapError (.invalid field)
  | .ratioPositive, value => validatePositiveRatio field value
  | .ratioUnit, value => validateUnitIntervalRatio field value

def validateValue (field : String) : (kind : Kind) → kind.Value → Check
  | .measure kind, value => validateMeasure lib field kind value
  | .refined least, value =>
    ensure (least ≤ value) (.invalid field (lib.refinedError least value))
  | .number, _ | .flag, _ | .string, _ => .ok ()

def validateField (t : TypedTuning) (f : Field) : Check :=
  match t f with
  | none => .ok ()
  | some value => validateValue lib f.name f.kind value

def validateFields (t : TypedTuning) : Check := table.forM (validateField lib t)

/-- A text that is set passes a test. -/
def validateString (t : TypedTuning) (f : StringField) (allowed : String → Bool) (error : String) :
    Check :=
  match t.string f with
  | none => .ok ()
  | some value => ensure (allowed value = true) (.invalid f.name error)

def validateStrings (t : TypedTuning) : Check := do
  validateString t interBrokerServerName (· ≠ "") lib.emptyStringError
  validateString t shareGroupIsolationLevel (· ∈ ["read-uncommitted", "read-committed"])
    "expected `read-uncommitted` or `read-committed`"
  validateString t streamsGroupAssignor (· ∈ ["auto", "sticky", "highly-available"])
    "expected `auto`, `sticky`, or `highly-available`"

/-! ## Relations between fields -/

/-- `left ≤ right`, with defaults. -/
def orderedLe (t : TypedTuning) (left : MeasureField) (leftDefault : Measure)
    (right : MeasureField) (rightDefault : Measure) : Check :=
  ensure (¬ (t.measure right).getD rightDefault < (t.measure left).getD leftDefault)
    (.relation left.name right.name "minimum or initial value exceeds maximum")

/-- `left < right`, with defaults. -/
def orderedLt (t : TypedTuning) (left : MeasureField) (leftDefault : Measure)
    (right : MeasureField) (rightDefault : Measure) : Check :=
  ensure (¬ (t.measure right).getD rightDefault ≤ (t.measure left).getD leftDefault)
    (.relation left.name right.name "left value must be below right value")

/-- `min ≤ value ≤ max`, with defaults. -/
def bounded (t : TypedTuning) (value : MeasureField) (valueDefault : Measure)
    (min : MeasureField) (minDefault : Measure) (max : MeasureField) (maxDefault : Measure) : Check :=
  ensure ((t.measure min).getD minDefault ≤ (t.measure value).getD valueDefault ∧
      (t.measure value).getD valueDefault ≤ (t.measure max).getD maxDefault)
    (.notWithin value.name min.name max.name)

/-- A value between fixed bounds. -/
def within (t : TypedTuning) (value : MeasureField) (min max : Int) : Check :=
  ensure (millis min ≤ (t.measure value).getD (millis min) ∧
      (t.measure value).getD (millis min) ≤ millis max)
    (.invalid value.name ("must be within " ++ toString min ++ "..=" ++ toString max))

def heartbeatRelation (t : TypedTuning) : Check :=
  orderedLt t heartbeatInterval (millis 3000) heartbeatTimeout (millis 9000)

def controllerRelation (t : TypedTuning) : Check :=
  orderedLt t controllerHeartbeatInterval (millis 500) controllerElectionTimeout (millis 5000)

/-- The relations that are checked before the ones of the heartbeats. -/
def earlierRelations (t : TypedTuning) : Check := do
  orderedLe t selfRegistrationBackoffMin (millis 100) selfRegistrationBackoffMax (millis 5000)
  orderedLe t rlmmBootstrapBackoffInitial (millis 250) rlmmBootstrapBackoffMax (millis 10000)
  orderedLe t replicationFetchMin (bytes 1) replicationFetchMax (bytes 1048576)
  orderedLe t replicationReconnectInitialDelay (millis 100) replicationReconnectDelayCap
    (millis 5000)

def validateRecordDecompression (t : TypedTuning) : Check :=
  (lib.recordDecompression (t.measure recordDecompressionMaxRatio)
    (t.measure recordDecompressionOutputFloor)
    (t.measure recordDecompressionOutputCeiling)).mapError .decompression

/-- The relations that are checked after the ones of the heartbeats. -/
def laterRelations (t : TypedTuning) : Check := do
  orderedLe t delegationTokenDefaultRenewPeriod (millis 86400000) delegationTokenMaxLifetime
    (millis 604800000)
  orderedLe t clientMetricsEvictionTick (millis 60000) clientMetricsStaleFloor (millis 600000)
  orderedLe t uncleanRecoveryAggressiveDeadline (millis 2000) uncleanRecoveryBalancedDeadline
    (millis 30000)
  orderedLe t telemetryDecompressedOutputFloor (bytes 16777216) telemetryDecompressedOutputCeiling
    (bytes 1073741824)
  validateRecordDecompression lib t
  orderedLt t transactionMinTimeout (millis 1000) transactionMaxTimeout (millis 900000)
  orderedLe t consumerGroupMinSessionTimeout (millis 45000) consumerGroupMaxSessionTimeout
    (millis 60000)
  bounded t consumerGroupSessionTimeout (millis 45000) consumerGroupMinSessionTimeout
    (millis 45000) consumerGroupMaxSessionTimeout (millis 60000)
  orderedLe t consumerGroupMinHeartbeatInterval (millis 5000) consumerGroupMaxHeartbeatInterval
    (millis 15000)
  bounded t consumerGroupHeartbeatInterval (millis 5000) consumerGroupMinHeartbeatInterval
    (millis 5000) consumerGroupMaxHeartbeatInterval (millis 15000)
  within t shareGroupSessionTimeout 45000 60000
  within t shareGroupHeartbeatInterval 5000 15000
  within t streamsGroupSessionTimeout 45000 60000
  within t streamsGroupHeartbeatInterval 5000 15000

def validateRelations (t : TypedTuning) : Check := do
  earlierRelations t
  heartbeatRelation t
  controllerRelation t
  laterRelations lib t

/-- The checks of a tuning. -/
def validate (t : TypedTuning) : Check := do
  validateFields lib t
  validateStrings lib t
  validateRelations lib t

/-! ## Rendering -/

def renderValue : (kind : Kind) → kind.Value → String
  | .measure kind, value => lib.tomlString (lib.human kind value)
  | .refined _, value | .number, value => toString value
  | .flag, value => toString value
  | .string, value => lib.tomlString value

/-- The lines of the `[runtime]` section. -/
def runtimeFields (t : TypedTuning) : BrokerTuning where
  fields := table.filterMap fun f => (t f).map fun value => (f.name, renderValue lib f.kind value)

/-! ## Errors of the checks -/

theorem ensure_eq_ok {c : Prop} [Decidable c] {e : TuningError} : ensure c e = .ok () ↔ c := by
  unfold ensure
  split <;> simp_all

theorem ensure_eq_error {c : Prop} [Decidable c] {e e' : TuningError} :
    ensure c e = .error e' ↔ ¬ c ∧ e' = e := by
  unfold ensure
  split <;> simp_all [eq_comm]

/-- An error that a check gives for a pair of fields names one of the pairs. -/
def Blames (pairs : List (String × String)) : TuningError → Prop
  | .relation left right _ => (left, right) ∈ pairs
  | _ => True

theorem Blames.mono {pairs pairs' : List (String × String)} {e : TuningError} (h : Blames pairs e)
    (hsub : ∀ pair ∈ pairs, pair ∈ pairs') : Blames pairs' e := by
  cases e with
  | relation left right message => exact hsub _ h
  | invalid => trivial
  | notWithin => trivial
  | decompression => trivial

section Errors

variable {lib : Lib} {t : TypedTuning} {field : String} {value : Measure} {e : TuningError}

/-- A check whose errors name pairs of a list. -/
def BlamesOnly (check : Check) (pairs : List (String × String)) : Prop :=
  ∀ e, check = .error e → Blames pairs e

theorem BlamesOnly.bind {first rest : Check} {pairs : List (String × String)}
    (h : BlamesOnly first pairs) (hrest : BlamesOnly rest pairs) :
    BlamesOnly (do first; rest) pairs := by
  intro e he
  rcases Checks.bind_eq_error.mp he with he | ⟨u, -, he⟩
  · exact h e he
  · exact hrest e he

theorem blamesOnly_ensure {c : Prop} [Decidable c] {pairs : List (String × String)}
    (h : Blames pairs e) : BlamesOnly (ensure c e) pairs := by
  intro e' he
  obtain ⟨-, rfl⟩ := ensure_eq_error.mp he
  exact h

theorem blamesOnly_mapError {x : Except String Unit} {f : String → TuningError}
    {pairs : List (String × String)} (h : ∀ s, Blames pairs (f s)) :
    BlamesOnly (x.mapError f) pairs := by
  intro e he
  cases x with
  | error s =>
    cases he
    exact h s
  | ok u => cases he

theorem blamesOnly_nonnegativeTime : BlamesOnly (validateNonnegativeTime field value) [] :=
  blamesOnly_ensure trivial

theorem blamesOnly_positiveTime : BlamesOnly (validatePositiveTime field value) [] :=
  blamesOnly_nonnegativeTime.bind (blamesOnly_ensure trivial)

theorem blamesOnly_wholeMillisTime : BlamesOnly (validateWholeMillisTime lib field value) [] :=
  blamesOnly_positiveTime.bind (blamesOnly_ensure trivial)

theorem blamesOnly_boundedTime {max : Int} :
    BlamesOnly (validateBoundedTime lib field value max) [] :=
  blamesOnly_wholeMillisTime.bind (blamesOnly_ensure trivial)

theorem blamesOnly_size {max : Nat} : BlamesOnly (validateSize lib field value max) [] :=
  BlamesOnly.bind (blamesOnly_ensure trivial) (blamesOnly_ensure trivial)

theorem blamesOnly_measure (kind : MeasureKind) :
    BlamesOnly (validateMeasure lib field kind value) [] := by
  cases kind with
  | time => exact blamesOnly_positiveTime
  | timeNonnegative => exact blamesOnly_nonnegativeTime
  | timeVoter => exact blamesOnly_boundedTime
  | timeTransactionMax => exact blamesOnly_boundedTime
  | timeI32 => exact blamesOnly_boundedTime
  | timeI64 => exact blamesOnly_wholeMillisTime
  | sizeI32 => exact blamesOnly_size
  | sizeU32 => exact blamesOnly_size
  | sizeUsize => exact blamesOnly_size
  | sizeU64 => exact blamesOnly_size
  | sizeSnapshotFetch => exact blamesOnly_mapError fun _ => trivial
  | ratioPositive => exact blamesOnly_ensure trivial
  | ratioUnit => exact blamesOnly_ensure trivial

theorem blamesOnly_value : (kind : Kind) → (value : kind.Value) →
    BlamesOnly (validateValue lib field kind value) []
  | .measure kind, _ => blamesOnly_measure kind
  | .refined _, _ => blamesOnly_ensure trivial
  | .number, _ | .flag, _ | .string, _ => fun _ he => by cases he

theorem blamesOnly_fields : BlamesOnly (validateFields lib t) [] := by
  intro e he
  obtain ⟨f, -, hf⟩ := Checks.exists_of_forM_eq_error he
  unfold validateField at hf
  split at hf
  · cases hf
  · exact blamesOnly_value f.kind _ e hf

theorem blamesOnly_string {f : StringField} {allowed : String → Bool} {error : String} :
    BlamesOnly (validateString t f allowed error) [] := by
  intro e he
  unfold validateString at he
  split at he
  · cases he
  · exact blamesOnly_ensure (by trivial) e he

theorem blamesOnly_strings : BlamesOnly (validateStrings lib t) [] :=
  blamesOnly_string.bind (blamesOnly_string.bind blamesOnly_string)

variable {pairs : List (String × String)}

theorem BlamesOnly.mono {check : Check} (h : BlamesOnly check []) : BlamesOnly check pairs :=
  fun e he => (h e he).mono fun _ hmem => absurd hmem List.not_mem_nil

theorem blamesOnly_orderedLe {left right : MeasureField} {leftDefault rightDefault : Measure}
    (h : (left.name, right.name) ∈ pairs) :
    BlamesOnly (orderedLe t left leftDefault right rightDefault) pairs :=
  blamesOnly_ensure h

theorem blamesOnly_orderedLt {left right : MeasureField} {leftDefault rightDefault : Measure}
    (h : (left.name, right.name) ∈ pairs) :
    BlamesOnly (orderedLt t left leftDefault right rightDefault) pairs :=
  blamesOnly_ensure h

theorem blamesOnly_bounded {f min max : MeasureField} {d minDefault maxDefault : Measure} :
    BlamesOnly (bounded t f d min minDefault max maxDefault) pairs :=
  blamesOnly_ensure trivial

theorem blamesOnly_within {f : MeasureField} {min max : Int} :
    BlamesOnly (within t f min max) pairs :=
  blamesOnly_ensure trivial

theorem blamesOnly_recordDecompression :
    BlamesOnly (validateRecordDecompression lib t) pairs :=
  blamesOnly_mapError fun _ => trivial

/-- The fields that the earlier relations compare. -/
def earlierPairs : List (String × String) :=
  [(selfRegistrationBackoffMin.name, selfRegistrationBackoffMax.name),
    (rlmmBootstrapBackoffInitial.name, rlmmBootstrapBackoffMax.name),
    (replicationFetchMin.name, replicationFetchMax.name),
    (replicationReconnectInitialDelay.name, replicationReconnectDelayCap.name)]

theorem blamesOnly_earlier : BlamesOnly (earlierRelations t) earlierPairs :=
  (blamesOnly_orderedLe (by simp [earlierPairs])).bind <|
  (blamesOnly_orderedLe (by simp [earlierPairs])).bind <|
  (blamesOnly_orderedLe (by simp [earlierPairs])).bind <|
  blamesOnly_orderedLe (by simp [earlierPairs])

/-- The fields that the later relations compare. -/
def laterPairs : List (String × String) :=
  [(delegationTokenDefaultRenewPeriod.name, delegationTokenMaxLifetime.name),
    (clientMetricsEvictionTick.name, clientMetricsStaleFloor.name),
    (uncleanRecoveryAggressiveDeadline.name, uncleanRecoveryBalancedDeadline.name),
    (telemetryDecompressedOutputFloor.name, telemetryDecompressedOutputCeiling.name),
    (transactionMinTimeout.name, transactionMaxTimeout.name),
    (consumerGroupMinSessionTimeout.name, consumerGroupMaxSessionTimeout.name),
    (consumerGroupMinHeartbeatInterval.name, consumerGroupMaxHeartbeatInterval.name)]

theorem blamesOnly_later : BlamesOnly (laterRelations lib t) laterPairs :=
  (blamesOnly_orderedLe (by simp [laterPairs])).bind <|
  (blamesOnly_orderedLe (by simp [laterPairs])).bind <|
  (blamesOnly_orderedLe (by simp [laterPairs])).bind <|
  (blamesOnly_orderedLe (by simp [laterPairs])).bind <|
  blamesOnly_recordDecompression.bind <|
  (blamesOnly_orderedLt (by simp [laterPairs])).bind <|
  (blamesOnly_orderedLe (by simp [laterPairs])).bind <|
  blamesOnly_bounded.bind <|
  (blamesOnly_orderedLe (by simp [laterPairs])).bind <|
  blamesOnly_bounded.bind <| blamesOnly_within.bind <| blamesOnly_within.bind <|
  blamesOnly_within.bind blamesOnly_within

/-! ## Accepted values -/

/-- A time that passes its check is finite. -/
theorem finite_of_fields {f : MeasureField} (hok : validateFields lib t = .ok ())
    (hf : f.field ∈ table) (htime : f.kind = .time) (hv : t.measure f = some value) :
    value ≠ .nonFinite := by
  have h := Checks.forM_eq_ok.mp hok f.field hf
  unfold validateField at h
  rw [show t f.field = some value from hv] at h
  simp only [MeasureField.field, validateValue, htime, validateMeasure] at h
  obtain ⟨⟨⟩, hfirst, -⟩ := Checks.bind_eq_ok.mp h
  exact (ensure_eq_ok.mp hfirst).1

end Errors

end Tuning
