-- SUMMARY: The checks of the tiered storage of a Kafka.
import KrabkaOperator.Base.Text
import KrabkaOperator.Crd.Kafka

/-!
# Tiered storage
-/

namespace Crd

/-- A text of nothing but white space. -/
def isBlank (s : String) : Bool := Text.trim s.toList = []

/-- `policyCheck` stands for the checks of the broker and of the queue capacity. -/
def TopicMetadataManagerSpec.validate (policyCheck : TopicMetadataManagerSpec → Except String Unit)
    (topic : TopicMetadataManagerSpec) : Except String Unit := do
  if isBlank topic.bootstrap then
    throw "metadataManager.topic.bootstrap is required and must be non-empty"
  match topic.numPartitions with
  | some n =>
    if n ≤ 0 then throw ("metadataManager.topic.numPartitions must be > 0 (got " ++ toString n ++ ")")
  | none => pure ()
  match topic.replication with
  | some n =>
    if n ≤ 0 then throw ("metadataManager.topic.replication must be > 0 (got " ++ toString n ++ ")")
  | none => pure ()
  policyCheck topic

def MetadataManagerSpec.validate (policyCheck : TopicMetadataManagerSpec → Except String Unit)
    (manager : MetadataManagerSpec) : Except String Unit :=
  match manager.kind, manager.topic with
  | .inMemory, some _ => .error "metadataManager.type=InMemory must not set `topic`"
  | _, none => .ok ()
  | .topic, some topic => topic.validate policyCheck

/-- The backend has its own block, and no other. -/
def TieredStorage.validateBackend (tier : TieredStorage) : Except String Unit := do
  match tier.kind with
  | .local =>
    if tier.s3.isSome then throw "type=Local must not set `s3`"
    if tier.gcs.isSome then throw "type=Local must not set `gcs`"
  | .s3 =>
    if tier.gcs.isSome then throw "type=S3 must not set `gcs`"
    match tier.s3 with
    | none => throw "type=S3 requires `s3` (bucket + region at minimum)"
    | some s3 =>
      if isBlank s3.bucket then throw "s3.bucket is required and must be non-empty"
      if isBlank s3.region then throw "s3.region is required and must be non-empty"
  | .gcs =>
    if tier.s3.isSome then throw "type=Gcs must not set `s3`"
    match tier.gcs with
    | none => throw "type=Gcs requires `gcs` (bucket at minimum)"
    | some gcs => if isBlank gcs.bucket then throw "gcs.bucket is required and must be non-empty"

def TieredStorage.validate (policyCheck : TopicMetadataManagerSpec → Except String Unit)
    (tier : TieredStorage) : Except String Unit := do
  tier.validateBackend
  match tier.metadataManager with
  | some manager => manager.validate policyCheck
  | none => pure ()
  match tier.persistence with
  | some p =>
    if tier.kind ≠ .local then throw "persistence is only valid with type=Local"
    if isBlank p.size then throw "persistence.size is required and must be non-empty"
  | none => pure ()

end Crd
