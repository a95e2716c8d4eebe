-- SUMMARY: The Kubernetes objects the controllers read and write: Secrets with managed fields and StatefulSets with their rollout status.
import KrabkaOperator.Kube.Fields

/-!
# Kubernetes objects

Only the parts that a controller reads or decides on are kept: of a Secret its
annotations and its data, of a StatefulSet its labels, its template and what its
own controller reports about the roll.
-/

namespace Kube

/-! ## Secrets -/

/-- The bytes under one key of a Secret: a text, by its characters, or bytes that
    are not UTF-8. -/
inductive ByteString where
  | text (s : List Char)
  | binary (bytes : List UInt8)
  deriving DecidableEq, Repr

/-- The text of the bytes, when they are UTF-8. -/
def ByteString.utf8? : ByteString → Option (List Char)
  | .text s => some s
  | .binary _ => none

/-- Bytes `lo..=hi`. -/
private def byteIn (lo hi : Nat) (b : UInt8) : Bool := lo ≤ b.toNat && b.toNat ≤ hi

/-- The number of continuation bytes after a lead byte, with the range of the first of them. -/
private def utf8Tail (lead : UInt8) : Option (Nat × Nat × Nat) :=
  let n := lead.toNat
  if 0xC2 ≤ n ∧ n ≤ 0xDF then some (1, 0x80, 0xBF)
  else if n = 0xE0 then some (2, 0xA0, 0xBF)
  else if n = 0xED then some (2, 0x80, 0x9F)
  else if 0xE1 ≤ n ∧ n ≤ 0xEF then some (2, 0x80, 0xBF)
  else if n = 0xF0 then some (3, 0x90, 0xBF)
  else if 0xF1 ≤ n ∧ n ≤ 0xF3 then some (3, 0x80, 0xBF)
  else if n = 0xF4 then some (3, 0x80, 0x8F)
  else none

/-- The continuation bytes at the start, `n` of them at most. -/
private def continuation (n lo hi : Nat) : List UInt8 → List UInt8
  | [] => []
  | b :: bs =>
    if n = 0 then []
    else if byteIn lo hi b then b :: continuation (n - 1) 0x80 0xBF bs
    else []

/-- Decode UTF-8, with one replacement character for each maximal broken sequence. -/
private def decodeLossy : Nat → List UInt8 → List Char
  | 0, _ => []
  | _, [] => []
  | fuel + 1, lead :: rest =>
    if lead.toNat < 0x80 then Char.ofNat lead.toNat :: decodeLossy fuel rest
    else
      match utf8Tail lead with
      | none => '\uFFFD' :: decodeLossy fuel rest
      | some (n, lo, hi) =>
        let tail := continuation n lo hi rest
        let rest' := rest.drop tail.length
        if tail.length = n then
          let bits := lead.toNat % 2 ^ (6 - n)
          Char.ofNat (tail.foldl (fun acc b => acc * 64 + b.toNat % 64) bits) :: decodeLossy fuel rest'
        else
          '\uFFFD' :: decodeLossy fuel rest'

/-- `String::from_utf8_lossy`. -/
def ByteString.lossy : ByteString → List Char
  | .text s => s
  | .binary bytes => decodeLossy bytes.length bytes

def ByteString.bytes : ByteString → List UInt8
  | .text s => (String.ofList s).toUTF8.data.toList
  | .binary bytes => bytes

def ByteString.append : ByteString → ByteString → ByteString
  | .text a, .text b => .text (a ++ b)
  | a, b => .binary (a.bytes ++ b.bytes)

def ByteString.isEmpty (b : ByteString) : Bool := b.bytes = []

def ByteString.endsWithNewline (b : ByteString) : Bool := b.bytes.getLast? = some 10

@[simp] theorem ByteString.utf8?_text {s : List Char} : utf8? (.text s) = some s := rfl

structure Secret where
  annotations : Fields String
  data : Fields ByteString

/-- The annotations and the data that one patch of a Secret sends. -/
structure SecretConfig where
  annotations : BTreeMap String
  data : BTreeMap ByteString

namespace Secret

def empty : Secret := ⟨∅, ∅⟩

/-- Forced server-side apply. -/
def apply (manager : String) (cfg : SecretConfig) (s : Secret) : Secret :=
  ⟨s.annotations.apply manager cfg.annotations, s.data.apply manager cfg.data⟩

/-- JSON merge patch. -/
def merge (manager : String) (cfg : SecretConfig) (s : Secret) : Secret :=
  ⟨s.annotations.merge manager cfg.annotations, s.data.merge manager cfg.data⟩

def annotation? (s : Secret) (key : String) : Option String := s.annotations.value? key

/-- The readable text under a data key. -/
def readPemKey (s : Secret) (key : String) : Option (List Char) := s.data.value? key >>= ByteString.utf8?

variable {manager key v : String} {cfg : SecretConfig} {s : Secret} {b : ByteString}

theorem annotation?_apply_of_some (h : cfg.annotations[key]? = some v) :
    (apply manager cfg s).annotation? key = some v :=
  Fields.value?_apply_of_some h

theorem annotation?_apply_of_none (manager : String) (s : Secret)
    (h : cfg.annotations[key]? = none) :
    (apply manager cfg s).annotation? key = s.annotation? key ∨
      (apply manager cfg s).annotation? key = none :=
  Fields.value?_apply_of_none manager s.annotations h

theorem readPemKey_apply_of_some (key : String) (b : ByteString) (h : cfg.data[key]? = some b) :
    (apply manager cfg s).readPemKey key = b.utf8? := by
  simp [readPemKey, apply, Fields.value?_apply_of_some h]

theorem readPemKey_apply_of_none (manager : String) (s : Secret) (h : cfg.data[key]? = none) :
    (apply manager cfg s).readPemKey key = s.readPemKey key ∨
      (apply manager cfg s).readPemKey key = none := by
  rcases Fields.value?_apply_of_none manager s.data h with h | h
  · exact .inl (by simp [readPemKey, apply, h])
  · exact .inr (by simp [readPemKey, apply, h])

theorem annotation?_merge :
    (merge manager cfg s).annotation? key = cfg.annotations[key]?.or (s.annotation? key) :=
  Fields.value?_merge

theorem readPemKey_merge :
    (merge manager cfg s).readPemKey key =
      (cfg.data[key]?.or (s.data.value? key)) >>= ByteString.utf8? := by
  simp [readPemKey, merge, Fields.value?_merge]

end Secret

/-! ## Pods and StatefulSets -/

structure EnvVar where
  name : String
  value : Option String
  deriving DecidableEq, Repr

structure Container where
  env : List EnvVar
  deriving DecidableEq, Repr

structure PodSpec where
  initContainers : List Container
  containers : List Container
  deriving DecidableEq, Repr

structure Pod where
  name : String
  labels : BTreeMap String
  annotations : BTreeMap String
  spec : Option PodSpec
  deriving DecidableEq

structure StatefulSetSpec where
  replicas : Option Int
  /-- The annotations of the pod template. -/
  templateAnnotations : BTreeMap String
  templateLabels : BTreeMap String := ∅
  templateSpec : Option PodSpec := none
  deriving DecidableEq

structure StatefulSetStatus where
  observedGeneration : Option Int
  replicas : Int
  readyReplicas : Option Int
  updatedReplicas : Option Int
  currentRevision : Option String
  updateRevision : Option String
  currentReplicas : Option Int := none
  availableReplicas : Option Int := none
  deriving DecidableEq, Repr

structure StatefulSet where
  name : String
  labels : BTreeMap String
  generation : Option Int
  spec : Option StatefulSetSpec
  status : Option StatefulSetStatus
  annotations : BTreeMap String := ∅
  deriving DecidableEq

end Kube
