-- SUMMARY: The cluster Secret: the node that bootstraps the quorum and the directory ids of the nodes, as they are read and patched.
import KrabkaOperator.NodePool.Identity

/-!
# The cluster Secret

The Secret of a cluster keeps which node of which pool formats the first, standalone
quorum, and a directory id for each node. Both are written by merge patches, which
touch the keys they name only.
-/

namespace Bootstrap

open Kube Crd

def nodeIdKey : String := "quorumBootstrapNodeId"
def poolKey : String := "quorumBootstrapPool"
def initializedKey : String := "quorumBootstrapInitialized"

/-- The data of a Secret, as texts. -/
abbrev Data := BTreeMap String

/-! ## The bootstrap node -/

structure QuorumBootstrapController where
  nodeId : Int
  pool : String
  deriving DecidableEq, Repr

structure QuorumBootstrapState where
  controller : QuorumBootstrapController
  initialized : Bool
  deriving DecidableEq, Repr

/-- Why a text is no `i32`. -/
def parseI32Error (s : String) : String :=
  let digits (ds : List Char) (overflow : String) : String :=
    if ds ≠ [] ∧ ds.all Char.isDigit then overflow else "invalid digit found in string"
  match s.toList with
  | [] => "cannot parse integer from empty string"
  | '-' :: ds => digits ds "number too small to fit in target type"
  | '+' :: ds => digits ds "number too large to fit in target type"
  | ds => digits ds "number too large to fit in target type"

def initializedFromSecret (data : Data) : Except String Bool :=
  match data[ initializedKey]? with
  | none => .ok false
  | some value =>
    if value = "true" then .ok true
    else if value = "false" then .ok false
    else .error (initializedKey ++ " must be true or false")

def quorumBootstrapStateFromSecret (data : Data) : Except String (Option QuorumBootstrapState) :=
  match data[nodeIdKey]?, data[poolKey]? with
  | none, none => .ok none
  | some text, some pool =>
    match Decimal.parseI32 text with
    | none => .error (nodeIdKey ++ " not an i32: " ++ parseI32Error text)
    | some nodeId =>
      if ¬ (0 ≤ nodeId ∧ nodeId ≤ 999999) then
        .error (nodeIdKey ++ " is out of range 0..=999999")
      else if pool = "" then .error (poolKey ++ " is empty")
      else
        match initializedFromSecret data with
        | .error why => .error why
        | .ok initialized => .ok (some ⟨⟨nodeId, pool⟩, initialized⟩)
  | _, _ => .error (nodeIdKey ++ " and " ++ poolKey ++ " must both be present")

/-! ## Directory ids -/

/-- The library of UUIDs. A UUID is read back from the text that is written for it. -/
structure UuidLib where
  Uuid : Type
  toText : Uuid → String
  parse : String → Except String Uuid
  /-- The random ones, in the order in which they are drawn. -/
  drawn : Nat → Uuid
  parse_toText : ∀ u, parse (toText u) = .ok u

def quorumDirectoryIdKey (nodeId : Int) : String := "quorumDirectoryId-" ++ toString nodeId

def quorumDirectoryIdFromSecret (lib : UuidLib) (data : Data) (nodeId : Int) :
    Except String (Option lib.Uuid) :=
  match data[quorumDirectoryIdKey nodeId]? with
  | none => .ok none
  | some text =>
    match lib.parse text with
    | .error why => .error (quorumDirectoryIdKey nodeId ++ ": " ++ why)
    | .ok u => .ok (some u)

/-! ## Patches -/

abbrev Patch := List (String × String)

def bootstrapPatch (c : QuorumBootstrapController) : Patch :=
  [(nodeIdKey, toString c.nodeId), (poolKey, c.pool), (initializedKey, "false")]

def initializedPatch : Patch := [(initializedKey, "true")]

def directoryPatch (lib : UuidLib) (nodeId : Int) (u : lib.Uuid) : Patch :=
  [(quorumDirectoryIdKey nodeId, lib.toText u)]

/-- The data after a merge patch. -/
def mergeData (data : Data) (patch : Patch) : Data :=
  patch.foldl (fun data entry => data.insert entry.1 entry.2) data

/-- A key that the patch does not name keeps its value. -/
theorem mergeData_of_not_mem {data : Data} {patch : Patch} {key : String}
    (h : key ∉ patch.map (·.1)) : (mergeData data patch)[key]? = data[key]? := by
  induction patch generalizing data with
  | nil => rfl
  | cons entry patch ih =>
    rw [List.map_cons, List.mem_cons, not_or] at h
    have hne : compareBytes entry.1 key ≠ .eq := fun heq =>
      h.1 (Std.LawfulEqCmp.eq_of_compare heq).symm
    exact (ih h.2).trans (by rw [Std.ExtTreeMap.getElem?_insert, if_neg hne])

/-- An entry whose key comes once is the value after the patch. -/
theorem mergeData_of_mem (data : Data) {patch : Patch} (entry : String × String)
    (hnodup : (patch.map (·.1)).Nodup) (h : entry ∈ patch) :
    (mergeData data patch)[entry.1]? = some entry.2 := by
  induction patch generalizing data with
  | nil => cases h
  | cons first patch ih =>
    rw [List.map_cons, List.nodup_cons] at hnodup
    rcases List.mem_cons.mp h with rfl | hmem
    · exact (mergeData_of_not_mem hnodup.1).trans (by rw [Std.ExtTreeMap.getElem?_insert_self])
    · exact ih _ hnodup.2 hmem

end Bootstrap
