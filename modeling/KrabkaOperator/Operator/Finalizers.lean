-- SUMMARY: How the controllers of users, topics and node pools add and remove their finalizers, and when an edit keeps the finalizers of others.
import KrabkaOperator.Access.Requests
import KrabkaOperator.NodePool.World
import KrabkaOperator.Topic.Reconcile

/-!
# Finalizers

Each controller adds a finalizer of its own to an object and takes it off at the end of
the deletion. The finalizers are one array, which a merge patch replaces. None of the
patches names the version of the object that it is made from.
-/

/-! ## Patches -/

namespace Operator

/-- The metadata of a stored object: its version and its finalizers. -/
structure Meta where
  resourceVersion : Nat
  finalizers : List String
  deriving DecidableEq, Repr

/-- A merge patch of the finalizers. -/
structure FinalizerPatch where
  resourceVersion : Option Nat := none
  finalizers : List String
  deriving DecidableEq, Repr

/-- The API server replaces the array. It rejects a patch of another version. -/
def Meta.merge (stored : Meta) (p : FinalizerPatch) : Option Meta :=
  if p.resourceVersion.all (· = stored.resourceVersion) then
    some ⟨stored.resourceVersion + 1, p.finalizers⟩
  else
    none

/-- The finalizer `own` alone. -/
def soleFinalizer (own : String) : FinalizerPatch := { finalizers := [own] }

def noFinalizers : FinalizerPatch := { finalizers := [] }

end Operator

namespace Access

def addFinalizer : Operator.FinalizerPatch := Operator.soleFinalizer finalizer

def removeFinalizer : Operator.FinalizerPatch := Operator.noFinalizers

end Access

namespace Topic

def addFinalizer : Operator.FinalizerPatch := Operator.soleFinalizer finalizer

def removeFinalizer : Operator.FinalizerPatch := Operator.noFinalizers

end Topic

namespace NodePool

/-- The finalizers of the pool that the pass has read, with its own one or without it. -/
def setFinalizerPatch (finalizers : List String) (present : Bool) : Operator.FinalizerPatch where
  finalizers :=
    if present then
      if finalizer ∈ finalizers then finalizers else finalizers ++ [finalizer]
    else finalizers.filter (· ≠ finalizer)

/-- A pass over a pool sends this patch. -/
theorem setFinalizer_eq (pool : Crd.KafkaNodePool) (present : Bool) :
    setFinalizer pool present = (Prog.request (.setFinalizers pool.name
      (setFinalizerPatch pool.finalizers present).finalizers) >>= kube : Op Unit) := rfl

end NodePool

namespace Operator

/-! ## Edits -/

/-- An edit of the finalizers of an object. -/
inductive FinalizerEdit where
  | addToUser
  | removeFromUser
  | addToTopic
  | removeFromTopic
  | setOnPool (present : Bool)
  deriving DecidableEq, Repr

namespace FinalizerEdit

/-- The finalizer of the controller. -/
def own : FinalizerEdit → String
  | .addToUser | .removeFromUser => Access.finalizer
  | .addToTopic | .removeFromTopic => Topic.finalizer
  | .setOnPool _ => NodePool.finalizer

/-- Whether the object is to have the finalizer. -/
def present : FinalizerEdit → Bool
  | .addToUser | .addToTopic => true
  | .removeFromUser | .removeFromTopic => false
  | .setOnPool present => present

/-- The patch of an edit that is made from `read`. -/
def patch (read : Meta) : FinalizerEdit → FinalizerPatch
  | .addToUser => Access.addFinalizer
  | .removeFromUser => Access.removeFinalizer
  | .addToTopic => Topic.addFinalizer
  | .removeFromTopic => Topic.removeFinalizer
  | .setOnPool present => NodePool.setFinalizerPatch read.finalizers present

end FinalizerEdit

/-- The finalizers of other controllers. -/
def others (own : String) (finalizers : List String) : List String :=
  finalizers.filter (· ≠ own)

/-- The finalizer of the operator is there just when it is to be, and the others are what they
    were. -/
structure OwnOnly (own : String) (present : Bool) (before after : List String) : Prop where
  others : others own after = others own before
  own : own ∈ after ↔ present = true

/-- What an edit needs of the object that it was made from and of the stored one. A user or a topic
    must have no other finalizers, and those of a node pool must not have changed. -/
def FinalizerEdit.Keeps (read stored : Meta) (e : FinalizerEdit) : Prop :=
  match e with
  | .setOnPool _ => others e.own read.finalizers = others e.own stored.finalizers
  | _ => ∀ f ∈ stored.finalizers, f = e.own

theorem others_eq_nil_iff {own : String} {finalizers : List String} :
    others own finalizers = [] ↔ ∀ f ∈ finalizers, f = own := by
  simp [others, List.filter_eq_nil_iff]

/-- The finalizers that are sent for a user or a topic have no other one. -/
theorem ownOnly_iff_of_alone {own : String} {present : Bool} {before after : List String}
    (hsent : others own after = []) (hown : own ∈ after ↔ present = true) :
    OwnOnly own present before after ↔ ∀ f ∈ before, f = own := by
  rw [← others_eq_nil_iff]
  constructor
  · intro h
    rw [← h.others, hsent]
  · intro h
    exact ⟨hsent.trans h.symm, hown⟩

theorem ownOnly_soleFinalizer (own : String) (before : List String) :
    OwnOnly own true before (soleFinalizer own).finalizers ↔ ∀ f ∈ before, f = own :=
  ownOnly_iff_of_alone (by simp [others, soleFinalizer]) (by simp [soleFinalizer])

theorem ownOnly_noFinalizers (own : String) (before : List String) :
    OwnOnly own false before noFinalizers.finalizers ↔ ∀ f ∈ before, f = own :=
  ownOnly_iff_of_alone rfl (by simp [noFinalizers])

section NodePool

open NodePool (finalizer setFinalizerPatch)

theorem others_setFinalizerPatch (finalizers : List String) (present : Bool) :
    others finalizer (setFinalizerPatch finalizers present).finalizers =
      others finalizer finalizers := by
  unfold setFinalizerPatch others
  cases present with
  | false => simp
  | true =>
    rw [if_pos rfl]
    split
    · rfl
    · simp

theorem mem_setFinalizerPatch_iff (finalizers : List String) (present : Bool) :
    finalizer ∈ (setFinalizerPatch finalizers present).finalizers ↔ present = true := by
  unfold setFinalizerPatch
  cases present with
  | false => simp
  | true =>
    rw [if_pos rfl]
    split
    · next hmem => simp [hmem]
    · simp

end NodePool

/-- An edit goes through whatever the stored version is. It changes the entry of the operator only
    when there is no other one on a user or a topic, and none has changed on a node pool. -/
theorem finalizerEdit_ownOnly_iff (e : FinalizerEdit) (read stored : Meta) :
    ∃ after, stored.merge (e.patch read) = some after ∧
      (OwnOnly e.own e.present stored.finalizers after.finalizers ↔ e.Keeps read stored) := by
  cases e with
  | addToUser => exact ⟨_, rfl, ownOnly_soleFinalizer _ _⟩
  | removeFromUser => exact ⟨_, rfl, ownOnly_noFinalizers _ _⟩
  | addToTopic => exact ⟨_, rfl, ownOnly_soleFinalizer _ _⟩
  | removeFromTopic => exact ⟨_, rfl, ownOnly_noFinalizers _ _⟩
  | setOnPool present =>
    refine ⟨_, rfl, fun h => ?_, fun h => ⟨?_, mem_setFinalizerPatch_iff _ _⟩⟩
    · exact (others_setFinalizerPatch _ _).symm.trans h.others
    · exact (others_setFinalizerPatch _ _).trans h

/-- The finalizer of another controller is lost from a user that gets its own, from a topic at the
    end of its deletion, and from a node pool that has got it since it was read. -/
theorem finalizerEdit_loses :
    (∃ after, Meta.merge ⟨1, ["example.io/hold"]⟩
        (FinalizerEdit.addToUser.patch ⟨1, ["example.io/hold"]⟩) = some after ∧
      "example.io/hold" ∉ after.finalizers) ∧
    (∃ after, Meta.merge ⟨1, ["example.io/hold", Topic.finalizer]⟩
        (FinalizerEdit.removeFromTopic.patch ⟨1, ["example.io/hold", Topic.finalizer]⟩) =
          some after ∧
      "example.io/hold" ∉ after.finalizers) ∧
    ∃ after, Meta.merge ⟨2, ["example.io/hold"]⟩
        ((FinalizerEdit.setOnPool true).patch ⟨1, []⟩) = some after ∧
      "example.io/hold" ∉ after.finalizers := by
  refine ⟨⟨_, rfl, by decide⟩, ⟨_, rfl, by decide⟩, ⟨_, rfl, by decide⟩⟩

end Operator
