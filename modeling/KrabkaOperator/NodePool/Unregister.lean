-- SUMMARY: Removed brokers are unregistered when the StatefulSet shrinks, as long as no broker registers that the pool still lists as unregistered.
import KrabkaOperator.NodePool.Guards
import KrabkaOperator.NodePool.Run
import Mathlib.Data.List.Dedup

/-!
# Unregistrations

A pass unregisters one removed broker and then lists it in an annotation of the
pool. The list outlives the shrink. A broker that comes back with a listed id
registers again, and the next shrink takes the old entry for a new unregistration.
-/

namespace NodePool

open Kube Crd Operator

/-! ## The list of ids -/

theorem mem_of_mem_parseIds_idsText {ids : List Int} {id : Int} (h : id ∈ parseIds (idsText ids))
    (hne : ids ≠ []) : id ∈ ids := by
  have hsorted : ((ids.dedup).insertionSort (· ≤ ·)) ≠ [] := by
    obtain ⟨x, xs, rfl⟩ := List.exists_cons_of_ne_nil hne
    intro hnil
    have hx : x ∈ ((x :: xs).dedup).insertionSort (· ≤ ·) := by simp
    rw [hnil] at hx
    cases hx
  unfold parseIds idsText at h
  rw [String.toList_ofList, List.splitOn_intercalate] at h
  · simp only [List.filterMap_map, List.mem_filterMap, List.mem_insertionSort, List.mem_dedup,
      Function.comp_apply, String.ofList_toList] at h
    obtain ⟨i, hi, hparse⟩ := h
    exact Decimal.eq_of_parseSigned_toString hparse ▸ hi
  · intro part hpart
    obtain ⟨i, -, rfl⟩ := List.mem_map.mp hpart
    exact Decimal.not_mem_toString (by decide) (by decide)
  · simpa using hsorted

/-! ## No listed broker is registered -/

/-- No pool lists a registered broker as unregistered. -/
def Clean (w : World) : Prop :=
  ∀ p ∈ w.pools, ∀ id ∈ recordedUnregistrations p, id ∉ w.registered

theorem applyRebalance_pools {w : World} {o : KafkaRebalance} :
    (w.applyRebalance o).pools = w.pools ∧
      (w.applyRebalance o).registered = w.registered := by
  unfold World.applyRebalance
  split <;> exact ⟨rfl, rfl⟩

theorem applyStatefulSet_pools {w : World} {d : StatefulSet} :
    (w.applyStatefulSet d).pools = w.pools ∧
      (w.applyStatefulSet d).registered = w.registered := by
  unfold World.applyStatefulSet
  split <;> exact ⟨rfl, rfl⟩

/-- No request of the operator registers a broker. -/
theorem answer_registered (r : Req) (c : Choice) (w : World) :
    (answer r c w).2.registered ⊆ w.registered := by
  have hdone : (r.done w).registered ⊆ w.registered := by
    cases r with
    | unregisterBroker id => exact List.filter_sublist.subset
    | applyRebalance obj =>
      change (w.applyRebalance obj).registered ⊆ _
      rw [applyRebalance_pools.2]
      exact List.Subset.refl _
    | applyStatefulSet desired =>
      change (w.applyStatefulSet desired).registered ⊆ _
      rw [applyStatefulSet_pools.2]
      exact List.Subset.refl _
    | _ => exact List.Subset.refl _
  rcases answer_cases r c w with heq | heq
  · rw [heq]
    exact List.Subset.refl _
  · rwa [heq]

theorem mem_updatePool {w : World} {name : String} {f : KafkaNodePool → KafkaNodePool}
    {p : KafkaNodePool} (h : p ∈ (w.updatePool name f).pools) :
    ∃ q ∈ w.pools, p = q ∨ p = f q := by
  obtain ⟨q, hq, rfl⟩ := List.mem_map.mp h
  refine ⟨q, hq, ?_⟩
  split
  · exact .inr rfl
  · exact .inl rfl

/-- The ids that a pool lists after a request were listed before, or the request wrote
    them. -/
theorem answer_recorded (r : Req) (c : Choice) (w : World) {p : KafkaNodePool}
    (hp : p ∈ (answer r c w).2.pools) {id : Int} (hid : id ∈ recordedUnregistrations p) :
    (∃ q ∈ w.pools, id ∈ recordedUnregistrations q) ∨
      ∃ name value, r = .annotateUnregistered name value ∧ id ∈ parseIds value := by
  rcases answer_cases r c w with heq | heq
  · rw [heq] at hp
    exact .inl ⟨p, hp, hid⟩
  rw [heq] at hp
  cases r with
  | patchStatus name status =>
    obtain ⟨q, hq, rfl | rfl⟩ := mem_updatePool hp
    · exact .inl ⟨p, hq, hid⟩
    · exact .inl ⟨q, hq, hid⟩
  | setFinalizers name finalizers =>
    obtain ⟨q, hq, rfl | rfl⟩ := mem_updatePool hp
    · exact .inl ⟨p, hq, hid⟩
    · exact .inl ⟨q, hq, hid⟩
  | annotateUnregistered name value =>
    obtain ⟨q, hq, rfl | rfl⟩ := mem_updatePool hp
    · exact .inl ⟨p, hq, hid⟩
    · exact .inr ⟨name, value, rfl, by simpa [recordedUnregistrations] using hid⟩
  | applyRebalance obj =>
    exact .inl ⟨p, (applyRebalance_pools (w := w) (o := obj)).1 ▸ hp, hid⟩
  | applyStatefulSet desired =>
    exact .inl ⟨p, (applyStatefulSet_pools (w := w) (d := desired)).1 ▸ hp, hid⟩
  | _ => exact .inl ⟨p, hp, hid⟩

/-! ## Passes and runs -/

/-- The stored pools and the copy that a pass works on list no registered broker. -/
def PassClean (pass : PoolPass) (w : World) : Prop :=
  Clean w ∧ ∀ id ∈ recordedUnregistrations pass.pool, id ∉ w.registered

theorem PassClean.step {pass : PoolPass} {a : Logged} {r : Req} (hI : PassClean pass a.1)
    (hguard : r.Guard pass a) (c : Choice) : PassClean pass (answer r c a.1).2 := by
  have hsub := answer_registered r c a.1
  refine ⟨fun p hp id hid hreg => ?_, fun id hid hreg => hI.2 id hid (hsub hreg)⟩
  rcases answer_recorded r c a.1 hp hid with ⟨q, hq, hlisted⟩ | ⟨name, value, rfl, hvalue⟩
  · exact hI.1 q hq id hlisted (hsub hreg)
  · -- the pass has just unregistered the broker that it adds to its list
    obtain ⟨-, new, hnew, rfl⟩ := hguard
    have hmem := mem_of_mem_parseIds_idsText hvalue (List.cons_ne_nil _ _)
    rcases List.mem_cons.mp hmem with rfl | hold
    · exact hnew (hsub hreg)
    · exact hI.2 id hold (hsub hreg)

/-- Between passes no broker registers whose id a pool lists, and others add no id to a
    list. A pass works on a copy of the stored pool that lists nothing more. -/
def RegistersFresh : Event → World → Prop
  | .pass p _, w => ∀ id ∈ recordedUnregistrations p.pool,
      ∃ q ∈ w.pools, id ∈ recordedUnregistrations q
  | .change f, w =>
      (∀ id ∈ (f w).registered, id ∉ w.registered →
        ∀ p ∈ (f w).pools, id ∉ recordedUnregistrations p) ∧
      (∀ p ∈ (f w).pools, ∀ id ∈ recordedUnregistrations p,
        ∃ q ∈ w.pools, id ∈ recordedUnregistrations q)

theorem Clean.finish {e : Event} {w : World} (hw : Clean w) (he : RegistersFresh e w) :
    Clean (History.finish Event.exec e w) := by
  cases e with
  | change f =>
    intro p hp id hid hreg
    obtain ⟨q, hq, hlisted⟩ := he.2 p hp id hid
    exact he.1 id hreg (hw q hq id hlisted) p hp hid
  | pass pass choices =>
    have hpass : PassClean pass w := by
      refine ⟨hw, fun id hid => ?_⟩
      obtain ⟨q, hq, hlisted⟩ := he id hid
      exact hw q hq id hlisted
    rw [finish_pass]
    exact (run_reconcileInner_invariant (I := fun a : Logged => PassClean pass a.1)
      (fun a r c ha hguard => ha.step hguard c) hpass choices).1

instance : DecidablePred Clean := fun w =>
  inferInstanceAs (Decidable (∀ p ∈ w.pools, ∀ id ∈ recordedUnregistrations p, id ∉ w.registered))

instance : (e : Event) → (w : World) → Decidable (RegistersFresh e w)
  | .pass p _, w => inferInstanceAs (Decidable (∀ id ∈ recordedUnregistrations p.pool,
      ∃ q ∈ w.pools, id ∈ recordedUnregistrations q))
  | .change f, w => inferInstanceAs (Decidable ((∀ id ∈ (f w).registered, id ∉ w.registered →
        ∀ p ∈ (f w).pools, id ∉ recordedUnregistrations p) ∧
      (∀ p ∈ (f w).pools, ∀ id ∈ recordedUnregistrations p,
        ∃ q ∈ w.pools, id ∈ recordedUnregistrations q)))

/-- Whenever a pass lowers the replicas of a StatefulSet with brokers, no removed broker
    is registered: each has been unregistered since it was last registered. -/
def RemovesUnregistered (e : Event) (w : World) : Prop :=
  ∀ p choices, e = .pass p choices → ∀ st ∈ e.trace w,
    ∀ desired live n, st.req = .applyStatefulSet desired →
      st.before.statefulSet? desired.name = some live →
      desired.spec >>= (·.replicas) = some n → n < liveReplicas live →
      (liveRoles p.pool live).broker = true →
      ∀ id, Removed (liveStart p.pool live) (liveReplicas live) n id → id ∉ st.before.registered

/-- In every run in which no listed broker registers, a StatefulSet shrinks only when the
    removed brokers are unregistered. -/
theorem removed_brokers_unregistered {events : List Event} {w : World} (hw : Clean w)
    (h : History.Along Event.exec RegistersFresh events w) :
    History.Along Event.exec RemovesUnregistered events w := by
  refine h.of_invariant hw fun e w he hw => ⟨?_, hw.finish he⟩
  rintro p choices rfl st hst desired live n hreq hlive hn hlt hbroker id hid
  obtain ⟨sl, hsl, hbefore, hslreq, -⟩ := exists_dialogue hst
  have hpass : PassClean p w := by
    refine ⟨hw, fun id hid => ?_⟩
    obtain ⟨q, hq, hlisted⟩ := he id hid
    exact hw q hq id hlisted
  obtain ⟨hguard, hclean, -⟩ := (reconcileInner_invariant (I := fun a : Logged => PassClean p a.1)
    (fun a r c ha hguard => ha.step hguard c) hpass).trace choices sl hsl
  rw [hslreq, hreq] at hguard
  rw [hbefore] at hclean
  obtain ⟨parent, hcluster, rfl, hopen⟩ := hguard
  cases hn
  have hshrink := (hopen live ⟨hcluster, hbefore.symm ▸ hlive, hlt⟩).drained hbroker
  exact hclean.2 id (hshrink.2.recorded id hid.mem)

namespace Sample

/-- A pool of three nodes shrinks to two. -/
def shrinkTurns : List (World → Event) := [scale 2, pass, rebalance, pass, pass, pass]

theorem removed_brokers_unregistered_demo :
    History.Along Event.exec RemovesUnregistered
      (script ([pass, boot] ++ shrinkTurns) (start 3)) (start 3) :=
  removed_brokers_unregistered (by decide) (by decide)

/-- The pool shrinks, grows back, and is to shrink again. -/
def regrowRun : List Event :=
  script ([pass, boot] ++ shrinkTurns ++ [scale 3, pass, boot] ++ [scale 2, pass]) (start 3)

def regrown : World := History.final Event.exec regrowRun (start 3)

/-- Whether a step removes the registered broker 2 of the sample pool. -/
def removesRegistered (pool : KafkaNodePool) (st : Prog.Step Req World) : Bool :=
  match st.req with
  | .applyStatefulSet desired => (st.before.statefulSet? desired.name).any fun live =>
      desired.spec >>= (·.replicas) = some 2 ∧ liveReplicas live = 3 ∧ liveStart pool live = 0 ∧
        (liveRoles pool live).broker = true ∧ 2 ∈ st.before.registered
  | _ => false

/-- The list of the first shrink lets the second one through: broker 2 is registered when
    the StatefulSet shrinks. -/
theorem listed_broker_removed_registered :
    ¬ History.Along Event.exec RemovesUnregistered (regrowRun ++ [pass regrown]) (start 3) := by
  intro h
  have hlast : RemovesUnregistered (pass regrown) regrown := h.append.2.1
  have hstep : ((pass regrown).trace regrown).any
      (removesRegistered ((regrown.pool? "pool").getD (pool 1))) = true := by decide
  obtain ⟨st, hst, hcheck⟩ := List.any_eq_true.mp hstep
  unfold removesRegistered at hcheck
  split at hcheck
  · next desired hreq =>
    obtain ⟨live, hlive, hdata⟩ := (Option.any_eq_true _ _).mp hcheck
    obtain ⟨hn, hthree, hzero, hbroker, hregistered⟩ := of_decide_eq_true hdata
    refine hlast _ _ rfl st hst desired live 2 hreq hlive hn (by omega) hbroker 2 ?_ hregistered
    unfold Removed maxI32
    rw [hzero, hthree]
    omega
  · cases hcheck

end Sample

end NodePool
