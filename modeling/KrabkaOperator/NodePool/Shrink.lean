-- SUMMARY: A pass lowers the replicas of a StatefulSet only after it has read that no partition and no voter is on a removed node.
import KrabkaOperator.NodePool.Guards
import KrabkaOperator.NodePool.Run

/-!
# Safe shrink

What lets a pass through to the StatefulSet is tied to the dialogue of the pass: the
answers that it has read before it lowers the replicas speak of the nodes that this
very change removes.
-/

namespace NodePool

open Kube Crd Operator

theorem dialogue_guarded {p : PoolPass} {choices : List Choice} {w : World}
    {st : Prog.Step Req Logged} (h : st ∈ Event.dialogue (.pass p choices) w) :
    st.req.Guard p st.before :=
  (reconcileInner_guarded p (w, [])).trace choices st h

/-- In every run, a pass that applies a smaller StatefulSet than the live one has read
    that no partition, no reassignment and no voter is on a removed node. -/
theorem shrinks_after_reads (events : List Event) (w : World) :
    History.Along Event.exec (fun e w => ∀ p choices, e = .pass p choices →
      ∀ st ∈ e.dialogue w, ∀ desired live n, st.req = .applyStatefulSet desired →
        st.before.1.statefulSet? desired.name = some live →
        desired.spec >>= (·.replicas) = some n → n < liveReplicas live →
        ((liveRoles p.pool live).broker = true →
          DrainRead st.before.2 (liveStart p.pool live) (liveReplicas live) n) ∧
        ((liveRoles p.pool live).controller = true →
          VotersRead st.before.2 (liveStart p.pool live) (liveReplicas live) n)) events w := by
  refine History.along_of_forall (fun e w p choices he st hst desired live n hreq hlive hn hlt => ?_)
    events w
  subst he
  have hguard := dialogue_guarded hst
  rw [hreq] at hguard
  obtain ⟨parent, hcluster, rfl, hopen⟩ := hguard
  cases hn
  have hshrink := hopen live ⟨hcluster, hlive, hlt⟩
  exact ⟨fun hb => (hshrink.drained hb).1, hshrink.voters⟩

namespace Sample

/-- A pool of three nodes is scaled down to two. -/
def shrinkRun : List Event :=
  script [pass, boot, scale 2, pass, rebalance, pass, pass, pass] (start 3)

/-- Whether a step applies fewer replicas than the live StatefulSet has. -/
def lowers (st : Prog.Step Req Logged) : Bool :=
  match st.req with
  | .applyStatefulSet desired => (st.before.1.statefulSet? desired.name).any fun live =>
      liveReplicas desired < liveReplicas live
  | _ => false

/-- The last pass of the run applies two replicas, after the reads. -/
theorem shrinks_after_reads_demo :
    ((shrinkRun.getLastD (.change id)).dialogue
      (History.final Event.exec shrinkRun.dropLast (start 3))).any lowers = true ∧
    (∀ p choices, shrinkRun.getLastD (.change id) = .pass p choices →
      ∀ st ∈ (shrinkRun.getLastD (.change id)).dialogue
        (History.final Event.exec shrinkRun.dropLast (start 3)),
      ∀ desired live n, st.req = .applyStatefulSet desired →
        st.before.1.statefulSet? desired.name = some live →
        desired.spec >>= (·.replicas) = some n → n < liveReplicas live →
        ((liveRoles p.pool live).broker = true →
          DrainRead st.before.2 (liveStart p.pool live) (liveReplicas live) n) ∧
        ((liveRoles p.pool live).controller = true →
          VotersRead st.before.2 (liveStart p.pool live) (liveReplicas live) n)) :=
  ⟨by decide, (shrinks_after_reads [shrinkRun.getLastD (.change id)] _).1⟩

end Sample

end NodePool
