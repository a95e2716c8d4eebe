-- SUMMARY: Environments that keep a record beside their state, and where in a run the record changes.
import KrabkaOperator.Base.Prog

/-!
# Tracked environments

Some requests change something that no response shows. `tracked` adds it to the
state of an environment as a record that the requests update. A program whose
requests are silent leaves the record, so a changed record says that the programs
in front of the change have returned.
-/

namespace Prog

variable {Req : Type} {Resp : Req → Type} {ε α β σ τ Choice : Type}

/-- The environment that also keeps a record. -/
def tracked (answer : (r : Req) → Choice → σ → Resp r × σ) (update : Req → Choice → τ → τ) :
    (r : Req) → Choice → σ × τ → Resp r × (σ × τ) :=
  fun r c s => ((answer r c s.1).1, (answer r c s.1).2, update r c s.2)

/-- A request that leaves the record. -/
def Silent (update : Req → Choice → τ → τ) (r : Req) : Prop := ∀ c t, update r c t = t

variable {answer : (r : Req) → Choice → σ → Resp r × σ} {update : Req → Choice → τ → τ}

variable (answer) in
/-- A silent program runs as it does without the record. -/
theorem runRest_tracked {p : Prog Req Resp ε α} (hp : Makes (Silent update) p) (cs : List Choice)
    (s : σ) (t : τ) : p.runRest (tracked answer update) cs (s, t) =
      ((p.runRest answer cs s).1, ((p.runRest answer cs s).2.1, t), (p.runRest answer cs s).2.2) := by
  induction p generalizing cs s with
  | ret a => rfl
  | fail e => rfl
  | call r k ih =>
    cases cs with
    | nil => rfl
    | cons c cs =>
      have hrest := ih (answer r c s).1 (hp.2 _) cs (answer r c s).2
      simp only [runRest, tracked, hp.1 c t] at hrest ⊢
      exact hrest

theorem run_tracked {p : Prog Req Resp ε α} (hp : Makes (Silent update) p) (cs : List Choice)
    (s : σ) (t : τ) : (p.run (tracked answer update) cs (s, t)).2.2 = t := by
  rw [runRest_run, runRest_tracked answer hp]

/-- The record changes after a silent program only if that program returns. -/
theorem returned_of_changed {p : Prog Req Resp ε α} {f : α → Prog Req Resp ε β} {cs : List Choice}
    {s : σ} {t : τ} (hp : Makes (Silent update) p)
    (hne : ((p >>= f).run (tracked answer update) cs (s, t)).2.2 ≠ t) :
    ∃ a s' rest, p.runRest answer cs s = (.done a, s', rest) ∧
      (p >>= f).run (tracked answer update) cs (s, t) =
        (f a).run (tracked answer update) rest (s', t) := by
  have htracked := runRest_tracked answer hp cs s t
  by_cases hdone : ∃ a, (p.run (tracked answer update) cs (s, t)).1 = .done a
  · obtain ⟨a, ha⟩ := hdone
    rw [runRest_run, htracked] at ha
    have hrun : p.runRest answer cs s =
        (.done a, (p.runRest answer cs s).2.1, (p.runRest answer cs s).2.2) := Prod.ext ha rfl
    rw [hrun] at htracked
    exact ⟨a, _, _, hrun, run_bind_of_done htracked⟩
  · refine absurd ?_ hne
    rw [run_bind_of_not_done fun a ha => hdone ⟨a, ha⟩, run_tracked hp]

/-- A call whose error is looked at, and that returned. -/
theorem runRest_of_attempt {p : Prog Req Resp ε α} {cs rest : List Choice} {s s' : σ} {a : α}
    (h : p.attempt.runRest answer cs s = (.done (.ok a), s', rest)) :
    p.runRest answer cs s = (.done a, s', rest) := by
  induction p generalizing cs s with
  | ret a' =>
    cases h
    rfl
  | fail e => cases h
  | call r k ih =>
    cases cs with
    | nil => cases h
    | cons c cs => exact ih _ h

/-- A sequence returns when its parts do. -/
theorem runRest_bind {p : Prog Req Resp ε α} {f : α → Prog Req Resp ε β} {cs rest : List Choice}
    {s s' : σ} {b : β} (h : (p >>= f).runRest answer cs s = (.done b, s', rest)) :
    ∃ a s₁ rest₁, p.runRest answer cs s = (.done a, s₁, rest₁) ∧
      (f a).runRest answer rest₁ s₁ = (.done b, s', rest) := by
  induction p generalizing cs s with
  | ret a => exact ⟨a, s, cs, rfl, h⟩
  | fail e => cases h
  | call r k ih =>
    cases cs with
    | nil => cases h
    | cons c cs => exact ih _ h

end Prog
