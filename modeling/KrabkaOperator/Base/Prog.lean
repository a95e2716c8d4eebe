-- SUMMARY: Programs that call an environment: their faulty runs, the steps of a run, and the rule for what every run keeps.
import Mathlib.Tactic.Common
import Mathlib.Data.List.Chain

/-!
# Programs over an environment

A `Prog` is an interaction tree: it returns, fails with an error, or makes a
request and continues with the response. The environment answers a request by
changing its own state. What it may freely choose (whether the request is
refused, whether its answer is lost, what a clock shows) is a `Choice`, so a run
is determined by the list of choices that it consumes. A run whose choices are
used up stops at its next request: this is the crash of the caller.

`Sat` is the rule of the development for all runs at once. It speaks about each
single request of a program, so it also covers the runs that stop half-way.
-/

/-- An interaction tree with requests `Req`, responses `Resp` and errors `ε`. -/
inductive Prog (Req : Type) (Resp : Req → Type) (ε α : Type) where
  | ret (a : α)
  | fail (e : ε)
  | call (r : Req) (k : Resp r → Prog Req Resp ε α)

namespace Prog

variable {Req : Type} {Resp : Req → Type} {ε α β γ : Type}

/-! ## Monad structure -/

def bind : Prog Req Resp ε α → (α → Prog Req Resp ε β) → Prog Req Resp ε β
  | .ret a, f => f a
  | .fail e, _ => .fail e
  | .call r k, f => .call r (fun x => (k x).bind f)

instance : Monad (Prog Req Resp ε) where
  pure := .ret
  bind := bind

/-- Make one request and return its response. -/
def request (r : Req) : Prog Req Resp ε (Resp r) :=
  .call r .ret

/-- Run a program and hand its error to the caller as a value. -/
def attempt : Prog Req Resp ε α → Prog Req Resp ε (Except ε α)
  | .ret a => .ret (.ok a)
  | .fail e => .ret (.error e)
  | .call r k => .call r (fun x => (k x).attempt)

/-- Continue with a computed result, or fail with its error. -/
def ofExcept : Except ε α → Prog Req Resp ε α
  | .ok a => .ret a
  | .error e => .fail e

/-- Run a program only on a condition. -/
def when (c : Bool) (p : Prog Req Resp ε Unit) : Prog Req Resp ε Unit :=
  if c then p else .ret ()

@[simp] theorem pure_eq {a : α} : (pure a : Prog Req Resp ε α) = .ret a := rfl
@[simp] theorem ret_bind {a : α} {f : α → Prog Req Resp ε β} : (.ret a >>= f) = f a := rfl
@[simp] theorem fail_bind {e : ε} {f : α → Prog Req Resp ε β} :
    ((.fail e : Prog Req Resp ε α) >>= f) = .fail e := rfl
@[simp] theorem call_bind {r : Req} {k : Resp r → Prog Req Resp ε α}
    {f : α → Prog Req Resp ε β} :
    (.call r k >>= f) = .call r (fun x => k x >>= f) := rfl
@[simp] theorem request_bind {r : Req} {f : Resp r → Prog Req Resp ε β} :
    (request r >>= f) = .call r f := rfl
@[simp] theorem ofExcept_ok {a : α} : (ofExcept (.ok a) : Prog Req Resp ε α) = .ret a := rfl
@[simp] theorem ofExcept_error {e : ε} :
    (ofExcept (.error e) : Prog Req Resp ε α) = .fail e := rfl

theorem bind_assoc (p : Prog Req Resp ε α) (f : α → Prog Req Resp ε β)
    (g : β → Prog Req Resp ε γ) : (p >>= f) >>= g = p >>= fun a => f a >>= g := by
  induction p with
  | ret a => rfl
  | fail e => rfl
  | call r k ih =>
    simp only [call_bind]
    congr 1
    funext x
    exact ih x

theorem ite_bind {c : Prop} [Decidable c] (p q : Prog Req Resp ε α) (f : α → Prog Req Resp ε β) :
    (if c then p else q) >>= f = if c then p >>= f else q >>= f := by
  split <;> rfl

theorem bind_pure (p : Prog Req Resp ε α) : p >>= pure = p := by
  induction p with
  | ret a => rfl
  | fail e => rfl
  | call r k ih =>
    simp only [call_bind]
    congr 1
    funext x
    exact ih x

/-! ## Runs -/

/-- How a run ends: with a result, with an error, or stopped by a crash. -/
inductive Outcome (ε α : Type) where
  | done (a : α)
  | failed (e : ε)
  | stopped
  deriving DecidableEq, Repr

/-- A check of the result of a run that returns. -/
def Outcome.isDone (check : α → Bool) : Outcome ε α → Bool
  | .done a => check a
  | _ => false

theorem Outcome.exists_of_isDone (check : α → Bool) {x : Outcome ε α} (h : x.isDone check = true) :
    ∃ a, x = .done a ∧ check a = true := by
  cases x with
  | done a => exact ⟨a, rfl, h⟩
  | failed e => cases h
  | stopped => cases h

def Outcome.ofExcept : Except ε α → Outcome ε α
  | .ok a => .done a
  | .error e => .failed e

/-- One answered request of a run. -/
structure Step (Req σ : Type) where
  before : σ
  req : Req
  after : σ

variable {σ Choice : Type} (answer : (r : Req) → Choice → σ → Resp r × σ)

def run : Prog Req Resp ε α → List Choice → σ → Outcome ε α × σ
  | .ret a, _, s => (.done a, s)
  | .fail e, _, s => (.failed e, s)
  | .call _ _, [], s => (.stopped, s)
  | .call r k, c :: cs, s => (k (answer r c s).1).run cs (answer r c s).2

/-- The requests that a run makes, in order. -/
def trace : Prog Req Resp ε α → List Choice → σ → List (Step Req σ)
  | .ret _, _, _ => []
  | .fail _, _, _ => []
  | .call _ _, [], _ => []
  | .call r k, c :: cs, s =>
      ⟨s, r, (answer r c s).2⟩ :: (k (answer r c s).1).trace cs (answer r c s).2

/-- The state after each step of a run. -/
def after (p : Prog Req Resp ε α) (cs : List Choice) (s : σ) : List σ :=
  (p.trace answer cs s).map Step.after

/-! ## Undisturbed runs -/

/-- The end of a program that is answered by a function of the state, however many requests
    it makes. -/
def complete (good : (r : Req) → σ → Resp r × σ) : Prog Req Resp ε α → σ → Except ε α × σ
  | .ret a, s => (.ok a, s)
  | .fail e, s => (.error e, s)
  | .call r k, s => (k (good r s).1).complete good (good r s).2

theorem complete_bind_of_ok {good : (r : Req) → σ → Resp r × σ} {p : Prog Req Resp ε β}
    {f : β → Prog Req Resp ε α} {b : β} {s s' : σ} (h : p.complete good s = (.ok b, s')) :
    (p >>= f).complete good s = (f b).complete good s' := by
  induction p generalizing s with
  | ret b' =>
    cases h
    rfl
  | fail e => cases h
  | call r k ih => exact ih _ h

/-- A sequence that returns is one whose parts return. -/
theorem complete_bind_eq_ok {good : (r : Req) → σ → Resp r × σ} {p : Prog Req Resp ε β}
    {f : β → Prog Req Resp ε α} {a : α} {s s' : σ} :
    (p >>= f).complete good s = (.ok a, s') ↔
      ∃ b t, p.complete good s = (.ok b, t) ∧ (f b).complete good t = (.ok a, s') := by
  constructor
  · induction p generalizing s with
    | ret b => exact fun h => ⟨b, s, rfl, h⟩
    | fail e => exact fun h => by cases h
    | call r k ih => exact ih _
  · rintro ⟨b, t, hp, hf⟩
    rw [complete_bind_of_ok hp, hf]

theorem complete_attempt {good : (r : Req) → σ → Resp r × σ} (p : Prog Req Resp ε α) (s : σ) :
    p.attempt.complete good s = (.ok (p.complete good s).1, (p.complete good s).2) := by
  induction p generalizing s with
  | ret a => rfl
  | fail e => rfl
  | call r k ih => exact ih _ _

/-- The requests that it makes. -/
def asks (good : (r : Req) → σ → Resp r × σ) : Prog Req Resp ε α → σ → List Req
  | .ret _, _ => []
  | .fail _, _ => []
  | .call r k, s => r :: (k (good r s).1).asks good (good r s).2

theorem asks_bind_of_ok {good : (r : Req) → σ → Resp r × σ} {p : Prog Req Resp ε β}
    {f : β → Prog Req Resp ε α} {b : β} {s s' : σ} (h : p.complete good s = (.ok b, s')) :
    (p >>= f).asks good s = p.asks good s ++ (f b).asks good s' := by
  induction p generalizing s with
  | ret b' =>
    cases h
    rfl
  | fail e => cases h
  | call r k ih => exact congrArg _ (ih _ h)

theorem asks_attempt {good : (r : Req) → σ → Resp r × σ} (p : Prog Req Resp ε α) (s : σ) :
    p.attempt.asks good s = p.asks good s := by
  induction p generalizing s with
  | ret a => rfl
  | fail e => rfl
  | call r k ih => exact congrArg _ (ih _ _)

/-- What the first program asks, the whole asks. -/
theorem asks_subset_bind {good : (r : Req) → σ → Resp r × σ} (p : Prog Req Resp ε β)
    (f : β → Prog Req Resp ε α) (s : σ) : p.asks good s ⊆ (p >>= f).asks good s := by
  induction p generalizing s with
  | ret b => exact List.nil_subset _
  | fail e => exact List.nil_subset _
  | call r k ih => exact List.cons_subset_cons _ (ih _ _)

variable {answer} in
/-- The runs with good choices that are long enough ask alike. -/
theorem exists_trace_eq_asks {good : (r : Req) → σ → Resp r × σ} {Good : Choice → Prop}
    (hgood : ∀ r c s, Good c → answer r c s = good r s) (p : Prog Req Resp ε α) (s : σ) :
    ∃ n, ∀ cs : List Choice, (∀ c ∈ cs, Good c) → n ≤ cs.length →
      (p.trace answer cs s).map Step.req = p.asks good s := by
  induction p generalizing s with
  | ret a => exact ⟨0, fun cs _ _ => rfl⟩
  | fail e => exact ⟨0, fun cs _ _ => rfl⟩
  | call r k ih =>
    obtain ⟨n, hn⟩ := ih (good r s).1 (good r s).2
    refine ⟨n + 1, fun cs hcs hlen => ?_⟩
    cases cs with
    | nil => cases hlen
    | cons c cs =>
      obtain ⟨hc, hcs⟩ := List.forall_mem_cons.mp hcs
      have hrest := hn cs hcs (Nat.le_of_succ_le_succ hlen)
      rw [← hgood r c s hc] at hrest
      rw [trace, asks, List.map_cons, hrest, hgood r c s hc]

variable {answer} in
/-- The runs with good choices that are long enough end alike. -/
theorem exists_run_eq_complete {good : (r : Req) → σ → Resp r × σ} {Good : Choice → Prop}
    (hgood : ∀ r c s, Good c → answer r c s = good r s) (p : Prog Req Resp ε α) (s : σ) :
    ∃ n, ∀ cs : List Choice, (∀ c ∈ cs, Good c) → n ≤ cs.length →
      p.run answer cs s = (.ofExcept (p.complete good s).1, (p.complete good s).2) := by
  induction p generalizing s with
  | ret a => exact ⟨0, fun cs _ _ => rfl⟩
  | fail e => exact ⟨0, fun cs _ _ => rfl⟩
  | call r k ih =>
    obtain ⟨n, hn⟩ := ih (good r s).1 (good r s).2
    refine ⟨n + 1, fun cs hcs hlen => ?_⟩
    cases cs with
    | nil => cases hlen
    | cons c cs =>
      obtain ⟨hc, hcs⟩ := List.forall_mem_cons.mp hcs
      have hrest := hn cs hcs (Nat.le_of_succ_le_succ hlen)
      rw [← hgood r c s hc] at hrest
      rw [run, complete, hrest, hgood r c s hc]

/-! ## What every run keeps -/

/-- Each request of `p` from `s` makes a step in `S`, whatever the environment
    chooses, and a run that is not stopped ends in `Q`. -/
def Sat (S : σ → Req → σ → Prop) (Q : Except ε α → σ → Prop) : Prog Req Resp ε α → σ → Prop
  | .ret a, s => Q (.ok a) s
  | .fail e, s => Q (.error e) s
  | .call r k, s => ∀ c : Choice, S s r (answer r c s).2 ∧
      Sat S Q (k (answer r c s).1) (answer r c s).2

section Sat

variable {answer} {S S' : σ → Req → σ → Prop} {Q Q' : Except ε α → σ → Prop}

@[simp] theorem sat_ret {a : α} {s : σ} : Sat answer S Q (.ret a) s ↔ Q (.ok a) s := Iff.rfl
@[simp] theorem sat_fail {e : ε} {s : σ} : Sat answer S Q (.fail e) s ↔ Q (.error e) s := Iff.rfl

theorem sat_call {r : Req} {k : Resp r → Prog Req Resp ε α} {s : σ} :
    Sat answer S Q (.call r k) s ↔ ∀ c : Choice, S s r (answer r c s).2 ∧
      Sat answer S Q (k (answer r c s).1) (answer r c s).2 := Iff.rfl

theorem Sat.mono {p : Prog Req Resp ε α} {s : σ} (h : Sat answer S Q p s)
    (hS : ∀ a r b, S a r b → S' a r b) (hQ : ∀ x a, Q x a → Q' x a) : Sat answer S' Q' p s := by
  induction p generalizing s with
  | ret a => exact hQ _ _ h
  | fail e => exact hQ _ _ h
  | call r k ih => exact fun c => ⟨hS _ _ _ (h c).1, ih _ (h c).2⟩

/-- Sequencing: the continuation is run in the states where the first program
    returns, and an error of the first program is the error of the whole. -/
theorem Sat.bind {p : Prog Req Resp ε α} {f : α → Prog Req Resp ε β}
    {R : Except ε β → σ → Prop} {s : σ}
    (h : Sat answer S (fun x a => match x with
      | .ok v => Sat answer S R (f v) a
      | .error e => R (.error e) a) p s) :
    Sat answer S R (p >>= f) s := by
  induction p generalizing s with
  | ret a => exact h
  | fail e => exact h
  | call r k ih => exact fun c => ⟨(h c).1, ih _ (h c).2⟩

variable (answer) in
/-- Each step is an answer to its request. -/
theorem sat_answered (p : Prog Req Resp ε α) (s : σ) :
    Sat answer (fun a r b => ∃ c, b = (answer r c a).2) (fun _ _ => True) p s := by
  induction p generalizing s with
  | ret a => trivial
  | fail e => trivial
  | call r k ih => exact fun c => ⟨⟨c, rfl⟩, ih _ _⟩

/-- A program of which nothing is known: the continuation must do in every state. -/
theorem sat_bind_any {p : Prog Req Resp ε α} {f : α → Prog Req Resp ε β}
    {R : Except ε β → σ → Prop} {s : σ} (herr : ∀ e a, R (.error e) a)
    (hf : ∀ v a, Sat answer (fun _ _ _ => True) R (f v) a) :
    Sat answer (fun _ _ _ => True) R (p >>= f) s := by
  induction p generalizing s with
  | ret a => exact hf a s
  | fail e => exact herr e s
  | call r k ih => exact fun c => ⟨trivial, ih _⟩

theorem Sat.attempt {p : Prog Req Resp ε α} {R : Except ε (Except ε α) → σ → Prop} {s : σ}
    (h : Sat answer S (fun x a => R (.ok x) a) p s) : Sat answer S R p.attempt s := by
  induction p generalizing s with
  | ret a => exact h
  | fail e => exact h
  | call r k ih => exact fun c => ⟨(h c).1, ih _ (h c).2⟩

/-- Two conditions on the steps and results of one program hold together. -/
theorem Sat.and {p : Prog Req Resp ε α} {s : σ} (h : Sat answer S Q p s)
    (h' : Sat answer S' Q' p s) :
    Sat answer (fun a r b => S a r b ∧ S' a r b) (fun x a => Q x a ∧ Q' x a) p s := by
  induction p generalizing s with
  | ret a => exact ⟨h, h'⟩
  | fail e => exact ⟨h, h'⟩
  | call r k ih => exact fun c => ⟨⟨(h c).1, (h' c).1⟩, ih _ (h c).2 (h' c).2⟩

/-- What each step keeps holds wherever the program is. -/
theorem Sat.invariant {I : σ → Prop} {p : Prog Req Resp ε α} {s : σ} (h : Sat answer S Q p s)
    (hI : ∀ a r b, S a r b → I a → I b) (hs : I s) :
    Sat answer (fun a r b => S a r b ∧ I a ∧ I b) (fun x a => Q x a ∧ I a) p s := by
  induction p generalizing s with
  | ret a => exact ⟨h, hs⟩
  | fail e => exact ⟨h, hs⟩
  | call r k ih =>
    intro c
    have hnext := hI _ _ _ (h c).1 hs
    exact ⟨⟨(h c).1, hs, hnext⟩, ih _ (h c).2 hnext⟩

/-- A stage of a program: steps in `N` keep the invariant of the stage, and where it
    holds they are steps in `S`. -/
theorem Sat.stage {N : σ → Req → σ → Prop} {I : σ → Prop} {p : Prog Req Resp ε α} {s : σ}
    (h : Sat answer N Q p s) (hI : ∀ a r b, I a → N a r b → S a r b ∧ I b) (hs : I s) :
    Sat answer S (fun x a => Q x a ∧ I a) p s := by
  induction p generalizing s with
  | ret a => exact ⟨h, hs⟩
  | fail e => exact ⟨h, hs⟩
  | call r k ih =>
    intro c
    obtain ⟨hstep, hnext⟩ := hI _ _ _ hs (h c).1
    exact ⟨hstep, ih _ (h c).2 hnext⟩

/-- `Sat` is sound for the steps of every run, also of one that stops. -/
theorem Sat.trace {p : Prog Req Resp ε α} {s : σ} (h : Sat answer S Q p s) (cs : List Choice) :
    ∀ st ∈ p.trace answer cs s, S st.before st.req st.after := by
  induction p generalizing s cs with
  | ret a => simp [Prog.trace]
  | fail e => simp [Prog.trace]
  | call r k ih =>
    cases cs with
    | nil => simp [Prog.trace]
    | cons c cs =>
      simp only [Prog.trace, List.mem_cons, forall_eq_or_imp]
      exact ⟨(h c).1, ih _ (h c).2 cs⟩

/-- `Sat` is sound for the end of every run that is not stopped. -/
theorem Sat.run {p : Prog Req Resp ε α} {s : σ} (h : Sat answer S Q p s) (cs : List Choice) :
    match p.run answer cs s with
    | (.done a, s') => Q (.ok a) s'
    | (.failed e, s') => Q (.error e) s'
    | (.stopped, _) => True := by
  induction p generalizing s cs with
  | ret a => exact h
  | fail e => exact h
  | call r k ih =>
    cases cs with
    | nil => trivial
    | cons c cs => exact ih _ (h c).2 cs

theorem Sat.run_done {p : Prog Req Resp ε α} {s s' : σ} {a : α} {cs : List Choice}
    (h : Sat answer S Q p s) (hrun : p.run answer cs s = (.done a, s')) : Q (.ok a) s' := by
  have := h.run cs
  rw [hrun] at this
  exact this

end Sat

/-! ## What a program has read -/

section Logged

variable {answer}

/-- The requests of a run so far, with their answers. -/
abbrev Dialogue (Resp : Req → Type) := List ((r : Req) × Resp r)

/-- The environment that also keeps the dialogue. -/
def logged (answer : (r : Req) → Choice → σ → Resp r × σ) :
    (r : Req) → Choice → σ × Dialogue Resp → Resp r × (σ × Dialogue Resp) :=
  fun r c s => ((answer r c s.1).1, (answer r c s.1).2, s.2 ++ [⟨r, (answer r c s.1).1⟩])

variable (answer) in
/-- A run that keeps the dialogue makes the same steps. -/
theorem trace_logged (p : Prog Req Resp ε α) (cs : List Choice) (s : σ) (log : Dialogue Resp) :
    (p.trace (logged answer) cs (s, log)).map (fun st => ⟨st.before.1, st.req, st.after.1⟩) =
      p.trace answer cs s := by
  induction p generalizing cs s log with
  | ret a => rfl
  | fail e => rfl
  | call r k ih =>
    cases cs with
    | nil => rfl
    | cons c cs =>
      simp only [trace, List.map_cons, List.cons.injEq]
      exact ⟨rfl, ih _ _ _ _⟩

variable (answer) in
/-- A run that keeps the dialogue ends in the same way. -/
theorem run_logged (p : Prog Req Resp ε α) (cs : List Choice) (s : σ) (log : Dialogue Resp) :
    (p.run (logged answer) cs (s, log)).1 = (p.run answer cs s).1 ∧
      (p.run (logged answer) cs (s, log)).2.1 = (p.run answer cs s).2 := by
  induction p generalizing cs s log with
  | ret a => exact ⟨rfl, rfl⟩
  | fail e => exact ⟨rfl, rfl⟩
  | call r k ih =>
    cases cs with
    | nil => exact ⟨rfl, rfl⟩
    | cons c cs => exact ih _ _ _ _

/-- The dialogue only grows. -/
theorem sat_logged_subset (p : Prog Req Resp ε α) (s : σ × Dialogue Resp) :
    Sat (logged answer) (fun a _ b => a.2 ⊆ b.2) (fun _ b => s.2 ⊆ b.2) p s := by
  suffices h : ∀ log, log ⊆ s.2 →
      Sat (logged answer) (fun a _ b => a.2 ⊆ b.2) (fun _ b => log ⊆ b.2) p s from
    h s.2 (List.Subset.refl _)
  induction p generalizing s with
  | ret a => exact fun log h => h
  | fail e => exact fun log h => h
  | call r k ih =>
    intro log h c
    exact ⟨List.subset_append_left _ _, ih _ _ log (List.Subset.trans h (List.subset_append_left _ _))⟩

end Logged

/-! ## Restricted choices -/

section Via

variable {Choice' : Type} (f : Choice' → Choice)

/-- The environment that chooses only what `f` gives. -/
def via : (r : Req) → Choice' → σ → Resp r × σ := fun r c s => answer r (f c) s

variable {answer f} {S : σ → Req → σ → Prop} {Q : Except ε α → σ → Prop}

theorem Sat.via {p : Prog Req Resp ε α} {s : σ} (h : Sat answer S Q p s) :
    Sat (via answer f) S Q p s := by
  induction p generalizing s with
  | ret a => exact h
  | fail e => exact h
  | call r k ih => exact fun c => ⟨(h (f c)).1, ih _ (h (f c)).2⟩

variable (answer f) in
theorem run_via (p : Prog Req Resp ε α) (cs : List Choice') (s : σ) :
    p.run (Prog.via answer f) cs s = p.run answer (cs.map f) s := by
  induction p generalizing s cs with
  | ret a => rfl
  | fail e => rfl
  | call r k ih =>
    cases cs with
    | nil => rfl
    | cons c cs => exact ih _ cs _

theorem trace_via (p : Prog Req Resp ε α) (cs : List Choice') (s : σ) :
    p.trace (Prog.via answer f) cs s = p.trace answer (cs.map f) s := by
  induction p generalizing s cs with
  | ret a => rfl
  | fail e => rfl
  | call r k ih =>
    cases cs with
    | nil => rfl
    | cons c cs => exact congrArg _ (ih _ cs _)

end Via

/-! ## What a program asks for -/

/-- Every request of a program is in `R`, whatever it is answered. -/
def Makes (R : Req → Prop) : Prog Req Resp ε α → Prop
  | .ret _ => True
  | .fail _ => True
  | .call r k => R r ∧ ∀ x, Makes R (k x)

section Makes

variable {answer} {R R' : Req → Prop}

@[simp] theorem makes_ret {a : α} : Makes R (.ret a : Prog Req Resp ε α) := trivial
@[simp] theorem makes_fail {e : ε} : Makes R (.fail e : Prog Req Resp ε α) := trivial

theorem Makes.mono {p : Prog Req Resp ε α} (h : Makes R p) (hR : ∀ r, R r → R' r) :
    Makes R' p := by
  induction p with
  | ret a => trivial
  | fail e => trivial
  | call r k ih => exact ⟨hR r h.1, fun x => ih x (h.2 x)⟩

theorem makes_any (p : Prog Req Resp ε α) : Makes (fun _ => True) p := by
  induction p with
  | ret a => trivial
  | fail e => trivial
  | call r k ih => exact ⟨trivial, ih⟩

theorem Makes.bind {p : Prog Req Resp ε α} {f : α → Prog Req Resp ε β} (h : Makes R p)
    (hf : ∀ a, Makes R (f a)) : Makes R (p >>= f) := by
  induction p with
  | ret a => exact hf a
  | fail e => trivial
  | call r k ih => exact ⟨h.1, fun x => ih x (h.2 x)⟩

theorem Makes.attempt {p : Prog Req Resp ε α} (h : Makes R p) : Makes R p.attempt := by
  induction p with
  | ret a => trivial
  | fail e => trivial
  | call r k ih => exact ⟨h.1, fun x => ih x (h.2 x)⟩

/-- A call whose error is looked at. -/
theorem Makes.attempt_bind {p : Prog Req Resp ε α} {f : Except ε α → Prog Req Resp ε β}
    (h : Makes R p) (herror : ∀ e, Makes R (f (.error e))) (hok : ∀ a, Makes R (f (.ok a))) :
    Makes R (p.attempt >>= f) :=
  h.attempt.bind fun x =>
    match x with
    | .error e => herror e
    | .ok a => hok a

theorem makes_request {r : Req} {k : Resp r → Prog Req Resp ε α} (hr : R r)
    (hk : ∀ x, Makes R (k x)) : Makes R (request r >>= k) := ⟨hr, hk⟩

theorem makes_ite {c : Prop} [Decidable c] {p q : Prog Req Resp ε α} (hp : Makes R p)
    (hq : Makes R q) : Makes R (if c then p else q) := by
  split
  · exact hp
  · exact hq

theorem makes_when {c : Bool} {p : Prog Req Resp ε Unit} (hp : Makes R p) :
    Makes R (when c p) :=
  makes_ite hp trivial

/-- In every run the steps are answers to such requests. -/
theorem Makes.sat {p : Prog Req Resp ε α} (h : Makes R p) (s : σ) :
    Sat answer (fun a r b => R r ∧ ∃ c, b = (answer r c a).2) (fun _ _ => True) p s := by
  induction p generalizing s with
  | ret a => trivial
  | fail e => trivial
  | call r k ih => exact fun c => ⟨⟨h.1, c, rfl⟩, ih _ (h.2 _) _⟩

/-- A stage that is described by its requests only. -/
theorem Makes.stage {p : Prog Req Resp ε α} {s : σ} {I : σ → Prop} {S : σ → Req → σ → Prop}
    (h : Makes R p) (hI : ∀ a r c, R r → I a → S a r (answer r c a).2 ∧ I (answer r c a).2)
    (hs : I s) : Sat answer S (fun _ a => I a) p s := by
  refine ((h.sat s).stage ?_ hs).mono (fun _ _ _ h => h) fun _ _ h => h.2
  rintro a r b ha ⟨hr, c, rfl⟩
  exact hI a r c hr ha

/-- What all requests keep holds wherever a run ends, also one that stops. -/
theorem Makes.run_invariant {p : Prog Req Resp ε α} {s : σ} {I : σ → Prop} (h : Makes R p)
    (hI : ∀ a r c, R r → I a → I (answer r c a).2) (hs : I s) (cs : List Choice) :
    I (p.run answer cs s).2 := by
  induction p generalizing s cs with
  | ret a => exact hs
  | fail e => exact hs
  | call r k ih =>
    cases cs with
    | nil => exact hs
    | cons c cs => exact ih _ (h.2 _) (hI _ _ _ h.1 hs) cs

/-- The same where the requests are answered by a function of the state. -/
theorem Makes.complete_invariant {good : (r : Req) → σ → Resp r × σ} {p : Prog Req Resp ε α} {s : σ}
    {I : σ → Prop} (h : Makes R p) (hI : ∀ a r, R r → I a → I (good r a).2) (hs : I s) :
    I (p.complete good s).2 := by
  induction p generalizing s with
  | ret a => exact hs
  | fail e => exact hs
  | call r k ih => exact ih _ (h.2 _) (hI _ _ h.1 hs)

end Makes

/-! ## What a program returns -/

/-- Every result of a program is in `R`, whatever its requests are answered. -/
def Returns (R : α → Prop) : Prog Req Resp ε α → Prop
  | .ret a => R a
  | .fail _ => True
  | .call _ k => ∀ x, Returns R (k x)

section Returns

variable {answer} {R : α → Prop}

theorem returns_pure {a : α} (h : R a) : Returns R (pure a : Prog Req Resp ε α) := h

theorem Returns.mono {R' : α → Prop} {p : Prog Req Resp ε α} (h : Returns R' p)
    (hR : ∀ a, R' a → R a) : Returns R p := by
  induction p with
  | ret a => exact hR a h
  | fail e => trivial
  | call r k ih => exact fun x => ih x (h x)

theorem Returns.bind {p : Prog Req Resp ε β} {f : β → Prog Req Resp ε α}
    (hf : ∀ b, Returns R (f b)) : Returns R (p >>= f) := by
  induction p with
  | ret b => exact hf b
  | fail e => trivial
  | call r k ih => exact fun x => ih x

/-- The results of the first program are known. -/
theorem Returns.bind_of {R' : β → Prop} {p : Prog Req Resp ε β} {f : β → Prog Req Resp ε α}
    (h : Returns R' p) (hf : ∀ b, R' b → Returns R (f b)) : Returns R (p >>= f) := by
  induction p with
  | ret b => exact hf b h
  | fail e => trivial
  | call r k ih => exact fun x => ih x (h x)

/-- An optional program, and what follows it. -/
theorem Returns.optional {c : Prop} [Decidable c] {p : Prog Req Resp ε Unit}
    {f : Unit → Prog Req Resp ε α} (hf : Returns R (f ())) :
    Returns R (if c then p >>= f else f ()) := by
  split
  · exact Returns.bind fun _ => hf
  · exact hf

theorem Returns.map {p : Prog Req Resp ε β} {f : β → α} (hf : ∀ b, R (f b)) :
    Returns R (f <$> p) :=
  Returns.bind hf

theorem Returns.sat {p : Prog Req Resp ε α} (h : Returns R p) (s : σ) :
    Sat answer (fun _ _ _ => True) (fun x _ => ∀ a, x = .ok a → R a) p s := by
  induction p generalizing s with
  | ret a =>
    intro a' ha
    cases ha
    exact h
  | fail e =>
    intro a ha
    cases ha
  | call r k ih => exact fun c => ⟨trivial, ih _ (h _) _⟩

end Returns

/-! ## Programs over finer requests -/

section Refined

variable {Req' : Type} {Resp' : Req' → Type} {answer' : (r : Req') → Choice → σ → Resp' r × σ}
  (h : (r : Req) → Prog Req' Resp' ε (Resp r))

/-- Carry out each request of a program by a program over other requests. -/
def refined : Prog Req Resp ε α → Prog Req' Resp' ε α
  | .ret a => .ret a
  | .fail e => .fail e
  | .call r k => h r >>= fun x => (k x).refined

variable {h}

theorem Makes.refined {R : Req → Prop} {R' : Req' → Prop} {p : Prog Req Resp ε α} (hp : Makes R p)
    (hr : ∀ r, R r → Makes R' (h r)) : Makes R' (p.refined h) := by
  induction p with
  | ret a => trivial
  | fail e => trivial
  | call r k ih => exact (hr r hp.1).bind fun x => ih x (hp.2 x)

/-- An invariant between the requests of the coarse program. -/
theorem sat_refined {I : σ → Prop} {S : σ → Req' → σ → Prop} {Q : Except ε α → σ → Prop}
    (p : Prog Req Resp ε α) {s : σ}
    (hr : ∀ r s, I s → Sat answer' S (fun x b => ∀ v, x = .ok v → I b) (h r) s)
    (hok : ∀ a s, I s → Q (.ok a) s) (herr : ∀ e s, Q (.error e) s) (hs : I s) :
    Sat answer' S Q (p.refined h) s := by
  induction p generalizing s with
  | ret a => exact hok a s hs
  | fail e => exact herr e s
  | call r k ih =>
    refine Sat.bind ((hr r s hs).mono (fun _ _ _ h => h) ?_)
    intro x b hb
    cases x with
    | error e => exact herr e b
    | ok v => exact ih v (hb v rfl)

end Refined

/-! ## Runs of programs in sequence -/

section Sequence

variable {answer}

theorem bind_congr {p : Prog Req Resp ε α} {f g : α → Prog Req Resp ε β} (h : ∀ a, f a = g a) :
    (p >>= f) = (p >>= g) :=
  congrArg _ (funext h)

variable (answer) in
/-- A run together with the choices that it leaves over. -/
def runRest : Prog Req Resp ε α → List Choice → σ → Outcome ε α × σ × List Choice
  | .ret a, cs, s => (.done a, s, cs)
  | .fail e, cs, s => (.failed e, s, cs)
  | .call _ _, [], s => (.stopped, s, [])
  | .call r k, c :: cs, s => (k (answer r c s).1).runRest cs (answer r c s).2

theorem runRest_run (p : Prog Req Resp ε α) (cs : List Choice) (s : σ) :
    p.run answer cs s = ((p.runRest answer cs s).1, (p.runRest answer cs s).2.1) := by
  induction p generalizing cs s with
  | ret a => rfl
  | fail e => rfl
  | call r k ih =>
    cases cs with
    | nil => rfl
    | cons c cs => exact ih _ _ _

/-- A run without choices stops where it is. -/
theorem run_nil (p : Prog Req Resp ε α) (s : σ) : (p.run answer [] s).2 = s := by
  cases p <;> rfl

/-- The second program runs with what the first one leaves over. -/
theorem run_bind_of_done {p : Prog Req Resp ε α} {f : α → Prog Req Resp ε β} {cs rest : List Choice}
    {s s' : σ} {a : α} (h : p.runRest answer cs s = (.done a, s', rest)) :
    (p >>= f).run answer cs s = (f a).run answer rest s' := by
  induction p generalizing cs s with
  | ret a' =>
    cases h
    rfl
  | fail e => cases h
  | call r k ih =>
    cases cs with
    | nil => cases h
    | cons c cs => exact ih _ h

/-- The second program does not run. -/
theorem run_bind_of_not_done {p : Prog Req Resp ε α} {f : α → Prog Req Resp ε β} {cs : List Choice}
    {s : σ} (h : ∀ a, (p.run answer cs s).1 ≠ .done a) :
    ((p >>= f).run answer cs s).2 = (p.run answer cs s).2 := by
  induction p generalizing cs s with
  | ret a => exact absurd rfl (h a)
  | fail e => rfl
  | call r k ih =>
    cases cs with
    | nil => rfl
    | cons c cs => exact ih _ h

/-- A run that returns needs no more choices than it uses. -/
theorem runRest_prefix {p : Prog Req Resp ε α} {cs rest : List Choice} {s s' : σ} {a : α}
    (h : p.runRest answer cs s = (.done a, s', rest)) :
    ∃ pre, ∀ cs', p.runRest answer (pre ++ cs') s = (.done a, s', cs') := by
  induction p generalizing cs s with
  | ret a' =>
    cases h
    exact ⟨[], fun _ => rfl⟩
  | fail e => cases h
  | call r k ih =>
    cases cs with
    | nil => cases h
    | cons c cs =>
      obtain ⟨pre, hpre⟩ := ih _ h
      exact ⟨c :: pre, hpre⟩

theorem Returns.run_done {R : α → Prop} {p : Prog Req Resp ε α} (h : Returns R p)
    {cs : List Choice} {s : σ} {a : α} (hrun : (p.run answer cs s).1 = .done a) : R a :=
  by
  have hsat : Sat answer (fun _ _ _ => True) (fun x _ => ∀ a, x = .ok a → R a) p s := h.sat s
  exact hsat.run_done (Prod.ext hrun rfl) a rfl

end Sequence

/-! ## The states of a run -/

section After

variable {answer}

theorem run_eq_getLastD (p : Prog Req Resp ε α) (cs : List Choice) (s : σ) :
    (p.run answer cs s).2 = (p.after answer cs s).getLastD s := by
  induction p generalizing s cs with
  | ret a => rfl
  | fail e => rfl
  | call r k ih =>
    cases cs with
    | nil => rfl
    | cons c cs =>
      simp only [run, after, trace, List.map_cons, List.getLastD_cons]
      exact ih (answer r c s).1 cs (answer r c s).2

/-- What the steps of one run keep holds at its end. -/
theorem run_invariant_of_trace {I : σ → Prop} (p : Prog Req Resp ε α) (cs : List Choice) (s : σ)
    (h : ∀ st ∈ p.trace answer cs s, I st.before → I st.after) (hs : I s) :
    I (p.run answer cs s).2 := by
  induction p generalizing s cs with
  | ret a => exact hs
  | fail e => exact hs
  | call r k ih =>
    cases cs with
    | nil => exact hs
    | cons c cs =>
      exact ih _ cs _ (fun st hst => h st (List.mem_cons_of_mem _ hst)) (h _ List.mem_cons_self hs)

/-- The states of a run follow each other by the steps of its requests. -/
theorem Sat.isChain_after {R : σ → σ → Prop} {Q : Except ε α → σ → Prop} {p : Prog Req Resp ε α}
    {s : σ} (h : Sat answer (fun a _ b => R a b) Q p s) (cs : List Choice) :
    (s :: p.after answer cs s).IsChain R := by
  induction p generalizing s cs with
  | ret a => simp [after, Prog.trace]
  | fail e => simp [after, Prog.trace]
  | call r k ih =>
    cases cs with
    | nil => simp [after, Prog.trace]
    | cons c cs =>
      simp only [after, Prog.trace, List.map_cons, List.isChain_cons_cons]
      exact ⟨(h c).1, ih _ (h c).2 cs⟩

/-- An invariant that each request keeps holds after every step of a run. -/
theorem Sat.forall_after {I : σ → Prop} {Q : Except ε α → σ → Prop} {p : Prog Req Resp ε α}
    {s : σ} (h : Sat answer (fun a _ b => I a → I b) Q p s) (hs : I s) (cs : List Choice) :
    ∀ t ∈ p.after answer cs s, I t := by
  induction p generalizing s cs with
  | ret a => simp [after, Prog.trace]
  | fail e => simp [after, Prog.trace]
  | call r k ih =>
    cases cs with
    | nil => simp [after, Prog.trace]
    | cons c cs =>
      have hnext := (h c).1 hs
      simp only [after, Prog.trace, List.map_cons, List.mem_cons, forall_eq_or_imp]
      exact ⟨hnext, ih _ (h c).2 hnext cs⟩

/-! ## Steps that repair an invariant -/

/-- Every step in `Bad` is followed by one in `Fix`. -/
def Covered (Bad Fix : Step Req σ → Prop) : List (Step Req σ) → Prop
  | [] => True
  | st :: sts => (Bad st → ∃ st' ∈ sts, Fix st') ∧ Covered Bad Fix sts

instance {Bad Fix : Step Req σ → Prop} [DecidablePred Bad] [DecidablePred Fix] :
    DecidablePred (Covered Bad Fix)
  | [] => isTrue trivial
  | st :: sts =>
    have : Decidable (Covered Bad Fix sts) := instDecidablePredListStepCovered sts
    inferInstanceAs (Decidable ((Bad st → ∃ st' ∈ sts, Fix st') ∧ Covered Bad Fix sts))

theorem Covered.mono {Bad Fix Fix' : Step Req σ → Prop} {sts : List (Step Req σ)}
    (h : Covered Bad Fix sts) (hfix : ∀ st ∈ sts, Fix st → Fix' st) : Covered Bad Fix' sts := by
  induction sts with
  | nil => trivial
  | cons st sts ih =>
    refine ⟨fun hbad => ?_, ih h.2 fun st' hst' => hfix st' (List.mem_cons_of_mem _ hst')⟩
    obtain ⟨st', hst', hF⟩ := h.1 hbad
    exact ⟨st', hst', hfix st' (List.mem_cons_of_mem _ hst') hF⟩

/-- An invariant that only the steps in `Bad` may break, and that the steps in `Fix`
    restore, holds at the end of a run that follows the former by the latter. -/
theorem Sat.recovers {I : σ → Prop} {Bad Fix : Step Req σ → Prop} {S : σ → Req → σ → Prop}
    {Q : Except ε α → σ → Prop} {p : Prog Req Resp ε α} {s : σ} (h : Sat answer S Q p s)
    {cs : List Choice}
    (hkeep : ∀ st ∈ p.trace answer cs s, S st.before st.req st.after → I st.before →
      I st.after ∨ Bad st)
    (hfix : ∀ st ∈ p.trace answer cs s, S st.before st.req st.after → Fix st → I st.after)
    (hcov : Covered Bad Fix (p.trace answer cs s))
    (hs : I s ∨ ∃ st ∈ p.trace answer cs s, Fix st) : I (p.run answer cs s).2 := by
  induction p generalizing s cs with
  | ret a => simpa [Prog.trace, Prog.run] using hs
  | fail e => simpa [Prog.trace, Prog.run] using hs
  | call r k ih =>
    cases cs with
    | nil => simpa [Prog.trace, Prog.run] using hs
    | cons c cs =>
      rw [Prog.trace] at hkeep hfix hcov hs
      refine ih _ (h c).2 (fun st hst => hkeep st (List.mem_cons_of_mem _ hst))
        (fun st hst => hfix st (List.mem_cons_of_mem _ hst)) hcov.2 ?_
      simp only [List.mem_cons, exists_eq_or_imp] at hs
      rcases hs with hI | hfixed | hlater
      · rcases hkeep _ List.mem_cons_self (h c).1 hI with hnext | hbad
        · exact .inl hnext
        · exact .inr (hcov.1 hbad)
      · exact .inl (hfix _ List.mem_cons_self (h c).1 hfixed)
      · exact .inr hlater

end After

end Prog
