-- SUMMARY: Several programs over one environment, one request at a time in any order, and what each of them does whatever it is answered.
import KrabkaOperator.Base.History

/-!
# Interleaved programs

Each party runs a program. A move answers one request of one party, starts a new
program, or changes the world from outside. Between two requests of a party the
others may make any number of theirs, so what a party may rely on is its own
dialogue, and what a run grants is stated on the history of all requests.
-/

namespace Interleave

variable {Req : Type} {Resp : Req → Type} {ε α : Type}

/-! ## What a program does whatever it is answered -/

/-- Every request of a program meets a guard on the dialogue so far, whatever the answers
    are. -/
def Behaves (G : Prog.Dialogue Resp → Req → Prop) : Prog Req Resp ε α → Prog.Dialogue Resp → Prop
  | .ret _, _ => True
  | .fail _, _ => True
  | .call r k, log => G log r ∧ ∀ x, Behaves G (k x) (log ++ [⟨r, x⟩])

section Behaves

variable {G : Prog.Dialogue Resp → Req → Prop} {β : Type}

theorem Behaves.bind {p : Prog Req Resp ε α} {f : α → Prog Req Resp ε β}
    {log : Prog.Dialogue Resp} (hp : Behaves G p log) (hf : ∀ v log, Behaves G (f v) log) :
    Behaves G (p >>= f) log := by
  induction p generalizing log with
  | ret a => exact hf a log
  | fail e => trivial
  | call r k ih => exact ⟨hp.1, fun x => ih x (hp.2 x)⟩

/-- A program all of whose requests meet the guard after any dialogue. -/
theorem behaves_of_makes {R : Req → Prop} {p : Prog Req Resp ε α} (h : Prog.Makes R p)
    (hG : ∀ log r, R r → G log r) (log : Prog.Dialogue Resp) : Behaves G p log := by
  induction p generalizing log with
  | ret a => trivial
  | fail e => trivial
  | call r k ih => exact ⟨hG log r h.1, fun x => ih x (h.2 x) _⟩

/-- As `Behaves`, with a condition on the result and the dialogue before it. -/
def BehavesTo (G : Prog.Dialogue Resp → Req → Prop) (Q : α → Prog.Dialogue Resp → Prop) :
    Prog Req Resp ε α → Prog.Dialogue Resp → Prop
  | .ret a, log => Q a log
  | .fail _, _ => True
  | .call r k, log => G log r ∧ ∀ x, BehavesTo G Q (k x) (log ++ [⟨r, x⟩])

theorem BehavesTo.behaves {Q : α → Prog.Dialogue Resp → Prop} {p : Prog Req Resp ε α}
    {log : Prog.Dialogue Resp} (h : BehavesTo G Q p log) : Behaves G p log := by
  induction p generalizing log with
  | ret a => trivial
  | fail e => trivial
  | call r k ih => exact ⟨h.1, fun x => ih x (h.2 x)⟩

theorem Behaves.to {p : Prog Req Resp ε α} {log : Prog.Dialogue Resp} (h : Behaves G p log) :
    BehavesTo G (fun _ _ => True) p log := by
  induction p generalizing log with
  | ret a => trivial
  | fail e => trivial
  | call r k ih => exact ⟨h.1, fun x => ih x (h.2 x)⟩

theorem BehavesTo.bind {Q : β → Prog.Dialogue Resp → Prop} {p : Prog Req Resp ε α}
    {f : α → Prog Req Resp ε β} {log : Prog.Dialogue Resp}
    (h : BehavesTo G (fun a log => BehavesTo G Q (f a) log) p log) :
    BehavesTo G Q (p >>= f) log := by
  induction p generalizing log with
  | ret a => exact h
  | fail e => trivial
  | call r k ih => exact ⟨h.1, fun x => ih x (h.2 x)⟩

theorem BehavesTo.mono {Q Q' : α → Prog.Dialogue Resp → Prop} {p : Prog Req Resp ε α}
    {log : Prog.Dialogue Resp} (h : BehavesTo G Q p log) (hQ : ∀ a log, Q a log → Q' a log) :
    BehavesTo G Q' p log := by
  induction p generalizing log with
  | ret a => exact hQ a log h
  | fail e => trivial
  | call r k ih => exact ⟨h.1, fun x => ih x (h.2 x)⟩

/-- A stage that is described by its requests: each of them keeps a condition on the
    dialogue. -/
theorem behavesTo_of_makes {R : Req → Prop} {I : Prog.Dialogue Resp → Prop}
    {p : Prog Req Resp ε α} {log : Prog.Dialogue Resp} (h : Prog.Makes R p)
    (hI : ∀ log r, R r → I log → G log r ∧ ∀ x, I (log ++ [⟨r, x⟩])) (hlog : I log) :
    BehavesTo G (fun _ log => I log) p log := by
  induction p generalizing log with
  | ret a => exact hlog
  | fail e => trivial
  | call r k ih =>
    obtain ⟨hG, hnext⟩ := hI log r h.1 hlog
    exact ⟨hG, fun x => ih x (h.2 x) (hnext x)⟩

end Behaves

/-! ## Moves -/

variable {ι σ Choice : Type}

/-- A state of several parties over one world. -/
structure State (ι σ : Type) (Req : Type) (Resp : Req → Type) (ε α : Type) where
  world : σ
  /-- What is left of the program of each party, and its dialogue so far. -/
  party : ι → Prog Req Resp ε α × Prog.Dialogue Resp
  /-- All requests, the last one first. -/
  history : List (ι × Req)

inductive Move (ι σ Choice Req : Type) (Resp : Req → Type) (ε α : Type) where
  | start (i : ι) (p : Prog Req Resp ε α)
  | request (i : ι) (c : Choice)
  | change (f : σ → σ)

/-- The next request of a party. -/
def next (p : Prog Req Resp ε α) : Option Req :=
  match p with
  | .call r _ => some r
  | _ => none

theorem call_of_next {p : Prog Req Resp ε α} {r : Req} (h : next p = some r) :
    ∃ k, p = .call r k := by
  cases p with
  | ret a => cases h
  | fail e => cases h
  | call r' k =>
    cases h
    exact ⟨k, rfl⟩

variable [DecidableEq ι] (answer : (r : Req) → Choice → σ → Resp r × σ)

/-- The state after an answer to the next request of a party. -/
def answered (i : ι) (c : Choice) (s : State ι σ Req Resp ε α) (r : Req)
    (k : Resp r → Prog Req Resp ε α) : State ι σ Req Resp ε α where
  world := (answer r c s.world).2
  party := Function.update s.party i
    (k (answer r c s.world).1, (s.party i).2 ++ [⟨r, (answer r c s.world).1⟩])
  history := (i, r) :: s.history

def step : Move ι σ Choice Req Resp ε α → State ι σ Req Resp ε α → State ι σ Req Resp ε α
  | .start i p, s => { s with party := Function.update s.party i (p, []) }
  | .change f, s => { s with world := f s.world }
  | .request i c, s =>
    match (s.party i).1 with
    | .call r k => answered answer i c s r k
    | _ => s

/-- The states of a run, as a history of single moves. -/
def exec (m : Move ι σ Choice Req Resp ε α) (s : State ι σ Req Resp ε α) :
    List (State ι σ Req Resp ε α) :=
  [step answer m s]

variable {answer}

section Answered

variable {i j : ι} {c : Choice} {s : State ι σ Req Resp ε α} {r : Req}
  {k : Resp r → Prog Req Resp ε α}

@[simp] theorem answered_party_self : (answered answer i c s r k).party i =
    (k (answer r c s.world).1, (s.party i).2 ++ [⟨r, (answer r c s.world).1⟩]) :=
  Function.update_self ..

theorem answered_party_of_ne (h : j ≠ i) : (answered answer i c s r k).party j = s.party j :=
  Function.update_of_ne h ..

@[simp] theorem answered_world :
    (answered answer i c s r k).world = (answer r c s.world).2 := rfl

end Answered

theorem finish_exec {m : Move ι σ Choice Req Resp ε α} {s : State ι σ Req Resp ε α} :
    History.finish (exec answer) m s = step answer m s := rfl

variable (answer) in
/-- A party with a request is answered; the others wait for nothing. -/
theorem step_request (i : ι) (c : Choice) (s : State ι σ Req Resp ε α) :
    (∃ r k, (s.party i).1 = .call r k ∧
      step answer (.request i c) s = answered answer i c s r k) ∨
    (next (s.party i).1 = none ∧ step answer (.request i c) s = s) := by
  cases hp : (s.party i).1 with
  | ret a => exact .inr ⟨rfl, by simp [step, hp]⟩
  | fail e => exact .inr ⟨rfl, by simp [step, hp]⟩
  | call r k => exact .inl ⟨r, k, rfl, by simp [step, hp]⟩

variable (answer) in
/-- Guards that the started programs keep, one for each party, are kept by what is left of
    them. -/
theorem Behaves.step_party {G : ι → Prog.Dialogue Resp → Req → Prop}
    {m : Move ι σ Choice Req Resp ε α} {s : State ι σ Req Resp ε α}
    (h : ∀ i, Behaves (G i) (s.party i).1 (s.party i).2)
    (hm : ∀ i p, m = .start i p → Behaves (G i) p []) :
    ∀ i, Behaves (G i) ((step answer m s).party i).1 ((step answer m s).party i).2 := by
  intro j
  cases m with
  | start i p =>
    by_cases hj : j = i
    · subst hj
      simpa [Interleave.step] using hm j p rfl
    · simpa [Interleave.step, Function.update_of_ne hj] using h j
  | change f => exact h j
  | request i c =>
    rcases step_request answer i c s with ⟨r, k, heq, hstep⟩ | ⟨-, hstep⟩
    · rw [hstep]
      by_cases hj : j = i
      · subst hj
        have hcall := h j
        rw [heq] at hcall
        simpa [answered] using hcall.2 _
      · simpa [answered, Function.update_of_ne hj] using h j
    · rw [hstep]
      exact h j

variable (answer) in
/-- A guard that all started programs keep is kept by what is left of them. -/
theorem Behaves.step {G : Prog.Dialogue Resp → Req → Prop} {m : Move ι σ Choice Req Resp ε α}
    {s : State ι σ Req Resp ε α} (h : ∀ i, Behaves G (s.party i).1 (s.party i).2)
    (hm : ∀ i p, m = .start i p → Behaves G p []) :
    ∀ i, Behaves G ((step answer m s).party i).1 ((step answer m s).party i).2 :=
  Behaves.step_party answer (G := fun _ => G) h hm

end Interleave
