-- SUMMARY: Programs that make at most so many requests on every path, and that do not stop when they have as many choices.
import KrabkaOperator.Base.Prog

/-!
# Request budgets

A run stops when its choices are used up. A program with a budget never gets there
with as many choices as its budget.
-/

namespace Prog

variable {Req : Type} {Resp : Req → Type} {ε α β σ Choice : Type}

/-- A program makes at most so many requests, whatever it is answered. -/
def Within : Prog Req Resp ε α → Nat → Prop
  | .ret _, _ => True
  | .fail _, _ => True
  | .call _ _, 0 => False
  | .call _ k, n + 1 => ∀ x, (k x).Within n

variable {n m : Nat}

@[simp] theorem within_ret {a : α} : (.ret a : Prog Req Resp ε α).Within n := trivial
@[simp] theorem within_fail {e : ε} : (.fail e : Prog Req Resp ε α).Within n := trivial

theorem within_ofExcept (x : Except ε α) : (ofExcept x : Prog Req Resp ε α).Within n := by
  cases x with
  | ok a => exact within_ret
  | error e => exact within_fail

theorem within_request {r : Req} {k : Resp r → Prog Req Resp ε α} (h : ∀ x, (k x).Within n) :
    (request r >>= k).Within (n + 1) := h

theorem Within.mono {p : Prog Req Resp ε α} (h : p.Within n) (hn : n ≤ m) : p.Within m := by
  induction p generalizing n m with
  | ret a => exact within_ret
  | fail e => exact within_fail
  | call r k ih =>
    cases n with
    | zero => exact absurd h id
    | succ n =>
      cases m with
      | zero => exact absurd hn (Nat.not_succ_le_zero n)
      | succ m => exact fun x => ih x (h x) (Nat.le_of_succ_le_succ hn)

theorem Within.bind {p : Prog Req Resp ε α} {f : α → Prog Req Resp ε β} (h : p.Within n)
    (hf : ∀ a, (f a).Within m) : (p >>= f).Within (n + m) := by
  induction p generalizing n with
  | ret a => exact (hf a).mono (Nat.le_add_left m n)
  | fail e => exact within_fail
  | call r k ih =>
    cases n with
    | zero => exact absurd h id
    | succ n =>
      rw [Nat.succ_add]
      exact fun x => ih x (h x)

/-- Enough choices carry a run to its end. -/
theorem Within.run_ne_stopped {p : Prog Req Resp ε α} (h : p.Within n)
    {answer : (r : Req) → Choice → σ → Resp r × σ} {cs : List Choice} (hn : n ≤ cs.length) (s : σ) :
    (p.run answer cs s).1 ≠ .stopped := by
  induction p generalizing n cs s with
  | ret a => simp [Prog.run]
  | fail e => simp [Prog.run]
  | call r k ih =>
    cases n with
    | zero => exact absurd h id
    | succ n =>
      cases cs with
      | nil => exact absurd hn (Nat.not_succ_le_zero n)
      | cons c cs => exact ih _ (h _) (Nat.le_of_succ_le_succ hn) _

end Prog
