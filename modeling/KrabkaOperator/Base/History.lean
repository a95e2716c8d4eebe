-- SUMMARY: Histories of events that take several atomic steps each: the states they pass, and the rules for what holds along a history.
import KrabkaOperator.Base.Prog

/-!
# Histories

An event, such as a whole program run with its faults, takes some atomic steps.
`exec e s` lists the states after each of them. A history runs events one after
the other; its states include those in the middle of an event.
-/

namespace History

variable {E σ : Type} (exec : E → σ → List σ)

/-- The state in which an event ends. -/
def finish (e : E) (s : σ) : σ := (exec e s).getLastD s

/-- The states after each atomic step of the events. -/
def steps : List E → σ → List σ
  | [], _ => []
  | e :: es, s => exec e s ++ steps es (finish exec e s)

/-- The state after all events. -/
def final : List E → σ → σ
  | [], s => s
  | e :: es, s => final es (finish exec e s)

/-- All states of the history. -/
def states (es : List E) (s : σ) : List σ := s :: steps exec es s

variable {exec} {R : σ → σ → Prop} {I : σ → Prop} {P : E → Prop} {es : List E} {s : σ}

theorem getLastD_mem_cons (l : List σ) (s : σ) : l.getLastD s ∈ s :: l := by
  induction l generalizing s with
  | nil => simp
  | cons a l ih =>
    rw [List.getLastD_cons]
    exact List.mem_cons_of_mem _ (ih a)

/-- An invariant that holds in every state of each event holds in every state. -/
theorem invariant (hs : I s) (hes : ∀ e ∈ es, P e)
    (h : ∀ e s, P e → I s → ∀ t ∈ exec e s, I t) : ∀ t ∈ states exec es s, I t := by
  induction es generalizing s with
  | nil => simpa [states, steps] using hs
  | cons e es ih =>
    have hall := h e s (hes e List.mem_cons_self) hs
    have hend : I (finish exec e s) := by
      rcases List.mem_cons.mp (getLastD_mem_cons (exec e s) s) with heq | hmem
      · rw [finish, heq]
        exact hs
      · exact hall _ hmem
    have hrest := ih hend fun e' he' => hes e' (List.mem_cons_of_mem _ he')
    intro t ht
    simp only [states, steps, List.mem_cons, List.mem_append] at ht
    rcases ht with rfl | ht | ht
    · exact hs
    · exact hall t ht
    · exact hrest t (List.mem_cons_of_mem _ ht)

/-- Each event meets a condition in the state in which it starts. -/
def Along (exec : E → σ → List σ) (P : E → σ → Prop) : List E → σ → Prop
  | [], _ => True
  | e :: es, s => P e s ∧ Along exec P es (finish exec e s)

instance {exec : E → σ → List σ} {P : E → σ → Prop} [∀ e s, Decidable (P e s)] :
    (es : List E) → (s : σ) → Decidable (Along exec P es s)
  | [], _ => isTrue trivial
  | e :: es, s =>
    have : Decidable (Along exec P es (finish exec e s)) := instDecidableAlong es (finish exec e s)
    inferInstanceAs (Decidable (P e s ∧ Along exec P es (finish exec e s)))

theorem Along.mono {P P' : E → σ → Prop} (h : Along exec P es s) (hP : ∀ e s, P e s → P' e s) :
    Along exec P' es s := by
  induction es generalizing s with
  | nil => trivial
  | cons e es ih => exact ⟨hP e s h.1, ih h.2⟩

theorem Along.and {P Q : E → σ → Prop} (hP : Along exec P es s) (hQ : Along exec Q es s) :
    Along exec (fun e s => P e s ∧ Q e s) es s := by
  induction es generalizing s with
  | nil => trivial
  | cons e es ih => exact ⟨⟨hP.1, hQ.1⟩, ih hP.2 hQ.2⟩

/-- A condition that every event meets in every state. -/
theorem along_of_forall {P : E → σ → Prop} (h : ∀ e s, P e s) (es : List E) (s : σ) :
    Along exec P es s := by
  induction es generalizing s with
  | nil => trivial
  | cons e es ih => exact ⟨h e s, ih _⟩

/-- A condition that events meet where an invariant holds that they keep. -/
theorem Along.of_invariant {P Q : E → σ → Prop} (hes : Along exec P es s) (hs : I s)
    (h : ∀ e s, P e s → I s → Q e s ∧ I (finish exec e s)) : Along exec Q es s := by
  induction es generalizing s with
  | nil => trivial
  | cons e es ih =>
    obtain ⟨hQ, hnext⟩ := h e s hes.1 hs
    exact ⟨hQ, ih hes.2 hnext⟩

theorem Along.append {P : E → σ → Prop} {pre post : List E} (h : Along exec P (pre ++ post) s) :
    Along exec P pre s ∧ Along exec P post (final exec pre s) := by
  induction pre generalizing s with
  | nil => exact ⟨trivial, h⟩
  | cons e pre ih =>
    obtain ⟨hpre, hpost⟩ := ih h.2
    exact ⟨⟨h.1, hpre⟩, hpost⟩

theorem Along.join {P : E → σ → Prop} {pre post : List E} (hpre : Along exec P pre s)
    (hpost : Along exec P post (final exec pre s)) : Along exec P (pre ++ post) s := by
  induction pre generalizing s with
  | nil => exact hpost
  | cons e pre ih => exact ⟨hpre.1, ih hpre.2 hpost⟩

theorem final_append {pre post : List E} :
    final exec (pre ++ post) s = final exec post (final exec pre s) := by
  induction pre generalizing s with
  | nil => rfl
  | cons e pre ih => exact ih

/-- A property `J` of all states, from an invariant `I` of the states between events. -/
theorem invariant_along {J : σ → Prop} {P : E → σ → Prop} (hs : I s) (hes : Along exec P es s)
    (hIJ : ∀ s, I s → J s) (hend : ∀ e s, P e s → I s → I (finish exec e s))
    (h : ∀ e s, P e s → I s → ∀ t ∈ exec e s, J t) : ∀ t ∈ states exec es s, J t := by
  induction es generalizing s with
  | nil => simpa [states, steps] using hIJ s hs
  | cons e es ih =>
    have hrest := ih (hend e s hes.1 hs) hes.2
    intro t ht
    simp only [states, steps, List.mem_cons, List.mem_append] at ht
    rcases ht with rfl | ht | ht
    · exact hIJ t hs
    · exact h e s hes.1 hs t ht
    · exact hrest t (List.mem_cons_of_mem _ ht)

/-- An invariant that every state of an event keeps. -/
theorem invariant_states {P : E → σ → Prop} (hs : I s) (hes : Along exec P es s)
    (h : ∀ e s, P e s → I s → ∀ t ∈ exec e s, I t) : ∀ t ∈ states exec es s, I t := by
  refine invariant_along hs hes (fun _ h => h) (fun e s he hs => ?_) h
  rcases List.mem_cons.mp (getLastD_mem_cons (exec e s) s) with heq | hmem
  · rwa [finish, heq]
  · exact h e s he hs _ hmem

theorem final_mem_states : final exec es s ∈ states exec es s := by
  induction es generalizing s with
  | nil => simp [final, states]
  | cons e es ih =>
    have hlast := getLastD_mem_cons (exec e s) s
    have := ih (s := finish exec e s)
    simp only [states, steps, final, List.mem_cons, List.mem_append] at this ⊢ hlast
    rcases this with heq | hmem
    · rw [heq, finish]
      rcases hlast with h | h
      · exact .inl h
      · exact .inr (.inl h)
    · exact .inr (.inr hmem)

private theorem isChain_append {l₁ l₂ : List σ} (h₁ : (s :: l₁).IsChain R)
    (h₂ : (l₁.getLastD s :: l₂).IsChain R) : (s :: (l₁ ++ l₂)).IsChain R := by
  induction l₁ generalizing s with
  | nil => simpa using h₂
  | cons a l ih =>
    rw [List.isChain_cons_cons] at h₁
    rw [List.cons_append, List.isChain_cons_cons]
    refine ⟨h₁.1, ih h₁.2 ?_⟩
    rwa [List.getLastD_cons] at h₂

/-- Steps that are related inside of each event are related along the history. -/
theorem isChain (hs : I s) (hes : ∀ e ∈ es, P e)
    (hI : ∀ e s, P e → I s → ∀ t ∈ exec e s, I t)
    (h : ∀ e s, P e → I s → (s :: exec e s).IsChain R) : (states exec es s).IsChain R := by
  induction es generalizing s with
  | nil => simp [states, steps]
  | cons e es ih =>
    have he := hes e List.mem_cons_self
    have hend : I (finish exec e s) := by
      rcases List.mem_cons.mp (getLastD_mem_cons (exec e s) s) with heq | hmem
      · rw [finish, heq]
        exact hs
      · exact hI e s he hs _ hmem
    exact isChain_append (h e s he hs) (ih hend fun e' he' => hes e' (List.mem_cons_of_mem _ he'))

/-- A property that counts steps holds at each state for at most the number of steps. -/
theorem exists_index_of_isChain {P : Nat → σ → Prop} {l : List σ} {i : Nat}
    (hl : (s :: l).IsChain R) (h₀ : P i s) (h : ∀ i a b, R a b → P i a → P (i + 1) b) :
    ∀ t ∈ s :: l, ∃ j ≤ i + l.length, P j t := by
  induction l generalizing s i with
  | nil =>
    intro t ht
    rw [List.mem_singleton] at ht
    exact ⟨i, le_rfl, ht ▸ h₀⟩
  | cons a l ih =>
    rw [List.isChain_cons_cons] at hl
    intro t ht
    rcases List.mem_cons.mp ht with rfl | ht
    · exact ⟨i, Nat.le_add_right _ _, h₀⟩
    · obtain ⟨j, hj, hP⟩ := ih hl.2 (h i s a hl.1 h₀) t ht
      refine ⟨j, ?_, hP⟩
      rw [List.length_cons]
      omega

/-- Some events that each meet a condition lead from a state to another. -/
def Reach (exec : E → σ → List σ) (P : E → σ → Prop) (s t : σ) : Prop :=
  ∃ es, Along exec P es s ∧ final exec es s = t

section Reach

variable {P : E → σ → Prop} {t u : σ}

theorem Reach.refl (s : σ) : Reach exec P s s := ⟨[], trivial, rfl⟩

theorem Reach.head {e : E} (he : P e s) (h : Reach exec P (finish exec e s) t) :
    Reach exec P s t := by
  obtain ⟨es, hes, rfl⟩ := h
  exact ⟨e :: es, ⟨he, hes⟩, rfl⟩

theorem Reach.trans (h : Reach exec P s t) (h' : Reach exec P t u) : Reach exec P s u := by
  obtain ⟨es, hes, rfl⟩ := h
  obtain ⟨es', hes', rfl⟩ := h'
  exact ⟨es ++ es', hes.join hes', final_append⟩

end Reach

end History
