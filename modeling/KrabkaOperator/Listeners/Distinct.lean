-- SUMMARY: Accepted listeners have distinct names and ports, the listener of the operator differs from all of them, and one of them serves the brokers.
import KrabkaOperator.Base.Checks
import KrabkaOperator.Listeners.Validation
import Mathlib.Data.List.Pairwise

/-!
# Distinct listeners
-/

namespace Listeners

open Crd Checks

variable {ruleParses : String → Bool} {ls : List Listener} {explicit : Option String}

/-! ## Accepted listeners -/

theorem validateUniqueListeners_apart {priors : List Listener}
    (h : validateUniqueListeners priors ls = .ok ()) :
    (∀ a ∈ priors, ∀ b ∈ ls, a.name ≠ b.name ∧ a.port ≠ b.port) ∧
      ls.Pairwise fun a b => a.name ≠ b.name ∧ a.port ≠ b.port := by
  induction ls generalizing priors with
  | nil => simp
  | cons l ls ih =>
    rw [validateUniqueListeners] at h
    simp only [bind_eq_ok, forM_eq_ok, guard_eq_ok, guard_pure_eq_ok] at h
    obtain ⟨-, hhead, hrest⟩ := h
    obtain ⟨hpriors, hpairs⟩ := ih hrest
    refine ⟨fun a ha b hb => ?_, List.pairwise_cons.mpr ⟨fun b hb => ?_, hpairs⟩⟩
    · rcases List.mem_cons.mp hb with rfl | hb
      · exact hhead a ha
      · exact hpriors a (List.mem_append_left _ ha) b hb
    · exact hpriors l (List.mem_append_right _ List.mem_cons_self) b hb

/-- The parts of an accepted list. -/
theorem validateListeners_eq_ok : validateListeners ruleParses ls explicit = .ok () ↔
    validateUniqueListeners [] ls = .ok () ∧ (∀ l ∈ ls, validateListener ruleParses l = .ok ()) ∧
      allSame ((oauthConfigs ls).map oauthCanonical) = true ∧ allSame (gssapiConfigs ls) = true ∧
      validateInterBroker ls explicit = .ok () := by
  unfold validateListeners
  simp only [bind_eq_ok, forM_eq_ok, guard_eq_ok, Bool.not_eq_true', Bool.not_eq_false]
  constructor
  · rintro ⟨_, hunique, _, heach, hoauth, hgssapi, hinter⟩
    exact ⟨hunique, heach, hoauth, hgssapi, hinter⟩
  · rintro ⟨hunique, heach, hoauth, hgssapi, hinter⟩
    exact ⟨(), hunique, (), heach, hoauth, hgssapi, hinter⟩

theorem apart_of_ne (h : validateListeners ruleParses ls explicit = .ok ()) {a b : Listener}
    (ha : a ∈ ls) (hb : b ∈ ls) (hne : a ≠ b) : a.name ≠ b.name ∧ a.port ≠ b.port := by
  have hsymm : Std.Symm fun a b : Listener => a.name ≠ b.name ∧ a.port ≠ b.port :=
    ⟨fun _ _ hab => ⟨hab.1.symm, hab.2.symm⟩⟩
  exact (validateUniqueListeners_apart (validateListeners_eq_ok.mp h).1).2.forall ha hb hne

/-- Accepted listeners with the same port are the same. -/
theorem eq_of_port_eq (h : validateListeners ruleParses ls explicit = .ok ()) {a b : Listener}
    (ha : a ∈ ls) (hb : b ∈ ls) (hport : a.port = b.port) : a = b := by
  by_contra hne
  exact (apart_of_ne h ha hb hne).2 hport

/-- Accepted listeners with the same name are the same. -/
theorem eq_of_name_eq (h : validateListeners ruleParses ls explicit = .ok ()) {a b : Listener}
    (ha : a ∈ ls) (hb : b ∈ ls) (hname : a.name = b.name) : a = b := by
  by_contra hne
  exact (apart_of_ne h ha hb hne).1 hname

/-- The listener between brokers is an internal one of the user. -/
theorem exists_interBroker {spec : KafkaSpec} (h : validateListeners ruleParses (userListeners spec)
    spec.interBrokerListenerName = .ok ()) : ∃ l ∈ userListeners spec,
      l.name = effectiveInterBrokerListenerName spec.listeners spec.interBrokerListenerName ∧
        l.type = .internal := by
  have hinter := (validateListeners_eq_ok.mp h).2.2.2.2
  have hne : userListeners spec ≠ [] := by
    unfold userListeners
    split
    · simp
    · assumption
  unfold validateInterBroker at hinter
  rw [if_pos hne, guard_eq_ok] at hinter
  obtain ⟨hinternal, hname⟩ := hinter
  unfold effectiveInterBrokerListenerName
  cases hexp : spec.interBrokerListenerName with
  | some name =>
    simp only [hexp] at hname
    split at hname
    · cases hname
    · next l hfind =>
      rw [guard_pure_eq_ok, not_not] at hname
      exact ⟨l, List.mem_of_find?_eq_some hfind, by simpa using List.find?_some hfind, hname⟩
  | none =>
    dsimp only
    split
    · next l hfind =>
      have hmem := List.mem_of_find?_eq_some hfind
      have hlist : spec.listeners ≠ [] := List.ne_nil_of_mem hmem
      exact ⟨l, by simpa [userListeners, hlist] using hmem, rfl,
        by simpa using List.find?_some hfind⟩
    · next hfind =>
      by_cases hlist : spec.listeners = []
      · exact ⟨synthesizedDefaultListener, by simp [userListeners, hlist], rfl, rfl⟩
      · simp only [userListeners, hlist, if_false] at hinternal
        rw [List.find?_eq_none] at hfind
        exact absurd (List.any_eq_false.mpr hfind) (by simpa using hinternal)

/-! ## The listener of the operator -/

/-- Fewer entries pass a higher bound. -/
theorem length_filter_succ_lt {α : Type} {f : α → Int} {xs : List α} {x : α} (hx : x ∈ xs) :
    (xs.filter fun y => f x + 1 ≤ f y).length < (xs.filter fun y => f x ≤ f y).length := by
  have hfilter : (xs.filter fun y => f x + 1 ≤ f y) =
      (xs.filter fun y => f x ≤ f y).filter fun y => f x + 1 ≤ f y := by
    rw [List.filter_filter]
    refine List.filter_congr fun y _ => ?_
    rw [← Bool.decide_and]
    exact decide_eq_decide.mpr ⟨fun hy => ⟨hy, by omega⟩, And.left⟩
  rw [hfilter, List.length_filter_lt_length_iff_exists]
  exact ⟨x, by simp [hx], by simp only [decide_eq_true_eq]; omega⟩

/-- The search for a name ends outside of the taken names. -/
theorem freeName_not_mem {taken : List String} {fuel : Nat} {name : String}
    (h : (taken.filter fun t => (name.length : Int) ≤ t.length).length ≤ fuel) :
    freeName taken fuel name ∉ taken := by
  induction fuel generalizing name with
  | zero =>
    intro hmem
    have hempty := List.length_eq_zero_iff.mp (Nat.le_zero.mp h)
    exact List.filter_eq_nil_iff.mp hempty _ hmem (by simp [freeName])
  | succ fuel ih =>
    rw [freeName]
    split
    · next hmem =>
      refine ih ?_
      have hlt := length_filter_succ_lt (f := fun t : String => (t.length : Int)) hmem
      simp only [String.length_append]
      have hone : ("_" : String).length = 1 := rfl
      push_cast [hone]
      omega
    · assumption

theorem freePort_not_mem {taken : List Int} {fuel : Nat} {port : Int}
    (h : (taken.filter fun t => port ≤ t).length ≤ fuel) : freePort taken fuel port ∉ taken := by
  induction fuel generalizing port with
  | zero =>
    intro hmem
    have hempty := List.length_eq_zero_iff.mp (Nat.le_zero.mp h)
    exact List.filter_eq_nil_iff.mp hempty _ hmem (by simp [freePort])
  | succ fuel ih =>
    rw [freePort]
    split
    · next hmem =>
      refine ih ?_
      have hlt := length_filter_succ_lt (f := fun t : Int => t) hmem
      omega
    · assumption

theorem operatorListener_name_not_mem : (operatorListener ls).name ∉ ls.map (·.name) := by
  refine freeName_not_mem ((List.length_filter_le _ _).trans ?_)
  simp

theorem operatorListener_port_not_mem :
    (operatorListener ls).port ∉ controllerPort :: brokerPort :: ls.map (·.port) := by
  refine freePort_not_mem ((List.length_filter_le _ _).trans ?_)
  simp

end Listeners
