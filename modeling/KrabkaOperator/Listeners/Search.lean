-- SUMMARY: The two searches for the listener of the operator end, within bounds that the number of listeners gives, and do not depend on the order of the listeners.
import KrabkaOperator.Base.Loop
import KrabkaOperator.Listeners.Distinct
import Mathlib.Data.List.Perm.Basic

/-!
# The searches for the listener of the operator

The name grows and the port counts up while they are taken. Each turn passes one taken
name or port, so no search takes more turns than there are.
-/

namespace Listeners

open Crd

/-- The largest `i32`. -/
def maxPort : Int := 2147483647

/-- A name of a listener. -/
def NameTaken (ls : List Listener) (name : String) : Prop := ∃ l ∈ ls, l.name = name

/-- A port of a listener, or one of the two ports that every broker has. -/
def PortTaken (ls : List Listener) (port : Int) : Prop :=
  port = controllerPort ∨ port = brokerPort ∨ ∃ l ∈ ls, l.port = port

/-! ## Where a search ends -/

theorem freeName_ends {taken : List String} {fuel : Nat} {name : String}
    (h : freeName taken fuel name ∉ taken) :
    ∃ k ≤ fuel, Loop.Ends (· ∈ taken) (· ++ "_") name k (freeName taken fuel name) := by
  induction fuel generalizing name with
  | zero => exact ⟨0, le_rfl, .here h⟩
  | succ fuel ih =>
    rw [freeName] at h ⊢
    split
    · next hmem =>
      rw [if_pos hmem] at h
      obtain ⟨k, hk, hends⟩ := ih h
      exact ⟨k + 1, Nat.succ_le_succ hk, hends.turn hmem⟩
    · next hmem => exact ⟨0, Nat.zero_le _, .here hmem⟩

theorem freePort_ends {taken : List Int} {fuel : Nat} {port : Int}
    (h : freePort taken fuel port ∉ taken) :
    ∃ k ≤ fuel, Loop.Ends (· ∈ taken) (· + 1) port k (freePort taken fuel port) := by
  induction fuel generalizing port with
  | zero => exact ⟨0, le_rfl, .here h⟩
  | succ fuel ih =>
    rw [freePort] at h ⊢
    split
    · next hmem =>
      rw [if_pos hmem] at h
      obtain ⟨k, hk, hends⟩ := ih h
      exact ⟨k + 1, Nat.succ_le_succ hk, hends.turn hmem⟩
    · next hmem => exact ⟨0, Nat.zero_le _, .here hmem⟩

variable {ls ls' : List Listener}

theorem mem_names_iff {name : String} : name ∈ ls.map (·.name) ↔ NameTaken ls name :=
  List.mem_map

theorem mem_ports_iff {port : Int} :
    port ∈ controllerPort :: brokerPort :: ls.map (·.port) ↔ PortTaken ls port := by
  simp only [PortTaken, List.mem_cons, List.mem_map]

theorem operatorListener_name_ends : ∃ k ≤ ls.length,
    Loop.Ends (NameTaken ls) (· ++ "_") operatorListenerName k (operatorListener ls).name := by
  obtain ⟨k, hk, hends⟩ := freeName_ends (@operatorListener_name_not_mem ls)
  exact ⟨k, hk, hends.congr fun _ => mem_names_iff⟩

theorem operatorListener_port_ends : ∃ k ≤ ls.length + 2,
    Loop.Ends (PortTaken ls) (· + 1) operatorListenerPort k (operatorListener ls).port := by
  obtain ⟨k, hk, hends⟩ := freePort_ends (@operatorListener_port_not_mem ls)
  exact ⟨k, hk, hends.congr fun _ => mem_ports_iff⟩

theorem iterate_succ_port (port : Int) (j : Nat) : (· + 1)^[j] port = port + j := by
  induction j generalizing port with
  | zero => simp
  | succ j ih =>
    rw [Function.iterate_succ_apply, ih]
    push_cast
    omega

/-! ## The order of the listeners -/

theorem nameTaken_perm (h : ls.Perm ls') (name : String) :
    NameTaken ls name ↔ NameTaken ls' name := by
  simp only [NameTaken, h.mem_iff]

theorem portTaken_perm (h : ls.Perm ls') (port : Int) :
    PortTaken ls port ↔ PortTaken ls' port := by
  simp only [PortTaken, h.mem_iff]

theorem operatorListener_perm (h : ls.Perm ls') : operatorListener ls = operatorListener ls' := by
  obtain ⟨k, -, hname⟩ := @operatorListener_name_ends ls
  obtain ⟨k', -, hname'⟩ := @operatorListener_name_ends ls'
  obtain ⟨m, -, hport⟩ := @operatorListener_port_ends ls
  obtain ⟨m', -, hport'⟩ := @operatorListener_port_ends ls'
  have hsameName := ((hname.congr (nameTaken_perm h)).unique hname').2
  have hsamePort := ((hport.congr (portTaken_perm h)).unique hport').2
  simp only [operatorListener] at hsameName hsamePort ⊢
  rw [hsameName, hsamePort]

/-! ## The listener -/

/-- Both searches end. The name and the port are free, the port is one of the first `n + 3` from
    9091 on, and no value of the search leaves `i32` for a list that is not longer than the rest
    of that range. The order of the listeners does not matter. -/
theorem operator_listener_found (ls : List Listener) :
    (∃ k ≤ ls.length,
      Loop.Ends (NameTaken ls) (· ++ "_") operatorListenerName k (operatorListener ls).name) ∧
    (∃ m ≤ ls.length + 2,
      Loop.Ends (PortTaken ls) (· + 1) operatorListenerPort m (operatorListener ls).port ∧
      (9093 + (ls.length : Int) ≤ maxPort → ∀ j ≤ m, (· + 1)^[j] operatorListenerPort ≤ maxPort)) ∧
    (∀ l ∈ ls, l.name ≠ (operatorListener ls).name ∧ l.port ≠ (operatorListener ls).port) ∧
    (operatorListener ls).port ≠ 9092 ∧ (operatorListener ls).port ≠ 9093 ∧
    9091 ≤ (operatorListener ls).port ∧ (operatorListener ls).port ≤ 9091 + ls.length + 2 ∧
    ∀ ls', ls.Perm ls' → operatorListener ls' = operatorListener ls := by
  obtain ⟨k, hk, hname⟩ := @operatorListener_name_ends ls
  obtain ⟨m, hm, hport⟩ := @operatorListener_port_ends ls
  have hvalue : (operatorListener ls).port = 9091 + (m : Int) := by
    rw [← hport.reached, iterate_succ_port, operatorListenerPort]
  have hfree := hport.free
  simp only [PortTaken, controllerPort, brokerPort, not_or] at hfree
  refine ⟨⟨k, hk, hname⟩, ⟨m, hm, hport, fun hlen j hj => ?_⟩,
    fun l hl => ⟨fun heq => ?_, fun heq => ?_⟩, hfree.2.1, hfree.1, by omega, by omega,
    fun ls' hperm => (operatorListener_perm hperm).symm⟩
  · rw [iterate_succ_port, operatorListenerPort]
    omega
  · exact hname.free ⟨l, hl, heq⟩
  · exact hfree.2.2 ⟨l, hl, heq⟩

/-- Three listeners that hold the first two names, the first port and the port behind the two
    reserved ones. -/
def crowded : List Listener :=
  [{ name := "OPERATOR", port := 9091, type := .internal },
    { name := "OPERATOR_", port := 9091, type := .internal },
    { name := "a", port := 9094, type := .internal }]

theorem operator_listener_found_crowded :
    (∀ l ∈ crowded, l.name ≠ (operatorListener crowded).name ∧
      l.port ≠ (operatorListener crowded).port) ∧
    operatorListener crowded.reverse = operatorListener crowded ∧
    (operatorListener crowded).name = "OPERATOR__" ∧ (operatorListener crowded).port = 9095 :=
  ⟨(operator_listener_found crowded).2.2.1,
    (operator_listener_found crowded).2.2.2.2.2.2.2 _ (List.reverse_perm _).symm, by decide, by decide⟩

end Listeners
