-- SUMMARY: What a reconcile call on one CA may touch, whatever is stored: its two Secrets, the cert Secret at most once, and nothing at all for a CA of the user.
import KrabkaOperator.ClusterCa.Refinement

/-!
# The frame of a CA call

The refinement speaks about CAs that the operator made. This module makes no
assumption on what is stored. A call writes the two Secrets of its CA only, its
patches list the CA entries only, and the last of them is its only patch of the
cert Secret. A call on a CA that the user brings makes no write.
-/

namespace ClusterCa

open Kube Crd Operator

/-- The data keys of the CA Secrets. -/
def caKeys : List String := ["ca.key", "ca.crt", nextKey, nextCert]

/-- One request of a call that started in `w₀`. -/
structure CallFrame (which : WhichCa) (cluster : String) (w₀ a : World) (r : Req) (b : World) :
    Prop where
  frame : CaFrame which cluster a b
  draws : a.draws ≤ b.draws
  /-- The Secrets are written while the cert Secret is the one that the call has found. -/
  once : (b.secret? (which.keyName cluster) = a.secret? (which.keyName cluster) ∧
      b.secret? (which.certName cluster) = a.secret? (which.certName cluster)) ∨
    a.secret? (which.certName cluster) = w₀.secret? (which.certName cluster)
  readPem : ∀ {name key pem}, key ∉ caKeys → b.readPem name key = some pem →
    a.readPem name key = some pem
  quiet : r.quiet = true
  writes : ∀ name, r.secretName? = some name →
    name = which.keyName cluster ∨ name = which.certName cluster

variable {lib : CaLib} {which : WhichCa} {cluster : String} {w₀ w : World}

namespace CallFrame

/-- A request that changes nothing. -/
theorem refl {r : Req} (hquiet : r.quiet = true) (hwrites : ∀ name, r.secretName? = some name →
    name = which.keyName cluster ∨ name = which.certName cluster) :
    CallFrame which cluster w₀ w r w :=
  ⟨.refl w, le_rfl, .inl ⟨rfl, rfl⟩, fun _ h => h, hquiet, hwrites⟩

theorem getSecret {name : String} : CallFrame which cluster w₀ w (.getSecret name) w :=
  refl rfl fun _ h => nomatch h

theorem draw : CallFrame which cluster w₀ w .draw { w with draws := w.draws + 1 } :=
  ⟨⟨fun _ _ _ => rfl, rfl, rfl, rfl⟩, Nat.le_succ _, .inl ⟨rfl, rfl⟩, fun _ h => h, rfl,
    fun _ h => nomatch h⟩

end CallFrame

theorem renderCaSecret_data_of_notMem {data : List (String × Pem)}
    {annotations : List (String × String)} {key : String} (hdata : ∀ e ∈ data, e.1 ∈ caKeys)
    (hkey : key ∉ caKeys) : (renderCaSecret data annotations).data[key]? = none := by
  rw [renderCaSecret, BTreeMap.getElem?_ofList, List.lookup_eq_none_iff]
  intro e he
  obtain ⟨e', he', rfl⟩ := List.mem_map.mp (List.mem_reverse.mp he)
  have hne : key ≠ e'.1 := fun h => hkey (h ▸ hdata e' he')
  simpa using hne

section Rules

variable {α : Type} {Q : Except ReconcileError α → World → Prop} {kafka : Kafka}
  {data : List (String × Pem)} {annotations : List (String × String)} {k : Unit → Op α}

theorem sat_patchKey_frame (hdata : ∀ e ∈ data, e.1 ∈ caKeys) (herr : ∀ e v, Q (.error e) v)
    (hsame : w.secret? (which.certName kafka.name) = w₀.secret? (which.certName kafka.name))
    (hk : ∀ w', w'.secret? (which.certName kafka.name) = w.secret? (which.certName kafka.name) →
      Prog.Sat answer (CallFrame which kafka.name w₀) Q (k ()) w') :
    Prog.Sat answer (CallFrame which kafka.name w₀) Q
      (patchSecret kafka (which.keyName kafka.name) data annotations >>= k) w := by
  have hcert : ∀ cfg, (w.applySecret (which.keyName kafka.name) cfg).secret?
      (which.certName kafka.name) = w.secret? (which.certName kafka.name) :=
    fun cfg => World.secret?_applySecret_of_ne keyName_ne_certName
  refine sat_patchSecret ?_ herr ?_ (hk _ (hcert _))
  · exact .refl rfl fun name h => .inl (Option.some_inj.mp h).symm
  · exact ⟨.applyKey, le_rfl, .inr hsame, fun hkey hpem =>
      World.readPem_applySecret_of_none (renderCaSecret_data_of_notMem hdata hkey) hpem, rfl,
      fun name h => .inl (Option.some_inj.mp h).symm⟩

theorem sat_patchCert_frame (hdata : ∀ e ∈ data, e.1 ∈ caKeys) (herr : ∀ e v, Q (.error e) v)
    (hsame : w.secret? (which.certName kafka.name) = w₀.secret? (which.certName kafka.name))
    (hk : ∀ w', Prog.Sat answer (CallFrame which kafka.name w₀) Q (k ()) w') :
    Prog.Sat answer (CallFrame which kafka.name w₀) Q
      (patchSecret kafka (which.certName kafka.name) data annotations >>= k) w := by
  refine sat_patchSecret ?_ herr ?_ (hk _)
  · exact .refl rfl fun name h => .inr (Option.some_inj.mp h).symm
  · exact ⟨.applyCert, le_rfl, .inr hsame, fun hkey hpem =>
      World.readPem_applySecret_of_none (renderCaSecret_data_of_notMem hdata hkey) hpem, rfl,
      fun name h => .inr (Option.some_inj.mp h).symm⟩

end Rules

/-! ## The plan arms -/

theorem executePlan_frame (kafka : Kafka) (state : CaState) (plan : CaRotationPlan)
    (inp : RotationInputs) (raw : Pem)
    (hw : w.secret? (which.certName kafka.name) = w₀.secret? (which.certName kafka.name)) :
    Prog.Sat answer (CallFrame which kafka.name w₀) (fun _ _ => True)
      (executePlan lib kafka which state plan inp raw) w := by
  have hkeyData : ∀ {key nk nc : Pem}, ∀ e ∈ [("ca.key", key), (nextKey, nk), (nextCert, nc)],
      e.1 ∈ caKeys := by simp [caKeys]
  have hkey : ∀ {key : Pem}, ∀ e ∈ [("ca.key", key)], e.1 ∈ caKeys := by simp [caKeys]
  have hcert : ∀ {bundle : Pem}, ∀ e ∈ [("ca.crt", bundle)], e.1 ∈ caKeys := by simp [caKeys]
  cases plan with
  | noOp => trivial
  | refuse reason => trivial
  | renewCertSameKey =>
    refine sat_draw .draw fun clock => sat_orFail (fun _ _ => trivial) fun _ _ => ?_
    exact sat_patchCert_frame hcert (fun _ _ => trivial) hw fun _ => trivial
  | startKeyReplace =>
    refine sat_draw .draw fun clock => sat_orFail (fun _ _ => trivial) fun _ _ => ?_
    refine sat_patchKey_frame hkeyData (fun _ _ => trivial) hw fun w' hw' => ?_
    exact sat_patchCert_frame hcert (fun _ _ => trivial) (hw'.trans hw) fun _ => trivial
  | promoteNewKey =>
    simp only [executePlan, promoteNewKey]
    split
    · trivial
    · split
      · trivial
      · refine sat_patchKey_frame hkeyData (fun _ _ => trivial) hw fun w' hw' => ?_
        exact sat_patchCert_frame hcert (fun _ _ => trivial) (hw'.trans hw) fun _ => trivial
  | pruneOldTrust =>
    simp only [executePlan, pruneOldTrust]
    split
    · refine sat_patchKey_frame hkey (fun _ _ => trivial) hw fun w' hw' => ?_
      exact sat_patchCert_frame hcert (fun _ _ => trivial) (hw'.trans hw) fun _ => trivial
    · exact sat_patchCert_frame hcert (fun _ _ => trivial) hw fun _ => trivial

/-! ## Calls -/

theorem createCa_frame (kafka : Kafka)
    (hw : w.secret? (which.certName kafka.name) = w₀.secret? (which.certName kafka.name)) :
    Prog.Sat answer (CallFrame which kafka.name w₀) (fun _ _ => True) (createCa lib kafka which)
      w := by
  refine sat_draw .draw fun clock => sat_orFail (fun _ _ => trivial) fun _ _ => ?_
  refine sat_patchKey_frame (by simp [caKeys]) (fun _ _ => trivial) hw fun w' hw' => ?_
  refine sat_patchCert_frame (by simp [caKeys]) (fun _ _ => trivial) (hw'.trans hw) fun w'' => ?_
  exact sat_readNotAfter (fun _ => trivial) fun _ => trivial

/-- The readable CA that a call has found. -/
def existingState? : Option Secret → Option Secret → Option (CaState × Pem)
  | some k, some c => readCaState k c
  | _, _ => none

theorem reconcileCaFrom_eq (kafka : Kafka) (which : WhichCa) (inp : RotationInputs)
    (existingKey existingCert : Option Secret) :
    reconcileCaFrom lib kafka which inp existingKey existingCert =
      match existingState? existingKey existingCert with
      | some existing => applyCaRotation lib kafka which existing.1
          (planCaRotation lib existing.1 inp) inp existing.2
      | none =>
        if !inp.generate then .fail (.byoCaMissing which.conditionName)
        else createCa lib kafka which := by
  unfold reconcileCaFrom existingState?
  cases existingKey with
  | none => rfl
  | some k =>
    cases existingCert with
    | none => rfl
    | some c =>
      simp only
      cases readCaState k c with
      | none => rfl
      | some existing => rfl

/-- From any state, a call stays within the frame of its CA. -/
theorem reconcileCa_frame (kafka : Kafka) (which : WhichCa) (forceRenew forceReplaceKey conv : Bool)
    (now : Int) (w : World) :
    Prog.Sat answer (CallFrame which kafka.name w) (fun _ _ => True)
      (reconcileCa lib kafka which forceRenew forceReplaceKey conv now) w := by
  refine sat_getOpt .getSecret (fun _ => trivial) (sat_getOpt .getSecret (fun _ => trivial) ?_)
  rw [reconcileCaFrom_eq]
  cases existingState? (w.secret? (which.keyName kafka.name))
      (w.secret? (which.certName kafka.name)) with
  | some existing =>
    refine Prog.Sat.bind ((executePlan_frame kafka _ _ _ _ rfl).mono (fun _ _ _ h => h) ?_)
    intro x v _
    cases x with
    | error e => trivial
    | ok r => exact sat_readNotAfter (fun _ => trivial) fun _ => trivial
  | none =>
    simp only
    split
    · trivial
    · exact createCa_frame kafka rfl

/-- A call on a CA of the user changes nothing. -/
theorem reconcileCa_byo {kafka : Kafka} {which : WhichCa}
    (hbyo : (which.spec kafka).generateCertificateAuthority = false)
    (forceRenew forceReplaceKey conv : Bool) (now : Int) (w : World) :
    Prog.Sat answer (fun a r b => b = a ∧ r.secretName? = none) (fun _ _ => True)
      (reconcileCa lib kafka which forceRenew forceReplaceKey conv now) w := by
  refine sat_getOpt ⟨rfl, rfl⟩ (fun _ => trivial) (sat_getOpt ⟨rfl, rfl⟩ (fun _ => trivial) ?_)
  rw [reconcileCaFrom_eq]
  cases existingState? (w.secret? (which.keyName kafka.name))
      (w.secret? (which.certName kafka.name)) with
  | some existing =>
    have hrests := @planCaRotation_byo lib existing.1
      (rotationInputs kafka which forceRenew forceReplaceKey conv now) hbyo
    simp only [applyCaRotation]
    cases hplan : planCaRotation lib existing.1
        (rotationInputs kafka which forceRenew forceReplaceKey conv now) with
    | noOp => exact sat_readNotAfter (fun _ => trivial) fun _ => trivial
    | refuse reason => exact sat_readNotAfter (fun _ => trivial) fun _ => trivial
    | renewCertSameKey => simp [hplan, CaRotationPlan.rests] at hrests
    | startKeyReplace => simp [hplan, CaRotationPlan.rests] at hrests
    | promoteNewKey => simp [hplan, CaRotationPlan.rests] at hrests
    | pruneOldTrust => simp [hplan, CaRotationPlan.rests] at hrests
  | none => simp [rotationInputs, hbyo]

end ClusterCa
