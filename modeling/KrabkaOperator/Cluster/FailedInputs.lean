-- SUMMARY: A pass in which one input fails keeps the config hash of the pools only if that input does not enter the hash.
import KrabkaOperator.Cluster.Adoption

/-!
# Failed inputs

A pass with invalid listeners adopts a hash without the leafs; one without a logging
filter or a metadata version leaves their segments empty.
-/

namespace Cluster

open Kube Crd Operator ClusterCa Config

/-! ## Adoptions with the hash that all pools have -/

/-- Every pool of a cluster carries a hash. -/
def AllLabelled (cluster hash : String) (w : World) : Prop :=
  ∀ p ∈ w.poolsOf cluster, p.configHash? = some hash

section Labels

variable {lib : CaLib} {pass : KafkaPass} {cluster hash : String} {w v : World}

theorem AllLabelled.of_pools (h : AllLabelled cluster hash w) (hpools : v.pools = w.pools) :
    AllLabelled cluster hash v := by
  intro p hp
  refine h p ?_
  rwa [World.poolsOf, ← hpools]

theorem AllLabelled.labelPool (h : AllLabelled cluster hash w) (name : String) :
    AllLabelled cluster hash (w.labelPool name hash) := by
  intro p hp
  rw [poolsOf_labelPool] at hp
  obtain ⟨q, hq, rfl⟩ := List.mem_map.mp hp
  by_cases hname : q.name = name
  · exact configHash?_relabel_self hname
  · rw [configHash?_relabel_of_ne hname]
    exact h q hq

theorem adoptPools_same {parent : Kafka} {pools : List KafkaNodePool}
    (h : ∀ p ∈ pools, p.configHash? = some hash) :
    Prog.Makes (fun r => ∃ name, r = .labelPool name hash) (adoptPools parent pools hash) := by
  have hlabels : ∀ labels : List (String × String), (∀ e ∈ labels, e.2 = hash) →
      Prog.Makes (fun r => ∃ name, r = .labelPool name hash) (labelPools labels) := by
    intro labels
    induction labels with
    | nil => exact fun _ => trivial
    | cons e labels ih =>
      intro hall
      obtain ⟨name, hash'⟩ := e
      cases hall _ List.mem_cons_self
      refine Prog.Makes.bind (Prog.makes_request ⟨name, rfl⟩ fun _ => makes_kube) fun _ => ?_
      exact ih fun e he => hall e (List.mem_cons_of_mem _ he)
  unfold adoptPools
  split
  · trivial
  · refine hlabels _ fun e he => ?_
    obtain ⟨s, hs, -, hhash⟩ := planRollout_mem he
    obtain ⟨p, hp, rfl⟩ := List.mem_map.mp hs
    rcases hhash with hdesired | hcurrent
    · exact hdesired
    · have hp := h p ((List.mem_insertionSort poolLe).mp hp)
      exact Option.some.inj (hcurrent.symm.trans hp)

theorem answer_pools {r : Req} (hquiet : r.quiet = true) (c : Choice) :
    (answer r c w).2.pools = w.pools :=
  (answered r c w).pools hquiet

/-- The requests of an adoption with the hash that all pools have. -/
theorem adopt_makes {ad : Adoption} (h : ∀ p ∈ ad.pools, p.configHash? = some (ad.hash lib pass)) :
    Prog.Makes (fun r => (∃ name, r = .labelPool name (ad.hash lib pass)) ∨ ∃ e, r = .effect e)
      (adopt lib pass (some ad)) := by
  refine Prog.Makes.bind ?_ fun _ => makes_effect (.inr ⟨_, rfl⟩)
  exact (adoptPools_same h).mono fun r hr => .inl hr

/-- What holds after each patch with that hash holds at the end. -/
theorem adopt_invariant {I : World → Prop} {ad : Adoption}
    (h : ∀ p ∈ ad.pools, p.configHash? = some (ad.hash lib pass))
    (hlabel : ∀ a name, I a → I (a.labelPool name (ad.hash lib pass))) (hv : I v)
    (cs : List Choice) : I ((adopt lib pass (some ad)).run answer cs v).2 := by
  refine (adopt_makes h).run_invariant (I := I) (fun a r c hr ha => ?_) hv cs
  rcases hr with ⟨name, rfl⟩ | ⟨e, rfl⟩
  · have hans := answered (.labelPool name (ad.hash lib pass)) c a
    generalize (answer (.labelPool name (ad.hash lib pass)) c a).2 = b at hans ⊢
    cases hans with
    | same _ => exact ha
    | labelled => exact hlabel a name ha
  · obtain ⟨_ | _ | _, clock⟩ := c <;> exact ha

end Labels

/-! ## The hash of an adoption -/

section Adoption

variable {lib : CaLib} {pass : KafkaPass} {w : World}

theorem reconcileCas_configHash (conv : Bool) :
    Prog.Returns (fun out => ∀ a, out = some a →
      a.configHash = passConfigHash lib pass a.cluster a.clients) (reconcileCas lib pass conv) := by
  unfold reconcileCas
  refine Prog.Returns.bind fun now => Prog.Returns.bind fun cluster => ?_
  cases cluster with
  | none => exact Prog.returns_pure fun _ h => nomatch h
  | some cluster =>
    refine Prog.Returns.bind fun clients => ?_
    cases clients with
    | none => exact Prog.returns_pure fun _ h => nomatch h
    | some clients =>
      refine Prog.Returns.bind fun _ => Prog.Returns.bind fun _ => ?_
      refine Prog.Returns.optional (Prog.Returns.optional (Prog.Returns.optional ?_))
      intro a ha
      cases ha
      rfl

/-- What a pass that starts in `w` adopts its pools with. -/
structure Adoption.Of (lib : CaLib) (pass : KafkaPass) (w : World) (ad : Adoption) : Prop where
  pools : ad.pools = w.poolsOf pass.kafka.name
  configHash : ad.artifacts.configHash =
    passConfigHash lib pass ad.artifacts.cluster ad.artifacts.clients

theorem prepareListeners_returns {pools : List KafkaNodePool} {artifacts : CaArtifacts} :
    Prog.Returns (fun out => ∀ ad, out = some ad → ad.pools = pools ∧ ad.artifacts = artifacts)
      (prepareListeners lib pass pools artifacts) := by
  have hsome : ∀ leafs, ∀ ad, some ({ pools, artifacts, leafs } : Adoption) = some ad →
      ad.pools = pools ∧ ad.artifacts = artifacts := by
    intro leafs ad had
    cases had
    exact ⟨rfl, rfl⟩
  unfold prepareListeners
  split
  · exact Prog.returns_pure (hsome [])
  · refine Prog.Returns.bind fun ok => ?_
    split
    · exact Prog.returns_pure fun _ h => nomatch h
    · exact Prog.Returns.bind fun _ => Prog.Returns.bind fun keystore => Prog.Returns.bind fun _ =>
        Prog.Returns.bind fun _ => Prog.returns_pure (hsome _)

theorem adoptionOf_returns {pools : List KafkaNodePool} :
    Prog.Returns (fun out => ∀ ad, out = some ad → ad.pools = pools ∧ ad.artifacts.configHash =
      passConfigHash lib pass ad.artifacts.cluster ad.artifacts.clients)
      (adoptionOf lib pass pools) := by
  unfold adoptionOf
  refine Prog.Returns.bind fun statefulSets => Prog.Returns.bind fun _ => Prog.Returns.bind fun _ =>
    Prog.Returns.bind fun _ => ?_
  split
  · exact Prog.Returns.bind fun _ => Prog.returns_pure fun _ h => nomatch h
  · refine (reconcileCas_configHash _).bind_of fun artifacts hartifacts => ?_
    cases artifacts with
    | none => exact Prog.returns_pure fun _ h => nomatch h
    | some artifacts =>
      refine prepareListeners_returns.mono fun out hout ad had => ?_
      obtain ⟨hpools, hart⟩ := hout ad had
      rw [hart]
      exact ⟨hpools, hartifacts _ rfl⟩

/-- A quiet program leaves the pools. -/
theorem quiet_bind {α β : Type} {p : Op α} {f : α → Op β} {Q : Except ReconcileError β → World → Prop}
    {v : World} (hp : Quiet p) (hv : v.pools = w.pools) (herr : ∀ e v, Q (.error e) v)
    (hf : ∀ a v, v.pools = w.pools → Prog.Sat answer (fun _ _ _ => True) Q (f a) v) :
    Prog.Sat answer (fun _ _ _ => True) Q (p >>= f) v := by
  refine Prog.Sat.bind ((hp.stage (I := fun b => b.pools = w.pools)
    (fun a r c hr ha => ⟨trivial, (answer_pools hr c).trans ha⟩) hv).mono (fun _ _ _ h => h) ?_)
  intro x b hb
  cases x with
  | error e => exact herr e b
  | ok a => exact hf a b hb

theorem adoption_sat (w : World) :
    Prog.Sat answer (fun _ _ _ => True) (fun x _ => ∀ ad, x = .ok (some ad) → ad.Of lib pass w)
      (adoption lib pass) w := by
  have herr : ∀ (e : ReconcileError) (_ : World), ∀ ad,
      (.error e : Except ReconcileError (Option Adoption)) = .ok (some ad) → ad.Of lib pass w :=
    fun e _ _ h => nomatch h
  unfold adoption
  refine quiet_bind (effect_quiet (by decide)) rfl herr fun _ v hv => ?_
  refine quiet_bind (quiet_of_neutral (@weakAuthEvents_makes pass.kafka.name _)) hv herr
    fun _ v hv => ?_
  refine quiet_bind (quiet_of_neutral (ensureClusterIdSecret_makes _)) hv herr fun _ v hv => ?_
  refine quiet_bind (quiet_of_neutral (@validateKafkaRuntime_makes pass.kafka.name _)) hv
    herr fun _ v hv => ?_
  refine sat_listPools trivial (fun e => herr _ v) ?_
  refine (adoptionOf_returns.sat v).mono (fun _ _ _ h => h) fun x b hb ad had => ?_
  obtain ⟨hpools, hhash⟩ := hb _ had ad rfl
  exact ⟨by rw [hpools, World.poolsOf, World.poolsOf, hv], hhash⟩

end Adoption

/-! ## Texts of the hash -/

section Texts

variable {lib : CaLib} {pass p₀ p : KafkaPass} {trust : Pem} {leafs : List Char}

/-- The text of the config hash of a pass that trusts `trust`. -/
def passText (pass : KafkaPass) (trust : Pem) : List Char :=
  combinedConfigText pass.kafka.spec (some trust) (explicitPin pass) pass.loggingFilter

def rolloutText (lib : CaLib) (pass : KafkaPass) (trust : Pem) (leafs : List Char) : List Char :=
  (configHash lib (passText pass trust)).toList ++ ['\x1E'] ++ leafs

/-- The hash that a pass adopts its pools with. -/
def wantedHash (lib : CaLib) (pass : KafkaPass) (trust : Pem) (leafs : List Char) : String :=
  if listenersValid pass then configHash lib (rolloutText lib pass trust leafs)
  else configHash lib (passText pass trust)

def pinText (pass : KafkaPass) : List Char := optText (explicitPin pass) String.toList

def filterText (pass : KafkaPass) : List Char := optText pass.loggingFilter String.toList

/-- The segments before the metadata version. -/
def textBefore (spec : KafkaSpec) (trust : Pem) : List Char :=
  configPart spec.config ++ ['\x1F'] ++
    canonicalListenerIntent spec.listeners spec.interBrokerListenerName ++ ['\x1F'] ++
    metricsPart spec.metricsConfig ++ ['\x1F'] ++ trust ++ ['\x1F']

/-- The segments after the logging filter. -/
def textAfter (spec : KafkaSpec) : List Char := ['\x1F'] ++ optText spec.brokerTuning renderRuntimeToml

theorem passText_eq (htrust : trust ≠ []) : passText pass trust =
    textBefore pass.kafka.spec trust ++ pinText pass ++ ['\x1F'] ++ filterText pass ++
      textAfter pass.kafka.spec := by
  unfold passText combinedConfigText
  simp only [Option.getD_some, htrust, false_and, and_false, if_false]
  simp only [textBefore, textAfter, pinText, filterText, List.append_assoc]

theorem caTrust_ne_nil {cluster clients : CaReconcileOutcome} : caTrust cluster clients ≠ [] := by
  unfold caTrust
  split <;> simp

/-- `p` is a later pass for which one input of `p₀` fails. -/
inductive OneInputFails (p₀ p : KafkaPass) : Prop where
  | listeners (name : p.kafka.name = p₀.kafka.name)
      (spec : p.kafka.spec = { p₀.kafka.spec with listeners := p.kafka.spec.listeners })
      (version : p.resolvedMetadata = p₀.resolvedMetadata)
      (logging : p.loggingFilter = p₀.loggingFilter) (invalid : listenersValid p = false)
  | logging (name : p.kafka.name = p₀.kafka.name) (spec : p.kafka.spec = p₀.kafka.spec)
      (rules : p.ruleParses = p₀.ruleParses) (version : p.resolvedMetadata = p₀.resolvedMetadata)
      (failed : p.loggingFilter = none)
  | version (name : p.kafka.name = p₀.kafka.name)
      (spec : p.kafka.spec = { p₀.kafka.spec with
        kafkaVersion := p.kafka.spec.kafkaVersion, metadataVersion := p.kafka.spec.metadataVersion })
      (rules : p.ruleParses = p₀.ruleParses) (logging : p.loggingFilter = p₀.loggingFilter)
      (failed : p.resolvedMetadata = none)

theorem OneInputFails.name (h : OneInputFails p₀ p) : p.kafka.name = p₀.kafka.name := by
  cases h with
  | listeners name => exact name
  | logging name => exact name
  | version name => exact name

/-- The failed input does not enter the hash. -/
def Unused (p₀ p : KafkaPass) : Prop :=
  listenersValid p = true ∧ (p.loggingFilter = none → filterText p₀ = []) ∧
    (p.resolvedMetadata = none → pinText p₀ = [])

/-- What the digests of the two passes are like: they are in hex, they do not collide, and
    the served leafs have no unit separator. -/
structure Digests (lib : CaLib) (p₀ p : KafkaPass) (trust : Pem) (leafs : List Char) : Prop where
  hex : '\x1F' ∉ (configHash lib (passText p₀ trust)).toList
  leafText : '\x1F' ∉ leafs
  apart : ∀ a ∈ [passText p₀ trust, passText p trust, rolloutText lib p₀ trust leafs,
      rolloutText lib p trust leafs],
    ∀ b ∈ [passText p₀ trust, passText p trust, rolloutText lib p₀ trust leafs,
      rolloutText lib p trust leafs], configHash lib a = configHash lib b → a = b

/-- The two texts agree exactly if the failed input does not enter them. -/
theorem passText_eq_iff (htrust : trust ≠ []) (hversion : p₀.resolvedMetadata ≠ none)
    (hfail : OneInputFails p₀ p) (hp : listenersValid p = true) :
    passText p trust = passText p₀ trust ↔ Unused p₀ p := by
  rw [passText_eq htrust, passText_eq htrust]
  cases hfail with
  | listeners name spec version logging invalid =>
    rw [hp] at invalid
    cases invalid
  | logging name spec rules version failed =>
    have hpin : pinText p = pinText p₀ := by
      unfold pinText explicitPin
      rw [spec, version]
    have hfilter : filterText p = [] := by
      rw [filterText, failed]
      rfl
    rw [spec, hpin, hfilter]
    simp only [List.append_assoc, List.append_cancel_left_eq, List.nil_append]
    constructor
    · intro h
      have hnil : filterText p₀ = [] := List.self_eq_append_left.mp h
      exact ⟨hp, fun _ => hnil, fun hnone => absurd (version ▸ hnone) hversion⟩
    · intro h
      rw [h.2.1 failed]
      rfl
  | version name spec rules logging failed =>
    have hbefore : textBefore p.kafka.spec trust = textBefore p₀.kafka.spec trust := by
      rw [spec]
      rfl
    have hafter : textAfter p.kafka.spec = textAfter p₀.kafka.spec := by
      rw [spec]
      rfl
    have hpin : pinText p = [] := by
      unfold pinText explicitPin
      rw [failed]
      rfl
    have hfilter : filterText p = filterText p₀ := by rw [filterText, logging, filterText]
    rw [hbefore, hafter, hpin, hfilter]
    simp only [List.append_assoc, List.append_cancel_left_eq, List.nil_append]
    constructor
    · intro h
      have hnil : pinText p₀ = [] := List.self_eq_append_left.mp h
      refine ⟨hp, fun hnone => ?_, fun _ => hnil⟩
      rw [filterText, ← logging, hnone]
      rfl
    · intro h
      rw [h.2.2 failed]
      rfl

theorem wantedHash_eq_iff (htrust : trust ≠ []) (hvalid : listenersValid p₀ = true)
    (hversion : p₀.resolvedMetadata ≠ none) (hfail : OneInputFails p₀ p)
    (hdig : Digests lib p₀ p trust leafs) :
    wantedHash lib p trust leafs = wantedHash lib p₀ trust leafs ↔ Unused p₀ p := by
  unfold wantedHash
  rw [if_pos hvalid]
  cases hp : listenersValid p with
  | false =>
    refine iff_of_false (fun h => ?_) fun h => ?_
    · have heq := hdig.apart _ (by simp) _ (by simp) h
      have hmem : '\x1F' ∈ passText p trust := by
        rw [passText_eq htrust]
        simp
      rw [heq, rolloutText] at hmem
      simp [hdig.hex, hdig.leafText] at hmem
    · rw [h.1] at hp
      cases hp
  | true =>
    rw [if_pos rfl, ← passText_eq_iff htrust hversion hfail hp]
    constructor
    · intro h
      have houter := hdig.apart _ (by simp) _ (by simp) h
      have hinner := String.toList_injective
        (List.append_cancel_right (List.append_cancel_right houter))
      exact hdig.apart _ (by simp) _ (by simp) hinner
    · intro h
      rw [rolloutText, h, rolloutText]

end Texts

/-! ## Passes -/

/-- Where a pass ends, also one that stops. -/
def endOf (lib : CaLib) (pass : KafkaPass) (choices : List Choice) (w : World) : World :=
  History.finish (Event.exec lib) (.pass pass choices) w

/-- What a pass adopts its pools with, if it comes to that. -/
def adopted (lib : CaLib) (pass : KafkaPass) (choices : List Choice) (w : World) :
    Option Adoption :=
  match ((adoption lib pass).run answer choices w).1 with
  | .done ad => ad
  | _ => none

def Adoption.trust (ad : Adoption) : Pem := caTrust ad.artifacts.cluster ad.artifacts.clients

/-- The adoption has the CA trust and the leafs of another one. -/
structure Adoption.Like (ad : Adoption) (pass : KafkaPass) (ad₀ : Adoption) : Prop where
  trust : ad.trust = ad₀.trust
  leafs : listenersValid pass = true → ad.leafs = ad₀.leafs

section Passes

variable {lib : CaLib} {pass p₀ p : KafkaPass} {hash : String} {w v : World}
  {choices rest : List Choice} {ad ad₀ : Adoption}

theorem adopted_eq_some : adopted lib pass choices w = some ad ↔
    ((adoption lib pass).run answer choices w).1 = .done (some ad) := by
  unfold adopted
  split
  · next heq =>
    rw [heq]
    simp
  · next hne =>
    constructor
    · intro h
      cases h
    · intro h
      exact absurd h (hne _)

/-- The run that comes to an adoption, together with what it leaves over. -/
theorem runRest_of_adopted (h : adopted lib pass choices w = some ad) :
    ∃ v rest, (adoption lib pass).runRest answer choices w = (.done (some ad), v, rest) := by
  have hrun := adopted_eq_some.mp h
  rw [Prog.runRest_run] at hrun
  exact ⟨_, _, Prod.ext hrun rfl⟩

theorem adopted_of_runRest
    (h : (adoption lib pass).runRest answer choices w = (.done (some ad), v, rest)) :
    adopted lib pass choices w = some ad := by
  rw [adopted_eq_some, Prog.runRest_run, h]

theorem adopted_of (h : adopted lib pass choices w = some ad) : ad.Of lib pass w :=
  (adoption_sat w).run_done (Prod.ext (adopted_eq_some.mp h) rfl) ad rfl

theorem hash_of_like (hof : ad.Of lib pass w) (h : ad.Like pass ad₀) :
    ad.hash lib pass = wantedHash lib pass ad₀.trust ad₀.leafs := by
  unfold Adoption.hash wantedHash
  rw [hof.configHash, passConfigHash, ← Adoption.trust, h.trust]
  split
  · next hvalid =>
    rw [h.leafs hvalid]
    rfl
  · rfl

theorem run_adoption_pools (hlib : lib.Lawful) :
    ((adoption lib pass).run answer choices w).2.pools = w.pools :=
  (adoption_quiet hlib).run_invariant (I := fun v : World => v.pools = w.pools)
    (fun _ _ c hr ha => (answer_pools hr c).trans ha) rfl choices

/-- The run comes to the adoption. -/
theorem endOf_of_runRest (hlib : lib.Lawful)
    (hrun : (adoption lib pass).runRest answer choices w = (.done (some ad), v, rest)) :
    v.pools = w.pools ∧
      endOf lib pass choices w = ((adopt lib pass (some ad)).run answer rest v).2 := by
  have hdone : (adoption lib pass).run answer choices w = (.done (some ad), v) := by
    rw [Prog.runRest_run, hrun]
  have hpools := @run_adoption_pools lib pass w choices hlib
  rw [hdone] at hpools
  refine ⟨hpools, ?_⟩
  rw [endOf, finish_pass, reconcileInner_eq, Prog.run_bind_of_done hrun]

/-- A run that does not come to the adoption leaves the pools. -/
theorem endOf_of_not_adopted (hlib : lib.Lawful) (h : adopted lib pass choices w = none) :
    (endOf lib pass choices w).pools = w.pools := by
  have hpools := @run_adoption_pools lib pass w choices hlib
  rw [endOf, finish_pass, reconcileInner_eq]
  by_cases hnone : ((adoption lib pass).run answer choices w).1 = .done none
  · rw [Prog.runRest_run] at hnone hpools
    rw [Prog.run_bind_of_done (Prod.ext hnone rfl)]
    exact hpools
  · rw [Prog.run_bind_of_not_done fun out hout => ?_]
    · exact hpools
    · cases out with
      | none => exact hnone hout
      | some ad =>
        rw [adopted_eq_some.mpr hout] at h
        cases h

/-- A pass that wants the hash that all pools have keeps it. -/
theorem endOf_keeps (hlib : lib.Lawful) (hw : AllLabelled pass.kafka.name hash w)
    (h : ∀ ad, adopted lib pass choices w = some ad → ad.hash lib pass = hash) :
    AllLabelled pass.kafka.name hash (endOf lib pass choices w) := by
  cases hadopted : adopted lib pass choices w with
  | none => exact hw.of_pools (endOf_of_not_adopted hlib hadopted)
  | some ad =>
    obtain ⟨v, rest, hrun⟩ := runRest_of_adopted hadopted
    obtain ⟨hpools, hend⟩ := endOf_of_runRest hlib hrun
    rw [hend]
    have hsame : ∀ q ∈ ad.pools, q.configHash? = some (ad.hash lib pass) := by
      rw [(adopted_of hadopted).pools, h ad hadopted]
      exact hw
    refine adopt_invariant hsame (fun a name ha => ?_) (hw.of_pools hpools) rest
    rw [h ad hadopted]
    exact ha.labelPool name

/-- A run that is stopped after it has patched one pool. -/
theorem run_labelPool_one {α : Type} {name : String} {k : Unit → Op α}
    (h : w.pools.any (·.name = name) = true) :
    ((labelPool name hash >>= k).run answer [({} : Choice)] w).2 = w.labelPool name hash := by
  have hanswer : (answer (.labelPool name hash) ({} : Choice) w).2 = w.labelPool name hash := by
    simp [answer, h, answerWrite]
  refine Eq.trans (Prog.run_nil _ _) hanswer

theorem run_adopt_one {q : KafkaNodePool} {qs : List KafkaNodePool} (huid : pass.kafka.uid ≠ none)
    (hsorted : ad.pools.insertionSort poolLe = q :: qs)
    (hq : w.pools.any (·.name = q.name) = true) :
    ((adopt lib pass (some ad)).run answer [({} : Choice)] w).2 =
      w.labelPool q.name (ad.hash lib pass) := by
  obtain ⟨uid, huid⟩ := Option.ne_none_iff_exists'.mp huid
  have hhead := @planRollout_head (ad.hash lib pass) (qs.map rolloutState) (rolloutState q)
  cases hplan : planRollout (rolloutState q :: qs.map rolloutState) (ad.hash lib pass) with
  | nil =>
    rw [hplan] at hhead
    cases hhead
  | cons e es =>
    rw [hplan, List.head?_cons, Option.some_inj] at hhead
    subst hhead
    simp only [adopt, adoptPools, huid, hsorted, List.map_cons, hplan, labelPools, Prog.bind_assoc]
    exact run_labelPool_one hq

/-- A pass that is stopped after its first patch of a pool. -/
theorem exists_stamped (hlib : lib.Lawful) (h : adopted lib pass choices w = some ad)
    (hpools : w.poolsOf pass.kafka.name ≠ []) (huid : pass.kafka.uid ≠ none) :
    ∃ choices', adopted lib pass choices' w = some ad ∧
      ∃ q ∈ (endOf lib pass choices' w).poolsOf pass.kafka.name,
        q.configHash? = some (ad.hash lib pass) := by
  obtain ⟨v, rest, hrun⟩ := runRest_of_adopted h
  obtain ⟨pre, hpre⟩ := Prog.runRest_prefix hrun
  obtain ⟨hv, hend⟩ := endOf_of_runRest hlib (hpre [{}])
  refine ⟨pre ++ [({} : Choice)], adopted_of_runRest (hpre [{}]), ?_⟩
  have hv' : v.poolsOf pass.kafka.name = w.poolsOf pass.kafka.name := by
    rw [World.poolsOf, hv, World.poolsOf]
  have hof : ad.pools = v.poolsOf pass.kafka.name := (adopted_of h).pools.trans hv'.symm
  rw [← hv'] at hpools
  cases hsorted : ad.pools.insertionSort poolLe with
  | nil =>
    have hnil := (List.perm_insertionSort poolLe ad.pools).symm
    rw [hsorted, hof] at hnil
    exact absurd hnil.eq_nil hpools
  | cons q qs =>
    have hq : q ∈ v.poolsOf pass.kafka.name := by
      rw [← hof, ← List.mem_insertionSort poolLe, hsorted]
      exact List.mem_cons_self
    have hany : v.pools.any (·.name = q.name) = true :=
      List.any_eq_true.mpr ⟨q, mem_pools_of_mem_poolsOf hq, by simp⟩
    rw [hend, run_adopt_one huid hsorted hany, poolsOf_labelPool]
    exact ⟨_, List.mem_map_of_mem hq, configHash?_relabel_self rfl⟩

/-- A parent without an identity, or without pools, stamps nothing. -/
theorem endOf_of_unstamped (hlib : lib.Lawful)
    (h : w.poolsOf pass.kafka.name = [] ∨ pass.kafka.uid = none)
    (hw : AllLabelled pass.kafka.name hash w) :
    AllLabelled pass.kafka.name hash (endOf lib pass choices w) := by
  cases hadopted : adopted lib pass choices w with
  | none => exact hw.of_pools (endOf_of_not_adopted hlib hadopted)
  | some ad =>
    obtain ⟨v, rest, hrun⟩ := runRest_of_adopted hadopted
    obtain ⟨hpools, hend⟩ := endOf_of_runRest hlib hrun
    rw [hend]
    rcases h with hnil | huid
    · have hv : v.poolsOf pass.kafka.name = [] := by
        rw [World.poolsOf, hpools, ← World.poolsOf, hnil]
      have hend : ((adopt lib pass (some ad)).run answer rest v).2.poolsOf pass.kafka.name = [] := by
        refine adopt_invariant (I := fun a : World => a.poolsOf pass.kafka.name = []) ?_ ?_ hv rest
        · rw [(adopted_of hadopted).pools, hnil]
          exact List.forall_mem_nil _
        · intro a name ha
          rw [poolsOf_labelPool, ha, List.map_nil]
      rw [AllLabelled, hend]
      exact List.forall_mem_nil _
    · have hadopt : (adopt lib pass (some ad)).run answer rest v = (.failed .missingUid, v) := by
        simp only [adopt, adoptPools, huid]
        rfl
      rw [hadopt]
      exact hw.of_pools hpools

/-! ## What the labels are after the two passes -/

/-- The labels stay after a pass for `p`, and after another one for `p₀` that follows. -/
def KeepsLabels (lib : CaLib) (p₀ p : KafkaPass) (ad₀ : Adoption) (hash : String) (w : World) :
    Prop :=
  ∀ choices, (∀ ad, adopted lib p choices w = some ad → ad.Like p ad₀) →
    AllLabelled p₀.kafka.name hash (endOf lib p choices w) ∧
    ∀ choices', (∀ ad, adopted lib p₀ choices' (endOf lib p choices w) = some ad →
        ad.Like p₀ ad₀) →
      AllLabelled p₀.kafka.name hash (endOf lib p₀ choices' (endOf lib p choices w))

/-- A pass for `p` with the CA trust and the leafs of `ad₀` can come to stamp a pool. -/
def CanStamp (lib : CaLib) (p : KafkaPass) (ad₀ : Adoption) (w : World) : Prop :=
  (∃ choices ad, adopted lib p choices w = some ad ∧ ad.Like p ad₀) ∧
    w.poolsOf p.kafka.name ≠ [] ∧ p.kafka.uid ≠ none

/-- Failed inputs leave the labels of the pools exactly if they do not enter the hash, or
    the pass cannot come to stamp a pool. -/
theorem labels_kept_iff (hlib : lib.Lawful) {w₀ : World} {choices₀ : List Choice}
    (hran : adopted lib p₀ choices₀ w₀ = some ad₀) (hvalid : listenersValid p₀ = true)
    (hversion : p₀.resolvedMetadata ≠ none) (hfail : OneInputFails p₀ p)
    (hdig : Digests lib p₀ p ad₀.trust ad₀.leafs)
    (hw : AllLabelled p₀.kafka.name (ad₀.hash lib p₀) w) :
    KeepsLabels lib p₀ p ad₀ (ad₀.hash lib p₀) w ↔ Unused p₀ p ∨ ¬ CanStamp lib p ad₀ w := by
  have hname : p.kafka.name = p₀.kafka.name := hfail.name
  have hash₀ : ad₀.hash lib p₀ = wantedHash lib p₀ ad₀.trust ad₀.leafs :=
    hash_of_like (adopted_of hran) ⟨rfl, fun _ => rfl⟩
  have hiff := wantedHash_eq_iff (show ad₀.trust ≠ [] from caTrust_ne_nil) hvalid hversion hfail hdig
  constructor
  · intro hkeeps
    by_cases hcan : CanStamp lib p ad₀ w
    · left
      obtain ⟨⟨choices, ad, hadopted, hlike⟩, hpools, huid⟩ := hcan
      obtain ⟨choices', hadopted', q, hq, hhash⟩ := exists_stamped hlib hadopted hpools huid
      have hkept := (hkeeps choices' fun ad' had' => by
        rw [hadopted', Option.some_inj] at had'
        exact had' ▸ hlike).1
      rw [hname] at hq
      rw [hkept q hq, Option.some_inj, hash_of_like (adopted_of hadopted) hlike, hash₀] at hhash
      exact hiff.mp hhash.symm
    · exact .inr hcan
  · intro h choices hsame
    have hfirst : AllLabelled p₀.kafka.name (ad₀.hash lib p₀) (endOf lib p choices w) := by
      rw [← hname] at hw ⊢
      rcases h with hunused | hcannot
      · refine endOf_keeps hlib hw fun ad had => ?_
        rw [hash_of_like (adopted_of had) (hsame ad had), hash₀]
        exact hiff.mpr hunused
      · by_cases hstamp : w.poolsOf p.kafka.name = [] ∨ p.kafka.uid = none
        · exact endOf_of_unstamped hlib hstamp hw
        · rw [not_or] at hstamp
          refine hw.of_pools (endOf_of_not_adopted hlib (Option.eq_none_iff_forall_ne_some.mpr ?_))
          intro ad had
          exact hcannot ⟨⟨choices, ad, had, hsame ad had⟩, hstamp⟩
    refine ⟨hfirst, fun choices' hsame' => endOf_keeps hlib hfirst fun ad had => ?_⟩
    rw [hash_of_like (adopted_of had) (hsame' ad had), hash₀]

end Passes

/-! ## A typo in the listeners -/

namespace Sample

def listenersPass (listeners : List Listener) : KafkaPass where
  kafka := { Kafka.minimal "demo" with spec := { listeners } }
  resolvedMetadata := some "4.0"

def plain (name : String) (port : Int) : Listener := { name, port, type := .internal }

/-- The listeners are valid. -/
def twoPorts : KafkaPass := listenersPass [plain "plain" 9092, plain "other" 9093]

/-- Two listeners have one port. -/
def onePort : KafkaPass := listenersPass [plain "plain" 9092, plain "other" 9092]

def faultless : List Choice := List.replicate 60 {}

theorem twoPorts_adopts : (adopted SampleLib.lib twoPorts faultless start).isSome = true := by
  decide

/-- What the first pass adopts the pool with. -/
def firstAdoption : Adoption :=
  (adopted SampleLib.lib twoPorts faultless start).get twoPorts_adopts

theorem adopted_twoPorts :
    adopted SampleLib.lib twoPorts faultless start = some firstAdoption :=
  (Option.some_get twoPorts_adopts).symm

/-- The world after the first pass. -/
def stamped : World := endOf SampleLib.lib twoPorts faultless start

theorem onePort_fails : OneInputFails twoPorts onePort :=
  .listeners rfl rfl rfl rfl (by decide)

theorem digests_onePort :
    Digests SampleLib.lib twoPorts onePort firstAdoption.trust firstAdoption.leafs :=
  ⟨by decide +kernel, by decide +kernel, by decide +kernel⟩

theorem stamped_labelled :
    AllLabelled "demo" (firstAdoption.hash SampleLib.lib twoPorts) stamped := by
  have h : ∀ p ∈ stamped.poolsOf "demo",
      p.configHash? = some (firstAdoption.hash SampleLib.lib twoPorts) := by decide +kernel
  exact h

end Sample

theorem labels_kept_iff_onePort :
    KeepsLabels SampleLib.lib Sample.twoPorts Sample.onePort Sample.firstAdoption
        (Sample.firstAdoption.hash SampleLib.lib Sample.twoPorts) Sample.stamped ↔
      Unused Sample.twoPorts Sample.onePort ∨
        ¬ CanStamp SampleLib.lib Sample.onePort Sample.firstAdoption Sample.stamped :=
  labels_kept_iff SampleLib.lib_lawful Sample.adopted_twoPorts (by decide) (by decide)
    Sample.onePort_fails Sample.digests_onePort Sample.stamped_labelled

/-- Two listeners with one port: the pass stamps the pool with the hash without the leafs. -/
theorem labels_lost_onePort :
    OneInputFails Sample.twoPorts Sample.onePort ∧
      AllLabelled "demo" (Sample.firstAdoption.hash SampleLib.lib Sample.twoPorts)
        Sample.stamped ∧
      ¬ KeepsLabels SampleLib.lib Sample.twoPorts Sample.onePort Sample.firstAdoption
        (Sample.firstAdoption.hash SampleLib.lib Sample.twoPorts) Sample.stamped := by
  refine ⟨Sample.onePort_fails, Sample.stamped_labelled, fun h => ?_⟩
  have hlike : ∀ ad, adopted SampleLib.lib Sample.onePort Sample.faultless Sample.stamped = some ad →
      ad.Like Sample.onePort Sample.firstAdoption := by
    intro ad had
    have htrust : (adopted SampleLib.lib Sample.onePort Sample.faultless Sample.stamped).map
        Adoption.trust = some Sample.firstAdoption.trust := by decide
    rw [had, Option.map_some, Option.some_inj] at htrust
    have hinvalid : listenersValid Sample.onePort ≠ true := by decide
    exact ⟨htrust, fun hvalid => absurd hvalid hinvalid⟩
  have hkept := (h Sample.faultless hlike).1
  have hlost : ¬ ∀ p ∈ (endOf SampleLib.lib Sample.onePort Sample.faultless
      Sample.stamped).poolsOf "demo",
      p.configHash? = some (Sample.firstAdoption.hash SampleLib.lib Sample.twoPorts) := by
    decide +kernel
  exact hlost hkept

end Cluster
