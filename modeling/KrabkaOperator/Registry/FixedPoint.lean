-- SUMMARY: An undisturbed pass of a registry leads to the objects that its spec stands for, and they are exactly what a pass leaves as it is.
import KrabkaOperator.Registry.Migration

/-!
# What a pass settles

Where the spec is valid, the cluster is ready and the certificate is there, a pass goes
through. What it leads to depends on the object and on what the StatefulSet reports only.
-/

namespace Registry

open Kube Crd

/-- Every request is carried out and answered. -/
def good (r : Req) (w : World) : Resp r × World := answer r {} w

/-! ## When a pass goes through -/

/-- The address that the spec or the cluster gives. -/
def bootstrapOf (obj : SchemaRegistry) (w : World) : Option String :=
  obj.spec.bootstrapServers.or (obj.labels["krabka.io/cluster"]? >>= fun cluster =>
    w.kafkas[cluster]? >>= internalListenerBootstrap)

/-- The certificate of the server can be had. -/
inductive TlsGoes (obj : SchemaRegistry) (w : World) : Option String → Prop where
  | plain (htls : obj.spec.tls = none) : TlsGoes obj w none
  | secret {tls : SchemaRegistryTls} {secret : String} (htls : obj.spec.tls = some tls)
      (hsecret : tls.secretName = some secret) (hissuer : tls.issuerRef = none) :
      TlsGoes obj w (some secret)
  | issued {tls : SchemaRegistryTls} {issuer : CertManagerIssuerRef}
      (htls : obj.spec.tls = some tls) (hsecret : tls.secretName = none)
      (hissuer : tls.issuerRef = some issuer) (hmanager : w.certManager = true)
      (hthere : w.secrets.contains (certSecretName obj.name) = true) :
      TlsGoes obj w (some (certSecretName obj.name))

/-- The fields that never change are those that the registry wants. -/
def HasIdentity (obj : SchemaRegistry) (set : StatefulSet) : Prop :=
  set.serviceName = headlessName obj.name ∧
    set.selector = { matchLabels := selectorLabels obj } ∧
    set.podManagementPolicy = "Parallel"

structure Goes (cfg : Config) (obj : SchemaRegistry) (bootstrap : String)
    (tlsSecret : Option String) (w : World) : Prop where
  config : validateConfig cfg.lib obj.spec = .ok ()
  uid : obj.uid.isSome = true
  bootstrap : bootstrapOf obj w = some bootstrap
  tls : TlsGoes obj w tlsSecret
  /-- A StatefulSet of this name is one of the registry. -/
  set : ∀ live, w.statefulSet = some live → HasIdentity obj live.set

/-! ## What it leads to -/

/-- The certificate of an issuer is asked for. -/
def Requested (obj : SchemaRegistry) (w : World) : Prop :=
  ∀ tls issuer, obj.spec.tls = some tls → tls.secretName = none → tls.issuerRef = some issuer →
    ∃ cert, renderCertificate obj issuer = .ok cert ∧ w.certificate = some cert

/-- A status says what a report says. A field that the report leaves out can have any value. -/
structure Says (status report : SchemaRegistryStatus) : Prop where
  conditions : status.conditions = report.conditions
  observedGeneration : ∀ g, report.observedGeneration = some g → status.observedGeneration = some g
  replicas : ∀ n, report.replicas = some n → status.replicas = some n
  readyReplicas : ∀ n, report.readyReplicas = some n → status.readyReplicas = some n
  url : ∀ u, report.url = some u → status.url = some u

/-- The objects of a registry, as its spec wants them. -/
structure Settled (cfg : Config) (obj : SchemaRegistry) (bootstrap : String)
    (tlsSecret : Option String) (w : World) : Prop where
  certificate : Requested obj w
  headless : ∃ svc, renderHeadlessService obj = .ok svc ∧
    w.services[headlessName obj.name]? = some svc
  front : ∃ svc, renderClusteripService obj = .ok svc ∧
    w.services[serviceName obj.name]? = some svc
  set : ∃ set status,
    renderStatefulSet cfg.lib obj bootstrap (imageOf cfg obj) tlsSecret = .ok set ∧
    w.statefulSet = some ⟨set, status⟩
  deployment : ∀ d, w.deployment = some d → d.ownedBy obj = false
  status : ∃ status, w.status = some status ∧ Says status (report obj tlsSecret w.statefulSet)

variable {cfg : Config} {obj : SchemaRegistry} {bootstrap : String} {tlsSecret : Option String}
  {w : World}

/-! ## Reports -/

theorem or_eq_some {α : Type} {new old : Option α} {a : α} (h : new = some a) :
    new.or old = some a := by
  rw [h, Option.some_or]

theorem or_eq_self {α : Type} {new old : Option α} (h : ∀ a, new = some a → old = some a) :
    new.or old = old := by
  cases new with
  | none => exact Option.none_or
  | some a => rw [Option.some_or, h a rfl]

theorem says_merge (report : SchemaRegistryStatus) (stored : Option SchemaRegistryStatus) :
    Says (report.merge stored) report where
  conditions := rfl
  observedGeneration _ := or_eq_some
  replicas _ := or_eq_some
  readyReplicas _ := or_eq_some
  url _ := or_eq_some

theorem Says.merge_eq_self {status report : SchemaRegistryStatus} (h : Says status report) :
    report.merge (some status) = status := by
  unfold SchemaRegistryStatus.merge
  dsimp only
  rw [← h.conditions, Option.getD_some, or_eq_self h.observedGeneration, or_eq_self h.replicas,
    or_eq_self h.readyReplicas, or_eq_self h.url]

/-- A count that the report leaves out is the one of the status before. -/
theorem merge_readyReplicas_iff {report : SchemaRegistryStatus}
    {stored : Option SchemaRegistryStatus} :
    (report.merge stored).readyReplicas = report.readyReplicas ↔
      report.readyReplicas.isSome = true ∨ stored >>= (·.readyReplicas) = none := by
  have hmerge : (report.merge stored).readyReplicas =
      report.readyReplicas.or (stored >>= (·.readyReplicas)) := by
    cases stored <;> rfl
  rw [hmerge]
  cases report.readyReplicas with
  | none => simp
  | some n => simp

theorem report_readyReplicas (obj : SchemaRegistry) (tlsSecret : Option String)
    (live : Option LiveSet) : (report obj tlsSecret live).readyReplicas = readyReplicas live := by
  unfold report
  dsimp only
  split
  · rfl
  · rfl

/-- The conditions and the counts of a report do not depend on the status before. -/
theorem Says.reported {status : SchemaRegistryStatus} {live : Option LiveSet}
    (h : Says status (report obj tlsSecret live)) :
    Says status (report { obj with status := some status } tlsSecret live) := by
  revert h
  unfold report
  dsimp only
  split
  · exact id
  · exact fun h => ⟨h.conditions, fun _ hg => hg, h.replicas, h.readyReplicas, h.url⟩

/-! ## The stages -/

/-- A request is answered, and the rest goes on from there. -/
theorem complete_call {α : Type} {r : Req} {k : Resp r → Op α} {x : Resp r} {w' : World}
    (h : good r w = (x, w')) : Prog.complete good (.call r k) w = (k x).complete good w' := by
  rw [Prog.complete, h]

theorem complete_kafkaBootstrap {cluster : String}
    (h : w.kafkas[cluster]? >>= internalListenerBootstrap = some bootstrap) :
    (kafkaBootstrap obj cluster).complete good w = (.ok (.ok bootstrap), w) := by
  have hread : (ask (.getKafka cluster) >>= kube : Op (Option Parent)).complete good w =
      (.ok w.kafkas[cluster]?, w) := rfl
  unfold kafkaBootstrap
  rw [Prog.complete_bind_of_ok hread, h]
  rfl

theorem complete_resolveBootstrap (h : bootstrapOf obj w = some bootstrap) :
    (resolveBootstrap obj).complete good w = (.ok (.ok bootstrap), w) := by
  unfold bootstrapOf at h
  unfold resolveBootstrap
  cases hspec : obj.spec.bootstrapServers with
  | some b =>
    rw [hspec] at h
    cases h
    rfl
  | none =>
    rw [hspec, Option.none_or] at h
    obtain ⟨cluster, hcluster, hready⟩ := Option.bind_eq_some_iff.mp h
    simp only [hcluster]
    exact complete_kafkaBootstrap hready

theorem ownerRef_ok (h : obj.uid.isSome = true) : ∃ ref, ownerRef obj = .ok ref := by
  obtain ⟨uid, huid⟩ := Option.isSome_iff_exists.mp h
  exact ⟨_, by rw [ownerRef, huid]⟩

theorem complete_applyCertificateCr {issuer : CertManagerIssuerRef} {cert : Certificate}
    (hcert : renderCertificate obj issuer = .ok cert) (hmanager : w.certManager = true) :
    (applyCertificateCr obj issuer).complete good w =
      (.ok (), { w with certificate := some cert }) := by
  have hanswer : good (.applyCertificate cert) w =
      (.ok (), { w with certificate := some cert }) := by
    rw [good, answer, if_pos hmanager]
    rfl
  unfold applyCertificateCr
  rw [hcert]
  exact complete_call hanswer

theorem complete_issueTls {issuer : CertManagerIssuerRef} {cert : Certificate}
    (hcert : renderCertificate obj issuer = .ok cert) (hmanager : w.certManager = true)
    (hthere : w.secrets.contains (certSecretName obj.name) = true) :
    (issueTls obj issuer).complete good w =
      (.ok (.ok (some (certSecretName obj.name))), { w with certificate := some cert }) := by
  unfold issueTls
  rw [Prog.complete_bind_of_ok (complete_applyCertificateCr hcert hmanager)]
  change Prog.complete good (if w.secrets.contains (certSecretName obj.name) then
    (pure (.ok (some (certSecretName obj.name))) : Op (Except Action (Option String))) else _) _ = _
  rw [if_pos hthere]
  rfl

/-- The certificate is asked for, and nothing else changes. -/
theorem complete_resolveTls (huid : obj.uid.isSome = true) (h : TlsGoes obj w tlsSecret) :
    ∃ cert, (resolveTls obj).complete good w =
        (.ok (.ok tlsSecret), { w with certificate := cert }) ∧
      Requested obj { w with certificate := cert } ∧
      (Requested obj w → cert = w.certificate) := by
  unfold resolveTls
  cases h with
  | plain htls =>
    rw [htls]
    refine ⟨w.certificate, rfl, fun tls issuer htls' => ?_, fun _ => rfl⟩
    cases htls.symm.trans htls'
  | @secret tls s htls hsecret hissuer =>
    simp only [htls, hsecret, hissuer]
    refine ⟨w.certificate, rfl, fun tls' issuer htls' _ hissuer' => ?_, fun _ => rfl⟩
    cases htls.symm.trans htls'
    cases hissuer.symm.trans hissuer'
  | @issued tls issuer htls hsecret hissuer hmanager hthere =>
    obtain ⟨ref, href⟩ := ownerRef_ok huid
    simp only [htls, hsecret, hissuer]
    obtain ⟨cert, hcert⟩ : ∃ cert, renderCertificate obj issuer = .ok cert :=
      ⟨_, by rw [renderCertificate, href]; rfl⟩
    refine ⟨some cert, complete_issueTls hcert hmanager hthere,
      fun tls' issuer' htls' _ hissuer' => ?_, fun hreq => ?_⟩
    · cases htls.symm.trans htls'
      cases hissuer.symm.trans hissuer'
      exact ⟨cert, hcert, rfl⟩
    · obtain ⟨cert', hcert', hw⟩ := hreq tls issuer htls hsecret hissuer
      cases hcert.symm.trans hcert'
      exact hw.symm

theorem complete_applyService {name : String} {svc : Service} (w : World) :
    (applyService name (.ok svc)).complete good w =
      (.ok (), { w with services := w.services.insert name svc }) := rfl

theorem complete_applyStatefulSet {set : StatefulSet}
    (hset : renderStatefulSet cfg.lib obj bootstrap (imageOf cfg obj) tlsSecret = .ok set)
    (hsame : ∀ live, w.statefulSet = some live → sameIdentity live.set set = true) :
    (applyStatefulSet cfg obj bootstrap tlsSecret).complete good w =
      (.ok (), w.applyStatefulSet set) := by
  have hall : (w.statefulSet.all fun live => sameIdentity live.set set) = true := by
    cases hlive : w.statefulSet with
    | none => rfl
    | some live => exact hsame live hlive
  have hanswer : good (.applyStatefulSet set) w = (.ok (), w.applyStatefulSet set) := by
    rw [good, answer, if_pos hall]
    rfl
  unfold applyStatefulSet
  rw [hset]
  exact complete_call hanswer

/-- The namespace without the Deployment of the registry. -/
def withoutOwned (obj : SchemaRegistry) (w : World) : World :=
  { w with deployment := w.deployment.filter fun d => !d.ownedBy obj }

theorem withoutOwned_eq_self (h : ∀ d, w.deployment = some d → d.ownedBy obj = false) :
    withoutOwned obj w = w := by
  have hfilter : w.deployment.filter (fun d => !d.ownedBy obj) = w.deployment := by
    cases hd : w.deployment with
    | none => rfl
    | some d => exact Option.filter_some_pos (by rw [h d hd]; rfl)
  rw [withoutOwned, hfilter]

theorem complete_deleteOwnedDeployment (obj : SchemaRegistry) (w : World) :
    (deleteOwnedDeployment obj).complete good w = (.ok (), withoutOwned obj w) := by
  cases hd : w.deployment with
  | none =>
    rw [withoutOwned_eq_self fun d h => (Option.some_ne_none d (h.symm.trans hd)).elim]
    have hread : good .getDeployment w = (.ok none, w) := by
      rw [← hd]
      rfl
    exact complete_call hread
  | some d =>
    have hread : good .getDeployment w = (.ok (some d), w) := by
      rw [← hd]
      rfl
    refine (complete_call hread).trans ?_
    change Prog.complete good (if d.ownedBy obj then _ else _) w = _
    cases howned : d.ownedBy obj with
    | false =>
      rw [withoutOwned_eq_self fun d' h => Option.some.inj (hd.symm.trans h) ▸ howned]
      rfl
    | true =>
      have hdelete : good .deleteDeployment w = (.ok (), { w with deployment := none }) := by
        rw [good, answer, hd]
        rfl
      have hgone : withoutOwned obj w = { w with deployment := none } := by
        rw [withoutOwned, hd, Option.filter_some_neg (by rw [howned]; rfl)]
      rw [if_pos rfl, hgone]
      exact complete_call hdelete

theorem complete_reportStatus (obj : SchemaRegistry) (tlsSecret : Option String) (w : World) :
    (reportStatus obj tlsSecret).complete good w =
      (.ok .driftRequeue,
        { w with status := some ((report obj tlsSecret w.statefulSet).merge w.status) }) := rfl

/-! ## The whole pass -/

/-- What is rendered for a registry. -/
structure Rendered (cfg : Config) (obj : SchemaRegistry) (bootstrap : String)
    (tlsSecret : Option String) where
  headless : Service
  front : Service
  set : StatefulSet
  headless_eq : renderHeadlessService obj = .ok headless
  front_eq : renderClusteripService obj = .ok front
  set_eq : renderStatefulSet cfg.lib obj bootstrap (imageOf cfg obj) tlsSecret = .ok set

theorem exists_rendered (h : obj.uid.isSome = true) :
    Nonempty (Rendered cfg obj bootstrap tlsSecret) := by
  obtain ⟨ref, href⟩ := ownerRef_ok h
  exact ⟨⟨_, _, _, by rw [renderHeadlessService, href]; rfl,
    by rw [renderClusteripService, href]; rfl, by rw [renderStatefulSet, href]; rfl⟩⟩

namespace Rendered

variable (r : Rendered cfg obj bootstrap tlsSecret)

/-- The stored StatefulSet after the pass. -/
def live (w : World) : LiveSet := ⟨r.set, w.statefulSet >>= (·.status)⟩

def services (w : World) : BTreeMap Service :=
  (w.services.insert (headlessName obj.name) r.headless).insert (serviceName obj.name) r.front

def outcome (w : World) : World :=
  { w with
    services := r.services w
    statefulSet := some (r.live w)
    deployment := w.deployment.filter fun d => !d.ownedBy obj
    status := some ((report obj tlsSecret (some (r.live w))).merge w.status) }

theorem set_identity : HasIdentity obj r.set := by
  obtain ⟨ref, -, hok⟩ := Checks.bind_eq_ok.mp r.set_eq
  rw [← Except.ok.inj hok]
  exact ⟨rfl, rfl, rfl⟩

theorem complete_deploy (hset : ∀ live, w.statefulSet = some live → HasIdentity obj live.set) :
    (deploy cfg obj bootstrap tlsSecret).complete good w = (.ok .driftRequeue, r.outcome w) := by
  have hsame (live : LiveSet) (hlive : w.statefulSet = some live) :
      sameIdentity live.set r.set = true := by
    obtain ⟨hservice, hselector, hpolicy⟩ := hset live hlive
    obtain ⟨hservice', hselector', hpolicy'⟩ := r.set_identity
    simp only [sameIdentity, decide_eq_true_eq]
    exact ⟨hservice.trans hservice'.symm, hselector.trans hselector'.symm,
      hpolicy.trans hpolicy'.symm⟩
  -- The stages after the Services, in the namespace that has them.
  have hrest : (applyStatefulSet cfg obj bootstrap tlsSecret >>= fun _ =>
      deleteOwnedDeployment obj >>= fun _ => reportStatus obj tlsSecret).complete good
        { w with services := r.services w } = (.ok .driftRequeue, r.outcome w) := by
    refine (Prog.complete_bind_of_ok (complete_applyStatefulSet r.set_eq ?_)).trans ?_
    · exact hsame
    · rw [Prog.complete_bind_of_ok (complete_deleteOwnedDeployment obj _), complete_reportStatus]
      rfl
  unfold deploy
  rw [r.headless_eq, r.front_eq, Prog.complete_bind_of_ok (complete_applyService w),
    Prog.complete_bind_of_ok (complete_applyService _)]
  exact hrest

theorem headlessName_ne_serviceName (n : String) : headlessName n ≠ serviceName n := by
  intro h
  have hlen := congrArg (·.toList.length) h
  simp [headlessName, serviceName] at hlen

theorem getElem?_services_headless (w : World) :
    (r.services w)[headlessName obj.name]? = some r.headless := by
  rw [services, Std.ExtTreeMap.getElem?_insert,
    if_neg (by simpa using (headlessName_ne_serviceName obj.name).symm),
    Std.ExtTreeMap.getElem?_insert_self]

theorem getElem?_services_of_ne {name : String} (hheadless : name ≠ headlessName obj.name)
    (hfront : name ≠ serviceName obj.name) : (r.services w)[name]? = w.services[name]? := by
  rw [services, Std.ExtTreeMap.getElem?_insert, if_neg (by simpa using hfront.symm),
    Std.ExtTreeMap.getElem?_insert, if_neg (by simpa using hheadless.symm)]

theorem settled_outcome (hcert : Requested obj w) :
    Settled cfg obj bootstrap tlsSecret (r.outcome w) where
  certificate := hcert
  headless := ⟨r.headless, r.headless_eq, r.getElem?_services_headless w⟩
  front := ⟨r.front, r.front_eq, Std.ExtTreeMap.getElem?_insert_self⟩
  set := ⟨r.set, _, r.set_eq, rfl⟩
  deployment d hd := by
    have hkeep := (Option.filter_eq_some_iff.mp hd).2
    simpa using hkeep
  status := ⟨_, rfl, says_merge _ _⟩

/-- What is there already is not changed. -/
theorem services_eq_self (h : Settled cfg obj bootstrap tlsSecret w) :
    r.services w = w.services := by
  refine Std.ExtTreeMap.ext_getElem? fun name => ?_
  -- The front Service is inserted last, so its name comes first.
  by_cases hfront : name = serviceName obj.name
  · obtain ⟨svc, hsvc, hstored⟩ := h.front
    rw [hfront, hstored, services, Std.ExtTreeMap.getElem?_insert_self,
      Except.ok.inj (r.front_eq.symm.trans hsvc)]
  · by_cases hheadless : name = headlessName obj.name
    · obtain ⟨svc, hsvc, hstored⟩ := h.headless
      rw [hheadless, hstored, r.getElem?_services_headless w,
        Except.ok.inj (r.headless_eq.symm.trans hsvc)]
    · exact r.getElem?_services_of_ne hheadless hfront

theorem live_eq_self (h : Settled cfg obj bootstrap tlsSecret w) :
    some (r.live w) = w.statefulSet := by
  obtain ⟨set, status, hset, hstored⟩ := h.set
  rw [live, hstored, Except.ok.inj (r.set_eq.symm.trans hset)]
  rfl

theorem outcome_eq_self (h : Settled cfg obj bootstrap tlsSecret w) : r.outcome w = w := by
  have hdeployment := congrArg World.deployment (withoutOwned_eq_self h.deployment)
  have hstatus : some ((report obj tlsSecret (some (r.live w))).merge w.status) = w.status := by
    obtain ⟨status, hstatus, hsays⟩ := h.status
    rw [r.live_eq_self h, hstatus, hsays.merge_eq_self]
  rw [outcome, r.services_eq_self h, hstatus, r.live_eq_self h]
  change { w with deployment := (withoutOwned obj w).deployment } = w
  rw [hdeployment]

end Rendered

/-- The whole pass, in a namespace where it goes through. -/
theorem complete_reconcileInner (h : Goes cfg obj bootstrap tlsSecret w) :
    ∃ (cert : Option Certificate) (r : Rendered cfg obj bootstrap tlsSecret),
      (reconcileInner cfg obj).complete good w =
        (.ok .driftRequeue, r.outcome { w with certificate := cert }) ∧
      Settled cfg obj bootstrap tlsSecret (r.outcome { w with certificate := cert }) ∧
      (Settled cfg obj bootstrap tlsSecret w → r.outcome { w with certificate := cert } = w) := by
  obtain ⟨r⟩ : Nonempty (Rendered cfg obj bootstrap tlsSecret) := exists_rendered h.uid
  obtain ⟨cert, htls, hrequested, hsame⟩ := complete_resolveTls h.uid h.tls
  refine ⟨cert, r, ?_, r.settled_outcome hrequested, fun hsettled => ?_⟩
  · unfold reconcileInner
    rw [h.config]
    refine (Prog.complete_bind_of_ok (complete_resolveBootstrap h.bootstrap)).trans ?_
    refine (Prog.complete_bind_of_ok htls).trans ?_
    exact r.complete_deploy h.set
  · rw [hsame hsettled.certificate]
    exact r.outcome_eq_self hsettled

/-! ## The next pass -/

/-- The object as the next pass reads it. -/
def SchemaRegistry.reported (obj : SchemaRegistry) (w : World) : SchemaRegistry :=
  { obj with status := w.status }

theorem Settled.reported (h : Settled cfg obj bootstrap tlsSecret w) :
    Settled cfg (obj.reported w) bootstrap tlsSecret w where
  certificate := h.certificate
  headless := h.headless
  front := h.front
  set := h.set
  deployment := h.deployment
  status := by
    obtain ⟨status, hstatus, hsays⟩ := h.status
    refine ⟨status, hstatus, ?_⟩
    rw [SchemaRegistry.reported, hstatus]
    exact hsays.reported

/-- A pass that goes through leaves a namespace where the next one does. -/
theorem Goes.reported (h : Goes cfg obj bootstrap tlsSecret w)
    (r : Rendered cfg obj bootstrap tlsSecret) (cert : Option Certificate) :
    Goes cfg (obj.reported (r.outcome { w with certificate := cert })) bootstrap tlsSecret
      (r.outcome { w with certificate := cert }) where
  config := h.config
  uid := h.uid
  bootstrap := h.bootstrap
  tls := by
    cases h.tls with
    | plain htls => exact .plain htls
    | secret htls hsecret hissuer => exact .secret htls hsecret hissuer
    | issued htls hsecret hissuer hmanager hthere =>
      exact .issued htls hsecret hissuer hmanager hthere
  set live hlive := by
    rw [← Option.some.inj hlive]
    exact r.set_identity

end Registry
