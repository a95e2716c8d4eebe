-- SUMMARY: The stored objects of one namespace, the API requests of the controllers, and how the API server answers them.
import KrabkaOperator.Base.Prog
import KrabkaOperator.ClusterCa.Library
import KrabkaOperator.Crd.NodePool
import KrabkaOperator.Crd.User
import KrabkaOperator.Kube.Objects

/-!
# The world of a controller

A controller is a program over API requests (`Op`). The `World` holds the stored
objects of one namespace and counts the random draws. A request may be refused,
or carried out with its answer lost; both give the caller an error.
-/

namespace Operator

open Kube Crd ClusterCa

inductive KubeError where
  | refused
  | lost
  | notFound
  | conflict
  deriving DecidableEq, Repr

inductive ReconcileError where
  | kube (e : KubeError)
  | missingUid
  | malformed (message : String)
  | ca (message : String)
  | certParse (message : String)
  | byoCaMissing (which : String)
  | caSecretMissing (name : String)
  | malformedSecret (message : String)
  | kafkaConfigInvalid (message : String)
  | missingOauthTrustSecret (secret : String)
  | missingOauthTrustKey (secret key : String)
  | emptyOauthTrustValue (secret key : String)
  | invalidListenerOauthAccessTokenIsJwt (message : String)
  | missingOauthIntrospectionSecret (secret : String)
  | missingOauthIntrospectionKey (secret key : String)
  | emptyOauthIntrospectionValue (secret key : String)
  | missingGssapiKeytabSecret (secret : String)
  | missingGssapiKeytabKey (secret key : String)
  | missingKrb5ConfSecret (secret : String)
  | missingKrb5ConfKey (secret key : String)
  deriving DecidableEq, Repr

/-- The field manager of the operator's server-side applies. -/
def fieldManager : String := "krabka-operator"

/-- The field manager of a patch without one: the name of the client. -/
def defaultManager : String := "unknown"

/-- `app.kubernetes.io/name` of the objects of a broker. -/
def appLabel : String := "krabka-broker"

structure World where
  secrets : BTreeMap Secret
  users : List KafkaUser
  pools : List KafkaNodePool
  statefulSets : List StatefulSet
  /-- The number of random draws so far. -/
  draws : Nat

inductive Fault where
  /-- The request is carried out and answered. -/
  | none
  /-- The request fails and changes nothing. -/
  | refused
  /-- The request is carried out, but its answer does not arrive. -/
  | lost
  deriving DecidableEq, Repr

/-- What the environment chooses at one request. -/
structure Choice where
  fault : Fault := .none
  clock : Int := 0
  deriving DecidableEq, Repr

/-- Calls that read or write no object of the `World`. One of them may stand for
    several API calls, the first of which to fail ends it. -/
inductive Effect where
  | applyServices
  | weakAuthEvent (message : String)
  | updateMetadataVersion
  | resolveLogging
  | listPods
  | patchKafkaStatus
  | stripAnnotations (keys : List String)
  | emitEvent (reason : String)
  | observeListenerAddresses
  | externalListenerState
  | applyConfigMap
  | finalizeKafka
  | patchUserStatus
  | userLifecycle
  | brokerAdmin
  | patchKafkaAnnotation (key : String)
  | listKafkas
  deriving DecidableEq, Repr

inductive Req where
  | getSecret (name : String)
  | applySecret (name : String) (cfg : SecretConfig)
  | mergeSecret (name : String) (cfg : SecretConfig)
  | createSecret (name : String) (cfg : SecretConfig)
  | listUsers (cluster : String)
  | listPools (cluster : String)
  | listStatefulSets (cluster : String)
  /-- Stamp a pool with a config hash. -/
  | labelPool (name hash : String)
  | effect (e : Effect)
  /-- Random bytes and the time for the certificate library. -/
  | draw
  /-- The current time, in seconds. -/
  | now

@[reducible] def Resp : Req → Type
  | .getSecret _ => Except KubeError (Option Secret)
  | .applySecret _ _ => Except KubeError Unit
  | .mergeSecret _ _ => Except KubeError Unit
  | .createSecret _ _ => Except KubeError Unit
  | .listUsers _ => Except KubeError (List KafkaUser)
  | .listPools _ => Except KubeError (List KafkaNodePool)
  | .listStatefulSets _ => Except KubeError (List StatefulSet)
  | .labelPool _ _ => Except KubeError Unit
  | .effect _ => Except KubeError Unit
  | .draw => Draw
  | .now => Int

namespace Req

/-- The Secret that a request writes. -/
def secretName? : Req → Option String
  | .applySecret name _ | .mergeSecret name _ | .createSecret name _ => some name
  | _ => none

/-- The requests that neither stamp a pool nor report a finished pass. -/
def quiet : Req → Bool
  | .labelPool _ _ => false
  | .effect e => e ≠ .finalizeKafka
  | _ => true

end Req

namespace World

/-- A namespace in which nothing is stored. -/
def empty : World := ⟨∅, [], [], [], 0⟩

def secret? (w : World) (name : String) : Option Secret := w.secrets[name]?

def setSecret (w : World) (name : String) (s : Secret) : World :=
  { w with secrets := w.secrets.insert name s }

/-- The readable text under a data key of a Secret. -/
def readPem (w : World) (name key : String) : Option (List Char) :=
  w.secret? name >>= (·.readPemKey key)

/-- Server-side apply creates the Secret when it is absent. -/
def applySecret (w : World) (name : String) (cfg : SecretConfig) : World :=
  w.setSecret name (((w.secret? name).getD Secret.empty).apply fieldManager cfg)

/-- The pools of a cluster. -/
def poolsOf (w : World) (cluster : String) : List KafkaNodePool :=
  w.pools.filter fun p => p.cluster? = some cluster

/-- The StatefulSets of a cluster. -/
def statefulSetsOf (w : World) (cluster : String) : List StatefulSet :=
  w.statefulSets.filter fun s => s.labels["app.kubernetes.io/instance"]? = some cluster ∧
    s.labels["app.kubernetes.io/name"]? = some appLabel

def labelPool (w : World) (name hash : String) : World :=
  { w with pools := w.pools.map fun p => if p.name = name then p.withConfigHash hash else p }

end World

/-- A read: it changes nothing. -/
def answerRead {σ α : Type} (c : Choice) (w : σ) (x : α) : Except KubeError α × σ :=
  match c.fault with
  | .none => (.ok x, w)
  | .refused => (.error .refused, w)
  | .lost => (.error .lost, w)

/-- A write that leads to `w'`. -/
def answerWrite {σ : Type} (c : Choice) (w w' : σ) : Except KubeError Unit × σ :=
  match c.fault with
  | .none => (.ok (), w')
  | .refused => (.error .refused, w)
  | .lost => (.error .lost, w')

theorem answerRead_world {σ α : Type} (c : Choice) (w : σ) (x : α) : (answerRead c w x).2 = w := by
  obtain ⟨fault, clock⟩ := c
  cases fault <;> rfl

theorem answerWrite_world {σ : Type} (c : Choice) (w w' : σ) :
    (answerWrite c w w').2 = w ∨ (answerWrite c w w').2 = w' := by
  obtain ⟨fault, clock⟩ := c
  cases fault with
  | none => exact .inr rfl
  | refused => exact .inl rfl
  | lost => exact .inr rfl

theorem eq_of_answerRead {σ α : Type} {c : Choice} {w : σ} {x y : α}
    (h : (answerRead c w x).1 = .ok y) : x = y := by
  obtain ⟨fault, clock⟩ := c
  cases fault with
  | none => exact Except.ok.inj h
  | refused => cases h
  | lost => cases h

theorem answerWrite_of_ok {σ : Type} {c : Choice} {w w' : σ}
    (h : (answerWrite c w w').1 = .ok ()) : (answerWrite c w w').2 = w' := by
  obtain ⟨fault, clock⟩ := c
  cases fault with
  | none => rfl
  | refused => cases h
  | lost => cases h

def answer : (r : Req) → Choice → World → Resp r × World
  | .getSecret name, c, w => answerRead c w (w.secret? name)
  | .applySecret name cfg, c, w => answerWrite c w (w.applySecret name cfg)
  | .mergeSecret name cfg, c, w =>
    match w.secret? name with
    | none => (.error .notFound, w)
    | some s => answerWrite c w (w.setSecret name (s.merge defaultManager cfg))
  | .createSecret name cfg, c, w =>
    match w.secret? name with
    | none => answerWrite c w (w.setSecret name (Secret.empty.merge defaultManager cfg))
    | some _ => (.error .conflict, w)
  | .listUsers cluster, c, w =>
    answerRead c w (w.users.filter fun u => u.cluster? = some cluster)
  | .listPools cluster, c, w => answerRead c w (w.poolsOf cluster)
  | .listStatefulSets cluster, c, w => answerRead c w (w.statefulSetsOf cluster)
  | .labelPool name hash, c, w =>
    if w.pools.any (·.name = name) then answerWrite c w (w.labelPool name hash)
    else (.error .notFound, w)
  | .effect _, c, w => answerRead c w ()
  | .draw, c, w => (⟨w.draws, c.clock⟩, { w with draws := w.draws + 1 })
  | .now, c, w => (c.clock, w)

/-- A controller program. -/
abbrev Op (α : Type) := Prog Req Resp ReconcileError α

/-- Continue with the value of an API answer, or fail with its error. -/
def kube {α : Type} : Except KubeError α → Op α
  | .ok x => pure x
  | .error e => .fail (.kube e)

def getOpt (name : String) : Op (Option Secret) := Prog.request (.getSecret name) >>= kube

def applySecret (name : String) (cfg : SecretConfig) : Op Unit :=
  Prog.request (.applySecret name cfg) >>= kube

def mergeSecret (name : String) (cfg : SecretConfig) : Op Unit :=
  Prog.request (.mergeSecret name cfg) >>= kube

def listUsers (cluster : String) : Op (List KafkaUser) :=
  Prog.request (.listUsers cluster) >>= kube

def createSecret (name : String) (cfg : SecretConfig) : Op Unit :=
  Prog.request (.createSecret name cfg) >>= kube

def listPools (cluster : String) : Op (List KafkaNodePool) :=
  Prog.request (.listPools cluster) >>= kube

def listStatefulSets (cluster : String) : Op (List StatefulSet) :=
  Prog.request (.listStatefulSets cluster) >>= kube

def labelPool (name hash : String) : Op Unit := Prog.request (.labelPool name hash) >>= kube

def effect (e : Effect) : Op Unit := Prog.request (.effect e) >>= kube

/-- A call whose error is ignored. -/
def ignoredEffect (e : Effect) : Op Unit := Prog.request (.effect e) >>= fun _ => pure ()

def draw : Op Draw := Prog.request Req.draw

def now : Op Int := Prog.request Req.now

/-- Continue with the result of a library call, or fail with its error. -/
def orFail {α : Type} (f : String → ReconcileError) : Except String α → Op α
  | .ok x => pure x
  | .error e => .fail (f e)

/-! ## The store after a write -/

namespace World

variable {w : World} {name name' : String} {s : Secret} {cfg : SecretConfig}

theorem secret?_setSecret :
    (w.setSecret name s).secret? name' = if name = name' then some s else w.secret? name' := by
  simp only [secret?, setSecret, Std.ExtTreeMap.getElem?_insert, Std.LawfulEqCmp.compare_eq_iff_eq]

@[simp] theorem secret?_setSecret_self : (w.setSecret name s).secret? name = some s := by
  simp [secret?_setSecret]

theorem secret?_setSecret_of_ne (h : name ≠ name') :
    (w.setSecret name s).secret? name' = w.secret? name' := by
  simp [secret?_setSecret, h]

@[simp] theorem secret?_applySecret_self : (w.applySecret name cfg).secret? name =
    some (((w.secret? name).getD Secret.empty).apply fieldManager cfg) :=
  secret?_setSecret_self

theorem secret?_applySecret_of_ne (h : name ≠ name') :
    (w.applySecret name cfg).secret? name' = w.secret? name' :=
  secret?_setSecret_of_ne h

@[simp] theorem secret?_draws {n : Nat} : ({ w with draws := n } : World).secret? name = w.secret? name :=
  rfl

theorem readPem_setSecret_of_ne {key : String} (h : name ≠ name') :
    (w.setSecret name s).readPem name' key = w.readPem name' key := by
  rw [readPem, readPem, secret?_setSecret_of_ne h]

@[simp] theorem readPem_setSecret_self {key : String} :
    (w.setSecret name s).readPem name key = s.readPemKey key := by
  rw [readPem, secret?_setSecret_self]
  rfl

/-- An apply creates no entry that it does not list. -/
theorem readPem_applySecret_of_none {key : String} {pem : List Char} (h : cfg.data[key]? = none)
    (hpem : (w.applySecret name cfg).readPem name' key = some pem) :
    w.readPem name' key = some pem := by
  by_cases hname : name = name'
  · subst hname
    rw [applySecret, readPem_setSecret_self] at hpem
    rcases Secret.readPemKey_apply_of_none fieldManager ((w.secret? name).getD Secret.empty) h with
      heq | hnone
    · rw [heq] at hpem
      cases hs : w.secret? name with
      | none => simp [hs, Secret.readPemKey, Secret.empty] at hpem
      | some s => simpa [readPem, hs] using hpem
    · simp [hnone] at hpem
  · rwa [applySecret, readPem_setSecret_of_ne hname] at hpem

/-- A merge creates no entry that it does not list. -/
theorem readPem_merge_of_none {key : String} {pem : List Char} (hs : w.secret? name = some s)
    (h : cfg.data[key]? = none)
    (hpem : (w.setSecret name (s.merge defaultManager cfg)).readPem name' key = some pem) :
    w.readPem name' key = some pem := by
  by_cases hname : name = name'
  · subst hname
    rw [readPem_setSecret_self, Secret.readPemKey_merge, h, Option.none_or] at hpem
    rw [readPem, hs]
    exact hpem
  · rwa [readPem_setSecret_of_ne hname] at hpem

@[simp] theorem draws_setSecret : (w.setSecret name s).draws = w.draws := rfl
@[simp] theorem draws_applySecret : (w.applySecret name cfg).draws = w.draws := rfl

end World

/-! ## Rules for the requests -/

section Rules

variable {α : Type} {S : World → Req → World → Prop} {Q : Except ReconcileError α → World → Prop}
  {w : World} {name cluster : String} {cfg : SecretConfig}

theorem sat_getOpt {k : Option Secret → Op α} (hS : S w (.getSecret name) w)
    (herr : ∀ e, Q (.error (.kube e)) w) (hk : Prog.Sat answer S Q (k (w.secret? name)) w) :
    Prog.Sat answer S Q (getOpt name >>= k) w := by
  rintro ⟨_ | _ | _, clock⟩
  · exact ⟨hS, hk⟩
  · exact ⟨hS, herr _⟩
  · exact ⟨hS, herr _⟩

theorem sat_listUsers {k : List KafkaUser → Op α} (hS : S w (.listUsers cluster) w)
    (herr : ∀ e, Q (.error (.kube e)) w)
    (hk : Prog.Sat answer S Q (k (w.users.filter fun u => u.cluster? = some cluster)) w) :
    Prog.Sat answer S Q (listUsers cluster >>= k) w := by
  rintro ⟨_ | _ | _, clock⟩
  · exact ⟨hS, hk⟩
  · exact ⟨hS, herr _⟩
  · exact ⟨hS, herr _⟩

theorem sat_applySecret {k : Unit → Op α} (hrefuse : S w (.applySecret name cfg) w)
    (hS : S w (.applySecret name cfg) (w.applySecret name cfg))
    (herr : ∀ e, Q (.error (.kube e)) w) (herr' : ∀ e, Q (.error (.kube e)) (w.applySecret name cfg))
    (hk : Prog.Sat answer S Q (k ()) (w.applySecret name cfg)) :
    Prog.Sat answer S Q (applySecret name cfg >>= k) w := by
  rintro ⟨_ | _ | _, clock⟩
  · exact ⟨hS, hk⟩
  · exact ⟨hrefuse, herr _⟩
  · exact ⟨hS, herr' _⟩

theorem sat_mergeSecret {k : Unit → Op α} (hrefuse : S w (.mergeSecret name cfg) w)
    (herr : ∀ e, Q (.error (.kube e)) w)
    (hfound : ∀ s, w.secret? name = some s →
      let w' := w.setSecret name (s.merge defaultManager cfg)
      S w (.mergeSecret name cfg) w' ∧ (∀ e, Q (.error (.kube e)) w') ∧
        Prog.Sat answer S Q (k ()) w') :
    Prog.Sat answer S Q (mergeSecret name cfg >>= k) w := by
  rintro ⟨fault, clock⟩
  cases hs : w.secret? name with
  | none =>
    simp only [answer, hs]
    exact ⟨hrefuse, herr _⟩
  | some s =>
    obtain ⟨hS, herr', hk⟩ := hfound s hs
    simp only [answer, hs]
    cases fault with
    | none => exact ⟨hS, hk⟩
    | refused => exact ⟨hrefuse, herr _⟩
    | lost => exact ⟨hS, herr' _⟩

theorem sat_draw {k : Draw → Op α} (hS : S w .draw { w with draws := w.draws + 1 })
    (hk : ∀ clock, Prog.Sat answer S Q (k ⟨w.draws, clock⟩) { w with draws := w.draws + 1 }) :
    Prog.Sat answer S Q (draw >>= k) w :=
  fun c => ⟨hS, hk c.clock⟩

theorem sat_now {k : Int → Op α} (hS : S w .now w) (hk : ∀ t, Prog.Sat answer S Q (k t) w) :
    Prog.Sat answer S Q (now >>= k) w :=
  fun c => ⟨hS, hk c.clock⟩

theorem sat_createSecret {k : Unit → Op α} (hrefuse : S w (.createSecret name cfg) w)
    (herr : ∀ e, Q (.error (.kube e)) w)
    (hcreated : w.secret? name = none →
      let w' := w.setSecret name (Secret.empty.merge defaultManager cfg)
      S w (.createSecret name cfg) w' ∧ (∀ e, Q (.error (.kube e)) w') ∧
        Prog.Sat answer S Q (k ()) w') :
    Prog.Sat answer S Q (createSecret name cfg >>= k) w := by
  rintro ⟨fault, clock⟩
  cases hs : w.secret? name with
  | some s =>
    simp only [answer, hs]
    exact ⟨hrefuse, herr _⟩
  | none =>
    obtain ⟨hS, herr', hk⟩ := hcreated hs
    simp only [answer, hs]
    cases fault with
    | none => exact ⟨hS, hk⟩
    | refused => exact ⟨hrefuse, herr _⟩
    | lost => exact ⟨hS, herr' _⟩

theorem sat_listPools {k : List KafkaNodePool → Op α} (hS : S w (.listPools cluster) w)
    (herr : ∀ e, Q (.error (.kube e)) w)
    (hk : Prog.Sat answer S Q (k (w.poolsOf cluster)) w) :
    Prog.Sat answer S Q (listPools cluster >>= k) w := by
  rintro ⟨_ | _ | _, clock⟩
  · exact ⟨hS, hk⟩
  · exact ⟨hS, herr _⟩
  · exact ⟨hS, herr _⟩

theorem sat_listStatefulSets {k : List StatefulSet → Op α}
    (hS : S w (.listStatefulSets cluster) w) (herr : ∀ e, Q (.error (.kube e)) w)
    (hk : Prog.Sat answer S Q (k (w.statefulSetsOf cluster)) w) :
    Prog.Sat answer S Q (listStatefulSets cluster >>= k) w := by
  rintro ⟨_ | _ | _, clock⟩
  · exact ⟨hS, hk⟩
  · exact ⟨hS, herr _⟩
  · exact ⟨hS, herr _⟩

theorem sat_labelPool {hash : String} {k : Unit → Op α} (hrefuse : S w (.labelPool name hash) w)
    (herr : ∀ e, Q (.error (.kube e)) w)
    (hfound : (∃ p ∈ w.pools, p.name = name) →
      S w (.labelPool name hash) (w.labelPool name hash) ∧
        (∀ e, Q (.error (.kube e)) (w.labelPool name hash)) ∧
        Prog.Sat answer S Q (k ()) (w.labelPool name hash)) :
    Prog.Sat answer S Q (labelPool name hash >>= k) w := by
  rintro ⟨fault, clock⟩
  by_cases hp : w.pools.any (·.name = name) = true
  · obtain ⟨hS, herr', hk⟩ := hfound (by simpa using hp)
    simp only [answer, hp, if_true]
    cases fault with
    | none => exact ⟨hS, hk⟩
    | refused => exact ⟨hrefuse, herr _⟩
    | lost => exact ⟨hS, herr' _⟩
  · simp only [answer, hp]
    exact ⟨hrefuse, herr _⟩

theorem sat_effect {e : Effect} {k : Unit → Op α} (hS : S w (.effect e) w)
    (herr : ∀ e, Q (.error (.kube e)) w) (hk : Prog.Sat answer S Q (k ()) w) :
    Prog.Sat answer S Q (effect e >>= k) w := by
  rintro ⟨_ | _ | _, clock⟩
  · exact ⟨hS, hk⟩
  · exact ⟨hS, herr _⟩
  · exact ⟨hS, herr _⟩

theorem sat_ignoredEffect {e : Effect} {k : Unit → Op α} (hS : S w (.effect e) w)
    (hk : Prog.Sat answer S Q (k ()) w) :
    Prog.Sat answer S Q (ignoredEffect e >>= k) w := by
  rintro ⟨_ | _ | _, clock⟩
  · exact ⟨hS, hk⟩
  · exact ⟨hS, hk⟩
  · exact ⟨hS, hk⟩

theorem sat_orFail {β : Type} {f : String → ReconcileError} {x : Except String β} {k : β → Op α}
    (herr : ∀ e, x = .error e → Q (.error (f e)) w)
    (hk : ∀ b, x = .ok b → Prog.Sat answer S Q (k b) w) :
    Prog.Sat answer S Q (orFail f x >>= k) w := by
  cases x with
  | error e => exact herr e rfl
  | ok b => exact hk b rfl

end Rules

/-! ## Rules under restricted choices -/

section Via

variable {α C : Type} {f : C → Choice} {S : World → Req → World → Prop}
  {Q : Except ReconcileError α → World → Prop} {w : World} {cluster : String}

theorem sat_now_via {k : Int → Op α} (hS : S w .now w)
    (hk : ∀ c, Prog.Sat (Prog.via answer f) S Q (k (f c).clock) w) :
    Prog.Sat (Prog.via answer f) S Q (now >>= k) w :=
  fun c => ⟨hS, hk c⟩

theorem sat_draw_via {k : Draw → Op α} (hS : S w .draw { w with draws := w.draws + 1 })
    (hk : ∀ c, Prog.Sat (Prog.via answer f) S Q (k ⟨w.draws, (f c).clock⟩)
      { w with draws := w.draws + 1 }) :
    Prog.Sat (Prog.via answer f) S Q (draw >>= k) w :=
  fun c => ⟨hS, hk c⟩

theorem sat_orFail_via {β : Type} {g : String → ReconcileError} {x : Except String β}
    {k : β → Op α} (herr : ∀ e, x = .error e → Q (.error (g e)) w)
    (hk : ∀ b, x = .ok b → Prog.Sat (Prog.via answer f) S Q (k b) w) :
    Prog.Sat (Prog.via answer f) S Q (orFail g x >>= k) w := by
  cases x with
  | error e => exact herr e rfl
  | ok b => exact hk b rfl

theorem sat_getOpt_via {name : String} {k : Option Secret → Op α} (hS : S w (.getSecret name) w)
    (herr : ∀ e, Q (.error (.kube e)) w)
    (hk : Prog.Sat (Prog.via answer f) S Q (k (w.secret? name)) w) :
    Prog.Sat (Prog.via answer f) S Q (getOpt name >>= k) w := by
  intro c
  rcases hc : f c with ⟨_ | _ | _, clock⟩
  · simp only [Prog.via, hc]
    exact ⟨hS, hk⟩
  · simp only [Prog.via, hc]
    exact ⟨hS, herr _⟩
  · simp only [Prog.via, hc]
    exact ⟨hS, herr _⟩

theorem sat_listPools_via {k : List KafkaNodePool → Op α} (hS : S w (.listPools cluster) w)
    (herr : ∀ e, Q (.error (.kube e)) w)
    (hk : Prog.Sat (Prog.via answer f) S Q (k (w.poolsOf cluster)) w) :
    Prog.Sat (Prog.via answer f) S Q (listPools cluster >>= k) w := by
  intro c
  rcases hc : f c with ⟨_ | _ | _, clock⟩
  · simp only [Prog.via, hc]
    exact ⟨hS, hk⟩
  · simp only [Prog.via, hc]
    exact ⟨hS, herr _⟩
  · simp only [Prog.via, hc]
    exact ⟨hS, herr _⟩

theorem sat_listStatefulSets_via {k : List StatefulSet → Op α}
    (hS : S w (.listStatefulSets cluster) w) (herr : ∀ e, Q (.error (.kube e)) w)
    (hk : Prog.Sat (Prog.via answer f) S Q (k (w.statefulSetsOf cluster)) w) :
    Prog.Sat (Prog.via answer f) S Q (listStatefulSets cluster >>= k) w := by
  intro c
  rcases hc : f c with ⟨_ | _ | _, clock⟩
  · simp only [Prog.via, hc]
    exact ⟨hS, hk⟩
  · simp only [Prog.via, hc]
    exact ⟨hS, herr _⟩
  · simp only [Prog.via, hc]
    exact ⟨hS, herr _⟩

theorem sat_effect_via {e : Effect} {k : Unit → Op α} (hS : S w (.effect e) w)
    (herr : ∀ e, Q (.error (.kube e)) w) (hk : Prog.Sat (Prog.via answer f) S Q (k ()) w) :
    Prog.Sat (Prog.via answer f) S Q (effect e >>= k) w := by
  intro c
  rcases hc : f c with ⟨_ | _ | _, clock⟩
  · simp only [Prog.via, hc]
    exact ⟨hS, hk⟩
  · simp only [Prog.via, hc]
    exact ⟨hS, herr _⟩
  · simp only [Prog.via, hc]
    exact ⟨hS, herr _⟩

theorem sat_applySecret_via {name : String} {cfg : SecretConfig} {k : Unit → Op α}
    (hrefuse : S w (.applySecret name cfg) w)
    (hS : S w (.applySecret name cfg) (w.applySecret name cfg)) (herr : ∀ e v, Q (.error e) v)
    (hk : Prog.Sat (Prog.via answer f) S Q (k ()) (w.applySecret name cfg)) :
    Prog.Sat (Prog.via answer f) S Q (applySecret name cfg >>= k) w := by
  intro c
  rcases hc : f c with ⟨_ | _ | _, clock⟩
  · simp only [Prog.via, hc]
    exact ⟨hS, hk⟩
  · simp only [Prog.via, hc]
    exact ⟨hrefuse, herr _ _⟩
  · simp only [Prog.via, hc]
    exact ⟨hS, herr _ _⟩

end Via

/-! ## Answered requests -/

/-- What one answered request leads to. -/
inductive Answered (a : World) : Req → World → Prop
  | same {r : Req} (h : r ≠ .draw) : Answered a r a
  | applied {name : String} {cfg : SecretConfig} :
      Answered a (.applySecret name cfg) (a.applySecret name cfg)
  | merged {name : String} {cfg : SecretConfig} {s : Secret} (h : a.secret? name = some s) :
      Answered a (.mergeSecret name cfg) (a.setSecret name (s.merge defaultManager cfg))
  | created {name : String} {cfg : SecretConfig} (h : a.secret? name = none) :
      Answered a (.createSecret name cfg)
        (a.setSecret name (Secret.empty.merge defaultManager cfg))
  | labelled {name hash : String} : Answered a (.labelPool name hash) (a.labelPool name hash)
  | drawn : Answered a .draw { a with draws := a.draws + 1 }

theorem answered (r : Req) (c : Choice) (a : World) : Answered a r (answer r c a).2 := by
  obtain ⟨fault, clock⟩ := c
  cases r with
  | getSecret name => cases fault <;> exact .same (by simp)
  | applySecret name cfg =>
    cases fault with
    | none => exact .applied
    | refused => exact .same (by simp)
    | lost => exact .applied
  | mergeSecret name cfg =>
    simp only [answer]
    split
    · exact .same (by simp)
    · rename_i s hs
      cases fault with
      | none => exact .merged hs
      | refused => exact .same (by simp)
      | lost => exact .merged hs
  | createSecret name cfg =>
    simp only [answer]
    split
    · rename_i hs
      cases fault with
      | none => exact .created hs
      | refused => exact .same (by simp)
      | lost => exact .created hs
    · exact .same (by simp)
  | listUsers cluster => cases fault <;> exact .same (by simp)
  | listPools cluster => cases fault <;> exact .same (by simp)
  | listStatefulSets cluster => cases fault <;> exact .same (by simp)
  | labelPool name hash =>
    simp only [answer]
    split
    · cases fault with
      | none => exact .labelled
      | refused => exact .same (by simp)
      | lost => exact .labelled
    · exact .same (by simp)
  | effect e => cases fault <;> exact .same (by simp)
  | draw => exact .drawn
  | now => exact .same (by simp)

/-- Whether a request applies the Secret `name`. -/
def Req.appliesTo (r : Req) (name : String) : Bool :=
  match r with
  | .applySecret n _ => n = name
  | _ => false

/-- In a run without faults every apply is carried out. -/
theorem applied_of_faultless {α : Type} {p : Op α} {cs : List Choice} {w : World}
    (hcs : ∀ c ∈ cs, c.fault = .none) : ∀ st ∈ p.trace answer cs w, ∀ {name : String},
      st.req.appliesTo name = true → ∃ cfg, st.req = .applySecret name cfg ∧
        st.after = st.before.applySecret name cfg := by
  induction p generalizing cs w with
  | ret a => simp [Prog.trace]
  | fail e => simp [Prog.trace]
  | call r k ih =>
    cases cs with
    | nil => simp [Prog.trace]
    | cons c cs =>
      rw [Prog.trace]
      intro st hst name hreq
      rcases List.mem_cons.mp hst with rfl | hst
      · cases r with
        | applySecret n cfg =>
          obtain rfl : n = name := by simpa [Req.appliesTo] using hreq
          refine ⟨cfg, rfl, ?_⟩
          simp only [answer, answerWrite, hcs c List.mem_cons_self]
        | _ => cases hreq
      · exact ih _ (fun c' hc' => hcs c' (List.mem_cons_of_mem _ hc')) st hst hreq

/-- In a run without faults every label patch of a pool that exists is carried out. -/
theorem labelled_of_faultless {α : Type} {p : Op α} {cs : List Choice} {w : World}
    (hcs : ∀ c ∈ cs, c.fault = .none) : ∀ st ∈ p.trace answer cs w, ∀ {name hash : String},
      st.req = .labelPool name hash → st.before.pools.any (·.name = name) = true →
        st.after = st.before.labelPool name hash := by
  induction p generalizing cs w with
  | ret a => simp [Prog.trace]
  | fail e => simp [Prog.trace]
  | call r k ih =>
    cases cs with
    | nil => simp [Prog.trace]
    | cons c cs =>
      rw [Prog.trace]
      intro st hst name hash hreq hfound
      rcases List.mem_cons.mp hst with rfl | hst
      · obtain rfl : r = .labelPool name hash := hreq
        simp only [answer, hfound, if_true, answerWrite, hcs c List.mem_cons_self]
      · exact ih _ (fun c' hc' => hcs c' (List.mem_cons_of_mem _ hc')) st hst hreq hfound

/-- What a request may do to the rest of the store: it writes one Secret or one pool, and
    the draws only grow. -/
structure Answered.Frame (a : World) (r : Req) (b : World) : Prop where
  secret : ∀ name, r.secretName? ≠ some name → b.secret? name = a.secret? name
  users : b.users = a.users
  statefulSets : b.statefulSets = a.statefulSets
  draws : a.draws ≤ b.draws

theorem Answered.frame {a b : World} {r : Req} (h : Answered a r b) : Answered.Frame a r b := by
  cases h with
  | same hr => exact ⟨fun _ _ => rfl, rfl, rfl, le_rfl⟩
  | applied =>
    exact ⟨fun name hn => World.secret?_applySecret_of_ne fun h => hn (congrArg some h), rfl, rfl,
      le_rfl⟩
  | merged hs =>
    exact ⟨fun name hn => World.secret?_setSecret_of_ne fun h => hn (congrArg some h), rfl, rfl,
      le_rfl⟩
  | created hs =>
    exact ⟨fun name hn => World.secret?_setSecret_of_ne fun h => hn (congrArg some h), rfl, rfl,
      le_rfl⟩
  | labelled => exact ⟨fun _ _ => rfl, rfl, rfl, le_rfl⟩
  | drawn => exact ⟨fun _ _ => rfl, rfl, rfl, Nat.le_succ _⟩

/-- Only the number of draws differs, and it has not gone down. -/
def OnlyDraws (a b : World) : Prop := ∃ n, a.draws ≤ n ∧ b = { a with draws := n }

theorem OnlyDraws.refl (a : World) : OnlyDraws a a := ⟨a.draws, le_rfl, rfl⟩

theorem OnlyDraws.trans {a b c : World} (h : OnlyDraws a b) (h' : OnlyDraws b c) :
    OnlyDraws a c := by
  obtain ⟨n, hn, rfl⟩ := h
  obtain ⟨m, hm, rfl⟩ := h'
  exact ⟨m, le_trans hn hm, rfl⟩

theorem OnlyDraws.draw (a : World) : OnlyDraws a { a with draws := a.draws + 1 } :=
  ⟨a.draws + 1, Nat.le_succ _, rfl⟩

theorem OnlyDraws.secret? {a b : World} (h : OnlyDraws a b) (name : String) :
    b.secret? name = a.secret? name := by
  obtain ⟨n, -, rfl⟩ := h
  rfl

/-- Only a label patch changes a pool. -/
theorem Answered.pools {a b : World} {r : Req} (h : Answered a r b) (hquiet : r.quiet = true) :
    b.pools = a.pools := by
  cases h with
  | same hr => rfl
  | applied => rfl
  | merged hs => rfl
  | created hs => rfl
  | labelled => cases hquiet
  | drawn => rfl

/-! ## Requests of the operations -/

section Makes

variable {α : Type} {R : Req → Prop} {name : String} {cfg : SecretConfig}

theorem makes_kube {x : Except KubeError α} : Prog.Makes R (kube x) := by
  cases x with
  | ok a => trivial
  | error e => trivial

theorem makes_getOpt (h : R (.getSecret name)) : Prog.Makes R (getOpt name) :=
  ⟨h, fun _ => makes_kube⟩

theorem makes_applySecret (h : R (.applySecret name cfg)) : Prog.Makes R (applySecret name cfg) :=
  ⟨h, fun _ => makes_kube⟩

theorem makes_mergeSecret (h : R (.mergeSecret name cfg)) : Prog.Makes R (mergeSecret name cfg) :=
  ⟨h, fun _ => makes_kube⟩

theorem makes_createSecret (h : R (.createSecret name cfg)) :
    Prog.Makes R (createSecret name cfg) :=
  ⟨h, fun _ => makes_kube⟩

theorem makes_listUsers (h : R (.listUsers name)) : Prog.Makes R (listUsers name) :=
  ⟨h, fun _ => makes_kube⟩

theorem makes_effect {e : Effect} (h : R (.effect e)) : Prog.Makes R (effect e) :=
  ⟨h, fun _ => makes_kube⟩

theorem makes_ignoredEffect {e : Effect} (h : R (.effect e)) : Prog.Makes R (ignoredEffect e) :=
  ⟨h, fun _ => trivial⟩

theorem makes_draw (h : R .draw) : Prog.Makes R draw := ⟨h, fun _ => trivial⟩

theorem makes_now (h : R .now) : Prog.Makes R now := ⟨h, fun _ => trivial⟩

theorem makes_orFail {β : Type} {f : String → ReconcileError} {x : Except String β} {k : β → Op α}
    (hk : ∀ b, x = .ok b → Prog.Makes R (k b)) : Prog.Makes R (orFail f x >>= k) := by
  cases x with
  | error e => trivial
  | ok b => exact hk b rfl

end Makes
end Operator
