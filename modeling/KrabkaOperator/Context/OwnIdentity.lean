-- SUMMARY: Whatever order the calls run in, a controller gets a client of its own cluster with the identity that it has read, and never one that was dropped.
import KrabkaOperator.Base.Checks
import KrabkaOperator.Context.AdminClients

/-!
# Clients of the own identity

The keys of the map name the cluster, the namespace, the address and the version of the
identity. No name has a NUL in it, so a key tells all four apart, and the prefixes that
the code compares match the keys of one cluster or of one address only.
-/

namespace Context

open Kube Admin User

/-! ## Keys -/

/-- A name, as the API server accepts it, has no NUL. -/
def NulFree (name : String) : Prop := '\x00' ∉ name.toList

instance (name : String) : Decidable (NulFree name) := inferInstanceAs (Decidable (¬ _))

section Keys

variable {cluster ns bootstrap version cluster' ns' bootstrap' version' : String}

theorem startsWith_iff {key start : String} :
    startsWith key start = true ↔ start.toList <+: key.toList := by
  simp only [startsWith, List.isPrefixOf_iff_prefix]

theorem toList_clusterPrefix : (clusterPrefix cluster).toList = cluster.toList ++ ['\x00'] := by
  simp [clusterPrefix, String.toList_append]

theorem toList_cacheKey : (cacheKey cluster ns bootstrap version).toList =
    cluster.toList ++ '\x00' :: (ns.toList ++ '\x00' :: (bootstrap.toList ++
      '\x00' :: version.toList)) := by
  simp [cacheKey, cachePrefix, toList_clusterPrefix, String.toList_append]

theorem toList_cachePrefix : (cachePrefix cluster ns bootstrap).toList =
    cluster.toList ++ '\x00' :: (ns.toList ++ '\x00' :: (bootstrap.toList ++ ['\x00'])) := by
  simp [cachePrefix, toList_clusterPrefix, String.toList_append]

theorem startsWith_clusterPrefix (hc : NulFree cluster) (hc' : NulFree cluster') :
    startsWith (cacheKey cluster ns bootstrap version) (clusterPrefix cluster') = true ↔
      cluster = cluster' := by
  rw [startsWith_iff, toList_clusterPrefix, toList_cacheKey, List.IsPrefix]
  simp only [List.append_assoc, List.singleton_append,
    Separated.append_cons_inj_of_front hc' hc, String.toList_inj]
  constructor
  · rintro ⟨rest, h, -⟩
    exact h.symm
  · intro h
    exact ⟨_, h.symm, rfl⟩

theorem startsWith_cachePrefix (hc : NulFree cluster) (hn : NulFree ns) (hb : NulFree bootstrap)
    (hc' : NulFree cluster') (hn' : NulFree ns') (hb' : NulFree bootstrap') :
    startsWith (cacheKey cluster ns bootstrap version) (cachePrefix cluster' ns' bootstrap') =
      true ↔ cluster = cluster' ∧ ns = ns' ∧ bootstrap = bootstrap' := by
  rw [startsWith_iff, toList_cachePrefix, toList_cacheKey, List.IsPrefix]
  simp only [List.append_assoc, List.cons_append, List.nil_append,
    Separated.append_cons_inj_of_front hc' hc, Separated.append_cons_inj_of_front hn' hn,
    Separated.append_cons_inj_of_front hb' hb, String.toList_inj]
  constructor
  · rintro ⟨rest, hcluster, hns, hbootstrap, -⟩
    exact ⟨hcluster.symm, hns.symm, hbootstrap.symm⟩
  · rintro ⟨hcluster, hns, hbootstrap⟩
    exact ⟨_, hcluster.symm, hns.symm, hbootstrap.symm, rfl⟩

theorem cacheKey_inj (hc : NulFree cluster) (hn : NulFree ns) (hb : NulFree bootstrap)
    (hc' : NulFree cluster') (hn' : NulFree ns') (hb' : NulFree bootstrap') :
    cacheKey cluster ns bootstrap version = cacheKey cluster' ns' bootstrap' version' ↔
      cluster = cluster' ∧ ns = ns' ∧ bootstrap = bootstrap' ∧ version = version' := by
  rw [← String.toList_inj, toList_cacheKey, toList_cacheKey,
    Separated.append_cons_inj_of_front hc hc', Separated.append_cons_inj_of_front hn hn',
    Separated.append_cons_inj_of_front hb hb']
  simp only [String.toList_inj]

/-- No key is the bare name of a cluster. -/
theorem cacheKey_ne (hc : NulFree cluster') : cacheKey cluster ns bootstrap version ≠ cluster' := by
  intro h
  refine hc ?_
  rw [← h, toList_cacheKey]
  exact List.mem_append_right _ List.mem_cons_self

end Keys

/-! ## What a client is made of -/

/-- The data of each version of each Secret. -/
abbrev Contents := String → String → String → Option (BTreeMap ByteString)

/-- The Secret is one that the API server has stored. -/
def Authentic (content : Contents) (ns name : String) (secret : IdentitySecret) : Prop :=
  ∃ version, secret.resourceVersion = some version ∧ secret.data = content ns name version

/-- A version of a Secret tells its data. -/
def Versioned (content : Contents) (secret? : Secrets) : Prop :=
  ∀ ns name secret, secret? ns name = some secret → Authentic content ns name secret

def materialOf (data : Option (BTreeMap ByteString)) : Option Material := do
  let data ← data
  some ⟨← data["ca.crt"]?, ← data["user.crt"]?, ← data["user.key"]?⟩

/-- The client reaches the address it is for, under the name of the brokers of its cluster,
    with the given identity. -/
structure ConnectedTo (ns cluster bootstrap : String) (data : Option (BTreeMap ByteString))
    (h : AdminClientHandle) : Prop where
  bootstrap : h.bootstrap = bootstrap
  serverName : h.serverName = adminServerName cluster ns
  material : materialOf data = some h.material

theorem orError_eq_ok {α : Type} {e : AdminError} {x : Option α} {a : α} :
    orError e x = .ok a ↔ x = some a := by
  cases x with
  | none => simp [orError]
  | some b => simp [orError]

theorem materialOf_of_openWith {c : Choice} {ns cluster : String} {secret : IdentitySecret}
    {material : Material} (h : openWith c ns cluster secret = .ok material) :
    materialOf secret.data = some material := by
  simp only [openWith, Checks.bind_eq_ok, orError_eq_ok] at h
  obtain ⟨data, hdata, -, -, caCrt, hca, userCrt, hcrt, userKey, hkey, -, -, -, -, hmaterial⟩ := h
  cases hmaterial
  simp [materialOf, hdata, hca, hcrt, hkey]

/-! ## The map -/

structure Entry (content : Contents) (opened : Nat) (key : String) (h : AdminClientHandle) :
    Prop where
  connection : h.connection < opened
  key : ∃ ns cluster bootstrap version, NulFree ns ∧ NulFree cluster ∧ NulFree bootstrap ∧
    key = cacheKey cluster ns bootstrap version ∧
    ConnectedTo ns cluster bootstrap (content ns (operatorSecretName cluster) version) h

/-- The map has a client of some identity for the address. -/
def World.Has (w : World) (cluster ns bootstrap version : String) : Prop :=
  (w.adminClients[cacheKey cluster ns bootstrap version]?).isSome = true

structure Kept (content : Contents) (w : World) : Prop where
  secrets : Versioned content w.secret?
  entry : ∀ key h, w.adminClients[key]? = some h → Entry content w.opened key h
  single : ∀ cluster ns bootstrap version version', NulFree cluster → NulFree ns →
    NulFree bootstrap → w.Has cluster ns bootstrap version →
    w.Has cluster ns bootstrap version' → version = version'

section Map

variable {content : Contents} {w : World} {ns cluster bootstrap version key : String}
  {h : AdminClientHandle} {c : Choice} {secret : IdentitySecret}

/-- The map after a client is connected. -/
def World.connected (w : World) (ns cluster bootstrap version : String) (h : AdminClientHandle) :
    World :=
  { w with
    adminClients := (w.adminClients.filter fun cached _ =>
      !startsWith cached (cachePrefix cluster ns bootstrap)).insert
        (cacheKey cluster ns bootstrap version) h
    opened := w.opened + 1 }

theorem Kept.no_bare_key (hw : Kept content w) (hc : NulFree cluster) :
    w.adminClients[cluster]? = none := by
  cases hfind : w.adminClients[cluster]? with
  | none => rfl
  | some h =>
    obtain ⟨_, _, _, _, -, -, -, hkey, -⟩ := (hw.entry _ _ hfind).key
    exact absurd hkey.symm (cacheKey_ne hc)

/-- Under the lock a client is found or connected, or the map stays as it is. -/
theorem connectLocked_cases (hw : Kept content w) (hc : NulFree cluster)
    (hversion : secret.resourceVersion = some version) :
    (∃ h, w.adminClients[cacheKey cluster ns bootstrap version]? = some h ∧
      connectLocked c ns cluster bootstrap secret w = (.ok h, w)) ∨
    (∃ e, connectLocked c ns cluster bootstrap secret w = (.error e, w)) ∨
    ∃ h, h.connection = w.opened ∧ ConnectedTo ns cluster bootstrap secret.data h ∧
      connectLocked c ns cluster bootstrap secret w =
        (.ok h, w.connected ns cluster bootstrap version h) := by
  have hbare : w.adminClients[cachePrefix cluster ns bootstrap ++ version]?.or
      w.adminClients[cluster]? = w.adminClients[cacheKey cluster ns bootstrap version]? := by
    rw [hw.no_bare_key hc, Option.or_none, cacheKey]
  simp only [connectLocked, hversion, Option.getD_some, hbare]
  cases hfind : w.adminClients[cacheKey cluster ns bootstrap version]? with
  | some h => exact .inl ⟨h, rfl, rfl⟩
  | none =>
    cases hopen : openWith c ns cluster secret with
    | error e => exact .inr (.inl ⟨e, rfl⟩)
    | ok material =>
      exact .inr (.inr ⟨⟨w.opened, bootstrap, adminServerName cluster ns, material⟩, rfl,
        ⟨rfl, rfl, materialOf_of_openWith hopen⟩, rfl⟩)

theorem getElem?_connected : (w.connected ns cluster bootstrap version h).adminClients[key]? =
    if cacheKey cluster ns bootstrap version = key then some h
    else w.adminClients[key]?.filter fun _ =>
      !startsWith key (cachePrefix cluster ns bootstrap) := by
  simp only [World.connected, Std.ExtTreeMap.getElem?_insert,
    Std.LawfulEqCmp.compare_eq_iff_eq, Std.ExtTreeMap.getElem?_filter']

/-- For the address of the new client the map has that client only. -/
theorem eq_of_has_connected (hc : NulFree cluster) (hn : NulFree ns) (hb : NulFree bootstrap)
    {version' : String} (hhas : (w.connected ns cluster bootstrap version h).Has cluster ns
      bootstrap version') : version = version' := by
  rw [World.Has, getElem?_connected] at hhas
  split at hhas
  · rename_i hkey
    exact ((cacheKey_inj hc hn hb hc hn hb).mp hkey).2.2.2
  · have hstart : startsWith (cacheKey cluster ns bootstrap version')
        (cachePrefix cluster ns bootstrap) = true :=
      (startsWith_cachePrefix hc hn hb hc hn hb).mpr ⟨rfl, rfl, rfl⟩
    rw [hstart] at hhas
    cases hfind : w.adminClients[cacheKey cluster ns bootstrap version']? with
    | none => simp [hfind] at hhas
    | some _ => simp [hfind] at hhas

theorem has_of_has_connected {cluster' ns' bootstrap' version' : String}
    (hne : cacheKey cluster ns bootstrap version ≠ cacheKey cluster' ns' bootstrap' version')
    (hhas : (w.connected ns cluster bootstrap version h).Has cluster' ns' bootstrap' version') :
    w.Has cluster' ns' bootstrap' version' := by
  rw [World.Has, getElem?_connected, if_neg hne] at hhas
  cases hfind : w.adminClients[cacheKey cluster' ns' bootstrap' version']? with
  | none => simp [hfind] at hhas
  | some _ => simp [World.Has, hfind]

theorem Entry.later {opened opened' : Nat} (he : Entry content opened key h)
    (hle : opened ≤ opened') : Entry content opened' key h :=
  ⟨Nat.lt_of_lt_of_le he.connection hle, he.key⟩

theorem Kept.connected (hw : Kept content w) (hc : NulFree cluster) (hn : NulFree ns)
    (hb : NulFree bootstrap) (hconn : h.connection = w.opened)
    (hto : ConnectedTo ns cluster bootstrap (content ns (operatorSecretName cluster) version) h) :
    Kept content (w.connected ns cluster bootstrap version h) where
  secrets := hw.secrets
  entry := by
    intro key h' hfind
    rw [getElem?_connected] at hfind
    split at hfind
    · rename_i hkey
      cases hfind
      exact ⟨hconn ▸ Nat.lt_succ_self _, ns, cluster, bootstrap, version, hn, hc, hb, hkey.symm, hto⟩
    · exact (hw.entry key h' (Option.filter_eq_some_iff.mp hfind).1).later (Nat.le_succ _)
  single := by
    intro cluster' ns' bootstrap' v v' hc' hn' hb' hhas hhas'
    by_cases hsame : cluster = cluster' ∧ ns = ns' ∧ bootstrap = bootstrap'
    · obtain ⟨rfl, rfl, rfl⟩ := hsame
      rw [← eq_of_has_connected hc hn hb hhas, ← eq_of_has_connected hc hn hb hhas']
    · have hne (u : String) :
          cacheKey cluster ns bootstrap version ≠ cacheKey cluster' ns' bootstrap' u := fun hkey =>
        have hparts := (cacheKey_inj hc hn hb hc' hn' hb').mp hkey
        hsame ⟨hparts.1, hparts.2.1, hparts.2.2.1⟩
      exact hw.single cluster' ns' bootstrap' v v' hc' hn' hb'
        (has_of_has_connected (hne v) hhas) (has_of_has_connected (hne v') hhas')

theorem getElem?_dropClients {m : BTreeMap AdminClientHandle}
    (hfind : (dropClients cluster m)[key]? = some h) :
    m[key]? = some h ∧ startsWith key (clusterPrefix cluster) = false := by
  rw [dropClients, Std.ExtTreeMap.getElem?_filter'] at hfind
  obtain ⟨hmem, hkeep⟩ := Option.filter_eq_some_iff.mp hfind
  simp only [Bool.and_eq_true, Bool.not_eq_true'] at hkeep
  exact ⟨hmem, hkeep.2⟩

theorem Kept.dropped (hw : Kept content w) :
    Kept content { w with adminClients := dropClients cluster w.adminClients } where
  secrets := hw.secrets
  entry := fun key h hfind => hw.entry key h (getElem?_dropClients hfind).1
  single := by
    intro cluster' ns' bootstrap' v v' hc' hn' hb' hhas hhas'
    obtain ⟨_, hfind⟩ := Option.isSome_iff_exists.mp hhas
    obtain ⟨_, hfind'⟩ := Option.isSome_iff_exists.mp hhas'
    exact hw.single cluster' ns' bootstrap' v v' hc' hn' hb'
      (Option.isSome_iff_exists.mpr ⟨_, (getElem?_dropClients hfind).1⟩)
      (Option.isSome_iff_exists.mpr ⟨_, (getElem?_dropClients hfind').1⟩)

end Map

/-! ## The calls -/

/-- The names of a call are names of objects and addresses. -/
def Task.Named : Task → Prop
  | .lookup ns cluster bootstrap => NulFree ns ∧ NulFree cluster ∧ NulFree bootstrap
  | .drop cluster => NulFree cluster

abbrev Party : Type := Op (Option AdminClientHandle) × Prog.Dialogue Resp

/-- How far a call has come. -/
inductive Stage (content : Contents) : Task → Party → Prop where
  | looking (ns cluster bootstrap : String) :
      Stage content (.lookup ns cluster bootstrap) ((Task.lookup ns cluster bootstrap).run, [])
  | fetching (ns cluster bootstrap : String) :
      Stage content (.lookup ns cluster bootstrap)
        (fetchIdentity ns cluster bootstrap >>= fun h => pure (some h), [⟨.cached cluster, none⟩])
  | connecting (ns cluster bootstrap : String) (secret : IdentitySecret)
      (hauth : Authentic content ns (operatorSecretName cluster) secret) :
      Stage content (.lookup ns cluster bootstrap)
        (connectClient ns cluster bootstrap secret >>= fun h => pure (some h),
          [⟨.cached cluster, none⟩, ⟨.getSecret ns (operatorSecretName cluster), .ok secret⟩])
  | connected (ns cluster bootstrap : String) (secret : IdentitySecret) (h : AdminClientHandle)
      (log : Prog.Dialogue Resp)
      (hread : ⟨.getSecret ns (operatorSecretName cluster), .ok secret⟩ ∈ log)
      (hto : ConnectedTo ns cluster bootstrap secret.data h) :
      Stage content (.lookup ns cluster bootstrap) (.ret (some h), log)
  | failed (task : Task) (e : AdminError) (log : Prog.Dialogue Resp) :
      Stage content task (.fail e, log)
  | dropping (cluster : String) : Stage content (.drop cluster) ((Task.drop cluster).run, [])
  | idle (cluster : String) (log : Prog.Dialogue Resp) :
      Stage content (.drop cluster) (.ret none, log)

section Calls

variable {content : Contents} {w : World}

/-- The next state of a call that has a request. -/
def Party.next (p : Party) (r : Req) (k : Resp r → Op (Option AdminClientHandle)) (c : Choice)
    (w : World) : Party :=
  (k (answer r c w).1, p.2 ++ [⟨r, (answer r c w).1⟩])

/-- What one request of a call does to the call and to the map. -/
structure Stage.Next (content : Contents) (task : Task) (w w' : World) (p' : Party) : Prop where
  stage : Stage content task p'
  kept : Kept content w'
  opened : w.opened ≤ w'.opened
  /-- A new client has a new connection. -/
  entry : ∀ (key : String) (h : AdminClientHandle), w'.adminClients[key]? = some h →
    w.adminClients[key]? = some h ∨ h.connection = w.opened
  /-- A client that is returned is new, or the map had it for the address. -/
  client : ∀ h, returned p'.1 = some h → h.connection < w'.opened ∧ (h.connection = w.opened ∨
    ∃ ns cluster bootstrap version, task = .lookup ns cluster bootstrap ∧
      w.adminClients[cacheKey cluster ns bootstrap version]? = some h)

theorem Stage.Next.same {task : Task} {p' : Party} (hstage : Stage content task p')
    (hw : Kept content w) (hnone : returned p'.1 = none) : Stage.Next content task w w p' where
  stage := hstage
  kept := hw
  opened := Nat.le_refl _
  entry := fun _ _ => .inl
  client := fun _ heq => absurd (hnone.symm.trans heq) nofun

theorem Stage.request {task : Task} {p : Party} (hs : Stage content task p) (hn : task.Named)
    (hw : Kept content w) (c : Choice) :
    (∃ r k, p.1 = .call r k ∧ Stage.Next content task w (answer r c w).2 (p.next r k c w)) ∨
      Interleave.next p.1 = none := by
  cases hs with
  | looking ns cluster bootstrap =>
    refine .inl ⟨.cached cluster, _, rfl, ?_⟩
    have hbare : (answer (.cached cluster) c w).1 = none := hw.no_bare_key hn.2.1
    rw [Party.next, hbare]
    exact .same (.fetching ns cluster bootstrap) hw rfl
  | fetching ns cluster bootstrap =>
    refine .inl ⟨.getSecret ns (operatorSecretName cluster), _, rfl, ?_⟩
    rw [Party.next]
    simp only [answer]
    cases c.get with
    | some text => exact .same (.failed _ _ _) hw rfl
    | none =>
      cases hfind : w.secret? ns (operatorSecretName cluster) with
      | none => exact .same (.failed _ _ _) hw rfl
      | some secret =>
        exact .same (.connecting ns cluster bootstrap secret (hw.secrets _ _ _ hfind)) hw rfl
  | connecting ns cluster bootstrap secret hauth =>
    refine .inl ⟨.connect ns cluster bootstrap secret, _, rfl, ?_⟩
    obtain ⟨version, hversion, hdata⟩ := hauth
    rw [Party.next]
    simp only [answer]
    have hread : (⟨.getSecret ns (operatorSecretName cluster), .ok secret⟩ :
        Σ r, Resp r) ∈ [⟨.cached cluster, none⟩,
          ⟨.getSecret ns (operatorSecretName cluster), .ok secret⟩] := by
      simp
    rcases connectLocked_cases hw hn.2.1 hversion with
      ⟨h, hfind, heq⟩ | ⟨e, heq⟩ | ⟨h, hconn, hto, heq⟩
    · rw [heq]
      obtain ⟨hlt, ns', cluster', bootstrap', version', hn', hc', hb', hkey, hto⟩ :=
        hw.entry _ _ hfind
      obtain ⟨rfl, rfl, rfl, rfl⟩ := (cacheKey_inj hn.2.1 hn.1 hn.2.2 hc' hn' hb').mp hkey
      rw [← hdata] at hto
      refine ⟨.connected ns cluster bootstrap secret h _ (List.mem_append_left _ hread) hto, hw,
        Nat.le_refl _, fun _ _ => .inl, ?_⟩
      intro h' heq'
      cases heq'
      exact ⟨hlt, .inr ⟨ns, cluster, bootstrap, version, rfl, hfind⟩⟩
    · rw [heq]
      exact .same (.failed _ _ _) hw rfl
    · rw [heq]
      refine ⟨.connected ns cluster bootstrap secret h _ (List.mem_append_left _ hread) hto,
        hw.connected hn.2.1 hn.1 hn.2.2 hconn (hdata ▸ hto), Nat.le_succ _, ?_, ?_⟩
      · intro key h' hfind
        rw [getElem?_connected] at hfind
        split at hfind
        · cases hfind
          exact .inr hconn
        · exact .inl (Option.filter_eq_some_iff.mp hfind).1
      · intro h' heq'
        cases heq'
        exact ⟨hconn ▸ Nat.lt_succ_self _, .inl hconn⟩
  | connected ns cluster bootstrap secret h log hread hto => exact .inr rfl
  | failed task e log => exact .inr rfl
  | dropping cluster =>
    refine .inl ⟨.drop cluster, _, rfl, .idle cluster _, hw.dropped, Nat.le_refl _, ?_, ?_⟩
    · exact fun key h hfind => .inl (getElem?_dropClients hfind).1
    · exact fun h heq => absurd heq nofun
  | idle cluster log => exact .inr rfl

end Calls

/-! ## Runs -/

/-- A call has names of objects, and the API server stores authentic Secrets. -/
def Event.Real (content : Contents) : Event → Prop
  | .start _ task => task.Named
  | .call _ _ => True
  | .secrets f => Versioned content f

/-- No call has run yet. -/
structure Fresh (content : Contents) (s : State) : Prop where
  secrets : Versioned content s.runs.world.secret?
  clients : s.runs.world.adminClients = ∅
  task : ∀ i, s.task i = .drop ""
  party : ∀ i, s.runs.party i = (.ret none, [])

structure Inv (content : Contents) (s : State) : Prop where
  kept : Kept content s.runs.world
  named : ∀ i, (s.task i).Named
  stage : ∀ i, Stage content (s.task i) (s.runs.party i)
  client : ∀ i h, s.client? i = some h → h.connection < s.runs.world.opened

section Runs

variable {content : Contents} {s : State}

theorem Fresh.inv (hs : Fresh content s) : Inv content s where
  kept := {
    secrets := hs.secrets
    entry := fun key h hfind => by simp [hs.clients] at hfind
    single := fun cluster ns bootstrap version version' _ _ _ hhas _ => by
      simp [World.Has, hs.clients] at hhas }
  named := fun i => by
    rw [hs.task i]
    exact List.not_mem_nil
  stage := fun i => by
    rw [hs.task i, hs.party i]
    exact .idle _ _
  client := fun i h heq => by
    rw [State.client?, hs.party i] at heq
    cases heq

theorem runs_call {i : Nat} {c : Choice} {r : Req} {k : Resp r → Op (Option AdminClientHandle)}
    (hcall : (s.runs.party i).1 = .call r k) :
    (step (.call i c) s).runs = Interleave.answered answer i c s.runs r k := by
  simp [step, Event.move, Interleave.step, hcall]

theorem runs_call_of_next_none {i : Nat} {c : Choice}
    (hnone : Interleave.next (s.runs.party i).1 = none) : step (.call i c) s = s := by
  rcases Interleave.step_request answer i c s.runs with ⟨r, k, hcall, -⟩ | ⟨-, heq⟩
  · rw [hcall] at hnone
    cases hnone
  · exact congrArg (State.mk s.task) heq

theorem Inv.call (hs : Inv content s) (i : Nat) (c : Choice) : Inv content (step (.call i c) s) := by
  rcases (hs.stage i).request (hs.named i) hs.kept c with ⟨r, k, hcall, hnext⟩ | hnone
  · have hruns := runs_call (c := c) hcall
    refine ⟨?_, hs.named, ?_, ?_⟩
    · rw [hruns]
      exact hnext.kept
    · intro j
      rw [hruns]
      by_cases hj : j = i
      · subst hj
        rw [Interleave.answered_party_self]
        exact hnext.stage
      · rw [Interleave.answered_party_of_ne hj]
        exact hs.stage j
    · intro j h
      rw [State.client?, hruns, Interleave.answered_world]
      by_cases hj : j = i
      · subst hj
        rw [Interleave.answered_party_self]
        exact fun heq => (hnext.client h heq).1
      · rw [Interleave.answered_party_of_ne hj]
        exact fun heq => Nat.lt_of_lt_of_le (hs.client j h heq) hnext.opened
  · rw [runs_call_of_next_none hnone]
    exact hs

theorem Stage.start (task : Task) : Stage content task (task.run, []) := by
  cases task with
  | lookup ns cluster bootstrap => exact .looking ns cluster bootstrap
  | drop cluster => exact .dropping cluster

theorem Task.returned_run (task : Task) : returned task.run = none := by
  cases task with
  | lookup ns cluster bootstrap => rfl
  | drop cluster => rfl

theorem client?_start_self {i : Nat} {task : Task} : (step (.start i task) s).client? i = none := by
  simp [State.client?, step, Event.move, Interleave.step, task.returned_run]

theorem client?_start_of_ne {i j : Nat} {task : Task} (hj : j ≠ i) :
    (step (.start i task) s).client? j = s.client? j := by
  simp [State.client?, step, Event.move, Interleave.step, Function.update_of_ne hj]

theorem Inv.start (hs : Inv content s) (i : Nat) {task : Task} (hn : task.Named) :
    Inv content (step (.start i task) s) := by
  refine ⟨hs.kept, ?_, ?_, ?_⟩
  · intro j
    by_cases hj : j = i
    · subst hj
      simpa [step] using hn
    · simpa [step, Function.update_of_ne hj] using hs.named j
  · intro j
    by_cases hj : j = i
    · subst hj
      simpa [step, Event.move, Interleave.step] using Stage.start task
    · simpa [step, Event.move, Interleave.step, Function.update_of_ne hj] using hs.stage j
  · intro j h heq
    by_cases hj : j = i
    · subst hj
      rw [client?_start_self] at heq
      cases heq
    · rw [client?_start_of_ne hj] at heq
      exact hs.client j h heq

theorem Inv.step (hs : Inv content s) {e : Event} (he : e.Real content) :
    Inv content (step e s) := by
  cases e with
  | start i task => exact hs.start i he
  | call i c => exact hs.call i c
  | secrets f => exact ⟨⟨he, hs.kept.entry, hs.kept.single⟩, hs.named, hs.stage, hs.client⟩

theorem inv_states {events : List Event} (hs : Inv content s)
    (hevents : ∀ e ∈ events, e.Real content) : ∀ t ∈ History.states exec events s, Inv content t :=
  History.invariant hs hevents fun _ _ he h _ ht => (List.mem_singleton.mp ht) ▸ h.step he

/-- In every run of lookups and drops of any clusters, while the Secrets change: a client that
    a lookup returns reaches the address it was asked for, and was connected with the very
    identity that the lookup has read; and the map has one client at most for each address. -/
theorem clients_of_own_identity {events : List Event} (hs : Fresh content s)
    (hevents : ∀ e ∈ events, e.Real content) : ∀ t ∈ History.states exec events s,
    (∀ i ns cluster bootstrap h, t.task i = .lookup ns cluster bootstrap →
      t.client? i = some h →
      ∃ secret, ⟨.getSecret ns (operatorSecretName cluster), .ok secret⟩ ∈ (t.runs.party i).2 ∧
        ConnectedTo ns cluster bootstrap secret.data h) ∧
    ∀ cluster ns bootstrap version version', NulFree cluster → NulFree ns → NulFree bootstrap →
      t.runs.world.Has cluster ns bootstrap version →
      t.runs.world.Has cluster ns bootstrap version' → version = version' := by
  intro t ht
  have hinv := inv_states hs.inv hevents t ht
  refine ⟨?_, hinv.kept.single⟩
  intro i ns cluster bootstrap h htask hret
  have hstage := hinv.stage i
  rw [State.client?] at hret
  generalize t.runs.party i = p at hstage hret ⊢
  rw [htask] at hstage
  cases hstage with
  | looking => cases hret
  | fetching => cases hret
  | connecting => cases hret
  | failed => cases hret
  | connected ns cluster bootstrap secret h log hread hto =>
    cases hret
    exact ⟨secret, hread, hto⟩

end Runs

/-! ## Dropped clients -/

/-- The call waits for an answer, or starts later. -/
def Asks (events : List Event) (s : State) (i : Nat) : Prop :=
  Interleave.next (s.runs.party i).1 ≠ none ∨ ∃ task, .start i task ∈ events

/-- The map and the given calls have no connection of a cluster from before the first `n`. -/
structure Since (cluster : String) (n : Nat) (S : Nat → Prop) (s : State) : Prop where
  opened : n ≤ s.runs.world.opened
  entry : ∀ ns bootstrap version h,
    s.runs.world.adminClients[cacheKey cluster ns bootstrap version]? = some h → n ≤ h.connection
  client : ∀ i ns bootstrap h, S i → s.task i = .lookup ns cluster bootstrap →
    s.client? i = some h → n ≤ h.connection

section Drops

variable {content : Contents} {s : State} {cluster : String} {n : Nat} {S : Nat → Prop}

theorem Since.mono {S' : Nat → Prop} (h : Since cluster n S s) (hS : ∀ i, S' i → S i) :
    Since cluster n S' s :=
  ⟨h.opened, h.entry, fun i ns bootstrap client hi => h.client i ns bootstrap client (hS i hi)⟩

theorem Since.call (h : Since cluster n S s) (hs : Inv content s) (i : Nat) (c : Choice) :
    Since cluster n S (step (.call i c) s) := by
  rcases (hs.stage i).request (hs.named i) hs.kept c with ⟨r, k, hcall, hnext⟩ | hnone
  · have hruns := runs_call (c := c) hcall
    refine ⟨?_, ?_, ?_⟩
    · rw [hruns]
      exact Nat.le_trans h.opened hnext.opened
    · intro ns bootstrap version client hfind
      rw [hruns] at hfind
      rcases hnext.entry _ _ hfind with hold | hnew
      · exact h.entry ns bootstrap version client hold
      · exact hnew ▸ h.opened
    · intro j ns bootstrap client hj htask hret
      rw [State.client?, hruns] at hret
      by_cases hji : j = i
      · subst hji
        rw [Interleave.answered_party_self] at hret
        -- The call of a lookup finds a client under the key of its own cluster.
        rcases (hnext.client client hret).2 with hnew | ⟨ns', cluster', bootstrap', version, hlookup, hfind⟩
        · exact hnew ▸ h.opened
        · obtain ⟨rfl, rfl, rfl⟩ := Task.lookup.inj (htask.symm.trans hlookup)
          exact h.entry ns bootstrap version client hfind
      · rw [Interleave.answered_party_of_ne hji] at hret
        exact h.client j ns bootstrap client hj htask hret
  · rw [runs_call_of_next_none hnone]
    exact h

theorem Since.start (h : Since cluster n S s) (i : Nat) (task : Task) :
    Since cluster n (fun j => S j ∨ j = i) (step (.start i task) s) := by
  refine ⟨h.opened, h.entry, ?_⟩
  intro j ns bootstrap client hj htask hret
  by_cases hji : j = i
  · subst hji
    rw [client?_start_self] at hret
    cases hret
  · rw [client?_start_of_ne hji] at hret
    have htask' : s.task j = .lookup ns cluster bootstrap := by
      simpa [step, Function.update_of_ne hji] using htask
    exact h.client j ns bootstrap client (hj.resolve_right hji) htask' hret

theorem Since.final {events : List Event} (h : Since cluster n S s) (hs : Inv content s)
    (hevents : ∀ e ∈ events, e.Real content) :
    Since cluster n (fun i => S i ∨ ∃ task, .start i task ∈ events)
      (History.final exec events s) := by
  induction events generalizing s S with
  | nil => exact h.mono fun i hi => hi.resolve_right nofun
  | cons e es ih =>
    have hrest := fun e' he' => hevents e' (List.mem_cons_of_mem _ he')
    have hinv := hs.step (hevents e List.mem_cons_self)
    have hstep : Since cluster n (fun i => S i ∨ ∃ task, e = .start i task) (step e s) := by
      cases e with
      | start i task =>
        refine (h.start i task).mono fun j hj => hj.imp_right ?_
        rintro ⟨task', heq⟩
        exact (Event.start.inj heq).1.symm
      | call i c => exact (h.call hs i c).mono fun j hj => hj.resolve_right nofun
      | secrets f =>
        exact ⟨h.opened, h.entry, fun i ns bootstrap client hi =>
          h.client i ns bootstrap client (hi.resolve_right nofun)⟩
    refine (ih hstep hinv hrest).mono fun i hi => ?_
    rcases hi with hi | ⟨task, hmem⟩
    · exact .inl (.inl hi)
    · rcases List.mem_cons.mp hmem with heq | hmem
      · exact .inl (.inr ⟨task, heq.symm⟩)
      · exact .inr ⟨task, hmem⟩

theorem startsWith_own_cluster {ns bootstrap version : String} :
    startsWith (cacheKey cluster ns bootstrap version) (clusterPrefix cluster) = true := by
  rw [startsWith_iff, toList_clusterPrefix, toList_cacheKey]
  exact ⟨_, by rw [List.append_assoc, List.singleton_append]⟩

/-- After a drop the map has no client of the cluster. -/
theorem since_drop (hs : Inv content s) {j : Nat} {c : Choice} (htask : s.task j = .drop cluster)
    (hrun : Interleave.next (s.runs.party j).1 ≠ none) :
    Since cluster s.runs.world.opened
      (fun i => Interleave.next ((step (.call j c) s).runs.party i).1 ≠ none)
      (step (.call j c) s) := by
  have hstage := hs.stage j
  rw [htask] at hstage
  have hcall : s.runs.party j = ((Task.drop cluster).run, []) := by
    generalize s.runs.party j = p at hstage hrun
    cases hstage with
    | dropping => rfl
    | failed => exact absurd rfl hrun
    | idle => exact absurd rfl hrun
  have hruns := runs_call (c := c) (s := s) (i := j) (r := .drop cluster)
    (k := fun _ => .ret none) (congrArg Prod.fst hcall)
  refine ⟨?_, ?_, ?_⟩
  · rw [hruns]
    exact Nat.le_refl _
  · intro ns bootstrap version h hfind
    rw [hruns] at hfind
    have habsent := (getElem?_dropClients hfind).2
    rw [startsWith_own_cluster] at habsent
    cases habsent
  · intro i ns bootstrap h hwaits _ hret
    rw [State.client?] at hret
    cases hp : ((step (.call j c) s).runs.party i).1 with
    | ret x =>
      rw [hp] at hwaits
      exact absurd rfl hwaits
    | fail e =>
      rw [hp] at hret
      cases hret
    | call r k =>
      rw [hp] at hret
      cases hret

/-- A client that is dropped after a transport error does not come back: every lookup of the
    cluster that is answered after the drop gets a connection that was opened after it, while
    the connections before it are those that the map had or a lookup has returned. -/
theorem dropped_not_handed_out {pre post : List Event} {j : Nat} {c : Choice}
    (hs : Fresh content s) (hpre : ∀ e ∈ pre, e.Real content) (hpost : ∀ e ∈ post, e.Real content)
    (htask : (History.final exec pre s).task j = .drop cluster)
    (hrun : Interleave.next ((History.final exec pre s).runs.party j).1 ≠ none) :
    (∀ i h, (History.final exec pre s).client? i = some h →
      h.connection < (History.final exec pre s).runs.world.opened) ∧
    (∀ (key : String) (h : AdminClientHandle),
      (History.final exec pre s).runs.world.adminClients[key]? = some h →
        h.connection < (History.final exec pre s).runs.world.opened) ∧
    ∀ i ns bootstrap h, Asks post (step (.call j c) (History.final exec pre s)) i →
      (History.final exec (pre ++ .call j c :: post) s).task i = .lookup ns cluster bootstrap →
      (History.final exec (pre ++ .call j c :: post) s).client? i = some h →
      (History.final exec pre s).runs.world.opened ≤ h.connection := by
  have hinv := inv_states hs.inv hpre _ History.final_mem_states
  refine ⟨hinv.client, fun key h hfind => (hinv.kept.entry key h hfind).connection, ?_⟩
  have hsince := (since_drop (c := c) hinv htask hrun).final (hinv.call j c) hpost
  intro i ns bootstrap h hasks
  rw [History.final_append]
  exact hsince.client i ns bootstrap h hasks

end Drops

/-! ## Two lookups and a new identity -/

namespace Sample

def files (text : String) : BTreeMap ByteString :=
  .ofList [("ca.crt", .text ['c']), ("user.crt", .text text.toList), ("user.key", .text text.toList)]

/-- Each version of a Secret has other files. -/
def content : Contents := fun _ _ version => some (files version)

def stored (version : String) : Secrets := fun _ _ => some ⟨some version, some (files version)⟩

theorem stored_versioned (version : String) : Versioned content (stored version) := by
  intro ns name secret heq
  cases heq
  exact ⟨version, rfl, rfl⟩

def start : State where
  task := fun _ => .drop ""
  runs := { world := { secret? := stored "1" }, party := fun _ => (.ret none, []), history := [] }

theorem start_fresh : Fresh content start :=
  ⟨stored_versioned "1", rfl, fun _ => rfl, fun _ => rfl⟩

def lookup : Task := .lookup "kafka" "demo" "demo:9091"

/-- The second lookup reads the identity after it has changed, and connects first. -/
def raced : List Event :=
  [.start 0 lookup, .start 1 lookup, .call 0 {}, .call 0 {}, .secrets (stored "2"), .call 1 {},
    .call 1 {}, .call 1 {}, .call 0 {}]

theorem raced_real : ∀ e ∈ raced, e.Real content := by
  have hnamed : lookup.Named := ⟨by decide, by decide, by decide⟩
  simp only [raced, List.forall_mem_cons]
  exact ⟨hnamed, hnamed, trivial, trivial, stored_versioned "2", trivial, trivial, trivial, trivial,
    fun _ he => absurd he List.not_mem_nil⟩

/-- The client of the first lookup. -/
def older : AdminClientHandle where
  connection := 1
  bootstrap := "demo:9091"
  serverName := "demo-broker-headless.kafka.svc.cluster.local"
  material := ⟨.text ['c'], .text ['1'], .text ['1']⟩

def looksUp : List Event := [.start 1 lookup, .call 1 {}, .call 1 {}, .call 1 {}]

/-- A client is connected, and another call is about to drop it. -/
def beforeDrop : List Event := looksUp ++ [.start 0 (.drop "demo")]

theorem looksUp_real : ∀ e ∈ looksUp, e.Real content := by
  have hnamed : lookup.Named := ⟨by decide, by decide, by decide⟩
  simp only [looksUp, List.forall_mem_cons]
  exact ⟨hnamed, trivial, trivial, trivial, fun _ he => absurd he List.not_mem_nil⟩

theorem beforeDrop_real : ∀ e ∈ beforeDrop, e.Real content := by
  have hnamed : (Task.drop "demo").Named := show NulFree "demo" by decide
  rw [beforeDrop, List.forall_mem_append]
  exact ⟨looksUp_real, fun _ he => List.mem_singleton.mp he ▸ hnamed⟩

/-- The client of the lookup after the drop. -/
def fresh : AdminClientHandle where
  connection := 1
  bootstrap := "demo:9091"
  serverName := "demo-broker-headless.kafka.svc.cluster.local"
  material := ⟨.text ['c'], .text ['1'], .text ['1']⟩

end Sample

theorem clients_of_own_identity_raced : ∃ secret,
    ⟨.getSecret "kafka" "demo-operator-identity", .ok secret⟩ ∈
      ((History.final exec Sample.raced Sample.start).runs.party 0).2 ∧
      ConnectedTo "kafka" "demo" "demo:9091" secret.data Sample.older :=
  (clients_of_own_identity Sample.start_fresh Sample.raced_real _ History.final_mem_states).1
    0 "kafka" "demo" "demo:9091" Sample.older (by decide) (by decide)

theorem dropped_not_handed_out_again :
    (History.final exec Sample.beforeDrop Sample.start).runs.world.opened ≤
      Sample.fresh.connection :=
  (dropped_not_handed_out (c := {}) Sample.start_fresh Sample.beforeDrop_real Sample.looksUp_real
    (show (History.final exec Sample.beforeDrop Sample.start).task 0 = .drop "demo" from rfl)
    (by decide)).2.2 1 "kafka" "demo:9091" Sample.fresh
    (.inr ⟨Sample.lookup, List.mem_cons_self⟩) (by decide) (by decide +kernel)

end Context
