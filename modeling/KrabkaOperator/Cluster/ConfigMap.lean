-- SUMMARY: The ConfigMap of a cluster: the advertised addresses of its nodes, one file for each of them, and when the files agree on the listeners and on the voters.
import KrabkaOperator.Base.Decimal
import KrabkaOperator.Base.LastWins
import KrabkaOperator.Cluster.Reconcile
import KrabkaOperator.Listeners.BrokerToml
import KrabkaOperator.Listeners.Distinct
import KrabkaOperator.Network.Policy
import KrabkaOperator.NodePool.Identity

/-!
# The config of the nodes

A pass lists the nodes of the pools, resolves the address of each listener on each node
and renders one file per node id. A node that is not a broker serves two listeners: the
one between brokers and the one of the operator.
-/

namespace Cluster

open Kube Crd Operator Listeners Config

/-- An ordered map with ids as keys. -/
abbrev IdMap (α : Type) := Std.ExtTreeMap Int α compare

structure ConfigMap where
  name : String
  ns : Option String
  labels : BTreeMap String
  ownerReferences : List OwnerReference
  data : BTreeMap (List Char)

/-! ## Nodes -/

def NodeInfo.isBroker (node : NodeInfo) : Bool := .broker ∈ node.roles

def NodeInfo.isController (node : NodeInfo) : Bool := .controller ∈ node.roles

/-- `NodeInventory::roles`. -/
def inventoryRoles (nodes : List NodeInfo) : IdMap (List NodeRole) :=
  LastWins.ofList compare (nodes.map fun node => (node.brokerId, node.roles))

/-! ## Addresses -/

/-- What the addresses of external listeners are read from. -/
structure ExternalState where
  /-- The Kubernetes node that a pod is scheduled to. -/
  podNodes : BTreeMap String := ∅
  nodes : BTreeMap Node := ∅
  /-- The Service of a broker for a listener. -/
  brokerServices : String → Int → Option Service := fun _ _ => none

/-- Whether a node serves a listener. -/
def serves (interBrokerListenerName operatorListenerName : String) (node : NodeInfo)
    (l : Listener) : Bool :=
  node.isBroker || l.name = interBrokerListenerName || l.name = operatorListenerName

def listenerEntry (state : ExternalState) (node : NodeInfo) (l : Listener) :
    Except AdvertisedError (String × AdvertisedAddress) := do
  let addr ← computeAdvertised l node.brokerId node.podFqdn state.podNodes[node.podName]?
    state.nodes (state.brokerServices l.name node.brokerId)
  pure (l.name, addr)

/-- The addresses of one node. -/
def listenerMap (effective : List Listener) (interBrokerListenerName operatorListenerName : String)
    (state : ExternalState) (node : NodeInfo) :
    Except AdvertisedError (BTreeMap AdvertisedAddress) := do
  let served := effective.filter (serves interBrokerListenerName operatorListenerName node)
  let entries ← served.mapM (listenerEntry state node)
  pure (LastWins.ofList compareBytes entries)

def nodeEntry (effective : List Listener) (interBrokerListenerName operatorListenerName : String)
    (state : ExternalState) (node : NodeInfo) :
    Except AdvertisedError (Int × BTreeMap AdvertisedAddress) := do
  let addrs ← listenerMap effective interBrokerListenerName operatorListenerName state node
  pure (node.brokerId, addrs)

/-- The addresses of all nodes. It stops at the first error. -/
def resolveAddressesPerBroker (effective : List Listener)
    (interBrokerListenerName operatorListenerName : String) (nodes : List NodeInfo)
    (state : ExternalState) : Except AdvertisedError (IdMap (BTreeMap AdvertisedAddress)) := do
  let entries ← nodes.mapM
    (nodeEntry effective interBrokerListenerName operatorListenerName state)
  pure (LastWins.ofList compare entries)

/-! ## Rendering -/

/-- A character inside a JSON text. -/
def jsonChar (c : Char) : List Char :=
  if c = '"' ∨ c = '\\' then ['\\', c]
  else if c = '\x08' then ['\\', 'b']
  else if c = '\t' then ['\\', 't']
  else if c = '\n' then ['\\', 'n']
  else if c = '\x0c' then ['\\', 'f']
  else if c = '\r' then ['\\', 'r']
  else if c.toNat < 0x20 then
    "\\u00".toList ++ [Nat.digitChar (c.toNat / 16), Nat.digitChar (c.toNat % 16)]
  else [c]

def jsonString (s : String) : List Char := '"' :: s.toList.flatMap jsonChar ++ ['"']

/-- The arguments of `render_configmap`. -/
structure ConfigmapInput where
  owner : Kafka
  listeners : List Listener
  operatorListenerName : Option String
  addressesPerBroker : IdMap (BTreeMap AdvertisedAddress)
  nodeRoles : IdMap (List NodeRole)
  interBrokerListenerName : String
  tlsPerBroker : Option (IdMap BrokerTlsRender)
  clientsCaPath : Option String
  loggingFilter : Option String

variable (input : ConfigmapInput)

/-- The controllers that have an address between brokers, in the order of their ids. -/
def controllerEndpoints : List (Int × String) :=
  (input.addressesPerBroker.toList.filter fun (id, _) =>
    input.nodeRoles[id]?.any (.controller ∈ ·)).filterMap fun (id, addrs) =>
      addrs[input.interBrokerListenerName]?.map fun adv =>
        (id, adv.host ++ ":" ++ toString controllerPort)

def voterText (id : Int) (endpoint : String) : String := toString id ++ "@" ++ endpoint

def controllerQuorumVoters : List String :=
  (controllerEndpoints input).map fun (id, endpoint) => voterText id endpoint

/-- The lines in front of each file. A stable Service stands for the controllers. -/
def dynamicQuorumConfig (owner : Kafka) : List Char :=
  "bootstrap_servers = [".toList ++
  jsonString (owner.name ++ "-controller-bootstrap." ++ owner.ns.getD "" ++
    ".svc.cluster.local:" ++ toString controllerPort) ++
  "]\nauto_join = true\n".toList

def controllerServerName (owner : Kafka) : String :=
  owner.name ++ "-broker-headless." ++ owner.ns.getD "" ++ ".svc.cluster.local"

/-- The listeners of a node. A node without known roles is a broker. -/
def nodeListeners (id : Int) : List Listener :=
  if input.nodeRoles[id]?.all (.broker ∈ ·) then input.listeners
  else
    input.listeners.filter fun l =>
      l.name = input.interBrokerListenerName || input.operatorListenerName = some l.name

/-- What the file of a node is rendered from. -/
def brokerRender (id : Int) (addrs : BTreeMap AdvertisedAddress) : BrokerRender where
  brokerId := id
  listeners := nodeListeners input id
  addresses := addrs
  interBrokerListenerName := input.interBrokerListenerName
  serverProperties := input.owner.spec.config.getD ∅
  tls := input.tlsPerBroker >>= fun tls => tls[id]?
  clientsCaPath := input.clientsCaPath
  delegationTokenEnabled := input.owner.spec.delegationToken.isSome
  authorization := input.owner.spec.authorization
  interBrokerKerberos := input.owner.spec.interBrokerKerberos
  tieredStorage := input.owner.spec.tieredStorage
  controllerQuorumVoters := controllerQuorumVoters input
  controllerServerName := controllerServerName input.owner
  operatorListenerName := input.operatorListenerName

/-- The file of a node. -/
def nodeToml (id : Int) (addrs : BTreeMap AdvertisedAddress) : Except RenderError (List Char) := do
  let rendered ← renderBrokerTomlWithOperator (brokerRender input id addrs)
  pure (dynamicQuorumConfig input.owner ++ rendered ++
    optText input.owner.spec.brokerTuning renderRuntimeToml)

def tomlKey (id : Int) : String := "broker-" ++ toString id ++ ".toml"

def fileEntry (e : Int × BTreeMap AdvertisedAddress) :
    Except RenderError (String × List Char) := do
  let toml ← nodeToml input e.1 e.2
  pure (tomlKey e.1, toml)

/-- The entry for the logging filter, before the files. -/
def loggingEntry (loggingFilter : Option String) : List (String × List Char) :=
  (loggingFilter.map fun filter => ("rust.log", filter.toList)).toList

def renderConfigmap : Except RenderError ConfigMap := do
  let files ← input.addressesPerBroker.toList.mapM (fileEntry input)
  let ownerReference ← (Network.ownerRef input.owner).mapError RenderError.reconcile
  pure
    { name := input.owner.name ++ "-broker-config"
      ns := input.owner.ns
      labels := Network.commonLabels input.owner.name input.owner.spec.kafkaVersion
      ownerReferences := [ownerReference]
      data := LastWins.ofList compareBytes (loggingEntry input.loggingFilter ++ files) }

/-! ## The call of a pass -/

def interBrokerName (spec : KafkaSpec) : String :=
  effectiveInterBrokerListenerName spec.listeners spec.interBrokerListenerName

def operatorName (spec : KafkaSpec) : String := (operatorListener (userListeners spec)).name

/-- The addresses that a pass renders. -/
def resolvedAddresses (spec : KafkaSpec) (nodes : List NodeInfo) (state : ExternalState) :
    Except AdvertisedError (IdMap (BTreeMap AdvertisedAddress)) :=
  resolveAddressesPerBroker (effectiveListeners spec) (interBrokerName spec) (operatorName spec)
    nodes state

/-- What a pass renders. -/
def configmapInput (kafka : Kafka) (nodes : List NodeInfo)
    (addresses : IdMap (BTreeMap AdvertisedAddress)) (tlsPerBroker : Option (IdMap BrokerTlsRender))
    (clientsCaPath loggingFilter : Option String) : ConfigmapInput where
  owner := kafka
  listeners := effectiveListeners kafka.spec
  operatorListenerName := some (operatorName kafka.spec)
  addressesPerBroker := addresses
  nodeRoles := inventoryRoles nodes
  interBrokerListenerName := interBrokerName kafka.spec
  tlsPerBroker
  clientsCaPath
  loggingFilter

/-! ## Coherence -/

/-- The entry of a node in the list of voters. -/
def nodeVoter (node : NodeInfo) : String :=
  voterText node.brokerId (node.podFqdn ++ ":" ++ toString controllerPort)

/-- The part of a file before its listeners. -/
def fileHeader (id : Int) : List Char :=
  dynamicQuorumConfig input.owner ++
  renderBrokerHeader id input.interBrokerListenerName (input.tlsPerBroker >>= fun tls => tls[id]?)
    (controllerQuorumVoters input) (controllerServerName input.owner)

/-- The file of each node tells the same voters, and where the two listeners are that every node
    serves. -/
structure Coherent (nodes : List NodeInfo) (input : ConfigmapInput) (cm : ConfigMap) : Prop where
  interBroker : ∃ l, input.listeners.filter (·.name = input.interBrokerListenerName) = [l] ∧
    l.type = .internal
  files : ∀ node ∈ nodes, ∃ toml, cm.data[tomlKey node.brokerId]? = some toml ∧
    fileHeader input node.brokerId <+: toml ∧
    ∀ l ∈ input.listeners,
      l.name = input.interBrokerListenerName ∨ some l.name = input.operatorListenerName →
      ∃ addr : AdvertisedAddress, addr.host ≠ "" ∧ listenerHead l (some addr) <:+: toml
  /-- Each controller is a voter once, and no other node is. -/
  voters : (controllerQuorumVoters input).Perm ((nodes.filter (·.isController)).map nodeVoter)

/-- No controller has a later node with its id. -/
def NoneReplaced (nodes : List NodeInfo) : Prop :=
  nodes.Pairwise fun a b => a.isController = true → a.brokerId ≠ b.brokerId

/-! ## Listeners -/

section Listeners

open Checks

variable {spec : KafkaSpec} {ruleParses : String → Bool} {l : Listener}

theorem effectiveListeners_pairwise
    (hvalid : validateListeners ruleParses (userListeners spec) spec.interBrokerListenerName = .ok ()) :
    (effectiveListeners spec).Pairwise fun a b => a.name ≠ b.name := by
  have huser := (validateUniqueListeners_apart (validateListeners_eq_ok.mp hvalid).1).2
  refine List.pairwise_append.mpr ⟨huser.imp And.left, List.pairwise_singleton _ _, ?_⟩
  rintro a ha b hb hname
  rw [List.mem_singleton.mp hb] at hname
  exact operatorListener_name_not_mem (List.mem_map.mpr ⟨a, ha, hname⟩)

theorem eq_of_mem_effectiveListeners
    (hvalid : validateListeners ruleParses (userListeners spec) spec.interBrokerListenerName = .ok ())
    {a b : Listener} (ha : a ∈ effectiveListeners spec) (hb : b ∈ effectiveListeners spec)
    (hname : a.name = b.name) : a = b := by
  by_contra hne
  have hsymm : Std.Symm fun a b : Listener => a.name ≠ b.name := ⟨fun _ _ => Ne.symm⟩
  exact (effectiveListeners_pairwise hvalid).forall ha hb hne hname

/-- The effective list has one listener between brokers, an internal one. -/
theorem filter_interBroker
    (hvalid : validateListeners ruleParses (userListeners spec) spec.interBrokerListenerName = .ok ()) :
    ∃ l, (effectiveListeners spec).filter (·.name = interBrokerName spec) = [l] ∧
      l.type = .internal := by
  obtain ⟨l, hl, hname, htype⟩ := exists_interBroker hvalid
  refine ⟨l, ?_, htype⟩
  have hmem : l ∈ effectiveListeners spec := List.mem_append_left _ hl
  have hnodup : (effectiveListeners spec).Nodup :=
    (effectiveListeners_pairwise hvalid).imp fun h heq => h (congrArg Listener.name heq)
  refine List.perm_singleton.mp ((List.perm_ext_iff_of_nodup (hnodup.filter _)
    (List.nodup_singleton l)).mpr fun a => ?_)
  rw [List.mem_filter, List.mem_singleton, decide_eq_true_eq]
  constructor
  · rintro ⟨ha, haname⟩
    exact eq_of_mem_effectiveListeners hvalid ha hmem (haname.trans hname.symm)
  · rintro rfl
    exact ⟨hmem, hname⟩

/-- The two listeners that every node serves are internal. -/
theorem internal_of_served
    (hvalid : validateListeners ruleParses (userListeners spec) spec.interBrokerListenerName = .ok ())
    (hl : l ∈ effectiveListeners spec)
    (hname : l.name = interBrokerName spec ∨ l.name = operatorName spec) : l.type = .internal := by
  rcases hname with hname | hname
  · obtain ⟨ib, hib, hibname, htype⟩ := exists_interBroker hvalid
    rw [eq_of_mem_effectiveListeners hvalid hl (List.mem_append_left _ hib)
      (hname.trans hibname.symm)]
    exact htype
  · have hoperator : operatorListener (userListeners spec) ∈ effectiveListeners spec :=
      List.mem_append_right _ List.mem_cons_self
    rw [eq_of_mem_effectiveListeners hvalid hl hoperator hname]
    rfl

/-- No effective listener has mTLS without TLS. -/
theorem effectiveListeners_tls
    (hvalid : validateListeners ruleParses (userListeners spec) spec.interBrokerListenerName = .ok ())
    (hl : l ∈ effectiveListeners spec) : ¬(l.authentication = some .tls ∧ (!l.tls) = true) := by
  rcases List.mem_append.mp hl with hl | hl
  · have haccepted := (validateListeners_eq_ok.mp hvalid).2.1 l hl
    exact (guard_eq_ok.mp haccepted).1
  · rw [List.mem_singleton.mp hl]
    rintro ⟨-, htls⟩
    cases htls

end Listeners

/-! ## Resolution -/

section Resolution

open Checks

variable {spec : KafkaSpec} {ruleParses : String → Bool} {nodes : List NodeInfo}
  {state : ExternalState} {addresses : IdMap (BTreeMap AdvertisedAddress)} {node : NodeInfo}
  {m : BTreeMap AdvertisedAddress} {l : Listener}

/-- A node that serves an internal listener advertises its own name there. -/
theorem getElem?_listenerMap
    (hvalid : validateListeners ruleParses (userListeners spec) spec.interBrokerListenerName = .ok ())
    (hmap : listenerMap (effectiveListeners spec) (interBrokerName spec) (operatorName spec) state
      node = .ok m)
    (hl : l ∈ effectiveListeners spec)
    (hserves : serves (interBrokerName spec) (operatorName spec) node l = true)
    (htype : l.type = .internal) : m[l.name]? = some ⟨node.podFqdn, l.port⟩ := by
  obtain ⟨entries, hentries, hm⟩ := bind_eq_ok.mp hmap
  cases hm
  have hnames : List.Forall₂ (· = ·) (entries.map Prod.fst) (((effectiveListeners spec).filter
      (serves (interBrokerName spec) (operatorName spec) node)).map (·.name)) := by
    refine List.forall₂_map_left_iff.mpr (List.forall₂_map_right_iff.mpr ?_)
    refine (mapM_eq_ok_iff.mp hentries).flip.imp fun e l h => ?_
    obtain ⟨addr, -, h⟩ := bind_eq_ok.mp h
    cases h
    rfl
  rw [List.forall₂_eq_eq_eq] at hnames
  have hpairwise : entries.Pairwise fun a b => a.1 ≠ b.1 := by
    rw [← List.pairwise_map (f := Prod.fst) (R := fun a b => a ≠ b), hnames, List.pairwise_map]
    exact (effectiveListeners_pairwise hvalid).filter _
  rw [LastWins.getElem?_ofList, LastWins.latest, List.pwFilter_eq_self.mpr hpairwise]
  obtain ⟨e, he, hcompute⟩ := exists_of_mapM_eq_ok hentries (List.mem_filter.mpr ⟨hl, hserves⟩)
  rw [listenerEntry, computeAdvertised_internal htype] at hcompute
  cases hcompute
  exact he

/-- The addresses of a node, empty when they are not known. -/
def addressesOf (spec : KafkaSpec) (state : ExternalState) (node : NodeInfo) :
    BTreeMap AdvertisedAddress :=
  (listenerMap (effectiveListeners spec) (interBrokerName spec) (operatorName spec) state
    node).toOption.getD ∅

/-- Resolution succeeds when it does for each node. -/
theorem resolvedAddresses_eq_ok :
    resolvedAddresses spec nodes state = .ok addresses ↔
      (∀ node ∈ nodes, listenerMap (effectiveListeners spec) (interBrokerName spec)
        (operatorName spec) state node = .ok (addressesOf spec state node)) ∧
      addresses = LastWins.ofList compare
        (nodes.map fun node => (node.brokerId, addressesOf spec state node)) := by
  have hstep : ∀ (node : NodeInfo) (e : Int × BTreeMap AdvertisedAddress),
      nodeEntry (effectiveListeners spec) (interBrokerName spec) (operatorName spec) state node =
        .ok e ↔
      listenerMap (effectiveListeners spec) (interBrokerName spec) (operatorName spec) state node =
        .ok (addressesOf spec state node) ∧ e = (node.brokerId, addressesOf spec state node) := by
    intro node e
    rw [nodeEntry, bind_eq_ok]
    constructor
    · rintro ⟨addrs, haddrs, he⟩
      cases he
      have hof : addressesOf spec state node = addrs := by
        rw [addressesOf, haddrs]
        rfl
      exact ⟨hof ▸ haddrs, hof ▸ rfl⟩
    · rintro ⟨haddrs, rfl⟩
      exact ⟨_, haddrs, rfl⟩
  rw [resolvedAddresses, resolveAddressesPerBroker, bind_eq_ok]
  constructor
  · rintro ⟨entries, hentries, h⟩
    cases h
    obtain ⟨hall, rfl⟩ := (mapM_eq_ok hstep).mp hentries
    exact ⟨hall, rfl⟩
  · rintro ⟨hall, rfl⟩
    exact ⟨_, (mapM_eq_ok hstep).mpr ⟨hall, rfl⟩, rfl⟩

/-- The nodes that the maps are about: the last one of each id. -/
def lastNodes (nodes : List NodeInfo) : List NodeInfo := LastWins.latest NodeInfo.brokerId nodes

theorem mem_of_mem_lastNodes (h : node ∈ lastNodes nodes) : node ∈ nodes :=
  LastWins.latest_sublist.subset h

theorem latest_map_node {β : Type} (f : NodeInfo → β) :
    LastWins.latest Prod.fst (nodes.map fun node => (node.brokerId, f node)) =
      (lastNodes nodes).map fun node => (node.brokerId, f node) :=
  LastWins.latest_map _ nodes

theorem getElem?_inventoryRoles (h : node ∈ lastNodes nodes) :
    (inventoryRoles nodes)[node.brokerId]? = some node.roles := by
  rw [inventoryRoles, LastWins.getElem?_ofList, latest_map_node]
  exact List.mem_map.mpr ⟨node, h, rfl⟩

/-- The map has an entry for the last node of each id. -/
theorem toList_addresses_perm (hresolve : resolvedAddresses spec nodes state = .ok addresses) :
    addresses.toList.Perm
      ((lastNodes nodes).map fun node => (node.brokerId, addressesOf spec state node)) := by
  rw [(resolvedAddresses_eq_ok.mp hresolve).2, ← latest_map_node]
  exact LastWins.toList_ofList_perm

end Resolution

/-! ## Files -/

section Files

open Checks

variable {input : ConfigmapInput} {cm : ConfigMap} {id : Int} {addrs : BTreeMap AdvertisedAddress}

theorem tomlKey_injective {i j : Int} (h : tomlKey i = tomlKey j) : i = j := by
  have hlist := congrArg String.toList h
  simp only [tomlKey, String.toList_append, List.append_assoc, List.append_cancel_left_eq,
    List.append_cancel_right_eq] at hlist
  exact Decimal.toString_injective (String.toList_inj.mp hlist)

theorem tomlKey_ne_logging (i : Int) : "rust.log" ≠ tomlKey i := by
  intro h
  have hlist := congrArg String.toList h
  simp only [tomlKey, String.toList_append, List.append_assoc] at hlist
  cases hlist

/-- Each id of the map has its file. -/
theorem exists_file (h : renderConfigmap input = .ok cm)
    (hmem : (id, addrs) ∈ input.addressesPerBroker.toList) :
    ∃ toml, nodeToml input id addrs = .ok toml ∧ cm.data[tomlKey id]? = some toml := by
  obtain ⟨files, hfiles, h⟩ := bind_eq_ok.mp h
  obtain ⟨ref, -, h⟩ := bind_eq_ok.mp h
  cases h
  have hentry : ∀ e file, fileEntry input e = .ok file → file.1 = tomlKey e.1 := by
    intro e file h
    obtain ⟨toml, -, h⟩ := bind_eq_ok.mp h
    cases h
    rfl
  have hkeys : List.Forall₂ (· = ·) (files.map Prod.fst)
      (input.addressesPerBroker.toList.map fun e => tomlKey e.1) := by
    refine List.forall₂_map_left_iff.mpr (List.forall₂_map_right_iff.mpr ?_)
    exact (mapM_eq_ok_iff.mp hfiles).flip.imp fun file e h => hentry e file h
  rw [List.forall₂_eq_eq_eq] at hkeys
  have hfilesApart : files.Pairwise fun a b => a.1 ≠ b.1 := by
    rw [← List.pairwise_map (f := Prod.fst) (R := fun a b => a ≠ b), hkeys, List.pairwise_map]
    refine Std.ExtTreeMap.distinct_keys_toList.imp fun {a b} hne heq => hne ?_
    exact Std.LawfulEqCmp.compare_eq_iff_eq.mpr (tomlKey_injective heq)
  have hapart : (loggingEntry input.loggingFilter ++ files).Pairwise fun a b => a.1 ≠ b.1 := by
    refine List.pairwise_append.mpr ⟨?_, hfilesApart, fun a ha b hb => ?_⟩
    · cases hfilter : input.loggingFilter with
      | none => exact .nil
      | some filter => exact List.pairwise_singleton _ _
    · obtain ⟨filter, -, rfl⟩ := Option.map_eq_some_iff.mp (Option.mem_toList.mp ha)
      have hb' : b.1 ∈ files.map Prod.fst := List.mem_map_of_mem hb
      rw [hkeys] at hb'
      obtain ⟨e, -, he⟩ := List.mem_map.mp hb'
      rw [← he]
      exact tomlKey_ne_logging e.1
  obtain ⟨file, hfile, hrender⟩ := exists_of_mapM_eq_ok hfiles hmem
  obtain ⟨toml, htoml, heq⟩ := bind_eq_ok.mp hrender
  cases heq
  refine ⟨toml, htoml, ?_⟩
  rw [LastWins.getElem?_ofList, LastWins.latest, List.pwFilter_eq_self.mpr hapart]
  exact List.mem_append_right _ hfile

/-- A file begins with its header and holds the section of each listener of its node. -/
theorem nodeToml_eq_ok {toml : List Char} (h : nodeToml input id addrs = .ok toml) :
    fileHeader input id <+: toml ∧
      ∀ l ∈ nodeListeners input id, listenerHead l addrs[l.name]? <:+: toml := by
  obtain ⟨rendered, hrendered, h⟩ := bind_eq_ok.mp h
  cases h
  obtain ⟨⟨rest, hheader⟩, hsections⟩ := renderBrokerTomlWithOperator_eq_ok hrendered
  constructor
  · refine ⟨rest ++ optText input.owner.spec.brokerTuning renderRuntimeToml, ?_⟩
    rw [← hheader]
    simp only [fileHeader, brokerRender, List.append_assoc]
  · intro l hl
    exact ((hsections l hl).trans (List.suffix_append _ _).isInfix).trans
      (List.prefix_append _ _).isInfix

/-- Every node has the two listeners. -/
theorem mem_nodeListeners {l : Listener} (hl : l ∈ input.listeners)
    (hname : l.name = input.interBrokerListenerName ∨ some l.name = input.operatorListenerName) :
    l ∈ nodeListeners input id := by
  unfold nodeListeners
  split
  · exact hl
  · refine List.mem_filter.mpr ⟨hl, ?_⟩
    rw [Bool.or_eq_true, decide_eq_true_eq, decide_eq_true_eq]
    exact hname.imp_right Eq.symm

end Files

/-! ## Coherence of the files -/

section Coherence

open Checks

variable {kafka : Kafka} {ruleParses : String → Bool} {ns : String} {pools : List KafkaNodePool}
  {nodes : List NodeInfo} {state : ExternalState} {addresses : IdMap (BTreeMap AdvertisedAddress)}
  {tlsPerBroker : Option (IdMap BrokerTlsRender)} {clientsCaPath loggingFilter : Option String}
  {cm : ConfigMap} {node : NodeInfo} {l : Listener}

theorem podFqdn_ne_empty {cluster : String} (h : node ∈ enumerateNodes cluster ns pools) :
    node.podFqdn ≠ "" := by
  obtain ⟨pool, -, hnode⟩ := List.mem_flatMap.mp h
  obtain ⟨ordinal, -, hnode⟩ := List.mem_filterMap.mp hnode
  dsimp only at hnode
  split at hnode
  · cases hnode
    intro hempty
    have hlen := congrArg String.length hempty
    simp only [String.length_append] at hlen
    have hsvc : ("-broker-headless." : String).length = 17 := rfl
    have hzero : ("" : String).length = 0 := rfl
    omega
  · cases hnode

/-- The addresses that the file of a node is rendered from are those of a node with its id. -/
theorem exists_addresses (hresolve : resolvedAddresses kafka.spec nodes state = .ok addresses)
    (hnode : node ∈ nodes) : ∃ last ∈ lastNodes nodes, last.brokerId = node.brokerId ∧
      (node.brokerId, addressesOf kafka.spec state last) ∈ addresses.toList := by
  obtain ⟨last, hlast, hid⟩ : ∃ last ∈ lastNodes nodes, last.brokerId = node.brokerId :=
    LastWins.exists_mem_latest hnode
  refine ⟨last, hlast, hid, ?_⟩
  rw [(toList_addresses_perm hresolve).mem_iff, ← hid]
  exact List.mem_map.mpr ⟨last, hlast, rfl⟩

/-- A node advertises its own name on the two listeners. -/
theorem getElem?_addressesOf
    (hvalid : validateListeners ruleParses (userListeners kafka.spec)
      kafka.spec.interBrokerListenerName = .ok ())
    (hresolve : resolvedAddresses kafka.spec nodes state = .ok addresses) (hnode : node ∈ nodes)
    (hl : l ∈ effectiveListeners kafka.spec)
    (hname : l.name = interBrokerName kafka.spec ∨ l.name = operatorName kafka.spec) :
    (addressesOf kafka.spec state node)[l.name]? = some ⟨node.podFqdn, l.port⟩ := by
  refine getElem?_listenerMap hvalid ((resolvedAddresses_eq_ok.mp hresolve).1 node hnode) hl ?_
    (internal_of_served hvalid hl hname)
  simp only [serves, Bool.or_eq_true, decide_eq_true_eq]
  exact hname.elim (fun h => .inl (.inr h)) .inr

/-- The voters are the last nodes of the ids that are controllers. -/
theorem controllerQuorumVoters_perm
    (hvalid : validateListeners ruleParses (userListeners kafka.spec)
      kafka.spec.interBrokerListenerName = .ok ())
    (hresolve : resolvedAddresses kafka.spec nodes state = .ok addresses) :
    (controllerQuorumVoters (configmapInput kafka nodes addresses tlsPerBroker clientsCaPath
      loggingFilter)).Perm (((lastNodes nodes).filter (·.isController)).map nodeVoter) := by
  obtain ⟨ib, hib, hibname, -⟩ := exists_interBroker hvalid
  have hentries := (((toList_addresses_perm hresolve).filter fun (id, _) =>
    (inventoryRoles nodes)[id]?.any (.controller ∈ ·)).filterMap fun (id, addrs) =>
      addrs[interBrokerName kafka.spec]?.map fun adv =>
        (id, adv.host ++ ":" ++ toString controllerPort)).map
    fun (id, endpoint) => voterText id endpoint
  refine hentries.trans (.of_eq ?_)
  rw [List.filter_map, List.filterMap_map, List.map_filterMap]
  have hrole : ((lastNodes nodes).filter ((fun (id, _) =>
      (inventoryRoles nodes)[id]?.any (.controller ∈ ·)) ∘
        fun node => (node.brokerId, addressesOf kafka.spec state node))) =
      (lastNodes nodes).filter (·.isController) := by
    refine List.filter_congr fun node hnode => ?_
    simp only [Function.comp_apply, getElem?_inventoryRoles hnode, Option.any_some]
    rfl
  rw [hrole, ← List.filterMap_eq_map]
  refine List.filterMap_congr fun node hnode => ?_
  have hmem := mem_of_mem_lastNodes (List.mem_of_mem_filter hnode)
  have haddr := getElem?_addressesOf hvalid hresolve hmem (List.mem_append_left _ hib)
    (.inl hibname)
  simp only [Function.comp_apply, ← hibname, interBrokerName] at haddr ⊢
  rw [haddr]
  rfl

/-- A file has the header and the two listeners, each with an address. -/
theorem coherent_files
    (hvalid : validateListeners ruleParses (userListeners kafka.spec)
      kafka.spec.interBrokerListenerName = .ok ())
    (hresolve : resolvedAddresses kafka.spec nodes state = .ok addresses)
    (hnames : ∀ node ∈ nodes, node.podFqdn ≠ "")
    (hrender : renderConfigmap (configmapInput kafka nodes addresses tlsPerBroker clientsCaPath
      loggingFilter) = .ok cm) (hnode : node ∈ nodes) :
    let input := configmapInput kafka nodes addresses tlsPerBroker clientsCaPath loggingFilter
    ∃ toml, cm.data[tomlKey node.brokerId]? = some toml ∧
      fileHeader input node.brokerId <+: toml ∧
      ∀ l ∈ input.listeners,
        l.name = input.interBrokerListenerName ∨ some l.name = input.operatorListenerName →
        ∃ addr : AdvertisedAddress, addr.host ≠ "" ∧ listenerHead l (some addr) <:+: toml := by
  intro input
  obtain ⟨last, hlast, -, hmem⟩ := exists_addresses hresolve hnode
  have hlastNode := mem_of_mem_lastNodes hlast
  obtain ⟨toml, htoml, hdata⟩ := exists_file hrender hmem
  obtain ⟨hheader, hsections⟩ := nodeToml_eq_ok htoml
  refine ⟨toml, hdata, hheader, fun l hl hname => ?_⟩
  refine ⟨⟨last.podFqdn, l.port⟩, hnames last hlastNode, ?_⟩
  rw [← getElem?_addressesOf hvalid hresolve hlastNode hl (hname.imp_right Option.some_inj.mp)]
  exact hsections l (mem_nodeListeners hl hname)

/-- Rendering succeeds with a uid and a valid storage tier. -/
theorem exists_renderConfigmap
    (hvalid : validateListeners ruleParses (userListeners kafka.spec)
      kafka.spec.interBrokerListenerName = .ok ())
    (huid : kafka.uid.isSome = true)
    (htier : ∀ tier, kafka.spec.tieredStorage = some tier → tier.validateBackend = .ok ()) :
    ∃ cm, renderConfigmap (configmapInput kafka nodes addresses tlsPerBroker clientsCaPath
      loggingFilter) = .ok cm := by
  obtain ⟨uid, huid⟩ := Option.isSome_iff_exists.mp huid
  have howner : ∃ ref, (Network.ownerRef kafka).mapError RenderError.reconcile = .ok ref := by
    simp only [Network.ownerRef, huid]
    exact ⟨_, rfl⟩
  have hfile : ∀ e ∈ addresses.toList, ∃ file, fileEntry (configmapInput kafka nodes addresses
      tlsPerBroker clientsCaPath loggingFilter) e = .ok file := by
    intro e _
    have htls : ∀ l ∈ nodeListeners (configmapInput kafka nodes addresses tlsPerBroker
        clientsCaPath loggingFilter) e.1, ¬(l.authentication = some .tls ∧ (!l.tls) = true) := by
      intro l hl
      refine effectiveListeners_tls hvalid ?_
      unfold nodeListeners at hl
      split at hl
      · exact hl
      · exact List.mem_of_mem_filter hl
    obtain ⟨rendered, hrendered⟩ := @exists_renderBrokerTomlWithOperator (brokerRender
      (configmapInput kafka nodes addresses tlsPerBroker clientsCaPath loggingFilter) e.1 e.2)
      htls htier
    exact ⟨_, bind_eq_ok.mpr ⟨_, bind_eq_ok.mpr ⟨rendered, hrendered, rfl⟩, rfl⟩⟩
  obtain ⟨files, hfiles⟩ := exists_mapM_eq_ok hfile
  obtain ⟨ref, href⟩ := howner
  exact ⟨_, bind_eq_ok.mpr ⟨files, hfiles, bind_eq_ok.mpr ⟨ref, href, rfl⟩⟩⟩

/-- For accepted listeners and resolved addresses, a rendered config is coherent exactly if no
    controller has a later node with its id. -/
theorem configmap_coherent_iff
    (hvalid : validateListeners ruleParses (userListeners kafka.spec)
      kafka.spec.interBrokerListenerName = .ok ())
    (hresolve : resolvedAddresses kafka.spec (enumerateNodes kafka.name ns pools) state =
      .ok addresses) :
    let nodes := enumerateNodes kafka.name ns pools
    let input := configmapInput kafka nodes addresses tlsPerBroker clientsCaPath loggingFilter
    (kafka.uid.isSome = true →
      (∀ tier, kafka.spec.tieredStorage = some tier → tier.validateBackend = .ok ()) →
      ∃ cm, renderConfigmap input = .ok cm) ∧
    ∀ cm, renderConfigmap input = .ok cm → (Coherent nodes input cm ↔ NoneReplaced nodes) := by
  intro nodes input
  refine ⟨exists_renderConfigmap hvalid, fun cm hrender => ?_⟩
  have hvoters := @controllerQuorumVoters_perm kafka ruleParses nodes state addresses tlsPerBroker
    clientsCaPath loggingFilter hvalid hresolve
  rw [NoneReplaced, ← LastWins.map_filter_latest_perm_iff (f := nodeVoter)]
  constructor
  · intro h
    exact hvoters.symm.trans h.voters
  · intro h
    exact ⟨filter_interBroker hvalid,
      fun node hnode => coherent_files hvalid hresolve (fun _ => podFqdn_ne_empty) hrender hnode,
      hvoters.trans h⟩

end Coherence

namespace Sample

def rangePool (name : String) (start replicas : Int) (roles : List NodeRole) (observed : Option Int) :
    KafkaNodePool where
  name := name
  labels := ∅
  spec := ⟨replicas, start, roles⟩
  status := some ⟨observed, none, []⟩

/-- One controller and two brokers. -/
def apartPools : List KafkaNodePool :=
  [rangePool "controllers" 0 1 [.controller] none, rangePool "brokers" 1 2 [.broker] none]

/-- The status of the second pool still counts the two nodes that it lost. -/
def stalePools : List KafkaNodePool :=
  [rangePool "a" 1 2 [.controller] (some 2), rangePool "z" 0 1 [.controller] (some 3)]

def runningSts (pool : String) (replicas : Int) : StatefulSet where
  name := "demo-" ++ pool
  labels := BTreeMap.ofList [("krabka.io/pool", pool)]
  generation := some 1
  spec := some ⟨some replicas, ∅, ∅, none⟩
  status := none

def configmapOf (pools : List KafkaNodePool) (addresses : IdMap (BTreeMap AdvertisedAddress)) :
    ConfigmapInput :=
  configmapInput (Kafka.minimal "demo") (enumerateNodes "demo" "default" pools) addresses none none
    none

end Sample

open Sample in
/-- With the pools apart the config is coherent. -/
theorem configmap_coherent_apart : ∃ addresses cm,
    resolvedAddresses {} (enumerateNodes "demo" "default" apartPools) {} = .ok addresses ∧
      renderConfigmap (configmapOf apartPools addresses) = .ok cm ∧
      Coherent (enumerateNodes "demo" "default" apartPools) (configmapOf apartPools addresses)
        cm := by
  cases hresolve : resolvedAddresses {} (enumerateNodes "demo" "default" apartPools) {} with
  | error e =>
    have hok : (resolvedAddresses {} (enumerateNodes "demo" "default" apartPools) {}).isOk =
        true := by decide
    rw [hresolve] at hok
    cases hok
  | ok addresses =>
    obtain ⟨hrender, hiff⟩ := @configmap_coherent_iff (Kafka.minimal "demo") (fun _ => true)
      "default" apartPools {} addresses none none none (by decide) hresolve
    obtain ⟨cm, hcm⟩ := hrender rfl (fun _ h => by cases h)
    exact ⟨addresses, cm, rfl, hcm, (hiff cm hcm).mpr (by unfold NoneReplaced; decide)⟩

open Sample in
/-- The controllers of the first pool run and are not voters: two nodes that are gone are. -/
theorem running_controllers_replaced :
    NodePool.validateTopology (fun _ => .ok ()) stalePools [runningSts "a" 2, runningSts "z" 1] [] =
      .ok () ∧
    validateListeners (fun _ => true) (userListeners {}) none = .ok () ∧
    ∃ addresses cm,
      resolvedAddresses {} (enumerateNodes "demo" "default" stalePools) {} = .ok addresses ∧
      renderConfigmap (configmapOf stalePools addresses) = .ok cm ∧
      (controllerQuorumVoters (configmapOf stalePools addresses)).Perm
        (["0@demo-z-0", "1@demo-z-1", "2@demo-z-2"].map
          (· ++ ".demo-broker-headless.default.svc.cluster.local:9093")) ∧
      ¬ Coherent (enumerateNodes "demo" "default" stalePools) (configmapOf stalePools addresses)
        cm := by
  have hvalid : validateListeners (fun _ => true) (userListeners {}) none = .ok () := by
    decide
  refine ⟨by decide, hvalid, ?_⟩
  cases hresolve : resolvedAddresses {} (enumerateNodes "demo" "default" stalePools) {} with
  | error e =>
    have hok : (resolvedAddresses {} (enumerateNodes "demo" "default" stalePools) {}).isOk =
        true := by decide
    rw [hresolve] at hok
    cases hok
  | ok addresses =>
    obtain ⟨cm, hcm⟩ := @exists_renderConfigmap (Kafka.minimal "demo") (fun _ => true)
      (enumerateNodes "demo" "default" stalePools) addresses none none none hvalid rfl
      (fun _ h => by cases h)
    have hvoters := @controllerQuorumVoters_perm (Kafka.minimal "demo") (fun _ => true)
      (enumerateNodes "demo" "default" stalePools) {} addresses none none none hvalid hresolve
    refine ⟨addresses, cm, rfl, hcm, hvoters.trans (by decide), fun h => ?_⟩
    have hlen := (hvoters.symm.trans h.voters).length_eq
    exact absurd hlen (by decide)

end Cluster
