-- SUMMARY: The admin clients that the controllers share: how one is looked up, connected with the identity of the operator, and dropped.
import KrabkaOperator.Admin.Client
import KrabkaOperator.Base.Interleave
import KrabkaOperator.Base.Separated
import KrabkaOperator.User.Tls

/-!
# The admin clients of the operator

All controllers share one map of admin clients. A call first looks without the identity
of the operator, then reads the identity Secret, and connects a client while it holds
the lock of the map. Between the read and the lock other calls may connect or drop
clients, and the Secret may change.
-/

namespace Context

open Kube Admin User

/-- The files that a client is connected with. -/
structure Material where
  caCrt : ByteString
  userCrt : ByteString
  userKey : ByteString
  deriving DecidableEq, Repr

structure AdminClientHandle where
  /-- The connections are numbered as they are opened. -/
  connection : Nat
  bootstrap : String
  serverName : String
  material : Material
  deriving DecidableEq, Repr

/-- The identity Secret, as it is read. -/
structure IdentitySecret where
  resourceVersion : Option String
  data : Option (BTreeMap ByteString)

/-- The Secrets of all namespaces. -/
abbrev Secrets := String → String → Option IdentitySecret

structure World where
  secret? : Secrets
  adminClients : BTreeMap AdminClientHandle := ∅
  /-- How many connections have been opened. -/
  opened : Nat := 0

/-- What may fail in a call, with the texts of the errors. -/
structure Choice where
  get : Option String := none
  missing : String := "not found"
  tempdir : Option String := none
  /-- The file that cannot be written, and why. -/
  write : Option (String × String) := none
  connect : Option AdminError := none

/-! ## The keys of the map -/

/-- What all keys of one cluster start with. -/
def clusterPrefix (cluster : String) : String := cluster ++ "\x00"

def cachePrefix (cluster ns bootstrap : String) : String :=
  clusterPrefix cluster ++ ns ++ "\x00" ++ bootstrap ++ "\x00"

def cacheKey (cluster ns bootstrap version : String) : String :=
  cachePrefix cluster ns bootstrap ++ version

def startsWith (key start : String) : Bool := start.toList.isPrefixOf key.toList

/-! ## The calls -/

def protocol (text : String) : AdminError := .other false text

def adminServerName (cluster ns : String) : String :=
  cluster ++ "-broker-headless." ++ ns ++ ".svc.cluster.local"

def orError (e : AdminError) : Option α → Except AdminError α
  | some x => .ok x
  | none => .error e

def refuse : Option AdminError → Except AdminError Unit
  | some e => .error e
  | none => .ok ()

/-- The files of the identity, once they are written and the connection is open. -/
def openWith (c : Choice) (ns cluster : String) (secret : IdentitySecret) :
    Except AdminError Material := do
  let what := "operator identity Secret " ++ ns ++ "/" ++ operatorSecretName cluster
  let data ← orError (protocol (what ++ " has no data")) secret.data
  refuse (c.tempdir.map fun text => protocol ("operator identity tempdir: " ++ text))
  let value (name : String) := orError (protocol (what ++ " has no " ++ name)) data[name]?
  let caCrt ← value "ca.crt"
  let userCrt ← value "user.crt"
  let userKey ← value "user.key"
  refuse (c.write.map fun w => protocol ("write operator identity " ++ w.1 ++ ": " ++ w.2))
  refuse c.connect
  pure ⟨caCrt, userCrt, userKey⟩

/-- What a call does under the lock. -/
def connectLocked (c : Choice) (ns cluster bootstrap : String) (secret : IdentitySecret)
    (w : World) : Except AdminError AdminClientHandle × World :=
  let start := cachePrefix cluster ns bootstrap
  let key := start ++ secret.resourceVersion.getD "unknown"
  match w.adminClients[key]?.or w.adminClients[cluster]? with
  | some client => (.ok client, w)
  | none =>
    match openWith c ns cluster secret with
    | .error e => (.error e, w)
    | .ok material =>
      let entry := ⟨w.opened, bootstrap, adminServerName cluster ns, material⟩
      -- A client of an earlier identity goes away here.
      (.ok entry, { w with
        adminClients := (w.adminClients.filter fun cached _ => !startsWith cached start).insert
          key entry
        opened := w.opened + 1 })

/-- The map without the clients of a cluster. -/
def dropClients (cluster : String) (clients : BTreeMap AdminClientHandle) :
    BTreeMap AdminClientHandle :=
  clients.filter fun key _ => key != cluster && !startsWith key (clusterPrefix cluster)

inductive Req where
  | cached (cluster : String)
  | getSecret (ns name : String)
  | connect (ns cluster bootstrap : String) (secret : IdentitySecret)
  | drop (cluster : String)

@[reducible] def Resp : Req → Type
  | .cached _ => Option AdminClientHandle
  | .getSecret _ _ => Except String IdentitySecret
  | .connect _ _ _ _ => Except AdminError AdminClientHandle
  | .drop _ => Unit

def answer : (r : Req) → Choice → World → Resp r × World
  | .cached cluster, _, w => (w.adminClients[cluster]?, w)
  | .getSecret ns name, c, w =>
    match c.get, w.secret? ns name with
    | some text, _ => (.error text, w)
    | none, some secret => (.ok secret, w)
    | none, none => (.error c.missing, w)
  | .connect ns cluster bootstrap secret, c, w => connectLocked c ns cluster bootstrap secret w
  | .drop cluster, _, w => ((), { w with adminClients := dropClients cluster w.adminClients })

abbrev Op (α : Type) := Prog Req Resp AdminError α

def connectClient (ns cluster bootstrap : String) (secret : IdentitySecret) :
    Op AdminClientHandle :=
  Prog.request (Req.connect ns cluster bootstrap secret) >>= Prog.ofExcept

def fetchIdentity (ns cluster bootstrap : String) : Op AdminClientHandle :=
  Prog.request (Req.getSecret ns (operatorSecretName cluster)) >>= fun
    | .error text => .fail (protocol ("operator identity Secret " ++ ns ++ "/" ++
        operatorSecretName cluster ++ ": " ++ text))
    | .ok secret => connectClient ns cluster bootstrap secret

def adminClientFor (ns cluster bootstrap : String) : Op AdminClientHandle :=
  Prog.request (Req.cached cluster) >>= fun
    | some client => pure client
    | none => fetchIdentity ns cluster bootstrap

def dropAdminClient (cluster : String) : Op Unit := Prog.request (Req.drop cluster)

/-! ## The controllers -/

/-- A call of a controller. -/
inductive Task where
  | lookup (ns cluster bootstrap : String)
  | drop (cluster : String)
  deriving DecidableEq

def Task.run : Task → Op (Option AdminClientHandle)
  | .lookup ns cluster bootstrap => adminClientFor ns cluster bootstrap >>= fun h => pure (some h)
  | .drop cluster => dropAdminClient cluster >>= fun _ => pure none

abbrev Runs := Interleave.State Nat World Req Resp AdminError (Option AdminClientHandle)

/-- The running calls are numbered. -/
structure State where
  task : Nat → Task
  runs : Runs

inductive Event where
  | start (i : Nat) (task : Task)
  /-- The next request of a call. -/
  | call (i : Nat) (c : Choice)
  /-- Secrets are created, changed and deleted. -/
  | secrets (f : Secrets)

def Event.move : Event → Interleave.Move Nat World Choice Req Resp AdminError (Option AdminClientHandle)
  | .start i task => .start i task.run
  | .call i c => .request i c
  | .secrets f => .change fun w => { w with secret? := f }

def step (e : Event) (s : State) : State where
  task :=
    match e with
    | .start i task => Function.update s.task i task
    | _ => s.task
  runs := Interleave.step answer e.move s.runs

/-- The client that a call has returned. -/
def returned : Op (Option AdminClientHandle) → Option AdminClientHandle
  | .ret client => client
  | _ => none

def State.client? (s : State) (i : Nat) : Option AdminClientHandle := returned (s.runs.party i).1

/-- The states of a run, as a history of single steps. -/
def exec (e : Event) (s : State) : List State := [step e s]

theorem finish_exec {e : Event} {s : State} : History.finish exec e s = step e s := rfl

end Context
