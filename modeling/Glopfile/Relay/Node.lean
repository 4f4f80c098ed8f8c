import Glopfile.Relay.SessionId
import Glopfile.Relay.SystemSteps
import Glopfile.Simulation

/-!
# A node and its sessions

A node runs any number of sessions. The registry maps an id to the session that runs under it;
a session's task takes itself out once its loop has ended, which is a step of its own. A handle
is the place of a session among all that the node has created.

A handler looks its session up and holds a clone from then on, while the session may end and
leave. The handlers that wait for one reply are modelled to their answer: `download_meta`,
`start_upload`, and `download_content` at the end of the file. The others are steps of the
session's own system, which a holder of a clone takes.

`SessionId::generate` is an argument of `create`.
-/

namespace Glopfile.Relay

open Base64 (Engine Standard)

/-- `closed` is set once `recv` has returned `None`, `left` once `run` has returned. -/
structure NodeTask where
  id : SessionId
  system : System
  closed : Bool
  left : Bool

inductive ApiResponse
  | created (uploadUrl downloadId : String)
  | metadata (encryptedMetadata encryptedContentUrl : String)
  | empty
  | status (response : Response)
  deriving DecidableEq, Repr

inductive Request
  | downloadMeta
  | finishDownload
  | startUpload (position : Position)
  deriving DecidableEq, Repr

/-- `text` is the id as it stands in the path. -/
inductive RequestTask
  | found (text : String) (request : Request) (handle : ℕ)
  | waiting (text : String) (request : Request) (handle : ℕ) (reply : Waiter)
  | ended
  deriving DecidableEq, Repr

structure Node where
  tasks : List NodeTask
  registry : SessionId → Option ℕ
  clones : List ℕ
  requests : List RequestTask

inductive NodeEvent
  | create (id : SessionId) (metadata : String)
  | lookup (text : String)
  | drop (handle : ℕ)
  | session (handle : ℕ) (event : SystemEvent)
  | request (text : String) (request : Request)
  | requestSend (number : ℕ)
  | requestResume (number : ℕ)
  | requestDrop (number : ℕ)
  | recvNone (handle : ℕ)
  | remove (handle : ℕ)

/-- `number` is the place of a request among all; `stepped` shows a step of a session. -/
inductive NodeOutput
  | created (id : SessionId) (metadata : String) (response : ApiResponse)
  | found (text : String)
  | refused (text : String) (response : Response)
  | answered (number : ℕ) (text : String) (request : Request) (response : ApiResponse)
  | stepped (handle : ℕ) (event : SystemEvent) (outputs : List Output)

def Request.event : Request → SystemEvent
  | .downloadMeta => .metadata
  | .finishDownload => .finishDownload
  | .startUpload position => .checkStartUpload position

def RequestTask.handle : RequestTask → Option ℕ
  | .found _ _ handle | .waiting _ _ handle _ => some handle
  | .ended => none

section Api
variable (engine : Engine Standard)

def createFileResponse (id : SessionId) : ApiResponse :=
  .created ("/api/v1/upload/" ++ id.encode engine) (id.encode engine)

def Request.response (id : SessionId) : Request → Option Reply → ApiResponse
  | .downloadMeta, some (.metadata metadata) =>
    .metadata metadata ("/api/v1/download/" ++ id.encode engine ++ "/content")
  | .downloadMeta, _ => .status .notFound
  | .finishDownload, some _ => .empty
  | .finishDownload, none => .status .notFound
  | .startUpload _, answer =>
    match System.uploadAnswer answer with
    | .ok () => .status .ok
    | .error error => .status (uploadError error)

end Api

namespace Node
variable (engine : Engine Standard)

def new : Node := ⟨[], fun _ => none, [], []⟩

/-- The name of a session's task is its handle. -/
def create (n : Node) (id : SessionId) (metadata : String) : Node :=
  { n with
    tasks := n.tasks ++ [⟨id, .spawn metadata, false, false⟩]
    registry := Function.update n.registry id (some n.tasks.length) }

def lookup (n : Node) (text : String) : Except Response ℕ :=
  match SessionId.decode engine text with
  | .error _ => .error (.invalid "invalid id")
  | .ok id =>
    match n.registry id with
    | none => .error .notFound
    | some handle => .ok handle

def setTask (n : Node) (handle : ℕ) (task : NodeTask) : Node :=
  { n with tasks := n.tasks.set handle task }

def setRequest (n : Node) (number : ℕ) (request : RequestTask) : Node :=
  { n with requests := n.requests.set number request }

def addRequest (n : Node) (request : RequestTask) : Node :=
  { n with requests := n.requests ++ [request] }

def stepSession (n : Node) (handle : ℕ) (event : SystemEvent) : Option (Node × List NodeOutput) :=
  match n.tasks[handle]? with
  | none => none
  | some task =>
    (task.system.step event).map fun r =>
      (n.setTask handle { task with system := r.1 }, [.stepped handle event r.2])

def request (n : Node) (text : String) (request : Request) : Node × List NodeOutput :=
  match n.lookup engine text with
  | .error response =>
    (n.addRequest .ended, [.answered n.requests.length text request (.status response)])
  | .ok handle => (n.addRequest (.found text request handle), [])

/-- The first poll of the session's future: a fresh reply channel, and the command. -/
def requestSend (n : Node) (number : ℕ) : Option (Node × List NodeOutput) :=
  match n.requests[number]? with
  | some (.found text request handle) =>
    match n.tasks[handle]? with
    | none => none
    | some task =>
      (n.stepSession handle request.event).map fun r =>
        (r.1.setRequest number (.waiting text request handle task.system.fresh), r.2)
  | _ => none

def requestResume (n : Node) (number : ℕ) : Option (Node × List NodeOutput) :=
  match n.requests[number]? with
  | some (.waiting text request handle reply) =>
    match n.tasks[handle]? with
    | none => none
    | some task =>
      (task.system.response reply).map fun answer =>
        (n.setRequest number .ended,
          [.answered number text request (request.response engine task.id answer)])
  | _ => none

def sendersLeft (n : Node) (handle : ℕ) (id : SessionId) : Bool :=
  n.registry id = some handle || n.clones.contains handle ||
    n.requests.any fun request => request.handle = some handle

/-- All senders of the commands are gone, and the queue is empty. -/
def recvNone (n : Node) (handle : ℕ) : Option (Node × List NodeOutput) :=
  match n.tasks[handle]? with
  | none => none
  | some task =>
    if task.system.session.running = true ∧ task.closed = false ∧ task.system.queue = [] ∧
        n.sendersLeft handle task.id = false then
      some (n.setTask handle { task with closed := true }, [])
    else none

/-- `registry.remove`, after the loop of `run`. -/
def remove (n : Node) (handle : ℕ) : Option (Node × List NodeOutput) :=
  match n.tasks[handle]? with
  | none => none
  | some task =>
    if (task.system.session.running = false ∨ task.closed = true) ∧ task.left = false then
      some ({ n.setTask handle { task with left := true } with
        registry := Function.update n.registry task.id none }, [])
    else none

def step (n : Node) : NodeEvent → Option (Node × List NodeOutput)
  | .create id metadata =>
    some (n.create id metadata, [.created id metadata (createFileResponse engine id)])
  | .lookup text =>
    match n.lookup engine text with
    | .error response => some (n, [.refused text response])
    | .ok handle => some ({ n with clones := handle :: n.clones }, [.found text])
  | .drop handle =>
    if handle ∈ n.clones then some ({ n with clones := n.clones.erase handle }, []) else none
  | .session handle event =>
    if event = .turn ∨ handle ∈ n.clones then n.stepSession handle event else none
  | .request text request => some (n.request engine text request)
  | .requestSend number => n.requestSend number
  | .requestResume number => n.requestResume engine number
  | .requestDrop number =>
    match n.requests[number]? with
    | none | some .ended => none
    | some _ => some (n.setRequest number .ended, [])
  | .recvNone handle => n.recvNone handle
  | .remove handle => n.remove handle

end Node

def relayNode (engine : Engine Standard) : EventMachine Node NodeEvent NodeOutput where
  init := .new
  step := Node.step engine

/-- `SessionId::generate` repeats no id. -/
def NewIds (n : Node) : NodeEvent → Prop
  | .create id _ => ∀ task ∈ n.tasks, task.id ≠ id
  | _ => True

instance (n : Node) (e : NodeEvent) : Decidable (NewIds n e) := by
  unfold NewIds
  split <;> infer_instance

end Glopfile.Relay
