import AiroAgent.Fleet

/-!
# The channel client

One `slipstream` client: its callbacks, and what they push to Airo. The client
process is blocked while it asks Fleet for the slots, so a register goes out in
two moves: Fleet answers, and the answer is pushed. `slipstream` itself keeps
the socket: a join that was asked for is no join until the reply is handled,
and a push on a topic that is not joined goes nowhere.
-/

namespace AiroAgent.Channel

/-! ## Payloads -/

structure SlotPayload where
  port : Port
  base_url : String
  status : Status
  resident_model : Option String
  revision : Option String
  ctx : Val
  parallel : Val
  ctx_total : Val
  engine_build : Val
  deployment_id : Option String
  tp_rank : Option Int
  tp_size : Option Int
  profile : Profile
  started_at : Option Time

def to_payload (slot : SlotInfo) : SlotPayload where
  port := slot.port
  base_url := slot.base_url
  status := slot.status
  resident_model := slot.resident_model
  revision := slot.revision
  ctx := slot.ctx
  parallel := slot.parallel
  ctx_total := slot.ctx_total
  engine_build := slot.engine_build
  deployment_id := slot.cluster_id
  tp_rank := slot.tp_rank
  tp_size := slot.tp_size
  profile := slot.profile
  started_at := slot.started_at

structure SlotEvent where
  port : Port
  resident_model : Option String
  revision : Option String
  ctx : Val
  parallel : Val
  ctx_total : Val
  engine_build : Val
  deployment_id : Option String
  tp_rank : Option Int
  tp_size : Option Int
  status : EventType
  reason : Option String
  time : Time

/-- Any other term comes as its rendering. -/
def serialize_reason : Reason → String
  | .shutdown => ":shutdown"
  | .noproc => ":noproc"
  | .other term => term

def slot_event (e : Event) : SlotEvent where
  port := e.port
  resident_model := e.resident_model
  revision := e.revision
  ctx := e.ctx
  parallel := e.parallel
  ctx_total := e.ctx_total
  engine_build := e.engine_build
  deployment_id := e.cluster_id
  tp_rank := e.tp_rank
  tp_size := e.tp_size
  status := e.type
  reason := e.reason.map serialize_reason
  time := e.time

inductive Push where
  | register (slots : List SlotPayload)
  | slot (e : SlotEvent)

/-! ## Callbacks -/

structure Socket where
  connected : Bool := false
  joined : Bool := false
  deriving DecidableEq

/-- What a callback returns. Only the first two are what the dispatch accepts:
`ok_result` is `{:ok, result}` around another `{:ok, socket}` or `{:error, _}`. -/
inductive Returned where
  | ok (socket : Socket)
  | noreply (socket : Socket)
  | ok_result (result : Except String Socket)

inductive Request where
  | nothing
  | register
  | slot (e : Event)

/-- The messages of the client's mailbox. A close carries whether the rejoin is
accepted, and, like a disconnect, the outcome of `reconnect/1`. -/
inductive Message where
  | publish (e : Event)
  | connect
  | join
  | message (event : String)
  | disconnect (reconnected : Except String Unit)
  | topic_close (rejoined reconnected : Except String Unit)
  | heartbeat

def reconnect (outcome : Except String Unit) (socket : Socket) : Except String Socket := outcome.map fun _ => socket

def rejoin (outcome : Except String Unit) (socket : Socket) : Except String Socket := outcome.map fun _ => socket

def handle_connect (socket : Socket) : Returned := .ok socket

def handle_join (socket : Socket) : Returned × Request := (.ok socket, .register)

def handle_message (event : String) (socket : Socket) : Returned × Request :=
  if event = "resync" then (.ok socket, .register) else (.ok socket, .nothing)

def handle_disconnect (reconnected : Except String Unit) (socket : Socket) : Returned :=
  match reconnect reconnected socket with
  | .ok socket => .ok socket
  | .error _ => .ok socket

def handle_topic_close (rejoined reconnected : Except String Unit) (socket : Socket) : Returned :=
  match rejoin rejoined socket with
  | .ok socket => .ok socket
  | .error _ => .ok_result (reconnect reconnected socket)

def handle_info_publish (e : Event) (socket : Socket) : Returned × Request :=
  (.noreply socket, if socket.joined then .slot e else .nothing)

def handle_info_heartbeat (socket : Socket) : Returned × Request :=
  (.noreply socket, if socket.connected && socket.joined then .register else .nothing)

/-- `slipstream` brings the socket up to date before it calls back. -/
def apply_event (m : Message) (socket : Socket) : Socket :=
  match m with
  | .connect => { socket with connected := true }
  | .join => { socket with joined := true }
  | .disconnect _ => { connected := false, joined := false }
  | .topic_close _ _ => { socket with joined := false }
  | .publish _ | .message _ | .heartbeat => socket

def dispatch (m : Message) (socket : Socket) : Returned × Request :=
  let socket := apply_event m socket
  match m with
  | .publish e => handle_info_publish e socket
  | .connect => (handle_connect socket, .nothing)
  | .join => handle_join socket
  | .message event => handle_message event socket
  | .disconnect reconnected => (handle_disconnect reconnected socket, .nothing)
  | .topic_close rejoined reconnected => (handle_topic_close rejoined reconnected socket, .nothing)
  | .heartbeat => handle_info_heartbeat socket

/-- What the calls of `push_register` come to, in their order: `GPU.snapshot/0` and
`Fleet.slots/0` are each answered in time, or the caller exits. -/
structure Calls where
  snapshot : Except String Unit
  slots : Except String (List SlotInfo)

def push_register (calls : Calls) : Except String Push := do
  calls.snapshot
  let slots ← calls.slots
  return .register (slots.map to_payload)

/-! ## The client process -/

/-- `calling`: Fleet is being asked for the slots. `answered`: it has answered. -/
inductive Phase where
  | idle
  | calling
  | answered (slots : List SlotInfo)

structure Client where
  alive : Bool := true
  socket : Socket := {}
  phase : Phase := .idle
  mailbox : List Message := []
  pushed : List Push := []

def Client.push (p : Push) (c : Client) : Client :=
  if c.socket.joined then { c with pushed := c.pushed ++ [p] } else c

/-- The process dies, with its mailbox and its socket. -/
def Client.crash (c : Client) : Client := { alive := false, pushed := c.pushed }

def Client.request (r : Request) (c : Client) : Client :=
  match r with
  | .nothing => c
  | .register => { c with phase := .calling }
  | .slot e => c.push (.slot (slot_event e))

def Client.handle (m : Message) (rest : List Message) (c : Client) : Client :=
  match dispatch m c.socket with
  | (.ok socket, r) => Client.request r { c with socket := socket, mailbox := rest }
  | (.noreply socket, r) => Client.request r { c with socket := socket, mailbox := rest }
  | (.ok_result _, _) => c.crash

/-! ## Airo's view -/

/-- Status and resident model of the ports Airo has heard of. -/
abbrev View := Port → Option (Status × Option String)

def heard (type : EventType) (resident_model : Option String) : Status × Option String :=
  match type with
  | .loading => (.loading, resident_model)
  | .up => (.up, resident_model)
  | .down | .failed | .unloaded => (.empty, none)

/-- A register replaces the view, and a slot event sets its port. -/
def receive (view : View) : Push → View
  | .register slots => fun p => (slots.find? (·.port == p)).map fun s => (s.status, s.resident_model)
  | .slot e => Function.update view e.port (some (heard e.status e.resident_model))

def view (pushed : List Push) : View := pushed.foldl receive fun _ => none

end AiroAgent.Channel
