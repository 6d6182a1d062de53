import AiroAgent.Lib.Otp
import AiroAgent.ClusterId

/-!
# The slot owner

Fleet's handlers, as the code has them. A handler takes the whole system: the
table of slots and the unload intents (Fleet's own state), the OTP world its
engines live in, the engine processes that hold a listening socket, and two
records of what has happened, the launches and the published events.

What a handler cannot compute is part of its input: the answer of
`PeerRanks.held?`, the outcome of `start_child` with the fresh pid and ref, what
each poll of the port meets, and the clock.
-/

namespace AiroAgent.Fleet

/-! ## Slots -/

structure Props where
  ctx : Val := .nil
  parallel : Val := .nil
  ctx_total : Val := .nil
  engine_build : Val := .nil
  resolved_profile : Option Profile := none

structure Slot where
  port : Port
  status : Status
  model : Option ModelRef
  profile : Profile
  pid : Option Pid
  ref : Option Ref
  props : Props
  started_at : Option Time

def empty_slot (port : Port) : Slot where
  port := port
  status := .empty
  model := none
  profile := ∅
  pid := none
  ref := none
  props := {}
  started_at := none

def running (slot : Slot) : Bool := slot.pid.isSome

def effective_profile (slot : Slot) : Profile := slot.props.resolved_profile.getD slot.profile

def effective_parallel (slot : Slot) : Val :=
  slot.props.parallel.or ((effective_profile slot).get .parallel)

/-- Only the vLLM adapter exports `cluster_info/2`; an unknown engine raises in
`Engine.adapter/1` and is rescued. -/
def cluster_info (host : Host) (slot : Slot) : Option ClusterInfo :=
  match slot.model with
  | some m =>
    match m.engine with
    | .vllm => Vllm.cluster_info host (effective_profile slot) slot.port
    | .llama_cpp => none
    | .other _ => none
  | none => none

def slot_info (host : Host) (slot : Slot) : SlotInfo :=
  let profile := effective_profile slot
  let cluster := cluster_info host slot
  { port := slot.port
    base_url := "http://" ++ host.advertise_host ++ ":" ++ toString slot.port ++ "/v1"
    status := slot.status
    resident_model := slot.model.map (·.id)
    revision := slot.model.bind (·.revision)
    ctx := slot.props.ctx
    parallel := slot.props.parallel.or (profile.get .parallel)
    ctx_total := slot.props.ctx_total
    engine_build := slot.props.engine_build
    cluster_id := cluster.map (·.cluster_id)
    tp_rank := cluster.map (·.tp_rank)
    tp_size := cluster.map (·.tp_size)
    profile := profile
    started_at := slot.started_at }

def event_of (host : Host) (slot : Slot) (type : EventType) (reason : Option Reason) (now : Time) : Event :=
  let cluster := cluster_info host slot
  { type := type
    port := slot.port
    resident_model := slot.model.map (·.id)
    revision := slot.model.bind (·.revision)
    ctx := slot.props.ctx
    parallel := effective_parallel slot
    ctx_total := slot.props.ctx_total
    engine_build := slot.props.engine_build
    cluster_id := cluster.map (·.cluster_id)
    tp_rank := cluster.map (·.tp_rank)
    tp_size := cluster.map (·.tp_size)
    reason := reason
    time := now }

/-! ## The system -/

abbrev Slots := AList fun _ : Port => Slot

/-- One successful `start_engine`: an engine incarnation. -/
structure Launch where
  port : Port
  pid : Pid
  ref : Ref
  deriving DecidableEq

/-- A published event, with the engine of the slot it was derived from. -/
structure Emission where
  pid : Option Pid
  event : Event

structure Sys where
  slots : Slots
  intent : Finset Port
  otp : Otp.World Pid Ref Reason
  listening : Finset Pid
  launched : List Launch
  events : List Emission

def configured (host : Host) : Slots := (host.slots.map fun p => (⟨p, empty_slot p⟩ : Sigma fun _ : Port => Slot)).toAList

def init (host : Host) : Sys where
  slots := configured host
  intent := ∅
  otp := Otp.World.empty
  listening := ∅
  launched := []
  events := []

def Sys.emit (host : Host) (slot : Slot) (type : EventType) (reason : Option Reason) (now : Time) (s : Sys) : Sys :=
  { s with events := s.events ++ [⟨slot.pid, event_of host slot type reason now⟩] }

def Sys.put (port : Port) (slot : Slot) (s : Sys) : Sys := { s with slots := s.slots.insert port slot }

def find_by_pid (slots : Slots) (pid : Pid) : Option (Sigma fun _ : Port => Slot) :=
  slots.entries.find? fun e => e.2.pid == some pid

def find_by_ref (slots : Slots) (ref : Ref) : Option (Sigma fun _ : Port => Slot) :=
  slots.entries.find? fun e => e.2.ref == some ref

/-! ## Waiting for a port

`connect` succeeds only when something listens on the port: an engine Fleet
launched there, or a process it knows nothing of. It may fail all the same, as
when it is not accepted in time or no descriptor is left for it; the loop takes
any error for a free port. While it sleeps, some of the engine processes let
their socket go.
-/

structure Poll where
  foreign : Bool := false
  failed : Bool := false
  released : Finset Pid := ∅

def engine_listens (port : Port) (s : Sys) : Bool :=
  s.launched.any fun l => l.port == port && decide (l.pid ∈ s.listening)

/-- The number of polls made, and the system after them. -/
def await_port_free (port : Port) : Nat → List Poll → Sys → Nat × Sys
  | 0, _, s => (0, s)
  | tries + 1, polls, s =>
    let poll := polls.head?.getD {}
    if !poll.failed && (poll.foreign || engine_listens port s) then
      let (n, s) := await_port_free port tries polls.tail { s with listening := s.listening \ poll.released }
      (n + 1, s)
    else (1, s)

/-! ## Starting and stopping an engine -/

/-- `early`: the engine is already dead when Fleet monitors it. -/
inductive StartChild where
  | ok (pid : Pid) (ref : Ref) (early : Option Reason)
  | error (reason : Reason)

structure LoadCall where
  model : ModelRef
  port : Port
  profile : Profile
  held : Bool := false
  polls : List Poll := []
  start : StartChild
  now : Time := 0

-- A slot never holds a pid without a ref; `demonitor(nil)` would raise.
def free_running (slot : Slot) (s : Sys) : Sys :=
  match slot.pid, slot.ref with
  | some pid, some ref => { s with otp := (s.otp.demonitor_flush ref).terminate_child pid .shutdown }
  | _, _ => s

def start_world (pid : Pid) (ref : Ref) (early : Option Reason) (w : Otp.World Pid Ref Reason) :
    Otp.World Pid Ref Reason :=
  match early with
  | none => (w.start_child pid).monitor ref pid .noproc
  | some reason => ((w.start_child pid).exit pid reason).monitor ref pid .noproc

def start_engine (c : LoadCall) (s : Sys) : Except Reason Slot × Sys :=
  match c.start with
  | .ok pid ref early =>
    (.ok
      { port := c.port
        status := .loading
        model := some c.model
        profile := c.profile
        pid := some pid
        ref := some ref
        props := {}
        started_at := some c.now },
      { s with otp := start_world pid ref early s.otp, launched := s.launched ++ [⟨c.port, pid, ref⟩] })
  | .error reason => (.error reason, s)

/-! ## Handlers -/

inductive LoadError where
  | peer_rank_resident
  | unknown_slot
  | start_failed (reason : Reason)
  deriving DecidableEq

/-- The guard of the idempotent branch: up, the same model id, the same profile. -/
def already_serving (slot : Slot) (model : ModelRef) (profile : Profile) : Bool :=
  match slot.status, slot.model with
  | .up, some resident => resident.id == model.id && slot.profile.eq profile
  | _, _ => false

/-- Evict whatever is resident, and wait for the port. Without a resident there
is no wait: `none` polls. -/
def make_room (host : Host) (c : LoadCall) (slot : Slot) (s : Sys) : Option Nat × Sys :=
  if running slot then
    let (n, s) := await_port_free c.port host.port_free_tries c.polls (free_running slot s)
    (some n, s)
  else (none, s)

def do_load (host : Host) (c : LoadCall) (s : Sys) : Except LoadError SlotInfo × Sys :=
  match s.slots.lookup c.port with
  | none => (.error .unknown_slot, s)
  | some slot =>
    if already_serving slot c.model c.profile then (.ok (slot_info host slot), s)
    else
      match start_engine c (make_room host c slot s).2 with
      | (.ok started, s) => (.ok (slot_info host started), (s.put c.port started).emit host started .loading none c.now)
      | (.error reason, s) => (.error (.start_failed reason), s.put c.port (empty_slot c.port))

def handle_call_load (host : Host) (c : LoadCall) (s : Sys) : Except LoadError SlotInfo × Sys :=
  if c.held then (.error .peer_rank_resident, s) else do_load host c s

-- The intent goes in before the terminate, so that the `:DOWN` reads as `:unloaded`.
def do_unload (port : Port) (s : Sys) : Except LoadError Unit × Sys :=
  match s.slots.lookup port with
  | some slot =>
    match slot.pid with
    | some pid =>
      (.ok (), { s with intent := insert port s.intent, otp := s.otp.terminate_child pid .shutdown })
    | none => (.ok (), s)
  | none => (.error .unknown_slot, s)

def handle_call_unload (port : Port) (held : Bool) (s : Sys) : Except LoadError Unit × Sys :=
  if held then (.error .peer_rank_resident, s) else do_unload port s

def own_slots (host : Host) (s : Sys) : List SlotInfo := s.slots.entries.map fun e => slot_info host e.2

def handle_call_slots (host : Host) (peers : List SlotInfo) (s : Sys) : List SlotInfo := own_slots host s ++ peers

def handle_cast_mark_up (host : Host) (pid : Pid) (props : Props) (now : Time) (s : Sys) : Sys :=
  match find_by_pid s.slots pid with
  | some ⟨port, slot⟩ =>
    if slot.status = .loading then
      let slot := { slot with status := .up, props := props }
      (s.emit host slot .up none now).put port slot
    else s
  | none => s

def terminal_type (expected : Bool) (slot : Slot) : EventType :=
  if expected then .unloaded
  else if slot.status = .loading then .failed
  else .down

def handle_info_down (host : Host) (d : Otp.Down Pid Ref Reason) (now : Time) (s : Sys) : Sys :=
  match find_by_ref s.slots d.ref with
  | some ⟨port, slot⟩ =>
    let expected := decide (port ∈ s.intent)
    let s := { s with slots := s.slots.insert port (empty_slot port), intent := s.intent.erase port }
    s.emit host slot (terminal_type expected slot) (if expected then none else some d.reason) now
  | none => s

end AiroAgent.Fleet
