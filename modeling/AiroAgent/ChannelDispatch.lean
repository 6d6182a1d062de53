import AiroAgent.Channel

/-!
# What the callbacks return

The dispatch of `slipstream` goes on with the socket of an `{:ok, socket}` or a
`{:noreply, socket}` and crashes the client on any other return. A callback
that pushes a register waits for the GPU poller and for Fleet first, and exits
without a return when one of them is late: Fleet answers nobody while it swaps
an engine. The callback that returns no socket is the last the client runs.
-/

namespace AiroAgent.Channel

/-- One callback: what it is called with, and what the calls inside it come to. -/
structure Callback where
  message : Message
  calls : Calls

/-- What a callback returns, or why it exits. -/
def callback (c : Callback) (socket : Socket) : Except String Returned :=
  match dispatch c.message socket with
  | (r, .register) => (push_register c.calls).map fun _ => r
  | (r, .nothing) => .ok r
  | (r, .slot _) => .ok r

def Returned.socket : Returned → Option Socket
  | .ok socket => some socket
  | .noreply socket => some socket
  | .ok_result _ => none

def returned_socket : Except String Returned → Option Socket
  | .ok r => r.socket
  | .error _ => none

/-- What the callbacks return, one after the other. -/
def returns : Socket → List Callback → List (Except String Returned)
  | _, [] => []
  | socket, c :: cs =>
    let r := callback c socket
    match returned_socket r with
    | some socket => r :: returns socket cs
    | none => [r]

/-! ## What one callback needs -/

def rejoin_refused : Message → Bool
  | .topic_close (.error _) _ => true
  | _ => false

/-- The callback pushes a register: after a join, for a resync, and for a heartbeat
of a connected client that has joined. -/
def registers (socket : Socket) : Message → Bool
  | .join => true
  | .message event => event = "resync"
  | .heartbeat => socket.connected && socket.joined
  | .publish _ | .connect | .disconnect _ | .topic_close _ _ => false

def Calls.answered (calls : Calls) : Bool := calls.snapshot.isOk && calls.slots.isOk

def undisturbed (c : Callback) (socket : Socket) : Bool :=
  !rejoin_refused c.message && (!registers socket c.message || c.calls.answered)

theorem push_register_isOk (calls : Calls) : (push_register calls).isOk = calls.answered := by
  obtain ⟨snapshot, slots⟩ := calls
  cases snapshot with
  | error _ => rfl
  | ok _ =>
    cases slots with
    | error _ => rfl
    | ok _ => rfl

theorem returned_socket_register (r : Returned) (calls : Calls) :
    returned_socket ((push_register calls).map fun _ => r) = if calls.answered then r.socket else none := by
  rw [← push_register_isOk]
  cases push_register calls with
  | error _ => rfl
  | ok _ => rfl

/-- A callback that nothing disturbs returns the socket as `slipstream` brought it up
to date, and any other returns none. -/
theorem callback_socket (c : Callback) (socket : Socket) :
    returned_socket (callback c socket) =
      if undisturbed c socket then some (apply_event c.message socket) else none := by
  obtain ⟨m, calls⟩ := c
  unfold callback undisturbed
  cases m with
  | publish e =>
    simp only [dispatch, handle_info_publish, apply_event]
    by_cases hj : socket.joined = true
    · simp [hj, rejoin_refused, registers, Returned.socket, returned_socket]
    · simp [hj, rejoin_refused, registers, Returned.socket, returned_socket]
  | connect => rfl
  | join =>
    simp only [dispatch, handle_join]
    rw [returned_socket_register]
    simp [registers, rejoin_refused, Returned.socket]
  | message event =>
    simp only [dispatch, handle_message, registers]
    by_cases h : event = "resync"
    · simp only [h, if_true, decide_true]
      rw [returned_socket_register]
      simp [rejoin_refused, Returned.socket]
    · simp [h, rejoin_refused, Returned.socket, returned_socket]
  | disconnect reconnected =>
    cases reconnected with
    | ok _ => rfl
    | error _ => rfl
  | topic_close rejoined reconnected =>
    cases rejoined with
    | ok _ => rfl
    -- `reconnect/1` is a tuple whatever its outcome, so the return is nested either way
    | error _ => rfl
  | heartbeat =>
    simp only [dispatch, handle_info_heartbeat, apply_event, registers]
    by_cases hj : (socket.connected && socket.joined) = true
    · simp only [hj, if_true]
      rw [returned_socket_register]
      simp [rejoin_refused, Returned.socket]
    · simp [hj, rejoin_refused, Returned.socket, returned_socket]

/-! ## A sequence of callbacks -/

/-- The socket as the callbacks so far leave it. -/
def socket_after (socket : Socket) (cs : List Callback) : Socket :=
  cs.foldl (fun socket c => apply_event c.message socket) socket

/-- No close of the sequence has its rejoin refused, and the calls of every callback
that registers are answered. -/
def Undisturbed (socket : Socket) (cs : List Callback) : Prop :=
  ∀ pre c post, cs = pre ++ c :: post → rejoin_refused c.message = false ∧
    (registers (socket_after socket pre) c.message = true → c.calls.answered = true)

theorem undisturbed_iff (c : Callback) (socket : Socket) : undisturbed c socket = true ↔
    rejoin_refused c.message = false ∧ (registers socket c.message = true → c.calls.answered = true) := by
  simp only [undisturbed, Bool.and_eq_true, Bool.not_eq_true', Bool.or_eq_true]
  cases registers socket c.message with
  | true => simp
  | false => simp

theorem undisturbed_nil (socket : Socket) : Undisturbed socket [] := by
  intro pre c post h
  simp at h

theorem undisturbed_cons (socket : Socket) (c : Callback) (cs : List Callback) :
    Undisturbed socket (c :: cs) ↔ undisturbed c socket = true ∧ Undisturbed (apply_event c.message socket) cs := by
  rw [undisturbed_iff]
  constructor
  · intro h
    exact ⟨h [] c cs rfl, fun pre c' post he => h (c :: pre) c' post (by rw [he]; rfl)⟩
  · rintro ⟨hc, hcs⟩ pre c' post he
    cases pre with
    | nil => cases he; exact hc
    | cons _ pre => cases he; exact hcs pre c' post rfl

/-- **Airo going away.** Every callback of a sequence returns a socket if and only
if no close of the sequence has its rejoin refused, and every register of the
sequence gets the snapshot and the slots it asks for in time. -/
theorem returns_socket_iff (socket : Socket) (cs : List Callback) :
    (∀ r ∈ returns socket cs, (returned_socket r).isSome = true) ↔ Undisturbed socket cs := by
  induction cs generalizing socket with
  | nil => simp [returns, undisturbed_nil]
  | cons c cs ih =>
    have hc := callback_socket c socket
    rw [returns, undisturbed_cons]
    cases hu : undisturbed c socket with
    | true =>
      rw [if_pos hu] at hc
      simp only [hc, List.forall_mem_cons, Option.isSome_some, true_and, ih]
    | false =>
      rw [hu, if_neg (by decide)] at hc
      simp [hc]

/-- Airo rejects the join of a connected client: the close finds no join to repeat,
and the fallback returns the tuple of `reconnect/1` inside another. -/
theorem refused_join_returns_no_socket :
    ¬ ∀ r ∈ returns {} [⟨.connect, ⟨.ok (), .ok []⟩⟩, ⟨.topic_close (.error "never_joined") (.ok ()), ⟨.ok (), .ok []⟩⟩],
      (returned_socket r).isSome = true := by
  intro h
  exact absurd (h (.ok (.ok_result (.ok { connected := true }))) (by simp [returns, callback, dispatch, apply_event,
    handle_connect, handle_topic_close, rejoin, reconnect, Except.map, returned_socket, Returned.socket])) (by decide)

end AiroAgent.Channel
