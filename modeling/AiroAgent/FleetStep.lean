import AiroAgent.Lib.Run
import AiroAgent.Fleet

/-!
# Steps and runs of Fleet

An input is a message Fleet handles, or a move of its surroundings: an engine
dies, or starts or stops listening. Fleet takes its messages in any order, so a
run of inputs stands for every interleaving of clients, engines and `:DOWN`
signals. OTP gives fresh pids and refs, only a launched engine casts
`mark_up`, only a pending `:DOWN` is handled, and only a live engine dies.

`step_trans` says once what a step can do, branch by branch.
-/

namespace AiroAgent.Fleet

inductive Input where
  | load (c : LoadCall)
  | unload (port : Port) (held : Bool)
  | mark_up (pid : Pid) (props : Props) (now : Time)
  | down (d : Otp.Down Pid Ref Reason) (now : Time)
  | exit (pid : Pid) (reason : Reason)
  | bind (pid : Pid)
  | release (pid : Pid)

def fresh (launched : List Launch) : StartChild → Bool
  | .ok pid ref _ => launched.all fun l => l.pid != pid && l.ref != ref
  | .error _ => true

def step (host : Host) (s : Sys) : Input → Option Sys
  | .load c => if fresh s.launched c.start then some (handle_call_load host c s).2 else none
  | .unload port held => some (handle_call_unload port held s).2
  | .mark_up pid props now =>
    if s.launched.any (·.pid == pid) then some (handle_cast_mark_up host pid props now s) else none
  | .down d now =>
    if d ∈ s.otp.mailbox then some (handle_info_down host d now { s with otp := s.otp.receive d }) else none
  | .exit pid reason => if pid ∈ s.otp.children then some { s with otp := s.otp.exit pid reason } else none
  | .bind pid => if pid ∈ s.otp.children then some { s with listening := insert pid s.listening } else none
  | .release pid => some { s with listening := s.listening.erase pid }

abbrev History := List (Sys × Input)

abbrev Run (host : Host) : History → Sys → Prop := Machine.Run (step host) (init host)

/-! ## Waiting changes only who listens -/

theorem await_port_free_eq (port : Port) : ∀ (tries : Nat) (polls : List Poll) (s : Sys),
    (await_port_free port tries polls s).2 =
      { s with listening := (await_port_free port tries polls s).2.listening }
  | 0, _, _ => rfl
  | tries + 1, polls, s => by
    rw [await_port_free]
    by_cases h : (!(polls.head?.getD {}).failed && ((polls.head?.getD {}).foreign || engine_listens port s)) = true
    · simp only [h, if_true]
      rw [await_port_free_eq port tries]
    · simp only [h]
      rfl

/-- The OTP world once the resident engine is evicted. -/
def room (slot : Slot) (w : Otp.World Pid Ref Reason) : Otp.World Pid Ref Reason :=
  match slot.pid, slot.ref with
  | some pid, some ref => (w.demonitor_flush ref).terminate_child pid .shutdown
  | _, _ => w

theorem free_running_eq (slot : Slot) (s : Sys) : free_running slot s = { s with otp := room slot s.otp } := by
  obtain ⟨_, _, _, _, pid, ref, _, _⟩ := slot
  unfold free_running room
  cases pid <;> cases ref <;> rfl

theorem room_of_not_running {slot : Slot} (h : running slot = false) (w : Otp.World Pid Ref Reason) :
    room slot w = w := by
  unfold running at h
  unfold room
  cases hp : slot.pid with
  | none => rfl
  | some pid => rw [hp] at h; cases h

theorem make_room_eq (host : Host) (c : LoadCall) (slot : Slot) (s : Sys) :
    (make_room host c slot s).2 =
      { s with otp := room slot s.otp, listening := (make_room host c slot s).2.listening } := by
  unfold make_room
  cases h : running slot with
  | true =>
    simp only [if_true]
    rw [await_port_free_eq, free_running_eq]
  | false =>
    simp only [Bool.false_eq_true, if_false]
    rw [room_of_not_running h]

/-! ## What a step can do -/

def started (c : LoadCall) (pid : Pid) (ref : Ref) : Slot where
  port := c.port
  status := .loading
  model := some c.model
  profile := c.profile
  pid := some pid
  ref := some ref
  props := {}
  started_at := some c.now

/-- The load gets past the guards, to `start_engine`, in a slot of the table. -/
structure Launches (s : Sys) (c : LoadCall) (slot : Slot) : Prop where
  free : c.held = false
  found : s.slots.lookup c.port = some slot
  other : already_serving slot c.model c.profile = false

inductive Trans (host : Host) (s : Sys) : Input → Sys → Prop
  | load_noop {c} : (∀ slot, ¬ Launches s c slot) → Trans host s (.load c) s
  | load_start {c slot pid ref early} (l : Finset Pid) : Launches s c slot → c.start = .ok pid ref early →
      fresh s.launched c.start = true →
      Trans host s (.load c)
        { slots := s.slots.insert c.port (started c pid ref)
          intent := s.intent
          otp := start_world pid ref early (room slot s.otp)
          listening := l
          launched := s.launched ++ [⟨c.port, pid, ref⟩]
          events := s.events ++ [⟨some pid, event_of host (started c pid ref) .loading none c.now⟩] }
  | load_fail {c slot reason} (l : Finset Pid) : Launches s c slot → c.start = .error reason →
      Trans host s (.load c)
        { s with slots := s.slots.insert c.port (empty_slot c.port), otp := room slot s.otp, listening := l }
  | unload_noop {port held} :
      (held = true ∨ ∀ slot, s.slots.lookup port = some slot → slot.pid = none) → Trans host s (.unload port held) s
  | unload {port slot pid} : s.slots.lookup port = some slot → slot.pid = some pid →
      Trans host s (.unload port false)
        { s with intent := insert port s.intent, otp := s.otp.terminate_child pid .shutdown }
  | mark_up_noop {pid props now} : (∃ l ∈ s.launched, l.pid = pid) →
      (∀ e, find_by_pid s.slots pid = some e → e.2.status ≠ .loading) → Trans host s (.mark_up pid props now) s
  | mark_up {pid props now port slot} : (∃ l ∈ s.launched, l.pid = pid) →
      find_by_pid s.slots pid = some ⟨port, slot⟩ → slot.status = .loading →
      Trans host s (.mark_up pid props now)
        { s with
          slots := s.slots.insert port { slot with status := .up, props := props }
          events := s.events ++ [⟨slot.pid, event_of host { slot with status := .up, props := props } .up none now⟩] }
  | down_noop {d now} : d ∈ s.otp.mailbox → find_by_ref s.slots d.ref = none →
      Trans host s (.down d now) { s with otp := s.otp.receive d }
  | down {d now port slot} : d ∈ s.otp.mailbox → find_by_ref s.slots d.ref = some ⟨port, slot⟩ →
      Trans host s (.down d now)
        { s with
          slots := s.slots.insert port (empty_slot port)
          intent := s.intent.erase port
          otp := s.otp.receive d
          events := s.events ++ [⟨slot.pid, event_of host slot (terminal_type (decide (port ∈ s.intent)) slot)
            (if port ∈ s.intent then none else some d.reason) now⟩] }
  | exit {pid reason} : pid ∈ s.otp.children → Trans host s (.exit pid reason) { s with otp := s.otp.exit pid reason }
  | bind {pid} : pid ∈ s.otp.children → Trans host s (.bind pid) { s with listening := insert pid s.listening }
  | release {pid} : Trans host s (.release pid) { s with listening := s.listening.erase pid }

theorem start_engine_ok {c : LoadCall} {pid : Pid} {ref : Ref} {early : Option Reason}
    (h : c.start = .ok pid ref early) (s : Sys) :
    start_engine c s = (.ok (started c pid ref),
      { s with otp := start_world pid ref early s.otp, launched := s.launched ++ [⟨c.port, pid, ref⟩] }) := by
  unfold start_engine; rw [h]; rfl

theorem start_engine_error {c : LoadCall} {reason : Reason} (h : c.start = .error reason) (s : Sys) :
    start_engine c s = (.error reason, s) := by
  unfold start_engine; rw [h]

theorem do_load_launches {host : Host} {s : Sys} {c : LoadCall} {slot : Slot} (h : Launches s c slot) :
    handle_call_load host c s =
      match start_engine c (make_room host c slot s).2 with
      | (.ok started, s) => (.ok (slot_info host started), (s.put c.port started).emit host started .loading none c.now)
      | (.error reason, s) => (.error (.start_failed reason), s.put c.port (empty_slot c.port)) := by
  unfold handle_call_load do_load
  rw [h.free, h.found]
  simp only [h.other, Bool.false_eq_true]
  exact (if_neg not_false).trans (if_neg not_false)

theorem handle_call_load_noop {host : Host} {s : Sys} {c : LoadCall} (h : ∀ slot, ¬ Launches s c slot) :
    (handle_call_load host c s).2 = s := by
  unfold handle_call_load do_load
  cases hh : c.held with
  | true => rfl
  | false =>
    simp only [Bool.false_eq_true, if_false]
    cases hl : s.slots.lookup c.port with
    | none => rfl
    | some slot =>
      cases ha : already_serving slot c.model c.profile with
      | true => simp only [ha, if_true]
      | false => exact absurd ⟨hh, hl, ha⟩ (h slot)

theorem load_started {host : Host} {s : Sys} {c : LoadCall} {slot : Slot} {pid : Pid} {ref : Ref}
    {early : Option Reason} (h : Launches s c slot) (hs : c.start = .ok pid ref early) :
    (handle_call_load host c s).2 =
      { slots := s.slots.insert c.port (started c pid ref)
        intent := s.intent
        otp := start_world pid ref early (room slot s.otp)
        listening := (make_room host c slot s).2.listening
        launched := s.launched ++ [⟨c.port, pid, ref⟩]
        events := s.events ++ [⟨some pid, event_of host (started c pid ref) .loading none c.now⟩] } := by
  rw [do_load_launches h, start_engine_ok hs, make_room_eq]
  rfl

theorem load_failed {host : Host} {s : Sys} {c : LoadCall} {slot : Slot} {reason : Reason} (h : Launches s c slot)
    (hs : c.start = .error reason) :
    (handle_call_load host c s).2 =
      { s with
        slots := s.slots.insert c.port (empty_slot c.port)
        otp := room slot s.otp
        listening := (make_room host c slot s).2.listening } := by
  rw [do_load_launches h, start_engine_error hs, make_room_eq]
  rfl

theorem load_trans (host : Host) (s : Sys) (c : LoadCall) (hf : fresh s.launched c.start = true) :
    Trans host s (.load c) (handle_call_load host c s).2 := by
  by_cases h : ∃ slot, Launches s c slot
  · obtain ⟨slot, h⟩ := h
    cases hs : c.start with
    | ok pid ref early => rw [load_started h hs]; exact .load_start _ h hs hf
    | error reason => rw [load_failed h hs]; exact .load_fail _ h hs
  · rw [handle_call_load_noop fun slot hl => h ⟨slot, hl⟩]
    exact .load_noop fun slot hl => h ⟨slot, hl⟩

theorem unload_trans (host : Host) (s : Sys) (port : Port) (held : Bool) :
    Trans host s (.unload port held) (handle_call_unload port held s).2 := by
  unfold handle_call_unload do_unload
  cases held with
  | true => exact .unload_noop (.inl rfl)
  | false =>
    simp only [Bool.false_eq_true, if_false]
    cases hl : s.slots.lookup port with
    | none => exact .unload_noop (.inr fun slot h => by rw [hl] at h; cases h)
    | some slot =>
      cases hp : slot.pid with
      | none =>
        simp only [hp]
        exact .unload_noop (.inr fun slot' h => by rw [hl] at h; cases h; exact hp)
      | some pid =>
        simp only [hp]
        exact .unload hl hp

theorem mark_up_trans (host : Host) (s : Sys) (pid : Pid) (props : Props) (now : Time)
    (hk : ∃ l ∈ s.launched, l.pid = pid) :
    Trans host s (.mark_up pid props now) (handle_cast_mark_up host pid props now s) := by
  unfold handle_cast_mark_up
  cases hf : find_by_pid s.slots pid with
  | none => exact .mark_up_noop hk fun e he => by rw [hf] at he; cases he
  | some e =>
    obtain ⟨port, slot⟩ := e
    by_cases hs : slot.status = .loading
    · simp only [hs, if_true]
      exact .mark_up hk hf hs
    · simp only [hs, if_false]
      exact .mark_up_noop hk fun e he => by rw [hf] at he; cases he; exact hs

theorem down_trans (host : Host) (s : Sys) (d : Otp.Down Pid Ref Reason) (now : Time) (hd : d ∈ s.otp.mailbox) :
    Trans host s (.down d now) (handle_info_down host d now { s with otp := s.otp.receive d }) := by
  unfold handle_info_down
  cases hf : find_by_ref s.slots d.ref with
  | none => exact .down_noop hd hf
  | some e =>
    obtain ⟨port, slot⟩ := e
    have h := @Trans.down host s d now port slot hd hf
    simpa [Sys.emit] using h

theorem step_trans {host : Host} {s s' : Sys} {i : Input} (h : step host s i = some s') : Trans host s i s' := by
  cases i with
  | load c =>
    simp only [step, Option.ite_none_right_eq_some, Option.some.injEq] at h
    obtain ⟨hf, rfl⟩ := h
    exact load_trans host s c hf
  | unload port held => cases h; exact unload_trans host s port held
  | mark_up pid props now =>
    simp only [step, Option.ite_none_right_eq_some, Option.some.injEq] at h
    obtain ⟨hk, rfl⟩ := h
    refine mark_up_trans host s pid props now ?_
    simpa using hk
  | down d now =>
    simp only [step, Option.ite_none_right_eq_some, Option.some.injEq] at h
    obtain ⟨hd, rfl⟩ := h
    exact down_trans host s d now hd
  | exit pid reason =>
    simp only [step, Option.ite_none_right_eq_some, Option.some.injEq] at h
    obtain ⟨hp, rfl⟩ := h
    exact .exit hp
  | bind pid =>
    simp only [step, Option.ite_none_right_eq_some, Option.some.injEq] at h
    obtain ⟨hp, rfl⟩ := h
    exact .bind hp
  | release pid => cases h; exact .release

end AiroAgent.Fleet
