import AiroAgent.FleetLife
import AiroAgent.InstanceLife

/-!
# Fleet and its instances

Fleet takes the word of an `Instance` for a slot being up. Here the instances
run beside it: each asks its own engine on its own timer, and its `mark_up` is a
cast that takes its time. Signals of one process to another keep their order, so
a `:DOWN` is not handled before the cast its process sent earlier.
-/

namespace AiroAgent

structure Serving where
  fleet : Fleet.Sys
  instances : Pid → Option Instance.State
  casts : List (Pid × Fleet.Props)

namespace Serving

open Fleet (Sys Slot Props LoadCall Launches pids)

inductive Input where
  | load (c : LoadCall) (daemon : Except Reason Unit) (pid : Pid) (ref : Ref) (early : Option Reason)
  | fleet (i : Fleet.Input)
  | check_ready (pid : Pid) (http : Http)
  | mark_up (pid : Pid) (now : Time)

def init (host : Host) : Serving := ⟨Fleet.init host, fun _ => none, []⟩

/-- The outcome of `start_child` is that of `Instance.init/1`. -/
def call (host : Host) (c : LoadCall) (daemon : Except Reason Unit) (pid : Pid) (ref : Ref) (early : Option Reason) :
    LoadCall :=
  { c with start := Instance.start_child host c.model c.profile c.port daemon pid ref early }

/-- The other messages of Fleet, and the moves of its surroundings. -/
def passes (casts : List (Pid × Props)) : Fleet.Input → Bool
  | .load _ | .mark_up _ _ _ => false
  | .down d _ => casts.all (·.1 != d.pid)
  | .unload _ _ | .exit _ _ | .bind _ | .release _ => true

def step (host : Host) (n : Serving) : Input → Option Serving
  | .load c daemon pid ref early =>
    (Fleet.step host n.fleet (.load (call host c daemon pid ref early))).map fun s =>
      { n with
        fleet := s
        instances :=
          if s.launched = n.fleet.launched then n.instances
          else Function.update n.instances pid (Instance.started host c.model c.profile c.port) }
  | .fleet i => if passes n.casts i then (Fleet.step host n.fleet i).map fun s => { n with fleet := s } else none
  | .check_ready pid http =>
    match n.instances pid with
    | some st =>
      if pid ∈ n.fleet.otp.children ∧ 0 < st.timers then
        let (props, st) := Instance.check_ready http st
        some { n with
          instances := Function.update n.instances pid (some st)
          casts := n.casts ++ (props.map fun props => (pid, props)).toList }
      else none
    | none => none
  | .mark_up pid now =>
    match n.casts.find? (·.1 = pid) with
    | some (_, props) =>
      (Fleet.step host n.fleet (.mark_up pid props now)).map fun s =>
        { n with fleet := s, casts := n.casts.filter (·.1 ≠ pid) }
    | none => none

abbrev History := List (Serving × Input)

abbrev Run (host : Host) : History → Serving → Prop := Machine.Run (step host) (init host)

/-! ## What was cast -/

def cast_of (n : Serving) : Input → Option (Pid × Props)
  | .check_ready pid http => (n.instances pid).bind fun st => (Instance.check_ready http st).1.map fun props => (pid, props)
  | .load _ _ _ _ _ | .fleet _ | .mark_up _ _ => none

/-- What the instance `pid` ever told Fleet. -/
def marks (pid : Pid) (h : History) : List Props :=
  ((h.filterMap fun x => cast_of x.1 x.2).filter (·.1 = pid)).map (·.2)

section
variable {n : Serving} {i : Input} {h : History} {pid q : Pid} {props : Props}

theorem marks_snoc : marks pid (h ++ [(n, i)]) =
    marks pid h ++ (((cast_of n i).toList).filter (·.1 = pid)).map (·.2) := by
  unfold marks
  rw [List.filterMap_append, List.filter_append, List.map_append]
  cases hc : cast_of n i <;> simp [hc]

theorem marks_silent (hc : cast_of n i = none) : marks pid (h ++ [(n, i)]) = marks pid h := by
  rw [marks_snoc, hc]
  exact List.append_nil _

theorem marks_self (hc : cast_of n i = some (pid, props)) : marks pid (h ++ [(n, i)]) = marks pid h ++ [props] := by
  rw [marks_snoc, hc]
  simp

theorem marks_other (hc : cast_of n i = some (q, props)) (hq : pid ≠ q) : marks pid (h ++ [(n, i)]) = marks pid h := by
  rw [marks_snoc, hc]
  simp [Ne.symm hq]

theorem mem_marks : props ∈ marks pid h ↔ ∃ x ∈ h, cast_of x.1 x.2 = some (pid, props) := by
  simp only [marks, List.mem_map, List.mem_filter, List.mem_filterMap, decide_eq_true_eq]
  constructor
  · intro hx
    obtain ⟨⟨q, props'⟩, ⟨⟨x, hx, he⟩, rfl⟩, rfl⟩ := hx
    exact ⟨x, hx, he⟩
  · intro hx
    obtain ⟨x, hx, he⟩ := hx
    exact ⟨(pid, props), ⟨⟨x, hx, he⟩, rfl⟩, rfl⟩

end

/-! ## The invariant -/

/-- An instance waits and has said nothing, or is ready and has said it once. -/
inductive Spoken (h : History) (pid : Pid) (st : Instance.State) : Prop
  | waiting : st.ready = false → st.timers = 1 → marks pid h = [] → Spoken h pid st
  | ready {props : Props} : st.ready = true → st.timers = 0 → marks pid h = [props] →
      props.resolved_profile = some st.resolved_profile → Spoken h pid st

structure Serves (host : Host) (h : History) (n : Serving) (slot : Slot) (pid : Pid) : Prop where
  state : ∃ st model, n.instances pid = some st ∧ slot.model = some model ∧ st.model = model ∧
    st.resolved_profile = Instance.resolved_profile host model slot.profile
  loading : slot.status = .loading → marks pid h = [] ∨ ∃ props, (pid, props) ∈ n.casts
  up : slot.status = .up → marks pid h = [slot.props] ∧ ∀ c ∈ n.casts, c.1 ≠ pid

def Told (h : History) (s : Sys) (pid : Pid) : EventType → Prop
  | .failed => pid ∉ s.otp.children ∧ marks pid h = []
  | .up | .down => marks pid h ≠ []
  | .loading | .unloaded => True

structure Inv (host : Host) (h : History) (n : Serving) : Prop where
  fleet : Fleet.Inv host n.fleet
  attributed : Fleet.Attributed n.fleet
  unborn : ∀ pid, pid ∉ pids n.fleet.launched → marks pid h = []
  spoken : ∀ pid ∈ pids n.fleet.launched, ∃ st, n.instances pid = some st ∧ Spoken h pid st
  casts : ∀ c ∈ n.casts, marks c.1 h = [c.2]
  slot : ∀ port slot pid, n.fleet.slots.lookup port = some slot → slot.pid = some pid → Serves host h n slot pid
  told : ∀ e ∈ n.fleet.events, ∀ pid, e.pid = some pid → Told h n.fleet pid e.event.type

section
variable {host : Host} {h h' : History} {n n' : Serving} {s : Sys} {pid : Pid} {slot : Slot} {port : Port} {i : Input} {now : Time}

theorem inv_init (host : Host) : Inv host [] (init host) where
  fleet := Fleet.inv_init host
  attributed := by
    intro e he
    cases he
  unborn _ _ := rfl
  spoken pid hp := by
    obtain ⟨l, hl, -⟩ := hp
    cases hl
  casts c hc := by cases hc
  slot port slot pid hl hp := by
    obtain ⟨ref, hR⟩ := (Fleet.inv_init host).resident hl hp
    cases hR.launched
  told e he := by cases he

theorem Told.mono {t : EventType} {s' : Sys} (ht : Told h s pid t) (hm : marks pid h' = marks pid h)
    (hc : pid ∈ s'.otp.children → pid ∈ s.otp.children) : Told h' s' pid t := by
  cases t with
  | failed => exact ⟨fun hx => ht.1 (hc hx), hm.trans ht.2⟩
  | up => exact fun hx => ht (hm.symm.trans hx)
  | down => exact fun hx => ht (hm.symm.trans hx)
  | loading => trivial
  | unloaded => trivial

theorem Inv.born (hI : Inv host h n) {e : Fleet.Emission} (he : e ∈ n.fleet.events) (hp : e.pid = some pid) :
    pid ∈ pids n.fleet.launched := by
  obtain ⟨l, hl, hpid, -⟩ := hI.attributed e he
  exact ⟨l, hl, Option.some.inj (hpid.symm.trans hp)⟩

/-- A step of Fleet that starts nothing, and moves the engines of no slot, keeps the invariant. -/
theorem Inv.of_fleet (hI : Inv host h n) {j : Fleet.Input} (hst : Fleet.step host n.fleet j = some s)
    (hc : cast_of n i = none) (hlaunched : s.launched = n.fleet.launched)
    (hslots : ∀ port slot pid, s.slots.lookup port = some slot → slot.pid = some pid → n.fleet.slots.lookup port = some slot)
    (hevents : ∀ e ∈ s.events, e ∈ n.fleet.events ∨ ∀ pid, e.pid = some pid → Told h s pid e.event.type)
    (hchildren : ∀ pid ∈ s.otp.children, pid ∈ n.fleet.otp.children) :
    Inv host (h ++ [(n, i)]) { n with fleet := s } where
  fleet := Fleet.inv_step hI.fleet hst
  attributed := Fleet.attributed_step hI.fleet hI.attributed hst
  unborn pid hp := by
    rw [marks_silent hc]
    exact hI.unborn pid (hlaunched ▸ hp)
  spoken pid hp := by
    obtain ⟨st, hst, hs⟩ := hI.spoken pid (hlaunched ▸ hp)
    refine ⟨st, hst, ?_⟩
    have hm : marks pid (h ++ [(n, i)]) = marks pid h := marks_silent hc
    cases hs with
    | waiting hr ht hn => exact .waiting hr ht (hm.trans hn)
    | ready hr ht hn hp => exact .ready hr ht (hm.trans hn) hp
  casts c hx := (marks_silent hc).trans (hI.casts c hx)
  slot port slot pid hl hp := by
    have hs := hI.slot port slot pid (hslots port slot pid hl hp) hp
    refine ⟨hs.state, fun hx => ?_, fun hx => ?_⟩
    · rw [marks_silent hc]
      exact hs.loading hx
    · rw [marks_silent hc]
      exact hs.up hx
  told e he pid hp := by
    rcases hevents e he with hold | hnew
    · exact (hI.told e hold pid hp).mono (marks_silent hc) (hchildren pid)
    · exact (hnew pid hp).mono (marks_silent hc) id

/-! ## Every step keeps it -/

theorem status_of_not_empty (hne : slot.status ≠ .empty) (hnl : slot.status ≠ .loading) : slot.status = .up := by
  cases hs : slot.status with
  | empty => exact absurd hs hne
  | loading => exact absurd hs hnl
  | up => rfl

theorem told_down (hI : Inv host h n) {d : Otp.Down Pid Ref Reason} (hd : d ∈ n.fleet.otp.mailbox)
    (hl : n.fleet.slots.lookup port = some slot) (hr : slot.ref = some d.ref) (hp : passes n.casts (.down d now) = true)
    (expected : Bool) (hpid : slot.pid = some pid) : Told h n.fleet pid (Fleet.terminal_type expected slot) := by
  obtain ⟨ref, hR⟩ := hI.fleet.resident hl hpid
  have href : d.ref = ref := Option.some.inj (hr.symm.trans hR.ref_eq)
  have hdead : pid ∉ n.fleet.otp.children := hI.fleet.down_pid hR hd href ▸ hI.fleet.good.dead d hd
  have hcasts : ∀ c ∈ n.casts, c.1 ≠ pid := by
    intro c hc
    have := List.all_eq_true.mp hp c hc
    rw [hI.fleet.down_pid hR hd href] at this
    simpa using this
  have hS := hI.slot port slot pid hl hpid
  unfold Fleet.terminal_type
  split
  · trivial
  · split
    · next hload =>
      refine ⟨hdead, ?_⟩
      rcases hS.loading hload with hm | ⟨props, hm⟩
      · exact hm
      · exact absurd rfl (hcasts _ hm)
    · next hload =>
      show marks pid h ≠ []
      rw [(hS.up (status_of_not_empty hR.status hload)).1]
      exact List.cons_ne_nil _ _

theorem inv_fleet (hI : Inv host h n) {j : Fleet.Input} (hp : passes n.casts j = true)
    (hst : Fleet.step host n.fleet j = some s) : Inv host (h ++ [(n, .fleet j)]) { n with fleet := s } := by
  have hown : ∀ port slot pid, n.fleet.slots.lookup port = some slot → slot.pid = some pid →
      n.fleet.slots.lookup port = some slot := fun _ _ _ hl _ => hl
  have hold : ∀ e ∈ n.fleet.events, e ∈ n.fleet.events ∨ ∀ pid, e.pid = some pid → Told h s pid e.event.type :=
    fun _ he => .inl he
  cases Fleet.step_trans hst with
  | load_noop | load_start | load_fail | mark_up_noop | mark_up => cases hp
  | unload_noop => exact hI.of_fleet hst rfl rfl hown hold fun _ hc => hc
  | unload hl hpid =>
    refine hI.of_fleet hst rfl rfl hown hold fun pid hc => ?_
    rw [Otp.World.children_terminate_child] at hc
    exact Finset.mem_of_mem_erase hc
  | down_noop hd hf => exact hI.of_fleet hst rfl rfl hown hold fun _ hc => hc
  | @down d now port slot hd hf =>
    obtain ⟨hl, hr⟩ := Fleet.find_by_ref_some hf
    refine hI.of_fleet hst rfl rfl ?_ ?_ fun _ hc => hc
    · intro q slot' pid hl' hpid
      obtain ⟨-, rfl⟩ | ⟨-, hl'⟩ := Fleet.lookup_insert_cases hl'
      · cases hpid
      · exact hl'
    · intro e he
      obtain he | he := List.mem_append.mp he
      · exact .inl he
      · rw [List.mem_singleton] at he
        subst he
        exact .inr fun pid hpid => told_down hI hd hl hr hp _ hpid
  | exit hc =>
    refine hI.of_fleet hst rfl rfl hown hold fun pid hc => ?_
    rw [Otp.World.children_exit] at hc
    exact Finset.mem_of_mem_erase hc
  | bind => exact hI.of_fleet hst rfl rfl hown hold fun _ hc => hc
  | release => exact hI.of_fleet hst rfl rfl hown hold fun _ hc => hc

/-! ### A load -/

theorem room_children_subset (hI : Inv host h n) (hl : n.fleet.slots.lookup port = some slot) :
    ∀ pid ∈ (Fleet.room slot n.fleet.otp).children, pid ∈ n.fleet.otp.children := by
  intro pid hc
  rcases hI.fleet.slot port slot hl with rfl | ⟨pid₀, ref₀, hR⟩
  · exact hc
  · rw [Fleet.room_children hR.pid_eq hR.ref_eq] at hc
    exact Finset.mem_of_mem_erase hc

theorem Spoken.of_marks {st : Instance.State} (hs : Spoken h pid st) (hm : marks pid h' = marks pid h) : Spoken h' pid st := by
  cases hs with
  | waiting hr ht hn => exact .waiting hr ht (hm.trans hn)
  | ready hr ht hn hp => exact .ready hr ht (hm.trans hn) hp

theorem inv_load (hI : Inv host h n) {c : LoadCall} {daemon : Except Reason Unit} {ref : Ref} {early : Option Reason}
    (hst : step host n (.load c daemon pid ref early) = some n') : Inv host (h ++ [(n, .load c daemon pid ref early)]) n' := by
  simp only [step, Option.map_eq_some_iff] at hst
  obtain ⟨s, hst, rfl⟩ := hst
  have hm : ∀ q, marks q (h ++ [(n, Input.load c daemon pid ref early)]) = marks q h := fun q => marks_silent rfl
  generalize hc' : call host c daemon pid ref early = c' at hst
  cases Fleet.step_trans hst with
  | load_noop hL =>
    rw [if_pos rfl]
    exact hI.of_fleet hst rfl rfl (fun _ _ _ hl _ => hl) (fun _ he => .inl he) fun _ hc => hc
  | @load_fail _ slot reason l hL hs =>
    rw [if_pos rfl]
    refine hI.of_fleet hst rfl rfl ?_ (fun _ he => .inl he) (room_children_subset hI hL.found)
    intro q slot' pid hl' hpid
    obtain ⟨-, rfl⟩ | ⟨-, hl'⟩ := Fleet.lookup_insert_cases hl'
    · cases hpid
    · exact hl'
  | @load_start _ slot pid' ref' early' l hL hs hf =>
    have hport : c'.port = c.port := by rw [← hc']; rfl
    have hmodel : c'.model = c.model := by rw [← hc']; rfl
    have hprofile : c'.profile = c.profile := by rw [← hc']; rfl
    have hstart : Instance.start_child host c.model c.profile c.port daemon pid ref early = .ok pid' ref' early' := by
      rw [← hs, ← hc']
      rfl
    obtain ⟨⟨st, hstarted⟩, rfl⟩ := Instance.started_of_start_child hstart
    obtain ⟨hsm, hsr, hst', hsp⟩ := Instance.started_some hstarted
    rw [hs] at hf
    have hnew : pid' ∉ pids n.fleet.launched := by
      intro hx
      obtain ⟨k, hk, he⟩ := hx
      exact (Fleet.fresh_ok hf k hk).1 he
    rw [if_neg (by simp), hstarted]
    refine ⟨Fleet.inv_step hI.fleet hst, Fleet.attributed_step hI.fleet hI.attributed hst, ?_, ?_, ?_, ?_, ?_⟩
    · intro q hq
      rw [hm]
      rw [Fleet.pids_append] at hq
      exact hI.unborn q fun hx => hq (Set.mem_insert_of_mem _ hx)
    · intro q hq
      rw [Fleet.pids_append] at hq
      rcases hq with rfl | hq
      · refine ⟨st, Function.update_self .., .waiting hsr ?_ ((hm _).trans (hI.unborn _ hnew))⟩
        exact hst'
      · obtain ⟨st', hst', hS⟩ := hI.spoken q hq
        have hne : q ≠ pid' := fun he => hnew (he ▸ hq)
        exact ⟨st', (Function.update_of_ne hne ..).trans hst', hS.of_marks (hm q)⟩
    · intro x hx
      exact (hm _).trans (hI.casts x hx)
    · intro q slot' pid'' hl' hpid
      obtain ⟨rfl, rfl⟩ | ⟨-, hold⟩ := Fleet.lookup_insert_cases hl'
      · cases hpid
        refine ⟨⟨st, c'.model, Function.update_self .., rfl, ?_, ?_⟩, fun _ => .inl ?_, fun hx => by cases hx⟩
        · rw [hsm, hmodel]
        · rw [hsp, hmodel]
          exact congrArg _ hprofile.symm
        · exact (hm _).trans (hI.unborn _ hnew)
      · have hS := hI.slot q slot' pid'' hold hpid
        have hne : pid'' ≠ pid' := fun he => hnew (he ▸ hI.fleet.mem_pids hold hpid)
        obtain ⟨st', model, hst', hrest⟩ := hS.state
        refine ⟨⟨st', model, (Function.update_of_ne hne ..).trans hst', hrest⟩, ?_, ?_⟩
        · rw [hm]
          exact hS.loading
        · rw [hm]
          exact hS.up
    · intro e he q hq
      obtain he | he := List.mem_append.mp he
      · have hborn := hI.born he hq
        refine (hI.told e he q hq).mono (hm q) fun hc => ?_
        rcases Fleet.start_world_children hc with rfl | hc
        · exact absurd hborn hnew
        · exact room_children_subset hI hL.found q hc
      · rw [List.mem_singleton] at he
        subst he
        trivial

/-! ### A check, and a cast -/

theorem Inv.of_marks (hI : Inv host h n) (hm : ∀ q, marks q h' = marks q h) : Inv host h' n where
  fleet := hI.fleet
  attributed := hI.attributed
  unborn q hq := (hm q).trans (hI.unborn q hq)
  spoken q hq := by
    obtain ⟨st, hst, hS⟩ := hI.spoken q hq
    exact ⟨st, hst, hS.of_marks (hm q)⟩
  casts c hc := (hm _).trans (hI.casts c hc)
  slot port slot q hl hp := by
    have hS := hI.slot port slot q hl hp
    refine ⟨hS.state, ?_, ?_⟩
    · rw [hm]
      exact hS.loading
    · rw [hm]
      exact hS.up
  told e he q hq := (hI.told e he q hq).mono (hm q) id

/-- The one answer of an engine: its instance is ready from then on, and the cast is on its way. -/
theorem inv_answered (hI : Inv host h n) {st : Instance.State} {props : Props} (hc : pid ∈ n.fleet.otp.children)
    (hp : n.instances pid = some st) (hm : marks pid h = []) (hcast : cast_of n i = some (pid, props))
    (hprops : props.resolved_profile = some st.resolved_profile) :
    Inv host (h ++ [(n, i)]) { n with
      instances := Function.update n.instances pid (some { st with ready := true, timers := 0 })
      casts := n.casts ++ [(pid, props)] } := by
  obtain ⟨port, slot, hl, hpid⟩ := hI.fleet.owned pid hc
  have hborn := hI.fleet.mem_pids hl hpid
  have hself : marks pid (h ++ [(n, i)]) = [props] := by rw [marks_self hcast, hm]; rfl
  have hother : ∀ q, q ≠ pid → marks q (h ++ [(n, i)]) = marks q h := fun q hq => marks_other hcast hq
  refine ⟨hI.fleet, hI.attributed, ?_, ?_, ?_, ?_, ?_⟩
  · intro q hq
    have hne : q ≠ pid := fun he => hq (he ▸ hborn)
    exact (hother q hne).trans (hI.unborn q hq)
  · intro q hq
    by_cases hqp : q = pid
    · subst hqp
      exact ⟨_, Function.update_self .., .ready rfl rfl hself hprops⟩
    · obtain ⟨st', hst', hS⟩ := hI.spoken q hq
      exact ⟨st', (Function.update_of_ne hqp ..).trans hst', hS.of_marks (hother q hqp)⟩
  · intro c hx
    obtain hx | hx := List.mem_append.mp hx
    · have hmarks := hI.casts c hx
      have hne : c.1 ≠ pid := by
        intro he
        rw [he, hm] at hmarks
        cases hmarks
      exact (hother _ hne).trans hmarks
    · rw [List.mem_singleton] at hx
      subst hx
      exact hself
  · intro q slot' pid' hl' hpid'
    have hS := hI.slot q slot' pid' hl' hpid'
    obtain ⟨st', model, hst', hmodel, hrest⟩ := hS.state
    by_cases hqp : pid' = pid
    · subst hqp
      rw [hp] at hst'
      cases hst'
      refine ⟨⟨_, model, Function.update_self .., hmodel, hrest⟩, fun _ => .inr ⟨props, by simp⟩, fun hup => ?_⟩
      -- an engine that is up has answered before
      rw [(hS.up hup).1] at hm
      cases hm
    · refine ⟨⟨st', model, (Function.update_of_ne hqp ..).trans hst', hmodel, hrest⟩, fun hload => ?_, fun hup => ?_⟩
      · rw [hother _ hqp]
        exact (hS.loading hload).imp_right fun hx => hx.imp fun _ hx => List.mem_append_left _ hx
      · rw [hother _ hqp]
        refine ⟨(hS.up hup).1, fun c hx => ?_⟩
        obtain hx | hx := List.mem_append.mp hx
        · exact (hS.up hup).2 c hx
        · rw [List.mem_singleton] at hx
          subst hx
          exact Ne.symm hqp
  · intro e he q hq
    have hold := hI.told e he q hq
    by_cases hqp : q = pid
    · subst hqp
      cases ht : e.event.type with
      | failed =>
        rw [ht] at hold
        exact absurd hc hold.1
      | up | down =>
        rw [ht] at hold
        exact absurd hm hold
      | loading | unloaded => trivial
    · exact hold.mono (hother q hqp) id

theorem inv_check_ready (hI : Inv host h n) {http : Http} (hst : step host n (.check_ready pid http) = some n') :
    Inv host (h ++ [(n, .check_ready pid http)]) n' := by
  simp only [step] at hst
  cases hp : n.instances pid with
  | none =>
    rw [hp] at hst
    cases hst
  | some st =>
    simp only [hp, Option.ite_none_right_eq_some, Option.some.injEq] at hst
    obtain ⟨⟨hc, ht⟩, rfl⟩ := hst
    obtain ⟨q, slot, hl, hpid⟩ := hI.fleet.owned pid hc
    obtain ⟨st', hst', hS⟩ := hI.spoken pid (hI.fleet.mem_pids hl hpid)
    rw [hp] at hst'
    cases hst'
    cases hS with
    | ready _ h0 => omega
    | waiting hr ht hm =>
      have hcheck := Instance.check_ready_of_waiting http hr ht
      have hcast : cast_of n (.check_ready pid http) =
          (Instance.check_ready http st).1.map fun props => (pid, props) := by simp [cast_of, hp]
      by_cases hready : Instance.is_ready http st = true
      · rw [if_pos hready] at hcheck
        rw [hcheck] at hcast ⊢
        exact inv_answered hI hc hp hm hcast rfl
      · rw [if_neg hready] at hcheck
        rw [hcheck] at hcast ⊢
        have hsame : Function.update n.instances pid (some st) = n.instances := by
          rw [← hp]
          exact Function.update_eq_self _ _
        simp only [hsame, Option.map_none, Option.toList_none, List.append_nil]
        exact hI.of_marks fun q => marks_silent hcast

theorem inv_mark_up (hI : Inv host h n) (hst : step host n (.mark_up pid now) = some n') :
    Inv host (h ++ [(n, .mark_up pid now)]) n' := by
  have hI : Inv host (h ++ [(n, .mark_up pid now)]) n := hI.of_marks fun q => marks_silent rfl
  simp only [step] at hst
  cases hf : n.casts.find? (·.1 = pid) with
  | none =>
    rw [hf] at hst
    cases hst
  | some c =>
    obtain ⟨pid', props⟩ := c
    have hpid : pid' = pid := by simpa using List.find?_some hf
    subst hpid
    have hmarks := hI.casts _ (List.mem_of_find?_eq_some hf)
    simp only [hf, Option.map_eq_some_iff] at hst
    obtain ⟨s, hst, rfl⟩ := hst
    have hcasts : ∀ c ∈ n.casts.filter (·.1 ≠ pid'), c ∈ n.casts := fun c hc => List.mem_of_mem_filter hc
    have hsent : ∀ q props, q ≠ pid' → (q, props) ∈ n.casts → (q, props) ∈ n.casts.filter (·.1 ≠ pid') :=
      fun q props hq hc => List.mem_filter.mpr ⟨hc, by simpa using hq⟩
    cases Fleet.step_trans hst with
    | mark_up_noop hk hno =>
      refine ⟨hI.fleet, hI.attributed, hI.unborn, hI.spoken, fun c hc => hI.casts c (hcasts c hc), ?_, hI.told⟩
      intro port slot q hl hq
      have hS := hI.slot port slot q hl hq
      refine ⟨hS.state, fun hload => ?_, fun hup => ⟨(hS.up hup).1, fun c hc => (hS.up hup).2 c (hcasts c hc)⟩⟩
      have hne : q ≠ pid' := by
        intro he
        subst he
        exact hno _ (hI.fleet.find_by_pid_eq hl hq) hload
      exact (hS.loading hload).imp_right fun hx => hx.imp fun props hx => hsent q props hne hx
    | @mark_up _ _ _ port slot hk hfound hload =>
      obtain ⟨hl, hp⟩ := Fleet.find_by_pid_some hfound
      refine ⟨Fleet.inv_step hI.fleet hst, Fleet.attributed_step hI.fleet hI.attributed hst, hI.unborn, hI.spoken,
        fun c hc => hI.casts c (hcasts c hc), ?_, ?_⟩
      · intro q slot' pid hl' hpid
        obtain ⟨rfl, rfl⟩ | ⟨hqp, hold⟩ := Fleet.lookup_insert_cases hl'
        · have hS := hI.slot q slot pid hl hpid
          cases hp.symm.trans hpid
          refine ⟨hS.state, (fun hx => by cases hx), fun _ => ⟨hmarks, fun c hc => ?_⟩⟩
          simpa using (List.mem_filter.mp hc).2
        · have hS := hI.slot q slot' pid hold hpid
          have hne : pid ≠ pid' := by
            intro he
            subst he
            exact hqp (hI.fleet.pid_inj hold hl hpid hp)
          refine ⟨hS.state, fun hx => ?_, fun hup => ⟨(hS.up hup).1, fun c hc => (hS.up hup).2 c (hcasts c hc)⟩⟩
          exact (hS.loading hx).imp_right fun hx => hx.imp fun props hx => hsent pid props hne hx
      · intro e he q hq
        obtain he | he := List.mem_append.mp he
        · exact (hI.told e he q hq).mono rfl id
        · rw [List.mem_singleton] at he
          subst he
          cases hp.symm.trans hq
          show marks pid' _ ≠ []
          rw [hmarks]
          exact List.cons_ne_nil _ _

theorem inv_step (hI : Inv host h n) (hst : step host n i = some n') : Inv host (h ++ [(n, i)]) n' := by
  cases i with
  | load c daemon pid ref early => exact inv_load hI hst
  | fleet j =>
    simp only [step, Option.ite_none_right_eq_some, Option.map_eq_some_iff] at hst
    obtain ⟨hp, s, hst, rfl⟩ := hst
    exact inv_fleet hI hp hst
  | check_ready pid http => exact inv_check_ready hI hst
  | mark_up pid now => exact inv_mark_up hI hst

theorem run_inv (hr : Run host h n) : Inv host h n := by
  induction hr with
  | nil => exact inv_init host
  | snoc _ hst ih => exact inv_step ih hst

end

end Serving

end AiroAgent
