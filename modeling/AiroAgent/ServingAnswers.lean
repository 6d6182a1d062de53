import AiroAgent.Serving

/-!
# What an answer comes to

A check that its engine answers is the one thing an `Instance` has to tell. A
slot is up exactly when there was one and the cast of it has arrived, and then
reports what the engine said there; an engine reported as failed gave none; and
a loading slot whose engine lives is never more than two messages from being up.
-/

namespace AiroAgent.Serving

open Fleet (Slot Props pids)

section
variable {host : Host} {h : History} {n n' : Serving} {pid : Pid} {slot : Slot} {port : Port} {i : Input}

/-- In this step the engine answers the check of its instance. -/
def Answers (x : Serving × Input) (pid : Pid) (http : Http) (st : Instance.State) : Prop :=
  x.2 = .check_ready pid http ∧ x.1.instances pid = some st ∧ Instance.is_ready http st = true

theorem waiting_of_step (hI : Inv host h n) {http : Http} (hst : step host n (.check_ready pid http) = some n') :
    pid ∈ pids n.fleet.launched ∧
      ∃ st, n.instances pid = some st ∧ st.ready = false ∧ st.timers = 1 ∧ marks pid h = [] := by
  simp only [step] at hst
  cases hp : n.instances pid with
  | none =>
    rw [hp] at hst
    cases hst
  | some st =>
    simp only [hp, Option.ite_none_right_eq_some] at hst
    obtain ⟨⟨hc, ht⟩, -⟩ := hst
    obtain ⟨q, slot, hl, hpid⟩ := hI.fleet.owned pid hc
    obtain ⟨st', hst', hS⟩ := hI.spoken pid (hI.fleet.mem_pids hl hpid)
    rw [hp] at hst'
    cases hst'
    cases hS with
    | ready _ h0 => omega
    | waiting hr ht hm => exact ⟨hI.fleet.mem_pids hl hpid, st, rfl, hr, ht, hm⟩

theorem cast_of_answers {x : Serving × Input} {http : Http} {st : Instance.State} (hr : st.ready = false)
    (ht : st.timers = 1) (hx : Answers x pid http st) : cast_of x.1 x.2 = some (pid, Instance.ready_props http st) := by
  obtain ⟨n, i⟩ := x
  obtain ⟨rfl, hp, hready⟩ := hx
  show (n.instances pid).bind _ = _
  rw [show n.instances pid = some st from hp, Option.bind_some, Instance.check_ready_of_waiting http hr ht, if_pos hready]
  rfl

theorem answers_of_cast {x : Serving × Input} {props : Props} (hc : cast_of x.1 x.2 = some (pid, props)) :
    ∃ http st, Answers x pid http st := by
  obtain ⟨n, i⟩ := x
  cases i with
  | load | fleet | mark_up => cases hc
  | check_ready q http =>
    simp only [cast_of, Option.bind_eq_some_iff, Option.map_eq_some_iff] at hc
    obtain ⟨st, hp, props', hcheck, he⟩ := hc
    cases he
    refine ⟨http, st, rfl, hp, ?_⟩
    simp only [Instance.check_ready, Instance.handle_info_check_ready] at hcheck
    split at hcheck
    · cases hcheck
    · split at hcheck
      · next hready => exact hready
      · cases hcheck

theorem step_model (hst : step host n i = some n') (hp : pid ∈ pids n.fleet.launched) :
    (n'.instances pid).map (·.model) = (n.instances pid).map (·.model) := by
  cases i with
  | load c daemon q ref early =>
    simp only [step, Option.map_eq_some_iff] at hst
    obtain ⟨s, hst, rfl⟩ := hst
    dsimp only
    by_cases hs : s.launched = n.fleet.launched
    · rw [if_pos hs]
    · rw [if_neg hs]
      generalize hc : call host c daemon q ref early = c' at hst
      cases Fleet.step_trans hst with
      | load_noop | load_fail => exact absurd rfl hs
      | @load_start _ slot pid' ref' early' l hL hs' hf =>
        have hstart : Instance.start_child host c.model c.profile c.port daemon q ref early = .ok pid' ref' early' := by
          rw [← hs', ← hc]
          rfl
        obtain ⟨-, rfl⟩ := Instance.started_of_start_child hstart
        rw [hs'] at hf
        obtain ⟨k, hk, rfl⟩ := hp
        rw [Function.update_of_ne (Fleet.fresh_ok hf k hk).1]
  | fleet j =>
    simp only [step, Option.ite_none_right_eq_some, Option.map_eq_some_iff] at hst
    obtain ⟨-, s, -, rfl⟩ := hst
    rfl
  | check_ready q http =>
    simp only [step] at hst
    cases hq : n.instances q with
    | none =>
      rw [hq] at hst
      cases hst
    | some st =>
      simp only [hq, Option.ite_none_right_eq_some, Option.some.injEq] at hst
      obtain ⟨-, rfl⟩ := hst
      by_cases hqp : pid = q
      · subst hqp
        dsimp only
        rw [Function.update_self, hq, Option.map_some, Option.map_some, Instance.check_ready_model]
      · dsimp only
        rw [Function.update_of_ne hqp]
  | mark_up q now =>
    simp only [step] at hst
    split at hst
    · obtain ⟨s, -, rfl⟩ := Option.map_eq_some_iff.mp hst
      rfl
    · cases hst

theorem step_pids (hst : step host n i = some n') (hp : pid ∈ pids n.fleet.launched) : pid ∈ pids n'.fleet.launched := by
  obtain ⟨l, hl, rfl⟩ := hp
  cases i with
  | load c daemon q ref early =>
    simp only [step, Option.map_eq_some_iff] at hst
    obtain ⟨s, hst, rfl⟩ := hst
    exact ⟨l, Fleet.step_launched hst l hl, rfl⟩
  | fleet j =>
    simp only [step, Option.ite_none_right_eq_some, Option.map_eq_some_iff] at hst
    obtain ⟨-, s, hst, rfl⟩ := hst
    exact ⟨l, Fleet.step_launched hst l hl, rfl⟩
  | check_ready q http =>
    simp only [step] at hst
    split at hst
    · simp only [Option.ite_none_right_eq_some, Option.some.injEq] at hst
      obtain ⟨-, rfl⟩ := hst
      exact ⟨l, hl, rfl⟩
    · cases hst
  | mark_up q now =>
    simp only [step] at hst
    split at hst
    · obtain ⟨s, hs, rfl⟩ := Option.map_eq_some_iff.mp hst
      exact ⟨l, Fleet.step_launched hs l hl, rfl⟩
    · cases hst

theorem run_model (hr : Run host h n) : ∀ x ∈ h, pid ∈ pids x.1.fleet.launched →
    pid ∈ pids n.fleet.launched ∧ (n.instances pid).map (·.model) = (x.1.instances pid).map (·.model) := by
  induction hr with
  | nil =>
    intro x hx
    cases hx
  | snoc hr hst ih =>
    intro x hx hp
    rcases List.mem_append.mp hx with hx | hx
    · obtain ⟨hp', he⟩ := ih x hx hp
      exact ⟨step_pids hst hp', (step_model hst hp').trans he⟩
    · rw [List.mem_singleton] at hx
      subst hx
      exact ⟨step_pids hst hp, step_model hst hp⟩

theorem marks_of_answers (hr : Run host h n) {x : Serving × Input} {http : Http} {st : Instance.State} (hx : x ∈ h)
    (ha : Answers x pid http st) : Instance.ready_props http st ∈ marks pid h := by
  obtain ⟨h₁, h₂, rfl⟩ := List.append_of_mem hx
  obtain ⟨n₁, i⟩ := x
  obtain ⟨hr₁, n₂, hst⟩ := hr.split rfl
  have hi : i = .check_ready pid http := ha.1
  subst hi
  obtain ⟨-, st', hst', hready, ht, -⟩ := waiting_of_step (run_inv hr₁) hst
  cases hst'.symm.trans ha.2.1
  exact mem_marks.mpr ⟨_, hx, cast_of_answers hready ht ha⟩

theorem born_of_answers (hr : Run host h n) {x : Serving × Input} {http : Http} {st : Instance.State} (hx : x ∈ h)
    (ha : Answers x pid http st) : pid ∈ pids x.1.fleet.launched := by
  obtain ⟨h₁, h₂, rfl⟩ := List.append_of_mem hx
  obtain ⟨n₁, i⟩ := x
  obtain ⟨hr₁, n₂, hst⟩ := hr.split rfl
  have hi : i = .check_ready pid http := ha.1
  subst hi
  exact (waiting_of_step (run_inv hr₁) hst).1

theorem marks_ne_nil_iff (hr : Run host h n) : marks pid h ≠ [] ↔ ∃ x ∈ h, ∃ http st, Answers x pid http st := by
  constructor
  · intro hm
    obtain ⟨props, hprops⟩ := List.exists_mem_of_ne_nil _ hm
    obtain ⟨x, hx, hc⟩ := mem_marks.mp hprops
    obtain ⟨http, st, ha⟩ := answers_of_cast hc
    exact ⟨x, hx, http, st, ha⟩
  · intro hx hm
    obtain ⟨x, hx, http, st, ha⟩ := hx
    have := marks_of_answers hr hx ha
    rw [hm] at this
    cases this

/-! ## Fleet's own history -/

/-- What Fleet handles in a step; a check is between the instance and its engine. -/
def fleet_move (host : Host) (x : Serving × Input) : Option Fleet.Input :=
  match x.2 with
  | .load c daemon pid ref early => some (.load (call host c daemon pid ref early))
  | .fleet i => some i
  | .check_ready _ _ => none
  | .mark_up pid now => (x.1.casts.find? (·.1 = pid)).map fun c => .mark_up pid c.2 now

def fleet_history (host : Host) (h : History) : Fleet.History :=
  h.filterMap fun x => (fleet_move host x).map fun i => (x.1.fleet, i)

theorem fleet_step (hst : step host n i = some n') :
    match fleet_move host (n, i) with
    | some j => Fleet.step host n.fleet j = some n'.fleet
    | none => n'.fleet = n.fleet := by
  cases i with
  | load c daemon q ref early =>
    simp only [step, Option.map_eq_some_iff] at hst
    obtain ⟨s, hst, rfl⟩ := hst
    exact hst
  | fleet j =>
    simp only [step, Option.ite_none_right_eq_some, Option.map_eq_some_iff] at hst
    obtain ⟨-, s, hst, rfl⟩ := hst
    exact hst
  | check_ready q http =>
    simp only [step] at hst
    split at hst
    · simp only [Option.ite_none_right_eq_some, Option.some.injEq] at hst
      obtain ⟨-, rfl⟩ := hst
      rfl
    · cases hst
  | mark_up q now =>
    simp only [step] at hst
    cases hf : n.casts.find? (·.1 = q) with
    | none =>
      rw [hf] at hst
      cases hst
    | some c =>
      simp only [hf, Option.map_eq_some_iff] at hst
      obtain ⟨s, hst, rfl⟩ := hst
      simp only [fleet_move, hf, Option.map_some]
      exact hst

theorem fleet_run (hr : Run host h n) : Fleet.Run host (fleet_history host h) n.fleet := by
  induction hr with
  | nil => exact .nil
  | @snoc h n i n' hr hst ih =>
    have hmove := fleet_step hst
    unfold fleet_history at ih ⊢
    rw [List.filterMap_append]
    cases hf : fleet_move host (n, i) with
    | none =>
      rw [hf] at hmove
      rw [show n'.fleet = n.fleet from hmove]
      simpa [hf] using ih
    | some j =>
      rw [hf] at hmove
      simpa [hf] using ih.snoc hmove

/-- Beside the instances a `mark_up` always comes from the one of the slot, with the profile it
resolved at its start. -/
theorem from_instance (hr : Run host h n) : ∀ x ∈ fleet_history host h, Fleet.FromInstance host x.1 x.2 := by
  intro x hx
  obtain ⟨y, hy, hmove⟩ := List.mem_filterMap.mp hx
  obtain ⟨j, hj, rfl⟩ := Option.map_eq_some_iff.mp hmove
  obtain ⟨h₁, h₂, rfl⟩ := List.append_of_mem hy
  obtain ⟨n₁, i⟩ := y
  have hI := run_inv (hr.split rfl).1
  rintro pid props now port slot model rfl hfound hmodel
  obtain ⟨hl, hp⟩ := Fleet.find_by_pid_some hfound
  obtain ⟨st, model', hst, hmodel', -, hres⟩ := (hI.slot port slot pid hl hp).state
  cases hmodel.symm.trans hmodel'
  have hcast : (pid, props) ∈ n₁.casts := by
    cases i with
    | load | check_ready => cases hj
    | fleet k =>
      obtain ⟨-, n₂, hstep⟩ := hr.split rfl
      cases hj
      simp [step, passes] at hstep
    | mark_up q now' =>
      obtain ⟨c, hc, he⟩ := Option.map_eq_some_iff.mp hj
      cases he
      have hq : c.1 = pid := by simpa using List.find?_some hc
      rw [← hq]
      exact List.mem_of_find?_eq_some hc
  obtain ⟨st', hst', hspoken⟩ := hI.spoken pid (hI.fleet.mem_pids hl hp)
  cases hst.symm.trans hst'
  have hmarks := hI.casts _ hcast
  cases hspoken with
  | waiting _ _ hnil => rw [hnil] at hmarks; cases hmarks
  | ready _ _ hm hprofile =>
    rw [hm] at hmarks
    cases hmarks
    rw [hprofile, hres]

theorem run_resolved (hr : Run host h n) : Fleet.Resolved host n.fleet :=
  Fleet.run_resolved (fleet_run hr) (from_instance hr)

/-! A host that can start an engine; one that answers the second check, and one that dies before. -/

def llama_host : Host := { Fleet.one_slot with engine_bin := fun _ => some "llama-server" }

def silent : Http := fun _ => none

def healthy : Http
  | "/health" => some ⟨200, .nil⟩
  | "/props" => some ⟨200, .map [("default_generation_settings", .map [("n_ctx", .int 4096)]), ("total_slots", .int 4)]⟩
  | _ => none

def load_a : Input :=
  .load { model := Fleet.model_a, port := 8081, profile := ∅, start := .error .shutdown } (.ok ()) 0 7 none

def answered : List Input := [load_a, .check_ready 0 silent, .check_ready 0 healthy, .mark_up 0 3]

def dead : List Input :=
  [load_a, .check_ready 0 silent, .fleet (.exit 0 (.other "boom")), .fleet (.down ⟨7, 0, .other "boom"⟩ 4)]

theorem answered_up : ∃ n slot, Machine.exec (step llama_host) (init llama_host) answered = some n ∧
    n.fleet.slots.lookup 8081 = some slot ∧ slot.pid = some 0 ∧ slot.status = .up := ⟨_, _, rfl, rfl, rfl, rfl⟩

/-- **Up is answered.** The slot of an engine is up exactly when the engine has answered
its instance and the cast that tells of it is no longer on its way. -/
theorem up_iff_answered (hr : Run host h n) (hl : n.fleet.slots.lookup port = some slot) (hp : slot.pid = some pid) :
    slot.status = .up ↔ (∃ x ∈ h, ∃ http st, Answers x pid http st) ∧ ∀ c ∈ n.casts, c.1 ≠ pid := by
  have hI := run_inv hr
  have hS := hI.slot port slot pid hl hp
  rw [← marks_ne_nil_iff hr]
  constructor
  · intro hup
    obtain ⟨hm, hc⟩ := hS.up hup
    refine ⟨?_, hc⟩
    rw [hm]
    exact List.cons_ne_nil _ _
  · intro hx
    obtain ⟨hm, hc⟩ := hx
    obtain ⟨ref, hR⟩ := hI.fleet.resident hl hp
    refine status_of_not_empty hR.status fun hload => ?_
    rcases hS.loading hload with hnil | ⟨props, hcast⟩
    · exact hm hnil
    · exact hc _ hcast rfl

theorem up_iff_answered_second : ∃ h n slot, Run llama_host h n ∧ h.map Prod.snd = answered ∧
    n.fleet.slots.lookup 8081 = some slot ∧ slot.status = .up ∧
    (slot.status = .up ↔ (∃ x ∈ h, ∃ http st, Answers x 0 http st) ∧ ∀ c ∈ n.casts, c.1 ≠ 0) := by
  obtain ⟨n, slot, he, hl, hp, hup⟩ := answered_up
  exact ⟨_, n, slot, .of_exec he, Machine.visits_inputs he, hl, hup, up_iff_answered (.of_exec he) hl hp⟩

/-- **What a slot reports is what its engine answered.** The props of a slot that is up were
scraped at the one check its engine ever answered, and `slots/0` lists them with the profile
the load resolves to; the instance has not asked since. -/
theorem reports_answer (hr : Run host h n) (hl : n.fleet.slots.lookup port = some slot) (hp : slot.pid = some pid)
    (hup : slot.status = .up) : ∃ h₁ x h₂ http st, h = h₁ ++ x :: h₂ ∧ Answers x pid http st ∧
      (∀ y ∈ h₁, ∀ http' st', ¬ Answers y pid http' st') ∧ (∀ y ∈ h₂, ∀ http', y.2 ≠ .check_ready pid http') ∧ slot.model = some st.model ∧
      ∀ peers, ∃ info ∈ Fleet.handle_call_slots host peers n.fleet, info.port = port ∧ info.status = .up ∧
        info.profile = Instance.resolved_profile host st.model slot.profile ∧
        info.ctx = (Instance.runtime_props http st).ctx ∧
        info.ctx_total = (Instance.runtime_props http st).ctx_total ∧
        info.engine_build = (Instance.runtime_props http st).engine_build := by
  have hI := run_inv hr
  have hS := hI.slot port slot pid hl hp
  have hm := (hS.up hup).1
  have hne : marks pid h ≠ [] := by rw [hm]; exact List.cons_ne_nil _ _
  obtain ⟨x, hx, http, st, ha⟩ := (marks_ne_nil_iff hr).mp hne
  have hprops : Instance.ready_props http st = slot.props := by
    have := marks_of_answers hr hx ha
    rw [hm, List.mem_singleton] at this
    exact this
  obtain ⟨st', model, hst', hmodel, hsm, hres⟩ := hS.state
  have hst : st.model = model := by
    have hborn : pid ∈ pids x.1.fleet.launched := born_of_answers hr hx ha
    have he := (run_model hr x hx hborn).2
    rw [hst', ha.2.1, Option.map_some, Option.map_some, Option.some.injEq] at he
    rw [← he, hsm]
  have hresolved : slot.props.resolved_profile = some (Instance.resolved_profile host model slot.profile) := by
    obtain ⟨st₁, hst₁, hspoken⟩ := hI.spoken pid (hI.fleet.mem_pids hl hp)
    cases hst'.symm.trans hst₁
    cases hspoken with
    | waiting _ _ hnil => exact absurd hnil hne
    | ready _ _ hm' hp' =>
      rw [hm] at hm'
      cases hm'
      rw [hp', hres]
  obtain ⟨h₁, h₂, rfl⟩ := List.append_of_mem hx
  refine ⟨h₁, x, h₂, http, st, rfl, ha, ?_, ?_, by rw [hst]; exact hmodel, fun peers => ?_⟩
  · intro y hy http' st'' ha'
    obtain ⟨n₁, i₁⟩ := x
    have hi : i₁ = .check_ready pid http := ha.1
    subst hi
    obtain ⟨hr₁, n₂, hstep⟩ := hr.split rfl
    obtain ⟨-, -, -, -, -, hnil⟩ := waiting_of_step (run_inv hr₁) hstep
    have hmem := marks_of_answers hr₁ hy ha'
    rw [hnil] at hmem
    cases hmem
  · intro y hy http' he
    obtain ⟨h₃, h₄, rfl⟩ := List.append_of_mem hy
    obtain ⟨n₂, i₂⟩ := y
    have hi : i₂ = .check_ready pid http' := he
    subst hi
    have hsplit : h₁ ++ x :: (h₃ ++ (n₂, Input.check_ready pid http') :: h₄) =
        (h₁ ++ x :: h₃) ++ (n₂, Input.check_ready pid http') :: h₄ := by simp
    obtain ⟨hr₂, n₃, hstep⟩ := hr.split hsplit
    obtain ⟨-, -, -, -, -, hnil⟩ := waiting_of_step (run_inv hr₂) hstep
    have hmem := marks_of_answers hr₂ (by simp) ha
    rw [hnil] at hmem
    cases hmem
  · obtain ⟨ref, hR⟩ := hI.fleet.resident hl hp
    refine ⟨Fleet.slot_info host slot, ?_, hR.port_eq, hup, ?_, ?_, ?_, ?_⟩
    · exact List.mem_append_left _ (List.mem_map.mpr ⟨⟨port, slot⟩, Fleet.mem_entries_iff.mpr hl, rfl⟩)
    · show slot.props.resolved_profile.getD slot.profile = _
      rw [hresolved, hst]
      rfl
    · rw [show (Fleet.slot_info host slot).ctx = slot.props.ctx from rfl, ← hprops]
      rfl
    · rw [show (Fleet.slot_info host slot).ctx_total = slot.props.ctx_total from rfl, ← hprops]
      rfl
    · rw [show (Fleet.slot_info host slot).engine_build = slot.props.engine_build from rfl, ← hprops]
      rfl

theorem reports_answer_second : ∃ h n, Run llama_host h n ∧ h.map Prod.snd = answered ∧
    ∃ slot, n.fleet.slots.lookup 8081 = some slot ∧ ∃ h₁ x h₂ http st, h = h₁ ++ x :: h₂ ∧ Answers x 0 http st ∧
      (∀ y ∈ h₁, ∀ http' st', ¬ Answers y 0 http' st') ∧ (∀ y ∈ h₂, ∀ http', y.2 ≠ .check_ready 0 http') ∧ slot.model = some st.model ∧
      ∀ peers, ∃ info ∈ Fleet.handle_call_slots llama_host peers n.fleet, info.port = 8081 ∧ info.status = .up ∧
        info.profile = Instance.resolved_profile llama_host st.model slot.profile ∧
        info.ctx = (Instance.runtime_props http st).ctx ∧
        info.ctx_total = (Instance.runtime_props http st).ctx_total ∧
        info.engine_build = (Instance.runtime_props http st).engine_build := by
  obtain ⟨n, slot, he, hl, hp, hup⟩ := answered_up
  exact ⟨_, n, .of_exec he, Machine.visits_inputs he, slot, hl, reports_answer (.of_exec he) hl hp hup⟩

/-- **Failed is never answered.** Of an engine reported as failed no check was ever answered, and
of one reported as up, or as down, one was: whatever the delays, Fleet tells them apart. -/
theorem failed_never_answered (hr : Run host h n) {e : Fleet.Emission} (he : e ∈ n.fleet.events)
    (hp : e.pid = some pid) :
    (e.event.type = .failed → ∀ x ∈ h, ∀ http st, ¬ Answers x pid http st) ∧
      (e.event.type = .up ∨ e.event.type = .down → ∃ x ∈ h, ∃ http st, Answers x pid http st) := by
  have ht := (run_inv hr).told e he pid hp
  constructor
  · intro hty x hx http st ha
    rw [hty] at ht
    exact (marks_ne_nil_iff hr).mpr ⟨x, hx, http, st, ha⟩ ht.2
  · intro hty
    refine (marks_ne_nil_iff hr).mp ?_
    rcases hty with hty | hty <;> rw [hty] at ht <;> exact ht

theorem failed_never_answered_dead : ∃ h n e, Run llama_host h n ∧ h.map Prod.snd = dead ∧ e ∈ n.fleet.events ∧
    e.event.type = .failed ∧
    (e.event.type = .failed → ∀ x ∈ h, ∀ http st, ¬ Answers x 0 http st) ∧
    (e.event.type = .up ∨ e.event.type = .down → ∃ x ∈ h, ∃ http st, Answers x 0 http st) := by
  have he : ∃ n e₀ e, Machine.exec (step llama_host) (init llama_host) dead = some n ∧ n.fleet.events = [e₀, e] ∧
      e.pid = some 0 ∧ e.event.type = .failed := ⟨_, _, _, rfl, rfl, rfl, rfl⟩
  obtain ⟨n, e₀, e, he, hev, hp, ht⟩ := he
  have hmem : e ∈ n.fleet.events := by rw [hev]; simp
  exact ⟨_, n, e, .of_exec he, Machine.visits_inputs he, hmem, ht, failed_never_answered (.of_exec he) hmem hp⟩

theorem mark_up_comes (hI : Inv host h n) (hl : n.fleet.slots.lookup port = some slot) (hp : slot.pid = some pid)
    (hload : slot.status = .loading) {props : Props} (hc : (pid, props) ∈ n.casts) (now : Time) :
    ∃ n' slot', step host n (.mark_up pid now) = some n' ∧ n'.fleet.slots.lookup port = some slot' ∧
      slot'.pid = some pid ∧ slot'.status = .up := by
  have hsome : (n.casts.find? (·.1 = pid)).isSome = true := List.find?_isSome.mpr ⟨_, hc, by simp⟩
  obtain ⟨c, hf⟩ := Option.isSome_iff_exists.mp hsome
  obtain ⟨l, hlaunched, rfl⟩ := hI.fleet.mem_pids hl hp
  have hany : n.fleet.launched.any (·.pid == l.pid) = true := List.any_eq_true.mpr ⟨l, hlaunched, by simp⟩
  let n' : Serving := { n with
    fleet := Fleet.handle_cast_mark_up host l.pid c.2 now n.fleet
    casts := n.casts.filter (·.1 ≠ l.pid) }
  refine ⟨n', { slot with status := .up, props := c.2 }, ?_, ?_, hp, rfl⟩
  · simp only [step, hf, Fleet.step, hany, if_true]
    rfl
  · show (Fleet.handle_cast_mark_up host l.pid c.2 now n.fleet).slots.lookup port = _
    unfold Fleet.handle_cast_mark_up
    rw [hI.fleet.find_by_pid_eq hl hp]
    simp only [hload, if_true]
    exact AList.lookup_insert _

/-- **No answer is lost.** In every state of every run, a loading slot whose engine lives is two
messages away from being up: the check it waits for, if the engine answers it, and the cast. -/
theorem loading_comes_up (hr : Run host h n) (hl : n.fleet.slots.lookup port = some slot) (hp : slot.pid = some pid)
    (hload : slot.status = .loading) (hc : pid ∈ n.fleet.otp.children) :
    ∃ st, n.instances pid = some st ∧ ∀ http, Instance.is_ready http st = true → ∀ now, ∃ tr n' slot',
      (tr = [.mark_up pid now] ∨ tr = [.check_ready pid http, .mark_up pid now]) ∧
        Machine.exec (step host) n tr = some n' ∧ n'.fleet.slots.lookup port = some slot' ∧ slot'.pid = some pid ∧
        slot'.status = .up := by
  have hI := run_inv hr
  obtain ⟨st, hst, hspoken⟩ := hI.spoken pid (hI.fleet.mem_pids hl hp)
  refine ⟨st, hst, fun http hready now => ?_⟩
  cases hspoken with
  | ready _ _ hm _ =>
    obtain hnil | ⟨props, hcast⟩ := (hI.slot port slot pid hl hp).loading hload
    · rw [hm] at hnil
      cases hnil
    · obtain ⟨n', slot', hst', hrest⟩ := mark_up_comes hI hl hp hload hcast now
      exact ⟨_, n', slot', .inl rfl, by simp [Machine.exec, hst'], hrest⟩
  | waiting hr' ht hm =>
    have hcheck := Instance.check_ready_of_waiting http hr' ht
    rw [if_pos hready] at hcheck
    have hstep : step host n (.check_ready pid http) = some { n with
        instances := Function.update n.instances pid (some { st with ready := true, timers := 0 })
        casts := n.casts ++ [(pid, Instance.ready_props http st)] } := by
      simp only [step, hst, hcheck]
      rw [if_pos ⟨hc, by omega⟩]
      rfl
    have hI' := inv_step hI hstep
    obtain ⟨n', slot', hst', hrest⟩ := mark_up_comes hI' hl hp hload (List.mem_append_right _ (List.mem_singleton_self _)) now
    exact ⟨_, n', slot', .inr rfl, by simp only [Machine.exec, hstep, hst'], hrest⟩

theorem loading_comes_up_silent : ∃ h n, Run llama_host h n ∧ h.map Prod.snd = [load_a, .check_ready 0 silent] ∧
    ∃ st, n.instances 0 = some st ∧ ∀ http, Instance.is_ready http st = true → ∀ now, ∃ tr n' slot',
      (tr = [.mark_up 0 now] ∨ tr = [.check_ready 0 http, .mark_up 0 now]) ∧
        Machine.exec (step llama_host) n tr = some n' ∧ n'.fleet.slots.lookup 8081 = some slot' ∧ slot'.pid = some 0 ∧
        slot'.status = .up := by
  have he : ∃ n slot, Machine.exec (step llama_host) (init llama_host) [load_a, .check_ready 0 silent] = some n ∧
      n.fleet.slots.lookup 8081 = some slot ∧ slot.pid = some 0 ∧ slot.status = .loading ∧ 0 ∈ n.fleet.otp.children :=
    ⟨_, _, rfl, rfl, rfl, rfl, by decide⟩
  obtain ⟨n, slot, he, hl, hp, hload, hc⟩ := he
  exact ⟨_, n, .of_exec he, Machine.visits_inputs he, loading_comes_up (.of_exec he) hl hp hload hc⟩

end

end AiroAgent.Serving
