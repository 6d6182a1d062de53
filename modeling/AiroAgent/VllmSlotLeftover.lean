import AiroAgent.VllmSlotTeardown

/-!
# What a cluster launch leaves behind

After the shell has exited nothing removes a container any more, while a run
command issued earlier may still create one. What is left is decided by the
last removal on each host: whether it came while the run command there was
still to create its container.
-/

namespace AiroAgent.VllmSlot.Life

variable {h : History} {s s' : State} {i : Input} {side : Side}

/-- There now or still to come. -/
def Container.Live (c : Container) : Prop := c = .pending ∨ c = .created

/-- Neither host has a container of this launch, now or after any further steps. -/
def NothingLeft (s : State) : Prop :=
  ∀ tr s', Machine.exec step s tr = some s' → ∀ side, s'.container side ≠ .created

/-- The last removal on that host found the run command at work on its container, and
neither has ended since. -/
def TooEarly (side : Side) (h : History) : Prop :=
  ∃ h₁ x h₂, h = h₁ ++ x :: h₂ ∧ issues x = some (.remove side) ∧ x.1.container side = .pending ∧
    ∀ y ∈ h₂, issues y ≠ some (.remove side) ∧ y.2 ≠ .finish side

theorem tooEarly_snoc : TooEarly side (h ++ [(s, i)]) ↔
    (issues (s, i) = some (.remove side) ∧ s.container side = .pending) ∨
      (TooEarly side h ∧ issues (s, i) ≠ some (.remove side) ∧ i ≠ .finish side) := by
  constructor
  · intro ht
    obtain ⟨h₁, x, h₂, hh, hi, hp, hn⟩ := ht
    rcases Machine.snoc_split hh with ⟨rfl, rfl, rfl⟩ | ⟨h₃, rfl, hh'⟩
    · exact .inl ⟨hi, hp⟩
    · exact .inr ⟨⟨h₁, x, h₃, hh', hi, hp, fun y hy => hn y (by simp [hy])⟩, hn (s, i) (by simp)⟩
  · intro ht
    rcases ht with ⟨hi, hp⟩ | ⟨⟨h₁, x, h₂, rfl, hi, hp, hn⟩, hlast⟩
    · exact ⟨h, (s, i), [], rfl, hi, hp, by simp⟩
    · refine ⟨h₁, x, h₂ ++ [(s, i)], by simp, hi, hp, fun y hy => ?_⟩
      rcases List.mem_append.mp hy with hy | hy
      · exact hn y hy
      · rw [List.mem_singleton.mp hy]
        exact hlast

/-- Past the last removal, a container that is there or to come stays so until it ends. -/
theorem live_step (hp : Phase s) (hn : ¬ ToRemove side s) (hst : step s i = some s') :
    (s'.container side).Live ↔ (s.container side).Live ∧ i ≠ .finish side := by
  cases step_trans hst with
  | trap => simp
  | script_end => simp
  | release_worker => simp
  | wait => simp
  | exit => simp
  | exit_done => simp
  | signal => simp
  | client_exit => simp
  | run hx hs ht =>
    -- while run commands are ahead the EXIT trap is set
    exact absurd (.trap hx (hp.run_inv hx ht).1) hn
  | @remove b side' rest hx hs ht =>
    by_cases hside : side = side'
    · subst hside
      exact absurd ⟨hx, .inr (.inr (by simp [ht]))⟩ hn
    · simp [Function.update_of_ne hside]
  | @create side' hc =>
    by_cases hside : side = side'
    · subst hside
      simp [Container.Live, hc]
    · simp [Function.update_of_ne hside]
  | @finish side' hc =>
    by_cases hside : side = side'
    · subst hside
      simp [Container.Live]
    · simp [Function.update_of_ne hside, Ne.symm hside]

theorem live_rm (c : Container) : (rm c).Live ↔ c = .pending := by
  cases c <;> simp [rm, Container.Live]

theorem container_remove (hi : issues (s, i) = some (.remove side)) (hst : step s i = some s') :
    s'.container side = rm (s.container side) := by
  obtain ⟨hx, hs, ⟨b, rfl⟩, rest, ht⟩ := issues_remove hi
  simp only [step, shell, hx, hs, ht, execute, Bool.false_eq_true, if_false, Option.some.injEq] at hst
  subst hst
  simp

/-- The shell will still remove the container of a host, or the last removal there has
decided whether one is left. -/
theorem run_live (hr : Run h s) : ToRemove side s ∨ (TooEarly side h ↔ (s.container side).Live) := by
  induction hr with
  | nil => exact .inl (.trap rfl rfl)
  | @snoc h s i s' hr hst ih =>
    by_cases hto : ToRemove side s
    · rcases toRemove_step (run_phase hr) hto hst with hto' | hi
      · exact .inl hto'
      · refine .inr ?_
        have hc : s'.container side = rm (s.container side) := container_remove hi hst
        rw [tooEarly_snoc, hc, live_rm]
        simp [hi]
    · by_cases hsig : i = .signal
      · subst hsig
        cases step_trans hst with
        | signal hx => exact .inl ⟨hx, .inr (.inl rfl)⟩
      · have hl := ih.resolve_left hto
        refine .inr ?_
        obtain ⟨-, hi⟩ := not_toRemove_step hto hst hsig
        rw [tooEarly_snoc, live_step (run_phase hr) hto hst, hl]
        simp [hi]

/-! ## After the shell has exited -/

theorem over_step (hx : s.exited.isSome = true) (hl : ∀ side, ¬ (s.container side).Live) (hst : step s i = some s') :
    s'.exited.isSome = true ∧ ∀ side, ¬ (s'.container side).Live := by
  cases step_trans hst with
  | trap he => simp [he] at hx
  | script_end he => simp [he] at hx
  | release_worker he => simp [he] at hx
  | run he => simp [he] at hx
  | wait he => simp [he] at hx
  | remove he => simp [he] at hx
  | exit he => simp [he] at hx
  | exit_done he => simp [he] at hx
  | signal he => simp [he] at hx
  | create hc => exact absurd (.inl hc) (hl _)
  | finish hc => exact absurd hc (hl _)
  | client_exit hc => exact ⟨hx, hl⟩

theorem nothing_left_iff_live (hx : s.exited.isSome = true) : NothingLeft s ↔ ∀ side, ¬ (s.container side).Live := by
  constructor
  · intro hn side hl
    rcases hl with hp | hc
    · refine hn [.create side] { s with container := Function.update s.container side .created } ?_ side (by simp)
      simp [Machine.exec, step, hp]
    · exact hn [] s rfl side hc
  · intro hl tr s' he side hc
    have hr : Machine.Run step s _ s' := .of_exec he
    obtain ⟨-, hl'⟩ := hr.inv (P := fun s => s.exited.isSome = true ∧ ∀ side, ¬ (s.container side).Live)
      ⟨hx, hl⟩ fun _ _ _ hi hst => over_step hi.1 hi.2 hst
    exact hl' side (.inr hc)

/-- **Nothing is left running.** Once the shell has exited no container of this launch is
there or comes up later, if and only if on neither host the last `rm -f` came while the
run command was still to create its container (and did not fail to). -/
theorem nothing_left_iff (hr : Run h s) (hx : s.exited.isSome = true) :
    NothingLeft s ↔ ∀ side, ¬ TooEarly side h := by
  rw [nothing_left_iff_live hx]
  refine forall_congr' fun side => not_congr ?_
  have hn : ¬ ToRemove side s := by
    intro hto
    simp [hto.1] at hx
  exact ((run_live hr).resolve_left hn).symm

/-- A TERM during the `wait`, then everything up to the exit of the shell. -/
def terminated : List Input := .signal :: List.replicate 7 (.shell true)

theorem nothing_left_iff_terminated :
    ∃ h s, Run h s ∧ h.map Prod.snd = launch ++ [.create .head, .create .worker] ++ terminated ∧
      s.exited = some 143 ∧ NothingLeft s := by
  have hr : Run (Machine.visits step {} (launch ++ [.create .head, .create .worker] ++ terminated)) _ := Machine.Run.of_exec rfl
  refine ⟨_, _, hr, rfl, rfl, (nothing_left_iff hr rfl).mpr fun side ht => ?_⟩
  obtain ⟨h₁, x, h₂, hh, hi, hp, -⟩ := ht
  have hx : ∀ x ∈ Machine.visits step {} (launch ++ [.create .head, .create .worker] ++ terminated),
      issues x = some (.remove side) → x.1.container side ≠ .pending := by
    cases side <;> decide
  exact hx x (by rw [hh]; simp) hi hp

/-- Terminated before the runtime of rank 0 got to create the container: it comes up unattended. -/
theorem created_after_exit :
    ∃ h s, Run h s ∧ h.map Prod.snd = launch ++ [.create .worker] ++ terminated ∧ s.exited = some 143 ∧ ¬ NothingLeft s := by
  have hr : Run (Machine.visits step {} (launch ++ [.create .worker] ++ terminated)) _ := Machine.Run.of_exec rfl
  exact ⟨_, _, hr, rfl, rfl, fun hn => hn [.create .head] _ rfl .head rfl⟩

end AiroAgent.VllmSlot.Life
