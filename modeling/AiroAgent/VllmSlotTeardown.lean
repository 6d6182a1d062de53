import AiroAgent.VllmSlotLife

/-!
# How a cluster launch ends

`vllm-slot` promises that the death of either rank takes the other down. The
EXIT trap removes both containers whatever ends the script, so what decides is
which removals are still to come when a rank exits, and whether the shell
notices the exit at all.
-/

namespace AiroAgent.VllmSlot.Life

variable {h : History} {s s' : State} {i : Input} {side : Side}

/-! ## Where the shell can be -/

inductive Phase (s : State) : Prop
  | launching : s.exit_trap = true → s.exited = none → s.client .head = .absent →
      s.todo = main ∨ s.todo = [.run .worker, .run .head, .wait] ∨ s.todo = [.run .head, .wait] → Phase s
  | waiting : s.exit_trap = true → s.exited = none → s.client .head ≠ .absent → s.todo = [.wait] → Phase s
  | ending (status : Nat) : s.exited = none →
      s.todo = cleanup ++ [.exit status] ∨ s.todo = [.remove .worker, .exit status] ∨ s.todo = [.exit status] → Phase s
  | done : s.exited.isSome = true → s.todo = [] → Phase s

theorem Phase.same (hp : Phase s) (ht : s'.todo = s.todo) (he : s'.exit_trap = s.exit_trap) (hx : s'.exited = s.exited)
    (hc : s'.client .head = .absent ↔ s.client .head = .absent) : Phase s' := by
  cases hp with
  | launching he' hx' hc' ht' => exact .launching (he.trans he') (hx.trans hx') (hc.mpr hc') (ht ▸ ht')
  | waiting he' hx' hc' ht' => exact .waiting (he.trans he') (hx.trans hx') (fun h => hc' (hc.mp h)) (ht.trans ht')
  | ending n hx' ht' => exact .ending n (hx.trans hx') (ht ▸ ht')
  | done hx' ht' => exact .done (hx ▸ hx') (ht.trans ht')

/-! What is ahead of the shell when it comes to a command. -/

theorem Phase.release_inv (hp : Phase s) (hx : s.exited = none) {rest : List Command}
    (ht : s.todo = .release_worker :: rest) :
    s.exit_trap = true ∧ s.client .head = .absent ∧ rest = [.run .worker, .run .head, .wait] := by
  cases hp with
  | launching he _ hc htodo =>
    rw [ht] at htodo
    simp only [main, List.cons.injEq, reduceCtorEq, true_and, false_and, or_false] at htodo
    exact ⟨he, hc, htodo⟩
  | waiting _ _ _ htodo => simp [ht] at htodo
  | ending n _ htodo => simp [ht, cleanup] at htodo
  | done hd _ => simp [hx] at hd

theorem Phase.run_inv (hp : Phase s) (hx : s.exited = none) {rest : List Command} (ht : s.todo = .run side :: rest) :
    s.exit_trap = true ∧ s.client .head = .absent ∧
      (side = .worker ∧ rest = [.run .head, .wait] ∨ side = .head ∧ rest = [.wait]) := by
  cases hp with
  | launching he _ hc htodo =>
    rw [ht] at htodo
    simp only [main, List.cons.injEq, reduceCtorEq, false_and, Command.run.injEq, false_or] at htodo
    exact ⟨he, hc, htodo⟩
  | waiting _ _ _ htodo => simp [ht] at htodo
  | ending n _ htodo => simp [ht, cleanup] at htodo
  | done hd _ => simp [hx] at hd

theorem Phase.wait_inv (hp : Phase s) (hx : s.exited = none) {rest : List Command} (ht : s.todo = .wait :: rest) :
    s.exit_trap = true ∧ s.client .head ≠ .absent := by
  cases hp with
  | launching _ _ _ htodo => simp [ht, main] at htodo
  | waiting he _ hc _ => exact ⟨he, hc⟩
  | ending n _ htodo => simp [ht, cleanup] at htodo
  | done hd _ => simp [hx] at hd

theorem Phase.remove_inv (hp : Phase s) (hx : s.exited = none) {rest : List Command} (ht : s.todo = .remove side :: rest) :
    ∃ status, rest = [.remove .worker, .exit status] ∨ rest = [.exit status] := by
  cases hp with
  | launching _ _ _ htodo => simp [ht, main] at htodo
  | waiting _ _ _ htodo => simp [ht] at htodo
  | ending n _ htodo =>
    rw [ht] at htodo
    simp only [cleanup, List.cons_append, List.nil_append, List.cons.injEq, Command.remove.injEq, reduceCtorEq,
      false_and, or_false] at htodo
    exact ⟨n, htodo.imp And.right And.right⟩
  | done hd _ => simp [hx] at hd

theorem Phase.exit_inv (hp : Phase s) (hx : s.exited = none) {status : Nat} {rest : List Command}
    (ht : s.todo = .exit status :: rest) : rest = [] := by
  cases hp with
  | launching _ _ _ htodo => simp [ht, main] at htodo
  | waiting _ _ _ htodo => simp [ht] at htodo
  | ending n _ htodo =>
    rw [ht] at htodo
    simp only [cleanup, List.cons_append, List.cons.injEq, reduceCtorEq, false_and, false_or] at htodo
    exact htodo.2
  | done hd _ => simp [hx] at hd

theorem phase_step (hp : Phase s) (hst : step s i = some s') : Phase s' := by
  cases step_trans hst with
  | trap hx hs => exact .ending 143 hx (.inl rfl)
  | script_end hx hs ht => exact .ending 0 hx (.inr (.inr rfl))
  | @release_worker b rest hx hs ht =>
    obtain ⟨he, hc, rfl⟩ := hp.release_inv hx ht
    cases b with
    | false => exact .ending 125 hx (.inr (.inr rfl))
    | true => exact .launching he hx hc (.inr (.inl rfl))
  | run hx hs ht =>
    obtain ⟨he, hc, ⟨rfl, rfl⟩ | ⟨rfl, rfl⟩⟩ := hp.run_inv hx ht
    · exact .launching he hx (by simp [hc]) (.inr (.inr rfl))
    · exact .waiting he hx (by simp) rfl
  | wait hx hs ht hc => exact .ending _ hx (.inr (.inr rfl))
  | remove hx hs ht =>
    obtain ⟨n, rfl | rfl⟩ := hp.remove_inv hx ht
    · exact .ending n hx (.inr (.inl rfl))
    · exact .ending n hx (.inr (.inr rfl))
  | exit hx hs ht he => exact .ending _ hx (.inl rfl)
  | exit_done hx hs ht he => exact .done rfl rfl
  | signal hx => exact hp.same rfl rfl rfl .rfl
  | create hc => exact hp.same rfl rfl rfl .rfl
  | finish hc => exact hp.same rfl rfl rfl .rfl
  | @client_exit side status hc =>
    refine hp.same rfl rfl rfl ?_
    by_cases hside : side = .head
    · subst hside
      simp [hc]
    · simp [Function.update_of_ne (Ne.symm hside)]

theorem run_phase (hr : Run h s) : Phase s :=
  hr.inv (.launching rfl rfl rfl (.inl rfl)) fun _ _ _ hp hst => phase_step hp hst

/-! ## Signals -/

def Signalled (h : History) : Prop := ∃ x ∈ h, x.2 = .signal

theorem signalled_snoc : Signalled (h ++ [(s, i)]) ↔ Signalled h ∨ i = .signal := by
  simp [Signalled, or_and_right, exists_or]

theorem no_wait_step (hw : .wait ∉ s.todo) (hst : step s i = some s') : .wait ∉ s'.todo := by
  cases step_trans hst with
  | trap => simp [cleanup]
  | script_end => simp
  | @release_worker b rest hx hs ht =>
    rw [ht] at hw
    cases b with
    | true => simpa using hw
    | false => simp
  | run hx hs ht => rw [ht] at hw; simpa using hw
  | wait => simp
  | remove hx hs ht => rw [ht] at hw; simpa using hw
  | exit => simp [cleanup]
  | exit_done => simp
  | signal => exact hw
  | create => exact hw
  | finish => exact hw
  | client_exit => exact hw

theorem pending_step (hp : s.signalled = true) (hst : step s i = some s') :
    s'.signalled = true ∨ s'.todo = cleanup ++ [.exit 143] := by
  cases step_trans hst with
  | trap => exact .inr rfl
  | signal => exact .inl rfl
  | create => exact .inl hp
  | finish => exact .inl hp
  | client_exit => exact .inl hp
  -- the trap comes before any command
  | script_end _ hn => rw [hp] at hn; cases hn
  | release_worker _ hn => rw [hp] at hn; cases hn
  | run _ hn => rw [hp] at hn; cases hn
  | wait _ hn => rw [hp] at hn; cases hn
  | remove _ hn => rw [hp] at hn; cases hn
  | exit _ hn => rw [hp] at hn; cases hn
  | exit_done _ hn => rw [hp] at hn; cases hn

theorem run_signalled (hr : Run h s) (hs : Signalled h) : s.signalled = true ∨ .wait ∉ s.todo := by
  induction hr with
  | nil => obtain ⟨x, hx, -⟩ := hs; cases hx
  | @snoc h s i s' hr hst ih =>
    rcases signalled_snoc.mp hs with hs | rfl
    · rcases ih hs with hp | hw
      · rcases pending_step hp hst with hp | ht
        · exact .inl hp
        · exact .inr (by simp [ht, cleanup])
      · exact .inr (no_wait_step hw hst)
    · cases step_trans hst with
      | signal => exact .inl rfl

/-- Without a signal, nothing but the `wait` goes on while rank 0 is alive. -/
structure Calm (s : State) : Prop where
  signalled : s.signalled = false
  waiting : s.client .head = .alive → s.todo = [.wait]

theorem calm_step (hp : Phase s) (hc : Calm s) (hst : step s i = some s') (hi : i ≠ .signal) : Calm s' := by
  cases step_trans hst with
  | trap _ hs => rw [hc.signalled] at hs; cases hs
  | script_end _ hs ht => exact ⟨hs, fun ha => by have := hc.waiting ha; rw [ht] at this; cases this⟩
  | release_worker _ hs ht => exact ⟨hs, fun ha => by have := hc.waiting ha; rw [ht] at this; cases this⟩
  | run hx hs ht =>
    refine ⟨hs, fun ha => ?_⟩
    obtain ⟨-, hh, ⟨rfl, rfl⟩ | ⟨rfl, rfl⟩⟩ := hp.run_inv hx ht
    · simp [hh] at ha
    · rfl
  | wait _ hs _ hh => exact ⟨hs, fun ha => by rw [hh] at ha; cases ha⟩
  | remove _ hs ht => exact ⟨hs, fun ha => by have := hc.waiting ha; rw [ht] at this; cases this⟩
  | exit _ hs ht => exact ⟨hs, fun ha => by have := hc.waiting ha; rw [ht] at this; cases this⟩
  | exit_done _ hs ht => exact ⟨hs, fun ha => by have := hc.waiting ha; rw [ht] at this; cases this⟩
  | signal => exact absurd rfl hi
  | create => exact ⟨hc.signalled, hc.waiting⟩
  | finish => exact ⟨hc.signalled, hc.waiting⟩
  | @client_exit side status =>
    refine ⟨hc.signalled, fun ha => hc.waiting ?_⟩
    by_cases hside : side = .head
    · subst hside
      simp at ha
    · simpa [Function.update_of_ne (Ne.symm hside)] using ha

theorem run_calm (hr : Run h s) (hs : ¬ Signalled h) : Calm s := by
  induction hr with
  | nil => exact ⟨rfl, fun ha => by cases ha⟩
  | @snoc h s i s' hr hst ih =>
    rw [signalled_snoc, not_or] at hs
    exact calm_step (run_phase hr) (ih hs.1) hst hs.2

/-! ## Removals still to come -/

/-- The shell will get to the removal of that container before it exits. -/
def ToRemove (side : Side) (s : State) : Prop :=
  s.exited = none ∧ (s.exit_trap = true ∨ s.signalled = true ∨ .remove side ∈ s.todo)

theorem ToRemove.trap (hx : s.exited = none) (ht : s.exit_trap = true) : ToRemove side s := ⟨hx, .inl ht⟩

theorem issues_remove (h : issues (s, i) = some (.remove side)) :
    s.exited = none ∧ s.signalled = false ∧ (∃ b, i = .shell b) ∧ ∃ rest, s.todo = .remove side :: rest := by
  unfold issues at h
  cases i with
  | shell b =>
    simp only [Option.ite_none_right_eq_some] at h
    obtain ⟨⟨hx, hs⟩, ht⟩ := h
    exact ⟨hx, hs, ⟨b, rfl⟩, List.head?_eq_some_iff.mp ht⟩
  | signal => cases h
  | create => cases h
  | finish => cases h
  | client_exit => cases h

theorem toRemove_step (hp : Phase s) (hr : ToRemove side s) (hst : step s i = some s') :
    ToRemove side s' ∨ issues (s, i) = some (.remove side) := by
  obtain ⟨hx, hr⟩ := hr
  cases step_trans hst with
  | trap => exact .inl ⟨hx, .inr (.inr (by cases side <;> simp [cleanup]))⟩
  | script_end _ hs ht => exact .inl ⟨hx, by simpa [ht, hs] using hr⟩
  | release_worker _ hs ht => exact .inl (.trap hx (hp.release_inv hx ht).1)
  | run _ hs ht => exact .inl ⟨hx, by simpa [ht] using hr⟩
  | wait _ hs ht => exact .inl (.trap hx (hp.wait_inv hx ht).1)
  | @remove b side' rest _ hs ht =>
    by_cases hside : side' = side
    · subst hside
      exact .inr (by simp [issues, hx, hs, ht])
    · exact .inl ⟨hx, by simpa [ht, Ne.symm hside] using hr⟩
  | exit => exact .inl ⟨hx, .inr (.inr (by cases side <;> simp [cleanup]))⟩
  | exit_done _ hs ht he => simp [he, hs, ht, hp.exit_inv hx ht] at hr
  | signal => exact .inl ⟨hx, .inr (.inl rfl)⟩
  | create => exact .inl ⟨hx, hr⟩
  | finish => exact .inl ⟨hx, hr⟩
  | client_exit => exact .inl ⟨hx, hr⟩

theorem not_toRemove_step (hn : ¬ ToRemove side s) (hst : step s i = some s') (hi : i ≠ .signal) :
    ¬ ToRemove side s' ∧ issues (s, i) ≠ some (.remove side) := by
  have hissue : issues (s, i) ≠ some (.remove side) := by
    intro h
    obtain ⟨hx, -, -, rest, ht⟩ := issues_remove h
    exact hn ⟨hx, .inr (.inr (by simp [ht]))⟩
  refine ⟨?_, hissue⟩
  intro hr
  apply hn
  obtain ⟨hx', hr⟩ := hr
  cases step_trans hst with
  | trap hx hs => exact ⟨hx, .inr (.inl hs)⟩
  | script_end hx hs ht => exact ⟨hx, by simpa [hs, ht] using hr⟩
  | @release_worker b rest hx hs ht =>
    refine ⟨hx, ?_⟩
    cases b with
    | true => simpa [ht] using hr
    | false => exact .inl (by simpa [hs] using hr)
  | run hx hs ht => exact ⟨hx, by simpa [ht] using hr⟩
  | wait hx hs ht => exact ⟨hx, .inl (by simpa [hs] using hr)⟩
  | remove hx hs ht =>
    refine ⟨hx, ?_⟩
    simp only [ht, List.mem_cons]
    exact hr.imp_right (.imp_right .inr)
  | exit hx hs ht he => exact ⟨hx, .inl he⟩
  | exit_done => cases hx'
  | signal => exact absurd rfl hi
  | create => exact ⟨hx', hr⟩
  | finish => exact ⟨hx', hr⟩
  | client_exit => exact ⟨hx', hr⟩

/-! ## Either rank dying -/

def Side.other : Side → Side
  | .head => .worker
  | .worker => .head

def HasExited (s : State) (side : Side) : Prop := ∃ status, s.client side = .exited status

/-- One rank has exited, the other has not, and the shell has nothing it can do. -/
structure Stuck (s : State) : Prop where
  one_exited : ∃ side, HasExited s side ∧ ¬ HasExited s side.other
  running : s.exited = none
  no_step : ∀ released, shell released s = none

def is_exit : Input → Bool
  | .client_exit _ _ => true
  | _ => false

/-- The first rank to exit in `h`, as a split of the history. -/
structure FirstExit (h h₁ : History) (x : State × Input) (h₂ : History) : Prop where
  split : h = h₁ ++ x :: h₂
  exit : is_exit x.2 = true
  first : ∀ y ∈ h₁, is_exit y.2 = false

/-- If the shell has exited, it removed both containers after the first rank exited. -/
def TornDown (h : History) (s : State) : Prop :=
  s.exited.isSome = true → ∀ h₁ x h₂, FirstExit h h₁ x h₂ → ∀ side, ∃ y ∈ h₂, issues y = some (.remove side)

/-- Rank 1 has exited, rank 0 has been started and has not, and no TERM or INT has come. -/
structure DeadWorker (h : History) (s : State) : Prop where
  no_signal : ¬ Signalled h
  head : s.client .head = .alive
  worker : HasExited s .worker

/-- The first rank to exit did so with both removals ahead of the shell, or a signal came later. -/
def ExitsInTime (h : History) (s : State) : Prop :=
  s.exited.isSome = true → ∀ h₁ x h₂, FirstExit h h₁ x h₂ → (∀ side, ToRemove side x.1) ∨ Signalled h₂

theorem shell_none (hx : s.exited = none) {b : Bool} (hn : shell b s = none) :
    s.signalled = false ∧ (∃ rest, s.todo = .wait :: rest) ∧ ¬ HasExited s .head := by
  unfold shell at hn
  simp only [hx] at hn
  cases hs : s.signalled with
  | true => simp [hs] at hn
  | false =>
    simp only [hs, Bool.false_eq_true, if_false] at hn
    refine ⟨rfl, ?_⟩
    split at hn
    · cases hn
    · next c rest ht =>
      cases c with
      | release_worker => cases hn
      | run side => cases hn
      | remove side => cases hn
      | exit status =>
        simp only [execute] at hn
        split at hn <;> cases hn
      | wait =>
        refine ⟨⟨rest, ht⟩, ?_⟩
        intro hx
        obtain ⟨status, hc⟩ := hx
        simp [execute, hc] at hn

theorem alive_of_not_exited (hc : s.client side ≠ .absent) (hx : ¬ HasExited s side) : s.client side = .alive := by
  cases h : s.client side with
  | absent => exact absurd h hc
  | alive => rfl
  | exited status => exact absurd ⟨status, h⟩ hx

theorem stuck_iff (hr : Run h s) : Stuck s ↔ DeadWorker h s := by
  constructor
  · intro hst
    obtain ⟨hs, ⟨rest, ht⟩, hh⟩ := shell_none hst.running (hst.no_step true)
    refine ⟨?_, ?_, ?_⟩
    · intro hsig
      rcases run_signalled hr hsig with hp | hw
      · rw [hs] at hp
        cases hp
      · simp [ht] at hw
    · exact alive_of_not_exited ((run_phase hr).wait_inv hst.running ht).2 hh
    · obtain ⟨side, hx, -⟩ := hst.one_exited
      cases side with
      | head => exact absurd hx hh
      | worker => exact hx
  · intro hd
    have hcalm := run_calm hr hd.no_signal
    have ht := hcalm.waiting hd.head
    have hh : ¬ HasExited s .head := by
      intro hx
      obtain ⟨status, hc⟩ := hx
      rw [hd.head] at hc
      cases hc
    have hx : s.exited = none := by
      cases run_phase hr with
      | launching _ hx _ _ => exact hx
      | waiting _ hx _ _ => exact hx
      | ending n hx _ => exact hx
      | done _ hn => rw [ht] at hn; cases hn
    refine ⟨⟨.worker, hd.worker, hh⟩, hx, fun b => ?_⟩
    simp [shell, hx, hcalm.signalled, ht, execute, hd.head]

theorem removed_or_to_remove (hr : Run h s) {h₁ h₂ : History} {x : State × Input} (hh : h = h₁ ++ x :: h₂)
    (hx : is_exit x.2 = true) (hk : ToRemove side x.1 ∨ Signalled h₂) :
    (∃ y ∈ h₂, issues y = some (.remove side)) ∨ ToRemove side s := by
  induction hr generalizing h₂ with
  | nil => simp at hh
  | @snoc h s i s' hr hst ih =>
    rcases Machine.snoc_split hh with ⟨rfl, rfl, rfl⟩ | ⟨h₃, rfl, hh'⟩
    · rcases hk with hk | hk
      · rcases toRemove_step (run_phase hr) hk hst with hk | hk
        · exact .inr hk
        · obtain ⟨-, -, ⟨b, rfl⟩, -⟩ := issues_remove hk
          cases hx
      · obtain ⟨y, hy, -⟩ := hk
        cases hy
    · by_cases hi : i = .signal
      · subst hi
        cases step_trans hst with
        | signal hx => exact .inr ⟨hx, .inr (.inl rfl)⟩
      · rw [signalled_snoc] at hk
        simp only [hi, or_false] at hk
        rcases ih hh' hk with hrem | hto
        · obtain ⟨y, hy, he⟩ := hrem
          exact .inl ⟨y, List.mem_append_left _ hy, he⟩
        · rcases toRemove_step (run_phase hr) hto hst with hto | hto
          · exact .inr hto
          · exact .inl ⟨_, List.mem_append_right _ List.mem_cons_self, hto⟩

theorem never_removed (hr : Run h s) {h₁ h₂ : History} {x : State × Input} (hh : h = h₁ ++ x :: h₂)
    (hx : is_exit x.2 = true) (hn : ¬ ToRemove side x.1) (hs : ¬ Signalled h₂) :
    ¬ ToRemove side s ∧ ∀ y ∈ h₂, issues y ≠ some (.remove side) := by
  induction hr generalizing h₂ with
  | nil => simp at hh
  | @snoc h s i s' hr hst ih =>
    rcases Machine.snoc_split hh with ⟨rfl, rfl, rfl⟩ | ⟨h₃, rfl, hh'⟩
    · have hi : i ≠ .signal := by
        intro hi
        subst hi
        cases hx
      exact ⟨(not_toRemove_step hn hst hi).1, fun y hy => by cases hy⟩
    · rw [signalled_snoc, not_or] at hs
      obtain ⟨hto, hrem⟩ := ih hh' hs.1
      obtain ⟨hto', hrem'⟩ := not_toRemove_step hto hst hs.2
      refine ⟨hto', fun y hy => ?_⟩
      rcases List.mem_append.mp hy with hy | hy
      · exact hrem y hy
      · rw [List.mem_singleton.mp hy]
        exact hrem'

theorem torn_down_iff (hr : Run h s) : TornDown h s ↔ ExitsInTime h s := by
  unfold TornDown ExitsInTime
  refine imp_congr_right fun hx => ?_
  constructor
  · intro ht h₁ x h₂ hf
    by_contra hn
    rw [not_or, not_forall] at hn
    obtain ⟨⟨side, hto⟩, hs⟩ := hn
    obtain ⟨y, hy, he⟩ := ht h₁ x h₂ hf side
    exact (never_removed hr hf.split hf.exit hto hs).2 y hy he
  · intro ht h₁ x h₂ hf side
    rcases removed_or_to_remove hr hf.split hf.exit ((ht h₁ x h₂ hf).imp_left fun hto => hto side) with hrem | hto
    · exact hrem
    · rw [hto.1] at hx
      cases hx

/-- **Either rank dying tears down both.** The shell is not stuck with one rank gone, and
has removed both containers after the first exit when it exits itself, if and only if
rank 1 is not the one that is gone, unsignalled, and the first exit came in time. -/
theorem shared_lifetime_iff (hr : Run h s) : ¬ Stuck s ∧ TornDown h s ↔ ¬ DeadWorker h s ∧ ExitsInTime h s := by
  rw [stuck_iff hr, torn_down_iff hr]

def launch : List Input := [.shell true, .shell true, .shell true]

def head_dies : List Input :=
  launch ++ [.create .head, .create .worker, .client_exit .head 1] ++ List.replicate 5 (.shell true)

theorem shared_lifetime_iff_head_dies :
    ∃ h s, Run h s ∧ h.map Prod.snd = head_dies ∧ s.exited = some 1 ∧ ¬ Stuck s ∧ TornDown h s := by
  have hr : Run (Machine.visits step {} head_dies) _ := Machine.Run.of_exec rfl
  refine ⟨_, _, hr, rfl, rfl, (shared_lifetime_iff hr).mpr ⟨?_, ?_⟩⟩
  · intro hd
    have := hd.head
    cases this
  · intro _ h₁ x h₂ hf
    have hx : ∀ x ∈ Machine.visits step {} head_dies, is_exit x.2 = true → x.1.exited = none ∧ x.1.exit_trap = true := by
      decide
    obtain ⟨he, ht⟩ := hx x (by simp [hf.split]) hf.exit
    exact .inl fun side => .trap he ht

/-- `wait $!` waits for rank 0 alone: rank 1 failing to start leaves the shell in it. -/
theorem dead_worker_leaves_head_up :
    ∃ h s, Run h s ∧ h.map Prod.snd = launch ++ [.create .head, .client_exit .worker 255] ∧ Stuck s := by
  have hr : Run (Machine.visits step {} (launch ++ [.create .head, .client_exit .worker 255])) _ := Machine.Run.of_exec rfl
  refine ⟨_, _, hr, rfl, ?_, rfl, fun _ => rfl⟩
  exact ⟨.worker, ⟨255, rfl⟩, fun hx => by obtain ⟨status, hc⟩ := hx; cases hc⟩

end AiroAgent.VllmSlot.Life
