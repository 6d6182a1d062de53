import Mathlib.Data.Finset.Basic
import Mathlib.Data.Set.Insert

/-!
# One process and the children it watches

The part of OTP that a process sees which starts children under a supervisor
and monitors them: the live children, the monitors it holds, and the `:DOWN`
messages on their way to it. Messages are taken in any order, so whatever the
scheduler and the signal delays do to the mailbox is covered.
-/

namespace Otp

structure Down (Pid Ref Reason : Type) where
  ref : Ref
  pid : Pid
  reason : Reason
  deriving DecidableEq

/-- An active monitor watches a live child: the exit of a watched child turns
the monitor into a message. -/
@[ext]
structure World (Pid Ref Reason : Type) where
  children : Finset Pid
  monitors : List (Ref × Pid)
  mailbox : List (Down Pid Ref Reason)
  terminated : Finset Pid
  watched : ∀ m ∈ monitors, m.2 ∈ children

namespace World

variable {Pid Ref Reason : Type}

def empty : World Pid Ref Reason := ⟨∅, [], [], ∅, by simp⟩

section
variable [DecidableEq Pid]

def start_child (pid : Pid) (w : World Pid Ref Reason) : World Pid Ref Reason :=
  { w with
    children := insert pid w.children
    watched := fun m hm => Finset.mem_insert_of_mem (w.watched m hm) }

def exit (pid : Pid) (reason : Reason) (w : World Pid Ref Reason) : World Pid Ref Reason :=
  { w with
    children := w.children.erase pid
    monitors := w.monitors.filter (·.2 ≠ pid)
    mailbox := w.mailbox ++ (w.monitors.filter (·.2 = pid)).map fun m => ⟨m.1, pid, reason⟩
    watched := fun m hm => by
      simp only [List.mem_filter, decide_eq_true_eq] at hm
      exact Finset.mem_erase.mpr ⟨hm.2, w.watched m hm.1⟩ }

/-- Returns once the child is dead; a pid that is no live child is `:not_found`. -/
def terminate_child (pid : Pid) (shutdown : Reason) (w : World Pid Ref Reason) : World Pid Ref Reason :=
  let w := { w with terminated := insert pid w.terminated }
  if pid ∈ w.children then w.exit pid shutdown else w

/-- Monitoring a dead process delivers its `:DOWN` at once. -/
def monitor (ref : Ref) (pid : Pid) (noproc : Reason) (w : World Pid Ref Reason) : World Pid Ref Reason :=
  if h : pid ∈ w.children then
    { w with
      monitors := w.monitors ++ [(ref, pid)]
      watched := fun m hm => by
        rcases List.mem_append.mp hm with hm | hm
        · exact w.watched m hm
        · rw [List.mem_singleton.mp hm]; exact h }
  else { w with mailbox := w.mailbox ++ [⟨ref, pid, noproc⟩] }

end

/-- `demonitor` with `:flush`: the monitor and its pending message both go. -/
def demonitor_flush [DecidableEq Ref] (ref : Ref) (w : World Pid Ref Reason) : World Pid Ref Reason :=
  { w with
    monitors := w.monitors.filter (·.1 ≠ ref)
    mailbox := w.mailbox.filter (·.ref ≠ ref)
    watched := fun m hm => w.watched m (List.mem_filter.mp hm).1 }

def receive [DecidableEq Pid] [DecidableEq Ref] [DecidableEq Reason] (d : Down Pid Ref Reason) (w : World Pid Ref Reason) : World Pid Ref Reason :=
  { w with mailbox := w.mailbox.filter (· ≠ d) }

/-- The watching process restarts: its monitors and its mailbox are gone, the
children live on. -/
def restart (w : World Pid Ref Reason) : World Pid Ref Reason :=
  { w with monitors := [], mailbox := [], watched := by simp }

/-! ## What each operation does -/

section
variable (pid : Pid) (ref : Ref) (reason : Reason) (d : Down Pid Ref Reason) (w : World Pid Ref Reason)

section
variable [DecidableEq Pid]

@[simp] theorem children_start_child : (w.start_child pid).children = insert pid w.children := rfl
@[simp] theorem monitors_start_child : (w.start_child pid).monitors = w.monitors := rfl
@[simp] theorem mailbox_start_child : (w.start_child pid).mailbox = w.mailbox := rfl
@[simp] theorem terminated_start_child : (w.start_child pid).terminated = w.terminated := rfl

@[simp] theorem children_exit : (w.exit pid reason).children = w.children.erase pid := rfl
@[simp] theorem terminated_exit : (w.exit pid reason).terminated = w.terminated := rfl

theorem mem_monitors_exit {m : Ref × Pid} :
    m ∈ (w.exit pid reason).monitors ↔ m ∈ w.monitors ∧ m.2 ≠ pid := by
  simp [exit]

theorem mem_mailbox_exit {x : Down Pid Ref Reason} :
    x ∈ (w.exit pid reason).mailbox ↔
      x ∈ w.mailbox ∨ (x.ref, pid) ∈ w.monitors ∧ x.pid = pid ∧ x.reason = reason := by
  obtain ⟨xr, xp, xe⟩ := x
  simp only [exit, List.mem_append, List.mem_map, List.mem_filter, decide_eq_true_eq, Down.mk.injEq]
  constructor
  · intro hx
    rcases hx with h | ⟨⟨r, p⟩, ⟨hm, rfl⟩, rfl, rfl, rfl⟩
    · exact .inl h
    · exact .inr ⟨hm, rfl, rfl⟩
  · intro hx
    rcases hx with h | ⟨hm, rfl, rfl⟩
    · exact .inl h
    · exact .inr ⟨(xr, xp), ⟨hm, rfl⟩, rfl, rfl, rfl⟩

theorem exit_of_dead (h : pid ∉ w.children) : w.exit pid reason = w := by
  have hm : ∀ m ∈ w.monitors, m.2 ≠ pid := fun m hm e => h (e ▸ w.watched m hm)
  have h₁ : w.monitors.filter (·.2 ≠ pid) = w.monitors :=
    List.filter_eq_self.mpr fun m hx => by simpa using hm m hx
  have h₂ : w.monitors.filter (·.2 = pid) = [] :=
    List.filter_eq_nil_iff.mpr fun m hx => by simpa using hm m hx
  ext x
  · simp only [children_exit, Finset.mem_erase, and_iff_right_iff_imp]
    intro hx he
    subst he
    exact h hx
  · simp only [exit, h₁]
  · simp only [exit, h₂, List.map_nil, List.append_nil]
  · rfl

theorem terminate_child_eq :
    w.terminate_child pid reason = { w.exit pid reason with terminated := insert pid w.terminated } := by
  unfold terminate_child
  by_cases h : pid ∈ w.children
  · simp only [h, if_true]; rfl
  · simp only [h, if_false]
    conv_rhs => rw [exit_of_dead pid reason w h]

@[simp] theorem children_terminate_child :
    (w.terminate_child pid reason).children = w.children.erase pid := by
  rw [terminate_child_eq]; rfl

@[simp] theorem monitors_terminate_child :
    (w.terminate_child pid reason).monitors = (w.exit pid reason).monitors := by
  rw [terminate_child_eq]

@[simp] theorem mailbox_terminate_child :
    (w.terminate_child pid reason).mailbox = (w.exit pid reason).mailbox := by
  rw [terminate_child_eq]

@[simp] theorem terminated_terminate_child :
    (w.terminate_child pid reason).terminated = insert pid w.terminated := by
  rw [terminate_child_eq]

@[simp] theorem children_monitor : (w.monitor ref pid reason).children = w.children := by
  unfold monitor; split <;> rfl

@[simp] theorem terminated_monitor : (w.monitor ref pid reason).terminated = w.terminated := by
  unfold monitor; split <;> rfl

theorem mem_monitors_monitor {m : Ref × Pid} :
    m ∈ (w.monitor ref pid reason).monitors ↔ m ∈ w.monitors ∨ pid ∈ w.children ∧ m = (ref, pid) := by
  unfold monitor
  split
  · rename_i h; simp [h]
  · rename_i h; simp [h]

theorem mem_mailbox_monitor {x : Down Pid Ref Reason} :
    x ∈ (w.monitor ref pid reason).mailbox ↔
      x ∈ w.mailbox ∨ pid ∉ w.children ∧ x = ⟨ref, pid, reason⟩ := by
  unfold monitor
  split
  · rename_i h; simp [h]
  · rename_i h; simp [h]

end

section
variable [DecidableEq Ref]

@[simp] theorem children_demonitor_flush : (w.demonitor_flush ref).children = w.children := rfl
@[simp] theorem terminated_demonitor_flush : (w.demonitor_flush ref).terminated = w.terminated := rfl

theorem mem_monitors_demonitor_flush {m : Ref × Pid} :
    m ∈ (w.demonitor_flush ref).monitors ↔ m ∈ w.monitors ∧ m.1 ≠ ref := by
  simp [demonitor_flush]

theorem mem_mailbox_demonitor_flush {x : Down Pid Ref Reason} :
    x ∈ (w.demonitor_flush ref).mailbox ↔ x ∈ w.mailbox ∧ x.ref ≠ ref := by
  simp [demonitor_flush]

end

section
variable [DecidableEq Pid] [DecidableEq Ref] [DecidableEq Reason]

@[simp] theorem children_receive : (w.receive d).children = w.children := rfl
@[simp] theorem monitors_receive : (w.receive d).monitors = w.monitors := rfl
@[simp] theorem terminated_receive : (w.receive d).terminated = w.terminated := rfl

theorem mem_mailbox_receive {x : Down Pid Ref Reason} :
    x ∈ (w.receive d).mailbox ↔ x ∈ w.mailbox ∧ x ≠ d := by
  simp [receive]

end

@[simp] theorem children_restart : w.restart.children = w.children := rfl
@[simp] theorem monitors_restart : w.restart.monitors = [] := rfl
@[simp] theorem mailbox_restart : w.restart.mailbox = [] := rfl
@[simp] theorem terminated_restart : w.restart.terminated = w.terminated := rfl

end

/-! ## Monitors that are still owed a message -/

/-- The monitor `ref` of `pid` was taken and its `:DOWN` is still to be handled. -/
def Tracks (w : World Pid Ref Reason) (ref : Ref) (pid : Pid) : Prop :=
  (ref, pid) ∈ w.monitors ∨ ∃ reason, ⟨ref, pid, reason⟩ ∈ w.mailbox

section
variable {w : World Pid Ref Reason} {ref ref' : Ref} {pid pid' : Pid} {reason : Reason}

section
variable [DecidableEq Pid]

theorem tracks_start_child : (w.start_child pid').Tracks ref pid ↔ w.Tracks ref pid := Iff.rfl

theorem tracks_exit : (w.exit pid' reason).Tracks ref pid ↔ w.Tracks ref pid := by
  unfold Tracks
  simp only [mem_monitors_exit, mem_mailbox_exit]
  constructor
  · intro hx
    rcases hx with ⟨h, -⟩ | ⟨r, h | ⟨h, rfl, -⟩⟩
    · exact .inl h
    · exact .inr ⟨r, h⟩
    · exact .inl h
  · intro hx
    rcases hx with h | ⟨r, h⟩
    · by_cases hp : pid = pid'
      · subst hp; exact .inr ⟨reason, .inr ⟨h, rfl, rfl⟩⟩
      · exact .inl ⟨h, hp⟩
    · exact .inr ⟨r, .inl h⟩

theorem tracks_terminate_child : (w.terminate_child pid' reason).Tracks ref pid ↔ w.Tracks ref pid := by
  unfold Tracks
  rw [monitors_terminate_child, mailbox_terminate_child]
  exact tracks_exit

theorem tracks_monitor :
    (w.monitor ref' pid' reason).Tracks ref pid ↔ w.Tracks ref pid ∨ (ref = ref' ∧ pid = pid') := by
  unfold Tracks
  simp only [mem_monitors_monitor, mem_mailbox_monitor, Prod.mk.injEq, Down.mk.injEq]
  by_cases h : pid' ∈ w.children
  · simp only [h, true_and, not_true, false_and, or_false]
    exact or_right_comm
  · simp only [h, false_and, or_false, not_false_eq_true, true_and]
    constructor
    · intro hx
      rcases hx with h | ⟨r, h | ⟨rfl, rfl, -⟩⟩
      · exact .inl (.inl h)
      · exact .inl (.inr ⟨r, h⟩)
      · exact .inr ⟨rfl, rfl⟩
    · intro hx
      rcases hx with (h | ⟨r, h⟩) | ⟨rfl, rfl⟩
      · exact .inl h
      · exact .inr ⟨r, .inl h⟩
      · exact .inr ⟨reason, .inr ⟨rfl, rfl, rfl⟩⟩

end

theorem tracks_demonitor_flush [DecidableEq Ref] : (w.demonitor_flush ref').Tracks ref pid ↔ w.Tracks ref pid ∧ ref ≠ ref' := by
  unfold Tracks
  simp only [mem_monitors_demonitor_flush, mem_mailbox_demonitor_flush]
  constructor
  · intro hx
    rcases hx with ⟨h, hr⟩ | ⟨r, h, hr⟩
    · exact ⟨.inl h, hr⟩
    · exact ⟨.inr ⟨r, h⟩, hr⟩
  · intro hx
    obtain ⟨h | ⟨r, h⟩, hr⟩ := hx
    · exact .inl ⟨h, hr⟩
    · exact .inr ⟨r, h, hr⟩

section
variable [DecidableEq Pid] [DecidableEq Ref] [DecidableEq Reason]

theorem Tracks.of_receive {d : Down Pid Ref Reason} (h : (w.receive d).Tracks ref pid) : w.Tracks ref pid := by
  rcases h with h | ⟨r, h⟩
  · exact .inl h
  · exact .inr ⟨r, (mem_mailbox_receive d w).mp h |>.1⟩

theorem Tracks.receive {d : Down Pid Ref Reason} (h : w.Tracks ref pid) (hr : d.ref ≠ ref) :
    (w.receive d).Tracks ref pid := by
  rcases h with h | ⟨r, h⟩
  · exact .inl h
  · exact .inr ⟨r, (mem_mailbox_receive d w).mpr ⟨h, fun e => hr (e ▸ rfl)⟩⟩

end

theorem Tracks.down_of_dead (h : w.Tracks ref pid) (hd : pid ∉ w.children) :
    ∃ reason, ⟨ref, pid, reason⟩ ∈ w.mailbox := by
  rcases h with h | h
  · exact absurd (w.watched _ h) hd
  · exact h

end

/-! ## The discipline of fresh pids and refs -/

/-- `P` holds the pids ever started, `K` the monitors ever taken. Only started
pids live, only taken monitors are tracked, and a `:DOWN` is only ever of a
dead pid. -/
structure Good (w : World Pid Ref Reason) (P : Set Pid) (K : Set (Ref × Pid)) : Prop where
  started : ∀ pid ∈ w.children, pid ∈ P
  taken : ∀ ref pid, w.Tracks ref pid → (ref, pid) ∈ K
  known : ∀ k ∈ K, k.2 ∈ P
  dead : ∀ d ∈ w.mailbox, d.pid ∉ w.children

section
variable {w : World Pid Ref Reason} {P : Set Pid} {K : Set (Ref × Pid)} {ref : Ref} {pid : Pid} {reason : Reason}

theorem Good.empty : (World.empty : World Pid Ref Reason).Good ∅ ∅ :=
  ⟨by simp [World.empty], by simp [Tracks, World.empty], by simp, by simp [World.empty]⟩

theorem Good.mailbox_taken (h : w.Good P K) {d : Down Pid Ref Reason} (hd : d ∈ w.mailbox) : (d.ref, d.pid) ∈ K :=
  h.taken _ _ (.inr ⟨d.reason, hd⟩)

section
variable [DecidableEq Pid]

theorem Good.start_child (h : w.Good P K) (hf : pid ∉ P) : (w.start_child pid).Good (insert pid P) K where
  started q hq := by
    rcases Finset.mem_insert.mp hq with rfl | hq
    · exact Set.mem_insert _ _
    · exact Set.mem_insert_of_mem _ (h.started q hq)
  taken := h.taken
  known k hk := Set.mem_insert_of_mem _ (h.known k hk)
  dead d hd hc := by
    rcases Finset.mem_insert.mp hc with e | hc
    · exact hf (e ▸ h.known _ (h.mailbox_taken hd))
    · exact h.dead d hd hc

theorem Good.exit (h : w.Good P K) : (w.exit pid reason).Good P K where
  started q hq := h.started q (Finset.mem_of_mem_erase hq)
  taken r q ht := h.taken r q (tracks_exit.mp ht)
  known := h.known
  dead d hd hc := by
    obtain ⟨hne, hc⟩ := Finset.mem_erase.mp hc
    rcases (mem_mailbox_exit pid reason w).mp hd with hd | ⟨-, e, -⟩
    · exact h.dead d hd hc
    · exact hne e

theorem Good.terminate_child (h : w.Good P K) : (w.terminate_child pid reason).Good P K := by
  have he : (w.exit pid reason).Good P K := h.exit
  rw [terminate_child_eq]
  exact ⟨he.started, he.taken, he.known, he.dead⟩

theorem Good.monitor (h : w.Good P K) (hp : pid ∈ P) : (w.monitor ref pid reason).Good P (insert (ref, pid) K) where
  started q hq := h.started q (by simpa using hq)
  taken r q ht := by
    rcases tracks_monitor.mp ht with ht | ⟨rfl, rfl⟩
    · exact Set.mem_insert_of_mem _ (h.taken r q ht)
    · exact Set.mem_insert _ _
  known k hk := by
    rcases hk with rfl | hk
    · exact hp
    · exact h.known k hk
  dead d hd := by
    rw [children_monitor]
    rcases (mem_mailbox_monitor pid ref reason w).mp hd with hd | ⟨hn, rfl⟩
    · exact h.dead d hd
    · exact hn

end

theorem Good.demonitor_flush [DecidableEq Ref] (h : w.Good P K) : (w.demonitor_flush ref).Good P K where
  started := h.started
  taken r q ht := h.taken r q (tracks_demonitor_flush.mp ht).1
  known := h.known
  dead d hd := h.dead d ((mem_mailbox_demonitor_flush ref w).mp hd).1

theorem Good.receive [DecidableEq Pid] [DecidableEq Ref] [DecidableEq Reason] (h : w.Good P K)
    {d : Down Pid Ref Reason} : (w.receive d).Good P K where
  started := h.started
  taken r q ht := h.taken r q ht.of_receive
  known := h.known
  dead x hx := h.dead x ((mem_mailbox_receive d w).mp hx).1

theorem Good.restart (h : w.Good P K) : w.restart.Good P K where
  started := h.started
  taken r q ht := by simp [Tracks] at ht
  known := h.known
  dead d hd := by simp at hd

end

/-! ## Two worlds that agree on some children -/

/-- The two worlds cannot be told apart by the children in `P`. -/
structure AgreeOn (P : Set Pid) (w v : World Pid Ref Reason) : Prop where
  children : ∀ pid ∈ P, pid ∈ w.children ↔ pid ∈ v.children
  monitors : ∀ m : Ref × Pid, m.2 ∈ P → (m ∈ w.monitors ↔ m ∈ v.monitors)
  mailbox : ∀ d : Down Pid Ref Reason, d.pid ∈ P → (d ∈ w.mailbox ↔ d ∈ v.mailbox)

section
variable {w v : World Pid Ref Reason} {P : Set Pid} {pid : Pid} {ref : Ref} {reason : Reason}
  {d : Down Pid Ref Reason}

section
variable [DecidableEq Pid]

theorem AgreeOn.exit (h : AgreeOn P w v) : AgreeOn P (w.exit pid reason) (v.exit pid reason) where
  children q hq := by simp [h.children q hq]
  monitors m hm := by rw [mem_monitors_exit, mem_monitors_exit, h.monitors m hm]
  mailbox x hx := by
    rw [mem_mailbox_exit, mem_mailbox_exit, h.mailbox x hx]
    by_cases hp : x.pid = pid
    · rw [h.monitors (x.ref, pid) (hp ▸ hx)]
    · simp [hp]

theorem AgreeOn.exit_left (h : AgreeOn P w v) (hp : pid ∉ P) : AgreeOn P (w.exit pid reason) v where
  children q hq := by
    rw [children_exit, Finset.mem_erase, ← h.children q hq]
    exact and_iff_right fun e => hp (e ▸ hq)
  monitors m hm := by
    rw [mem_monitors_exit, ← h.monitors m hm]
    exact and_iff_left fun e => hp (e ▸ hm)
  mailbox x hx := by
    rw [mem_mailbox_exit, ← h.mailbox x hx]
    exact or_iff_left fun e => hp (e.2.1 ▸ hx)

theorem AgreeOn.terminate_child (h : AgreeOn P w v) :
    AgreeOn P (w.terminate_child pid reason) (v.terminate_child pid reason) := by
  have he : AgreeOn P (w.exit pid reason) (v.exit pid reason) := h.exit
  rw [terminate_child_eq, terminate_child_eq]
  exact ⟨he.children, he.monitors, he.mailbox⟩

theorem AgreeOn.terminate_child_left (h : AgreeOn P w v) (hp : pid ∉ P) :
    AgreeOn P (w.terminate_child pid reason) v := by
  have he : AgreeOn P (w.exit pid reason) v := h.exit_left hp
  rw [terminate_child_eq]
  exact ⟨he.children, he.monitors, he.mailbox⟩

theorem AgreeOn.monitor (h : AgreeOn P w v) (hp : pid ∈ P) :
    AgreeOn P (w.monitor ref pid reason) (v.monitor ref pid reason) where
  children q hq := by simp [h.children q hq]
  monitors m hm := by rw [mem_monitors_monitor, mem_monitors_monitor, h.monitors m hm, h.children pid hp]
  mailbox x hx := by rw [mem_mailbox_monitor, mem_mailbox_monitor, h.mailbox x hx, h.children pid hp]

theorem AgreeOn.monitor_left (h : AgreeOn P w v) (hp : pid ∉ P) : AgreeOn P (w.monitor ref pid reason) v where
  children q hq := by rw [children_monitor]; exact h.children q hq
  monitors m hm := by
    rw [mem_monitors_monitor, ← h.monitors m hm]
    exact or_iff_left fun e => hp (by rw [e.2] at hm; exact hm)
  mailbox x hx := by
    rw [mem_mailbox_monitor, ← h.mailbox x hx]
    exact or_iff_left fun e => hp (by rw [e.2] at hx; exact hx)

end

section
variable [DecidableEq Ref]

theorem AgreeOn.demonitor_flush (h : AgreeOn P w v) : AgreeOn P (w.demonitor_flush ref) (v.demonitor_flush ref) where
  children := h.children
  monitors m hm := by rw [mem_monitors_demonitor_flush, mem_monitors_demonitor_flush, h.monitors m hm]
  mailbox x hx := by rw [mem_mailbox_demonitor_flush, mem_mailbox_demonitor_flush, h.mailbox x hx]

theorem AgreeOn.demonitor_flush_left (h : AgreeOn P w v) (hr : ∀ q ∈ P, ¬ w.Tracks ref q) :
    AgreeOn P (w.demonitor_flush ref) v where
  children := h.children
  monitors m hm := by
    rw [mem_monitors_demonitor_flush, ← h.monitors m hm]
    exact and_iff_left_of_imp fun hm' e => hr m.2 hm (.inl (e ▸ hm'))
  mailbox x hx := by
    rw [mem_mailbox_demonitor_flush, ← h.mailbox x hx]
    exact and_iff_left_of_imp fun hx' e => hr x.pid hx (.inr ⟨x.reason, e ▸ hx'⟩)

end

section
variable [DecidableEq Pid] [DecidableEq Ref] [DecidableEq Reason]

theorem AgreeOn.receive (h : AgreeOn P w v) : AgreeOn P (w.receive d) (v.receive d) where
  children := h.children
  monitors := h.monitors
  mailbox x hx := by rw [mem_mailbox_receive, mem_mailbox_receive, h.mailbox x hx]

theorem AgreeOn.receive_left (h : AgreeOn P w v) (hd : d.pid ∉ P) : AgreeOn P (w.receive d) v where
  children := h.children
  monitors := h.monitors
  mailbox x hx := by
    rw [mem_mailbox_receive, ← h.mailbox x hx]
    exact and_iff_left fun e => hd (e ▸ hx)

end

theorem Good.not_mem_of_fresh {K : Set (Ref × Pid)} (hg : w.Good P K) (hf : pid ∉ P) :
    pid ∉ w.children ∧ ∀ r, ¬ w.Tracks r pid :=
  ⟨fun hc => hf (hg.started pid hc), fun r ht => hf (hg.known _ (hg.taken r pid ht))⟩

section
variable [DecidableEq Pid]

theorem AgreeOn.start_child (h : AgreeOn P w v) (hw : ∀ r, ¬ w.Tracks r pid) (hv : ∀ r, ¬ v.Tracks r pid) :
    AgreeOn (insert pid P) (w.start_child pid) (v.start_child pid) where
  children q hq := by
    rw [children_start_child, children_start_child, Finset.mem_insert, Finset.mem_insert]
    rcases hq with rfl | hq
    · simp
    · rw [h.children q hq]
  monitors m hm := by
    rcases hm with hm | hm
    · exact iff_of_false (fun h => hw m.1 (.inl (hm ▸ h))) fun h => hv m.1 (.inl (hm ▸ h))
    · exact h.monitors m hm
  mailbox x hx := by
    rcases hx with hx | hx
    · exact iff_of_false (fun h => hw x.ref (.inr ⟨x.reason, hx ▸ h⟩)) fun h => hv x.ref (.inr ⟨x.reason, hx ▸ h⟩)
    · exact h.mailbox x hx

theorem AgreeOn.start_child_left (h : AgreeOn P w v) (hp : pid ∉ P) : AgreeOn P (w.start_child pid) v where
  children q hq := by
    rw [children_start_child, Finset.mem_insert, ← h.children q hq]
    exact or_iff_right fun e => hp (e ▸ hq)
  monitors := h.monitors
  mailbox := h.mailbox

end

end

end World

end Otp
