import AiroAgent.Types
import AiroAgent.Lib.Text

/-!
# The sweep at boot

`Vllm.reap_orphans/0` over the containers of this host and of the cluster
worker. The runtime is known by its answers: a call raises, fails or succeeds,
and a listing that succeeds prints a text, its two streams in one. The sweep
hands every word of that text to `rm -f`, which takes names, ids and the starts
of ids, so what it removes is whatever those words refer to.
-/

namespace AiroAgent.Vllm

/-! ## Containers and the runtime -/

structure Container where
  id : String
  name : String
  deriving DecidableEq, Repr

abbrev Containers := List Container

inductive Listing where
  | raises
  | fails
  | prints (out : String)

/-- What becomes of one `rm -f`; one that fails may have removed some of its containers. -/
inductive Removal where
  | raises
  | fails (removed : Container → Bool)
  | succeeds

/-- The runtime's answers to the two commands of a sweep, by their arguments. -/
structure Answers where
  ps : List String → Listing
  rm : List String → Removal

/-- Which container a word refers to when `rm -f` gets it: as an argument here, and on
the command line of the worker. -/
structure Runtime where
  here : String → Container → Bool
  worker : String → Container → Bool

/-- Anchored between `^` and `$`, or a substring. -/
def name_filter (pat name : String) : Bool :=
  if pat.toList.head? = some '^' ∧ pat.toList.getLast? = some '$' then
    name.toList = (pat.toList.drop 1).dropLast
  else Text.contains name pat

/-! ## The sweep -/

def orphan_ids (ps_output : String) : List String := (Text.words ps_output).filter (· ≠ "")

/-- A listing by a filter, and the removal of what it printed: the two sweeps have this in common. -/
structure Sweep where
  refers : String → Container → Bool
  filter : String
  listing : Listing
  removal : List String → Removal

/-- What `rm -f` leaves, and whether the call raised. -/
def rm (refers : String → Container → Bool) (ids : List String) (cs : Containers) : Removal → Containers × Bool
  | .raises => (cs, true)
  | .fails removed => (cs.filter fun c => !(ids.any (refers · c) && removed c), false)
  | .succeeds => (cs.filter fun c => !ids.any (refers · c), false)

def Sweep.run (s : Sweep) (cs : Containers) : Containers × Bool :=
  match s.listing with
  | .raises => (cs, true)
  | .fails => (cs, false)
  | .prints out =>
    match orphan_ids out with
    | [] => (cs, false)
    | id :: ids => rm s.refers (id :: ids) cs (s.removal (id :: ids))

def slot_name (port : Port) : String := "airo-slot-" ++ toString port

def slot_filter (port : Port) : String := "^" ++ slot_name port ++ "$"

def reap_slot (rt : Runtime) (port : Port) (answers : Answers) : Sweep where
  refers := rt.here
  filter := slot_filter port
  listing := answers.ps ["ps", "-aq", "--filter", "name=" ++ slot_filter port]
  removal ids := answers.rm ("rm" :: "-f" :: ids)

def ssh (cluster : ClusterConfig) (command : String) : List String := ["-o", "BatchMode=yes", cluster.worker_ssh, command]

def reap_worker (host : Host) (rt : Runtime) (cluster : ClusterConfig) (answers : Answers) : Sweep where
  refers := rt.worker
  filter := "airo-slot-"
  listing := answers.ps (ssh cluster (host.container_runtime ++ " ps -aq --filter name=airo-slot-"))
  removal ids := answers.rm (ssh cluster (host.container_runtime ++ " rm -f " ++ Text.join ' ' ids))

/-- The loop over the slots; a call that raises is the end of it. -/
def reap_slots : List Sweep → Containers → Containers × Bool
  | [], cs => (cs, false)
  | s :: ss, cs =>
    match s.run cs with
    | (cs, true) => (cs, true)
    | (cs, false) => reap_slots ss cs

/-- `answers n` are those of turn `n`. -/
def slot_sweeps (host : Host) (rt : Runtime) (answers : Nat → Answers) : List Sweep :=
  host.slots.mapIdx fun n port => reap_slot rt port (answers n)

def reap_worker_orphans (host : Host) (rt : Runtime) (answers : Answers) (worker : Containers) : Containers :=
  match host.vllm_cluster with
  | some cluster => ((reap_worker host rt cluster answers).run worker).1
  | none => worker

structure World where
  here : Containers
  worker : Containers

/-- A call that raises here is the end of the sweep, a call on the worker that of the second part. -/
def reap_orphans (host : Host) (rt : Runtime) (answers : Nat → Answers) (worker_answers : Answers) (w : World) : World :=
  match reap_slots (slot_sweeps host rt answers) w.here with
  | (here, true) => { w with here }
  | (here, false) => { here, worker := reap_worker_orphans host rt worker_answers w.worker }

/-! ## One sweep -/

variable {cs : Containers} {c : Container} {s : Sweep} {ss : List Sweep} {str : String} {host : Host} {port : Port} {rt : Runtime}
  {answers : Nat → Answers} {worker_answers : Answers} {w : World}

/-- An `rm -f` that is told to take `c` does. -/
def Removal.takes (c : Container) : Removal → Bool
  | .raises => false
  | .fails removed => removed c
  | .succeeds => true

/-- A word that the listing prints refers to `c`. -/
def Sweep.names (s : Sweep) (c : Container) : Bool :=
  match s.listing with
  | .prints out => (orphan_ids out).any (s.refers · c)
  | .raises => false
  | .fails => false

/-- The listing succeeds, and the removal gets at `c` when it is told to. -/
def Sweep.gets (s : Sweep) (c : Container) : Bool :=
  match s.listing with
  | .prints out => (s.removal (orphan_ids out)).takes c
  | .raises => false
  | .fails => false

def Sweep.raises (s : Sweep) : Bool :=
  match s.listing with
  | .raises => true
  | .fails => false
  | .prints out =>
    match orphan_ids out, s.removal (orphan_ids out) with
    | _ :: _, .raises => true
    | _, _ => false

theorem mem_rm {refers : String → Container → Bool} {ids : List String} {removal : Removal} :
    c ∈ (rm refers ids cs removal).1 ↔ c ∈ cs ∧ ¬ (ids.any (refers · c) = true ∧ removal.takes c = true) := by
  cases removal with
  | raises => simp [rm, Removal.takes]
  | fails removed => simp only [rm, List.mem_filter, Removal.takes, Bool.not_eq_true', ← Bool.and_eq_true, Bool.not_eq_true]
  | succeeds => simp only [rm, List.mem_filter, Removal.takes, Bool.not_eq_true', and_true, Bool.not_eq_true]

/-- A sweep removes what its words refer to and its `rm` gets at. -/
theorem Sweep.mem_run : c ∈ (s.run cs).1 ↔ c ∈ cs ∧ ¬ (s.names c = true ∧ s.gets c = true) := by
  unfold Sweep.run Sweep.names Sweep.gets
  cases s.listing with
  | raises => simp
  | fails => simp
  | prints out =>
    dsimp only
    cases orphan_ids out with
    | nil => simp
    | cons id ids => exact mem_rm

theorem Sweep.raised_run : (s.run cs).2 = s.raises := by
  unfold Sweep.run Sweep.raises
  cases s.listing with
  | raises => rfl
  | fails => rfl
  | prints out =>
    dsimp only
    cases orphan_ids out with
    | nil => rfl
    | cons id ids =>
      cases hr : s.removal (id :: ids) with
      | raises => simp [rm, hr]
      | fails removed => simp [rm, hr]
      | succeeds => simp [rm, hr]

/-! ## The loop over the slots -/

theorem reap_slots_cons : reap_slots (s :: ss) cs =
    if s.raises = true then ((s.run cs).1, true) else reap_slots ss (s.run cs).1 := by
  have hraised : (s.run cs).2 = s.raises := Sweep.raised_run
  rw [reap_slots, ← hraised]
  obtain ⟨left, raised⟩ := s.run cs
  cases raised with
  | true => rfl
  | false => rfl

theorem raised_reap_slots : (reap_slots ss cs).2 = ss.any Sweep.raises := by
  induction ss generalizing cs with
  | nil => rfl
  | cons s ss ih =>
    rw [reap_slots_cons, List.any_cons]
    cases s.raises with
    | true => rfl
    | false => exact ih

/-- The loop comes to the sweep: no call before it raises. -/
def Reached (ss pre : List Sweep) (s : Sweep) : Prop := (∃ post, ss = pre ++ s :: post) ∧ pre.any Sweep.raises = false

theorem reached_cons {a : Sweep} {pre : List Sweep} : Reached (a :: ss) pre s ↔
    (pre = [] ∧ s = a) ∨ ∃ pre', pre = a :: pre' ∧ a.raises = false ∧ Reached ss pre' s := by
  unfold Reached
  cases pre with
  | nil =>
    constructor
    · rintro ⟨⟨post, he⟩, -⟩
      cases he
      exact .inl ⟨rfl, rfl⟩
    · rintro (⟨-, rfl⟩ | ⟨_, he, _⟩)
      · exact ⟨⟨ss, rfl⟩, rfl⟩
      · cases he
  | cons b pre =>
    constructor
    · rintro ⟨⟨post, he⟩, hraises⟩
      cases he
      rw [List.any_cons, Bool.or_eq_false_iff] at hraises
      exact .inr ⟨pre, rfl, hraises.1, ⟨post, rfl⟩, hraises.2⟩
    · rintro (⟨he, -⟩ | ⟨_, he, ha, ⟨post, rfl⟩, hraises⟩)
      · cases he
      · cases he
        exact ⟨⟨post, rfl⟩, by rw [List.any_cons, ha, hraises]; rfl⟩

theorem mem_reap_slots : c ∈ (reap_slots ss cs).1 ↔
    c ∈ cs ∧ ∀ pre s, Reached ss pre s → ¬ (s.names c = true ∧ s.gets c = true) := by
  induction ss generalizing cs with
  | nil => simp [reap_slots, Reached]
  | cons a ss ih =>
    rw [reap_slots_cons]
    cases ha : a.raises with
    | true =>
      simp only [if_true, Sweep.mem_run]
      refine and_congr_right fun _ => ⟨fun h pre s hs => ?_, fun h => h [] a (reached_cons.mpr (.inl ⟨rfl, rfl⟩))⟩
      obtain ⟨-, rfl⟩ | ⟨_, -, hno, -⟩ := reached_cons.mp hs
      · exact h
      · rw [ha] at hno
        cases hno
    | false =>
      rw [if_neg (by decide), ih, Sweep.mem_run, and_assoc]
      refine and_congr_right fun _ => ⟨?_, fun h => ?_⟩
      · rintro ⟨hfirst, hrest⟩ pre s hs
        obtain ⟨-, rfl⟩ | ⟨pre', -, -, hs⟩ := reached_cons.mp hs
        · exact hfirst
        · exact hrest pre' s hs
      · exact ⟨h [] a (reached_cons.mpr (.inl ⟨rfl, rfl⟩)),
          fun pre s hs => h (a :: pre) s (reached_cons.mpr (.inr ⟨pre, rfl, ha, hs⟩))⟩

/-! ## What the runtime promises -/

/-- A listing shows the containers that its filter takes. -/
def Sweep.Lists (s : Sweep) (cs : Containers) : Prop :=
  ∀ out, s.listing = .prints out → ∀ c ∈ cs, name_filter s.filter c.name = true → c.id ∈ orphan_ids out

/-- Every listing shows what its filter takes of the containers left by then, and the id
it shows refers to the container. What else it prints, and what the words of that
refer to, is anything. -/
structure Documented (host : Host) (rt : Runtime) (answers : Nat → Answers) (worker_answers : Answers) (w : World) : Prop where
  id_here : ∀ c, rt.here c.id c = true
  id_worker : ∀ c, rt.worker c.id c = true
  lists : ∀ pre s, Reached (slot_sweeps host rt answers) pre s → s.Lists (reap_slots pre w.here).1
  lists_worker : ∀ cluster, host.vllm_cluster = some cluster → (reap_worker host rt cluster worker_answers).Lists w.worker

theorem Sweep.Lists.names {out : String} (hs : s.Lists cs) (hid : ∀ c, s.refers c.id c = true) (hl : s.listing = .prints out)
    (hc : c ∈ cs) (hf : name_filter s.filter c.name = true) : s.names c = true := by
  unfold Sweep.names
  simp only [hl]
  exact List.any_eq_true.mpr ⟨c.id, hs out hl c hc hf, hid c⟩

theorem Sweep.printed (hg : s.gets c = true) : ∃ out, s.listing = .prints out := by
  unfold Sweep.gets at hg
  cases hl : s.listing with
  | raises => rw [hl] at hg; cases hg
  | fails => rw [hl] at hg; cases hg
  | prints out => exact ⟨out, rfl⟩

theorem name_filter_anchored {name : String} : name_filter ("^" ++ str ++ "$") name = true ↔ name = str := by
  have hpat : ("^" ++ str ++ "$").toList = '^' :: str.toList ++ ['$'] := by simp
  have hlast : ("^" ++ str ++ "$").toList.getLast? = some '$' := by
    rw [hpat, List.getLast?_concat]
  have hbody : (("^" ++ str ++ "$").toList.drop 1).dropLast = str.toList := by
    rw [hpat, List.cons_append, List.drop_one, List.tail_cons, List.dropLast_concat]
  rw [name_filter, if_pos ⟨by rw [hpat]; rfl, hlast⟩, hbody, decide_eq_true_eq, String.toList_inj]

theorem mem_slot_sweeps : s ∈ slot_sweeps host rt answers ↔
    ∃ (n : Nat) (h : n < host.slots.length), reap_slot rt host.slots[n] (answers n) = s := List.mem_mapIdx

/-! ## Both hosts -/

def slot_names (ports : List Port) : List String := ports.map slot_name

theorem name_of_slot_filter (hs : s ∈ slot_sweeps host rt answers) (hf : name_filter s.filter c.name = true) :
    c.name ∈ slot_names host.slots := by
  obtain ⟨n, hn, rfl⟩ := mem_slot_sweeps.mp hs
  have hname : c.name = slot_name host.slots[n] := name_filter_anchored.mp hf
  rw [hname]
  exact List.mem_map_of_mem (List.getElem_mem hn)

/-- The listing succeeds, and so does the `rm` of what it shows, if it shows anything. -/
def Sweep.Succeeds (s : Sweep) : Prop :=
  ∃ out, s.listing = .prints out ∧ (orphan_ids out ≠ [] → s.removal (orphan_ids out) = .succeeds)

theorem Sweep.Succeeds.gets (h : s.Succeeds) (hn : s.names c = true) : s.gets c = true := by
  obtain ⟨out, hl, hr⟩ := h
  unfold Sweep.names at hn
  unfold Sweep.gets
  simp only [hl] at hn ⊢
  have hne : orphan_ids out ≠ [] := by
    intro he
    rw [he] at hn
    cases hn
  rw [hr hne]
  rfl

theorem Sweep.Succeeds.raises (h : s.Succeeds) : s.raises = false := by
  obtain ⟨out, hl, hr⟩ := h
  unfold Sweep.raises
  simp only [hl]
  cases hids : orphan_ids out with
  | nil => rfl
  | cons id ids =>
    rw [hids] at hr
    simp [hr]

/-- What goes had the name of a slot of this agent, and when the calls on this host
succeed everything here with such a name goes. -/
structure Scoped (host : Host) (rt : Runtime) (answers : Nat → Answers) (worker_answers : Answers) (w : World) : Prop where
  here : ∀ c ∈ w.here, c ∉ (reap_orphans host rt answers worker_answers w).here → c.name ∈ slot_names host.slots
  worker : ∀ c ∈ w.worker, c ∉ (reap_orphans host rt answers worker_answers w).worker → c.name ∈ slot_names host.slots
  complete : (∀ s ∈ slot_sweeps host rt answers, s.Succeeds) →
    ∀ c ∈ (reap_orphans host rt answers worker_answers w).here, c.name ∉ slot_names host.slots

/-- The containers that a listing did not ask for and a word of it refers to all the same
are this agent's own, and so are those of the worker with `airo-slot-` in the name. -/
structure Spares (host : Host) (rt : Runtime) (answers : Nat → Answers) (worker_answers : Answers) (w : World) : Prop where
  here : ∀ pre s, Reached (slot_sweeps host rt answers) pre s → ∀ c ∈ w.here, name_filter s.filter c.name = false →
    s.names c = true → s.gets c = true → c.name ∈ slot_names host.slots
  worker : ∀ cluster, host.vllm_cluster = some cluster → (slot_sweeps host rt answers).any Sweep.raises = false →
    ∀ c ∈ w.worker, Text.contains c.name "airo-slot-" = false →
      (reap_worker host rt cluster worker_answers).names c = true → (reap_worker host rt cluster worker_answers).gets c = true →
      c.name ∈ slot_names host.slots
  worker_slots : ∀ cluster, host.vllm_cluster = some cluster → (slot_sweeps host rt answers).any Sweep.raises = false →
    ∀ c ∈ w.worker, Text.contains c.name "airo-slot-" = true → (reap_worker host rt cluster worker_answers).gets c = true →
      c.name ∈ slot_names host.slots

theorem here_reap_orphans : (reap_orphans host rt answers worker_answers w).here =
    (reap_slots (slot_sweeps host rt answers) w.here).1 := by
  unfold reap_orphans
  obtain ⟨here, raised⟩ := reap_slots (slot_sweeps host rt answers) w.here
  cases raised with
  | true => rfl
  | false => rfl

theorem mem_worker_reap_orphans : c ∈ (reap_orphans host rt answers worker_answers w).worker ↔
    c ∈ w.worker ∧ ∀ cluster, host.vllm_cluster = some cluster → (slot_sweeps host rt answers).any Sweep.raises = false →
      ¬ ((reap_worker host rt cluster worker_answers).names c = true ∧ (reap_worker host rt cluster worker_answers).gets c = true) := by
  have hraised : (reap_slots (slot_sweeps host rt answers) w.here).2 = (slot_sweeps host rt answers).any Sweep.raises :=
    raised_reap_slots
  unfold reap_orphans
  cases hloop : reap_slots (slot_sweeps host rt answers) w.here with
  | mk here raised =>
    rw [hloop] at hraised
    rw [← hraised]
    cases raised with
    | true => simp
    | false =>
      unfold reap_worker_orphans
      cases host.vllm_cluster with
      | none => simp
      | some cluster => simp [Sweep.mem_run]

theorem gone_here (hc : c ∈ w.here) : c ∉ (reap_orphans host rt answers worker_answers w).here ↔
    ∃ pre s, Reached (slot_sweeps host rt answers) pre s ∧ s.names c = true ∧ s.gets c = true := by
  rw [here_reap_orphans, mem_reap_slots]
  constructor
  · intro h
    by_contra hno
    exact h ⟨hc, fun pre s hs hg => hno ⟨pre, s, hs, hg⟩⟩
  · rintro ⟨pre, s, hs, hg⟩ ⟨-, h⟩
    exact h pre s hs hg

theorem gone_worker (hc : c ∈ w.worker) : c ∉ (reap_orphans host rt answers worker_answers w).worker ↔
    ∃ cluster, host.vllm_cluster = some cluster ∧ (slot_sweeps host rt answers).any Sweep.raises = false ∧
      (reap_worker host rt cluster worker_answers).names c = true ∧ (reap_worker host rt cluster worker_answers).gets c = true := by
  rw [mem_worker_reap_orphans]
  constructor
  · intro h
    by_contra hno
    exact h ⟨hc, fun cluster hcl hr hg => hno ⟨cluster, hcl, hr, hg⟩⟩
  · rintro ⟨cluster, hcl, hr, hg⟩ ⟨-, h⟩
    exact h cluster hcl hr hg

theorem contains_of_worker_filter {cluster : ClusterConfig} (name : String) :
    name_filter (reap_worker host rt cluster worker_answers).filter name = Text.contains name "airo-slot-" := by
  show name_filter "airo-slot-" name = _
  exact if_neg (by decide)

/-- With every call a success, the turn of a slot takes the containers with its name. -/
theorem complete_of_documented (hd : Documented host rt answers worker_answers w)
    (hok : ∀ s ∈ slot_sweeps host rt answers, s.Succeeds) (hc : c ∈ w.here) (hname : c.name ∈ slot_names host.slots) :
    c ∉ (reap_orphans host rt answers worker_answers w).here := by
  obtain ⟨port, hport, hname⟩ := List.mem_map.mp hname
  obtain ⟨n, hn, rfl⟩ := List.getElem_of_mem hport
  have hmem : reap_slot rt host.slots[n] (answers n) ∈ slot_sweeps host rt answers := mem_slot_sweeps.mpr ⟨n, hn, rfl⟩
  obtain ⟨pre, post, hsplit⟩ := List.append_of_mem hmem
  have hreached : Reached (slot_sweeps host rt answers) pre (reap_slot rt host.slots[n] (answers n)) := by
    refine ⟨⟨post, hsplit⟩, List.any_eq_false.mpr fun s hs => ?_⟩
    rw [(hok s (by rw [hsplit]; exact List.mem_append_left _ hs)).raises]
    decide
  intro hleft
  -- `c` is still there when its turn comes, or an earlier turn would have taken it
  have hthere : c ∈ (reap_slots pre w.here).1 := by
    refine mem_reap_slots.mpr ⟨hc, fun pre' s hs hg => ?_⟩
    obtain ⟨⟨post', rfl⟩, hr⟩ := hs
    refine (gone_here hc).mpr ⟨pre', s, ⟨⟨post' ++ reap_slot rt host.slots[n] (answers n) :: post, ?_⟩, hr⟩, hg⟩ hleft
    rw [hsplit, List.append_assoc, List.cons_append]
  have hfilter : name_filter (reap_slot rt host.slots[n] (answers n)).filter c.name = true :=
    name_filter_anchored.mpr hname.symm
  obtain ⟨out, hprints, -⟩ := hok _ hmem
  have hnames := (hd.lists pre _ hreached).names hd.id_here hprints hthere hfilter
  exact (gone_here hc).mpr ⟨pre, _, hreached, hnames, (hok _ hmem).gets hnames⟩ hleft

/-- **The sweep is scoped** exactly when it comes upon no container that a listing did not
ask for, and on the worker none with `airo-slot-` in its name, but this agent's own. -/
theorem scoped_iff (hd : Documented host rt answers worker_answers w) :
    Scoped host rt answers worker_answers w ↔ Spares host rt answers worker_answers w := by
  constructor
  · intro h
    refine ⟨fun pre s hs c hc _ hn hg => ?_, fun cluster hcl hr c hc _ hn hg => ?_, fun cluster hcl hr c hc hname hg => ?_⟩
    · exact h.here c hc ((gone_here hc).mpr ⟨pre, s, hs, hn, hg⟩)
    · exact h.worker c hc ((gone_worker hc).mpr ⟨cluster, hcl, hr, hn, hg⟩)
    · rw [← contains_of_worker_filter c.name] at hname
      obtain ⟨out, hprints⟩ := Sweep.printed hg
      have hn := (hd.lists_worker cluster hcl).names hd.id_worker hprints hc hname
      exact h.worker c hc ((gone_worker hc).mpr ⟨cluster, hcl, hr, hn, hg⟩)
  · intro h
    refine ⟨fun c hc hgone => ?_, fun c hc hgone => ?_, fun hok c hc hname => ?_⟩
    · obtain ⟨pre, s, hs, hn, hg⟩ := (gone_here hc).mp hgone
      cases hf : name_filter s.filter c.name with
      | true =>
        obtain ⟨⟨post, hsplit⟩, -⟩ := hs
        exact name_of_slot_filter (by rw [hsplit]; exact List.mem_append_right _ List.mem_cons_self) hf
      | false => exact h.here pre s hs c hc hf hn hg
    · obtain ⟨cluster, hcl, hr, hn, hg⟩ := (gone_worker hc).mp hgone
      cases hname : Text.contains c.name "airo-slot-" with
      | true => exact h.worker_slots cluster hcl hr c hc hname hg
      | false => exact h.worker cluster hcl hr c hc hname hn hg
    · have hin : c ∈ w.here := by
        rw [here_reap_orphans] at hc
        exact (mem_reap_slots.mp hc).1
      exact complete_of_documented hd hok hin hname hc

/-! ## Two heads on one worker -/

theorem orphan_ids_unlines {ids : List String} (h : ∀ id ∈ ids, id ≠ "" ∧ ∀ x ∈ id.toList, Text.is_break x = false) :
    orphan_ids (Text.unlines ids) = ids := by
  rw [orphan_ids, Text.words_unlines h, List.filter_eq_self]
  exact fun id hid => decide_eq_true (h id hid).1

def head : Host where
  slots := [8081]
  host_id := "spark-a"
  vllm_cluster := some
    { worker_ssh := "ops@192.168.100.11", master_ip := "192.168.100.10", worker_ip := none, nccl_if := "enP2p1s0f1np1",
      nccl_hca := none, gid_index := none }
  sha256 := fun _ => .replicate 32 0
  float_to_string := fun m _ => toString m

def own_rank : Container := ⟨"4f1c2b9d0e7a", "airo-slot-8081"⟩

/-- The rank of a second head on the same worker. -/
def other_rank : Container := ⟨"9c07d5a1be32", "airo-slot-8082"⟩

def two_heads : World where
  here := [own_rank]
  worker := [own_rank, other_rank]

/-- A name, or the start of an id. -/
def refers (word : String) (c : Container) : Bool := word = c.name || Text.starts_with c.id word

/-- A runtime that prints the ids of the containers it shows and nothing else. -/
def plain (shown : Containers) : Answers where
  ps _ := .prints (Text.unlines (shown.map Container.id))
  rm _ := .succeeds

theorem orphan_ids_ranks (shown : Containers) (h : ∀ c ∈ shown, c ∈ two_heads.worker) :
    orphan_ids (Text.unlines (shown.map Container.id)) = shown.map Container.id := by
  apply orphan_ids_unlines
  intro id hid
  obtain ⟨c, hc, rfl⟩ := List.mem_map.mp hid
  have hword : ∀ c ∈ two_heads.worker, c.id ≠ "" ∧ ∀ x ∈ c.id.toList, Text.is_break x = false := by
    simp [two_heads, own_rank, other_rank]
    decide
  exact hword c (h c hc)

theorem lists_of_plain (shown : Containers) (h : ∀ c ∈ shown, c ∈ two_heads.worker)
    (hs : s.listing = .prints (Text.unlines (shown.map Container.id))) (hcs : ∀ c ∈ cs, c ∈ shown) : s.Lists cs := by
  intro out hout c hc _
  rw [hs, Listing.prints.injEq] at hout
  rw [← hout, orphan_ids_ranks shown h]
  exact List.mem_map_of_mem (hcs c hc)

theorem two_heads_documented : Documented head ⟨refers, refers⟩ (fun _ => plain [own_rank]) (plain [own_rank, other_rank])
    two_heads where
  id_here c := by simp [refers, Text.starts_with]
  id_worker c := by simp [refers, Text.starts_with]
  lists pre s hs := by
    obtain ⟨rfl, rfl⟩ | ⟨_, -, -, ⟨_, hnil⟩, -⟩ := reached_cons.mp hs
    · exact lists_of_plain [own_rank] (by simp [two_heads]) rfl fun c hc => hc
    · simp at hnil
  lists_worker cluster _ := lists_of_plain [own_rank, other_rank] (fun c hc => hc) rfl fun c hc => hc

theorem scoped_iff_two_heads :
    Scoped head ⟨refers, refers⟩ (fun _ => plain [own_rank]) (plain [own_rank, other_rank]) two_heads ↔
      Spares head ⟨refers, refers⟩ (fun _ => plain [own_rank]) (plain [own_rank, other_rank]) two_heads :=
  scoped_iff two_heads_documented

/-- The rank of the other head goes, though no call fails and none prints a word too many. -/
theorem other_head_reaped :
    Documented head ⟨refers, refers⟩ (fun _ => plain [own_rank]) (plain [own_rank, other_rank]) two_heads ∧
      ¬ Scoped head ⟨refers, refers⟩ (fun _ => plain [own_rank]) (plain [own_rank, other_rank]) two_heads := by
  refine ⟨two_heads_documented, fun h => ?_⟩
  have hheld : other_rank ∈ two_heads.worker := by decide
  have hnames : (reap_worker head ⟨refers, refers⟩ (head.vllm_cluster.get rfl) (plain [own_rank, other_rank])).names other_rank =
      true := by
    show (orphan_ids (Text.unlines ([own_rank, other_rank].map Container.id))).any (refers · other_rank) = true
    rw [orphan_ids_ranks [own_rank, other_rank] fun c hc => hc]
    decide
  have hname := h.worker other_rank hheld ((gone_worker hheld).mpr ⟨_, rfl, ?_, hnames, rfl⟩)
  · revert hname
    decide
  · show (List.any [_] Sweep.raises) = false
    simp [Sweep.raises, reap_slot, plain]

end AiroAgent.Vllm
