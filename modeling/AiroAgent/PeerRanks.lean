import AiroAgent.VllmSlot

/-!
# Peer ranks

`PeerRanks.discover/0`: one `ps` call prints the labels of every container that
has a cluster id, five to a line, and each line is read back into a slot.
-/

namespace AiroAgent.PeerRanks

open VllmSlot (Container)

/-! ## The listing -/

def label_for (field : String) : String :=
  if field = "port" then "airo.slot.port" else "airo.cluster." ++ field

/-- One line of `ps --format`: the labels as the runtime prints them, a tab between two. -/
def ps_line (c : Container) : String :=
  Text.join '\t' (["id", "rank", "size", "model", "port"].map fun field => c.label (label_for field))

def ps (containers : List Container) : String :=
  Text.unlines ((containers.filter (·.labelled "airo.cluster.id")).map ps_line)

/-! ## Reading it -/

def to_int (value : String) : Option Int :=
  match Text.parse_int (Text.trim value).toList with
  | some (int, []) => some int
  | _ => none

def presence (value : String) : Option String :=
  let trimmed := Text.trim value
  if trimmed = "" then none else some trimmed

def base_url (host : Host) (port : Port) : String :=
  "http://" ++ host.advertise_host ++ ":" ++ toString port ++ "/v1"

def build (host : Host) (cluster_id rank size model port : String) : List SlotInfo :=
  match to_int rank, to_int port with
  | some rank, some port =>
    let id := Text.trim cluster_id
    if rank > 0 ∧ id ≠ "" then
      [{ port, base_url := base_url host port, status := .up, resident_model := presence model,
         cluster_id := some id, tp_rank := some rank, tp_size := to_int size }]
    else []
  | _, _ => []

def parse_line (host : Host) (line : String) : List SlotInfo :=
  match Text.fields '\t' line with
  | [id, rank, size, model, port] => build host id rank size model port
  | _ => []

def discover (host : Host) (out : String) : List SlotInfo := (Text.lines out).flatMap (parse_line host)

/-! ## What is read back -/

theorem to_int_toString (n : Int) : to_int (toString n) = some n := by
  rw [to_int, Text.trim_toString, Text.parse_int_toString]

theorem presence_of_trimmed {value : String} (h : Text.trim value = value) (hne : value ≠ "") :
    presence value = some value := by
  simp [presence, h, hne]

theorem parse_line_ps_line {host : Host} {c : Container}
    (h : ∀ field ∈ ["id", "rank", "size", "model", "port"], '\t' ∉ (c.label (label_for field)).toList) :
    parse_line host (ps_line c) = build host (c.label "airo.cluster.id") (c.label "airo.cluster.rank")
      (c.label "airo.cluster.size") (c.label "airo.cluster.model") (c.label "airo.slot.port") := by
  have hfields : Text.fields '\t' (ps_line c) =
      ["id", "rank", "size", "model", "port"].map fun field => c.label (label_for field) := by
    refine Text.fields_join (by simp) fun s hs => ?_
    obtain ⟨field, hfield, rfl⟩ := List.mem_map.mp hs
    exact h field hfield
  rw [parse_line, hfields]
  rfl

theorem discover_ps {host : Host} {containers : List Container} (h : ∀ c ∈ containers, '\n' ∉ (ps_line c).toList) :
    discover host (ps containers) =
      (containers.filter (·.labelled "airo.cluster.id")).flatMap
        fun c => parse_line host (ps_line c) := by
  have hlines : ∀ s ∈ (containers.filter (·.labelled "airo.cluster.id")).map ps_line, '\n' ∉ s.toList := by
    intro s hs
    obtain ⟨c, hc, rfl⟩ := List.mem_map.mp hs
    exact h c (List.mem_filter.mp hc).1
  -- the four tabs keep a line from being empty, so none is dropped
  have hne : ∀ c : Container, ps_line c ≠ "" := by
    intro c
    have htab : '\t' ∈ (ps_line c).toList := by simp [ps_line, Text.join]
    exact Text.ne_empty_of_mem htab
  rw [discover, ps, Text.lines_unlines hlines, List.filter_eq_self.mpr, List.flatMap_map]
  intro s hs
  obtain ⟨c, _, rfl⟩ := List.mem_map.mp hs
  simpa using hne c

end AiroAgent.PeerRanks
