import AiroAgent.GGUFEncode
import AiroAgent.GGUFExtend

/-!
# GGUF blocks cut short

A file is read up to a limit, so a block may end anywhere. The pairs in front of
the cut are read as they are, up to the first that the reader does not take.
Which of several context lengths is reported depends on where the architecture
stands among them.
-/

namespace AiroAgent.GGUF

variable {ps pairs : List Pair} {version tensor_count trailing : Bytes} {acc : Metadata} {n room : Nat}

/-! ## The pairs in front of the cut -/

/-- The pairs read of a block whose first `room` bytes are there. -/
def reach (room : Nat) : List Pair → List Pair
  | [] => []
  | p :: ps => if p.value.readable = true ∧ p.encode.length ≤ room then p :: reach (room - p.encode.length) ps else []

theorem read_kvs_cut (hwf : ∀ p ∈ ps, p.WellFormed) :
    read_kvs ps.length ((ps.flatMap Pair.encode ++ trailing).take room) acc = captures acc (reach room ps) := by
  induction ps generalizing acc room with
  | nil => rfl
  | cons p ps ih =>
    rw [List.forall_mem_cons] at hwf
    obtain ⟨hp, hps⟩ := hwf
    by_cases hacc : acc.Found
    · rw [read_kvs_found hacc, captures_found hacc]
    · rw [List.flatMap_cons, List.append_assoc, List.length_cons]
      by_cases hread : p.value.readable = true
      · have hpair := (Pair.pair_reads hp hread).take read_pair_stable (ps.flatMap Pair.encode ++ trailing) room
        by_cases hroom : p.encode.length ≤ room
        · rw [if_pos hroom] at hpair
          rw [read_kvs_some hacc hpair, ih hps, reach, if_pos ⟨hread, hroom⟩, captures, if_neg hacc]
        · rw [if_neg hroom] at hpair
          rw [read_kvs_none hacc hpair, reach, if_neg fun h => hroom h.2, captures]
      · have hpair := (Pair.pair_fails hp (by simpa using hread)).take read_pair_stable
          (ps.flatMap Pair.encode ++ trailing) room
        rw [read_kvs_none hacc hpair, reach, if_neg fun h => hread h.1, captures]

theorem length_header (hversion : version.length = 4) (htensor : tensor_count.length = 8) :
    (header version tensor_count n).length = 24 := by
  have hmagic : (ascii "GGUF").length = 4 := by decide
  simp [header, hmagic, hversion, htensor]

/-- A key and its type take more than nothing, so that nothing is reached without room. -/
theorem reach_zero (ps : List Pair) : reach 0 ps = [] := by
  cases ps with
  | nil => rfl
  | cons p ps =>
    refine if_neg fun h => ?_
    have := h.2
    simp [Pair.encode] at this

theorem from_binary_cut (hversion : version.length = 4) (htensor : tensor_count.length = 8)
    (hcount : pairs.length < 2 ^ 64) (hwf : ∀ p ∈ pairs, p.WellFormed) :
    from_binary ((header version tensor_count pairs.length ++ (pairs.flatMap Pair.encode ++ trailing)).take n) =
      captures {} (reach (n - 24) pairs) := by
  have hparse := (header_reads hversion htensor hcount).take parse_stable
    (pairs.flatMap Pair.encode ++ trailing) n
  rw [length_header hversion htensor] at hparse
  unfold from_binary
  by_cases hn : 24 ≤ n
  · rw [if_pos hn] at hparse
    rw [hparse]
    exact read_kvs_cut hwf
  · rw [if_neg hn] at hparse
    rw [hparse, Nat.sub_eq_zero_of_le (by omega), reach_zero]
    rfl

/-! ## Which pair decides -/

def architecture (p : Pair) : Option Bytes :=
  match p.value with
  | .string a => if p.key = ascii "general.architecture" then some a else none
  | _ => none

def context_length (p : Pair) : Option Nat :=
  match p.value.value with
  | .int c => if 0 < c ∧ (ascii ".context_length").isSuffixOf p.key then some c.toNat else none
  | _ => none

/-- The last context length in front of the architecture, or else the first behind it. -/
def decisive (ps : List Pair) : Option Pair :=
  ((ps.takeWhile fun p => (architecture p).isNone).filter fun p => (context_length p).isSome).getLast?.or
    ((ps.dropWhile fun p => (architecture p).isNone).find? fun p => (context_length p).isSome)

theorem capture_pair (acc : Metadata) (p : Pair) : capture acc p.key p.value.value =
    ⟨(architecture p).or acc.family, (context_length p).or acc.ctx_max⟩ := by
  obtain ⟨key, v⟩ := p
  unfold architecture context_length capture
  cases v with
  | string s =>
    simp only [Payload.value]
    split <;> simp
  | array elem_type elems => rfl
  | fixed t bits =>
    cases hv : (Payload.fixed t bits).value with
    | int c =>
      by_cases h : 0 < c ∧ (ascii ".context_length").isSuffixOf key = true
      · simp only [if_pos h]
        rfl
      · simp only [if_neg h]
        rfl
    | str s => cases t <;> cases hv
    | _ => rfl

theorem context_length_architecture {p : Pair} {a : Bytes} (h : architecture p = some a) : context_length p = none := by
  obtain ⟨key, v⟩ := p
  cases v with
  | string s => rfl
  | fixed t bits => cases h
  | array elem_type elems => cases h

theorem captures_family {a : Bytes} (h : (captures acc ps).family = some a) :
    acc.family = some a ∨ ∃ p ∈ ps, architecture p = some a := by
  induction ps generalizing acc with
  | nil => exact .inl h
  | cons p ps ih =>
    by_cases hacc : acc.Found
    · rw [captures_found hacc] at h
      exact .inl h
    · rw [captures, if_neg hacc, capture_pair] at h
      obtain h | ⟨q, hq, h⟩ := ih h
      · obtain h | ⟨_, h⟩ := Option.or_eq_some_iff.mp h
        · exact .inr ⟨p, List.mem_cons_self .., h⟩
        · exact .inl h
      · exact .inr ⟨q, List.mem_cons_of_mem _ hq, h⟩

/-- Behind the architecture the first context length ends the reading. -/
theorem captures_behind (ps : List Pair) (a : Bytes) : (captures ⟨some a, none⟩ ps).ctx_max =
    (ps.find? fun p => (context_length p).isSome).bind context_length := by
  induction ps generalizing a with
  | nil => rfl
  | cons p ps ih =>
    have hnot : ¬ (Metadata.mk (some a) none).Found := fun h => by cases h.2
    rw [captures, if_neg hnot, capture_pair]
    cases hctx : context_length p with
    | none =>
      rw [List.find?_cons_of_neg (by simp [hctx])]
      cases harch : architecture p with
      | none => exact ih a
      | some b => exact ih b
    | some c =>
      rw [List.find?_cons_of_pos (by simp [hctx]), captures_found ⟨by cases architecture p <;> rfl, rfl⟩]
      simp [hctx]

/-- In front of it each takes the place of the one before; `q` is the last so far. -/
theorem captures_decisive (ps : List Pair) {q : Option Pair} (hq : ∀ p ∈ q, (context_length p).isSome = true) :
    (captures ⟨none, q.bind context_length⟩ ps).ctx_max =
      ((((ps.takeWhile fun p => (architecture p).isNone).filter fun p => (context_length p).isSome).getLast?.or q).or
        ((ps.dropWhile fun p => (architecture p).isNone).find? fun p => (context_length p).isSome)).bind context_length := by
  induction ps generalizing q with
  | nil => simp [captures]
  | cons p ps ih =>
    have hnot : ¬ (Metadata.mk none (q.bind context_length)).Found := fun h => by cases h.1
    rw [captures, if_neg hnot, capture_pair]
    cases harch : architecture p with
    | some a =>
      rw [List.takeWhile_cons_of_neg (by simp [harch]), List.dropWhile_cons_of_neg (by simp [harch]),
        List.find?_cons_of_neg (by simp [context_length_architecture harch]), context_length_architecture harch]
      cases q with
      | none => exact captures_behind ps a
      | some p =>
        obtain ⟨c, hc⟩ := Option.isSome_iff_exists.mp (hq p rfl)
        simp only [Option.bind_some, hc, Option.some_or, Option.or_some]
        rw [captures_found ⟨rfl, rfl⟩]
        simp [hc]
    | none =>
      rw [List.takeWhile_cons_of_pos (by simp [harch]), List.dropWhile_cons_of_pos (by simp [harch])]
      cases hctx : context_length p with
      | none =>
        rw [List.filter_cons_of_neg (by simp [hctx])]
        exact ih hq
      | some c =>
        have hp : ∀ p' ∈ some p, (context_length p').isSome = true := by
          intro p' hp'
          cases hp'
          simp [hctx]
        have hlast := ih hp
        simp only [Option.bind_some, hctx] at hlast
        rw [List.filter_cons_of_pos (by simp [hctx]), List.getLast?_cons, Option.none_or, Option.some_or, hlast]
        cases ((ps.takeWhile fun p => (architecture p).isNone).filter fun p => (context_length p).isSome).getLast? <;> rfl

theorem captures_ctx_max (ps : List Pair) : (captures {} ps).ctx_max = (decisive ps).bind context_length := by
  have h := captures_decisive (q := none) ps (fun p hp => by cases hp)
  rw [Option.or_none] at h
  exact h

/-! ## Whether what is reported is right -/

/-- What is reported of a block is what it stores: the family at `general.architecture`, the context length at
the key this forms with `.context_length`. -/
def Sound (pairs : List Pair) (m : Metadata) : Prop :=
  (∀ a, m.family = some a → ⟨ascii "general.architecture", .string a⟩ ∈ pairs) ∧
    ∀ c, m.ctx_max = some c → ∃ a v, ⟨ascii "general.architecture", .string a⟩ ∈ pairs ∧
      ⟨a ++ ascii ".context_length", v⟩ ∈ pairs ∧ v.value = .int c

theorem reach_sublist (room : Nat) (ps : List Pair) : (reach room ps).Sublist ps := by
  induction ps generalizing room with
  | nil => exact List.Sublist.refl []
  | cons p ps ih =>
    unfold reach
    split
    · exact (ih _).cons_cons p
    · exact List.nil_sublist _

theorem architecture_eq {p : Pair} {a : Bytes} (h : architecture p = some a) :
    p = ⟨ascii "general.architecture", .string a⟩ := by
  obtain ⟨key, v⟩ := p
  cases v with
  | string s =>
    simp only [architecture, Option.ite_none_right_eq_some, Option.some.injEq] at h
    obtain ⟨rfl, rfl⟩ := h
    rfl
  | fixed t bits => cases h
  | array elem_type elems => cases h

theorem context_length_value {p : Pair} {c : Nat} (h : context_length p = some c) : p.value.value = .int c := by
  unfold context_length at h
  split at h
  · rename_i z hz
    simp only [Option.ite_none_right_eq_some, Option.some.injEq] at h
    rw [hz]
    congr 1
    omega
  · cases h

theorem decisive_some {p : Pair} (h : p ∈ decisive ps) : ∃ c, context_length p = some c := by
  obtain h | ⟨_, h⟩ := Option.or_eq_some_iff.mp h
  · have := List.mem_of_getLast? h
    exact Option.isSome_iff_exists.mp (List.mem_filter.mp this).2
  · exact Option.isSome_iff_exists.mp (List.find?_some (p := fun p => (context_length p).isSome) h)

/-- What a cut block reports is right just when its deciding pair stores what the architecture's own key stores. -/
theorem sound_iff (hversion : version.length = 4) (htensor : tensor_count.length = 8) (hcount : pairs.length < 2 ^ 64)
    (hwf : ∀ p ∈ pairs, p.WellFormed) :
    Sound pairs (from_binary ((header version tensor_count pairs.length ++ (pairs.flatMap Pair.encode ++ trailing)).take n)) ↔
      ∀ p ∈ decisive (reach (n - 24) pairs), ∃ a v, ⟨ascii "general.architecture", .string a⟩ ∈ pairs ∧
        ⟨a ++ ascii ".context_length", v⟩ ∈ pairs ∧ v.value = p.value.value := by
  rw [from_binary_cut hversion htensor hcount hwf]
  have hfamily : ∀ a, (captures {} (reach (n - 24) pairs)).family = some a →
      ⟨ascii "general.architecture", .string a⟩ ∈ pairs := by
    intro a h
    obtain h | ⟨p, hp, h⟩ := captures_family h
    · cases h
    · rw [← architecture_eq h]
      exact (reach_sublist _ _).subset hp
  have hctx := captures_ctx_max (reach (n - 24) pairs)
  refine ⟨fun h p hp => ?_, fun h => ⟨hfamily, fun c hc => ?_⟩⟩
  · obtain ⟨c, hc⟩ := decisive_some hp
    rw [Option.mem_def] at hp
    rw [hp, Option.bind_some, hc] at hctx
    rw [context_length_value hc]
    exact h.2 c hctx
  · rw [hctx] at hc
    obtain ⟨p, hp, hc⟩ := Option.bind_eq_some_iff.mp hc
    have := h p hp
    rwa [context_length_value hc] at this

/-- A vision tower in front of the architecture. -/
def two_towers : List Pair :=
  [⟨ascii "clip.context_length", .fixed .uint32 77#32⟩, ⟨ascii "general.architecture", .string (ascii "llama")⟩,
    ⟨ascii "llama.context_length", .fixed .uint32 4096#32⟩]

theorem two_towers_wellFormed : ∀ p ∈ two_towers, p.WellFormed := by
  intro p hp
  simp only [two_towers, List.mem_cons, List.not_mem_nil, or_false] at hp
  obtain rfl | rfl | rfl := hp
  · exact ⟨by decide, trivial⟩
  · exact ⟨by decide, by simp [Payload.WellFormed, ascii]⟩
  · exact ⟨by decide, trivial⟩

/-- The whole block is there, and the tower's 77 is reported. -/
theorem two_towers_unsound : (two_towers.map Pair.key).Nodup ∧ (∀ p ∈ two_towers, p.WellFormed) ∧
    from_binary ((header [3, 0, 0, 0] [0, 0, 0, 0, 0, 0, 0, 0] two_towers.length ++
      (two_towers.flatMap Pair.encode ++ [])).take 200) = ⟨some (ascii "llama"), some 77⟩ ∧
    ¬ Sound two_towers (from_binary ((header [3, 0, 0, 0] [0, 0, 0, 0, 0, 0, 0, 0] two_towers.length ++
      (two_towers.flatMap Pair.encode ++ [])).take 200)) := by
  have hread : from_binary ((header [3, 0, 0, 0] [0, 0, 0, 0, 0, 0, 0, 0] two_towers.length ++
      (two_towers.flatMap Pair.encode ++ [])).take 200) = ⟨some (ascii "llama"), some 77⟩ := by
    rw [from_binary_cut rfl rfl (by decide) two_towers_wellFormed]
    decide
  refine ⟨by decide, two_towers_wellFormed, hread, ?_⟩
  rw [hread]
  intro h
  obtain ⟨a, v, harch, hctx, hv⟩ := h.2 77 rfl
  simp only [two_towers, List.mem_cons, List.not_mem_nil, or_false, Pair.mk.injEq] at harch hctx
  obtain ⟨_, h⟩ | ⟨_, h⟩ | ⟨_, h⟩ := harch
  · cases h
  · cases h
    obtain ⟨h, _⟩ | ⟨h, _⟩ | ⟨_, rfl⟩ := hctx
    · exact absurd h (by decide)
    · exact absurd h (by decide)
    · exact absurd hv (by decide)
  · cases h

theorem one_tower_sound : Sound two_towers.tail (from_binary ((header [3, 0, 0, 0] [0, 0, 0, 0, 0, 0, 0, 0]
    two_towers.tail.length ++ (two_towers.tail.flatMap Pair.encode ++ [])).take 200)) :=
  (sound_iff rfl rfl (by decide) fun p hp => two_towers_wellFormed p (List.mem_of_mem_tail hp)).mpr fun p hp => by
    cases hp
    exact ⟨ascii "llama", .fixed .uint32 4096#32, .head _, .tail _ (.head _), rfl⟩

end AiroAgent.GGUF
