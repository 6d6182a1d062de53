import AiroAgent.Types

/-!
# Identity of a multi-node load

`Vllm.cluster_id/1` and `Vllm.cluster_info/2`: both the agent that reports its
own rank and the launcher that labels the containers derive the id from the
head's host id and the slot port.
-/

namespace AiroAgent.Vllm

def hex_digit (n : Nat) : Char := if n < 10 then Char.ofNat (48 + n) else Char.ofNat (87 + n)

/-- `Base.encode16(case: :lower)`. -/
def encode16 (bytes : List UInt8) : List Char :=
  bytes.flatMap fun b => [hex_digit (b.toNat / 16), hex_digit (b.toNat % 16)]

def cluster_id (host : Host) (port : Port) : String :=
  let digest := host.sha256 (host.host_id ++ ":" ++ toString port)
  "dep-" ++ String.ofList ((encode16 digest.toList).take 8)

def cluster_info (host : Host) (profile : Profile) (port : Port) : Option ClusterInfo :=
  match profile.get .nnodes with
  | .int n => if n > 1 then some ⟨cluster_id host port, 0, n⟩ else none
  | _ => none

end AiroAgent.Vllm
