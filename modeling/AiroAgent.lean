import AiroAgent.Lib.Run
import AiroAgent.Lib.Otp
import AiroAgent.Lib.Restarts
import AiroAgent.Lib.Replay
import AiroAgent.Lib.Prog
import AiroAgent.Lib.Text
import AiroAgent.Lib.Paths
import AiroAgent.Lib.Stops
import AiroAgent.Lib.Lines
import AiroAgent.Lib.Reader
import AiroAgent.Lib.Double
import AiroAgent.Lib.Listing
import AiroAgent.Lib.Packing
import AiroAgent.Profile
import AiroAgent.Types
import AiroAgent.ClusterId
import AiroAgent.Fleet
import AiroAgent.FleetStep
import AiroAgent.FleetInv
import AiroAgent.FleetHistory
import AiroAgent.FleetLoad
import AiroAgent.FleetEnds
import AiroAgent.FleetPort
import AiroAgent.FleetReplay
import AiroAgent.FleetLife
import AiroAgent.FleetWait
import AiroAgent.FleetRestart
import AiroAgent.FleetIsolation
import AiroAgent.Engine
import AiroAgent.HFCache
import AiroAgent.LlamaCpp
import AiroAgent.Vllm
import AiroAgent.Instance
import AiroAgent.FleetReject
import AiroAgent.NullKnob
import AiroAgent.ContractA
import AiroAgent.VllmSlot
import AiroAgent.VllmLaunch
import AiroAgent.VllmSlotRun
import AiroAgent.VllmSlotRanks
import AiroAgent.VllmSlotLife
import AiroAgent.VllmSlotTeardown
import AiroAgent.VllmSlotLeftover
import AiroAgent.VllmSlotChecks
import AiroAgent.VllmSlotEntries
import AiroAgent.PeerRanks
import AiroAgent.PeerTable
import AiroAgent.PeerReplay
import AiroAgent.ClusterPath
import AiroAgent.Agent
import AiroAgent.Reap
import AiroAgent.Provenance
import AiroAgent.GGUF
import AiroAgent.GGUFEncode
import AiroAgent.GGUFExtend
import AiroAgent.GGUFCut
import AiroAgent.Inventory
import AiroAgent.InventoryKeys
import AiroAgent.InventoryIsolation
import AiroAgent.Shards
import AiroAgent.FleetExact
import AiroAgent.Runtime
import AiroAgent.Supervision
import AiroAgent.Channel
import AiroAgent.ChannelDispatch
import AiroAgent.Convergence
import AiroAgent.ChannelFan
import AiroAgent.HonoredKeys
import AiroAgent.Router
import AiroAgent.InstanceLife
import AiroAgent.Serving
import AiroAgent.ServingAnswers
import AiroAgent.GPU
import AiroAgent.GPUDarwin
import AiroAgent.Api
import AiroAgent.ApiLoads
import AiroAgent.Deploy
import AiroAgent.DeepseekV4
import AiroAgent.DeepseekV4Parse
import AiroAgent.DeepseekV4RoundTrip
import AiroAgent.DeepseekV4Accepted
import AiroAgent.DeepseekV4Prompt
import AiroAgent.DeepseekV4Results
import AiroAgent.IndexerWorkspace
import AiroAgent.KpoolTail
import AiroAgent.Spinwait
import AiroAgent.ReasoningStops
