import SumCluster.Cluster
import SumCluster.Json.Parser
import SumCluster.Main
import SumCluster.Proofs.Client
import SumCluster.Proofs.Clock
import SumCluster.Proofs.Compute.Exact
import SumCluster.Proofs.Dispatch.Concurrent
import SumCluster.Proofs.Dispatch.Eviction
import SumCluster.Proofs.Dispatch.FanOut
import SumCluster.Proofs.Dispatch.Loss
import SumCluster.Proofs.Dispatch.Room
import SumCluster.Proofs.Dispatch.Traffic
import SumCluster.Proofs.Dispatch.Verdict
import SumCluster.Proofs.Handle.Deadline
import SumCluster.Proofs.Json.RoundTrip
import SumCluster.Proofs.Json.Shape
import SumCluster.Proofs.Leader.Shutdown
import SumCluster.Proofs.Partition.Fair
import SumCluster.Proofs.Registry.Deregistration
import SumCluster.Proofs.Registry.Lifetime
import SumCluster.Proofs.Registry.Order
import SumCluster.Proofs.Session.Limit
import SumCluster.Proofs.Session.Quorum
import SumCluster.Proofs.TaskInput.Delay
import SumCluster.Proofs.Wire.CleanEnd
import SumCluster.Proofs.Wire.Writing
import SumCluster.Proofs.Worker.Session
