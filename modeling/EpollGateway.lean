import EpollGateway.Handler.Rejection
import EpollGateway.Worker.Leftovers
import EpollGateway.Http.ChunkGrammar
import EpollGateway.Handler.Target
import EpollGateway.Upstream.Breaker
import EpollGateway.Upstream.Automaton
import EpollGateway.Handler.Replays
import EpollGateway.Upstream.Provenance
import EpollGateway.Upstream.HeaderBlock
import EpollGateway.Upstream.ChunkRoundTrip
import EpollGateway.Upstream.Parity
import EpollGateway.Upstream.Cap
import EpollGateway.Handler.HopNames
import EpollGateway.Handler.Matching
import EpollGateway.Handler.Bucket
import EpollGateway.Handler.Eviction
import EpollGateway.Handler.Draining
import EpollGateway.Static.Contents
import EpollGateway.Static.Transfers
import EpollGateway.Worker.Budget
import EpollGateway.Worker.Accept
import EpollGateway.Upstream.Reload
import EpollGateway.Upstream.Selection
import EpollGateway.Upstream.PoolIdentity
import EpollGateway.Http.Bounds
import EpollGateway.Static.FdLists
import EpollGateway.Static.FileLists
import EpollGateway.Handler.Histograms
import EpollGateway.Handler.Sending
import EpollGateway.Handler.Validation
import EpollGateway.Worker.Rollout
import EpollGateway.Admin.Keys
import EpollGateway.Admin.Access
import EpollGateway.Handler.TokenLoops
import EpollGateway.Upstream.CleanSlate
import EpollGateway.Worker.ThreadPool
