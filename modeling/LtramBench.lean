import LtramBench.Interaction.Program
import LtramBench.Interaction.Pool
import LtramBench.Interaction.Ledger
import LtramBench.Interaction.Ensures
import LtramBench.Interaction.Buffers
import LtramBench.Interaction.Simulation
import LtramBench.Interaction.Contract
import LtramBench.Streaming.Parser
import LtramBench.Streaming.Source
import LtramBench.Kernel.Memory
import LtramBench.Ltram.Handler
import LtramBench.Ltram.WriteProtect
import LtramBench.Ltram.Accounting
import LtramBench.Smoketest.Suite
import LtramBench.Smoketest.Bulk
import LtramBench.Smoketest.Release
import LtramBench.Smoketest.Verdict
import LtramBench.Smoketest.Exact
import LtramBench.Smoketest.BulkTest
import LtramBench.Matmul.Multiply
import LtramBench.Matmul.Repeat
import LtramBench.Matmul.Seeds
import LtramBench.Rwstress.Stress
import LtramBench.Shell.Fields
import LtramBench.Shell.Number
import LtramBench.Shell.Grep
import LtramBench.Shell.Words
import LtramBench.Shell.Literal
import LtramBench.Shell.Arguments
import LtramBench.Profile.Report
import LtramBench.Profile.Spliced
import LtramBench.Profile.Snapshot
import LtramBench.Profile.Placement
import LtramBench.Runner.Workloads
import LtramBench.Boot.Cmdline
import LtramBench.Monitoring.Collect
import LtramBench.Monitoring.Summarize
import LtramBench.Monitoring.Statistics
import LtramBench.Hiredis.Reply
import LtramBench.Hiredis.Reader
import LtramBench.Hiredis.Resume
import LtramBench.Hiredis.Stream
import LtramBench.Hiredis.Encode
import LtramBench.Hiredis.Command
import LtramBench.Hiredis.Format
import LtramBench.Hiredis.Connection
import LtramBench.Hiredis.Pairing
import LtramBench.Ycsb.Database
import LtramBench.Ycsb.RedisDB
import LtramBench.Ycsb.Session
import LtramBench.Ycsb.Store
import LtramBench.Ycsb.Workload
import LtramBench.Ycsb.Client
import LtramBench.Ycsb.Benchmark
import LtramBench.Ycsb.Options
import LtramBench.Ycsb.Configuration
