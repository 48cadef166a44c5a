import AgentxSubagent.Lib.LittleEndian
import AgentxSubagent.Lib.Decimal
import AgentxSubagent.Lib.SortedSet
import AgentxSubagent.Lib.PrefixScan
import AgentxSubagent.Lib.Resume
import AgentxSubagent.Lib.Runs
import AgentxSubagent.Lib.Assign
import AgentxSubagent.Lib.Supply
import AgentxSubagent.Lib.ForEach
import AgentxSubagent.Storage.Codec
import AgentxSubagent.Storage.Lmdb
import AgentxSubagent.Storage.Interop
import AgentxSubagent.Storage.TypedMap
import AgentxSubagent.Storage.Iter
import AgentxSubagent.Storage.Retry
import AgentxSubagent.Storage.Envs
import AgentxSubagent.Table.Instance
import AgentxSubagent.Table.Rowset
import AgentxSubagent.Table.LoadFaults
import AgentxSubagent.Table.RustTable
import AgentxSubagent.Agent.Mib
import AgentxSubagent.Agent.Trap
import AgentxSubagent.Agent.ScalarSet
import AgentxSubagent.Agent.TableSet
import AgentxSubagent.Agent.SetPdu
import AgentxSubagent.Agent.Bootstrap
import AgentxSubagent.Ipc.Framing
import AgentxSubagent.Ipc.Server
import AgentxSubagent.Subagent.EventLoop
import AgentxSubagent.Subagent.LostWrite
import AgentxSubagent.Subagent.Validity
import AgentxSubagent.Agent.Alarm
import AgentxSubagent.Subagent.FailedSet
import AgentxSubagent.Ipc.Agreement
import AgentxSubagent.Agent.TableGet
import AgentxSubagent.Agent.SizeClause
import AgentxSubagent.Agent.TableRows
import AgentxSubagent.Agent.SensorRows
import AgentxSubagent.Ipc.Schema
import AgentxSubagent.Subagent.Restart
import AgentxSubagent.Ipc.Client
import AgentxSubagent.Agent.Hysteresis
import AgentxSubagent.Table.CellKeys
import AgentxSubagent.Table.RowLifecycle
import AgentxSubagent.Table.ParseAt
import AgentxSubagent.Subagent.Reseed
import AgentxSubagent.Agent.Telemetry
import AgentxSubagent.Ipc.Slots
import AgentxSubagent.Ipc.SystemCalls
import AgentxSubagent.Ipc.Answers
import AgentxSubagent.Ipc.Serving
import AgentxSubagent.Ipc.Blocking
import AgentxSubagent.Ipc.LongRequests
import AgentxSubagent.Lib.Consume
import AgentxSubagent.Nanopb.Stream
import AgentxSubagent.Nanopb.Output
import AgentxSubagent.Nanopb.Iterator
import AgentxSubagent.Nanopb.Fields
import AgentxSubagent.Nanopb.Kinds
import AgentxSubagent.Nanopb.Messages
import AgentxSubagent.Nanopb.Foreign
import AgentxSubagent.Ipc.OverNanopb
import AgentxSubagent.Table.SharedStore
import AgentxSubagent.Agent.TelemetryApp
import AgentxSubagent.Subagent.System
import AgentxSubagent.Subagent.Views
import AgentxSubagent.Subagent.Separation
import AgentxSubagent.Ipc.Lifecycle
import AgentxSubagent.Storage.Handle
import AgentxSubagent.Subagent.Main
import AgentxSubagent.Subagent.MainLoop
