import Sockd.Effects.Prog
import Sockd.Effects.Spec
import Sockd.Effects.Eval
import Sockd.Rust.Io
import Sockd.Effects.Interleave
import Sockd.Bytes.BigEndian
import Sockd.Bytes.Utf8
import Sockd.Bytes.Decimal
import Sockd.Error
import Sockd.Frame
import Sockd.Wire
import Sockd.Rust.Pieces
import Sockd.RoundTrip
import Sockd.Config
import Sockd.Pidfile
import Sockd.Client
import Sockd.Daemon
import Sockd.Ledger
import Sockd.Serving
import Sockd.EventLoop
import Sockd.Lifecycle
import Sockd.Backlog
import Sockd.Linked
import Sockd.Survival
import Sockd.Dispatch
import Sockd.Os
import Sockd.Host
import Sockd.Calls
import Sockd.Exclusion
import Sockd.SocketPath
import Sockd.SecondStart
import Sockd.AutoStart
import Sockd.Bracket
import Sockd.Signal
import Sockd.IdleTime
import Sockd.Effects.Total
import Sockd.OneReply
import Sockd.Conversation
import Sockd.Respawn
import Sockd.C.Strings
import Sockd.C.Memory
import Sockd.Json.Strings
import Sockd.Json.Grammar
import Sockd.Reference.Router
import Sockd.Reference.Requests
import Sockd.Reference.Reload
import Sockd.Reference.Dedup
import Sockd.Lists.Ranking
import Sockd.Lists.Followers
import Sockd.Reference.Budget
import Sockd.Reference.Selection
import Sockd.AtMostOnce
import Sockd.Ends
import Sockd.InSequence
import Sockd.LastLook
import Sockd.Keeping
import Sockd.Backoff
import Sockd.Builder
import Sockd.Ffi
import Sockd.Durations
import Sockd.ProcTable
import Sockd.Reclaim
import Sockd.StalePid
import Sockd.Debris
import Sockd.Reference.ShortRead
import Sockd.Reference.Client
import Sockd.Reference.Fields
import Sockd.Completion
import Sockd.Effects.Asks
import Sockd.Productive
import Sockd.Stands
import Sockd.Progress
import Sockd.NoDeadlock
import Sockd.Reference.Layout
import Sockd.Reference.Shipped
import Sockd.Reference.Hook
import Sockd.C.Heap
import Sockd.Display
import Sockd.Capi
import Sockd.Ownership
import Sockd.Handed
import Sockd.Effects.Loop
import Sockd.Reference.Daemon
import Sockd.Reference.Rounds
import Sockd.Reference.Run
import Sockd.Reference.Mappings
import Sockd.Reference.Endings
import Sockd.Reference.Resources
import Sockd.Reference.Machine
import Sockd.Reference.PidText
import Sockd.Reference.Stages
import Sockd.Reference.Orderly
import Sockd.Reference.Handover
import Sockd.Reference.HookProcess
import Sockd.HalfDuplex
import Sockd.Unvisited
import Sockd.Waits
