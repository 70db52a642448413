import Rill.Lib.Bytes
import Rill.Lib.Halves
import Rill.Lib.Op
import Rill.Lib.Runs
import Rill.Lib.Segment
import Rill.Lib.Slots
import Rill.Lib.Ledger
import Rill.Lib.Table
import Rill.Lib.Redelivery
import Rill.Lib.Log
import Rill.Lib.Text
import Rill.Lib.Forest
import Rill.Lib.Pipe
import Rill.Lib.Gated
import Rill.Lib.Window
import Rill.Vt.Delta
import Rill.Vt.Bounds
import Rill.Vt.Import
import Rill.Vt.Usable
import Rill.Vt.Damage
import Rill.Vt.Alternate
import Rill.Vt.Replace
import Rill.Vt.Pairs
import Rill.Vt.Mirror
import Rill.Vt.Csi
import Rill.Vt.Cancel
import Rill.Vt.Strings
import Rill.Vt.Escapes
import Rill.Vt.Resize
import Rill.Vt.Replies
import Rill.Vt.Cluster
import Rill.Vt.Anchor
import Rill.Vt.Words
import Rill.Vt.Rows
import Rill.Vt.Spans
import Rill.Vt.Scrollback
import Rill.Vt.Margins
import Rill.Vt.Pending
import Rill.Attach.Frame
import Rill.Daemon.Claims
import Rill.Daemon.Flush
import Rill.Daemon.Batch
import Rill.Daemon.Apart
import Rill.Daemon.Offsets
import Rill.Daemon.Resync
import Rill.Kernel.Input
import Rill.Kernel.Lease
import Rill.Kernel.Backpressure
import Rill.Daemon.Accounts
import Rill.Daemon.Purse
import Rill.Daemon.Repaints
import Rill.Daemon.Order
import Rill.Daemon.Exit
import Rill.Daemon.Tail
import Rill.Kernel.Faults
import Rill.Kernel.Transcript
import Rill.Kernel.Content
import Rill.Kernel.Containers
import Rill.Kernel.Close
import Rill.Kernel.Events
import Rill.Kernel.Recovery
import Rill.Daemon.Faults
import Rill.Daemon.Content
import Rill.Daemon.Channel
import Rill.Daemon.Outbox
import Rill.Daemon.Proxy
import Rill.Host.Outbox
import Rill.Host.Speech
import Rill.Host.Presenter
import Rill.Host.Shown
import Rill.Host.Content
import Rill.Link.World
import Rill.Link.Ends
import Rill.Link.Balance
import Rill.Link.Account
import Rill.Link.Window
import Rill.Link.Pump
import Rill.Link.Wires
import Rill.Link.Glass
import Rill.Kernel.Retention
import Rill.Kernel.Terminate
import Rill.Kernel.Delivery
import Rill.Daemon.Given
import Rill.Link.Typed
import Rill.Orchestrate.Task
import Rill.Orchestrate.Persist
import Rill.Orchestrate.Restarts
import Rill.Orchestrate.Numbering
import Rill.Orchestrate.Blocked
import Rill.Orchestrate.Answers
import Rill.Orchestrate.History
import Rill.Orchestrate.Attention
import Rill.Orchestrate.Trust
import Rill.Vt.Lookup
import Rill.Lib.Bracket
import Rill.Lib.Fields
import Rill.Lib.Replace
import Rill.Lib.Slice
import Rill.Vt.Pens
import Rill.Kernel.Redaction
import Rill.Daemon.Nav
import Rill.Daemon.Tabs
import Rill.Host.Input
import Rill.Host.Nav
import Rill.Orchestrate.Automation
import Rill.Orchestrate.Config
import Rill.Look.Keys
import Rill.Look.Theme
import Rill.Look.Comment
import Rill.Lib.Bisect
