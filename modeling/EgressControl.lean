import EgressControl.Address.Ipv4
import EgressControl.Address.Ipv6
import EgressControl.Address.Set
import EgressControl.Allow.KernelStore
import EgressControl.Allow.Manager
import EgressControl.Allow.Store
import EgressControl.Attachment
import EgressControl.Collection
import EgressControl.CommandLine.Execution
import EgressControl.CommandLine.Options
import EgressControl.CommandLine.Parser
import EgressControl.CommandLine.Request
import EgressControl.Config
import EgressControl.Connection
import EgressControl.Consumer
import EgressControl.Disk
import EgressControl.Engine.Effect
import EgressControl.Engine.Run
import EgressControl.Engine.Session
import EgressControl.Engine.Setup
import EgressControl.Error.Kernel
import EgressControl.Error.Setup
import EgressControl.Error.System
import EgressControl.FanIn
import EgressControl.Hook
import EgressControl.Json.Shape
import EgressControl.Json.Token
import EgressControl.Json.Value
import EgressControl.Kernel.Basic
import EgressControl.Kernel.Files
import EgressControl.Kernel.Map
import EgressControl.Kernel.Perf
import EgressControl.Kernel.Processors
import EgressControl.Kernel.Program
import EgressControl.Kernel.Section
import EgressControl.Log
import EgressControl.Main
import EgressControl.Mode.Basic
import EgressControl.Mode.Map
import EgressControl.Override
import EgressControl.Proofs.Address.DottedQuad
import EgressControl.Proofs.Address.Endpoint
import EgressControl.Proofs.Address.Ipv6
import EgressControl.Proofs.Allow.History
import EgressControl.Proofs.Allow.Kernel
import EgressControl.Proofs.Allow.Observe
import EgressControl.Proofs.Allow.Partition
import EgressControl.Proofs.Allow.Refinement
import EgressControl.Proofs.Allow.Seeding
import EgressControl.Proofs.Allow.Settled
import EgressControl.Proofs.Allow.Store
import EgressControl.Proofs.Attachment
import EgressControl.Proofs.Collection
import EgressControl.Proofs.CommandLine
import EgressControl.Proofs.Connection
import EgressControl.Proofs.Consumer.Accounting
import EgressControl.Proofs.Consumer.Closing
import EgressControl.Proofs.Consumer.Interleaving
import EgressControl.Proofs.Consumer.Marking
import EgressControl.Proofs.Consumer.Noninterference
import EgressControl.Proofs.Consumer.Steps
import EgressControl.Proofs.Consumer.Tally
import EgressControl.Proofs.Consumer.Widening
import EgressControl.Proofs.Disk
import EgressControl.Proofs.Engine.Agreement
import EgressControl.Proofs.Engine.Attaching
import EgressControl.Proofs.Engine.Composition
import EgressControl.Proofs.Engine.Course
import EgressControl.Proofs.Engine.Mapping
import EgressControl.Proofs.Engine.Releasing
import EgressControl.Proofs.Engine.Session
import EgressControl.Proofs.Engine.SetUp
import EgressControl.Proofs.Engine.Survey
import EgressControl.Proofs.Engine.Trace
import EgressControl.Proofs.FanIn.Merging
import EgressControl.Proofs.Json.Documents
import EgressControl.Proofs.Json.Printable
import EgressControl.Proofs.Json.RoundTrip
import EgressControl.Proofs.Json.Shape
import EgressControl.Proofs.Kernel.BufferSize
import EgressControl.Proofs.Override
import EgressControl.Proofs.Record.Destination
import EgressControl.Proofs.Record.Layout
import EgressControl.Proofs.Record.LittleEndian
import EgressControl.Proofs.Report.Aggregation
import EgressControl.Proofs.Report.Export
import EgressControl.Proofs.Report.Journal
import EgressControl.Proofs.Report.Layout
import EgressControl.Proofs.Report.ObservationLog
import EgressControl.Proofs.Report.Refusal
import EgressControl.Proofs.Seed.Collecting
import EgressControl.Proofs.Seed.Declarations
import EgressControl.Proofs.Seed.Items
import EgressControl.Proofs.Seed.Nameservers
import EgressControl.Proofs.Seed.Zones
import EgressControl.Proofs.Shutdown.Coordination
import EgressControl.Proofs.Stream.Delivery
import EgressControl.Proofs.TaskName
import EgressControl.Proofs.Text.Blank
import EgressControl.Proofs.Text.ByteOrder
import EgressControl.Proofs.Text.Lines
import EgressControl.Proofs.Text.Utf8.Reading
import EgressControl.Proofs.Text.Utf8.Sequence
import EgressControl.Record.Basic
import EgressControl.Record.LittleEndian
import EgressControl.Report.Basic
import EgressControl.Report.Document
import EgressControl.Report.Journal
import EgressControl.Report.Reporter
import EgressControl.Resolver
import EgressControl.Seed
import EgressControl.Shutdown
import EgressControl.Stream
import EgressControl.Table
import EgressControl.Text.Blank
import EgressControl.Text.Column
import EgressControl.Text.Quoted
import EgressControl.Text.Split
import EgressControl.Text.Terminal
import EgressControl.Text.Unprintable
import EgressControl.Text.Utf8
