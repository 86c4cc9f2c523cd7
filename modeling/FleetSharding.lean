import FleetSharding.Api
import FleetSharding.CommandLine
import FleetSharding.Config
import FleetSharding.ConfigFile
import FleetSharding.Coordinator.Basic
import FleetSharding.Coordinator.Decision
import FleetSharding.Coordinator.Snapshot
import FleetSharding.Coordinator.Step
import FleetSharding.Device
import FleetSharding.DiscoveryError
import FleetSharding.Duration
import FleetSharding.Etcd.Client
import FleetSharding.Etcd.KeepAlive
import FleetSharding.Etcd.Record
import FleetSharding.Etcd.Registration
import FleetSharding.Etcd.Server
import FleetSharding.Etcd.Store
import FleetSharding.Etcd.Watch
import FleetSharding.Event
import FleetSharding.Hash
import FleetSharding.Json.Decode
import FleetSharding.Json.Lexeme
import FleetSharding.Json.Reader
import FleetSharding.Json.Skip
import FleetSharding.Json.Value
import FleetSharding.Json.Writer
import FleetSharding.Main
import FleetSharding.Member
import FleetSharding.Membership
import FleetSharding.Metrics
import FleetSharding.Number.Binary64
import FleetSharding.Number.Shortest
import FleetSharding.Record
import FleetSharding.Registry
import FleetSharding.Shutdown
import FleetSharding.Signal
import FleetSharding.Simulation.Cluster
import FleetSharding.Simulation.Node
import FleetSharding.Simulation.Runner
import FleetSharding.Simulation.StartUp
import FleetSharding.Simulation.StoreScript
import FleetSharding.Simulation.VerbResult
import FleetSharding.SlotMap
import FleetSharding.SortedMap
import FleetSharding.Status
import FleetSharding.Subscription
import FleetSharding.Text.Blank
import FleetSharding.Text.Graphic
import FleetSharding.Text.Quoted
import FleetSharding.Text.Unsigned
import FleetSharding.Text.Utf8
import FleetSharding.Timestamp
import FleetSharding.Tracing
import FleetSharding.Yaml.CoreSchema
import FleetSharding.Yaml.Decode
import FleetSharding.Yaml.Lexer
import FleetSharding.Yaml.Node
import FleetSharding.Yaml.Scalar
import FleetSharding.Yaml.Spot
import FleetSharding.Yaml.Token
import FleetSharding.Proofs.Reachable
import FleetSharding.Proofs.SlotMap.Layout
import FleetSharding.Proofs.SlotMap.Ownership
import FleetSharding.Proofs.SlotMap.Survivors
import FleetSharding.Proofs.Coordinator.Discipline
import FleetSharding.Proofs.Coordinator.Outlook
import FleetSharding.Proofs.Coordinator.Turn
import FleetSharding.Proofs.Coordinator.Accord
import FleetSharding.Proofs.Coordinator.Published
import FleetSharding.Proofs.Coordinator.Overlap
import FleetSharding.Proofs.Coordinator.Threshold
import FleetSharding.Proofs.Coordinator.Rebalance
import FleetSharding.Proofs.Coordinator.Health
import FleetSharding.Proofs.Coordinator.Attention
import FleetSharding.Proofs.Coordinator.Retry
import FleetSharding.Proofs.Membership
import FleetSharding.Proofs.Coordinator.Watching
import FleetSharding.Proofs.Coordinator.Prospect
import FleetSharding.Proofs.Coordinator.Freshness
import FleetSharding.Proofs.Coordinator.Announcement
import FleetSharding.Proofs.Subscription
import FleetSharding.Proofs.Coordinator.Edges
import FleetSharding.Proofs.Coordinator.Fleet
import FleetSharding.Proofs.SortedMap
import FleetSharding.Proofs.Etcd.Store
import FleetSharding.Proofs.Etcd.Enrolment
import FleetSharding.Proofs.Coordinator.Concord
import FleetSharding.Proofs.Allotment
import FleetSharding.Proofs.Coordinator.Release
import FleetSharding.Proofs.Coordinator.Gates
import FleetSharding.Proofs.SlotMap.Spread
import FleetSharding.Proofs.Etcd.ReadBack
import FleetSharding.Proofs.Etcd.Namespace
import FleetSharding.Proofs.Simulation.Node
import FleetSharding.Proofs.Etcd.Leases
import FleetSharding.Proofs.Etcd.Registering
import FleetSharding.Proofs.Etcd.Client
import FleetSharding.Proofs.Simulation.Remnant
import FleetSharding.Proofs.Replay
import FleetSharding.Proofs.Etcd.Watch
import FleetSharding.Proofs.Etcd.Claiming
import FleetSharding.Proofs.Coordinator.Quitting
import FleetSharding.Proofs.Coordinator.Search
import FleetSharding.Proofs.LiveClaims
import FleetSharding.Proofs.Metrics
import FleetSharding.Proofs.Record
import FleetSharding.Proofs.Layers
import FleetSharding.Proofs.Signal
import FleetSharding.Proofs.SlotMap.Numbering
import FleetSharding.Proofs.Coordinator.Plan
import FleetSharding.Proofs.Json.Numerals
import FleetSharding.Proofs.Json.Reading
import FleetSharding.Proofs.Device
import FleetSharding.Proofs.Duration
import FleetSharding.Proofs.Yaml.Answers
import FleetSharding.Proofs.ConfigFile
