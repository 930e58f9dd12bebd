import Reconciler.Backoff
import Reconciler.Cache.Basic
import Reconciler.Cache.Diff
import Reconciler.CommandLine.Arguments
import Reconciler.CommandLine.Launch
import Reconciler.CommandLine.Option
import Reconciler.Dispatch
import Reconciler.Entity
import Reconciler.Error
import Reconciler.Host.Backend
import Reconciler.Host.Clock
import Reconciler.Host.Line
import Reconciler.Host.Operator
import Reconciler.Host.Pipeline
import Reconciler.Host.Registration
import Reconciler.Http.Address
import Reconciler.Http.Api
import Reconciler.Http.EntityClient
import Reconciler.Http.LeaseClient
import Reconciler.Http.Message
import Reconciler.Http.MirrorClient
import Reconciler.Json.Basic
import Reconciler.Json.Binary64
import Reconciler.Json.Document
import Reconciler.Json.Parser
import Reconciler.Json.Printer
import Reconciler.Json.Reader
import Reconciler.Json.Record
import Reconciler.Leadership.Channel
import Reconciler.Leadership.Election
import Reconciler.Leadership.Elector
import Reconciler.Leadership.Follower
import Reconciler.Logging.Basic
import Reconciler.Logging.Directive
import Reconciler.Logging.Filter
import Reconciler.Logging.Level
import Reconciler.Logging.Pattern
import Reconciler.Main
import Reconciler.Metadata
import Reconciler.Mirror.ConfigMirror
import Reconciler.Mirror.Controller
import Reconciler.Mirror.Copy
import Reconciler.Mirror.Definition
import Reconciler.Object.ConfigMap
import Reconciler.Object.Lease
import Reconciler.Object.Lenient
import Reconciler.Object.NamespaceObject
import Reconciler.Plan
import Reconciler.Queue.Basic
import Reconciler.Queue.Timers
import Reconciler.Queue.Trigger
import Reconciler.Resource
import Reconciler.Settings
import Reconciler.Simulation.Dispatching
import Reconciler.Simulation.Electing
import Reconciler.Simulation.Log
import Reconciler.Simulation.Mirroring
import Reconciler.Simulation.Operating
import Reconciler.Simulation.Reader
import Reconciler.Simulation.Script
import Reconciler.Simulation.Server
import Reconciler.Simulation.Stage
import Reconciler.Simulation.Watching
import Reconciler.Simulation.Widget
import Reconciler.Text.Alphanumeric
import Reconciler.Text.Blank
import Reconciler.Text.Quoted
import Reconciler.Text.Unprintable
import Reconciler.Text.Utf8
import Reconciler.Time.Duration
import Reconciler.Time.Timestamp
import Reconciler.Watch.Event
import Reconciler.Watch.Watcher
import Reconciler.Proofs.Queue.Pending
import Reconciler.Proofs.Queue.Coalescing
import Reconciler.Proofs.Queue.Draining
import Reconciler.Proofs.Dispatch.Handling
import Reconciler.Proofs.Host.Deeds
import Reconciler.Proofs.Host.Site
import Reconciler.Proofs.Host.Delivery
import Reconciler.Proofs.Watch.History
import Reconciler.Proofs.Watch.Resuming
import Reconciler.Proofs.Watch.Gone
import Reconciler.Proofs.Host.Courses
import Reconciler.Proofs.Host.Leading
import Reconciler.Proofs.Time.Order
import Reconciler.Proofs.Leadership.TwoLeaders
import Reconciler.Proofs.Leadership.Contest
import Reconciler.Proofs.Leadership.Rivals
import Reconciler.Proofs.Host.Epochs
import Reconciler.Proofs.Queue.Stream
import Reconciler.Proofs.Json.Fields
import Reconciler.Proofs.Json.MergePatch
import Reconciler.Proofs.Json.Reading
import Reconciler.Proofs.Cache.Differences
import Reconciler.Proofs.Cache.Echo
import Reconciler.Proofs.Dispatch.Settling
import Reconciler.Proofs.Mirror.Statuses
import Reconciler.Proofs.Mirror.Passes
import Reconciler.Proofs.Mirror.StatusWrites
import Reconciler.Proofs.Mirror.Echoes
import Reconciler.Proofs.Leadership.Attempts
import Reconciler.Proofs.Host.ReleaseLast
import Reconciler.Proofs.Leadership.Renewing
import Reconciler.Proofs.Host.Restarts
import Reconciler.Proofs.Mirror.Truth
import Reconciler.Proofs.Mirror.Waits
import Reconciler.Proofs.Queue.Horizon
import Reconciler.Proofs.Host.Surviving
import Reconciler.Proofs.Watch.Stability
import Reconciler.Proofs.Dispatch.Tracing
import Reconciler.Proofs.Dispatch.Finalizing
import Reconciler.Proofs.Dispatch.Reconciling
import Reconciler.Proofs.Dispatch.Retrying
import Reconciler.Proofs.Cache.Modulo
import Reconciler.Proofs.Cache.Snapshots
import Reconciler.Proofs.Cache.Written
import Reconciler.Proofs.Mirror.Labels
import Reconciler.Proofs.Mirror.Requests
import Reconciler.Proofs.Mirror.Copying
import Reconciler.Proofs.Dispatch.Releasing
import Reconciler.Proofs.Mirror.Cleaning
import Reconciler.Proofs.Mirror.Ownership
import Reconciler.Proofs.Http.Requests
import Reconciler.Proofs.Http.Addresses
import Reconciler.Proofs.Http.Refusals
import Reconciler.Proofs.Watch.Nameless
import Reconciler.Proofs.Json.Printing
import Reconciler.Proofs.Mirror.Texts
import Reconciler.Proofs.Text.ByteOrder
import Reconciler.Proofs.Cache.LeastPlaces
import Reconciler.Proofs.Backoff.Retries
import Reconciler.Proofs.Leadership.Arithmetic
