import Replica.Applied.Cursor
import Replica.Applied.Reads
import Replica.Cluster.Basic
import Replica.Cluster.Calls
import Replica.Cluster.Echo
import Replica.Cluster.Link
import Replica.Cluster.Service
import Replica.Cluster.Task
import Replica.Cluster.Worker
import Replica.Diagnosis.Setup
import Replica.Error.Exit
import Replica.Error.Peer
import Replica.Error.Server
import Replica.Error.Spelling
import Replica.Json.Basic
import Replica.Json.Reader
import Replica.Json.Writer
import Replica.Lifecycle.Basic
import Replica.Lifecycle.Program
import Replica.Lifecycle.State
import Replica.Log.Entry
import Replica.Log.Group
import Replica.Machine.Application
import Replica.Machine.Basic
import Replica.Machine.Counter
import Replica.Machine.Transaction
import Replica.Network.Basic
import Replica.Network.Mailbox
import Replica.Network.Replying
import Replica.Network.Request
import Replica.Network.Sending
import Replica.Network.Settings
import Replica.Network.Taking
import Replica.Peer
import Replica.Proofs.Applied.Answers
import Replica.Proofs.Applied.Cursor
import Replica.Proofs.Applied.Pending
import Replica.Proofs.Applied.Reads
import Replica.Proofs.Applied.Release
import Replica.Proofs.Cluster.Assignments
import Replica.Proofs.Cluster.Conservation
import Replica.Proofs.Cluster.Custody
import Replica.Proofs.Cluster.DeadLinks
import Replica.Proofs.Cluster.Defects
import Replica.Proofs.Cluster.Directories
import Replica.Proofs.Cluster.Events
import Replica.Proofs.Cluster.Identity
import Replica.Proofs.Cluster.Jobs
import Replica.Proofs.Cluster.Links
import Replica.Proofs.Cluster.Loads
import Replica.Proofs.Cluster.Origins
import Replica.Proofs.Cluster.Outages
import Replica.Proofs.Cluster.Repairs
import Replica.Proofs.Cluster.Rounds
import Replica.Proofs.Cluster.Routing
import Replica.Proofs.Cluster.Senders
import Replica.Proofs.Cluster.Sessions
import Replica.Proofs.Cluster.Shifts
import Replica.Proofs.Cluster.Stopping
import Replica.Proofs.Cluster.Strides
import Replica.Proofs.Cluster.Supervision
import Replica.Proofs.Cluster.Traffic
import Replica.Proofs.Cluster.Transparency
import Replica.Proofs.Cluster.Verdicts
import Replica.Proofs.Cluster.Wakefulness
import Replica.Proofs.Cluster.Workers
import Replica.Proofs.Json.Reading
import Replica.Proofs.Json.Records
import Replica.Proofs.Json.Spellings
import Replica.Proofs.Json.WireForms
import Replica.Proofs.Lifecycle.Programs
import Replica.Proofs.Log.Groups
import Replica.Proofs.Machine.Applied
import Replica.Proofs.Machine.Counting
import Replica.Proofs.Machine.Retries
import Replica.Proofs.Machine.RunningMaximum
import Replica.Proofs.Machine.Starts
import Replica.Proofs.Network.Addresses
import Replica.Proofs.Network.Aging
import Replica.Proofs.Network.Balance
import Replica.Proofs.Network.Custody
import Replica.Proofs.Network.Effects
import Replica.Proofs.Network.Entries
import Replica.Proofs.Network.Lasting
import Replica.Proofs.Network.Latency
import Replica.Proofs.Network.Leaving
import Replica.Proofs.Network.Loads
import Replica.Proofs.Network.Onward
import Replica.Proofs.Network.Picking
import Replica.Proofs.Network.Queues
import Replica.Proofs.Network.Replies
import Replica.Proofs.Network.Turns
import Replica.Proofs.Places
import Replica.Proofs.Proxy.Amending
import Replica.Proofs.Proxy.Beginnings
import Replica.Proofs.Proxy.Belonging
import Replica.Proofs.Proxy.Clock
import Replica.Proofs.Proxy.Closing
import Replica.Proofs.Proxy.Concurrency
import Replica.Proofs.Proxy.Construction
import Replica.Proofs.Proxy.Entry
import Replica.Proofs.Proxy.Events
import Replica.Proofs.Proxy.Forgiving
import Replica.Proofs.Proxy.Freshness
import Replica.Proofs.Proxy.Generations
import Replica.Proofs.Proxy.InTurn
import Replica.Proofs.Proxy.Invariant
import Replica.Proofs.Proxy.Isolation
import Replica.Proofs.Proxy.Lock
import Replica.Proofs.Proxy.Looking
import Replica.Proofs.Proxy.Moves
import Replica.Proofs.Proxy.OneByOne
import Replica.Proofs.Proxy.Ownership
import Replica.Proofs.Proxy.Part
import Replica.Proofs.Proxy.PartOfCalls
import Replica.Proofs.Proxy.Precedence
import Replica.Proofs.Proxy.Repairing
import Replica.Proofs.Proxy.Retiring
import Replica.Proofs.Proxy.Roster
import Replica.Proofs.Proxy.Separation
import Replica.Proofs.Proxy.Serving
import Replica.Proofs.Proxy.Settling
import Replica.Proofs.Proxy.Shutting
import Replica.Proofs.Proxy.Standings
import Replica.Proofs.Proxy.Surroundings
import Replica.Proofs.Proxy.Tries
import Replica.Proofs.Proxy.Turns
import Replica.Proofs.Proxy.Yielding
import Replica.Proofs.Ranks
import Replica.Proofs.Registry
import Replica.Proofs.Text.Bytes
import Replica.Proofs.Text.Hex
import Replica.Proofs.Time.Schedule
import Replica.Proofs.Time.Ticks
import Replica.Proofs.Time.Tracking
import Replica.Proofs.Traffic.Accounts
import Replica.Proofs.Traffic.Basic
import Replica.Proofs.Traffic.Blocking
import Replica.Proofs.Traffic.Clock
import Replica.Proofs.Traffic.Correlation
import Replica.Proofs.Traffic.Deadlines
import Replica.Proofs.Traffic.Departures
import Replica.Proofs.Traffic.Facing
import Replica.Proofs.Traffic.History
import Replica.Proofs.Traffic.Keys
import Replica.Proofs.Traffic.Latencies
import Replica.Proofs.Traffic.Leftovers
import Replica.Proofs.Traffic.Omission
import Replica.Proofs.Traffic.Outcomes
import Replica.Proofs.Traffic.Punctuality
import Replica.Proofs.Traffic.Release
import Replica.Proofs.Traffic.Runs
import Replica.Proofs.Traffic.Selection
import Replica.Proofs.Traffic.Tables
import Replica.Proofs.Traffic.Tasks
import Replica.Proofs.Traffic.Handovers
import Replica.Proofs.Traffic.Waiting
import Replica.Proxy.Calls
import Replica.Proxy.Creation
import Replica.Proxy.Entry
import Replica.Proxy.Map
import Replica.Proxy.Task
import Replica.Text.Digits
import Replica.Text.Quoted
import Replica.Time.Polling
import Replica.Time.Schedule
