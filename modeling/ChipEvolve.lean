import ChipEvolve.Machine
import ChipEvolve.Exclusive
import ChipEvolve.Table
import ChipEvolve.Sql
import ChipEvolve.Outcome
import ChipEvolve.Builtins
import ChipEvolve.Json
import ChipEvolve.Resumable
import ChipEvolve.JsonText
import ChipEvolve.Disk
import ChipEvolve.Paging
import ChipEvolve.Crew
import ChipEvolve.Worklist
import ChipEvolve.Contracts.Status
import ChipEvolve.Contracts.Task
import ChipEvolve.Contracts.Artifact
import ChipEvolve.Contracts.Plugin
import ChipEvolve.Contracts.Payload
import ChipEvolve.Contracts.RoundTrip
import ChipEvolve.Contracts.Malformed
import ChipEvolve.Registry.Loader
import ChipEvolve.Registry.Validator
import ChipEvolve.Registry.Resolution
import ChipEvolve.Runtime.Admitted
import ChipEvolve.Store.Tables
import ChipEvolve.Store.Methods
import ChipEvolve.Store.Effects
import ChipEvolve.Store.Clients
import ChipEvolve.Store.WellFormed
import ChipEvolve.Store.StatusMachine
import ChipEvolve.Store.Running
import ChipEvolve.Store.Agreement
import ChipEvolve.Store.Capacity
import ChipEvolve.Store.Reservations
import ChipEvolve.Store.Record
import ChipEvolve.Store.Atomic
import ChipEvolve.Store.Schema
import ChipEvolve.Store.Migration
import ChipEvolve.Store.Custody
import ChipEvolve.Worker.Threads
import ChipEvolve.Worker.Turns
import ChipEvolve.Worker.Sound
import ChipEvolve.Worker.Fencing
import ChipEvolve.Worker.Orphans
import ChipEvolve.Worker.Exclusion
import ChipEvolve.Worker.Budget
import ChipEvolve.Worker.Settled
import ChipEvolve.Worker.Cycle
import ChipEvolve.Worker.Serving
import ChipEvolve.Worker.Returning
import ChipEvolve.Worker.Sweep
import ChipEvolve.Runtime.Resources
import ChipEvolve.Runtime.Attempt
import ChipEvolve.Runtime.Evidence
import ChipEvolve.Runtime.ResultFile
import ChipEvolve.Runtime.Typed
import ChipEvolve.Runtime.Success
import ChipEvolve.Runtime.Submission
import ChipEvolve.Runtime.Staging
import ChipEvolve.Runtime.Manifest
import ChipEvolve.Runtime.Placement
import ChipEvolve.Runtime.Bundle
import ChipEvolve.Runtime.Uninterrupted
import ChipEvolve.Runtime.Registering
import ChipEvolve.Runtime.Recording
import ChipEvolve.Apps.Console
import ChipEvolve.Gateway.Identity
import ChipEvolve.Gateway.Runs
import ChipEvolve.Gateway.Upload
import ChipEvolve.Provenance.Index
import ChipEvolve.Gateway.Reads
import ChipEvolve.TwoRuns
import ChipEvolve.Runtime.Sharing
import ChipEvolve.Gateway.Disclosure
import ChipEvolve.Gateway.Download
import ChipEvolve.Runtime.Origins
import ChipEvolve.Worker.Workspaces
import ChipEvolve.Plan.Store
import ChipEvolve.Plan.Executor
import ChipEvolve.Plan.Turns
import ChipEvolve.Plan.Steady
import ChipEvolve.Plan.Cancellation
import ChipEvolve.Plan.Kernel
import ChipEvolve.Plan.Linked
import ChipEvolve.Plan.Exchange
import ChipEvolve.Plan.Endings
import ChipEvolve.Plan.Serial
import ChipEvolve.Guardian.ProcessTree
import ChipEvolve.Guardian.Accounting
import ChipEvolve.Guardian.Fence
import ChipEvolve.Guardian.Host
import ChipEvolve.Guardian.Ending
import ChipEvolve.Guardian.Supervisor
import ChipEvolve.Guardian.Cleanup
import ChipEvolve.Guardian.Deadline
import ChipEvolve.Worker.Reclaim
import ChipEvolve.Gateway.Tree
import ChipEvolve.Provenance.Logs
import ChipEvolve.Provenance.Registered
import ChipEvolve.Provenance.Graph
import ChipEvolve.Provenance.Sourcing
import ChipEvolve.Plan.Binding
import ChipEvolve.Contracts.Staged
import ChipEvolve.Plan.Request
import ChipEvolve.Plan.Submittable
import ChipEvolve.FirstOf
import ChipEvolve.Contracts.Progress
import ChipEvolve.Runtime.Observer
import ChipEvolve.Worker.Blame
import ChipEvolve.FixedWidth
import ChipEvolve.Store.Timestamps
import ChipEvolve.ClosedWalk
import ChipEvolve.BreadthFirst
import ChipEvolve.Guardrails.Rules
import ChipEvolve.Guardrails.Cycle
import ChipEvolve.Guardrails.Unreachable
import ChipEvolve.Apps.RunConsole
import ChipEvolve.Gateway.Bootstrap
import ChipEvolve.Percent
import ChipEvolve.LongestFirst
import ChipEvolve.Gateway.Router
import ChipEvolve.Gateway.Specific
import ChipEvolve.Separated
import ChipEvolve.Url
import ChipEvolve.Gateway.Proxy
import ChipEvolve.Gateway.Forwarding
import ChipEvolve.Wire.Requests
import ChipEvolve.Wire.Reach
import ChipEvolve.Wire.Arrival
import ChipEvolve.Store.Frame
import ChipEvolve.Runtime.Confined
import ChipEvolve.Gateway.Writes
import ChipEvolve.Gateway.Owned
import ChipEvolve.Grants
import ChipEvolve.Gateway.Sessions
import ChipEvolve.DseLab.Sweeps
import ChipEvolve.DseLab.Recorded
import ChipEvolve.DseLab.Kept
import ChipEvolve.DseLab.Compared
import ChipEvolve.DseLab.Submitted
import ChipEvolve.DseLab.Returning
