import L1Agent.Library.Interleaving
import L1Agent.Engine.StateMachine
import L1Agent.Library.Digraph
import L1Agent.Models.Sop
import L1Agent.Connectors.Manifest
import L1Agent.Sop.Validator
import L1Agent.Models.Incident
import L1Agent.Engine.Executor
import L1Agent.Engine.Resolution
import L1Agent.Engine.Resume
import L1Agent.Engine.Simulation
import L1Agent.Actions.Policy
import L1Agent.Db.Models
import L1Agent.Actions.Store
import L1Agent.Service.Queue
import L1Agent.Sop.Store
import L1Agent.Connectors.Grant
import L1Agent.Service.Operations
import L1Agent.Actions.Service
import L1Agent.Actions.Ledger
import L1Agent.Actions.Truth
import L1Agent.Actions.Protocol
import L1Agent.Actions.Rules
import L1Agent.Actions.Kept
import L1Agent.Actions.Pipeline
import L1Agent.Actions.Machine
import L1Agent.Actions.TrueStatus
import L1Agent.Engine.IncidentProcessor
import L1Agent.Service.Runs
import L1Agent.Service.Deployment
import L1Agent.Service.Calls
import L1Agent.Service.Effects
import L1Agent.Service.Waking
import L1Agent.Library.History
import L1Agent.Sop.Lifecycle
import L1Agent.Sop.Reviewed
import L1Agent.Service.Intake
import L1Agent.Library.Past
import L1Agent.Actions.Channels
import L1Agent.Service.Concluded
import L1Agent.Library.Leases
import L1Agent.Service.Leases
import L1Agent.Actions.Attempts
import L1Agent.Actions.Limits
import L1Agent.Actions.Restricted
import L1Agent.Library.Replays
import L1Agent.Api.Access
import L1Agent.Api.Replay
import L1Agent.Runner.Ceiling
import L1Agent.Runner.Agent
import L1Agent.Runner.Calls
import L1Agent.Runner.Bounds
import L1Agent.Runner.Once
import L1Agent.Library.JsonText
import L1Agent.Audit.Chain
import L1Agent.Audit.Canonical
import L1Agent.Sop.Content
import L1Agent.Sop.Normalised
import L1Agent.Audit.Account
import L1Agent.Audit.Replayed
import L1Agent.Service.Export
import L1Agent.Service.Exported
import L1Agent.Library.Worlds
import L1Agent.Engine.Advised
import L1Agent.Service.Advised
import L1Agent.Engine.Parameters
import L1Agent.Engine.Expressions
import L1Agent.Engine.Lexemes
import L1Agent.Engine.Grammar
import L1Agent.Engine.Comparisons
import L1Agent.Actions.Decided
import L1Agent.Actions.FourEyes
import L1Agent.Library.Transactions
import L1Agent.Sop.Drafting
import L1Agent.Sop.DraftCalls
import L1Agent.Sop.Imported
import L1Agent.Library.Polling
import L1Agent.Service.Stream
import L1Agent.Service.Streamed
import L1Agent.Library.Answers
import L1Agent.Actions.Attempted
import L1Agent.Actions.Handed
import L1Agent.Actions.OwnTarget
import L1Agent.Itsm.Changes
import L1Agent.Actions.OneChange
import L1Agent.Ai.Sections
import L1Agent.Engine.Binding
import L1Agent.Engine.Rendering
import L1Agent.Engine.Spoken
import L1Agent.Library.Scanning
import L1Agent.Engine.Templates
import L1Agent.Actions.Documents
import L1Agent.Connectors.Invoke
import L1Agent.Runner.Wire
import L1Agent.Sop.Columns
import L1Agent.Sop.Fitting
import L1Agent.Service.Fitting
import L1Agent.Service.Journalled
import L1Agent.Ai.Schema
import L1Agent.Ai.Gateway
import L1Agent.Ai.Conforms
import L1Agent.Ai.Accounted
import L1Agent.Ai.Budgets
import L1Agent.Ai.Unforged
import L1Agent.Adapters.WindowsShare
import L1Agent.Connectors.Http
import L1Agent.Api.RateLimit
import L1Agent.Sop.Graph
import L1Agent.Engine.Roots
import L1Agent.Itsm.Paging
import L1Agent.Library.Ranking
import L1Agent.Library.WeightedMean
import L1Agent.Engine.Scoring
import L1Agent.Library.Handover
import L1Agent.Runner.Queue
import L1Agent.Runner.Dispatch
import L1Agent.Runner.Stages
import L1Agent.Runner.Conduct
import L1Agent.Runner.Handed
import L1Agent.Runner.Unmade
import L1Agent.Runner.Reported
import L1Agent.Library.Joined
import L1Agent.Connectors.Signed
import L1Agent.Auth.Permissions
import L1Agent.Auth.Store
import L1Agent.Auth.SignIn
import L1Agent.Auth.Conduct
import L1Agent.Library.Rows
import L1Agent.Library.Drawn
import L1Agent.Auth.Changes
import L1Agent.Auth.Kept
import L1Agent.Auth.Sessions
import L1Agent.Utils.Retry
import L1Agent.Library.Segments
import L1Agent.Library.Written
import L1Agent.Connectors.Secrets
import L1Agent.Connectors.Credentials
import L1Agent.Connectors.Presented
import L1Agent.Connectors.Rotation
import L1Agent.Connectors.Tokens
