import Orchestra.Scenario.Context
import Orchestra.Scenario.Emitter
import Orchestra.Scenario.Registry
import Orchestra.Scenario.Service
import Orchestra.Proofs.Registry.Disposal
import Orchestra.Proofs.Context.Updates
import Orchestra.Proofs.FanOut.ClosedForm
import Orchestra.Proofs.FanOut.Rounds
import Orchestra.Proofs.Clockwork.History
import Orchestra.Proofs.Service.Deeds
import Orchestra.Proofs.Dispatch.Alone
import Orchestra.Proofs.Dispatch.Decision
import Orchestra.Proofs.Dispatch.Cancellation
import Orchestra.Proofs.Clockwork.Foresight
import Orchestra.Proofs.Dispatch.Assignment
import Orchestra.Proofs.Accounting.Accounts
import Orchestra.Proofs.Dispatch.Isolation
import Orchestra.Proofs.Result.Nesting
import Orchestra.Proofs.Events.Announcements
import Orchestra.Proofs.Events.Mirroring
import Orchestra.Proofs.Service.Mounting
import Orchestra.Proofs.Markdown.Decomposition
import Orchestra.Proofs.Result.Completions
import Orchestra.Proofs.Service.Closing
import Orchestra.Proofs.Observers.Influence
import Orchestra.Proofs.Markdown.Rendering
import Orchestra.Proofs.Observers.Subscriptions
import Orchestra.Proofs.Runs.Following
import Orchestra.Proofs.Dispatch.Asking
import Orchestra.Proofs.Dispatch.Sending
import Orchestra.Proofs.Result.Combining
import Orchestra.Proofs.Context.Action
import Orchestra.Proofs.Analysis.Findings
import Orchestra.Proofs.Analysis.Reporting
import Orchestra.Proofs.Observers.Signals
import Orchestra.Proofs.ModelReply
import Orchestra.Proofs.Naming.Identity
import Orchestra.Proofs.Service.Unmounting
