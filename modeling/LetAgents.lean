import LetAgents.Inbox.ProviderTurn
import LetAgents.Inbox.Publication
import LetAgents.Inbox.Acceptance
import LetAgents.Inbox.Completion
import LetAgents.Inbox.DrainCutover
import LetAgents.Inbox.RetryDebt
import LetAgents.Inbox.SharedTurn
import LetAgents.Rental.TerminalSessions
import LetAgents.Rental.UsageTotals
import LetAgents.Rental.QuotaLanes
import LetAgents.Rental.SessionLease
import LetAgents.Rental.BudgetExtension
import LetAgents.Rental.PatchReview
import LetAgents.Tasks.ReviewSeparation
import LetAgents.Daemon.EntryGate
import LetAgents.Daemon.HostToolRules
import LetAgents.Review.LexerSoundness
import LetAgents.Coordination.LeaseFences
import LetAgents.Coordination.StatusTransitions
import LetAgents.Coordination.LeaseRebind
import LetAgents.Coordination.GrantFences
import LetAgents.Execution.ShadowCursorRuns
import LetAgents.Durability.FenceRuns
import LetAgents.Events.OrderedNotifications
import LetAgents.Mcp.SseDelivery
import LetAgents.Rental.ClonedOrigins
import LetAgents.Rental.LiveInstallation
import LetAgents.Tasks.WorkflowEffects
import LetAgents.Rental.AgreedFiles
import LetAgents.Rental.ContextLeaks
import LetAgents.Coordination.BoardSuccession
import LetAgents.Workspace.Sections
import LetAgents.Workspace.QuotedPaths
import LetAgents.Rental.JournalDiffs
import LetAgents.Rental.PathAgreement
import LetAgents.Rental.SecretResidue
import LetAgents.Rental.PatchAtomicity
import LetAgents.Routing.HiddenOwners
import LetAgents.Inbox.PublicationIds
import LetAgents.Tasks.WorkflowArtifacts
import LetAgents.Routing.DisplayNames
import LetAgents.Rooms.FreshAuthorization
import LetAgents.Rental.ExposureLedger
import LetAgents.Rental.CommandPolicy
import LetAgents.Rental.EntropySegments
import LetAgents.Rental.ProposalCalls
import LetAgents.Review.ArgumentReading
import LetAgents.Mcp.GitRemote
import LetAgents.Events.ExecutorSlots
import LetAgents.Daemon.LiveFeed
import LetAgents.Rooms.ReleaseBounds
