import LifeAI.Auth.Family
import LifeAI.Auth.Revocation
import LifeAI.Context.Refresh
import LifeAI.Coordination.InStep
import LifeAI.Coordination.Retry
import LifeAI.Coordination.Scopes
import LifeAI.Coordination.Slots
import LifeAI.Coordination.Started
import LifeAI.Driver.Latest
import LifeAI.Driver.Skipped
import LifeAI.Driver.Verified
import LifeAI.Envelopes.Chain
import LifeAI.Founder.History
import LifeAI.Gap.Converge
import LifeAI.Gap.Lineage
import LifeAI.Import.Cancelled
import LifeAI.Import.OneDocument
import LifeAI.Import.OneWorker
import LifeAI.Import.Originals
import LifeAI.Import.Resumable
import LifeAI.Import.UploadLimit
import LifeAI.Intents.Exact
import LifeAI.Jobs.CreateOnce
import LifeAI.Links.OneTime
import LifeAI.MemorySource.FindOrCreate
import LifeAI.Messages.Ordinals
import LifeAI.Messages.Resume
import LifeAI.Operator.Commit
import LifeAI.Operator.Confined
import LifeAI.Planner.Candidate
import LifeAI.Planner.Order
import LifeAI.Project.Checkpoints
import LifeAI.Project.Statuses
import LifeAI.Provider.Accounting
import LifeAI.Purge.TwoPhase
import LifeAI.Rag.Backfill
import LifeAI.Rag.Chunking
import LifeAI.Rag.Conserved
import LifeAI.Rag.Transcripts
import LifeAI.Recovery.AllOrNothing
import LifeAI.Review.Resume
import LifeAI.Spend.Headroom
import LifeAI.Storage.Publish
import LifeAI.Strategy.Promotion
import LifeAI.Strategy.Reuse
import LifeAI.Supervisor.Closing
import LifeAI.Supervisor.Fencing
import LifeAI.Supervisor.Narrowing
import LifeAI.Supervisor.Reselect
import LifeAI.Synthesis.Law
import LifeAI.Tasks.Absorb
import LifeAI.Tasks.Budget
import LifeAI.Tasks.DepSafety
import LifeAI.Tasks.Drain
import LifeAI.Tasks.OneJob
import LifeAI.Tasks.Replay
import LifeAI.Tasks.Search
import LifeAI.Tasks.Upstream
import LifeAI.Threads.Merge
import LifeAI.Workforce.Cost
import LifeAI.Workforce.Effects
import LifeAI.Workforce.PathAuthority
import LifeAI.Workforce.Scrub
import LifeAI.Workforce.Takeover
import LifeAI.Workforce.Verified
import LifeAI.Worktree.Bound
import LifeAI.Zip.ArchivePath
import LifeAI.Zip.Contained
