import IssueBridge.Main
import IssueBridge.Pass.Memory
import IssueBridge.Proofs.MirroredIssues
import IssueBridge.Proofs.Recovery
import IssueBridge.Proofs.SessionSteps
import IssueBridge.Proofs.UniqueMirrors
import IssueBridge.Proofs.WrittenComments
import IssueBridge.Proofs.ParallelRuns
import IssueBridge.Proofs.Questions
import IssueBridge.Proofs.DryCalls
import IssueBridge.Proofs.DryRun
import IssueBridge.Proofs.PassReach
import IssueBridge.Proofs.PassAccounts
import IssueBridge.Proofs.GitHubListing
import IssueBridge.Proofs.JiraListing
import IssueBridge.Proofs.SentFields
import IssueBridge.Proofs.ListedComments
import IssueBridge.Proofs.StoredNumbers
import IssueBridge.Proofs.DrySessions
import IssueBridge.Proofs.PlanPartition
import IssueBridge.Proofs.RepeatedCreations
import IssueBridge.Proofs.ListingOrder
import IssueBridge.Proofs.IssueMatching
import IssueBridge.Proofs.ChangeDetection
import IssueBridge.Proofs.WritingOrder
import IssueBridge.Proofs.RetryCourse
import IssueBridge.Proofs.RetryEnd
import IssueBridge.Proofs.SentValues
import IssueBridge.Proofs.NumeralViews
import IssueBridge.Proofs.CutoffHistory
import IssueBridge.Proofs.SettingsOverlay
import IssueBridge.Proofs.ListedFields
import IssueBridge.Proofs.HeaderPatterns
