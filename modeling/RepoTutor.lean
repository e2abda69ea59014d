import RepoTutor.Cli.Program
import RepoTutor.Command.Codec
import RepoTutor.Grading.Verdict
import RepoTutor.Http.Router
import RepoTutor.Main
import RepoTutor.Practice.Reading
import RepoTutor.Repo.Codec
import RepoTutor.Session.Executor
import RepoTutor.Proofs.Data.Membership
import RepoTutor.Proofs.Repo.Ancestry
import RepoTutor.Proofs.Data.Except
import RepoTutor.Proofs.Repo.Cycles
import RepoTutor.Proofs.Repo.WellFormed
import RepoTutor.Proofs.Transition.Effects
import RepoTutor.Proofs.Repo.Resolution
import RepoTutor.Proofs.Repo.TreeMerge
import RepoTutor.Proofs.Transition.Preservation
import RepoTutor.Proofs.Transition.Application
import RepoTutor.Proofs.Repo.MergeBase
import RepoTutor.Proofs.Repo.BaseSearch
import RepoTutor.Proofs.Session.Halting
import RepoTutor.Proofs.Transition.Pointers
import RepoTutor.Proofs.Transition.History
import RepoTutor.Proofs.Transition.FileView
import RepoTutor.Proofs.Transition.PendingEdits
import RepoTutor.Proofs.Transition.Status
import RepoTutor.Proofs.Transition.Contents
import RepoTutor.Proofs.Transition.FileFrame
import RepoTutor.Proofs.Transition.FastForward
import RepoTutor.Proofs.Transition.AppendOnly
import RepoTutor.Proofs.Transition.Retention
import RepoTutor.Proofs.Repo.LogOrder
import RepoTutor.Proofs.Transition.Chronology
import RepoTutor.Proofs.Hash.Blocks
import RepoTutor.Proofs.Grading.Shapes
import RepoTutor.Proofs.Grading.HistoryIso
import RepoTutor.Proofs.Grading.Matching
import RepoTutor.Proofs.Grading.StructuralRules
import RepoTutor.Proofs.Transition.JoinedParents
import RepoTutor.Proofs.Grading.Signature
import RepoTutor.Proofs.Json.RoundTrip
import RepoTutor.Proofs.Repo.RoundTrip
import RepoTutor.Proofs.Store.Faithful
import RepoTutor.Proofs.Practice.Replay
import RepoTutor.Proofs.Session.Progress
import RepoTutor.Proofs.Session.Tracking
import RepoTutor.Proofs.Session.Isolation
import RepoTutor.Proofs.Session.Log
import RepoTutor.Proofs.Transition.PendingMerge
import RepoTutor.Proofs.Transition.GenuineMerges
import RepoTutor.Proofs.Transition.ProtectedEdits
import RepoTutor.Proofs.Repo.Texts
import RepoTutor.Proofs.Store.Register
import RepoTutor.Proofs.Command.Words
import RepoTutor.Proofs.Command.Vetting
import RepoTutor.Proofs.Command.Paths
import RepoTutor.Proofs.Transition.BranchNames
import RepoTutor.Proofs.Store.Places
import RepoTutor.Proofs.Session.Staleness
import RepoTutor.Proofs.Json.CanonicalForm
import RepoTutor.Proofs.Json.CanonicalText
import RepoTutor.Proofs.Repo.Identity
import RepoTutor.Proofs.Transition.BornHead
import RepoTutor.Proofs.Workspace.Files
import RepoTutor.Proofs.Workspace.Config
import RepoTutor.Proofs.Cli.ConfigSet
import RepoTutor.Proofs.Grading.CommandOrder
import RepoTutor.Proofs.Grading.FullMarks
import RepoTutor.Proofs.Practice.Solvable
import RepoTutor.Proofs.Transition.MergeBases
import RepoTutor.Proofs.Transition.CarriedEdits
import RepoTutor.Proofs.Transition.AfterMerge
import RepoTutor.Proofs.Command.Redirects
import RepoTutor.Proofs.Repo.Revisions
import RepoTutor.Proofs.Transition.StagedCommit
import RepoTutor.Proofs.Transition.UndoneCommit
import RepoTutor.Proofs.Repo.ThreeWay
import RepoTutor.Proofs.Grading.CommandPositions
import RepoTutor.Proofs.Grading.ShapeWalk
import RepoTutor.Proofs.Grading.AncestryTree
import RepoTutor.Proofs.Repo.SearchOrder
import RepoTutor.Proofs.Transition.BaseOrder
import RepoTutor.Proofs.Repo.WalkLength
import RepoTutor.Proofs.Repo.AncestorOrder
import RepoTutor.Proofs.Repo.ExactCheck
import RepoTutor.Proofs.Transition.Directories
import RepoTutor.Proofs.Transition.AddedPaths
import RepoTutor.Proofs.Transition.IndependentPaths
import RepoTutor.Proofs.Transition.Renaming
import RepoTutor.Proofs.Transition.MergeMessages
import RepoTutor.Proofs.Json.MemberOrder
import RepoTutor.Proofs.Command.RoundTrip
import RepoTutor.Proofs.Grading.WrittenRules
import RepoTutor.Proofs.Practice.EffectiveRules
