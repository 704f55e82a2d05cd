import ReleaseFlow.Forge.Memory
import ReleaseFlow.Main
import ReleaseFlow.Proofs.Calendar.Titles
import ReleaseFlow.Proofs.CommandLine.Bump
import ReleaseFlow.Proofs.Config.Keys
import ReleaseFlow.Proofs.Config.Location
import ReleaseFlow.Proofs.Forge.Branches
import ReleaseFlow.Proofs.Labels.Precedence
import ReleaseFlow.Proofs.Repository.Reading
import ReleaseFlow.Proofs.Runner.Failures
import ReleaseFlow.Proofs.Runner.ReadBack
import ReleaseFlow.Proofs.Session.AtOnce
import ReleaseFlow.Proofs.Session.DryRuns
import ReleaseFlow.Proofs.Session.Queued
import ReleaseFlow.Proofs.TagPattern.Expression
import ReleaseFlow.Proofs.Version.Reading
import ReleaseFlow.Proofs.Version.Successor
import ReleaseFlow.Proofs.Wait.Schedule
import ReleaseFlow.Proofs.Workflow.Backends
import ReleaseFlow.Proofs.Workflow.Budget
import ReleaseFlow.Proofs.Workflow.Comparison
import ReleaseFlow.Proofs.Workflow.JobLogs
import ReleaseFlow.Proofs.Workflow.OwnJob
import ReleaseFlow.Proofs.Workflow.Publishing
import ReleaseFlow.Proofs.Workflow.RefTarget
import ReleaseFlow.Proofs.Workflow.Rehearsal
import ReleaseFlow.Proofs.Workflow.Retry
import ReleaseFlow.Proofs.Workflow.RunFilter
import ReleaseFlow.Proofs.Workflow.Verdict
