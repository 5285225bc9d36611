import TenantSizing.Main
import TenantSizing.Controller.History
import TenantSizing.Controller.Watch
import TenantSizing.Mode.Unchecked
import TenantSizing.Proofs.Extremes
import TenantSizing.Proofs.Requests
import TenantSizing.Proofs.Conformance
import TenantSizing.Proofs.Summaries
import TenantSizing.Proofs.Targets
import TenantSizing.Proofs.Runs
import TenantSizing.Proofs.Demands
import TenantSizing.Proofs.Configs
import TenantSizing.Proofs.Convergence
import TenantSizing.Proofs.Ownership
import TenantSizing.Proofs.AllowList
import TenantSizing.Proofs.Quantities
import TenantSizing.Proofs.Sizes
import TenantSizing.Proofs.SizingLevel
import TenantSizing.Proofs.Calls
import TenantSizing.Proofs.LiveTenants
import TenantSizing.Proofs.Histories
import TenantSizing.Proofs.Alike
import TenantSizing.Proofs.Repetition
import TenantSizing.Proofs.Choices
import TenantSizing.Proofs.Triggered
import TenantSizing.Proofs.Totality
import TenantSizing.Proofs.Views
import TenantSizing.Proofs.Interference
import TenantSizing.Proofs.CpuLimits
import TenantSizing.Proofs.Growth
import TenantSizing.Proofs.Newcomers
import TenantSizing.Proofs.Footprints
import TenantSizing.Proofs.Outcomes
import TenantSizing.Proofs.Retries
import TenantSizing.Proofs.Events
import TenantSizing.Proofs.DryRuns
import TenantSizing.Proofs.Agreement
import TenantSizing.Proofs.Reordering
import TenantSizing.Proofs.ReorderedMerges
import TenantSizing.Proofs.ReorderedRequests
import TenantSizing.Proofs.ReorderedRules
import TenantSizing.Proofs.ReorderedDemands
import TenantSizing.Proofs.EntryOrder
import TenantSizing.Proofs.Places
import TenantSizing.Proofs.FilteredMerges
import TenantSizing.Proofs.Clashes
import TenantSizing.Proofs.PlainMerges
import TenantSizing.Proofs.SummaryMerges
import TenantSizing.Proofs.GatheredModes
import TenantSizing.Proofs.Templates
import TenantSizing.Proofs.NormalForms
import TenantSizing.Proofs.Warnings
import TenantSizing.Proofs.SummaryEntries
import TenantSizing.Proofs.ResolvedModes
import TenantSizing.Proofs.GuardedWork
import TenantSizing.Proofs.AssembledNodes
import TenantSizing.Proofs.DocumentFaults
import TenantSizing.Proofs.RulesFiles
import TenantSizing.Proofs.Comparator
import TenantSizing.Proofs.TemplateResources
import TenantSizing.Proofs.WatchStreams
import TenantSizing.Proofs.NumberValues
import TenantSizing.Proofs.Sameness
import TenantSizing.Proofs.ManagedFields
import TenantSizing.Proofs.Identities
