import EdgeHealth.Bundle.Build
import EdgeHealth.Check.Note
import EdgeHealth.Check.Record
import EdgeHealth.Cluster.Snapshot
import EdgeHealth.CommandLine.Requests
import EdgeHealth.Evaluate.Pods
import EdgeHealth.Evaluate.Readiness
import EdgeHealth.Evaluate.Resources
import EdgeHealth.Evaluate.Statistics
import EdgeHealth.Json.Reader
import EdgeHealth.Kube.Http
import EdgeHealth.Main
import EdgeHealth.Projection
import EdgeHealth.Quantity
import EdgeHealth.Render.Terminal
import EdgeHealth.Run.Report
import EdgeHealth.Run.Verdict
import EdgeHealth.Settings.Document
import EdgeHealth.Stats.Scrape
import EdgeHealth.Proofs.Run.Soundness
import EdgeHealth.Proofs.Run.Deadline
import EdgeHealth.Proofs.Bundle.Accounts
import EdgeHealth.Proofs.Bundle.Schedule
import EdgeHealth.Proofs.Bundle.Written
import EdgeHealth.Proofs.Bundle.Archived
import EdgeHealth.Proofs.Bundle.Items
import EdgeHealth.Proofs.Bundle.Plan
import EdgeHealth.Proofs.Bundle.Kept
import EdgeHealth.Proofs.Cluster.Parallel
import EdgeHealth.Proofs.Run.Alike
import EdgeHealth.Proofs.Check.Stripped
import EdgeHealth.Proofs.Evaluate.Stripped
import EdgeHealth.Proofs.Run.Stripped
import EdgeHealth.Proofs.Check.Levels
import EdgeHealth.Proofs.Evaluate.Levels
import EdgeHealth.Proofs.Run.Levels
import EdgeHealth.Proofs.Check.Told
import EdgeHealth.Proofs.Evaluate.Told
import EdgeHealth.Proofs.Run.Told
import EdgeHealth.Proofs.Text.Glob
import EdgeHealth.Proofs.Data.Lookup
import EdgeHealth.Proofs.Cluster.InStep
import EdgeHealth.Proofs.Cluster.Yields
import EdgeHealth.Proofs.Evaluate.Names
import EdgeHealth.Proofs.Evaluate.Confined
import EdgeHealth.Proofs.Evaluate.InStep
import EdgeHealth.Proofs.Run.InStep
import EdgeHealth.Proofs.Run.Outline
import EdgeHealth.Proofs.Run.Isolation
import EdgeHealth.Proofs.Run.Confinement
import EdgeHealth.Proofs.Run.Named
import EdgeHealth.Proofs.Cluster.Performs
import EdgeHealth.Proofs.Run.Decomposition
import EdgeHealth.Proofs.Run.Verdict
import EdgeHealth.Proofs.Bundle.Survey
import EdgeHealth.Proofs.Bundle.Refused
import EdgeHealth.Proofs.Bundle.Warned
import EdgeHealth.Proofs.Data.Distinct
import EdgeHealth.Proofs.Data.Grown
import EdgeHealth.Proofs.Evaluate.Groups
import EdgeHealth.Proofs.Evaluate.Coverage
import EdgeHealth.Proofs.Check.Record
import EdgeHealth.Proofs.Check.Statuses
import EdgeHealth.Proofs.Check.Locality
import EdgeHealth.Proofs.Number.Rounding
import EdgeHealth.Proofs.Number.Decimals
import EdgeHealth.Proofs.Text.Pieces
import EdgeHealth.Proofs.Quantity.Scaling
import EdgeHealth.Proofs.Quantity.Spellings
import EdgeHealth.Proofs.Stats.Labels
import EdgeHealth.Proofs.Stats.Exposition
import EdgeHealth.Proofs.Evaluate.Machines
import EdgeHealth.Proofs.Render.Clean
import EdgeHealth.Proofs.Render.Colours
import EdgeHealth.Proofs.Version.Order
import EdgeHealth.Proofs.Version.Spellings
import EdgeHealth.Proofs.Json.Compact
import EdgeHealth.Proofs.Settings.Record
import EdgeHealth.Proofs.Check.Contents
import EdgeHealth.Proofs.Evaluate.Pods
import EdgeHealth.Proofs.Number.Numerals
import EdgeHealth.Proofs.Quantity.Accepted
import EdgeHealth.Proofs.Json.Path
import EdgeHealth.Proofs.Evaluate.Inspection
import EdgeHealth.Proofs.Evaluate.References
import EdgeHealth.Proofs.Evaluate.Blocks
import EdgeHealth.Proofs.Evaluate.Methods
import EdgeHealth.Proofs.Evaluate.Statistics
import EdgeHealth.Proofs.Stats.Responses
import EdgeHealth.Proofs.Stats.Merged
import EdgeHealth.Proofs.Text.Utf8
import EdgeHealth.Proofs.Text.Lines
import EdgeHealth.Proofs.Bundle.FollowUp
import EdgeHealth.Proofs.Projection.Walk
import EdgeHealth.Proofs.Evaluate.Restarts
