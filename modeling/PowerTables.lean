import PowerTables.Assignment
import PowerTables.Calendar.Instant
import PowerTables.Calendar.Timestamp
import PowerTables.Category
import PowerTables.CommandLine.Command
import PowerTables.CommandLine.Grammar
import PowerTables.Diagnostics
import PowerTables.Files.Basic
import PowerTables.Files.Memory
import PowerTables.Json.Decode
import PowerTables.Json.Double
import PowerTables.Json.Reader
import PowerTables.Json.Value
import PowerTables.Json.Writer
import PowerTables.Main
import PowerTables.Network.Basic
import PowerTables.Network.Edit
import PowerTables.Network.Error
import PowerTables.Network.Samples
import PowerTables.Network.Snapshot
import PowerTables.Network.Store
import PowerTables.Network.Variants
import PowerTables.Number.Binary
import PowerTables.Number.Digits
import PowerTables.Number.Fixed
import PowerTables.Number.Layout
import PowerTables.Number.Reading
import PowerTables.Number.Shortest
import PowerTables.PerUnit.Context
import PowerTables.PerUnit.Conversion
import PowerTables.PerUnit.Quantity
import PowerTables.PerUnit.Rules
import PowerTables.Program.Basic
import PowerTables.Program.Commands
import PowerTables.Program.Logging
import PowerTables.Program.Printing
import PowerTables.Program.Run
import PowerTables.Program.Source
import PowerTables.Proofs.Assignment.Placing
import PowerTables.Proofs.Assignment.Reading
import PowerTables.Proofs.Assignment.Tables
import PowerTables.Proofs.Files
import PowerTables.Proofs.Json.Double
import PowerTables.Proofs.Json.Reading
import PowerTables.Proofs.List
import PowerTables.Proofs.Network.Calls
import PowerTables.Proofs.Network.Clients
import PowerTables.Proofs.Network.Effects
import PowerTables.Proofs.Network.Handles
import PowerTables.Proofs.Network.Identity
import PowerTables.Proofs.Network.InPlace
import PowerTables.Proofs.Network.Reachable
import PowerTables.Proofs.Network.RoundTrip
import PowerTables.Proofs.Network.Runs
import PowerTables.Proofs.Network.Snapshot
import PowerTables.Proofs.Network.Toggles
import PowerTables.Proofs.Network.VariantMap
import PowerTables.Proofs.Network.WellFormed
import PowerTables.Proofs.Number.Digits
import PowerTables.Proofs.Number.Reading
import PowerTables.Proofs.Number.Rounding
import PowerTables.Proofs.Number.Shortest
import PowerTables.Proofs.Operation
import PowerTables.Proofs.PerUnit.Cells
import PowerTables.Proofs.PerUnit.Conversion
import PowerTables.Proofs.PerUnit.Report
import PowerTables.Proofs.PerUnit.Rules
import PowerTables.Proofs.PerUnit.Unresolved
import PowerTables.Proofs.Program.Opening
import PowerTables.Proofs.Program.Saving
import PowerTables.Proofs.Program.Steps
import PowerTables.Proofs.Program.Update
import PowerTables.Proofs.Session.Assignments
import PowerTables.Proofs.Session.Commutation
import PowerTables.Proofs.Session.Effect
import PowerTables.Proofs.Session.Failure
import PowerTables.Proofs.Session.Filter
import PowerTables.Proofs.Session.Lookups
import PowerTables.Proofs.Session.Numbers
import PowerTables.Proofs.Session.Physical
import PowerTables.Proofs.Session.Reachable
import PowerTables.Proofs.Session.Rearrangement
import PowerTables.Proofs.Session.Refinement
import PowerTables.Proofs.Session.Refusals
import PowerTables.Proofs.Session.Reports
import PowerTables.Proofs.Session.RoundTrip
import PowerTables.Proofs.Session.Runs
import PowerTables.Proofs.Session.Variants
import PowerTables.Proofs.Session.Writing
import PowerTables.Proofs.Simulation
import PowerTables.Proofs.Table.Bounds
import PowerTables.Proofs.Table.Building
import PowerTables.Proofs.Table.Cells
import PowerTables.Proofs.Table.Join
import PowerTables.Proofs.Table.Json
import PowerTables.Proofs.Table.Lookups
import PowerTables.Proofs.Table.Parsing
import PowerTables.Proofs.Table.Reading
import PowerTables.Proofs.Table.Rearrangement
import PowerTables.Proofs.Table.Relational
import PowerTables.Proofs.Table.Rows
import PowerTables.Proofs.Table.WellFormed
import PowerTables.Proofs.Table.Writing
import PowerTables.Proofs.Text.Splitting
import PowerTables.Schema
import PowerTables.Session.Basic
import PowerTables.Session.Elements
import PowerTables.Session.Filter
import PowerTables.Session.Variants
import PowerTables.Settings
import PowerTables.Table.Basic
import PowerTables.Table.Cell
import PowerTables.Table.Json
import PowerTables.Table.Relational
import PowerTables.Table.RowKey
import PowerTables.Text.Blank
import PowerTables.Text.Columns
import PowerTables.Text.Width
import PowerTables.Toml.Reader
import PowerTables.Toml.Scalar
import PowerTables.Toml.Value
