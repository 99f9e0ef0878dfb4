import TimingReport.Amount
import TimingReport.Binary64
import TimingReport.Category
import TimingReport.Command.Arguments
import TimingReport.Command.Options
import TimingReport.Command.Run
import TimingReport.Command.Transcript
import TimingReport.Console.Banner
import TimingReport.Console.Event
import TimingReport.Console.Filter
import TimingReport.Console.Level
import TimingReport.Console.Paint
import TimingReport.Csv
import TimingReport.Decimal.Fixed
import TimingReport.Decimal.Grouped
import TimingReport.Decimal.Nearest
import TimingReport.Decimal.Shortest
import TimingReport.FileFault
import TimingReport.Format
import TimingReport.Found
import TimingReport.Input
import TimingReport.Job
import TimingReport.Json.Fault
import TimingReport.Json.Number
import TimingReport.Json.Shape
import TimingReport.Json.Skip
import TimingReport.Json.Symbols
import TimingReport.Json.Text
import TimingReport.Load
import TimingReport.Main
import TimingReport.Markdown
import TimingReport.Markup
import TimingReport.Page
import TimingReport.Path
import TimingReport.Progress
import TimingReport.Proofs.Amount.Figures
import TimingReport.Proofs.Binary64.TotalOrder
import TimingReport.Proofs.Category.Partition
import TimingReport.Proofs.Csv.Reader
import TimingReport.Proofs.Markup.Elements
import TimingReport.Proofs.Markup.Entities
import TimingReport.Proofs.Markup.Finds
import TimingReport.Proofs.Markup.Reader
import TimingReport.Proofs.Markup.Tags
import TimingReport.Proofs.Markup.WellFormed
import TimingReport.Proofs.Page.Contents
import TimingReport.Proofs.Page.Markup
import TimingReport.Proofs.Page.Rows
import TimingReport.Proofs.StableSort
import TimingReport.Proofs.Timings
import TimingReport.Proofs.View.Categories
import TimingReport.Proofs.View.OrderIndependence
import TimingReport.Proofs.View.Sections
import TimingReport.Record
import TimingReport.Session
import TimingReport.Settings
import TimingReport.Settings.Load
import TimingReport.Settings.Misfit
import TimingReport.Settings.Toml
import TimingReport.Settings.Yaml
import TimingReport.Store
import TimingReport.Store.Write
import TimingReport.Style
import TimingReport.Text.Alphanumeric
import TimingReport.Text.Blank
import TimingReport.Text.Case
import TimingReport.Text.CaseContext
import TimingReport.Text.CaseTable
import TimingReport.Text.Occurrence
import TimingReport.Text.Quoted
import TimingReport.Text.Ranges
import TimingReport.Text.Utf8
import TimingReport.Text.Visible
import TimingReport.Timestamp
import TimingReport.Timings
import TimingReport.Toml.Document
import TimingReport.Toml.Node
import TimingReport.Toml.Number
import TimingReport.Toml.Table
import TimingReport.Toml.Text
import TimingReport.Toml.Value
import TimingReport.View
import TimingReport.Yaml.Block
import TimingReport.Yaml.Document
import TimingReport.Yaml.Event
import TimingReport.Yaml.Gap
import TimingReport.Yaml.Scalar
import TimingReport.Yaml.Symbol
import TimingReport.Yaml.Text
import TimingReport.Yaml.Token
import TimingReport.Yaml.Tokens
import TimingReport.Proofs.Load.Entries
import TimingReport.Proofs.Json.Grammar
import TimingReport.Proofs.Json.Skip
import TimingReport.Proofs.Json.Numbers
import TimingReport.Proofs.Json.Readings
import TimingReport.Proofs.Json.Records
import TimingReport.Proofs.Input.Fields
import TimingReport.Proofs.Json.Writing
import TimingReport.Proofs.Input.Writing
import TimingReport.Proofs.Load.Written
import TimingReport.Proofs.Json.Rearranged
import TimingReport.Proofs.Load.Alike
import TimingReport.Proofs.Store.Contents
import TimingReport.Proofs.Store.Destinations
import TimingReport.Proofs.Store.ParentPath
import TimingReport.Proofs.Store.Writing
import TimingReport.Proofs.Session.Stages
import TimingReport.Proofs.Session.Deliveries
import TimingReport.Proofs.Command.WholeOrNothing
import TimingReport.Proofs.Markdown.Cells
import TimingReport.Proofs.Markdown.Tables
import TimingReport.Proofs.Progress.Lines
import TimingReport.Proofs.Session.Terminal
import TimingReport.Proofs.Settings.Usable
import TimingReport.Proofs.View.Provenance
import TimingReport.Proofs.Command.Spellings
import TimingReport.Proofs.Settings.Texts
import TimingReport.Proofs.Settings.TomlReading
import TimingReport.Proofs.Settings.YamlTexts
import TimingReport.Proofs.Settings.YamlTokens
import TimingReport.Proofs.Settings.YamlScan
import TimingReport.Proofs.Settings.YamlEvents
import TimingReport.Proofs.Settings.YamlReading
import TimingReport.Proofs.Settings.Agreement
import TimingReport.Proofs.View.Separation
import TimingReport.Proofs.Binary64.Midpoints
import TimingReport.Proofs.Binary64.Rounding
import TimingReport.Proofs.Binary64.Error
import TimingReport.Proofs.Timings.Sums
import TimingReport.Proofs.Timings.Range
import TimingReport.Proofs.Timings.Ranks
import TimingReport.Proofs.Category.FirstMatch
import TimingReport.Proofs.View.Tables
import TimingReport.Proofs.Binary64.Order
import TimingReport.Proofs.Amount.Tiers
import TimingReport.Proofs.View.Severities
import TimingReport.Proofs.Amount.Durations
import TimingReport.Proofs.Progress.Paths
import TimingReport.Proofs.Category.Shadowed
import TimingReport.Proofs.Command.Resolution
import TimingReport.Proofs.Decimal.Digits
import TimingReport.Proofs.Decimal.Places
import TimingReport.Proofs.Amount.Sizes
import TimingReport.Proofs.Json.FieldTexts
import TimingReport.Proofs.Json.Integers
import TimingReport.Proofs.Load.Texts
import TimingReport.Proofs.Load.Units
import TimingReport.Proofs.Timings.Values
import TimingReport.Proofs.Amount.Shown
import TimingReport.Proofs.Amount.Thresholds
import TimingReport.Proofs.Amount.Carries
import TimingReport.Proofs.Json.Forms
import TimingReport.Proofs.Load.Forms
import TimingReport.Proofs.Json.Accepted
import TimingReport.Proofs.Json.Skipped
import TimingReport.Proofs.Text.Utf8
import TimingReport.Proofs.Text.Groups
import TimingReport.Proofs.Json.Sound
import TimingReport.Proofs.Json.Legible
import TimingReport.Proofs.Json.Spelled
import TimingReport.Proofs.Input.Legible
import TimingReport.Proofs.Json.Bytes
import TimingReport.Proofs.Json.ByteStrings
import TimingReport.Proofs.Json.ByteShapes
import TimingReport.Proofs.Input.Bytes
import TimingReport.Proofs.Load.Ways
import TimingReport.Proofs.Decimal.Grouped
import TimingReport.Proofs.Decimal.Shortest
import TimingReport.Proofs.Decimal.Plain
import TimingReport.Proofs.Json.Naturals
import TimingReport.Proofs.View.Iterations
import TimingReport.Proofs.Load.Iterations
