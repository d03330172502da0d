import StationGateway.Access.Caller
import StationGateway.Access.Claims
import StationGateway.Access.Rules
import StationGateway.Catalogue.Attribute
import StationGateway.Catalogue.Basic
import StationGateway.Catalogue.Hierarchy
import StationGateway.Catalogue.Index
import StationGateway.Catalogue.Mobility
import StationGateway.Catalogue.Selector
import StationGateway.Credentials.Certificate
import StationGateway.Credentials.Curve
import StationGateway.Credentials.Der
import StationGateway.Credentials.Digest
import StationGateway.Credentials.Edwards
import StationGateway.Credentials.Modular
import StationGateway.Credentials.Pem
import StationGateway.Credentials.PrivateKey
import StationGateway.Database.Dialogue
import StationGateway.Database.Failure
import StationGateway.Decimal.Binary64
import StationGateway.Decimal.Layout
import StationGateway.Decimal.Number
import StationGateway.Decimal.Shortest
import StationGateway.Error
import StationGateway.Expansion.Basic
import StationGateway.Expansion.Predicate
import StationGateway.Files.Tree
import StationGateway.Filter.Basic
import StationGateway.Filter.Operator
import StationGateway.Filter.Parser
import StationGateway.Filter.Template
import StationGateway.Gateway.Basic
import StationGateway.Gateway.Data
import StationGateway.Gateway.Document
import StationGateway.Gateway.Response
import StationGateway.Gateway.Route
import StationGateway.Json.Basic
import StationGateway.Json.Printer
import StationGateway.Json.Reader
import StationGateway.Listing
import StationGateway.Order.Sorted
import StationGateway.Proofs.Catalogue.Selector
import StationGateway.Proofs.Decimal.Literal
import StationGateway.Proofs.Expansion.Alike
import StationGateway.Proofs.Expansion.Comparison
import StationGateway.Proofs.Expansion.Meaning
import StationGateway.Proofs.Expansion.Places
import StationGateway.Proofs.Expansion.Selection
import StationGateway.Proofs.Expansion.Stages
import StationGateway.Proofs.Filter.Alike
import StationGateway.Proofs.Filter.Notation
import StationGateway.Proofs.Filter.Position
import StationGateway.Proofs.Filter.RoundTrip
import StationGateway.Proofs.Filter.Template
import StationGateway.Proofs.Filter.WellFormed
import StationGateway.Proofs.Order.Ascending
import StationGateway.Proofs.Order.Entries
import StationGateway.Proofs.Order.Gather
import StationGateway.Proofs.Order.Union
import StationGateway.Proofs.Outcome
import StationGateway.Proofs.Recipe.Alike
import StationGateway.Proofs.Recipe.Guard
import StationGateway.Proofs.Recipe.Stages
import StationGateway.Proofs.Sql.Conjunct
import StationGateway.Proofs.Sql.Formula
import StationGateway.Proofs.Sql.Joining
import StationGateway.Proofs.Sql.Phrase
import StationGateway.Proofs.Sql.Reader
import StationGateway.Proofs.Sql.Skeleton
import StationGateway.Proofs.Text.Join
import StationGateway.Proofs.Tree.Absorb
import StationGateway.Proofs.Tree.Attach
import StationGateway.Proofs.Tree.Bearing
import StationGateway.Proofs.Tree.Explained
import StationGateway.Proofs.Tree.Extend
import StationGateway.Proofs.Tree.Filing
import StationGateway.Proofs.Tree.Follow
import StationGateway.Proofs.Tree.Graft
import StationGateway.Proofs.Tree.Layout
import StationGateway.Proofs.Tree.Merge
import StationGateway.Proofs.Tree.Nested
import StationGateway.Proofs.Tree.Ordered
import StationGateway.Proofs.Tree.Path
import StationGateway.Proofs.Tree.Places
import StationGateway.Proofs.Tree.Plant
import StationGateway.Proofs.Tree.Records
import StationGateway.Proofs.Tree.Reference
import StationGateway.Proofs.Tree.Renew
import StationGateway.Proofs.Tree.Steady
import StationGateway.Quota.Bucket
import StationGateway.Quota.History
import StationGateway.Quota.Limiter
import StationGateway.Quota.Plan
import StationGateway.Recipe.Basic
import StationGateway.Recipe.Edges
import StationGateway.Recipe.Events
import StationGateway.Recipe.Measurements
import StationGateway.Recipe.Query
import StationGateway.Recipe.Stations
import StationGateway.Representation
import StationGateway.Request.Headers
import StationGateway.Request.Params
import StationGateway.Request.Uri
import StationGateway.Row
import StationGateway.Settings.Address
import StationGateway.Settings.Basic
import StationGateway.Settings.Connection
import StationGateway.Settings.DatabaseUrl
import StationGateway.Settings.Environment
import StationGateway.Statement.Binding
import StationGateway.Statement.Draft
import StationGateway.Statement.Value
import StationGateway.Text.Base64
import StationGateway.Text.Blank
import StationGateway.Text.Hex
import StationGateway.Text.Integer
import StationGateway.Text.Percent
import StationGateway.Text.Split
import StationGateway.Text.UpperCase
import StationGateway.Text.Utf8
import StationGateway.Time.Calendar
import StationGateway.Time.Instant
import StationGateway.Time.Segment
import StationGateway.Tree.Cells
import StationGateway.Tree.Forest
import StationGateway.Tree.Growth
import StationGateway.Proofs.Tree.Shown
import StationGateway.Proofs.Expansion.Columns
import StationGateway.Proofs.Expansion.Gathered
import StationGateway.Proofs.Expansion.Labels
import StationGateway.Proofs.Expansion.References
import StationGateway.Proofs.Recipe.Bound
import StationGateway.Proofs.Recipe.Plan
import StationGateway.Proofs.Recipe.Tables
import StationGateway.Proofs.Recipe.Union
import StationGateway.Proofs.Tree.Lost
import StationGateway.Proofs.Access.Claims
import StationGateway.Proofs.Access.Roles
import StationGateway.Proofs.Database.Dialogue
import StationGateway.Proofs.Gateway.History
import StationGateway.Proofs.Quota.Bucket
import StationGateway.Proofs.Quota.Limiter
import StationGateway.Proofs.Quota.Windows
import StationGateway.Proofs.Recipe.Range
import StationGateway.Proofs.Recipe.ValueTables
import StationGateway.Proofs.Expansion.Closure
import StationGateway.Proofs.Expansion.Form
import StationGateway.Proofs.Expansion.Numbering
import StationGateway.Proofs.Expansion.Projected
import StationGateway.Proofs.Order.FirstOccurrence
import StationGateway.Proofs.Order.Numbered
import StationGateway.Proofs.Recipe.Shared
import StationGateway.Proofs.Statement.Placeholders
import StationGateway.Proofs.Statement.Tokens
import StationGateway.Proofs.Recipe.Spelling
import StationGateway.Proofs.Catalogue.Building
import StationGateway.Proofs.Catalogue.Distance
import StationGateway.Proofs.Catalogue.Index
import StationGateway.Proofs.Tree.Refused
import StationGateway.Proofs.Tree.Guard
import StationGateway.Proofs.Tree.Renested
import StationGateway.Proofs.Time.Segment
import StationGateway.Proofs.Quota.Readings
import StationGateway.Proofs.Recipe.DeadEnds
import StationGateway.Proofs.Recipe.JsonPaths
import StationGateway.Proofs.Gateway.Links
import StationGateway.Proofs.Access.Comments
import StationGateway.Proofs.Expansion.Named
import StationGateway.Proofs.Tree.Wrapped
import StationGateway.Proofs.Quota.Aligned
import StationGateway.Proofs.Filter.Slice
import StationGateway.Proofs.Filter.Printed
import StationGateway.Proofs.Tree.DeepMerge
