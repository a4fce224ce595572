import CimStore.Attribute.Descriptor
import CimStore.Attribute.Slot
import CimStore.Attribute.Value
import CimStore.Batch
import CimStore.Binary.Format
import CimStore.Binary.Nearest
import CimStore.Binary.Shortest
import CimStore.Boolean
import CimStore.Catalog
import CimStore.Catalog.Standard
import CimStore.CimClass
import CimStore.Cli.Arguments
import CimStore.Cli.LogFilter
import CimStore.Cli.Run
import CimStore.Config
import CimStore.Decimal
import CimStore.Directory
import CimStore.Disk
import CimStore.Disk.Companions
import CimStore.Disk.Databases
import CimStore.Disk.OpenFault
import CimStore.Disk.Path
import CimStore.Disk.Settings
import CimStore.Error
import CimStore.Graph
import CimStore.IdRanges
import CimStore.Integer
import CimStore.Json.Print
import CimStore.Json.Scan
import CimStore.Link.Pass
import CimStore.Link.Report
import CimStore.Main
import CimStore.Model
import CimStore.Object
import CimStore.Pattern
import CimStore.Pattern.Class
import CimStore.Pattern.Part
import CimStore.Pattern.Sign
import CimStore.Payload.Entry
import CimStore.Payload.Objects
import CimStore.PhaseCode
import CimStore.Proofs.Accessors
import CimStore.Proofs.Accounting
import CimStore.Proofs.Attributes
import CimStore.Proofs.Batching
import CimStore.Proofs.Commands
import CimStore.Proofs.Comparing
import CimStore.Proofs.Custody
import CimStore.Proofs.DeclaredTables
import CimStore.Proofs.Deleting
import CimStore.Proofs.Digits
import CimStore.Proofs.Discarding
import CimStore.Proofs.Files
import CimStore.Proofs.Filling
import CimStore.Proofs.Grouping
import CimStore.Proofs.Handles
import CimStore.Proofs.History
import CimStore.Proofs.Importing
import CimStore.Proofs.IndexTruth
import CimStore.Proofs.Integrity
import CimStore.Proofs.Interchange
import CimStore.Proofs.Interrupted
import CimStore.Proofs.JsonText
import CimStore.Proofs.Layout
import CimStore.Proofs.LinkedReads
import CimStore.Proofs.Linking
import CimStore.Proofs.Listings
import CimStore.Proofs.LoadOrder
import CimStore.Proofs.Lookups
import CimStore.Proofs.Maps
import CimStore.Proofs.NearestNumber
import CimStore.Proofs.Neighbours
import CimStore.Proofs.Numerals
import CimStore.Proofs.OneByOne
import CimStore.Proofs.Orphans
import CimStore.Proofs.Overwriting
import CimStore.Proofs.PhaseNames
import CimStore.Proofs.Prefixes
import CimStore.Proofs.RangeTexts
import CimStore.Proofs.Reading
import CimStore.Proofs.Records
import CimStore.Proofs.Reexport
import CimStore.Proofs.Relinking
import CimStore.Proofs.Replacing
import CimStore.Proofs.Reporting
import CimStore.Proofs.Resaving
import CimStore.Proofs.Retrying
import CimStore.Proofs.RoundTrip
import CimStore.Proofs.Rounding
import CimStore.Proofs.Rows
import CimStore.Proofs.Runs
import CimStore.Proofs.Saving
import CimStore.Proofs.Screening
import CimStore.Proofs.SecondVisit
import CimStore.Proofs.Sharing
import CimStore.Proofs.SlotHistories
import CimStore.Proofs.Soundness
import CimStore.Proofs.StableIds
import CimStore.Proofs.StorageNames
import CimStore.Proofs.TableByTable
import CimStore.Proofs.TextParts
import CimStore.Proofs.Untouched
import CimStore.Proofs.Visits
import CimStore.Proofs.Wiring
import CimStore.Record.Attribute
import CimStore.Record.Class
import CimStore.Record.Standard
import CimStore.Reference
import CimStore.Service
import CimStore.SortedMap
import CimStore.Store
import CimStore.Store.Address
import CimStore.Store.Database
import CimStore.Store.Header
import CimStore.Store.Image
import CimStore.Store.Listing
import CimStore.Store.Schema
import CimStore.Table
import CimStore.Text.Alphanumeric
import CimStore.Text.Blank
import CimStore.Text.Bytes
import CimStore.Text.Cut
import CimStore.Text.Hex
import CimStore.Text.Hidden
import CimStore.Text.Quoted
import CimStore.Text.Ranges
import CimStore.Text.Width
import CimStore.Text.WidthRanges
import CimStore.Toml.Document
import CimStore.Toml.Print
import CimStore.Toml.Scan
import CimStore.Toml.Tables
import CimStore.Transaction
