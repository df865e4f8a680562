import LabExchange.Category
import LabExchange.CommandLine.Arguments
import LabExchange.CommandLine.Run
import LabExchange.CommandLine.RunLog
import LabExchange.Config
import LabExchange.Double.Arithmetic
import LabExchange.Double.Basic
import LabExchange.Double.Decimal
import LabExchange.Double.Literal
import LabExchange.Double.Magnitude
import LabExchange.Double.Reading
import LabExchange.Entry
import LabExchange.Event
import LabExchange.Failure
import LabExchange.Files
import LabExchange.Files.Tree
import LabExchange.Filter
import LabExchange.Hub.Program
import LabExchange.Hub.Request
import LabExchange.Hub.Run
import LabExchange.Hub.World
import LabExchange.HubError
import LabExchange.Json.Number
import LabExchange.Json.Reader
import LabExchange.Json.Record
import LabExchange.Json.Token
import LabExchange.Json.Tree
import LabExchange.Json.Value
import LabExchange.Json.Writer
import LabExchange.Listing
import LabExchange.Log
import LabExchange.Log.Filter
import LabExchange.Main
import LabExchange.Notification
import LabExchange.Path
import LabExchange.Payload
import LabExchange.Proofs.CommandLine.Commands
import LabExchange.Proofs.CommandLine.Keeping
import LabExchange.Proofs.CommandLine.Sparing
import LabExchange.Proofs.Config.Settings
import LabExchange.Proofs.Files.Standing
import LabExchange.Proofs.Hub.Accounting
import LabExchange.Proofs.Hub.Adequacy
import LabExchange.Proofs.Hub.Alike
import LabExchange.Proofs.Hub.Bookkeeping
import LabExchange.Proofs.Hub.Calls
import LabExchange.Proofs.Hub.Carrying
import LabExchange.Proofs.Hub.Changes
import LabExchange.Proofs.Hub.Copies
import LabExchange.Proofs.Hub.Decoding
import LabExchange.Proofs.Hub.Dispatching
import LabExchange.Proofs.Hub.EntryDocuments
import LabExchange.Proofs.Hub.FieldCriteria
import LabExchange.Proofs.Hub.FlatList
import LabExchange.Proofs.Hub.History
import LabExchange.Proofs.Hub.Isolation
import LabExchange.Proofs.Hub.Journal
import LabExchange.Proofs.Hub.Labelling
import LabExchange.Proofs.Hub.Ledger
import LabExchange.Proofs.Hub.Lineage
import LabExchange.Proofs.Hub.Loading
import LabExchange.Proofs.Hub.Lockstep
import LabExchange.Proofs.Hub.Machine
import LabExchange.Proofs.Hub.Merging
import LabExchange.Proofs.Hub.Mutations
import LabExchange.Proofs.Hub.Narrowing
import LabExchange.Proofs.Hub.Newest
import LabExchange.Proofs.Hub.Numbering
import LabExchange.Proofs.Hub.PanelRuns
import LabExchange.Proofs.Hub.Panels
import LabExchange.Proofs.Hub.ReadEntries
import LabExchange.Proofs.Hub.Recency
import LabExchange.Proofs.Hub.Recorder
import LabExchange.Proofs.Hub.Refusals
import LabExchange.Proofs.Hub.Replies
import LabExchange.Proofs.Hub.Rereading
import LabExchange.Proofs.Hub.Restarts
import LabExchange.Proofs.Hub.Restoring
import LabExchange.Proofs.Hub.Saving
import LabExchange.Proofs.Hub.Searching
import LabExchange.Proofs.Hub.Turns
import LabExchange.Proofs.Json.Equality
import LabExchange.Proofs.Json.Grammar
import LabExchange.Proofs.Json.NumberTexts
import LabExchange.Proofs.Json.Parsing
import LabExchange.Proofs.Json.Scanning
import LabExchange.Proofs.Json.Sorting
import LabExchange.Proofs.Json.Spelling
import LabExchange.Proofs.Notifications.Replaying
import LabExchange.Proofs.Notifications.Selecting
import LabExchange.Proofs.Store.Alike
import LabExchange.Proofs.Store.RisingNumbers
import LabExchange.Proofs.Store.Soundness
import LabExchange.Proofs.Store.Steps
import LabExchange.Proofs.Text.LowerCase
import LabExchange.Proofs.Text.Splitting
import LabExchange.Proofs.Time.ReadingBack
import LabExchange.Regex.Bracket
import LabExchange.Regex.Mode
import LabExchange.Regex.Reading
import LabExchange.Regex.Siblings
import LabExchange.Regex.Symbol
import LabExchange.Snapshot
import LabExchange.SnapshotFile
import LabExchange.Store
import LabExchange.Text.Blank
import LabExchange.Text.Bytes
import LabExchange.Text.CaseTable
import LabExchange.Text.Hexadecimal
import LabExchange.Text.Letter
import LabExchange.Text.LetterTable
import LabExchange.Text.Lowercase
import LabExchange.Text.Numeral
import LabExchange.Text.Ranges
import LabExchange.Time.Date
import LabExchange.Time.Reader
import LabExchange.Time.Timestamp
import LabExchange.Time.Writer
import LabExchange.Proofs.Hub.Forwarding
