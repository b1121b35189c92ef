import StreamStore.Cache.Basic
import StreamStore.Cache.Population
import StreamStore.Cache.Slab
import StreamStore.Cache.Tasks
import StreamStore.Decimal.Binary64
import StreamStore.Decimal.Shortest
import StreamStore.Document.Basic
import StreamStore.Document.Codec
import StreamStore.Document.Json
import StreamStore.Document.Report
import StreamStore.Document.Toml.Reader
import StreamStore.Document.Toml.Scalar
import StreamStore.Document.Toml.Text
import StreamStore.Document.Toml.Tree
import StreamStore.Engine.Append
import StreamStore.Engine.Catalogue
import StreamStore.Engine.Memory
import StreamStore.Engine.Page
import StreamStore.Engine.Read
import StreamStore.Engine.Reading
import StreamStore.Engine.Removal
import StreamStore.Engine.Residence
import StreamStore.Engine.Session
import StreamStore.Engine.State
import StreamStore.Engine.Store
import StreamStore.Engine.Task
import StreamStore.Engine.Work
import StreamStore.Engine.WriteBack
import StreamStore.Event.Basic
import StreamStore.Event.Id
import StreamStore.Log.File
import StreamStore.Log.Filter
import StreamStore.Log.Level
import StreamStore.Log.Line
import StreamStore.Log.Logger
import StreamStore.Log.Pattern
import StreamStore.Log.Settings
import StreamStore.Refusal
import StreamStore.Settings
import StreamStore.SettingsFile
import StreamStore.Storage.Archive
import StreamStore.Storage.Cursor
import StreamStore.Storage.DataFile
import StreamStore.Storage.Disk
import StreamStore.Storage.Extent
import StreamStore.Storage.Fault
import StreamStore.Storage.HeaderRecord
import StreamStore.Storage.HeadersFile
import StreamStore.Storage.LittleEndian
import StreamStore.Storage.Sequence
import StreamStore.Storage.TypeBuffer
import StreamStore.Stream.Brief
import StreamStore.Stream.Id
import StreamStore.Stream.Type
import StreamStore.Sync.Backlog
import StreamStore.Sync.LockTable
import StreamStore.Sync.SharedLock
import StreamStore.Sync.WriteQueue
import StreamStore.Table
import StreamStore.Text.Alphanumeric
import StreamStore.Text.Blank
import StreamStore.Text.Hex
import StreamStore.Text.HexBytes
import StreamStore.Text.Quoted
import StreamStore.Text.Unprintable
import StreamStore.Text.Utf8
import StreamStore.Uuid
import StreamStore.Proofs.Text.Utf8
import StreamStore.Proofs.Text.Boundaries
import StreamStore.Proofs.Event.Identities
import StreamStore.Proofs.Event.Succession
import StreamStore.Proofs.Stream.Order
import StreamStore.Proofs.Stream.Grammar
import StreamStore.Proofs.Storage.TypeNames
import StreamStore.Proofs.Storage.Records
import StreamStore.Proofs.Storage.Tree
import StreamStore.Proofs.Storage.Extents
import StreamStore.Proofs.Storage.Tokens
import StreamStore.Proofs.Storage.Appending
import StreamStore.Proofs.Storage.Crash
import StreamStore.Proofs.Storage.Cancelling
import StreamStore.Proofs.Storage.Commands
import StreamStore.Proofs.Storage.Midway
import StreamStore.Proofs.Storage.Positions
import StreamStore.Proofs.Storage.Pulling
import StreamStore.Proofs.Storage.Twins
import StreamStore.Proofs.Storage.Batching
import StreamStore.Proofs.Storage.Halves
import StreamStore.Proofs.Storage.Directories
import StreamStore.Proofs.Storage.Enumeration
import StreamStore.Proofs.Storage.HeaderBytes
import StreamStore.Proofs.Storage.Paths
import StreamStore.Proofs.Storage.Removing
import StreamStore.Proofs.Cache.Recency
import StreamStore.Proofs.Cache.Contents
import StreamStore.Proofs.Cache.Actions
import StreamStore.Proofs.Cache.Pools
import StreamStore.Proofs.Cache.Balance
import StreamStore.Proofs.Cache.PoolOrder
import StreamStore.Proofs.Cache.Coalescing
import StreamStore.Proofs.Engine.Run
import StreamStore.Proofs.Engine.Stance
import StreamStore.Proofs.Engine.Steps
import StreamStore.Proofs.Engine.Scenes
import StreamStore.Proofs.Sync.Counts
import StreamStore.Proofs.Sync.Wakeups
import StreamStore.Proofs.Sync.HandOff
import StreamStore.Proofs.Sync.Lines
import StreamStore.Proofs.Sync.Gates
import StreamStore.Proofs.Sync.Calls
import StreamStore.Proofs.Sync.Exclusion
import StreamStore.Proofs.Engine.Lines
import StreamStore.Proofs.Engine.Voices
import StreamStore.Proofs.Engine.Content
import StreamStore.Proofs.Engine.Reports
import StreamStore.Proofs.Engine.Histories
import StreamStore.Proofs.Engine.Counts
import StreamStore.Proofs.Engine.Removals
import StreamStore.Proofs.Engine.Queue
import StreamStore.Proofs.Engine.Accounts
import StreamStore.Proofs.Engine.Opening
import StreamStore.Proofs.Engine.Alone
import StreamStore.Proofs.Engine.Hydration
import StreamStore.Proofs.Engine.Pages
import StreamStore.Proofs.Engine.Walks
import StreamStore.Proofs.Engine.Listings
import StreamStore.Proofs.Engine.Reopening
import StreamStore.Proofs.Engine.Shutdown
import StreamStore.Proofs.Engine.Attempts
import StreamStore.Proofs.Engine.Versions
import StreamStore.Proofs.Engine.Ascending
import StreamStore.Proofs.Engine.Storable
import StreamStore.Proofs.Engine.Dropping
import StreamStore.Proofs.Engine.Pending
import StreamStore.Proofs.Engine.Places
import StreamStore.Proofs.Engine.Waiting
import StreamStore.Proofs.Engine.Tries
import StreamStore.Proofs.Engine.Shifts
import StreamStore.Proofs.Engine.Isolation
