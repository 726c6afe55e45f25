import CodeVault.Address
import CodeVault.Arena
import CodeVault.Artifact.Basic
import CodeVault.Artifact.Read
import CodeVault.Artifact.Section
import CodeVault.Artifact.Write
import CodeVault.BaseImage
import CodeVault.Bytes
import CodeVault.Bytes.Lemmas
import CodeVault.CommandLine.Answer
import CodeVault.CommandLine.Failure
import CodeVault.CommandLine.Inspection
import CodeVault.CommandLine.Request
import CodeVault.CommandLine.User
import CodeVault.Config.Basic
import CodeVault.Config.Document
import CodeVault.Config.Environment
import CodeVault.Config.Size
import CodeVault.Container.Assembly
import CodeVault.Container.Basic
import CodeVault.Container.Header
import CodeVault.Container.Layout
import CodeVault.Context
import CodeVault.Counters
import CodeVault.Cursor
import CodeVault.Decimal
import CodeVault.Digest
import CodeVault.Entry.Basic
import CodeVault.Entry.Codec
import CodeVault.Error
import CodeVault.Fault
import CodeVault.FileStore
import CodeVault.Fingerprint.Basic
import CodeVault.Fingerprint.Codec
import CodeVault.Gate
import CodeVault.HostError
import CodeVault.Index.Basic
import CodeVault.Index.Merge
import CodeVault.Index.SearchTable
import CodeVault.Json.Basic
import CodeVault.Json.Document
import CodeVault.Main
import CodeVault.Metadata
import CodeVault.Path
import CodeVault.Proofs.Arena.Alike
import CodeVault.Proofs.Arena.Ample
import CodeVault.Proofs.Arena.Append
import CodeVault.Proofs.Arena.Discipline
import CodeVault.Proofs.Arena.Mirror
import CodeVault.Proofs.Arena.Positions
import CodeVault.Proofs.Arena.Refused
import CodeVault.Proofs.Arena.Room
import CodeVault.Proofs.Artifact.Carried
import CodeVault.Proofs.Artifact.ExternalWords
import CodeVault.Proofs.Artifact.Independence
import CodeVault.Proofs.Artifact.NamedTypes
import CodeVault.Proofs.Artifact.Payload
import CodeVault.Proofs.Artifact.Refused
import CodeVault.Proofs.Artifact.Renaming
import CodeVault.Proofs.Artifact.RoundTrip
import CodeVault.Proofs.Artifact.Safety
import CodeVault.Proofs.Artifact.Sections
import CodeVault.Proofs.Artifact.Straying
import CodeVault.Proofs.Artifact.Sums
import CodeVault.Proofs.Artifact.Tables
import CodeVault.Proofs.Artifact.Truncated
import CodeVault.Proofs.Bytes.Parts
import CodeVault.Proofs.CommandLine.Verify
import CodeVault.Proofs.Config.Size
import CodeVault.Proofs.Container.Assembly
import CodeVault.Proofs.Container.Bounds
import CodeVault.Proofs.Container.Built
import CodeVault.Proofs.Container.Codec
import CodeVault.Proofs.Container.Entry
import CodeVault.Proofs.Container.Header
import CodeVault.Proofs.Container.ReadBack
import CodeVault.Proofs.Container.Redated
import CodeVault.Proofs.Container.Refusals
import CodeVault.Proofs.Container.Strings
import CodeVault.Proofs.Context.Naming
import CodeVault.Proofs.Context.RoundTrip
import CodeVault.Proofs.Context.Shared
import CodeVault.Proofs.Cursor.Answers
import CodeVault.Proofs.Cursor.Cuts
import CodeVault.Proofs.Cursor.Reads
import CodeVault.Proofs.Cursor.Refusals
import CodeVault.Proofs.Cursor.Safe
import CodeVault.Proofs.Cursor.Yields
import CodeVault.Proofs.FileStore
import CodeVault.Proofs.Gate.Crowd
import CodeVault.Proofs.Index.Chains
import CodeVault.Proofs.Index.Counts
import CodeVault.Proofs.Index.Flags
import CodeVault.Proofs.Index.Invalidation
import CodeVault.Proofs.Index.Listed
import CodeVault.Proofs.Index.Merge
import CodeVault.Proofs.Index.Placed
import CodeVault.Proofs.Index.Search
import CodeVault.Proofs.Index.SearchTable
import CodeVault.Proofs.Lists
import CodeVault.Proofs.Outcome
import CodeVault.Proofs.Path
import CodeVault.Proofs.Reference
import CodeVault.Proofs.Reference.Canonical
import CodeVault.Proofs.Relocation
import CodeVault.Proofs.Session.Chains
import CodeVault.Proofs.Session.Close
import CodeVault.Proofs.Session.Contents
import CodeVault.Proofs.Session.Ended
import CodeVault.Proofs.Session.Entries
import CodeVault.Proofs.Session.Gating
import CodeVault.Proofs.Session.GivenUp
import CodeVault.Proofs.Session.Lenient
import CodeVault.Proofs.Session.Lookup
import CodeVault.Proofs.Session.Machine
import CodeVault.Proofs.Session.Moves
import CodeVault.Proofs.Session.Names
import CodeVault.Proofs.Session.Open
import CodeVault.Proofs.Session.Packing
import CodeVault.Proofs.Session.Preload
import CodeVault.Proofs.Session.Readable
import CodeVault.Proofs.Session.Runs
import CodeVault.Proofs.Session.Steps
import CodeVault.Proofs.Session.Store
import CodeVault.Proofs.Session.StringIds
import CodeVault.Proofs.Session.Tally
import CodeVault.Proofs.Session.Unchanged
import CodeVault.Proofs.Session.Verified
import CodeVault.Proofs.Symbol.Addresses
import CodeVault.Proofs.Symbol.Capacity
import CodeVault.Proofs.Symbol.Decoding
import CodeVault.Proofs.Symbol.Interning
import CodeVault.Proofs.Symbol.Leftovers
import CodeVault.Proofs.Symbol.Loading
import CodeVault.Proofs.Symbol.Loads
import CodeVault.Proofs.Symbol.Positional
import CodeVault.Proofs.Symbol.Registered
import CodeVault.Proofs.Symbol.Registration
import CodeVault.Proofs.Symbol.Renaming
import CodeVault.Proofs.Symbol.Runs
import CodeVault.Proofs.Symbol.Slots
import CodeVault.Proofs.Symbol.Strings
import CodeVault.Proofs.Text.Blank
import CodeVault.Reference
import CodeVault.Registry
import CodeVault.Relocation.Basic
import CodeVault.Relocation.Codec
import CodeVault.Session.Basic
import CodeVault.Session.Close
import CodeVault.Session.Machine
import CodeVault.Symbol.AddressTable
import CodeVault.Symbol.Bucket
import CodeVault.Symbol.Error
import CodeVault.Symbol.SlotTable
import CodeVault.Symbol.StringTable
import CodeVault.Symbol.Table
import CodeVault.Text.Blank
import CodeVault.Text.Hexadecimal
import CodeVault.Text.Printable
import CodeVault.Text.Quoted
import CodeVault.Text.Terminated
import CodeVault.Text.Utf8
import CodeVault.Timestamp
import CodeVault.Value
