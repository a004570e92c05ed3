import PlcTags.Gateway.Respond
import PlcTags.Settings.RootFolder
import PlcTags.Settings.File
import PlcTags.Text.Utf8
import PlcTags.Wire.Source
import PlcTags.Proofs.Table.Record
import PlcTags.Proofs.Table.Attribute
import PlcTags.Proofs.Table.Header
import PlcTags.Proofs.Container.Portable
import PlcTags.Proofs.Container.Sniff
import PlcTags.Proofs.Container.Csv
import PlcTags.Proofs.Markup.Tag
import PlcTags.Proofs.Markup.Document
import PlcTags.Proofs.Markup.Writer
import PlcTags.Proofs.Container.Document
import PlcTags.Proofs.Container.L5x
import PlcTags.Proofs.Container.Tia
import PlcTags.Proofs.Container.Plcopen
import PlcTags.Proofs.Container.Codec
import PlcTags.Proofs.Store.Rows
import PlcTags.Proofs.Store.Merge
import PlcTags.Proofs.Service.Merge
import PlcTags.Proofs.Tag.Validation
import PlcTags.Proofs.Service.Reachable
import PlcTags.Proofs.Tag.Preparation
import PlcTags.Proofs.Tag.Translation
import PlcTags.Proofs.Tag.Record
import PlcTags.Proofs.Service.Pass
import PlcTags.Proofs.Service.Import
import PlcTags.Proofs.Service.Progress
import PlcTags.Proofs.Service.Standing
import PlcTags.Proofs.Service.Run
import PlcTags.Proofs.Service.Lines
import PlcTags.Proofs.Live.Slot
import PlcTags.Proofs.Service.Seats
import PlcTags.Proofs.Service.Passes
import PlcTags.Proofs.Service.Closing
import PlcTags.Proofs.Service.History
import PlcTags.Proofs.Store.Agreement
import PlcTags.Proofs.Service.Serial
import PlcTags.Proofs.Service.Callers
import PlcTags.Proofs.Service.Turns
import PlcTags.Proofs.Service.Serializable
import PlcTags.Proofs.Service.Order
import PlcTags.Proofs.Service.LastEdit
import PlcTags.Proofs.Service.Tally
import PlcTags.Proofs.Service.Endings
import PlcTags.Proofs.Service.Edits
import PlcTags.Proofs.Service.Once
import PlcTags.Proofs.Service.Coalescing
import PlcTags.Proofs.Service.Membership
import PlcTags.Proofs.Service.InFlight
import PlcTags.Proofs.Service.Mails
import PlcTags.Proofs.Service.Waiting
import PlcTags.Proofs.Service.News
import PlcTags.Proofs.Service.Replies
import PlcTags.Proofs.Service.Listed
import PlcTags.Proofs.Service.Stays
import PlcTags.Proofs.Service.Stuck
import PlcTags.Proofs.Service.Yielding
import PlcTags.Proofs.Service.Admission
import PlcTags.Proofs.Service.Failing
import PlcTags.Proofs.Service.Fares
import PlcTags.Proofs.Service.Gate
import PlcTags.Proofs.Store.Count
import PlcTags.Proofs.Store.Listing
import PlcTags.Proofs.Tag.Name
import PlcTags.Proofs.Transfer.Carried
import PlcTags.Proofs.Transfer.Import
import PlcTags.Proofs.Transfer.Reimport
import PlcTags.Proofs.Transfer.Export
import PlcTags.Proofs.Service.Identity
import PlcTags.Proofs.Stamp.Calendar
import PlcTags.Proofs.Stamp.Text
import PlcTags.Proofs.Wire.Message
import PlcTags.Proofs.Address.Spelling
import PlcTags.Proofs.Source.Code
import PlcTags.Proofs.Source.Statement
import PlcTags.Proofs.Source.Spelling
import PlcTags.Proofs.Source.Line
import PlcTags.Proofs.Source.Numbering
import PlcTags.Proofs.Source.Reading
import PlcTags.Proofs.Source.Canonical
import PlcTags.Proofs.Source.Spacing
import PlcTags.Proofs.Source.Pieces
import PlcTags.Proofs.Source.LineBreak
import PlcTags.Proofs.Source.QuotedName
import PlcTags.Proofs.Source.Keyword
import PlcTags.Proofs.Source.Comments
import PlcTags.Proofs.Source.Recovery
import PlcTags.Proofs.Source.Composition
import PlcTags.Proofs.Service.Isolation
import PlcTags.Proofs.Container.Rows
import PlcTags.Proofs.Container.Arrangement
import PlcTags.Proofs.Service.Repetition
import PlcTags.Proofs.Service.Survival
import PlcTags.Proofs.Service.Provision
