import Herald.Display
import Herald.Json.Tolerant
import Herald.Message.Reading
import Herald.RichText.Reading
import Herald.RichText.Rendering
import Herald.Service
import Herald.Settings
import Herald.Time.Timestamp
import Herald.Proofs.Display
import Herald.Proofs.Json.Containers
import Herald.Proofs.Json.Equality
import Herald.Proofs.Json.Lookup
import Herald.Proofs.Json.Nesting
import Herald.Proofs.Json.Numeral
import Herald.Proofs.Json.Record
import Herald.Proofs.Json.Tagged
import Herald.Proofs.Json.Value
import Herald.Proofs.Json.Yields
import Herald.Proofs.Markup.Unescape
import Herald.Proofs.RichText.Closed
import Herald.Proofs.RichText.Controls
import Herald.Proofs.RichText.Cut
import Herald.Proofs.RichText.Direct
import Herald.Proofs.RichText.Edit
import Herald.Proofs.RichText.Encoding
import Herald.Proofs.RichText.Label
import Herald.Proofs.RichText.Levels
import Herald.Proofs.RichText.Log
import Herald.Proofs.RichText.Notices
import Herald.Proofs.RichText.Positional
import Herald.Proofs.RichText.QuotedLines
import Herald.Proofs.RichText.Segments
import Herald.Proofs.RichText.Series
import Herald.Proofs.Document.Acceptance
import Herald.Proofs.Document.Announced
import Herald.Proofs.Document.Depth
import Herald.Proofs.Document.Field
import Herald.Proofs.Document.Listed
import Herald.Proofs.Document.Respelled
import Herald.Proofs.Message.Entries
import Herald.Proofs.Message.WireReading
import Herald.Proofs.Service.Availability
import Herald.Proofs.Service.Session
import Herald.Proofs.Settings.Grammar
import Herald.Proofs.Time.AnyOrder
import Herald.Proofs.Time.NumericDay
import Herald.Proofs.Time.SameDay
