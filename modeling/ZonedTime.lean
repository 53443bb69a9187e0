import ZonedTime.Bytes.Basic
import ZonedTime.Bytes.Hex
import ZonedTime.Calendar.Basic
import ZonedTime.Calendar.Date
import ZonedTime.Calendar.Names
import ZonedTime.Calendar.Week
import ZonedTime.Clock.Time
import ZonedTime.Duration.Basic
import ZonedTime.Duration.Written
import ZonedTime.Error.Basic
import ZonedTime.Error.Message
import ZonedTime.Instant.Basic
import ZonedTime.Instant.Day
import ZonedTime.Instant.Micro
import ZonedTime.Numeric.Binary64
import ZonedTime.Pattern.Fields
import ZonedTime.Pattern.Item
import ZonedTime.Pattern.Listing
import ZonedTime.Pattern.Reader
import ZonedTime.Pattern.Render
import ZonedTime.Reading.Basic
import ZonedTime.Store.Basic
import ZonedTime.Store.Cache
import ZonedTime.Store.Files
import ZonedTime.Store.Key
import ZonedTime.Text.Basic
import ZonedTime.Text.Blank
import ZonedTime.Text.DigitTable
import ZonedTime.Text.Expr
import ZonedTime.Text.Layout
import ZonedTime.Text.Quoted
import ZonedTime.Text.Scan
import ZonedTime.Value.Basic
import ZonedTime.Value.Packed
import ZonedTime.Written.Iso
import ZonedTime.Written.Lenient
import ZonedTime.Written.Rfc2822
import ZonedTime.Written.Rfc3339
import ZonedTime.Written.Stamp
import ZonedTime.Zone.Basic
import ZonedTime.Zone.Change
import ZonedTime.Zone.Offset
import ZonedTime.Zone.Resolution
import ZonedTime.Zone.Rules
import ZonedTime.Zone.Search
import ZonedTime.Zone.Tzif
import ZonedTime.Zone.Yearly
import ZonedTime.Zone.Yearly.Reader
import ZonedTime.Proofs.Calendar.DayLine
import ZonedTime.Proofs.Error.Outcome
import ZonedTime.Proofs.Instant.Coherence
import ZonedTime.Proofs.Instant.Reachable
import ZonedTime.Proofs.Pattern.Refusal
import ZonedTime.Proofs.Reading.Arithmetic
import ZonedTime.Proofs.Reading.LeapSecond
import ZonedTime.Proofs.Reading.Refusal
import ZonedTime.Proofs.Reading.SecondLine
import ZonedTime.Proofs.Text.Numeral
import ZonedTime.Proofs.Text.Scanning
import ZonedTime.Proofs.Value.Packed
import ZonedTime.Proofs.Written.Rfc3339
import ZonedTime.Proofs.Zone.Recorded
import ZonedTime.Proofs.Zone.Search
import ZonedTime.Proofs.Zone.Showing
import ZonedTime.Proofs.Zone.Yearly
import ZonedTime.Proofs.Written.Stamped
import ZonedTime.Proofs.Pattern.Stated
import ZonedTime.Proofs.Instant.Proper
import ZonedTime.Proofs.Calendar.WeekLine
import ZonedTime.Proofs.Pattern.Known
import ZonedTime.Proofs.Pattern.ReadBack
import ZonedTime.Proofs.Pattern.RoundTrip
import ZonedTime.Proofs.Zone.LostMoment
import ZonedTime.Proofs.Instant.DayStart
import ZonedTime.Proofs.Pattern.Resolved
import ZonedTime.Proofs.Instant.Accepted
import ZonedTime.Proofs.Text.Recognition
import ZonedTime.Proofs.Written.Rfc3339Graded
import ZonedTime.Proofs.Instant.Constant
import ZonedTime.Proofs.Written.Lenient
import ZonedTime.Proofs.Text.Words
import ZonedTime.Proofs.Text.Expr
import ZonedTime.Proofs.Instant.Truncated
import ZonedTime.Proofs.Written.Rfc2822
import ZonedTime.Proofs.Pattern.Confirmed
import ZonedTime.Proofs.Zone.ChangeDate
import ZonedTime.Proofs.Zone.Unguarded
import ZonedTime.Proofs.Bytes.Chunks
import ZonedTime.Proofs.Zone.UnguardedTzif
import ZonedTime.Proofs.Zone.Answered
import ZonedTime.Proofs.Pattern.OffsetBack
import ZonedTime.Proofs.Store.Recency
import ZonedTime.Proofs.Store.Steps
import ZonedTime.Proofs.Bytes.Written
import ZonedTime.Proofs.Zone.TzifLayout
import ZonedTime.Proofs.Written.LenientWords
import ZonedTime.Proofs.Pattern.StrictForm
import ZonedTime.Proofs.Pattern.FixedForms
import ZonedTime.Proofs.Pattern.Timestamp
import ZonedTime.Proofs.Reading.OneWay
import ZonedTime.Proofs.Reading.Order
import ZonedTime.Proofs.Zone.SameRules
import ZonedTime.Proofs.Pattern.StatedOffset
import ZonedTime.Proofs.Zone.RuleWords
import ZonedTime.Proofs.Zone.RuleSpelling
import ZonedTime.Proofs.Zone.RuleLanguage
import ZonedTime.Proofs.Reading.Sums
import ZonedTime.Proofs.Zone.Fold
import ZonedTime.Proofs.Instant.FixedOffset
import ZonedTime.Proofs.Calendar.Counting
import ZonedTime.Proofs.Zone.NamedDay
import ZonedTime.Proofs.Pattern.Composed
import ZonedTime.Proofs.Written.MailForms
import ZonedTime.Proofs.Written.IsoWords
import ZonedTime.Proofs.Instant.Timestamp
import ZonedTime.Proofs.Instant.MicroClock
import ZonedTime.Proofs.Instant.Subsecond
import ZonedTime.Proofs.Value.Layout
import ZonedTime.Proofs.Value.Restored
import ZonedTime.Proofs.Calendar.WeekDates
import ZonedTime.Proofs.Calendar.DayShift
import ZonedTime.Proofs.Store.KeyPath
import ZonedTime.Proofs.Duration.IsoForm
import ZonedTime.Proofs.Duration.Rounding
