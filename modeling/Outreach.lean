import Outreach.Audience.Basic
import Outreach.Audience.Insights
import Outreach.Audience.Statistics
import Outreach.Audit
import Outreach.Calendar.Date
import Outreach.Calendar.Instant
import Outreach.Calendar.Reading
import Outreach.Calendar.Writing
import Outreach.Campaign.Basic
import Outreach.Campaign.Dispatch
import Outreach.Campaign.Json
import Outreach.Campaign.Lifecycle
import Outreach.Campaign.Request
import Outreach.Campaign.Schedule
import Outreach.Crm.Basic
import Outreach.Customer.Basic
import Outreach.Customer.Json
import Outreach.Customer.Request
import Outreach.Decimal.Binary
import Outreach.Decimal.Notation
import Outreach.Decimal.Reading
import Outreach.Decimal.Shortest
import Outreach.Demo.Records
import Outreach.Demo.Seed
import Outreach.Fault
import Outreach.Http.MediaType
import Outreach.Http.Query
import Outreach.Http.Replay
import Outreach.Http.Reply
import Outreach.Http.Request
import Outreach.Http.Route
import Outreach.Http.Service
import Outreach.Http.Startup
import Outreach.Http.Target
import Outreach.Id
import Outreach.Json.Basic
import Outreach.Json.Reader
import Outreach.Json.Record
import Outreach.Json.Writer
import Outreach.Login
import Outreach.Main
import Outreach.Order.Basic
import Outreach.Order.Json
import Outreach.Order.Request
import Outreach.Paging
import Outreach.Proofs.Audience.Counting
import Outreach.Proofs.Audience.Evaluation
import Outreach.Proofs.Audience.Growth
import Outreach.Proofs.Calendar.Dates
import Outreach.Proofs.Calendar.Days
import Outreach.Proofs.Calendar.Moments
import Outreach.Proofs.Calendar.Months
import Outreach.Proofs.Calendar.Order
import Outreach.Proofs.Calendar.RoundTrip
import Outreach.Proofs.Calendar.Spelling
import Outreach.Proofs.Campaign.Chronicle
import Outreach.Proofs.Campaign.Funnel
import Outreach.Proofs.Campaign.Lifecycle
import Outreach.Proofs.Campaign.Punctuality
import Outreach.Proofs.Campaign.Snapshots
import Outreach.Proofs.Campaign.Timers
import Outreach.Proofs.Crm.History
import Outreach.Proofs.Crm.Operations
import Outreach.Proofs.Crm.Refusals
import Outreach.Proofs.Crm.Run
import Outreach.Proofs.Crm.Session
import Outreach.Proofs.Crm.Turns
import Outreach.Proofs.Crm.Updates
import Outreach.Proofs.Customer.Email
import Outreach.Proofs.Decimal.Amounts
import Outreach.Proofs.Decimal.Characters
import Outreach.Proofs.Decimal.Counts
import Outreach.Proofs.Decimal.Numerals
import Outreach.Proofs.Decimal.Rounding
import Outreach.Proofs.Decimal.Sums
import Outreach.Proofs.Decimal.Whole
import Outreach.Proofs.Exchange
import Outreach.Proofs.Foremost
import Outreach.Proofs.Http.Commands
import Outreach.Proofs.Http.Strangers
import Outreach.Proofs.Identity
import Outreach.Proofs.Json.Entries
import Outreach.Proofs.Json.Fields
import Outreach.Proofs.Json.Finite
import Outreach.Proofs.Json.Records
import Outreach.Proofs.Login.Tokens
import Outreach.Proofs.Order.Pricing
import Outreach.Proofs.Paging
import Outreach.Proofs.Paging.Words
import Outreach.Proofs.Rule.Acceptance
import Outreach.Proofs.Rule.Arrangement
import Outreach.Proofs.Rule.Days
import Outreach.Proofs.Rule.Grouping
import Outreach.Proofs.Rule.Growth
import Outreach.Proofs.Rule.Moments
import Outreach.Proofs.Rule.Negation
import Outreach.Proofs.Rule.Reading
import Outreach.Proofs.Rule.Spellings
import Outreach.Proofs.Rule.Suitability
import Outreach.Proofs.Rule.Visits
import Outreach.Proofs.Rule.Written
import Outreach.Proofs.Settings.Overlay
import Outreach.Proofs.Settings.Places
import Outreach.Proofs.Settings.Texts
import Outreach.Proofs.Sorting
import Outreach.Proofs.Store.Accesses
import Outreach.Proofs.Store.Accounts
import Outreach.Proofs.Store.Addresses
import Outreach.Proofs.Store.Bookkeeping
import Outreach.Proofs.Store.Crossings
import Outreach.Proofs.Store.Deliveries
import Outreach.Proofs.Store.Emails
import Outreach.Proofs.Store.Finding
import Outreach.Proofs.Store.Likeness
import Outreach.Proofs.Store.Lists
import Outreach.Proofs.Store.Operations
import Outreach.Proofs.Store.OrderNumbers
import Outreach.Proofs.Store.Ranks
import Outreach.Proofs.Store.Records
import Outreach.Proofs.Store.Revenue
import Outreach.Proofs.Store.Room
import Outreach.Proofs.Store.Search
import Outreach.Proofs.Store.ShortLists
import Outreach.Proofs.Store.Spending
import Outreach.Proofs.Store.Totals
import Outreach.Proofs.Store.Traffic
import Outreach.Proofs.Store.Visits
import Outreach.Proofs.Table
import Outreach.Proofs.Taking
import Outreach.Proofs.Text.Blank
import Outreach.Proofs.Text.Letters
import Outreach.Proofs.Text.Lowercase
import Outreach.Proofs.Text.Numeral
import Outreach.Rule.Basic
import Outreach.Rule.Compile
import Outreach.Rule.Condition
import Outreach.Rule.Field
import Outreach.Rule.Filter
import Outreach.Settings.Basic
import Outreach.Settings.Environment
import Outreach.Settings.Json
import Outreach.Settings.Options
import Outreach.Store.Basic
import Outreach.Store.Campaigns
import Outreach.Store.Customers
import Outreach.Store.Figures
import Outreach.Store.Orders
import Outreach.Store.Performance
import Outreach.Table
import Outreach.Text.Blank
import Outreach.Text.CaseTable
import Outreach.Text.Lowercase
import Outreach.Text.Numeral
import Outreach.Text.Scan
import Outreach.Text.Utf8
