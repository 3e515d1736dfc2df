import PriceDesk.Binary64.Basic
import PriceDesk.Binary64.Shortest
import PriceDesk.CommandLine.Answer
import PriceDesk.CommandLine.Arguments
import PriceDesk.CommandLine.Usage
import PriceDesk.Config.Configuration
import PriceDesk.Config.Exchange
import PriceDesk.Config.Reader
import PriceDesk.Config.Routes
import PriceDesk.Decimal.Arithmetic
import PriceDesk.Decimal.Basic
import PriceDesk.Decimal.Parse
import PriceDesk.Desk.Aggregate
import PriceDesk.Desk.Basic
import PriceDesk.Desk.LastResults
import PriceDesk.Desk.Run
import PriceDesk.Desk.Rush
import PriceDesk.Desk.Step
import PriceDesk.Discovery.Diagnostics
import PriceDesk.Discovery.Match
import PriceDesk.Discovery.Search
import PriceDesk.Json.Basic
import PriceDesk.Json.Document
import PriceDesk.Json.Layout
import PriceDesk.Json.Pointer
import PriceDesk.Main
import PriceDesk.Market.Asset
import PriceDesk.Market.Error
import PriceDesk.Market.Latest
import PriceDesk.Market.Listing
import PriceDesk.Market.Network
import PriceDesk.Market.OrderBook
import PriceDesk.Market.PairMap
import PriceDesk.Market.Quote
import PriceDesk.Market.Requested
import PriceDesk.Market.Volume
import PriceDesk.Memo.Basic
import PriceDesk.Memo.Lookup
import PriceDesk.Memo.Session
import PriceDesk.Number.Power
import PriceDesk.Pacing.Plan
import PriceDesk.Pacing.Script
import PriceDesk.Pacing.Throttle
import PriceDesk.Pacing.Window
import PriceDesk.Proofs.Desk.Coherent
import PriceDesk.Proofs.Desk.History
import PriceDesk.Proofs.Desk.Moves
import PriceDesk.Proofs.Desk.PriceMeaning
import PriceDesk.Proofs.Desk.Runs
import PriceDesk.Proofs.Desk.SharedFlights
import PriceDesk.Proofs.Discovery.BestMatch
import PriceDesk.Proofs.Discovery.Routes
import PriceDesk.Proofs.Pacing.Crowd
import PriceDesk.Proofs.Pacing.WindowBound
import PriceDesk.Provider.Basic
import PriceDesk.Provider.Call
import PriceDesk.Provider.Capability
import PriceDesk.Provider.Preference
import PriceDesk.Provider.Registry
import PriceDesk.Rest.Adapter
import PriceDesk.Rest.Codes
import PriceDesk.Rest.Description
import PriceDesk.Rest.Payload
import PriceDesk.Rest.Server
import PriceDesk.Rest.Url
import PriceDesk.Service.Basic
import PriceDesk.Text.Blank
import PriceDesk.Text.Case
import PriceDesk.Text.CaseTable
import PriceDesk.Text.Percent
import PriceDesk.Text.Quoted
import PriceDesk.Text.Template
import PriceDesk.Time.Clock
import PriceDesk.Time.Duration
import PriceDesk.Time.Pending
import PriceDesk.Venue.Kind
import PriceDesk.Venue.Scripted
import PriceDesk.Venue.Simulated
import PriceDesk.Venue.Street
import PriceDesk.Proofs.Memo.Custody
import PriceDesk.Proofs.Memo.Hall
import PriceDesk.Proofs.Desk.Lookups
import PriceDesk.Proofs.Desk.Listings
import PriceDesk.Proofs.Desk.Attendance
import PriceDesk.Proofs.Desk.Waiting
import PriceDesk.Proofs.Discovery.Legs
import PriceDesk.Proofs.Desk.Steady
import PriceDesk.Proofs.Desk.Delivery
import PriceDesk.Proofs.Desk.Sharing
import PriceDesk.Proofs.Desk.Accounts
import PriceDesk.Proofs.Desk.Dealings
import PriceDesk.Proofs.Desk.Reversals
import PriceDesk.Proofs.Pacing.TwoTiers
import PriceDesk.Proofs.Desk.AskedModes
import PriceDesk.Proofs.Desk.Refusals
import PriceDesk.Proofs.Decimal.Vanishing
import PriceDesk.Proofs.Desk.Worth
import PriceDesk.Proofs.Rest.Accepted
import PriceDesk.Proofs.Desk.Loading
import PriceDesk.Proofs.Desk.Isolation
import PriceDesk.Proofs.Pacing.Threshold
import PriceDesk.Proofs.Pacing.Turns
import PriceDesk.Proofs.Desk.Failover
import PriceDesk.Proofs.Desk.AtRest
import PriceDesk.Proofs.Desk.FrontDoors
import PriceDesk.Proofs.Desk.Singles
import PriceDesk.Proofs.Desk.Outcomes
import PriceDesk.Proofs.Desk.Conversions
import PriceDesk.Proofs.Desk.Piecemeal
import PriceDesk.Proofs.Market.Division
import PriceDesk.Proofs.Rest.Harvest
import PriceDesk.Proofs.Text.Capitals
import PriceDesk.Proofs.Rest.Tickers
import PriceDesk.Proofs.Rest.Pointers
import PriceDesk.Proofs.Provider.Ranking
import PriceDesk.Proofs.Discovery.Account
import PriceDesk.Proofs.Discovery.Unlisted
import PriceDesk.Proofs.Decimal.Rounding
import PriceDesk.Proofs.Decimal.Reciprocal
import PriceDesk.Proofs.Desk.Recency
import PriceDesk.Proofs.Desk.Recollection
import PriceDesk.Proofs.Market.Reversal
import PriceDesk.Proofs.Market.PairText
import PriceDesk.Proofs.Rest.OrderBooks
import PriceDesk.Proofs.Rest.Limits
import PriceDesk.Proofs.Market.Filling
import PriceDesk.Proofs.Rest.BulkTickers
import PriceDesk.Proofs.Desk.Coverage
