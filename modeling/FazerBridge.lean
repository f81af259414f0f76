import FazerBridge.Lib.Json
import FazerBridge.Lib.Metered
import FazerBridge.Lib.Program
import FazerBridge.Lib.Ranking
import FazerBridge.Lib.Runs
import FazerBridge.Lib.Striking
import FazerBridge.Lib.Table
import FazerBridge.Difflib
import FazerBridge.Text
import FazerBridge.Text.Words
import FazerBridge.Text.Search
import FazerBridge.Text.Packaging
import FazerBridge.Text.IdentityWords
import FazerBridge.Models
import FazerBridge.CatalogSync
import FazerBridge.Matching
import FazerBridge.Matching.Candidates
import FazerBridge.Matching.Claims
import FazerBridge.Matching.Rerun
import FazerBridge.Matching.Rejections
import FazerBridge.Matching.Gates
import FazerBridge.Idempotency
import FazerBridge.Idempotency.Replays
import FazerBridge.Adapter
import FazerBridge.RateLimit
import FazerBridge.HttpClient
import FazerBridge.HttpClient.Simulation
import FazerBridge.HttpClient.Logging
import FazerBridge.G2AClient
import FazerBridge.Pricing
import FazerBridge.OfferSync
import FazerBridge.OfferSync.Outcomes
import FazerBridge.G2AClient.Escapes
import FazerBridge.OfferSync.Sessions
import FazerBridge.Service
import FazerBridge.Recorder
import FazerBridge.CatalogSync.Absence
import FazerBridge.OfferSync.SentPrices
import FazerBridge.OfferSync.Addressing
import FazerBridge.Pricing.Bounds
import FazerBridge.Pricing.LiveRates
import FazerBridge.Pricing.SubCentLimits
import FazerBridge.OfferSync.CreateOnce
import FazerBridge.OfferSync.Deferrals
import FazerBridge.OfferSync.Verdicts
import FazerBridge.Matching.FaceValues
import FazerBridge.Matching.Qualifiers
import FazerBridge.Matching.Approvals
import FazerBridge.Lib.JsonText
import FazerBridge.Pricing.Monotone
import FazerBridge.FazerCards
import FazerBridge.FazerCards.Titles
import FazerBridge.FazerCards.Refusals
import FazerBridge.Idempotency.Sessions
import FazerBridge.CatalogSync.Unchanged
import FazerBridge.Matching.Shortlist
import FazerBridge.Lib.Neighbours
import FazerBridge.Matching.Lookups
import FazerBridge.Matching.Enumerations
import FazerBridge.Matching.Scores
import FazerBridge.OfferSync.Steady
import FazerBridge.OfferSync.DryRun
import FazerBridge.OfferSync.Adoption
import FazerBridge.OfferSync.StaleNames
import FazerBridge.OfferSync.AtomicStore
import FazerBridge.OfferSync.Mirror
import FazerBridge.OfferSync.Convergence
import FazerBridge.Worker
import FazerBridge.Worker.Stopping
import FazerBridge.Worker.Spacing
import FazerBridge.Lib.Preserves
import FazerBridge.Worker.Jobs
import FazerBridge.Worker.Shelf
import FazerBridge.Lib.KeyedFeed
import FazerBridge.CatalogSync.Crawls
import FazerBridge.Worker.Freshness
import FazerBridge.Lib.Paging
import FazerBridge.FazerCards.Lists
import FazerBridge.G2AClient.Lists
import FazerBridge.CatalogSync.Counters
import FazerBridge.OfferSync.Advertised
import FazerBridge.HttpClient.Delays
import FazerBridge.Lib.Floating
import FazerBridge.AdminApi
import FazerBridge.OfferSync.PricePending
import FazerBridge.HttpClient.Effects
import FazerBridge.Lib.Delivery
import FazerBridge.FazerCards.Purchases
import FazerBridge.Text.Numerals
import FazerBridge.Text.Floats
import FazerBridge.G2AClient.Offers
import FazerBridge.G2AClient.Bodies
import FazerBridge.G2AClient.Wire
import FazerBridge.G2AClient.Calls
import FazerBridge.Worker.Wire
import FazerBridge.FazerCards.Feed
import FazerBridge.FazerCards.Pulls
