import DemoExchange.Lib.Run
import DemoExchange.Lib.Log
import DemoExchange.Lib.Pool
import DemoExchange.Lib.SortedMap
import DemoExchange.Lib.Buckets
import DemoExchange.Lib.Text
import DemoExchange.Lib.Keyed
import DemoExchange.Lib.Json
import DemoExchange.Lib.JsonRecord
import DemoExchange.Lib.Interleaving
import DemoExchange.Lib.Fairness
import DemoExchange.Lib.Pipeline
import DemoExchange.Lib.Stages
import DemoExchange.Lab.Error
import DemoExchange.Lab.FixedString
import DemoExchange.Lab.FixedStringBuffer
import DemoExchange.Lab.Charconv
import DemoExchange.Lab.Json
import DemoExchange.Lab.Described
import DemoExchange.Lab.EventLoop
import DemoExchange.Lab.EventLoopStart
import DemoExchange.Lab.EventLoopRank
import DemoExchange.Lab.Algorithm
import DemoExchange.Lab.AsioUdpReceiver
import DemoExchange.OrderEntry.Messages
import DemoExchange.OrderEntry.JsonDecoder
import DemoExchange.OrderEntry.Session
import DemoExchange.OrderClient.JsonEncoder
import DemoExchange.OrderClient.Client
import DemoExchange.Client.Main
import DemoExchange.MarketData.Messages
import DemoExchange.MarketData.JsonEncoder
import DemoExchange.MarketData.Publisher
import DemoExchange.Mmd.Messages
import DemoExchange.Mmd.Conversions
import DemoExchange.MmdJson.JsonEncoder
import DemoExchange.MatchingEngine.OrderBook
import DemoExchange.MatchingEngine.Ladder
import DemoExchange.MatchingEngine.Matching
import DemoExchange.MatchingEngine.Engine
import DemoExchange.MatchingEngine.Totals
import DemoExchange.Mor.Messages
import DemoExchange.Morfix.Messages
import DemoExchange.Ospec.B3
import DemoExchange.QuickfixFix.Message
import DemoExchange.QuickfixFix.Codec
import DemoExchange.QuickfixFix.Framing
import DemoExchange.QuickfixFix.Grammar
import DemoExchange.MorfixQuickfix.Codecs
import DemoExchange.MorfixQuickfix.Fields
import DemoExchange.MorfixQuickfix.Line
import DemoExchange.Server.Application
import DemoExchange.Server.Process
import DemoExchange.Server.Threads
import DemoExchange.Server.Lifecycle
import DemoExchange.Client.Deployment
import DemoExchange.Reference.Exchange
import DemoExchange.Reference.Steps
import DemoExchange.Reference.Sweep
import DemoExchange.Reference.Orderly
import DemoExchange.Reference.Top
import DemoExchange.Reference.Ledger
import DemoExchange.Reference.Output
import DemoExchange.Reference.Feed
import DemoExchange.Reference.Standing
import DemoExchange.Reference.Terms
import DemoExchange.Reference.Answers
import DemoExchange.Reference.Isolation
import DemoExchange.Reference.Fills
import DemoExchange.Reference.Room
import DemoExchange.Reference.Restart
import DemoExchange.Reference.Taking
import DemoExchange.Refinement.Tracking
import DemoExchange.Refinement.Books
import DemoExchange.Refinement.Match
import DemoExchange.Refinement.Drain
import DemoExchange.Refinement.Holds
import DemoExchange.Refinement.Requests
import DemoExchange.Refinement.Runs
import DemoExchange.Refinement.Queues
import DemoExchange.Refinement.Numbering
import DemoExchange.Refinement.Totals
import DemoExchange.Refinement.Pipeline
import DemoExchange.Refinement.Shutdown
import DemoExchange.Refinement.Process
import DemoExchange.Refinement.Receiving
import DemoExchange.Refinement.Progress
import DemoExchange.Refinement.Responses
import DemoExchange.Refinement.Lifecycle
import DemoExchange.Properties.Agreement
import DemoExchange.Properties.Memory
import DemoExchange.Properties.Books
import DemoExchange.Properties.Refusal
import DemoExchange.Properties.Conservation
import DemoExchange.Properties.Output
import DemoExchange.Properties.Feed
import DemoExchange.Properties.Reports
import DemoExchange.Properties.Terms
import DemoExchange.Properties.Isolation
import DemoExchange.Properties.Bracket
import DemoExchange.Properties.Average
import DemoExchange.Properties.Totals
import DemoExchange.Properties.Replace
import DemoExchange.Properties.Restart
import DemoExchange.Properties.Matching
import DemoExchange.Properties.OrderBook
import DemoExchange.Properties.FixedString
import DemoExchange.Properties.TextCodec
import DemoExchange.Properties.Fix
import DemoExchange.Properties.Line
import DemoExchange.Properties.Gateway
import DemoExchange.Properties.Json
import DemoExchange.Properties.Decoding
import DemoExchange.Properties.Numbers
import DemoExchange.Properties.Described
import DemoExchange.Properties.MarketDataJson
import DemoExchange.Properties.Pipeline
import DemoExchange.Properties.Process
import DemoExchange.Properties.Liveness
import DemoExchange.Properties.Lifecycle
import DemoExchange.Properties.Client
import DemoExchange.Properties.Records
import DemoExchange.Properties.Stdout
import DemoExchange.Properties.Deployment
