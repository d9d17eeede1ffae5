import TrafficMeter.Main
import TrafficMeter.Metrics.Exposition
import TrafficMeter.Sampler.Loop
import TrafficMeter.Source.Dump
import TrafficMeter.Proofs.Store.Amounts
import TrafficMeter.Proofs.Store.Grouping
import TrafficMeter.Proofs.Store.Buckets
import TrafficMeter.Proofs.Store.History
import TrafficMeter.Proofs.Store.Calls
import TrafficMeter.Proofs.Store.Obstacles
import TrafficMeter.Proofs.Store.Readable
import TrafficMeter.Proofs.Store.Windows
import TrafficMeter.Proofs.Store.OrderedAnswers
import TrafficMeter.Proofs.Store.BucketStarts
import TrafficMeter.Proofs.Store.AlignedAnswers
import TrafficMeter.Proofs.Store.RankedUsers
import TrafficMeter.Proofs.Store.TrafficLedger
import TrafficMeter.Proofs.Store.Overflow
import TrafficMeter.Proofs.Store.LaterAnswers
import TrafficMeter.Proofs.Store.Agreement
import TrafficMeter.Proofs.Store.Interleavings
import TrafficMeter.Proofs.Store.Settling
import TrafficMeter.Proofs.Store.Migrations
import TrafficMeter.Proofs.Store.RankedPeers
import TrafficMeter.Proofs.Store.Selections
import TrafficMeter.Proofs.Store.ActiveUsers
import TrafficMeter.Proofs.Store.MergedBatches
import TrafficMeter.Proofs.Store.FirstWrites
import TrafficMeter.Proofs.Source.RosterCache
import TrafficMeter.Proofs.Source.ListedIdentities
import TrafficMeter.Proofs.Retention.Resuming
import TrafficMeter.Proofs.Retention.WholeBuckets
import TrafficMeter.Proofs.Sampler.Turns
import TrafficMeter.Proofs.Sampler.CounterLedger
import TrafficMeter.Proofs.Sampler.AttributionLedger
import TrafficMeter.Proofs.Sampler.EvenShares
import TrafficMeter.Proofs.Sampler.RecentPoints
import TrafficMeter.Proofs.Sampler.ChangedSnapshots
import TrafficMeter.Proofs.Sampler.PeerMemory
import TrafficMeter.Proofs.Sampler.DeferredPeers
import TrafficMeter.Proofs.Sampler.LogTail
import TrafficMeter.Proofs.Sampler.ShrunkenLog
import TrafficMeter.Proofs.Sampler.MarkedLines
import TrafficMeter.Proofs.Sampler.SamplerLoops
import TrafficMeter.Proofs.Dashboard.Grid
import TrafficMeter.Proofs.Source.DumpGrammar
import TrafficMeter.Proofs.Source.Verdicts
