import BlockGraph.Files.Disk
import BlockGraph.Main
import BlockGraph.Proofs.Aggregator.Archive
import BlockGraph.Proofs.Aggregator.Chronicle
import BlockGraph.Proofs.Aggregator.Consistency
import BlockGraph.Proofs.Aggregator.Lifecycle
import BlockGraph.Proofs.Aggregator.Recorded
import BlockGraph.Proofs.Command.Agreement
import BlockGraph.Proofs.Engine.Contests
import BlockGraph.Proofs.Engine.Convergence
import BlockGraph.Proofs.Engine.Import
import BlockGraph.Proofs.Engine.Journal
import BlockGraph.Proofs.Engine.Positions
import BlockGraph.Proofs.Engine.Stream
import BlockGraph.Proofs.Store.Cycles
import BlockGraph.Proofs.Engine.Redundancy
import BlockGraph.Proofs.Engine.Census
import BlockGraph.Proofs.Feed.Recording
import BlockGraph.Proofs.Aggregator.Waiting
import BlockGraph.Proofs.Seal.Table
import BlockGraph.Proofs.Seal.Classification
import BlockGraph.Proofs.Seal.Prefix
import BlockGraph.Proofs.Header.Number
import BlockGraph.Proofs.Header.Digest
import BlockGraph.Proofs.Lanes
import BlockGraph.Proofs.Store.Identifiers
import BlockGraph.Proofs.Aggregator.Addressing
import BlockGraph.Proofs.Aggregator.Summary
