import ModelDistribution.Foundation.BitBuffer
import ModelDistribution.Foundation.Binary32
import ModelDistribution.Foundation.ShardedMap
import ModelDistribution.Foundation.LockTrace
import ModelDistribution.Error
import ModelDistribution.Foundation.Json
import ModelDistribution.Foundation.Text
import ModelDistribution.Manifest
import ModelDistribution.ChunkBitmap
import ModelDistribution.Proofs.Reassembly
import ModelDistribution.Proofs.StreamedManifest
import ModelDistribution.Tracker.Scheduler
import ModelDistribution.Tracker.Operations
import ModelDistribution.Proto
import ModelDistribution.Tracker.Server
import ModelDistribution.Proofs.ReplicaCounts
import ModelDistribution.Proofs.TrackerInvariants
import ModelDistribution.Proofs.RequestSafety
import ModelDistribution.Proofs.JobStatus
import ModelDistribution.Tracker.Locks
import ModelDistribution.Proofs.LockSafety
import ModelDistribution.ChunkPath
import ModelDistribution.Foundation.ByteStream
import ModelDistribution.Proto.Client
import ModelDistribution.Peer.Downloader
import ModelDistribution.Proofs.DownloadEffect
import ModelDistribution.Proofs.DownloadIntegrity
import ModelDistribution.Peer.Node
import ModelDistribution.Proofs.FinalHeartbeat
import ModelDistribution.Proofs.ManifestHandover
import ModelDistribution.Cluster
import ModelDistribution.Proofs.TruthfulPeers
import ModelDistribution.Foundation.LatestWins
import ModelDistribution.Proofs.NodeTable
import ModelDistribution.Proofs.CompletionCounter
import ModelDistribution.Foundation.Unwinding
import ModelDistribution.Proofs.NonInterference
import ModelDistribution.Proto.Framing
import ModelDistribution.Proofs.FramedMessages
import ModelDistribution.Foundation.JsonText
import ModelDistribution.Proto.Encoding
import ModelDistribution.Proofs.FrameSize
import ModelDistribution.Peer.ChunkServer
import ModelDistribution.Proofs.ChunkTransfer
import ModelDistribution.Delta
import ModelDistribution.Proofs.DeltaUpdate
import ModelDistribution.Proofs.Admission
import ModelDistribution.Erasure
import ModelDistribution.Proofs.StripeRecovery
import ModelDistribution.Proofs.BitmapSequence
import ModelDistribution.Proofs.BitmapWire
import ModelDistribution.Proofs.HeartbeatEffect
import ModelDistribution.Foundation.StableSort
import ModelDistribution.Proofs.PeerRanking
import ModelDistribution.Proofs.RarityRanking
import ModelDistribution.Proofs.FlatSharding
import ModelDistribution.Foundation.Behaviour
import ModelDistribution.Proofs.DownloadRounds
import ModelDistribution.Proofs.DownloadTermination
import ModelDistribution.Proofs.RoundProgress
import ModelDistribution.Proofs.ManifestArithmetic
import ModelDistribution.Proofs.ChunkServing
import ModelDistribution.Proofs.RarestFirst
import ModelDistribution.Proofs.StaleDeletion
import ModelDistribution.Foundation.PathComponents
import ModelDistribution.Proofs.ChunkFiles
import ModelDistribution.Swarm
import ModelDistribution.Proofs.ChunkOrigin
import ModelDistribution.Proofs.AnsweredPeers
import ModelDistribution.Proofs.DistributedFile
import ModelDistribution.Foundation.JsonReader
import ModelDistribution.Foundation.DerivedDecoding
import ModelDistribution.Proto.Decoding
import ModelDistribution.Proofs.MessageCodec
import ModelDistribution.DeltaEncoding
import ModelDistribution.Proofs.DeltaWire
import ModelDistribution.Proofs.DeltaChain
import ModelDistribution.Tracker.Listener
import ModelDistribution.Proofs.ListenerHistory
import ModelDistribution.Proto.RemoteCall
import ModelDistribution.Proofs.RemoteCalls
import ModelDistribution.Foundation.LockOrder
import ModelDistribution.Proofs.ConcurrentCalls
import ModelDistribution.Proofs.DownloadCompletion
import ModelDistribution.Proofs.SwarmCompletion
import ModelDistribution.Proofs.SwarmSurvival
import ModelDistribution.Proofs.NodeHistory
import ModelDistribution.Proofs.PeerQueries
import ModelDistribution.Network
import ModelDistribution.Proofs.NetworkCoupling
import ModelDistribution.Proofs.NetworkCalls
import ModelDistribution.Proofs.NetworkRefinement
import ModelDistribution.Proofs.NetworkedFile
