import Dfs.Lib.Assoc
import Dfs.Lib.Nested
import Dfs.Lib.PosixPath
import Dfs.Lib.FileTree
import Dfs.Lib.Disk
import Dfs.Lib.BigEndian
import Dfs.Lib.Run
import Dfs.Lib.Queue
import Dfs.Lib.Ranking
import Dfs.Lib.Framing
import Dfs.Common.Serializer
import Dfs.Common.SpanReader
import Dfs.Common.Message
import Dfs.Common.Rpc
import Dfs.Common.ClientProtocol
import Dfs.Common.StorageProtocol
import Dfs.Common.ObjectId
import Dfs.Common.Network
import Dfs.Common.BlockingQueue
import Dfs.Storage.StorageWorker
import Dfs.Storage.Healthy
import Dfs.Storage.StorageNode
import Dfs.Storage.Commit
import Dfs.Storage.Reads
import Dfs.Lib.Footprint
import Dfs.Storage.Isolation
import Dfs.Storage.ObjectIds
import Dfs.Metadata.MetadataStore
import Dfs.Metadata.Mirror
import Dfs.Metadata.Durable
import Dfs.Metadata.FileFormat
import Dfs.Metadata.Renaming
import Dfs.Metadata.Partition
import Dfs.Metadata.Recovery
import Dfs.Metadata.StoreData
import Dfs.Metadata.MetadataWorker
import Dfs.Metadata.WorkerSteps
import Dfs.Metadata.Ownership
import Dfs.Metadata.MetadataNode
import Dfs.System.Cluster
import Dfs.System.Sharing
import Dfs.System.Trace
import Dfs.System.Matching
import Dfs.System.Exchange
import Dfs.System.Rounds
import Dfs.System.Writers
import Dfs.Metadata.Sessions
import Dfs.System.Tables
import Dfs.Metadata.Coherence
import Dfs.Metadata.WorkerDurable
import Dfs.System.Records
import Dfs.Metadata.Writing
import Dfs.Metadata.Answers
import Dfs.Metadata.Traffic
import Dfs.System.Refusals
import Dfs.System.Removal
import Dfs.Metadata.StoreFailures
import Dfs.Common.Formats
import Dfs.Metadata.Responses
import Dfs.Metadata.Progress
import Dfs.Metadata.Operations
import Dfs.Metadata.Paths
import Dfs.Metadata.Placement
import Dfs.Metadata.Opening
import Dfs.Metadata.Custody
import Dfs.System.Upload
import Dfs.System.Download
import Dfs.System.Standing
import Dfs.System.Snapshots
import Dfs.System.Acknowledged
import Dfs.System.Interleaved
import Dfs.System.Producers
import Dfs.System.Queues
import Dfs.Common.RoundTrips
import Dfs.Common.Canonical
import Dfs.Network.FrameIO
import Dfs.Network.FrameReader
import Dfs.Network.Connection
import Dfs.Network.Delivery
import Dfs.Network.Seeds
import Dfs.Network.Table
import Dfs.Network.Senders
import Dfs.Network.Wire
import Dfs.System.Roles
import Dfs.Metadata.Tidy
import Dfs.Metadata.FrameSizes
import Dfs.Metadata.Listings
import Dfs.System.Orderly
import Dfs.System.Reserved
import Dfs.System.Frames
import Dfs.Client.Client
import Dfs.Client.Link
import Dfs.Client.Connections
import Dfs.Client.Replies
import Dfs.Client.Processes
import Dfs.Client.Service
import Dfs.Client.Abandoned
import Dfs.Client.Reading
import Dfs.Metadata.Heartbeats
import Dfs.Client.Spelling
import Dfs.Client.Filters
import Dfs.Client.Answered
import Dfs.Client.RoundTrip
import Dfs.Client.Versions
import Dfs.Client.Calls
import Dfs.Client.Uploads
