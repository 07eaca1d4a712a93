import Cetty.BufferGrowth
import Cetty.AdaptiveReceiveBufferSizePredictor
import Cetty.CodecEmbedder
import Cetty.HeapWindows
import Cetty.BulkTransfers
import Cetty.WriteWaterMark
import Cetty.WriteCompletion
import Cetty.SocketWire
import Cetty.PipelineRefinement
import Cetty.DatagramService
import Cetty.ChannelShutdown
import Cetty.FutureListeners
import Cetty.FutureProgress
import Cetty.BufferOrder
import Cetty.NestedViews
import Cetty.PipelineIsolation
import Cetty.ReplayedFrames
import Cetty.HttpClientCodec
import Cetty.ReadTimeoutHandler
import Cetty.LengthFieldPrepender
import Cetty.QueryGrammar
import Cetty.HeaderSetting
import Cetty.HttpVersions
import Cetty.WebSocketFrameDecoder
import Cetty.LimitedHeaders
import Cetty.HeaderHashes
import Cetty.HandlerAllocator
import Cetty.DelimiterSearches
import Cetty.ZeroFills
import Cetty.IndexSearches
import Cetty.PipelinedRequests
import Cetty.OutstandingReads
