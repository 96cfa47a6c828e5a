import ZeroMQ.Pipe.YPipeFifo
import ZeroMQ.Pipe.ChunkQueue
import ZeroMQ.Pipe.Conflate
import ZeroMQ.Codec.RoundTrip
import ZeroMQ.Codec.Buffers
import ZeroMQ.Pattern.SubFilter
import ZeroMQ.Pattern.ReqCorrelate
import ZeroMQ.Content.RefCounts
import ZeroMQ.Pattern.XsubDist
import ZeroMQ.Pattern.XpubDelivery
import ZeroMQ.Pattern.XpubUpstream
import ZeroMQ.Pattern.SubSync
import ZeroMQ.Thread.Mailbox
import ZeroMQ.Thread.OwnRequests
import ZeroMQ.Thread.OwnShutdown
import ZeroMQ.Engine.CurveBuffers
import ZeroMQ.Engine.CurveMessages
import ZeroMQ.Engine.GreetingRun
import ZeroMQ.Engine.Metadata
import ZeroMQ.Engine.SessionClean
import ZeroMQ.Pattern.EndpointsValid
import ZeroMQ.Gds.Closing
import ZeroMQ.Gds.BrokerDispatch
import ZeroMQ.Gds.BrokerServices
import ZeroMQ.Gds.BrokerWaiting
import ZeroMQ.Czmq.ZconfigRoundTrip
import ZeroMQ.Pattern.RepRoute
import ZeroMQ.Pattern.Stream
import ZeroMQ.Filemq.Mounts
import ZeroMQ.Filemq.Inbox
import ZeroMQ.Filemq.Credit
import ZeroMQ.Czmq.ZgossipOrder
import ZeroMQ.Utils.Z85Keys
import ZeroMQ.Engine.PlainHello
import ZeroMQ.Address.Mask
import ZeroMQ.Address.Socks
import ZeroMQ.Thread.Timers
import ZeroMQ.Thread.Poller
import ZeroMQ.Pattern.XpubNodrop
import ZeroMQ.Gds.BrokerNames
import ZeroMQ.Thread.CtxTerminate
import ZeroMQ.Pattern.Hiccup
import ZeroMQ.Czmq.ZhashGrowth
import ZeroMQ.Gds.Transport
import ZeroMQ.Czmq.ZlistSort
import ZeroMQ.Czmq.Zchunk
import ZeroMQ.Czmq.ZconfigBounds
import ZeroMQ.Czmq.ZmsgFile
import ZeroMQ.Czmq.ZmsgSize
import ZeroMQ.Filemq.Zdir
import ZeroMQ.Czmq.ZconfigPath
