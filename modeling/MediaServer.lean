import MediaServer.Av.FanOut
import MediaServer.Av.GopCache
import MediaServer.Av.GopContent
import MediaServer.Av.MediaStreamManager
import MediaServer.Av.PlayerCalls
import MediaServer.Av.StreamMap
import MediaServer.Format.FlvDemux
import MediaServer.Format.FlvMux
import MediaServer.Format.FlvOutput
import MediaServer.Format.FlvSafety
import MediaServer.Http.HeaderAnalysis
import MediaServer.Http.HttpSession
import MediaServer.Http.QuietSession
import MediaServer.Httpflv.ClientBytes
import MediaServer.Httpflv.ClientReads
import MediaServer.Httpflv.HeapSoundness
import MediaServer.Httpflv.HttpflvServer
import MediaServer.Httpflv.HttpflvWriter
import MediaServer.Httpflv.Lifetimes
import MediaServer.Httpflv.ServerRuns
import MediaServer.Httpflv.SessionEvents
import MediaServer.Httpflv.WriterEvents
import MediaServer.Httpflv.WriterTimer
import MediaServer.Lib.BigEndian
import MediaServer.Lib.Copies
import MediaServer.Lib.Crc
import MediaServer.Lib.Guarded
import MediaServer.Lib.Incremental
import MediaServer.Lib.Loop
import MediaServer.Lib.Membership
import MediaServer.Lib.OrderedMap
import MediaServer.Lib.RelatedLists
import MediaServer.Lib.Watchdog
import MediaServer.Rtmp.Acknowledgements
import MediaServer.Rtmp.Amf0
import MediaServer.Rtmp.AmfBounds
import MediaServer.Rtmp.AmfLoop
import MediaServer.Rtmp.AmfRoundTrip
import MediaServer.Rtmp.AmfTermination
import MediaServer.Rtmp.BasicHeaders
import MediaServer.Rtmp.ChunkHeaders
import MediaServer.Rtmp.ChunkSizes
import MediaServer.Rtmp.ChunkStream
import MediaServer.Rtmp.Cleanup
import MediaServer.Rtmp.ClientChunkSizes
import MediaServer.Rtmp.ClientOrder
import MediaServer.Rtmp.ClientReading
import MediaServer.Rtmp.ClientSession
import MediaServer.Rtmp.ClientSteps
import MediaServer.Rtmp.ControlHandler
import MediaServer.Rtmp.Division
import MediaServer.Rtmp.Handling
import MediaServer.Rtmp.Handshake
import MediaServer.Rtmp.HandshakeS1
import MediaServer.Rtmp.HandshakeSlices
import MediaServer.Rtmp.History
import MediaServer.Rtmp.Isolation
import MediaServer.Rtmp.LargeTimestamps
import MediaServer.Rtmp.LoopProgress
import MediaServer.Rtmp.MediaMessages
import MediaServer.Rtmp.Publishing
import MediaServer.Rtmp.Readers
import MediaServer.Rtmp.Reading
import MediaServer.Rtmp.RoundTrip
import MediaServer.Rtmp.RtmpUrl
import MediaServer.Rtmp.Segmentation
import MediaServer.Rtmp.ServerSession
import MediaServer.Rtmp.ServerSteps
import MediaServer.Rtmp.ServerView
import MediaServer.Rtmp.SessionBase
import MediaServer.Rtmp.SessionRuns
import MediaServer.Rtmp.TimestampDeltas
import MediaServer.Rtprtcp.NackBitmaps
import MediaServer.Rtprtcp.RtcpFbNack
import MediaServer.Rtprtcp.RtcpPackets
import MediaServer.Rtprtcp.RtpPacket
import MediaServer.Rtprtcp.RtpParsing
import MediaServer.Rtprtcp.RtxDemux
import MediaServer.Rtprtcp.SequenceOrder
import MediaServer.Stun.StunBounds
import MediaServer.Stun.StunGrammar
import MediaServer.Stun.StunPacket
import MediaServer.Stun.StunRoundTrip
import MediaServer.Tcp.SendQueue
import MediaServer.Udp.UdpServer
import MediaServer.Utils.BufferCopies
import MediaServer.Utils.BufferMemory
import MediaServer.Utils.ByteCrypto
import MediaServer.Utils.Crc32
import MediaServer.Utils.DataBuffer
import MediaServer.Utils.Json
import MediaServer.Utils.Stringex
import MediaServer.Utils.Timeex
import MediaServer.Webrtc.EvictionCursor
import MediaServer.Webrtc.Forwarding
import MediaServer.Webrtc.HeldSessions
import MediaServer.Webrtc.KeyframeRequests
import MediaServer.Webrtc.LateJoiners
import MediaServer.Webrtc.LivePublishers
import MediaServer.Webrtc.LossReports
import MediaServer.Webrtc.MappedAddress
import MediaServer.Webrtc.NackGenerator
import MediaServer.Webrtc.NackTimer
import MediaServer.Webrtc.PublisherIndexes
import MediaServer.Webrtc.Replies
import MediaServer.Webrtc.Retransmission
import MediaServer.Webrtc.RetryDiscipline
import MediaServer.Webrtc.RoomFrames
import MediaServer.Webrtc.RoomInvariant
import MediaServer.Webrtc.RoomMedia
import MediaServer.Webrtc.RoomService
import MediaServer.Webrtc.RoomSteps
import MediaServer.Webrtc.Routing
import MediaServer.Webrtc.RtcBaseSession
import MediaServer.Webrtc.RtcMediaInfo
import MediaServer.Webrtc.RtcpData
import MediaServer.Webrtc.RtpRecvStream
import MediaServer.Webrtc.RtpSendReports
import MediaServer.Webrtc.RtpSendStream
import MediaServer.Webrtc.SenderReports
import MediaServer.Webrtc.SequenceNumbers
import MediaServer.Webrtc.SessionMaps
import MediaServer.Webrtc.StunResponses
import MediaServer.Webrtc.SubscriberBinding
import MediaServer.Webrtc.SubscriberPlaces
import MediaServer.Webrtc.SubscriberStreams
import MediaServer.Webrtc.SupportedMedia
import MediaServer.Webrtc.WebrtcSession
import MediaServer.Websocket.Membership
import MediaServer.Websocket.ProtooServer
