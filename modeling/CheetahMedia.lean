import CheetahMedia.Codec.Adts
import CheetahMedia.Codec.Audio
import CheetahMedia.Codec.Flv
import CheetahMedia.Codec.Jtt1078.Interleaving
import CheetahMedia.Codec.Mp4Writer
import CheetahMedia.Codec.Ps.Separation
import CheetahMedia.Codec.Ps.Bounds
import CheetahMedia.Codec.RtpReorder.Delivery
import CheetahMedia.Codec.Time.Convert
import CheetahMedia.Codec.Time.Normalize
import CheetahMedia.Codec.Ts
import CheetahMedia.Codec.Ts.Packet
import CheetahMedia.Codec.Ts.Safety
import CheetahMedia.Codec.Ts.Wrap
import CheetahMedia.Codec.Video
import CheetahMedia.Config.Administration
import CheetahMedia.ControlPlane.Capacity
import CheetahMedia.ControlPlane.Durable.Convergence
import CheetahMedia.ControlPlane.EventStream.Delivery
import CheetahMedia.ControlPlane.NodeSupervisor.Fencing
import CheetahMedia.ControlPlane.NodeSupervisor.Gate
import CheetahMedia.ControlPlane.Reconciler
import CheetahMedia.Engine.Dispatcher
import CheetahMedia.Engine.Dispatcher.Gating
import CheetahMedia.Engine.MediaEventBus
import CheetahMedia.Engine.ModuleManager.AllOrNothing
import CheetahMedia.Engine.RingBuffer
import CheetahMedia.Engine.SessionDirectory
import CheetahMedia.Engine.StreamManager
import CheetahMedia.Engine.TaskSystem.Contract
import CheetahMedia.Lib.Checked
import CheetahMedia.Lib.Handler
import CheetahMedia.Lib.Incremental
import CheetahMedia.P2p.Protocol
import CheetahMedia.Record.FlvFile
import CheetahMedia.Record.Lifecycle
import CheetahMedia.Rtmp.Amf0.Reencode
import CheetahMedia.Rtmp.Amf3.Reencode
import CheetahMedia.Rtmp.Chunk.RoundTrip
import CheetahMedia.Rtmp.Command
import CheetahMedia.Rtmp.Core.Publish
import CheetahMedia.Rtmp.Core.Segmentation
import CheetahMedia.Rtmp.Message.Encoder
import CheetahMedia.Rtmp.Message.RoundTrip
import CheetahMedia.Rtmp.Message.Segmentation
import CheetahMedia.Rtmp.VideoIngress
import CheetahMedia.Rtp.Deframing
import CheetahMedia.Rtsp.Core.Segmentation
import CheetahMedia.Rtsp.Message.RoundTrip
import CheetahMedia.Codec.Annexb
import CheetahMedia.Codec.Mp4.Index
import CheetahMedia.Codec.Mp4.BoxParser
import CheetahMedia.Codec.Mp4.Playback
import CheetahMedia.Codec.Mp4.Timing
import CheetahMedia.Codec.Mp4.Configuration
import CheetahMedia.Codec.Fmp4Demux.Bounded
import CheetahMedia.Codec.Ehome.Safety
import CheetahMedia.Rtsp.Rtp
import CheetahMedia.Rtsp.RtcpFeedback
import CheetahMedia.Rtsp.RtpInfo.RoundTrip
import CheetahMedia.Hls.Pacer
import CheetahMedia.Hls.DateTime
import CheetahMedia.ControlPlane.Durable.Completion
import CheetahMedia.Rtp.RtcpReport
import CheetahMedia.Rtp.Rtcp.RoundTrip
import CheetahMedia.Codec.Rtp.PayloadType
import CheetahMedia.Codec.Rtp.Packetize
import CheetahMedia.Codec.SortingWindow
import CheetahMedia.Codec.FrameView
import CheetahMedia.Processing.Semaphore
import CheetahMedia.Rtp.Core
import CheetahMedia.Rtp.Core.Command
import CheetahMedia.Rtp.Core.Evolution
import CheetahMedia.Rtp.Core.Steps
import CheetahMedia.Rtp.Core.Egress
import CheetahMedia.Rtp.Core.Update
import CheetahMedia.Rtsp.Sdp.RoundTrip
import CheetahMedia.Lib.Words
import CheetahMedia.Lib.Tiling
import CheetahMedia.Hls.VttMux
import CheetahMedia.Lib.PathBuf
import CheetahMedia.Record.OutputPath
import CheetahMedia.Lib.Double
import CheetahMedia.Hls.Playlist
import CheetahMedia.Hls.TrackMuxer
import CheetahMedia.Hls.DemuxedMuxer
import CheetahMedia.Hls.Blocking
import CheetahMedia.Lib.IpAddr
import CheetahMedia.Webhook.Security
import CheetahMedia.Proxy.Ssrf
import CheetahMedia.Proxy.Filters
import CheetahMedia.Webhook.Dispatcher
import CheetahMedia.Webhook.Policy
import CheetahMedia.Codec.Mp4.Playthrough
