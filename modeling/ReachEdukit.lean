import ReachEdukit.Lib.Reassembly
import ReachEdukit.Rec.Mp4Record
import ReachEdukit.Rec.Pause
import ReachEdukit.Rtp.Loss
import ReachEdukit.Rtp.Bounds
import ReachEdukit.Lib.Slots
import ReachEdukit.Room.TimeQueue
import ReachEdukit.Lib.BitMask
import ReachEdukit.Room.Response
import ReachEdukit.Room.Encoders
import ReachEdukit.Room.Forward
import ReachEdukit.Room.Aggregate
import ReachEdukit.Room.AnsweredOnce
import ReachEdukit.Room.Record
import ReachEdukit.Rtp.Audio
import ReachEdukit.Lib.NalPayload
import ReachEdukit.Lives.RtpBuild
import ReachEdukit.Lib.Scan
import ReachEdukit.Rtsp.Request
import ReachEdukit.Rtsp.Contact
import ReachEdukit.Rtsp.Gate
import ReachEdukit.Lib.Custody
import ReachEdukit.Rtsp.Handles
import ReachEdukit.Receive.MediaFrame
import ReachEdukit.Receive.Bounds
import ReachEdukit.Receive.Resync
import ReachEdukit.Lib.Fifo
import ReachEdukit.Middle.RingBuff
import ReachEdukit.Lib.Chain
import ReachEdukit.Middle.Timer
import ReachEdukit.Lives.Users
import ReachEdukit.Lives.Subscription
import ReachEdukit.Lives.MediaBuffer
import ReachEdukit.Output.Client
import ReachEdukit.Output.Multicast
import ReachEdukit.Output.RtspSession
import ReachEdukit.Control.Timeout
import ReachEdukit.Lib.Turns
import ReachEdukit.Receive.FanOut
import ReachEdukit.Room.UpperRecv
import ReachEdukit.Rec.Listing
import ReachEdukit.Lib.Store
import ReachEdukit.Output.Ini
import ReachEdukit.Output.MulticastIni
import ReachEdukit.Output.RtspIni
import ReachEdukit.Rtp.Tick
import ReachEdukit.Lives.Datagram
import ReachEdukit.Rtp.Clock
import ReachEdukit.Lives.MediaClock
import ReachEdukit.Lives.MediaData
import ReachEdukit.Lib.Lines
import ReachEdukit.Lives.JpegCatchUp
import ReachEdukit.Lives.SoundPackets
import ReachEdukit.Receive.JumpClock
import ReachEdukit.Middle.TimerClock
import ReachEdukit.Middle.TimerCreate
import ReachEdukit.Control.RoomLookup
import ReachEdukit.Enc.SdpInfo
import ReachEdukit.Control.FileQue
import ReachEdukit.Enc.ClientFrames
import ReachEdukit.Rwini.IniFile
import ReachEdukit.Rwini.Entries
import ReachEdukit.Rwini.SetKey
import ReachEdukit.Rwini.Frame
import ReachEdukit.Rec.BlueScreen
import ReachEdukit.Lib.Loop
import ReachEdukit.Lib.Scanf
import ReachEdukit.Rec.RecordXml
import ReachEdukit.Enc.PptIndex
import ReachEdukit.Lib.XmlTree
import ReachEdukit.Recourse.RecourseList
import ReachEdukit.Rtsp.AuthorizationHeader
import ReachEdukit.Rtsp.SetupPorts
import ReachEdukit.Rtsp.TsClients
import ReachEdukit.Control.SessionEnd
import ReachEdukit.Control.SessionSockets
import ReachEdukit.Ftp.ScnDir
import ReachEdukit.Ftp.UploadQueue
import ReachEdukit.Lib.BlockHash
import ReachEdukit.Md5.Context
import ReachEdukit.Md5.Digest
import ReachEdukit.Rtsp.Login
import ReachEdukit.Rsa.Crypt
import ReachEdukit.Rsa.License
import ReachEdukit.Control.ParamsStore
