import DvsServer.Lib.Run
import DvsServer.Lib.SlotTable
import DvsServer.Lib.Chunks
import DvsServer.Lib.Fifo
import DvsServer.Lib.FlagPatch
import DvsServer.Lib.Pairs
import DvsServer.Lib.RingBuffer
import DvsServer.Lib.Monitor
import DvsServer.Lib.Placement
import DvsServer.Lib.SerialNumber
import DvsServer.Lib.Cells
import DvsServer.Lib.Links
import DvsServer.Com.RtpSend
import DvsServer.Com.SessionID
import DvsServer.Core.Session
import DvsServer.Core.SessionSteps
import DvsServer.Core.SessionOps
import DvsServer.Core.SessionRun
import DvsServer.Core.Routing
import DvsServer.Core.Isolation
import DvsServer.Core.Entries
import DvsServer.Core.Orphan
import DvsServer.Core.AddSteps
import DvsServer.Core.Collision
import DvsServer.Core.SendDelete
import DvsServer.Core.SequentialSend
import DvsServer.Core.UseAfterDestroy
import DvsServer.Core.Clock
import DvsServer.Core.VideoEncode
import DvsServer.Core.Encoder
import DvsServer.Core.Replay
import DvsServer.Core.WholeFrames
import DvsServer.Core.FrameBounds
import DvsServer.Core.VideoRun
import DvsServer.Core.Pipeline
import DvsServer.Core.FrameContents
import DvsServer.Core.ThreadEnds
import DvsServer.Core.Shutdown
import DvsServer.Core.FifoClose
import DvsServer.Core.SubSession
import DvsServer.Core.AddClient
import DvsServer.Core.Ports
import DvsServer.Core.Deletion
import DvsServer.Core.TimeStamps
import DvsServer.Network.Command
import DvsServer.Network.ServerIf
import DvsServer.Network.Framing
import DvsServer.Network.OwnSlot
import DvsServer.Network.Connection
import DvsServer.Network.Listen
import DvsServer.Network.Teardown
import DvsServer.Network.WrongHeader
import DvsServer.Network.HangUp
import DvsServer.Network.Truthful
import DvsServer.Uart.Command
import DvsServer.Uart.Operate
import DvsServer.Uart.Service
import DvsServer.Uart.LineFormat
import DvsServer.Uart.Tty
import DvsServer.Uart.SerialParity
import DvsServer.Uart.SerialSettings
import DvsServer.Uart.PtzCommand
import DvsServer.Uart.Segmentation
import DvsServer.Uart.Listener
import DvsServer.Uart.Overload
import DvsServer.Uart.Numbering
import DvsServer.Uart.Stop
import DvsServer.Uart.Serial
import DvsServer.Osa.Que
import DvsServer.Osa.Sem
import DvsServer.Osa.Rendezvous
import DvsServer.Osa.Buf
import DvsServer.Osa.Mbx
import DvsServer.Ortp.Scheduler
import DvsServer.Ortp.Pacing
import DvsServer.Ortp.Rtp
import DvsServer.Ortp.Wire
import DvsServer.Ortp.Send
import DvsServer.Ortp.RtpMod
import DvsServer.Ortp.Receive
import DvsServer.Ortp.Delivery
import DvsServer.Ortp.Accounting
import DvsServer.Ortp.Rtcp
import DvsServer.Ortp.RtcpSend
import DvsServer.Ortp.LossReport
import DvsServer.Ortp.StrUtils
import DvsServer.Ortp.Blocks
import DvsServer.Ortp.Messages
import DvsServer.Ortp.MessageStore
import DvsServer.Ortp.Queue
import DvsServer.Core.WireStreams
import DvsServer.Core.EndToEnd
import DvsServer.Core.Scheduling
