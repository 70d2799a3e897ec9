import CppSocks.Foundation.Act
import CppSocks.Foundation.BigEndian
import CppSocks.Foundation.Broadcast
import CppSocks.Foundation.Framing
import CppSocks.Foundation.Ledger
import CppSocks.Foundation.LexicalPath
import CppSocks.Foundation.Overwrite
import CppSocks.Foundation.Split
import CppSocks.Foundation.Transition
import CppSocks.Model.Types
import CppSocks.Model.ByteOrder
import CppSocks.Model.WebSocketFrame
import CppSocks.Model.Connection
import CppSocks.Model.RequestInfo
import CppSocks.Model.RequestPath
import CppSocks.Model.HttpHandler
import CppSocks.Model.FileStream
import CppSocks.Model.HttpStates
import CppSocks.Model.ClientWorker
import CppSocks.Model.SocketLoop
import CppSocks.Model.SharedConnection
import CppSocks.Model.Clients
import CppSocks.Model.PushServer
import CppSocks.Model.TcpServer
import CppSocks.Interface.Frame
import CppSocks.Interface.HeaderLine
import CppSocks.Interface.HttpResponse
import CppSocks.Interface.ResponseReader
import CppSocks.Interface.Lifecycle
import CppSocks.Interface.Receiver
import CppSocks.Interface.Sender
import CppSocks.Interface.Upgrade
import CppSocks.Interface.CounterStream
import CppSocks.Analysis.ByteOrderBijection
import CppSocks.Analysis.ConnectionLog
import CppSocks.Analysis.FrameDecode
import CppSocks.Analysis.FrameAccept
import CppSocks.Analysis.FrameEncode
import CppSocks.Analysis.FrameRead
import CppSocks.Analysis.FrameRoundTrip
import CppSocks.Analysis.DecodeBounds
import CppSocks.Analysis.ChunkOutcome
import CppSocks.Analysis.LoopPasses
import CppSocks.Analysis.ReceivedStream
import CppSocks.Analysis.Segmentation
import CppSocks.Analysis.Fragmentation
import CppSocks.Analysis.TextDelivery
import CppSocks.Analysis.ControlFrames
import CppSocks.Analysis.MalformedChunks
import CppSocks.Analysis.MessageLeak
import CppSocks.Analysis.WebSocketState
import CppSocks.Analysis.Pairing
import CppSocks.Analysis.SentStream
import CppSocks.Analysis.ExactDelivery
import CppSocks.Analysis.SharedStream
import CppSocks.Analysis.StateMachine
import CppSocks.Analysis.RequestBuffer
import CppSocks.Analysis.RequestDispatch
import CppSocks.Analysis.RequestSegmentation
import CppSocks.Analysis.RequestPath
import CppSocks.Analysis.RequestLine
import CppSocks.Analysis.RequestHeaders
import CppSocks.Analysis.UpgradeRequest
import CppSocks.Analysis.Handshake
import CppSocks.Analysis.StaticFiles
import CppSocks.Analysis.ResponseComplete
import CppSocks.Analysis.FileStreaming
import CppSocks.Analysis.Isolation
import CppSocks.Analysis.ServeSteps
import CppSocks.Analysis.SocketClosing
import CppSocks.Analysis.WorkerJoining
import CppSocks.Analysis.Admission
import CppSocks.Analysis.PushSteps
import CppSocks.Analysis.PushRegistry
import CppSocks.Analysis.PushLifetime
import CppSocks.Analysis.PushDelivery
import CppSocks.Analysis.PushWire
import CppSocks.Analysis.PushShutdown
import CppSocks.Analysis.PushListener
import CppSocks.Model.ExampleHandlers
import CppSocks.Analysis.WorkerSession
import CppSocks.Analysis.TcpEcho
import CppSocks.Analysis.RequestAnswer
import CppSocks.Analysis.ExampleServers
import CppSocks.Analysis.FrameSession
import CppSocks.Analysis.EchoSession
import CppSocks.Analysis.PlainClients
import CppSocks.Model.PosixSockets
import CppSocks.Analysis.PosixDescriptors
import CppSocks.Analysis.ListenSocketReady
