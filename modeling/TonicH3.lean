import TonicH3.Slot
import TonicH3.H3
import TonicH3.SendGuard
import TonicH3.ClientBody
import TonicH3.ServerBody
import TonicH3.SendRequestInner
import TonicH3.ExchangeInvariant
import TonicH3.UploadCancellation
import TonicH3.RequestSender
import TonicH3.SenderInvariant
import TonicH3.SenderStates
import TonicH3.ConnectLedger
import TonicH3.Generations
import TonicH3.RetireOwnership
import TonicH3.ServeRequest
import TonicH3.Transport
import TonicH3.Truncation
import TonicH3.QuinnServer
import TonicH3.ServeInner
import TonicH3.BodySend
import TonicH3.BodyOutcome
import TonicH3.EagerUpload
import TonicH3.FrameMachine
import TonicH3.Connectors
import TonicH3.ReceiveHalf
import TonicH3.ClientUri
import TonicH3.BenchLoad
import TonicH3.H3Client
import TonicH3.S2nStream
import TonicH3.AcceptProgress
import TonicH3.FullDuplex
import TonicH3.Completion
import TonicH3.DriveLoad
