import Glopfile.EventMachine
import Glopfile.Simulation
import Glopfile.Segments
import Glopfile.Backoff
import Glopfile.HeaderText
import Glopfile.UnixPath
import Glopfile.Varint
import Glopfile.Base64
import Glopfile.Whatwg.PercentEncode
import Glopfile.Whatwg.Url
import Glopfile.Whatwg.Accepted
import Glopfile.Whatwg.Serialized
import Glopfile.Relay.Session
import Glopfile.Relay.SessionId
import Glopfile.Relay.Range
import Glopfile.Relay.Operations
import Glopfile.Relay.Commands
import Glopfile.Relay.Positions
import Glopfile.Relay.StartUpload
import Glopfile.Relay.StreamIntegrity
import Glopfile.Relay.Finishing
import Glopfile.Relay.Replies
import Glopfile.Relay.System
import Glopfile.Relay.SystemSteps
import Glopfile.Relay.Connections
import Glopfile.Relay.Uploads
import Glopfile.Relay.Signaling
import Glopfile.Relay.ReplacedPeers
import Glopfile.Relay.PositionBounds
import Glopfile.Relay.Storage
import Glopfile.Relay.PendingCall
import Glopfile.Relay.SpuriousConflict
import Glopfile.Relay.UploadLoop
import Glopfile.Relay.UploadCalls
import Glopfile.Relay.ChunksUnderWay
import Glopfile.Relay.UploadAnswers
import Glopfile.Relay.UploadHandler
import Glopfile.Relay.EndedSessions
import Glopfile.Relay.DeclaredRange
import Glopfile.Relay.RangeGrammar
import Glopfile.Relay.Sockets
import Glopfile.Relay.RelayLoop
import Glopfile.Relay.Node
import Glopfile.Relay.NodeSteps
import Glopfile.Relay.Registry
import Glopfile.Relay.NodeRequests
import Glopfile.Api.Error
import Glopfile.Api.Retry
import Glopfile.Api.FileMeta
import Glopfile.Api.UploadFile
import Glopfile.Api.ServerErrors
import Glopfile.Client.DecryptedFile
import Glopfile.Client.FileCalls
import Glopfile.Client.NativeWebSocket
import Glopfile.Client.WebSocketClient
import Glopfile.Client.SignalingWebSocket
import Glopfile.Client.Downloader
import Glopfile.Client.RequestLoop
import Glopfile.Client.DownloaderSteps
import Glopfile.Client.Completion
import Glopfile.Client.RequestWindow
import Glopfile.Client.PoisonedFile
import Glopfile.Client.SharedBuffer
import Glopfile.Client.Outstanding
import Glopfile.Client.UploadState
import Glopfile.Client.DataRequest
import Glopfile.Client.AskedRanges
import Glopfile.Client.Transfer
import Glopfile.Client.UploaderClient
import Glopfile.Client.RequestTimeout
import Glopfile.Client.DownloadFile
import Glopfile.Client.DecryptFile
import Glopfile.Client.FallbackLoop
import Glopfile.Client.Progress
import Glopfile.Client.ProgressTotals
import Glopfile.Client.Cipher
import Glopfile.Client.SignalingCipher
import Glopfile.Client.UrlSafeBase64
import Glopfile.Client.WebUploadFile
import Glopfile.Client.WebDownloadFile
import Glopfile.Client.BrowserDownload
import Glopfile.Client.WebWebSocket
import Glopfile.Client.DownloadLink
import Glopfile.PeerToPeer.Client
import Glopfile.PeerToPeer.Events
import Glopfile.PeerToPeer.Signals
import Glopfile.PeerToPeer.Answers
import Glopfile.PeerToPeer.Negotiation
import Glopfile.PeerToPeer.Panics
import Glopfile.PeerToPeer.Inactivity
import Glopfile.PeerToPeer.Flush
import Glopfile.Client.ProvisionFile
