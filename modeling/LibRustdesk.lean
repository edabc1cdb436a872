import LibRustdesk.Framework.Machine
import LibRustdesk.Framework.Indexed
import LibRustdesk.Framework.LittleEndian
import LibRustdesk.Net.BytesCodec
import LibRustdesk.Net.Encrypt
import LibRustdesk.Framework.Json
import LibRustdesk.Bridge.Events
import LibRustdesk.Framework.Table
import LibRustdesk.Ohos.Password
import LibRustdesk.Ohos.Server
import LibRustdesk.Ohos.Connection
import LibRustdesk.Ohos.Authorization
import LibRustdesk.Ohos.Replacement
import LibRustdesk.Framework.SyncChannel
import LibRustdesk.Framework.Keyed
import LibRustdesk.Common.Compress
import LibRustdesk.Terminal.OutputBuffer
import LibRustdesk.Terminal.Session
import LibRustdesk.Terminal.Delivery
import LibRustdesk.Terminal.Replay
import LibRustdesk.Framework.FileSystem
import LibRustdesk.FileTransfer.Paths
import LibRustdesk.FileTransfer.Job
import LibRustdesk.FileTransfer.Receive
import LibRustdesk.FileTransfer.Landing
import LibRustdesk.FileTransfer.Finals
import LibRustdesk.Server.LoginFailures
import LibRustdesk.Clipboard.ServFiles
import LibRustdesk.Clipboard.Serving
import LibRustdesk.Clipboard.Requests
import LibRustdesk.Net.Handshake
import LibRustdesk.Net.Agreement
import LibRustdesk.Server.Messages
import LibRustdesk.Server.Services
import LibRustdesk.Server.Connection
import LibRustdesk.Client.Options
import LibRustdesk.Client.OptionSync
import LibRustdesk.Server.Login
import LibRustdesk.Server.OnMessage
import LibRustdesk.Server.Frame
import LibRustdesk.Server.Moves
import LibRustdesk.Server.TwoFactor
import LibRustdesk.Server.Identity
import LibRustdesk.Server.Granted
import LibRustdesk.Server.Capabilities
import LibRustdesk.Ohos.Utf8
import LibRustdesk.Ohos.Storage
import LibRustdesk.Ohos.Sealing
import LibRustdesk.Ohos.PermanentPassword
import LibRustdesk.FileTransfer.Read
import LibRustdesk.FileTransfer.Digest
import LibRustdesk.FileTransfer.Resume
import LibRustdesk.Clipboard.Proto
import LibRustdesk.Terminal.Helper
import LibRustdesk.Net.WebSocket
import LibRustdesk.Framework.Utf16
import LibRustdesk.Clipboard.Descriptor
import LibRustdesk.Clipboard.Lexical
import LibRustdesk.Clipboard.Paste
import LibRustdesk.Clipboard.Contained
import LibRustdesk.Framework.AddedFiles
import LibRustdesk.Clipboard.Download
import LibRustdesk.Clipboard.NextFile
import LibRustdesk.Clipboard.Delivered
import LibRustdesk.Video.Codec
import LibRustdesk.Video.Setup
import LibRustdesk.Video.Frames
import LibRustdesk.Ohos.Rendezvous
import LibRustdesk.Clipboard.Fuse
import LibRustdesk.Framework.Staging
import LibRustdesk.FileTransfer.Directory
import LibRustdesk.Framework.Utf8
import LibRustdesk.Terminal.Utf8Chunks
import LibRustdesk.Terminal.OutputLines
import LibRustdesk.Portable.BinReader
import LibRustdesk.Keyboard.Grab
import LibRustdesk.Keyboard.HeldKeys
import LibRustdesk.Server.PrivacyMode
import LibRustdesk.Clipboard.Answers
import LibRustdesk.Server.Desk
import LibRustdesk.Server.Subscriptions
import LibRustdesk.Server.SwitchPermission
import LibRustdesk.Server.FileMessages
import LibRustdesk.Server.PrintJobs
import LibRustdesk.Server.PrintOnce
import LibRustdesk.Server.FilesUntouched
import LibRustdesk.Client.Reconnect
import LibRustdesk.Net.AddrMangle
import LibRustdesk.Common.OnTheWire
import LibRustdesk.Server.OsCredentials
import LibRustdesk.Framework.KeyedMap
import LibRustdesk.Server.ServiceTmpl
import LibRustdesk.FileTransfer.InRange
import LibRustdesk.Ohos.FileLogin
import LibRustdesk.Ohos.PasswordProof
import LibRustdesk.Framework.SealOnce
import LibRustdesk.Ohos.StoredSecret
import LibRustdesk.FileTransfer.WindowsPath
import LibRustdesk.FileTransfer.WindowsPrefix
import LibRustdesk.FileTransfer.WindowsJoin
import LibRustdesk.FileTransfer.Containment
import LibRustdesk.Server.SendingJob
import LibRustdesk.Terminal.Reopen
import LibRustdesk.Terminal.Redraw
import LibRustdesk.Server.CmReadJobs
import LibRustdesk.Server.ErrorNumbers
import LibRustdesk.Server.ReadConfirm
import LibRustdesk.Framework.Latest
import LibRustdesk.Bridge.Frames
import LibRustdesk.Client.FileJobs
import LibRustdesk.Bridge.FileOps
import LibRustdesk.Bridge.SendFiles
import LibRustdesk.Framework.Pieces
import LibRustdesk.Common.Version
import LibRustdesk.Framework.Float32
import LibRustdesk.Server.VideoQos
import LibRustdesk.Server.QosBounds
import LibRustdesk.Server.QosBands
import LibRustdesk.Common.Config
import LibRustdesk.Common.ConfigOptions
import LibRustdesk.Server.RemoveLog
import LibRustdesk.Framework.OneTime
import LibRustdesk.Server.SwitchSides
import LibRustdesk.Server.CaptureDisplays
import LibRustdesk.Server.Modifiers
import LibRustdesk.Common.AddressBook
import LibRustdesk.Server.TemporaryPassword
import LibRustdesk.Framework.Base64
import LibRustdesk.Common.PeerFiles
import LibRustdesk.Ohos.StoredConfigs
import LibRustdesk.Net.Switching
import LibRustdesk.Net.Duplex
import LibRustdesk.Server.Tunnel
import LibRustdesk.Server.PortForward
import LibRustdesk.Server.Forwarded
import LibRustdesk.Framework.ChildLists
import LibRustdesk.Clipboard.Tree
import LibRustdesk.Clipboard.WriteTimes
import LibRustdesk.Framework.DepthFirst
import LibRustdesk.Clipboard.CopiedFiles
import LibRustdesk.Framework.Regex
import LibRustdesk.Net.HostPort
import LibRustdesk.Video.FrameFetched
import LibRustdesk.Video.PixelBuffer
import LibRustdesk.Video.Screenshots
import LibRustdesk.Server.LegacyKeys
import LibRustdesk.Framework.Stretch
import LibRustdesk.Video.Recorder
import LibRustdesk.Framework.Dialogue
import LibRustdesk.Server.JobDialogue
import LibRustdesk.Server.SameReads
import LibRustdesk.Framework.RunLength
import LibRustdesk.Portable.Counters
import LibRustdesk.Clipboard.Listener
import LibRustdesk.Clipboard.ClientLoop
import LibRustdesk.Portable.Launch
import LibRustdesk.Portable.Frames
import LibRustdesk.Net.CheckWs
import LibRustdesk.Net.AddrText
import LibRustdesk.Framework.PercentEncoding
import LibRustdesk.Net.Proxy
import LibRustdesk.Framework.Lowercase
import LibRustdesk.Common.CustomServer
import LibRustdesk.Client.AudioBuffer
import LibRustdesk.Server.DisplaySync
import LibRustdesk.Server.VirtualDisplays
import LibRustdesk.Net.WebRtcSessions
import LibRustdesk.Net.LanPeers
import LibRustdesk.Video.RecordUpload
import LibRustdesk.Client.PortForwards
import LibRustdesk.Common.Downloader
