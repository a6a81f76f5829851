import SealedChat.Logging
import SealedChat.Service.Client
import SealedChat.Service.Listener
import SealedChat.Service.Server
import SealedChat.Wire.Run
import SealedChat.Proofs.Base64
import SealedChat.Proofs.Handshake.Message
import SealedChat.Proofs.Handshake.Steps
import SealedChat.Proofs.Handshake.Agreement
import SealedChat.Proofs.Bytes
import SealedChat.Proofs.Cipher.Aead
import SealedChat.Proofs.SessionCipher
import SealedChat.Proofs.SessionCipher.Delivery
import SealedChat.Proofs.Dialogue
import SealedChat.Proofs.Channel
import SealedChat.Proofs.Handshake.Respond
import SealedChat.Proofs.Handshake.Initiate
import SealedChat.Proofs.Transport
import SealedChat.Proofs.Dialogue.Converse
import SealedChat.Proofs.Line
import SealedChat.Proofs.Channel.Converse
import SealedChat.Proofs.Handshake.Honest
import SealedChat.Proofs.Session.Talk
import SealedChat.Proofs.Session.Life
import SealedChat.Proofs.SessionTable
import SealedChat.Proofs.Session.Identity
import SealedChat.Proofs.Server.Turn
import SealedChat.Proofs.Server.Sound
import SealedChat.Proofs.Server.Ownership
import SealedChat.Proofs.Peer.Exchange
import SealedChat.Proofs.Peer.Answer
import SealedChat.Proofs.Handshake.Codec
import SealedChat.Proofs.Channel.Layer
import SealedChat.Proofs.Intake
import SealedChat.Proofs.Channel.Transparent
import SealedChat.Proofs.Dialogue.Trace
import SealedChat.Proofs.Peer.Replay
import SealedChat.Proofs.Handshake.Course
import SealedChat.Proofs.Handshake.Relay
import SealedChat.Proofs.Channel.Disconnect
import SealedChat.Proofs.Server.Accounting
import SealedChat.Proofs.Dialogue.Lines
import SealedChat.Proofs.Session.Traffic
import SealedChat.Proofs.Client.Calls
import SealedChat.Proofs.Server.Serving
import SealedChat.Proofs.Handshake.Meeting
import SealedChat.Proofs.Client.Replies
import SealedChat.Proofs.Client.Agreement
import SealedChat.Proofs.SessionCipher.Nonces
import SealedChat.Proofs.SessionCipher.Inverse
import SealedChat.Proofs.SessionCipher.Positions
import SealedChat.Proofs.SealedBox.Exact
import SealedChat.Proofs.History
import SealedChat.Proofs.Handshake.Order
import SealedChat.Proofs.Dialogue.Open
import SealedChat.Proofs.Channel.Kept
import SealedChat.Proofs.Channel.Carry
import SealedChat.Proofs.Channel.Spent
import SealedChat.Proofs.Handshake.Kept
import SealedChat.Proofs.Session.Lifecycle
import SealedChat.Proofs.Dispatcher
import SealedChat.Proofs.Server.Requests
import SealedChat.Proofs.Handshake.Failure
import SealedChat.Proofs.SessionTable.Owners
import SealedChat.Proofs.Keys.Directory
import SealedChat.Proofs.Keys.Texts
import SealedChat.Proofs.Dialogue.Meets
import SealedChat.Proofs.Stack
import SealedChat.Proofs.Peer.Replies
import SealedChat.Proofs.Config.Files
import SealedChat.Proofs.Text.Blank
import SealedChat.Proofs.Base64.Stage
import SealedChat.Proofs.Server.Routing
import SealedChat.Proofs.Files.Above
import SealedChat.Proofs.Logging
import SealedChat.Proofs.Random.Source
import SealedChat.Proofs.Random.Values
import SealedChat.Proofs.Handshake.Carriers
