import Steamroids.Attach
import Steamroids.Attempts
import Steamroids.Base64
import Steamroids.Base64Url
import Steamroids.Batches
import Steamroids.Binary32
import Steamroids.Buffered
import Steamroids.Calls
import Steamroids.Channel
import Steamroids.Clocked
import Steamroids.ConnectHead
import Steamroids.Conversation
import Steamroids.Coordinator
import Steamroids.Crowd
import Steamroids.Cs2
import Steamroids.Deadlines
import Steamroids.DialErrors
import Steamroids.DialRules
import Steamroids.Dialing
import Steamroids.Establishing
import Steamroids.Fairness
import Steamroids.Framing
import Steamroids.Friends
import Steamroids.Gating
import Steamroids.GcCalls
import Steamroids.GcRequests
import Steamroids.GcStream
import Steamroids.HandleCalls
import Steamroids.HandleResults
import Steamroids.Handles
import Steamroids.Hellos
import Steamroids.HostileBatches
import Steamroids.HttpClient
import Steamroids.HttpConnect
import Steamroids.Identity
import Steamroids.JobIds
import Steamroids.Jwt
import Steamroids.Keepalive
import Steamroids.Ledger
import Steamroids.Lifecycle
import Steamroids.Logoff
import Steamroids.Operations
import Steamroids.PasswordFlow
import Steamroids.PasswordRules
import Steamroids.PercentDecode
import Steamroids.Persona
import Steamroids.Polling
import Steamroids.Pool
import Steamroids.PostLogin
import Steamroids.ProxyDisplay
import Steamroids.Readiness
import Steamroids.RefreshTokens
import Steamroids.Relay
import Steamroids.Routing
import Steamroids.SessionStart
import Steamroids.Sha1
import Steamroids.SignIn
import Steamroids.Snapshots
import Steamroids.StoppedCalls
import Steamroids.Timed
import Steamroids.Timers
import Steamroids.TokenOrigin
import Steamroids.TokenStore
import Steamroids.Totp
import Steamroids.Utf8
import Steamroids.WaitingReplies
