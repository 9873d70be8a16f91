import Mathlib.Algebra.Group.Nat.Defs
import Mathlib.Data.List.AList

/-!
# Messages, Errors and Session States

The data the session layer passes around: Steam messages and their routing header
(`codec.rs`), the crate's error type and Steam's `EResult` codes (`error.rs`), the
published session state (`session/state.rs`), and the commands that handles queue for
the driver (`session/driver.rs`).

Byte strings are lists of `UInt8`. A oneshot channel is named by a number (`Chan`): the
sender half is not cloneable, so the number stands for the one command that carries it.
Instants and durations count nanoseconds.

Protobuf decoding is prost's, and inflating is flate2's; neither is part of the
repository. They enter as the fields of `Prost`, a parameter of everything that reads
from the wire.
-/

namespace Steamroids

/-- A `Vec<u8>`. -/
abbrev Bytes := List UInt8

/-- The name of a oneshot channel. -/
abbrev Chan := Nat

/-- `Duration::from_secs`, in nanoseconds. -/
def fromSecs (n : Nat) : Nat := n * 1000000000

/-! ### Errors -/

/-- The crate-wide error type. Payloads of foreign error types are kept as the text they
display. -/
inductive Error
  | io (text : String)
  | invalidUrl (text : String)
  | urlParse (text : String)
  | invalidConfig (text : String)
  | socks5 (text : String)
  | httpConnect (text : String)
  | tls (text : String)
  | webSocket (text : String)
  | codec (text : String)
  | base64 (text : String)
  | hmacKey
  | network (text : String)
  | authRejected (text : String)
  | logonRetryable (text : String)
  | remote (text : String)
  | authRateLimited (text : String)
  | tokenStore (text : String)
  | invalidState (expected actual : String)
  | timeout (what : String)
  | notImplemented (what : String)
  deriving DecidableEq, Repr

/-- The `Display` form of an error, which is what `SessionState::Failed` reports. -/
def Error.display : Error → String
  | .io t => "io: " ++ t
  | .invalidUrl t => "invalid url: " ++ t
  | .urlParse t => "url parse: " ++ t
  | .invalidConfig t => "invalid config: " ++ t
  | .socks5 t => "socks5: " ++ t
  | .httpConnect t => "http connect: " ++ t
  | .tls t => "tls: " ++ t
  | .webSocket t => "websocket: " ++ t
  | .codec t => "codec: " ++ t
  | .base64 t => "base64: " ++ t
  | .hmacKey => "hmac: invalid key length"
  | .network t => "network: " ++ t
  | .authRejected t => "auth rejected: " ++ t
  | .logonRetryable t => "cm logon retryable: " ++ t
  | .remote t => "steam request failed: " ++ t
  | .authRateLimited t => "auth rate-limited: " ++ t
  | .tokenStore t => "token store: " ++ t
  | .invalidState e a => "invalid session state: expected " ++ e ++ ", was " ++ a
  | .timeout w => "timeout: " ++ w
  | .notImplemented w => "not implemented yet: " ++ w

/-- Whether an error is `Error::AuthRejected`, the one error that retrying cannot mend. -/
def Error.isAuthRejected : Error → Bool
  | .authRejected _ => true
  | _ => false

/-- A sequence of two fallible computations succeeds when both do. -/
theorem bind_eq_ok {α β : Type} {x : Except Error α} {f : α → Except Error β} {b : β} :
    x >>= f = .ok b ↔ ∃ a, x = .ok a ∧ f a = .ok b := by
  cases x with
  | error e => simp [bind, Except.bind]
  | ok a => simp [bind, Except.bind]

namespace EResult

/-- `EResult::OK`. -/
def ok : Int := 1
/-- `EResult::Fail`, the proto2 default of every `eresult` field. -/
def fail : Int := 2
/-- `EResult::NoConnection`. -/
def noConnection : Int := 3
/-- `EResult::Busy`. -/
def busy : Int := 10
/-- `EResult::Timeout`. -/
def timeout : Int := 16
/-- `EResult::ServiceUnavailable`. -/
def serviceUnavailable : Int := 20
/-- `EResult::TryAnotherCM`. -/
def tryAnotherCm : Int := 48
/-- `EResult::RateLimitExceeded`. -/
def rateLimitExceeded : Int := 84

end EResult

/-! ### Messages -/

/-- The fields of `CMsgProtoBufHeader` that the session layer reads or writes. -/
structure CMsgProtoBufHeader where
  steamid : Option UInt64 := none
  clientSessionid : Option Int := none
  jobidSource : Option UInt64 := none
  jobidTarget : Option UInt64 := none
  eresult : Option Int := none
  errorMessage : Option String := none
  deriving DecidableEq, Repr

/-- A decoded Steam message: its `EMsg` with the protobuf flag stripped, its routing
header and its still-encoded body. -/
structure SteamMessage where
  emsg : UInt32
  header : CMsgProtoBufHeader := {}
  body : Bytes := []
  deriving DecidableEq, Repr

/-- `CMsgMulti`. -/
structure CMsgMulti where
  sizeUnzipped : Option UInt32 := none
  messageBody : Option Bytes := none
  deriving DecidableEq, Repr

/-- `CMsgClientLoggedOff`. -/
structure CMsgClientLoggedOff where
  eresult : Option Int := none
  deriving DecidableEq, Repr

/-- The fields of `CMsgClientLogonResponse` that `logon` reads. -/
structure CMsgClientLogonResponse where
  eresult : Option Int := none
  heartbeatSeconds : Option Int := none
  deriving DecidableEq, Repr

/-- What the session layer uses of prost and flate2: the decoders of the messages it
reads, each failing with the text of its error, and the gzip stream of a byte string
(the bytes it yields in order, then the error it ends with, if it does not end
cleanly). -/
structure Prost where
  header : Bytes → Except String CMsgProtoBufHeader
  multi : Bytes → Except String CMsgMulti
  loggedOff : Bytes → Except String CMsgClientLoggedOff
  logonResponse : Bytes → Except String CMsgClientLogonResponse
  gzip : Bytes → Bytes × Option String

/-! ### Session state -/

/-- Where a session is in its lifecycle, as an observer sees it. `disconnected` and
`authenticating` are deprecated in the source and never emitted. -/
inductive SessionState
  | disconnected
  | connecting
  | authenticating
  | loggedOn (steamId : UInt64)
  | loggedOff (reason : String)
  | failed (error : String)
  deriving DecidableEq, Repr

/-- `true` while the session can perform application-level operations. -/
def SessionState.isReady : SessionState → Bool
  | .loggedOn _ => true
  | _ => false

/-! ### Commands -/

/-- What a handle queues for the driver. -/
inductive Command
  /-- Send and correlate a reply by job id, failing at `deadline`. -/
  | request (emsg : UInt32) (body : Bytes) (deadline : Nat) (reply : Chan)
  /-- Send with no reply expected; `ack` carries the write result. -/
  | notify (emsg : UInt32) (body : Bytes) (ack : Chan)
  /-- Tell Steam, then stop the driver. -/
  | logoff (ack : Chan)
  deriving DecidableEq, Repr

/-- The oneshot channel a command carries. -/
def Command.chan : Command → Chan
  | .request _ _ _ ch => ch
  | .notify _ _ ch => ch
  | .logoff ch => ch

/-- Whether a command is a `Request`. -/
def Command.isRequest : Command → Bool
  | .request .. => true
  | _ => false

end Steamroids
