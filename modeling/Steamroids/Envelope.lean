import Steamroids.Codec

/-!
# The Game Coordinator Envelope

A Game Coordinator (`gc/envelope.rs`) is a per-app server behind Steam. Its messages use the
same framing as the Connection Manager's, with a header type of their own, and travel inside
a relay message that names the app.
-/

namespace Steamroids

/-- `k_EMsgClientToGC`. -/
def emsgClientToGc : UInt32 := 5452

/-- `k_EMsgClientFromGC`. -/
def emsgClientFromGc : UInt32 := 5453

/-- `k_EMsgGCClientWelcome`: the GC sends this once it is ready for requests. -/
def gcClientWelcome : UInt32 := 4004

/-- `k_EMsgGCClientHello`: what prompts a welcome. -/
def gcClientHello : UInt32 := 4006

/-- `k_EMsgGCClientConnectionStatus`: periodic GC reachability updates. -/
def gcClientConnectionStatus : UInt32 := 4009

/-- The GC's own `CMsgProtoBufHeader`. -/
structure GcHeader where
  clientSteamId : Option UInt64 := none
  clientSessionId : Option Int := none
  sourceAppId : Option UInt32 := none
  jobIdSource : Option UInt64 := none
  jobIdTarget : Option UInt64 := none
  targetJobName : Option String := none
  eresult : Option Int := none
  errorMessage : Option String := none
  ip : Option UInt32 := none
  gcMsgSrc : Option Int := none
  gcDirIndexSource : Option UInt32 := none
  deriving DecidableEq, Repr

/-- The fields of `CMsgGcClient` that the crate reads or writes. -/
structure CMsgGcClient where
  appid : Option UInt32 := none
  msgtype : Option UInt32 := none
  payload : Option Bytes := none
  deriving DecidableEq, Repr

/-- The field of `CMsgConnectionStatus` that the crate reads, an open proto2 enumeration. -/
structure CMsgConnectionStatus where
  status : Option Int := none
  deriving DecidableEq, Repr

/-- The field of `CMsgClientGamesPlayed.GamePlayed` that the crate writes. -/
structure GamePlayed where
  gameId : Option UInt64 := none
  deriving DecidableEq, Repr

/-- The field of `CMsgClientGamesPlayed` that the crate writes. -/
structure CMsgClientGamesPlayed where
  gamesPlayed : List GamePlayed := []
  deriving DecidableEq, Repr

/-- The fields of `CMsgClientHello` that the crate writes. -/
structure CMsgClientHello where
  version : Option UInt32 := none
  clientSessionNeed : Option UInt32 := none
  clientLauncher : Option UInt32 := none
  steamLauncher : Option UInt32 := none
  deriving DecidableEq, Repr

/-- What the GC layer uses of prost: its decoders, each failing with the text of its error,
and its encoders. -/
structure GcProst where
  gcClient : Bytes → Except String CMsgGcClient
  gcHeader : Bytes → Except String GcHeader
  connectionStatus : Bytes → Except String CMsgConnectionStatus
  encodeGcClient : CMsgGcClient → Bytes
  encodeGcHeader : GcHeader → Bytes
  encodeGamesPlayed : CMsgClientGamesPlayed → Bytes
  encodeClientHello : CMsgClientHello → Bytes

/-- A decoded Game Coordinator message. -/
structure GcMessage where
  appid : UInt32
  msgtype : UInt32
  header : GcHeader := {}
  body : Bytes := []
  deriving DecidableEq, Repr

/-- Wrap a GC message for sending as `k_EMsgClientToGC`. -/
def GcMessage.wrap (G : GcProst) (appid msgtype : UInt32) (header : GcHeader) (body : Bytes) :
    CMsgGcClient :=
  { appid := some appid
    msgtype := some (msgtype ||| protoMask)
    payload := some (encodeRaw msgtype (G.encodeGcHeader header) body) }

/-- Decode a `k_EMsgClientFromGC` message; `ok none` when the embedded message is a legacy
non-protobuf one. -/
def GcMessage.unwrap (G : GcProst) (msg : SteamMessage) : Except Error (Option GcMessage) :=
  match G.gcClient msg.body with
  | .error e => .error (.codec ("decode CMsgGCClient: " ++ e))
  | .ok client =>
      match unframe (client.payload.getD []) with
      | .error e => .error e
      | .ok none => .ok none
      | .ok (some parts) =>
          match G.gcHeader parts.header with
          | .error e => .error (.codec ("decode GC header: " ++ e))
          | .ok header =>
              .ok (some
                { appid := client.appid.getD 0
                  msgtype := parts.msgType
                  header
                  body := parts.body })

/-- Whether a `ClientConnectionStatus` body still reports a live GC session. An undecodable
body counts as none. -/
def hasGcSession (G : GcProst) (body : Bytes) : Bool :=
  match G.connectionStatus body with
  | .ok status => status.status.all (· == 0)
  | .error _ => false

end Steamroids
