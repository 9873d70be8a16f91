import Steamroids.Establishing
import Steamroids.HttpClient
import Steamroids.HttpConnect
import Steamroids.ProxyUrl
import Steamroids.Timed

/-!
# Connecting, Act by Act

What `establish` does on the wire: it fetches the directory, and on one server after the other it
opens a socket (directly, through a SOCKS5 proxy, or through a tunnel of an HTTP proxy), wraps it
in TLS, upgrades it to a WebSocket (`connect_ws` in `transport/websocket.rs`), sends the logon and
waits for the answer. Almost every step has a deadline of its own, the steps through a proxy have
one together, and so has each server.

The functions are computations in time (`Timed`) whose acts are those on the wire. What the wire
answers to an act, and when, is arbitrary, and may depend on all that was done before (`Carrier`). A
stream is known by what it is made of: the boxed stream of the source is an `AsyncStream`, which
says to whom the socket goes and what is around it. The crates are parameters, and reqwest keeps
the timeout that it is built with.

Reading is waiting until what has arrived is enough for the reader, so the readers are those of
`HttpConnect` and of `Connection`.
-/

namespace Steamroids

open Buffered (Chunk Reader)
open Timed (Comp)

/-! ### Streams and acts -/

/-- A stream: a socket to an address or through a SOCKS5 proxy, TLS with a named peer, or the
tunnel to a target that an HTTP proxy gives at the other end of a stream. -/
inductive AsyncStream
  | tcp (addr : String)
  | socks5 (proxy : String × UInt16) (target : String)
  | tls (name : String) (inner : AsyncStream)
  | tunnel (target : String) (inner : AsyncStream)
  deriving DecidableEq, Repr

/-- `CMsgClientLogon`. -/
structure CMsgClientLogon where
  protocolVersion : Option UInt32
  clientPackageVersion : Option UInt32
  clientLanguage : Option String
  clientOsType : Option UInt32
  shouldRememberPassword : Option Bool
  accountName : Option String
  accessToken : Option String
  supportsRateLimitResponse : Option Bool
  deriving DecidableEq, Repr

/-- What is done on the wire. -/
inductive WireAct
  /-- An HTTP request is sent. -/
  | fetch (via : Option HttpProxy) (url : String) (query : List (String × String))
  /-- The body of the response is read. -/
  | body (via : Option HttpProxy)
  | dial (addr : String)
  | socks5 (proxy : String × UInt16) (target : String) (credentials : Option ProxyCredentials)
  | handshake (name : String) (stream : AsyncStream)
  | write (stream : AsyncStream) (request : String)
  /-- The reply of a proxy is read. -/
  | read (stream : AsyncStream)
  | upgrade (url : String) (stream : AsyncStream)
  | send (stream : AsyncStream) (emsg : UInt32) (header : CMsgProtoBufHeader)
      (logon : CMsgClientLogon)
  /-- Items are received from the WebSocket. -/
  | receive (stream : AsyncStream)
  deriving DecidableEq, Repr

/-- What arrives from a proxy. -/
inductive ReplyPart
  | chunk (c : Chunk UInt8)
  | closed
  | failed (e : String)
  deriving DecidableEq

/-- The reader over what has arrived, which keeps silent behind it. -/
def arrivedReader : List ReplyPart → Reader UInt8 String
  | [] => ⟨[], [], some .silent⟩
  | .chunk c :: rest => { arrivedReader rest with chunks := c :: (arrivedReader rest).chunks }
  | .closed :: _ => ⟨[], [], none⟩
  | .failed e :: _ => ⟨[], [], some (.failed e)⟩

/-- An answer, and how long it takes, or else none comes. It depends on the instant and on what was
done before. -/
abbrev Answer (α : Type) := Nat → List (Nat × WireAct) → Option (Nat × Except String α)

/-- The crates, and what the wire answers. -/
structure Carrier where
  json : DirectoryJson
  http : HttpCode
  url : UrlCrate
  base64 : String → String
  /-- `ServerName::try_from`. -/
  serverName : String → Except String Unit
  /-- `into_client_request`. -/
  clientRequest : String → Except String Unit
  /-- The error of reqwest after its timeout. -/
  fetchLate : String
  /-- The status of the response, and how it is displayed. -/
  response : Option HttpProxy → Answer (Nat × String)
  body : Option HttpProxy → Answer String
  dial : String → Answer Unit
  socks5 : String × UInt16 → String → Option ProxyCredentials → Answer Unit
  handshake : String → AsyncStream → Answer Unit
  write : AsyncStream → String → Answer Unit
  /-- What the proxy sends, each arrival with the time since the one before. -/
  reply : AsyncStream → Nat → List (Nat × WireAct) → List (Nat × ReplyPart)
  upgrade : String → AsyncStream → Answer Unit
  send : AsyncStream → Answer Unit
  items : AsyncStream → Nat → List (Nat × WireAct) → List (Nat × WsItem)

/-- Everything that is needed to establish a session. -/
structure SessionConfig where
  accountName : String
  refreshToken : String
  proxy : Option ProxyConfig

/-- A computation of the source. -/
abbrev Async := Comp WireAct Error

/-- An act, with the error that is made of a bad answer. -/
def ask {α : Type} (a : WireAct) (wrap : String → Error) (answer : Answer α) : Async α :=
  Timed.act a fun now log => (answer now log).map fun x => (x.1, x.2.mapError wrap)

/-- What will arrive. The waiting for it is apart. -/
def promise {χ : Type} (a : WireAct) (arrivals : Nat → List (Nat × WireAct) → List (Nat × χ)) :
    Async (List (Nat × χ)) :=
  Timed.act a fun now log => some (0, .ok (arrivals now log))

namespace Carrier

variable (C : Carrier)

/-! ### Through a proxy -/

/-- `PROXY_HANDSHAKE_TIMEOUT`: how long a proxy may take to answer. -/
def proxyHandshakeTimeout : Nat := fromSecs 30

/-- `connect_socks5`: a stream through a SOCKS5 proxy, within the handshake's time. -/
def connectSocks5 (proxy : ProxyConfig) (targetHost : String) (targetPort : UInt16) :
    Async AsyncStream := do
  let proxyAddr := (proxy.host, proxy.port)
  let targetAddr := authority targetHost targetPort
  Timed.timeout proxyHandshakeTimeout (.timeout "socks5 handshake")
    (ask (.socks5 proxyAddr targetAddr proxy.credentials) .socks5
      (C.socks5 proxyAddr targetAddr proxy.credentials))
  pure (.socks5 proxyAddr targetAddr)

/-- The leg to an HTTP proxy, in TLS if it is an https one. -/
def connectLeg (proxy : ProxyConfig) : Async AsyncStream := do
  let proxyAddr := authority proxy.host proxy.port
  Timed.timeout proxyHandshakeTimeout (.timeout "http connect tcp")
    (ask (.dial proxyAddr) .io (C.dial proxyAddr))
  if proxy.tlsToProxy then
    Timed.ofExcept ((C.serverName proxy.host).mapError fun e => .tls ("invalid proxy sni: " ++ e))
    Timed.timeout proxyHandshakeTimeout (.timeout "proxy tls handshake")
      (ask (.handshake proxy.host (.tcp proxyAddr)) .tls (C.handshake proxy.host (.tcp proxyAddr)))
    pure (.tls proxy.host (.tcp proxyAddr))
  else
    pure (.tcp proxyAddr)

/-- The reader has come to an end with what has arrived, unless it would have to wait. -/
def lookReply (seen : List ReplyPart) : Option (Except Error Unit) :=
  match readConnectReply (arrivedReader seen) with
  | .error (.timeout _) => none
  | r => some (r.map fun _ => ())

/-- Read the head of the reply, with one deadline for the status and the headers. Where the reader
waits at the deadline is seen from its error. -/
def readReply (leg : AsyncStream) : Async Unit := do
  let start ← Timed.instant
  let arrivals ← promise (.read leg) (C.reply leg)
  let late := readConnectReply (arrivedReader (Timed.seenBy proxyHandshakeTimeout arrivals))
  Timed.cutAt (start + proxyHandshakeTimeout) (late.map fun _ => ())
    (Timed.await lookReply arrivals)

/-- `connect_http`: a stream through an HTTP proxy, by a `CONNECT` request and its reply. -/
def connectHttp (proxy : ProxyConfig) (targetHost : String) (targetPort : UInt16) :
    Async AsyncStream := do
  let leg ← C.connectLeg proxy
  let target := authority targetHost targetPort
  let request := connectRequest C.base64 proxy target
  Timed.timeout proxyHandshakeTimeout (.timeout "http connect write")
    (ask (.write leg request) .io (C.write leg request))
  C.readReply leg
  pure (.tunnel target leg)

/-- A stream to the target through the proxy. -/
def connectViaProxy (proxy : ProxyConfig) (targetHost : String) (targetPort : UInt16) :
    Async AsyncStream :=
  match proxy.kind with
  | .socks5 => C.connectSocks5 proxy targetHost targetPort
  | .httpConnect => C.connectHttp proxy targetHost targetPort

/-! ### WebSockets -/

/-- `TCP_CONNECT_TIMEOUT`. -/
def tcpConnectTimeout : Nat := fromSecs 15

/-- `PROXY_CONNECT_TIMEOUT`, for the connection to the proxy and through it. -/
def proxyConnectTimeout : Nat := fromSecs 45

/-- `TLS_HANDSHAKE_TIMEOUT`. -/
def tlsHandshakeTimeout : Nat := fromSecs 15

/-- `WS_HANDSHAKE_TIMEOUT`. -/
def wsHandshakeTimeout : Nat := fromSecs 15

/-- The host and the port of a URL, and whether it asks for TLS. -/
def wsTarget (url : String) : Except Error (String × UInt16 × Bool) := do
  let parsed ← (C.url.parse url).mapError .urlParse
  let host ← (parsed.hostStr.elim (.error (.invalidUrl "ws url missing host")) .ok :
    Except Error String)
  let port ← ((C.url.portOrKnownDefault parsed).elim
    (.error (.invalidUrl "ws url missing port")) .ok : Except Error UInt16)
  if parsed.scheme = "wss" then
    .ok (unbracket host, port, true)
  else if parsed.scheme = "ws" then
    .ok (unbracket host, port, false)
  else
    .error (.invalidUrl ("unsupported ws scheme: " ++ parsed.scheme))

/-- The socket, from the proxy or direct. -/
def connectTcp (proxy : Option ProxyConfig) (host : String) (port : UInt16) : Async AsyncStream :=
  match proxy with
  | some p =>
      Timed.timeout proxyConnectTimeout (.timeout "proxy connect") (C.connectViaProxy p host port)
  | none => do
      let addr := authority host port
      Timed.timeout tcpConnectTimeout (.timeout "tcp connect") (ask (.dial addr) .io (C.dial addr))
      pure (.tcp addr)

/-- TLS, if it is asked for. -/
def wrapTls (host : String) (isWss : Bool) (tcp : AsyncStream) : Async AsyncStream :=
  if isWss then do
    Timed.ofExcept ((C.serverName host).mapError fun e => .tls ("invalid sni: " ++ e))
    Timed.timeout tlsHandshakeTimeout (.timeout "tls handshake")
      (ask (.handshake host tcp) .tls (C.handshake host tcp))
    pure (.tls host tcp)
  else
    pure tcp

/-- Open a WebSocket, optionally through a proxy. -/
def connectWs (url : String) (proxy : Option ProxyConfig) : Async AsyncStream := do
  let (host, port, isWss) ← Timed.ofExcept (C.wsTarget url)
  let tcp ← C.connectTcp proxy host port
  let stream ← C.wrapTls host isWss tcp
  Timed.ofExcept ((C.clientRequest url).mapError fun e => .webSocket ("bad request: " ++ e))
  Timed.timeout wsHandshakeTimeout (.timeout "ws handshake")
    (ask (.upgrade url stream) .webSocket (C.upgrade url stream))
  pure stream

/-! ### Logging on -/

/-- `k_EMsgClientLogon`. -/
def emsgClientLogon : UInt32 := 5514

/-- The logon of an account. -/
def clientLogon (accountName refreshToken : String) : CMsgClientLogon where
  protocolVersion := some 65580
  clientPackageVersion := some 1771
  clientLanguage := some "english"
  clientOsType := some 16
  shouldRememberPassword := some true
  accountName := some accountName
  accessToken := some refreshToken
  supportsRateLimitResponse := some true

/-- What the caller of a logon gets from it. -/
def logonOutcome (l : LogonEnd) : Except Error (CmConnection × LoggedOn) :=
  l.result.map fun c => ({ c.1 with inbox := l.inbox }, c.2)

/-- Log on over a new connection. -/
def logon (P : Prost) (ws : AsyncStream) (accountName refreshToken : String) :
    Async (CmConnection × LoggedOn) := do
  let conn := CmConnection.connect
  let header : CMsgProtoBufHeader :=
    { steamid := some conn.steamId, clientSessionid := some conn.sessionId }
  ask (.send ws emsgClientLogon header (clientLogon accountName refreshToken)) .webSocket
    (C.send ws)
  let items ← promise (.receive ws) (C.items ws)
  Timed.await (fun seen => (conn.logon P seen).map logonOutcome) items

/-! ### Establishing -/

/-- `CONNECT_ATTEMPT_TIMEOUT`, for one server. -/
def connectAttemptTimeout : Nat := fromSecs 20

/-- `DIRECTORY_URL`. -/
def directoryUrl : String := "https://api.steampowered.com/ISteamDirectory/GetCMListForConnect/v1/"

/-- The response of the directory. The timeout of the client is for all of it. -/
def fetchDirectory (via : Option HttpProxy) : Async (Except String DirectoryReply) := do
  let start ← Timed.instant
  let query := [("cmtype", "websockets"), ("format", "json"), ("cellid", "0")]
  let response ← Timed.withinAt (start + totalTimeout)
    (Timed.act (.fetch via directoryUrl query) (C.response via))
  match response.getD (.error C.fetchLate) with
  | .error e => pure (.error e)
  | .ok (status, statusText) => do
      let body ← Timed.withinAt (start + totalTimeout) (Timed.act (.body via) (C.body via))
      pure (.ok ⟨status, statusText, body.getD (.error C.fetchLate)⟩)

/-- `discover_cm_servers`: the servers that the directory lists. -/
def discoverCmServers (proxy : Option ProxyConfig) : Async (List CmServer) := do
  let via ← Timed.ofExcept (httpClient C.http proxy)
  let reply ← C.fetchDirectory via
  Timed.ofExcept (Steamroids.discoverCmServers C.json ⟨none, reply⟩)

/-- The `wss://` URL of a server. -/
def wsUrl (server : CmServer) : String := "wss://" ++ server.endpoint ++ "/cmsocket/"

variable (P : Prost) (config : SessionConfig)

/-- Connect to one server and log on. -/
def attempt (server : CmServer) : Async (CmConnection × LoggedOn) := do
  let ws ← C.connectWs (wsUrl server) config.proxy
  C.logon P ws config.accountName config.refreshToken

/-- The loop over the servers, with the last error. -/
def establishLoop (lastErr : Option Error) : List CmServer → Async (CmConnection × LoggedOn)
  | [] => Timed.ofExcept (.error (lastErr.getD (.network "no CM servers to connect to")))
  | server :: rest => do
      match ← Timed.within connectAttemptTimeout (C.attempt P config server) with
      | some (.ok c) => pure c
      | some (.error e) =>
          if e.isAuthRejected then Timed.ofExcept (.error e)
          else establishLoop (some e) rest
      | none => establishLoop (some (.timeout "cm connect attempt")) rest

/-- Discover a CM, connect (trying servers in turn), and log on. -/
def establish : Async (CmConnection × LoggedOn) := do
  let servers ← C.discoverCmServers config.proxy
  C.establishLoop P config none (servers.take maxConnectAttempts)

/-- The loop over the rounds, with the next backoff in seconds and the last error. -/
def resilientLoop (backoff : Nat) (lastErr : Error) :
    List Nat → Async (CmConnection × LoggedOn)
  | [] => Timed.ofExcept (.error lastErr)
  | attempt :: rest => do
      -- the whole of `establish` has no deadline, and its errors are values here
      match ← (C.establish P config).result with
      | .ok c => pure c
      | .error e =>
          if e.isAuthRejected then
            Timed.ofExcept (.error e)
          else if attempt < initialConnectAttempts then do
            Timed.sleep (fromSecs backoff)
            resilientLoop (min (backoff * 2) maxBackoff) e rest
          else
            resilientLoop backoff e rest

/-- Establish the initial connection, retrying transient failures with backoff. -/
def establishResilient : Async (CmConnection × LoggedOn) :=
  C.resilientLoop P config initialBackoff (.network "no connect attempt ran")
    (List.range' 1 initialConnectAttempts)

end Carrier

end Steamroids
