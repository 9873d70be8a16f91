import Steamroids.DialErrors

/-!
# The Rules of Connecting

What can be said of one attempt to connect, on any wire, whatever it answers and however long it
takes, and wherever a deadline cuts the attempt off: which acts it makes, over which streams, and
how it ends. There is one lemma for each function of `Dialing`.

## Main results

* `meets_connectWs`: a WebSocket is over the route to its target.
* `meets_attempt`: an attempt keeps to the route, and is one of those of `Establishing`.
-/

namespace Steamroids

open Timed (Comp Meets EndsBy)

/-! ### Routes -/

/-- The address to which the socket under a stream goes. -/
def AsyncStream.peer : AsyncStream → String
  | .tcp addr => addr
  | .socks5 proxy _ => authority proxy.1 proxy.2
  | .tls _ inner => inner.peer
  | .tunnel _ inner => inner.peer

namespace Carrier

/-- The leg to an HTTP proxy. -/
def leg (p : ProxyConfig) : AsyncStream :=
  if p.tlsToProxy then .tls p.host (.tcp (authority p.host p.port))
  else .tcp (authority p.host p.port)

/-- The stream to a target, through the proxy if there is one. -/
def through (proxy : Option ProxyConfig) (host : String) (port : UInt16) : AsyncStream :=
  match proxy with
  | none => .tcp (authority host port)
  | some p =>
      match p.kind with
      | .socks5 => .socks5 (p.host, p.port) (authority host port)
      | .httpConnect => .tunnel (authority host port) (leg p)

/-- A stream to a target, in TLS if it is asked for. -/
def wsRoute (proxy : Option ProxyConfig) (target : String × UInt16 × Bool) : AsyncStream :=
  if target.2.2 then .tls target.1 (through proxy target.1 target.2.1)
  else through proxy target.1 target.2.1

/-- The socket of a leg goes to the proxy. -/
theorem peer_leg (p : ProxyConfig) : (leg p).peer = authority p.host p.port := by
  unfold leg
  split <;> rfl

/-- So does the socket of every stream through the proxy. -/
theorem peer_through (p : ProxyConfig) (host : String) (port : UInt16) :
    (through (some p) host port).peer = authority p.host p.port := by
  cases hkind : p.kind with
  | socks5 => simp only [through, hkind, AsyncStream.peer]
  | httpConnect => simp only [through, hkind, AsyncStream.peer, peer_leg]

end Carrier

/-- An act that keeps to the proxy, if there is one. What is secret of the proxy is for the proxy,
and a logon is sent over the route to a server that is allowed. -/
def WireAct.Discreet (C : Carrier) (proxy : Option ProxyConfig) (allowed : CmServer → Prop) :
    WireAct → Prop
  | .fetch via _ _ => via = proxy.map ProxyConfig.httpProxy
  | .body via => via = proxy.map ProxyConfig.httpProxy
  | .dial addr => ∀ p ∈ proxy, addr = authority p.host p.port
  | .socks5 q _ credentials => ∃ p ∈ proxy, q = (p.host, p.port) ∧ credentials = p.credentials
  | .handshake _ s => ∀ p ∈ proxy, s.peer = authority p.host p.port
  | .write s _ => ∃ p ∈ proxy, s = Carrier.leg p
  | .read s => ∃ p ∈ proxy, s = Carrier.leg p
  | .upgrade _ s => ∀ p ∈ proxy, s.peer = authority p.host p.port
  | .send s _ _ _ => ∃ server, allowed server ∧ ∃ target,
      C.wsTarget (Carrier.wsUrl server) = .ok target ∧ s = Carrier.wsRoute proxy target
  | .receive s => ∃ server, allowed server ∧ ∃ target,
      C.wsTarget (Carrier.wsUrl server) = .ok target ∧ s = Carrier.wsRoute proxy target

namespace Carrier

/-! ### Steps of a connection -/

/-- The deadlines of a WebSocket itself. -/
def wsTimeouts : Option ProxyConfig → List String
  | none => ["tcp connect", "tls handshake", "ws handshake"]
  | some _ => ["tls handshake", "ws handshake"]

/-- How a step of a connection ends that was begun at `since`: with a good value, or with an error
of the transport, which is a deadline of the proxy's handshake only after its time. -/
structure Fares {α : Type} (proxy : Option ProxyConfig) (since : Nat) (good : α → Prop) (t : Nat)
    (r : Except Error α) : Prop where
  ok : ∀ a, r = .ok a → good a
  error : Fails Error.OfTransport r
  late : ∀ w, r = .error (.timeout w) → w ∈ wsTimeouts proxy ∨ since + proxyHandshakeTimeout ≤ t

section Steps

variable {C : Carrier} {proxy : Option ProxyConfig} {allowed : CmServer → Prop}
  {now since t : Nat} {α β : Type} {good : α → Prop} {good' : β → Prop}

/-- A good value. -/
theorem fares_ok {a : α} (h : good a) : Fares proxy since good t (.ok a) where
  ok := by
    rintro a' ⟨⟩
    exact h
  error := fails_ok a
  late := by rintro w ⟨⟩

/-- An error of the transport that is not a timeout. -/
theorem fares_plain {e : Error} (h : e.OfTransport) (hplain : ∀ w, e ≠ .timeout w) :
    Fares proxy since good t (.error e) where
  ok := by rintro a' ⟨⟩
  error := fails_error h
  late := fun w hw => absurd (Except.error.inj hw) (hplain w)

/-- A deadline, of the WebSocket itself or after the time of the proxy's handshake. -/
theorem fares_timeout {what : String}
    (h : what ∈ wsTimeouts proxy ∨ since + proxyHandshakeTimeout ≤ t) :
    Fares proxy since good t (.error (.timeout what)) where
  ok := by rintro a' ⟨⟩
  error := fails_error ⟨.timeout what, rfl⟩
  late := by
    rintro w ⟨⟩
    exact h

/-- An error does not depend on what would be good. -/
theorem Fares.of_error {e : Error} (h : Fares proxy since good t (.error e)) :
    Fares proxy since good' t (.error e) where
  ok := by rintro a' ⟨⟩
  error := fails_error (h.error e rfl)
  late := fun w hw => h.late w (by rw [Except.error.inj hw])

/-- One step after the other. -/
theorem meets_step {does : WireAct → Prop} {m : Async α} {f : α → Async β}
    (h : Meets now does m (Fares proxy since good))
    (hf : ∀ t a, now ≤ t → good a → Meets t does (f a) (Fares proxy since good')) :
    Meets now does (m >>= f) (Fares proxy since good') :=
  h.bind (fun _ _ _ herror => herror.of_error) fun t a hnow hok => hf t a hnow (hok.ok a rfl)

/-- A good value that is at hand. -/
theorem meets_pure {does : WireAct → Prop} {a : α} (h : good a) :
    Meets now does (pure a : Async α) (Fares proxy since good) :=
  Timed.meets_ofExcept (fares_ok h)

/-- An act, and the error of a bad answer. -/
theorem meets_ask {does : WireAct → Prop} {a : WireAct} {wrap : String → Error}
    {answer : Answer α} (ha : does a) :
    Meets now does (ask a wrap answer) fun _ r => ∀ e, r = .error e → ∃ text, e = wrap text := by
  constructor
  · intro log x hx
    obtain rfl := List.mem_singleton.mp hx
    exact ha
  · rintro log t r hdone e rfl
    obtain ⟨x, hx, heq⟩ := Option.map_eq_some_iff.mp hdone
    obtain ⟨⟨d, _ | _⟩, -, rfl⟩ := Option.map_eq_some_iff.mp hx
    · exact ⟨_, (Except.error.inj (Prod.mk.inj heq).2).symm⟩
    · cases (Prod.mk.inj heq).2

/-- To wait for what arrives is one act, which does not fail. -/
theorem meets_promise {does : WireAct → Prop} {a : WireAct} {χ : Type}
    {arrivals : Nat → List (Nat × WireAct) → List (Nat × χ)} (ha : does a) :
    Meets now does (promise a arrivals) fun _ r => ∀ e, r ≠ .error e := by
  constructor
  · intro log x hx
    obtain rfl := List.mem_singleton.mp hx
    exact ha
  · rintro log t r ⟨⟩ e ⟨⟩

/-- An act whose bad answers are errors of the transport, with a deadline for it. -/
theorem meets_ask_timeout {does : WireAct → Prop} {a : WireAct} {wrap : String → Error} {d : Nat}
    {what : String} {answer : Answer Unit} (ha : does a)
    (hwrap : ∀ e, (wrap e).OfTransport ∧ ∀ w, wrap e ≠ .timeout w)
    (hlate : what ∈ wsTimeouts proxy ∨ since + proxyHandshakeTimeout ≤ now + d) :
    Meets now does (Timed.timeout d (.timeout what) (ask a wrap answer))
      (Fares proxy since fun _ => True) := by
  refine (meets_ask ha).timeout d (fun t r _ _ herror => ?_) (fares_timeout hlate)
  cases r with
  | error e =>
      obtain ⟨text, rfl⟩ := herror e rfl
      exact fares_plain (hwrap text).1 (hwrap text).2
  | ok u => exact fares_ok trivial

/-- A check of a crate. -/
theorem meets_check {does : WireAct → Prop} {wrap : String → Error} (x : Except String Unit)
    (hwrap : ∀ e, (wrap e).OfTransport ∧ ∀ w, wrap e ≠ .timeout w) :
    Meets now does (Timed.ofExcept (x.mapError wrap)) (Fares proxy since fun _ => True) := by
  refine Timed.meets_ofExcept ?_
  cases x with
  | error e => exact fares_plain (hwrap e).1 (hwrap e).2
  | ok u => exact fares_ok trivial

/-- An error of a socket. -/
theorem ofTransport_io (e : String) : (Error.io e).OfTransport ∧ ∀ w, Error.io e ≠ .timeout w :=
  ⟨⟨.io e, rfl⟩, by rintro w ⟨⟩⟩

/-- An error of a SOCKS5 proxy. -/
theorem ofTransport_socks5 (e : String) :
    (Error.socks5 e).OfTransport ∧ ∀ w, Error.socks5 e ≠ .timeout w :=
  ⟨⟨.socks5 e, rfl⟩, by rintro w ⟨⟩⟩

/-- An error of TLS. -/
theorem ofTransport_tls (e : String) : (Error.tls e).OfTransport ∧ ∀ w, Error.tls e ≠ .timeout w :=
  ⟨⟨.tls e, rfl⟩, by rintro w ⟨⟩⟩

/-- An error of a WebSocket. -/
theorem ofTransport_webSocket (e : String) :
    (Error.webSocket e).OfTransport ∧ ∀ w, Error.webSocket e ≠ .timeout w :=
  ⟨⟨.webSocket e, rfl⟩, by rintro w ⟨⟩⟩

/-! ### Through a proxy -/

variable {p : ProxyConfig} {host : String} {port : UInt16}

/-- A SOCKS5 proxy is asked for the route to the target. -/
theorem meets_connectSocks5 (hsince : since ≤ now) (hkind : p.kind = .socks5) :
    Meets now (WireAct.Discreet C (some p) allowed) (C.connectSocks5 p host port)
      (Fares (some p) since (· = through (some p) host port)) := by
  refine meets_step (meets_ask_timeout ⟨p, rfl, rfl, rfl⟩ ofTransport_socks5 (.inr ?_))
    fun t _ _ _ => ?_
  · exact Nat.add_le_add_right hsince _
  · refine meets_pure ?_
    simp only [through, hkind]

/-- The leg to an HTTP proxy goes to the proxy. -/
theorem meets_connectLeg (hsince : since ≤ now) :
    Meets now (WireAct.Discreet C (some p) allowed) (C.connectLeg p)
      (Fares (some p) since (· = leg p)) := by
  have hpeer : ∀ q ∈ some p, authority p.host p.port = authority q.host q.port := by
    rintro q ⟨⟩
    rfl
  refine meets_step (meets_ask_timeout hpeer ofTransport_io (.inr ?_)) fun t _ ht _ => ?_
  · exact Nat.add_le_add_right hsince _
  · unfold leg
    split
    · refine meets_step (meets_check _ fun e => ofTransport_tls _) fun t' _ ht' _ => ?_
      refine meets_step (meets_ask_timeout hpeer ofTransport_tls (.inr ?_)) fun _ _ _ _ =>
        meets_pure rfl
      exact Nat.add_le_add_right (hsince.trans (ht.trans ht')) _
    · exact meets_pure rfl

/-- A reply that is read to its end in time has no timeout in it. -/
theorem fares_lookReply {seen : List ReplyPart} {r : Except Error Unit}
    (h : lookReply seen = some r) : Fares proxy since (fun _ => True) t r := by
  have hfails := readConnectReply_fails (arrivedReader seen)
  unfold lookReply at h
  split at h
  · cases h
  · next hne =>
      obtain rfl := Option.some.inj h
      cases hr : readConnectReply (arrivedReader seen) with
      | error e => exact fares_plain (hfails e hr) fun w hw => hne w (hw ▸ hr)
      | ok reader => exact fares_ok trivial

/-- The reply is read from the leg, and in time. -/
theorem meets_readReply (hsince : since ≤ now) :
    Meets now (WireAct.Discreet C (some p) allowed) (C.readReply (leg p))
      (Fares (some p) since fun _ => True) := by
  refine Timed.meets_instant_bind ?_
  refine (meets_promise ⟨p, rfl, rfl⟩).bind ?_ ?_
  · intro t e _ h
    exact absurd rfl (h e)
  · intro t arrivals ht _
    have hawait : Meets t (WireAct.Discreet C (some p) allowed)
        (Timed.await lookReply arrivals : Async Unit) (Fares (some p) since fun _ => True) :=
      Timed.meets_await fun t seen r _ hlook _ => fares_lookReply hlook
    refine hawait.cutAt _ (fun _ _ _ _ h => h) ⟨fun _ _ => trivial, ?_, ?_⟩
    · exact (readConnectReply_fails _).map _
    · intro w _
      exact .inr ((Nat.add_le_add_right hsince _).trans (Nat.le_max_right _ _))

/-- An HTTP proxy is asked for the route to the target. -/
theorem meets_connectHttp (hsince : since ≤ now) (hkind : p.kind = .httpConnect) :
    Meets now (WireAct.Discreet C (some p) allowed) (C.connectHttp p host port)
      (Fares (some p) since (· = through (some p) host port)) := by
  refine meets_step (meets_connectLeg hsince) fun t s ht hs => ?_
  subst hs
  have hsince := hsince.trans ht
  refine meets_step (meets_ask_timeout ⟨p, rfl, rfl⟩ ofTransport_io (.inr ?_)) fun t' _ ht' _ => ?_
  · exact Nat.add_le_add_right hsince _
  · refine meets_step (meets_readReply (hsince.trans ht')) fun _ _ _ _ => meets_pure ?_
    simp only [through, hkind]

/-- A proxy of either kind is asked for the route to the target. -/
theorem meets_connectViaProxy (hsince : since ≤ now) :
    Meets now (WireAct.Discreet C (some p) allowed) (C.connectViaProxy p host port)
      (Fares (some p) since (· = through (some p) host port)) := by
  unfold connectViaProxy
  cases hkind : p.kind with
  | socks5 => exact meets_connectSocks5 hsince hkind
  | httpConnect => exact meets_connectHttp hsince hkind

/-! ### A WebSocket -/

/-- A socket is one to the target, or to the proxy. -/
theorem meets_connectTcp (hsince : since ≤ now) :
    Meets now (WireAct.Discreet C proxy allowed) (C.connectTcp proxy host port)
      (Fares proxy since (· = through proxy host port)) := by
  cases proxy with
  | some p =>
      refine (meets_connectViaProxy hsince).timeout _ (fun _ _ _ _ h => h) (fares_timeout (.inr ?_))
      exact Nat.add_le_add hsince (by decide)
  | none =>
      refine meets_step (meets_ask_timeout ?_ ofTransport_io (.inl (by decide))) fun _ _ _ _ =>
        meets_pure rfl
      rintro p ⟨⟩

/-- The socket of a route goes to the proxy, if there is one. -/
theorem peer_wsRoute (target : String × UInt16 × Bool) :
    ∀ p ∈ proxy, (wsRoute proxy target).peer = authority p.host p.port := by
  rintro p ⟨⟩
  unfold wsRoute
  split
  · exact peer_through p _ _
  · exact peer_through p _ _

/-- The deadline of TLS is one of the WebSocket itself. -/
theorem tls_mem_wsTimeouts : "tls handshake" ∈ wsTimeouts proxy := by
  cases proxy <;> simp [wsTimeouts]

/-- So is the deadline of the upgrade. -/
theorem ws_mem_wsTimeouts : "ws handshake" ∈ wsTimeouts proxy := by
  cases proxy <;> simp [wsTimeouts]

/-- TLS is put around a socket that is the route to the target. -/
theorem meets_wrapTls {isWss : Bool} :
    Meets now (WireAct.Discreet C proxy allowed) (C.wrapTls host isWss (through proxy host port))
      (Fares proxy since (· = wsRoute proxy (host, port, isWss))) := by
  unfold wrapTls wsRoute
  dsimp only
  split
  · refine meets_step (meets_check _ fun e => ofTransport_tls _) fun _ _ _ _ => ?_
    refine meets_step (meets_ask_timeout ?_ ofTransport_tls (.inl tls_mem_wsTimeouts))
      fun _ _ _ _ => meets_pure rfl
    rintro p ⟨⟩
    exact peer_through p _ _
  · exact meets_pure rfl

/-- A URL that cannot be dialled is an error of the transport, at once. -/
theorem wsTarget_fails (url : String) :
    Fails (fun e => e.OfTransport ∧ ∀ w, e ≠ .timeout w) (C.wsTarget url) := by
  have hurl (text : String) : (Error.invalidUrl text).OfTransport ∧
      ∀ w, Error.invalidUrl text ≠ .timeout w := ⟨⟨.invalidUrl text, rfl⟩, by rintro w ⟨⟩⟩
  unfold wsTarget
  refine Fails.bind ?_ fun parsed => Fails.bind ?_ fun host => Fails.bind ?_ fun port => ?_
  · cases C.url.parse url with
    | error e => exact fails_error ⟨⟨.urlParse e, rfl⟩, by rintro w ⟨⟩⟩
    | ok parsed => exact fails_ok _
  · cases parsed.hostStr with
    | none => exact fails_error (hurl _)
    | some host => exact fails_ok _
  · cases C.url.portOrKnownDefault parsed with
    | none => exact fails_error (hurl _)
    | some port => exact fails_ok _
  · split
    · exact fails_ok _
    · split
      · exact fails_ok _
      · exact fails_error (hurl _)

/-- The same, as the first step of a connection. -/
theorem wsTarget_fares (url : String) :
    Fares proxy since (fun target => C.wsTarget url = .ok target) t (C.wsTarget url) := by
  cases htarget : C.wsTarget url with
  | error e =>
      obtain ⟨htransport, hplain⟩ := wsTarget_fails url e htarget
      exact fares_plain htransport hplain
  | ok target => exact fares_ok rfl

/-- The URL of a server is a `wss` one, whatever its endpoint is. -/
theorem schemeOf_wsUrl (server : CmServer) : schemeOf (wsUrl server) = some "wss" := by
  have hchars : (wsUrl server).toList =
      "wss".toList ++ ':' :: ("//".toList ++ server.endpoint.toList ++ "/cmsocket/".toList) := by
    simp [wsUrl]
  have htrimmed : cleaned (wsUrl server).toList = "wss".toList ++
      ':' :: ("//".toList ++ server.endpoint.toList ++ "/cmsocket/".toList).filter fun c =>
        !(['\t', '\n', '\r'].contains c) := by
    rw [hchars]
    simp [cleaned, show ¬ 'w' ≤ ' ' by decide, show ¬ '/' ≤ ' ' by decide]
  have hsplit := @splitOnce_append ':' [] "wss".toList (by decide)
  rw [schemeOf, schemeAndRest, htrimmed, ← List.nil_append (List.filter _ _), hsplit]
  rfl

/-- The host and the port in a server's own `wss://` URL. -/
def ServerAt (C : Carrier) (server : CmServer) (host : String) (port : UInt16) : Prop :=
  ∃ parsed name, C.url.parse ("wss://" ++ server.endpoint ++ "/cmsocket/") = .ok parsed ∧
    parsed.hostStr = some name ∧ host = unbracket name ∧
    C.url.portOrKnownDefault parsed = some port

/-- The target of a server's URL asks for TLS, with the host and the port in it. -/
theorem wsTarget_wsUrl (hU : C.url.Standard) {server : CmServer}
    {target : String × UInt16 × Bool} (h : C.wsTarget (wsUrl server) = .ok target) :
    target.2.2 = true ∧ ServerAt C server target.1 target.2.1 := by
  obtain ⟨parsed, hparsed, h⟩ := bind_eq_ok.mp h
  obtain ⟨name, hname, h⟩ := bind_eq_ok.mp h
  obtain ⟨port, hport, h⟩ := bind_eq_ok.mp h
  have hparse : C.url.parse (wsUrl server) = .ok parsed := by
    cases hurl : C.url.parse (wsUrl server) with
    | error e =>
        rw [hurl] at hparsed
        cases hparsed
    | ok url =>
        rw [hurl] at hparsed
        obtain rfl : url = parsed := Except.ok.inj hparsed
        rfl
  have hscheme := hU.scheme _ _ hparse
  rw [schemeOf_wsUrl] at hscheme
  rw [if_pos (Option.some.inj hscheme).symm] at h
  obtain rfl := Except.ok.inj h
  refine ⟨rfl, parsed, name, hparse, ?_, rfl, ?_⟩
  · cases hhost : parsed.hostStr with
    | none => simp [hhost] at hname
    | some name' =>
        rw [hhost] at hname
        exact congrArg some (Except.ok.inj hname)
  · cases hdefault : C.url.portOrKnownDefault parsed with
    | none => simp [hdefault] at hport
    | some port' =>
        rw [hdefault] at hport
        exact congrArg some (Except.ok.inj hport)

/-- What is known of a new WebSocket: it is one over the route to its target. -/
theorem meets_connectWs (url : String) :
    Meets now (WireAct.Discreet C proxy allowed) (C.connectWs url proxy)
      (Fares proxy now fun s => ∃ target, C.wsTarget url = .ok target ∧
        s = wsRoute proxy target) := by
  refine meets_step (Timed.meets_ofExcept (wsTarget_fares url)) ?_
  rintro t₁ ⟨host, port, isWss⟩ ht₁ htarget
  refine meets_step (meets_connectTcp ht₁) ?_
  rintro t₂ tcp ht₂ rfl
  refine meets_step meets_wrapTls ?_
  rintro t₃ s ht₃ rfl
  refine meets_step (meets_check _ fun e => ofTransport_webSocket _) fun _ _ _ _ => ?_
  exact meets_step
    (meets_ask_timeout (peer_wsRoute _) ofTransport_webSocket (.inl ws_mem_wsTimeouts))
    fun _ _ _ _ => meets_pure ⟨_, htarget, rfl⟩

end Steps

/-! ### A logon -/

section Attempts

variable {C : Carrier} {P : Prost} {config : SessionConfig} {allowed : CmServer → Prop}
  {now : Nat}

/-- A logon is answered by the items that it has read. -/
theorem logon_used {conn : CmConnection} {items : List WsItem} {l : LogonEnd}
    (h : conn.logon P items = some l) :
    ∃ used, items = used ++ l.unread ∧ (conn.logon P used).isSome := by
  induction items with
  | nil => cases h
  | cons item items ih =>
      rcases hread : readMessage P [] item with ⟨inbox, _ | e | msg⟩
      · simp only [CmConnection.logon, hread] at h
        obtain ⟨used, rfl, hused⟩ := ih h
        exact ⟨item :: used, rfl, by simpa only [CmConnection.logon, hread] using hused⟩
      · simp only [CmConnection.logon, hread] at h
        obtain rfl := Option.some.inj h
        exact ⟨[item], rfl, by simp only [CmConnection.logon, hread, Option.isSome_some]⟩
      · rcases hin : conn.logonInbox P (msg :: inbox) with _ | ⟨r, rest⟩
        · simp only [CmConnection.logon, hread, hin] at h
          obtain ⟨used, rfl, hused⟩ := ih h
          exact ⟨item :: used, rfl, by simpa only [CmConnection.logon, hread, hin] using hused⟩
        · simp only [CmConnection.logon, hread, hin] at h
          obtain rfl := Option.some.inj h
          exact ⟨[item], rfl, by simp only [CmConnection.logon, hread, hin, Option.isSome_some]⟩

/-- A logon that has just been answered has read all that has arrived. -/
theorem unread_of_logon {conn : CmConnection} {items : List WsItem} {l : LogonEnd}
    (h : conn.logon P items = some l)
    (hbefore : ∀ before x after, items = before ++ x :: after → conn.logon P before = none) :
    l.unread = [] := by
  obtain ⟨used, hitems, hused⟩ := logon_used h
  cases hunread : l.unread with
  | nil => rfl
  | cons x after =>
      rw [hunread] at hitems
      rw [hbefore used x after hitems] at hused
      cases hused

/-- How an attempt on a server ends: as one of the attempts of `Establishing`, and not with a
deadline of the proxy's handshake before its time. -/
structure Attempted (P : Prost) (proxy : Option ProxyConfig) (since t : Nat)
    (r : Except Error (CmConnection × LoggedOn)) : Prop where
  attempt : ∃ a : ConnectAttempt P, a.done? = some r
  late : ∀ w, r = .error (.timeout w) → w ∈ wsTimeouts proxy ∨ since + proxyHandshakeTimeout ≤ t

/-- A logon is sent over the route that it is given, and ends as one of `Establishing`. -/
theorem meets_logon {ws : AsyncStream} {since : Nat} {accountName refreshToken : String}
    (hws : ∃ server, allowed server ∧ ∃ target, C.wsTarget (wsUrl server) = .ok target ∧
      ws = wsRoute config.proxy target) :
    Meets now (WireAct.Discreet C config.proxy allowed) (C.logon P ws accountName refreshToken)
      (Attempted P config.proxy since) := by
  refine (meets_ask hws).bind ?_ fun t _ _ _ => ?_
  · intro t e _ herror
    obtain ⟨text, rfl⟩ := herror e rfl
    exact ⟨⟨.sendFailed text, rfl⟩, by rintro w ⟨⟩⟩
  · refine (meets_promise hws).bind ?_ fun t items _ _ => Timed.meets_await ?_
    · intro t e _ h
      exact absurd rfl (h e)
    · intro t seen r _ hlook hbefore
      obtain ⟨l, hlogon, rfl⟩ := Option.map_eq_some_iff.mp hlook
      have hunread : l.unread = [] := by
        refine unread_of_logon hlogon fun before x after hseen => ?_
        exact Option.map_eq_none_iff.mp (hbefore before x after hseen)
      refine ⟨⟨.answered seen l hlogon hunread, rfl⟩, ?_⟩
      intro w hw
      rcases (logon_fails hlogon).map _ _ hw with ⟨_, h⟩ | ⟨_, h⟩ | ⟨_, h⟩ | ⟨_, h⟩ <;> cases h

/-- An attempt keeps to the route to its server, and is one of those of `Establishing`. -/
theorem meets_attempt {server : CmServer} (hserver : allowed server) :
    Meets now (WireAct.Discreet C config.proxy allowed) (C.attempt P config server)
      (Attempted P config.proxy now) := by
  refine (meets_connectWs (wsUrl server)).bind ?_ ?_
  · intro t e _ hfares
    obtain ⟨te, rfl⟩ := hfares.error e rfl
    refine ⟨⟨.connectFailed te, rfl⟩, ?_⟩
    intro w hw
    exact hfares.late w (congrArg _ (Except.error.inj hw))
  · intro t ws _ hfares
    exact meets_logon ⟨server, hserver, hfares.ok ws rfl⟩

end Attempts

end Carrier

end Steamroids
