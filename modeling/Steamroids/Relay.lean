import Steamroids.Driver
import Steamroids.Envelope
import Steamroids.Framing

/-!
# The GC Relay, Both Ways

A GC message is framed with the GC's header, put into a `CMsgGCClient`, and sent in a frame
with the CM's header (`gc/envelope.rs`). Taking the three layers off again gives back the app,
the type, the header and the body. The relay repeats the type with its flag, which is the first
word of the frame that it carries.

## Main results

* `Unwraps`: what becomes of a relay message.
* `gc_relay_round_trip`: the round trip, the relay's type, and the ways in which `unwrap` gives
  nothing.
-/

namespace Steamroids

namespace GcMessage

variable {G : GcProst}

/-- What becomes of a relay message. -/
inductive Unwraps (G : GcProst) (msg : SteamMessage) : Except Error (Option GcMessage) → Prop
  | envelope {e : String} : G.gcClient msg.body = .error e →
      Unwraps G msg (.error (.codec ("decode CMsgGCClient: " ++ e)))
  | frame {client : CMsgGcClient} {e : Error} : G.gcClient msg.body = .ok client →
      unframe (client.payload.getD []) = .error e → Unwraps G msg (.error e)
  | legacy {client : CMsgGcClient} : G.gcClient msg.body = .ok client →
      unframe (client.payload.getD []) = .ok none → Unwraps G msg (.ok none)
  | header {client : CMsgGcClient} {parts : FrameParts} {e : String} :
      G.gcClient msg.body = .ok client → unframe (client.payload.getD []) = .ok (some parts) →
      G.gcHeader parts.header = .error e →
      Unwraps G msg (.error (.codec ("decode GC header: " ++ e)))
  | proto {client : CMsgGcClient} {parts : FrameParts} {header : GcHeader} :
      G.gcClient msg.body = .ok client → unframe (client.payload.getD []) = .ok (some parts) →
      G.gcHeader parts.header = .ok header →
      Unwraps G msg (.ok (some
        { appid := client.appid.getD 0
          msgtype := parts.msgType
          header
          body := parts.body }))

/-- The inversion of `unwrap`. -/
theorem unwrap_unwraps (G : GcProst) (msg : SteamMessage) : Unwraps G msg (unwrap G msg) := by
  rw [unwrap]
  rcases hclient : G.gcClient msg.body with e | client
  · exact .envelope hclient
  · rcases hframe : unframe (client.payload.getD []) with e | _ | parts
    · simpa only [hframe] using .frame hclient hframe
    · simpa only [hframe] using .legacy hclient hframe
    · rcases hheader : G.gcHeader parts.header with e | header
      · simpa only [hframe, hheader] using .header hclient hframe hheader
      · simpa only [hframe, hheader] using .proto hclient hframe hheader

/-- A relay message is passed over as legacy exactly if its payload is. -/
theorem unwrap_eq_none {msg : SteamMessage} :
    unwrap G msg = .ok none ↔
      ∃ client, G.gcClient msg.body = .ok client ∧
        unframe (client.payload.getD []) = .ok none := by
  refine ⟨fun h => ?_, ?_⟩
  · have hres := unwrap_unwraps G msg
    rw [h] at hres
    cases hres with
    | legacy hclient hframe => exact ⟨_, hclient, hframe⟩
  · rintro ⟨client, hclient, hframe⟩
    simp only [unwrap, hclient, hframe]

/-- It is refused exactly if one of the three layers is. -/
theorem unwrap_eq_error {msg : SteamMessage} {e : Error} :
    unwrap G msg = .error e ↔
      (∃ text, G.gcClient msg.body = .error text ∧
        e = .codec ("decode CMsgGCClient: " ++ text)) ∨
      ∃ client, G.gcClient msg.body = .ok client ∧
        (unframe (client.payload.getD []) = .error e ∨
          ∃ parts text, unframe (client.payload.getD []) = .ok (some parts) ∧
            G.gcHeader parts.header = .error text ∧ e = .codec ("decode GC header: " ++ text)) := by
  refine ⟨fun h => ?_, ?_⟩
  · have hres := unwrap_unwraps G msg
    rw [h] at hres
    cases hres with
    | envelope hclient => exact .inl ⟨_, hclient, rfl⟩
    | frame hclient hframe => exact .inr ⟨_, hclient, .inl hframe⟩
    | header hclient hframe hheader => exact .inr ⟨_, hclient, .inr ⟨_, _, hframe, hheader, rfl⟩⟩
  · rintro (⟨text, hclient, rfl⟩ | ⟨client, hclient, hframe | ⟨parts, text, hframe, hheader, rfl⟩⟩)
    · simp only [unwrap, hclient]
    · simp only [unwrap, hclient, hframe]
    · simp only [unwrap, hclient, hframe, hheader]

/-- The relay's type is the first word of the payload. -/
theorem msgtype_wrap (appid msgtype : UInt32) (header : GcHeader) (body : Bytes) :
    (wrap G appid msgtype header body).msgtype =
      (wrap G appid msgtype header body).payload.map leWord := by
  simp only [wrap, encodeRaw, Option.map_some, List.append_assoc, leWord_leBytes, flagged_eq]

/-- Taking the relay and the GC frame off again. -/
theorem unwrap_wrap {msg : SteamMessage} {appid msgtype : UInt32} {header : GcHeader}
    {body : Bytes} (hbody : G.gcClient msg.body = .ok (wrap G appid msgtype header body))
    (hlen : (G.encodeGcHeader header).length < 2 ^ 32)
    (hheader : G.gcHeader (G.encodeGcHeader header) = .ok header) :
    unwrap G msg = .ok (some { appid, msgtype := msgtype &&& emsgMask, header, body }) := by
  have hframe : unframe ((wrap G appid msgtype header body).payload.getD []) =
      .ok (some ⟨msgtype &&& emsgMask, G.encodeGcHeader header, body⟩) :=
    unframe_encodeRaw msgtype body hlen
  simp only [unwrap, hbody, hframe, hheader]
  rfl

end GcMessage

/-- **The relay round trip.** A GC message that is wrapped, sent in a frame of the CM, decoded
and unwrapped is the same message, with the flag stripped from its type. The relay's type is
the first word of its payload. A relay message is legacy, or refused, exactly as its payload
is, or because its envelope or its header does not decode. -/
theorem gc_relay_round_trip (P : Prost) (G : GcProst) :
    (∀ (H : Wire CMsgProtoBufHeader) (W : Wire CMsgGcClient) (emsg appid msgtype : UInt32)
      (cmHeader : CMsgProtoBufHeader) (header : GcHeader) (body : Bytes),
      H.encodedLen cmHeader = (H.encode cmHeader).length → (H.encode cmHeader).length < 2 ^ 32 →
      P.header (H.encode cmHeader) = .ok cmHeader →
      (G.encodeGcHeader header).length < 2 ^ 32 →
      G.gcHeader (G.encodeGcHeader header) = .ok header →
      G.gcClient (W.encode (GcMessage.wrap G appid msgtype header body)) =
        .ok (GcMessage.wrap G appid msgtype header body) →
      ∃ msg, tryDecode P (Codec.encode H W emsg cmHeader
          (GcMessage.wrap G appid msgtype header body)) = .ok (some msg) ∧
        GcMessage.unwrap G msg =
          .ok (some { appid, msgtype := msgtype &&& emsgMask, header, body })) ∧
    (∀ (appid msgtype : UInt32) (header : GcHeader) (body : Bytes),
      (GcMessage.wrap G appid msgtype header body).msgtype =
        (GcMessage.wrap G appid msgtype header body).payload.map leWord) ∧
    ∀ msg : SteamMessage,
      (GcMessage.unwrap G msg = .ok none ↔
        ∃ client, G.gcClient msg.body = .ok client ∧
          unframe (client.payload.getD []) = .ok none) ∧
      ∀ e, GcMessage.unwrap G msg = .error e ↔
        (∃ text, G.gcClient msg.body = .error text ∧
          e = .codec ("decode CMsgGCClient: " ++ text)) ∨
        ∃ client, G.gcClient msg.body = .ok client ∧
          (unframe (client.payload.getD []) = .error e ∨
            ∃ parts text, unframe (client.payload.getD []) = .ok (some parts) ∧
              G.gcHeader parts.header = .error text ∧
              e = .codec ("decode GC header: " ++ text)) := by
  refine ⟨?_, GcMessage.msgtype_wrap, fun msg =>
    ⟨GcMessage.unwrap_eq_none, fun e => GcMessage.unwrap_eq_error⟩⟩
  intro H W emsg appid msgtype cmHeader header body hlen hlt hcm hgcLen hgc hclient
  have hframe := Codec.tryDecode_encode W emsg (GcMessage.wrap G appid msgtype header body) hlen
    hlt hcm
  exact ⟨_, hframe, GcMessage.unwrap_wrap hclient hgcLen hgc⟩

namespace Sample

/-- Prost on a CM header that is empty or holds a small `jobid_target`. -/
def headerWire : Wire CMsgProtoBufHeader where
  encodedLen header := if header.jobidTarget.isNone then 0 else 9
  encode header := header.jobidTarget.elim [] fun j => [0x59, j.toUInt8, 0, 0, 0, 0, 0, 0, 0]
  decode := prost.header

/-- Prost on the GC's header, which may hold a small `job_id_target`, and on the relay of a
short profile request to app 730. -/
def relayProst : GcProst where
  gcClient
    | 0x08 :: 0xda :: 0x05 :: 0x10 :: 0xa7 :: 0xc7 :: 0x80 :: 0x80 :: 0x08 :: 0x1a :: n ::
        payload =>
        if payload.length = n.toNat ∧ n < 0x80 then
          .ok { appid := some 730, msgtype := some (9127 ||| protoMask), payload := some payload }
        else .error "buffer underflow"
    | _ => .error "unexpected bytes"
  gcHeader
    | [] => .ok {}
    | [0x59, jobid, 0, 0, 0, 0, 0, 0, 0] => .ok { jobIdTarget := some jobid.toUInt64 }
    | _ => .error "unexpected bytes"
  connectionStatus _ := .error "unexpected bytes"
  encodeGcClient client :=
    let payload := client.payload.getD []
    [0x08, 0xda, 0x05, 0x10, 0xa7, 0xc7, 0x80, 0x80, 0x08, 0x1a, UInt8.ofNat payload.length] ++
      payload
  encodeGcHeader header :=
    header.jobIdTarget.elim [] fun j => [0x59, j.toUInt8, 0, 0, 0, 0, 0, 0, 0]
  encodeGamesPlayed _ := []
  encodeClientHello _ := []

/-- Prost on that relay. -/
def clientWire : Wire CMsgGcClient where
  encodedLen client := (relayProst.encodeGcClient client).length
  encode := relayProst.encodeGcClient
  decode := relayProst.gcClient

end Sample

/-- A profile request, wrapped and unwrapped. -/
theorem gc_relay_round_trip_request :
    ∃ msg, tryDecode Sample.prost
        (Codec.encode Sample.headerWire Sample.clientWire emsgClientToGc {} (GcMessage.wrap
          Sample.relayProst 730 9127 { jobIdTarget := some 99 } [1, 2, 3, 4])) =
          .ok (some msg) ∧
      GcMessage.unwrap Sample.relayProst msg =
        .ok (some
          { appid := 730, msgtype := 9127, header := { jobIdTarget := some 99 },
            body := [1, 2, 3, 4] }) :=
  (gc_relay_round_trip Sample.prost Sample.relayProst).1 Sample.headerWire Sample.clientWire
    emsgClientToGc 730 9127 {} { jobIdTarget := some 99 } [1, 2, 3, 4] rfl (by decide) rfl
    (by decide) rfl (by decide)

end Steamroids
