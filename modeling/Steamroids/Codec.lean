import Steamroids.Message

/-!
# Framing

The Connection Manager framing (`codec.rs`). A frame is a little-endian message word, a
little-endian header length, the encoded header and the body; the top bit of the message
word flags protobuf encoding.
-/

namespace Steamroids

/-- `u32::from_le_bytes` on the first four bytes of a string that has them. -/
def leWord : Bytes → UInt32
  | b₀ :: b₁ :: b₂ :: b₃ :: _ =>
      UInt32.ofNat (b₀.toNat + 256 * b₁.toNat + 65536 * b₂.toNat + 16777216 * b₃.toNat)
  | _ => 0

/-- Top bit of the message word: set when the payload is protobuf-encoded. -/
def protoMask : UInt32 := 0x80000000

/-- Every bit of the message word except the protobuf flag. -/
def emsgMask : UInt32 := 0x7fffffff

/-- Minimum frame size: the two `u32` words. -/
def prefixLen : Nat := 8

/-- `u32::to_le_bytes`. -/
def leBytes (w : UInt32) : Bytes :=
  [w.toUInt8, (w >>> 8).toUInt8, (w >>> 16).toUInt8, (w >>> 24).toUInt8]

/-- A frame around an already serialized header and body. -/
def encodeRaw (emsg : UInt32) (header body : Bytes) : Bytes :=
  leBytes ((emsg &&& emsgMask) ||| protoMask) ++ leBytes (UInt32.ofNat header.length) ++ header
    ++ body

/-- The parts of a frame after its two words are split off. -/
structure FrameParts where
  msgType : UInt32
  header : Bytes
  body : Bytes
  deriving DecidableEq, Repr

/-- Split a frame into its parts with the protobuf flag stripped from the message type.
`ok none` is a legacy non-protobuf frame. -/
def unframe (bytes : Bytes) : Except Error (Option FrameParts) :=
  if bytes.length < prefixLen then
    .error (.codec "frame shorter than 8-byte prefix")
  else
    let rawMsg := leWord bytes
    if rawMsg &&& protoMask = 0 then
      .ok none
    else
      let headerLen := (leWord (bytes.drop 4)).toNat
      let rest := bytes.drop prefixLen
      if rest.length < headerLen then
        .error (.codec ("header length " ++ toString headerLen ++ " exceeds "
          ++ toString rest.length ++ " remaining bytes"))
      else
        .ok (some
          { msgType := rawMsg &&& emsgMask
            header := rest.take headerLen
            body := rest.drop headerLen })

/-- Decode one frame into its `EMsg`, header and raw body; `ok none` for a legacy
non-protobuf message. -/
def tryDecode (P : Prost) (bytes : Bytes) : Except Error (Option SteamMessage) :=
  match unframe bytes with
  | .error e => .error e
  | .ok none => .ok none
  | .ok (some parts) =>
      match P.header parts.header with
      | .error e => .error (.codec ("decode header: " ++ e))
      | .ok header => .ok (some { emsg := parts.msgType, header, body := parts.body })

end Steamroids
