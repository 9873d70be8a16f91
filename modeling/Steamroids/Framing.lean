import Mathlib.Data.Set.Function
import Steamroids.Codec

/-!
# Framing, Both Ways

`codec.rs` writes a frame in two ways, from a message or from a body that is already
serialized, and reads one in three: `unframe` splits it, `try_decode` also decodes the header,
and `decode` refuses legacy frames. All five agree on one layout. Framing is a bijection onto
the frames that are accepted as protobuf, and every other byte string is refused or legacy, as
its length, its first bit and its declared header length say.

The readers index into the bytes. `unframe?` and `Codec.decode?` are the same functions with
every slice checked, and no check fails.

## Main results

* `unframe_encodeRaw`, `encodeRaw_of_unframe`: the two directions.
* `unframe_iff`: what becomes of a byte string.
* `bijOn_frame`: framing is a bijection.
* `unframe?_eq`, `Codec.decode?_eq`: no slice is out of range.
* `framing_bijective`: all of it.
-/

namespace Steamroids

/-! ### Little-endian words -/

/-- A word has four bytes. -/
@[simp] theorem length_leBytes (w : UInt32) : (leBytes w).length = 4 := rfl

/-- The value of a word, least byte first. -/
theorem toNat_leWord (b₀ b₁ b₂ b₃ : UInt8) (rest : Bytes) :
    (leWord (b₀ :: b₁ :: b₂ :: b₃ :: rest)).toNat =
      b₀.toNat + 256 * b₁.toNat + 65536 * b₂.toNat + 16777216 * b₃.toNat := by
  have h₀ := b₀.toNat_lt
  have h₁ := b₁.toNat_lt
  have h₂ := b₂.toNat_lt
  have h₃ := b₃.toNat_lt
  rw [leWord, UInt32.toNat_ofNat']
  omega

/-- Reading back a word that was written. -/
@[simp] theorem leWord_leBytes (w : UInt32) (rest : Bytes) : leWord (leBytes w ++ rest) = w := by
  have hw := w.toNat_lt
  rw [← UInt32.toNat_inj, leBytes, List.cons_append, List.cons_append, List.cons_append,
    List.cons_append, toNat_leWord]
  simp only [UInt32.toNat_toUInt8, UInt32.toNat_shiftRight, Nat.shiftRight_eq_div_pow,
    UInt32.reduceToNat, Nat.reduceMod, Nat.reducePow]
  omega

/-- Writing back a word that was read. -/
theorem leBytes_leWord {bytes : Bytes} (h : 4 ≤ bytes.length) :
    leBytes (leWord bytes) = bytes.take 4 := by
  match bytes, h with
  | b₀ :: b₁ :: b₂ :: b₃ :: rest, _ =>
      have h₀ := b₀.toNat_lt
      have h₁ := b₁.toNat_lt
      have h₂ := b₂.toNat_lt
      have h₃ := b₃.toNat_lt
      simp only [leBytes, List.take_succ_cons, List.take_zero, List.cons.injEq, and_true,
        ← UInt8.toNat_inj, UInt32.toNat_toUInt8, UInt32.toNat_shiftRight, toNat_leWord,
        Nat.shiftRight_eq_div_pow, UInt32.reduceToNat, Nat.reduceMod, Nat.reducePow]
      omega

/-! ### The protobuf flag -/

/-- The mask drops the flag. -/
theorem toNat_and_emsgMask (w : UInt32) : (w &&& emsgMask).toNat = w.toNat % 2 ^ 31 := by
  rw [UInt32.toNat_and, ← Nat.and_two_pow_sub_one_eq_mod]
  rfl

/-- A type without the flag is not changed by the mask. -/
theorem and_emsgMask_of_lt {w : UInt32} (h : w.toNat < 2 ^ 31) : w &&& emsgMask = w := by
  rw [← UInt32.toNat_inj, toNat_and_emsgMask, Nat.mod_eq_of_lt h]

/-- The message word of a frame. -/
theorem toNat_flagged (w : UInt32) :
    ((w &&& emsgMask) ||| protoMask).toNat = w.toNat % 2 ^ 31 + 2 ^ 31 := by
  have hlt : w.toNat % 2 ^ 31 < 2 ^ 31 := Nat.mod_lt _ (by decide)
  rw [UInt32.toNat_or, toNat_and_emsgMask, Nat.or_comm, Nat.add_comm]
  exact (Nat.two_pow_add_eq_or_of_lt hlt 1).symm

/-- A flag that is set anyway is not changed by the mask. -/
theorem flagged_eq (w : UInt32) : (w &&& emsgMask) ||| protoMask = w ||| protoMask := by
  have hlt : w.toNat ||| protoMask.toNat < 2 ^ 32 := Nat.or_lt_two_pow w.toNat_lt (by decide)
  rw [← UInt32.toNat_inj]
  calc ((w &&& emsgMask) ||| protoMask).toNat
    _ = (w.toNat ||| protoMask.toNat) &&& (2 ^ 32 - 1) := by
        rw [UInt32.toNat_or, UInt32.toNat_and, Nat.or_and_distrib_right]
        rfl
    _ = (w.toNat ||| protoMask.toNat) % 2 ^ 32 := Nat.and_two_pow_sub_one_eq_mod _ _
    _ = (w ||| protoMask).toNat := Nat.mod_eq_of_lt hlt

/-- The flag is the top bit. -/
theorem and_protoMask_eq_zero {w : UInt32} : w &&& protoMask = 0 ↔ w.toNat < 2 ^ 31 := by
  have hw := w.toNat_lt
  have hbits : ∀ i, (w &&& protoMask).toNat.testBit i = (w.toNat.testBit i && decide (31 = i)) := by
    intro i
    have hmask : protoMask.toNat = 2 ^ 31 := rfl
    rw [UInt32.toNat_and, Nat.testBit_and, hmask, Nat.testBit_two_pow]
  rw [← UInt32.toNat_inj]
  refine ⟨fun hzero => ?_, fun hlt => Nat.eq_of_testBit_eq fun i => ?_⟩
  · have htop := hbits 31
    rw [hzero, UInt32.toNat_zero, Nat.zero_testBit, decide_eq_true rfl, Bool.and_true,
      Nat.testBit_eq_decide_div_mod_eq] at htop
    have hdiv := of_decide_eq_false htop.symm
    omega
  · rw [hbits, UInt32.toNat_zero, Nat.zero_testBit]
    by_cases hi : 31 = i
    · rw [← hi, Nat.testBit_lt_two_pow hlt]
      rfl
    · rw [decide_eq_false hi, Bool.and_false]

/-! ### Splitting a frame -/

/-- The flag of the first word is set. -/
def isProto (bytes : Bytes) : Prop := 2 ^ 31 ≤ (leWord bytes).toNat

instance (bytes : Bytes) : Decidable (isProto bytes) := inferInstanceAs (Decidable (_ ≤ _))

/-- The header length that a frame declares. -/
def declaredLen (bytes : Bytes) : Nat := (leWord (bytes.drop 4)).toNat

/-- What becomes of a byte string. -/
inductive Unframes (bytes : Bytes) : Except Error (Option FrameParts) → Prop
  | short : bytes.length < prefixLen →
      Unframes bytes (.error (.codec "frame shorter than 8-byte prefix"))
  | legacy : prefixLen ≤ bytes.length → ¬ isProto bytes → Unframes bytes (.ok none)
  | overlong : prefixLen ≤ bytes.length → isProto bytes →
      bytes.length - prefixLen < declaredLen bytes →
      Unframes bytes (.error (.codec ("header length " ++ toString (declaredLen bytes) ++
        " exceeds " ++ toString (bytes.length - prefixLen) ++ " remaining bytes")))
  | proto : prefixLen ≤ bytes.length → isProto bytes →
      declaredLen bytes ≤ bytes.length - prefixLen →
      Unframes bytes (.ok (some
        { msgType := leWord bytes &&& emsgMask
          header := (bytes.drop prefixLen).take (declaredLen bytes)
          body := (bytes.drop prefixLen).drop (declaredLen bytes) }))

/-- The inversion of `unframe`. -/
theorem unframe_unframes (bytes : Bytes) : Unframes bytes (unframe bytes) := by
  simp only [unframe]
  split
  · exact .short ‹_›
  · rename_i hlen
    have hle : prefixLen ≤ bytes.length := Nat.le_of_not_lt hlen
    split
    · rename_i hflag
      exact .legacy hle (Nat.not_le.mpr (and_protoMask_eq_zero.mp hflag))
    · rename_i hflag
      have hproto : isProto bytes := Nat.le_of_not_lt fun h => hflag (and_protoMask_eq_zero.mpr h)
      rw [List.length_drop]
      split
      · exact .overlong hle hproto ‹_›
      · exact .proto hle hproto (Nat.le_of_not_lt ‹_›)

/-- What becomes of a byte string is settled by its length, its flag and the header length
that it declares. -/
theorem unframe_iff (bytes : Bytes) :
    ((∃ e, unframe bytes = .error e) ↔ bytes.length < prefixLen ∨
      isProto bytes ∧ bytes.length - prefixLen < declaredLen bytes) ∧
    (unframe bytes = .ok none ↔ prefixLen ≤ bytes.length ∧ ¬ isProto bytes) ∧
    ((∃ parts, unframe bytes = .ok (some parts)) ↔
      prefixLen ≤ bytes.length ∧ isProto bytes ∧ declaredLen bytes ≤ bytes.length - prefixLen) := by
  have hres := unframe_unframes bytes
  generalize unframe bytes = res at hres
  cases hres with
  | short hlt => simp [hlt, Nat.not_le.mpr hlt]
  | legacy hle hlegacy => simp [hle, hlegacy, Nat.not_lt.mpr hle]
  | overlong hle hproto hover => simp [hle, hproto, hover, Nat.not_le.mpr hover]
  | proto hle hproto hfits => simp [hle, hproto, hfits, Nat.not_lt.mpr hle]

/-- **A frame is split into what it was made of.** -/
theorem unframe_encodeRaw (emsg : UInt32) {header : Bytes} (body : Bytes)
    (h : header.length < 2 ^ 32) :
    unframe (encodeRaw emsg header body) = .ok (some ⟨emsg &&& emsgMask, header, body⟩) := by
  generalize hbytes : encodeRaw emsg header body = bytes
  have hsplit : bytes = leBytes ((emsg &&& emsgMask) ||| protoMask) ++
      (leBytes (UInt32.ofNat header.length) ++ (header ++ body)) := by
    rw [← hbytes, encodeRaw, List.append_assoc, List.append_assoc]
  have hword : leWord bytes = (emsg &&& emsgMask) ||| protoMask := by
    rw [hsplit, leWord_leBytes]
  have hdeclared : declaredLen bytes = header.length := by
    have hdrop : bytes.drop 4 = leBytes (UInt32.ofNat header.length) ++ (header ++ body) := by
      rw [hsplit]
      rfl
    rw [declaredLen, hdrop, leWord_leBytes, UInt32.toNat_ofNat', Nat.mod_eq_of_lt h]
  have hrest : bytes.drop prefixLen = header ++ body := by
    rw [hsplit]
    rfl
  have hlen : bytes.length = prefixLen + (header.length + body.length) := by
    rw [hsplit]
    simp only [List.length_append, length_leBytes, prefixLen]
    omega
  have hproto : isProto bytes := by
    rw [isProto, hword, toNat_flagged]
    exact Nat.le_add_left _ _
  have hmask : leWord bytes &&& emsgMask = emsg &&& emsgMask := by
    rw [← UInt32.toNat_inj, toNat_and_emsgMask, toNat_and_emsgMask, hword, toNat_flagged]
    omega
  have hres := unframe_unframes bytes
  generalize unframe bytes = res at hres
  cases hres with
  | short hshort => omega
  | legacy _ hlegacy => exact absurd hproto hlegacy
  | overlong _ _ hover => omega
  | proto _ _ _ =>
      rw [hmask, hdeclared, hrest, List.take_left, List.drop_left]

/-- The flag in the type that is passed is dropped. -/
example : unframe (encodeRaw (5514 ||| protoMask) [0x08, 0x01] [0x2a]) =
    .ok (some ⟨5514, [0x08, 0x01], [0x2a]⟩) := by
  decide

/-- **What a frame is split into makes the frame.** -/
theorem encodeRaw_of_unframe {bytes : Bytes} {parts : FrameParts}
    (h : unframe bytes = .ok (some parts)) :
    encodeRaw parts.msgType parts.header parts.body = bytes := by
  have hres := unframe_unframes bytes
  rw [h] at hres
  cases hres with
  | proto hle hproto hdeclared =>
      have hlen : prefixLen = 8 := rfl
      have hword : (leWord bytes &&& emsgMask &&& emsgMask) ||| protoMask = leWord bytes := by
        have hlt := (leWord bytes).toNat_lt
        rw [isProto] at hproto
        rw [← UInt32.toNat_inj, toNat_flagged, toNat_and_emsgMask]
        omega
      have hheader : ((bytes.drop prefixLen).take (declaredLen bytes)).length =
          declaredLen bytes := by
        rw [List.length_take, List.length_drop]
        omega
      have hdrop : 4 ≤ (bytes.drop 4).length := by
        rw [List.length_drop]
        omega
      calc encodeRaw (leWord bytes &&& emsgMask) ((bytes.drop prefixLen).take (declaredLen bytes))
            ((bytes.drop prefixLen).drop (declaredLen bytes))
        _ = bytes.take 4 ++ ((bytes.drop 4).take 4 ++ bytes.drop prefixLen) := by
            rw [encodeRaw, hword, hheader, declaredLen, UInt32.ofNat_toNat,
              leBytes_leWord (by omega), leBytes_leWord hdrop, List.append_assoc, List.append_assoc,
              List.take_append_drop]
        _ = bytes.take 4 ++ ((bytes.drop 4).take 4 ++ (bytes.drop 4).drop 4) := by
            rw [List.drop_drop, hlen]
        _ = bytes := by rw [List.take_append_drop, List.take_append_drop]

/-- The frame around these parts. -/
def FrameParts.frame (parts : FrameParts) : Bytes :=
  encodeRaw parts.msgType parts.header parts.body

/-- The parts fit into a frame: the type leaves room for the flag, and the header's length is
a word. -/
def FrameParts.Fits (parts : FrameParts) : Prop :=
  parts.msgType.toNat < 2 ^ 31 ∧ parts.header.length < 2 ^ 32

/-- What a frame is split into fits into a frame. -/
theorem fits_of_unframe {bytes : Bytes} {parts : FrameParts}
    (h : unframe bytes = .ok (some parts)) : parts.Fits := by
  have hres := unframe_unframes bytes
  rw [h] at hres
  cases hres with
  | proto _ _ _ =>
      refine ⟨?_, ?_⟩
      · rw [toNat_and_emsgMask]
        exact Nat.mod_lt _ (by decide)
      · exact Nat.lt_of_le_of_lt (List.length_take_le _ _) (leWord (bytes.drop 4)).toNat_lt

/-- Splitting undoes framing on the parts that fit. -/
theorem unframe_frame {parts : FrameParts} (h : parts.Fits) :
    unframe parts.frame = .ok (some parts) := by
  rw [FrameParts.frame, unframe_encodeRaw _ _ h.2, and_emsgMask_of_lt h.1]

/-- **Framing is a bijection** from the parts that fit onto the frames that are accepted. -/
theorem bijOn_frame :
    Set.BijOn FrameParts.frame {parts | parts.Fits}
      {bytes | ∃ parts, unframe bytes = .ok (some parts)} := by
  refine ⟨?_, ?_, ?_⟩
  · intro parts hparts
    exact ⟨parts, unframe_frame hparts⟩
  · intro parts hparts parts' hparts' hframe
    have hsame := (unframe_frame hparts).symm.trans
      ((congrArg unframe hframe).trans (unframe_frame hparts'))
    exact Option.some.inj (Except.ok.inj hsame)
  · rintro bytes ⟨parts, hparts⟩
    exact ⟨parts, fits_of_unframe hparts, encodeRaw_of_unframe hparts⟩

/-! ### Slices -/

/-- `&bytes[lo..hi]`, where `none` is the panic. -/
def slice? (bytes : Bytes) (lo hi : Nat) : Option Bytes :=
  if lo ≤ hi ∧ hi ≤ bytes.length then some ((bytes.take hi).drop lo) else none

/-- `u32::from_le_bytes(bytes.try_into().unwrap())`, where `none` is the panic. -/
def word? (bytes : Bytes) : Option UInt32 :=
  if bytes.length = 4 then some (leWord bytes) else none

/-- `unframe`, with every slice checked. -/
def unframe? (bytes : Bytes) : Option (Except Error (Option FrameParts)) :=
  if bytes.length < prefixLen then
    some (.error (.codec "frame shorter than 8-byte prefix"))
  else do
    let rawMsg ← word? (← slice? bytes 0 4)
    if rawMsg &&& protoMask = 0 then
      some (.ok none)
    else
      let headerLen := (← word? (← slice? bytes 4 prefixLen)).toNat
      let rest ← slice? bytes prefixLen bytes.length
      if rest.length < headerLen then
        some (.error (.codec ("header length " ++ toString headerLen ++ " exceeds "
          ++ toString rest.length ++ " remaining bytes")))
      else
        let header ← slice? rest 0 headerLen
        let body ← slice? rest headerLen rest.length
        some (.ok (some { msgType := rawMsg &&& emsgMask, header, body }))

/-- A slice within the bounds is taken. -/
theorem slice?_of_le {bytes : Bytes} {lo hi : Nat} (hlo : lo ≤ hi) (hhi : hi ≤ bytes.length) :
    slice? bytes lo hi = some ((bytes.take hi).drop lo) :=
  if_pos ⟨hlo, hhi⟩

/-- Reading a word looks at four bytes. -/
theorem leWord_take (bytes : Bytes) : leWord (bytes.take 4) = leWord bytes := by
  match bytes with
  | [] | [_] | [_, _] | [_, _, _] | _ :: _ :: _ :: _ :: _ => rfl

/-- The first four bytes are a word. -/
theorem word?_take {bytes : Bytes} (h : 4 ≤ bytes.length) :
    word? (bytes.take 4) = some (leWord bytes) := by
  rw [word?, if_pos (by rw [List.length_take]; omega), leWord_take]

/-- **No slice of `unframe` is out of range.** -/
theorem unframe?_eq (bytes : Bytes) : unframe? bytes = some (unframe bytes) := by
  simp only [unframe?, unframe]
  split
  · rfl
  · rename_i hlen
    have height : prefixLen = 8 := rfl
    have hfirst : word? (bytes.take 4) = some (leWord bytes) := word?_take (by omega)
    have hsecond : word? ((bytes.take prefixLen).drop 4) = some (leWord (bytes.drop 4)) := by
      rw [height, List.drop_take]
      exact word?_take (by rw [List.length_drop]; omega)
    rw [slice?_of_le (Nat.zero_le 4) (by omega), slice?_of_le (by omega) (by omega),
      slice?_of_le (by omega) (Nat.le_refl _)]
    simp only [List.drop_zero, hfirst, hsecond, List.take_length, Option.bind_eq_bind,
      Option.bind_some]
    split
    · rfl
    · split
      · rfl
      · rename_i hheader
        rw [slice?_of_le (Nat.zero_le _) (Nat.le_of_not_lt hheader),
          slice?_of_le (Nat.le_of_not_lt hheader) (Nat.le_refl _)]
        simp only [List.drop_zero, List.take_length, Option.bind_some]

/-! ### `codec.rs` -/

/-- A message type of prost: the length that it announces, the bytes that it writes, and its
decoder. -/
structure Wire (α : Type) where
  encodedLen : α → Nat
  encode : α → Bytes
  decode : Bytes → Except String α

namespace Codec

variable {η β : Type}

/-- Write the two words in front of a frame. The cast of the length wraps. -/
def putPrefix (out : Bytes) (msgType : UInt32) (headerLen : Nat) : Bytes :=
  out ++ leBytes ((msgType &&& emsgMask) ||| protoMask) ++ leBytes (UInt32.ofNat headerLen)

/-- Write a message behind `out`. -/
def encodeInto (W : Wire η) (out : Bytes) (msg : η) : Bytes := out ++ W.encode msg

/-- Encode a message into a frame. -/
def encode (H : Wire η) (W : Wire β) (emsg : UInt32) (header : η) (body : β) : Bytes :=
  let out := putPrefix [] emsg (H.encodedLen header)
  let out := encodeInto H out header
  encodeInto W out body

/-- The same with a body that is already serialized. -/
def encodeRaw (H : Wire η) (emsg : UInt32) (header : η) (body : Bytes) : Bytes :=
  let out := putPrefix [] emsg (H.encodedLen header)
  let out := encodeInto H out header
  out ++ body

/-- A word as `{:#010x}` shows it. -/
def hexWord (w : UInt32) : String :=
  "0x" ++ String.ofList
    ((List.range 8).map fun i => Nat.digitChar (w.toNat / 16 ^ (7 - i) % 16))

/-- Decode one frame into its `EMsg`, header and raw body. -/
def decode (P : Prost) (bytes : Bytes) : Except Error SteamMessage :=
  match tryDecode P bytes with
  | .error e => .error e
  | .ok (some msg) => .ok msg
  | .ok none => .error (.codec ("non-protobuf message (raw type " ++ hexWord (leWord bytes) ++
      ") not supported"))

/-- `try_decode`, with every slice checked. -/
def tryDecode? (P : Prost) (bytes : Bytes) : Option (Except Error (Option SteamMessage)) := do
  match ← unframe? bytes with
  | .error e => some (.error e)
  | .ok none => some (.ok none)
  | .ok (some parts) =>
      match P.header parts.header with
      | .error e => some (.error (.codec ("decode header: " ++ e)))
      | .ok header => some (.ok (some { emsg := parts.msgType, header, body := parts.body }))

/-- `decode`, with every slice checked. -/
def decode? (P : Prost) (bytes : Bytes) : Option (Except Error SteamMessage) := do
  match ← tryDecode? P bytes with
  | .error e => some (.error e)
  | .ok (some msg) => some (.ok msg)
  | .ok none =>
      let rawMsg ← word? (← slice? bytes 0 4)
      some (.error (.codec ("non-protobuf message (raw type " ++ hexWord rawMsg ++
        ") not supported")))

/-- With prost's lengths, a frame is the one around the serialized header. -/
theorem encodeRaw_eq (H : Wire η) (emsg : UInt32) {header : η} (body : Bytes)
    (h : H.encodedLen header = (H.encode header).length) :
    encodeRaw H emsg header body = Steamroids.encodeRaw emsg (H.encode header) body := by
  simp only [encodeRaw, encodeInto, putPrefix, Steamroids.encodeRaw, h, List.nil_append]

/-- Only a frame that has its two words is legacy. -/
theorem le_length_of_legacy {P : Prost} {bytes : Bytes} (h : tryDecode P bytes = .ok none) :
    prefixLen ≤ bytes.length := by
  simp only [tryDecode] at h
  have hres := unframe_unframes bytes
  generalize unframe bytes = res at h hres
  cases hres with
  | short _ => cases h
  | legacy hle _ => exact hle
  | overlong hle _ _ => exact hle
  | proto hle _ _ => exact hle

/-- The decoder indexes within its frame. -/
theorem tryDecode?_eq (P : Prost) (bytes : Bytes) :
    tryDecode? P bytes = some (tryDecode P bytes) := by
  rw [tryDecode?, unframe?_eq, tryDecode]
  rcases unframe bytes with e | _ | parts
  · rfl
  · rfl
  · simp only [Option.bind_eq_bind, Option.bind_some]
    cases P.header parts.header <;> rfl

/-- So does the decoder that wants a message. -/
theorem decode?_eq (P : Prost) (bytes : Bytes) : decode? P bytes = some (decode P bytes) := by
  rw [decode?, tryDecode?_eq, decode]
  rcases hdecoded : tryDecode P bytes with e | _ | msg
  · rfl
  · have hlen : 4 ≤ bytes.length := Nat.le_trans (by decide) (le_length_of_legacy hdecoded)
    simp only [Option.bind_eq_bind, Option.bind_some, slice?_of_le (Nat.zero_le 4) hlen,
      List.drop_zero, word?_take hlen]
  · rfl

/-- A frame that has to be a message is decoded like one that may be. -/
theorem decode_eq_ok {P : Prost} {bytes : Bytes} {msg : SteamMessage} :
    decode P bytes = .ok msg ↔ tryDecode P bytes = .ok (some msg) := by
  rw [decode]
  rcases tryDecode P bytes with e | _ | msg' <;> simp

/-- A frame that is decoded again. -/
theorem tryDecode_encode {P : Prost} {H : Wire CMsgProtoBufHeader} (W : Wire β) (emsg : UInt32)
    {header : CMsgProtoBufHeader} (m : β)
    (hlen : H.encodedLen header = (H.encode header).length)
    (hlt : (H.encode header).length < 2 ^ 32) (hheader : P.header (H.encode header) = .ok header) :
    tryDecode P (encode H W emsg header m) =
      .ok (some { emsg := emsg &&& emsgMask, header, body := W.encode m }) := by
  have hframe : encode H W emsg header m =
      Steamroids.encodeRaw emsg (H.encode header) (W.encode m) :=
    encodeRaw_eq H emsg (W.encode m) hlen
  rw [hframe, tryDecode, unframe_encodeRaw emsg _ hlt]
  simp only [hheader]

end Codec

/-- **Framing is exact, both ways.** It is a bijection onto the frames that are accepted as
protobuf. Splitting an encoded frame gives back its type, its header and its body, from a
message as from its serialization. A byte string is refused exactly if it is too short or its
header does not fit, and is legacy exactly if the flag is not set; any other is the frame of
its parts. No slice is out of range, and `decode` accepts what `try_decode` finds. -/
theorem framing_bijective (P : Prost) :
    Set.BijOn FrameParts.frame {parts | parts.Fits}
      {bytes | ∃ parts, unframe bytes = .ok (some parts)} ∧
    (∀ (η : Type) (H : Wire η) (emsg : UInt32) (header : η) (body : Bytes),
      H.encodedLen header = (H.encode header).length → (H.encode header).length < 2 ^ 32 →
      unframe (Codec.encodeRaw H emsg header body) =
        .ok (some ⟨emsg &&& emsgMask, H.encode header, body⟩)) ∧
    (∀ (η β : Type) (H : Wire η) (W : Wire β) (emsg : UInt32) (header : η) (m : β),
      Codec.encode H W emsg header m = Codec.encodeRaw H emsg header (W.encode m)) ∧
    (∀ (β : Type) (H : Wire CMsgProtoBufHeader) (W : Wire β) (emsg : UInt32)
      (header : CMsgProtoBufHeader) (m : β),
      H.encodedLen header = (H.encode header).length → (H.encode header).length < 2 ^ 32 →
      P.header (H.encode header) = .ok header →
      tryDecode P (Codec.encode H W emsg header m) =
        .ok (some { emsg := emsg &&& emsgMask, header, body := W.encode m })) ∧
    ∀ bytes : Bytes,
      ((∃ e, unframe bytes = .error e) ↔ bytes.length < 8 ∨
        isProto bytes ∧ bytes.length - 8 < declaredLen bytes) ∧
      (unframe bytes = .ok none ↔ 8 ≤ bytes.length ∧ ¬ isProto bytes) ∧
      ((∃ parts, unframe bytes = .ok (some parts)) ↔
        8 ≤ bytes.length ∧ isProto bytes ∧ declaredLen bytes ≤ bytes.length - 8) ∧
      (∀ parts, unframe bytes = .ok (some parts) → parts.frame = bytes) ∧
      unframe? bytes = some (unframe bytes) ∧
      Codec.decode? P bytes = some (Codec.decode P bytes) ∧
      ∀ msg, Codec.decode P bytes = .ok msg ↔ tryDecode P bytes = .ok (some msg) := by
  refine ⟨bijOn_frame, ?_, fun _ _ _ _ _ _ _ => rfl, ?_, ?_⟩
  · intro η H emsg header body hlen hlt
    rw [Codec.encodeRaw_eq H emsg body hlen, unframe_encodeRaw emsg body hlt]
  · intro β H W emsg header m hlen hlt hheader
    exact Codec.tryDecode_encode W emsg m hlen hlt hheader
  · intro bytes
    obtain ⟨herr, hlegacy, hproto⟩ := unframe_iff bytes
    exact ⟨herr, hlegacy, hproto, fun parts => encodeRaw_of_unframe, unframe?_eq bytes,
      Codec.decode?_eq P bytes, fun msg => Codec.decode_eq_ok⟩

end Steamroids
