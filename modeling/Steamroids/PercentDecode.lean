import Steamroids.Message
import Steamroids.Utf8

/-!
# Percent Decoding

`percent_decode` (`transport/proxy.rs`) reads the credentials of a proxy URL. It goes over the
bytes of the text once, replaces each `%` with two hex digits behind it by the byte that they
spell, and copies every other byte. The bytes it has written are then read as UTF-8.

The loop is modelled on the bytes that are left, so that three of them can be looked at exactly
where the source has `i + 2 < bytes.len()`.

## Main results

* `percentDecodeBytes_of_encodes`: an encoder's text decodes to the bytes of what was encoded.
* `percentDecodeBytes_of_noEscape`: without an escape nothing changes.
* `exists_pieces`: the output, byte by byte, from the input cut into pieces.
* `percent_decode_inverts`: all of it for texts.
-/

namespace Steamroids

/-! ### The decoder -/

/-- `hex_nibble`: the value of a hexadecimal digit, in either case. -/
def hexNibble (b : UInt8) : Option UInt8 :=
  if 0x30 ≤ b ∧ b ≤ 0x39 then some (b - 0x30)
  else if 0x61 ≤ b ∧ b ≤ 0x66 then some (b - 0x61 + 10)
  else if 0x41 ≤ b ∧ b ≤ 0x46 then some (b - 0x41 + 10)
  else none

/-- The byte that three bytes spell, if they are an escape. -/
def unescape (b h l : UInt8) : Option UInt8 :=
  if b = 0x25 then do
    let h ← hexNibble h
    let l ← hexNibble l
    some (h <<< 4 ||| l)
  else
    none

/-- The loop of `percent_decode` over the bytes that are left. -/
def percentDecodeBytes : Bytes → Bytes
  | b :: h :: l :: rest =>
      match unescape b h l with
      | some byte => byte :: percentDecodeBytes rest
      | none => b :: percentDecodeBytes (h :: l :: rest)
  | b :: rest => b :: percentDecodeBytes rest
  | [] => []

/-- `percent_decode`: the bytes are decoded, and read as UTF-8 with replacements. -/
def percentDecode (input : String) : String :=
  Utf8.lossy (percentDecodeBytes (Utf8.encode input))

/-- An escape is a percent sign and two digits, and stands for their byte. -/
theorem unescape_eq_some {b h l byte : UInt8} : unescape b h l = some byte ↔
    b = 0x25 ∧ ∃ high low, hexNibble h = some high ∧ hexNibble l = some low ∧
      high <<< 4 ||| low = byte := by
  rw [unescape]
  split
  · simp [*, Option.bind_eq_some_iff]
  · simp [*]

/-- An escape is decoded to its byte. -/
theorem percentDecodeBytes_escape {b h l byte : UInt8} (hbyte : unescape b h l = some byte)
    (rest : Bytes) :
    percentDecodeBytes (b :: h :: l :: rest) = byte :: percentDecodeBytes rest := by
  rw [percentDecodeBytes, hbyte]

/-- A byte with no escape at it is copied. -/
theorem percentDecodeBytes_raw {b : UInt8} {rest : Bytes}
    (hraw : ∀ h l later, rest = h :: l :: later → unescape b h l = none) :
    percentDecodeBytes (b :: rest) = b :: percentDecodeBytes rest := by
  rcases rest with _ | ⟨h, _ | ⟨l, later⟩⟩
  · rfl
  · rfl
  · rw [percentDecodeBytes, hraw h l later rfl]

/-- Bytes other than the percent sign stay. -/
theorem percentDecodeBytes_append {bytes : Bytes} (h : ∀ b ∈ bytes, b ≠ 0x25) (rest : Bytes) :
    percentDecodeBytes (bytes ++ rest) = bytes ++ percentDecodeBytes rest := by
  induction bytes with
  | nil => rfl
  | cons b bytes ih =>
      obtain ⟨hb, hbytes⟩ := List.forall_mem_cons.mp h
      rw [List.cons_append, List.cons_append, ← ih hbytes]
      refine percentDecodeBytes_raw fun _ _ _ _ => ?_
      rw [unescape, if_neg hb]

/-- Only the percent sign has its byte. -/
theorem ne_percent_of_mem {c : Char} (hc : c ≠ '%') : ∀ b ∈ String.utf8EncodeChar c, b ≠ 0x25 := by
  rintro b hb rfl
  obtain ⟨-, hnat⟩ := Utf8.eq_singleton_of_mem hb (by decide)
  exact hc (Char.toNat_inj.mp hnat)

/-! ### Encoders -/

/-- A hex digit of value `n`, in lower or in upper case. -/
def IsHexDigit (n : Nat) (c : Char) : Prop := c = Nat.digitChar n ∨ c = (Nat.digitChar n).toUpper

/-- The escapes of these bytes. -/
inductive Escapes : Bytes → List Char → Prop
  | nil : Escapes [] []
  | cons {b : UInt8} {bytes : Bytes} {high low : Char} {rest : List Char} :
      IsHexDigit (b.toNat / 16) high → IsHexDigit (b.toNat % 16) low → Escapes bytes rest →
      Escapes (b :: bytes) ('%' :: high :: low :: rest)

/-- What an encoder may make of a text: any characters, and every percent sign, are replaced by
the escapes of their bytes. -/
inductive PercentEncodes : List Char → List Char → Prop
  | nil : PercentEncodes [] []
  | keep {c : Char} {text encoded : List Char} :
      c ≠ '%' → PercentEncodes text encoded → PercentEncodes (c :: text) (c :: encoded)
  | escape {c : Char} {text escapes encoded : List Char} :
      Escapes (String.utf8EncodeChar c) escapes → PercentEncodes text encoded →
      PercentEncodes (c :: text) (escapes ++ encoded)

/-- A digit is one byte, and its value is read off it. -/
theorem hexNibble_of_isHexDigit {n : Nat} {c : Char} (hn : n < 16) (h : IsHexDigit n c) :
    c.toNat < 0x80 ∧ hexNibble (UInt8.ofNat c.toNat) = some (UInt8.ofNat n) := by
  have hall : (List.range 16).all (fun n =>
      [Nat.digitChar n, (Nat.digitChar n).toUpper].all fun c =>
        decide (c.toNat < 0x80 ∧ hexNibble (UInt8.ofNat c.toNat) = some (UInt8.ofNat n))) =
      true := by
    decide
  have hdigits := List.all_eq_true.mp hall n (List.mem_range.mpr hn)
  have hmem : c ∈ [Nat.digitChar n, (Nat.digitChar n).toUpper] := by
    rcases h with rfl | rfl
    · exact List.mem_cons_self
    · exact List.mem_cons_of_mem _ List.mem_cons_self
  exact of_decide_eq_true (List.all_eq_true.mp hdigits c hmem)

/-- Two nibbles put together again. -/
theorem nibbles_or (b : UInt8) :
    UInt8.ofNat (b.toNat / 16) <<< 4 ||| UInt8.ofNat (b.toNat % 16) = b := by
  have hb := b.toNat_lt
  refine UInt8.toNat_inj.mp ?_
  have hhigh : (UInt8.ofNat (b.toNat / 16) <<< 4).toNat = (b.toNat / 16) <<< 4 := by
    rw [UInt8.toNat_shiftLeft, UInt8.toNat_ofNat', Nat.shiftLeft_eq, Nat.shiftLeft_eq]
    have h4 : (4 : UInt8).toNat % 8 = 4 := rfl
    rw [h4]
    omega
  have hlow : (UInt8.ofNat (b.toNat % 16)).toNat = b.toNat % 16 := by
    rw [UInt8.toNat_ofNat']
    omega
  rw [UInt8.toNat_or, hhigh, hlow, ← Nat.shiftLeft_add_eq_or_of_lt (Nat.mod_lt _ (by decide)),
    Nat.shiftLeft_eq]
  omega

/-- A run of escapes is decoded to its bytes. -/
theorem percentDecodeBytes_of_escapes {bytes : Bytes} {escapes : List Char}
    (h : Escapes bytes escapes) (rest : Bytes) :
    percentDecodeBytes (escapes.flatMap String.utf8EncodeChar ++ rest) =
      bytes ++ percentDecodeBytes rest := by
  induction h with
  | nil => rfl
  | @cons b bytes high low later hhigh hlow _ ih =>
      have hb := b.toNat_lt
      obtain ⟨hhighLt, hhighVal⟩ := hexNibble_of_isHexDigit (by omega) hhigh
      obtain ⟨hlowLt, hlowVal⟩ := hexNibble_of_isHexDigit (by omega) hlow
      have hbyte : unescape 0x25 (UInt8.ofNat high.toNat) (UInt8.ofNat low.toNat) = some b :=
        unescape_eq_some.mpr ⟨rfl, _, _, hhighVal, hlowVal, nibbles_or b⟩
      have hpercent : String.utf8EncodeChar '%' = [0x25] := rfl
      simp only [List.flatMap_cons, hpercent, Utf8.utf8EncodeChar_of_lt hhighLt,
        Utf8.utf8EncodeChar_of_lt hlowLt, List.cons_append, List.nil_append,
        percentDecodeBytes_escape hbyte, ih]

/-- **What an encoder made is decoded.** -/
theorem percentDecodeBytes_of_encodes {text encoded : List Char}
    (h : PercentEncodes text encoded) :
    percentDecodeBytes (encoded.flatMap String.utf8EncodeChar) =
      text.flatMap String.utf8EncodeChar := by
  induction h with
  | nil => rfl
  | keep hc _ ih =>
      rw [List.flatMap_cons, List.flatMap_cons,
        percentDecodeBytes_append (ne_percent_of_mem hc), ih]
  | escape hescapes _ ih =>
      rw [List.flatMap_append, List.flatMap_cons, percentDecodeBytes_of_escapes hescapes, ih]

/-! ### Texts without escapes -/

/-- A hexadecimal digit, in either case. -/
def IsHexChar (c : Char) : Prop :=
  '0' ≤ c ∧ c ≤ '9' ∨ 'a' ≤ c ∧ c ≤ 'f' ∨ 'A' ≤ c ∧ c ≤ 'F'

/-- Nowhere in the text are two hex digits behind a percent sign. -/
def NoEscape (text : List Char) : Prop :=
  ∀ pre high low post, text = pre ++ '%' :: high :: low :: post →
    ¬ (IsHexChar high ∧ IsHexChar low)

/-- A text without escapes has none in its tail. -/
theorem NoEscape.tail {c : Char} {text : List Char} (h : NoEscape (c :: text)) : NoEscape text := by
  intro pre high low post htext
  exact h (c :: pre) high low post (by rw [htext, List.cons_append])

/-- What counts as a digit, byte by byte. -/
theorem range_of_hexNibble {b n : UInt8} (hb : hexNibble b = some n) :
    0x30 ≤ b.toNat ∧ b.toNat ≤ 0x39 ∨ 0x61 ≤ b.toNat ∧ b.toNat ≤ 0x66 ∨
      0x41 ≤ b.toNat ∧ b.toNat ≤ 0x46 := by
  simp only [hexNibble, UInt8.le_iff_toNat_le] at hb
  split at hb
  · exact .inl ‹_›
  split at hb
  · exact .inr (.inl ‹_›)
  split at hb
  · exact .inr (.inr ‹_›)
  · cases hb

/-- A hex digit in front of the bytes of a text is a hex digit in front of the text. -/
theorem isHexChar_of_hexNibble {text : List Char} {b n : UInt8} {rest : Bytes}
    (hbytes : text.flatMap String.utf8EncodeChar = b :: rest) (hb : hexNibble b = some n) :
    ∃ c later, text = c :: later ∧ IsHexChar c ∧ rest = later.flatMap String.utf8EncodeChar := by
  rcases text with _ | ⟨c, later⟩
  · cases hbytes
  · have hmem : b ∈ String.utf8EncodeChar c := by
      rw [List.flatMap_cons] at hbytes
      rcases hc : String.utf8EncodeChar c with _ | ⟨first, bytes⟩
      · exact absurd hc String.utf8EncodeChar_ne_nil
      · rw [hc, List.cons_append] at hbytes
        rw [(List.cons.inj hbytes).1]
        exact List.mem_cons_self
    have hrange := range_of_hexNibble hb
    obtain ⟨hsingle, hnat⟩ := Utf8.eq_singleton_of_mem hmem (by omega)
    have hhex : IsHexChar c := by
      have hval : c.val.toNat = b.toNat := hnat
      simp only [IsHexChar, Char.le_def, UInt32.le_iff_toNat_le, hval]
      exact hrange
    rw [List.flatMap_cons, hsingle] at hbytes
    exact ⟨c, later, rfl, hhex, (List.cons.inj hbytes).2.symm⟩

/-- **Without an escape nothing changes.** -/
theorem percentDecodeBytes_of_noEscape {text : List Char} (h : NoEscape text) :
    percentDecodeBytes (text.flatMap String.utf8EncodeChar) =
      text.flatMap String.utf8EncodeChar := by
  induction text with
  | nil => rfl
  | cons c text ih =>
      rw [List.flatMap_cons]
      by_cases hc : c = '%'
      · subst hc
        have hpercent : String.utf8EncodeChar '%' = [0x25] := rfl
        rw [hpercent, List.singleton_append, percentDecodeBytes_raw, ih h.tail]
        intro high low later hbytes
        rcases hescape : unescape 0x25 high low with _ | byte
        · rfl
        obtain ⟨-, _, _, hhigh, hlow, -⟩ := unescape_eq_some.mp hescape
        obtain ⟨c, text', rfl, hhex, hbytes'⟩ := isHexChar_of_hexNibble hbytes hhigh
        obtain ⟨c', text'', rfl, hhex', -⟩ := isHexChar_of_hexNibble hbytes'.symm hlow
        exact absurd ⟨hhex, hhex'⟩ (h [] c c' text'' rfl)
      · rw [percentDecodeBytes_append (ne_percent_of_mem hc), ih h.tail]

/-! ### A single pass -/

/-- What one byte of the output comes from. -/
inductive Piece
  | raw (b : UInt8)
  | escape (h l : UInt8)
  deriving DecidableEq, Repr

namespace Piece

/-- The bytes of the input. -/
def source : Piece → Bytes
  | .raw b => [b]
  | .escape h l => [0x25, h, l]

/-- The byte of the output. -/
def value : Piece → Option UInt8
  | .raw b => some b
  | .escape h l => unescape 0x25 h l

end Piece

/-- The bytes begin with a complete escape. -/
def EscapeAt (bytes : Bytes) : Prop :=
  ∃ b h l rest byte, bytes = b :: h :: l :: rest ∧ unescape b h l = some byte

/-- No byte is copied where an escape begins. -/
def Leftmost (pieces : List Piece) : Prop :=
  ∀ pre b post, pieces = pre ++ .raw b :: post → ¬ EscapeAt (b :: post.flatMap Piece.source)

/-- An escape in front of a leftmost reading. -/
theorem Leftmost.escape {pieces : List Piece} (h : Leftmost pieces) (high low : UInt8) :
    Leftmost (.escape high low :: pieces) := by
  intro pre b post hsplit
  rcases List.cons_eq_append_iff.mp hsplit with ⟨-, hcons⟩ | ⟨pre', -, hpieces⟩
  · cases hcons
  · exact h pre' b post hpieces

/-- A byte in front of a leftmost reading, where no escape begins. -/
theorem Leftmost.raw {pieces : List Piece} (h : Leftmost pieces) {b : UInt8}
    (hb : ¬ EscapeAt (b :: pieces.flatMap Piece.source)) : Leftmost (.raw b :: pieces) := by
  intro pre b' post hsplit
  rcases List.cons_eq_append_iff.mp hsplit with ⟨-, hcons⟩ | ⟨pre', -, hpieces⟩
  · obtain ⟨hhead, rfl⟩ := List.cons.inj hcons
    obtain rfl := Piece.raw.inj hhead
    exact hb
  · exact h pre' b' post hpieces

/-- A byte that is copied, in front of pieces. -/
theorem exists_pieces_raw {b : UInt8} {rest out : Bytes} (hb : ¬ EscapeAt (b :: rest))
    (h : ∃ pieces : List Piece, pieces.flatMap Piece.source = rest ∧ Leftmost pieces ∧
      pieces.map Piece.value = out.map some) :
    ∃ pieces : List Piece, pieces.flatMap Piece.source = b :: rest ∧ Leftmost pieces ∧
      pieces.map Piece.value = (b :: out).map some := by
  obtain ⟨pieces, rfl, hleft, hvalue⟩ := h
  refine ⟨.raw b :: pieces, rfl, hleft.raw hb, ?_⟩
  rw [List.map_cons, List.map_cons, hvalue, Piece.value]

/-- **One pass.** The input is cut into pieces from the left, and each gives one byte. -/
theorem exists_pieces (input : Bytes) : ∃ pieces : List Piece,
    pieces.flatMap Piece.source = input ∧ Leftmost pieces ∧
      pieces.map Piece.value = (percentDecodeBytes input).map some := by
  fun_induction percentDecodeBytes input with
  | case1 b h l rest byte hbyte ih =>
      obtain ⟨pieces, hsource, hleft, hvalue⟩ := ih
      obtain ⟨rfl, -⟩ := unescape_eq_some.mp hbyte
      refine ⟨.escape h l :: pieces, ?_, hleft.escape h l, ?_⟩
      · rw [List.flatMap_cons, hsource]
        rfl
      · rw [List.map_cons, List.map_cons, hvalue, Piece.value, hbyte]
  | case2 b h l rest hnone ih =>
      refine exists_pieces_raw ?_ ih
      rintro ⟨b', h', l', rest', byte, heq, hbyte⟩
      cases heq
      rw [hnone] at hbyte
      cases hbyte
  | case3 b rest hshort ih =>
      refine exists_pieces_raw ?_ ih
      rintro ⟨b', h', l', rest', byte, heq, -⟩
      exact hshort h' l' rest' (List.cons.inj heq).2
  | case4 => exact ⟨[], rfl, by simp [Leftmost], rfl⟩

/-- **Percent decoding.** It inverts every encoder. A text without a complete escape is left as it
is. Every text is cut into pieces from the left, an escape wherever one begins and single bytes
elsewhere, and each piece gives one byte of the output, so that no output is looked at again. -/
theorem percent_decode_inverts :
    (∀ text encoded : String, PercentEncodes text.toList encoded.toList →
      percentDecode encoded = text) ∧
    (∀ text : String, NoEscape text.toList → percentDecode text = text) ∧
    ∀ text : String, ∃ (pieces : List Piece) (out : Bytes),
      pieces.flatMap Piece.source = Utf8.encode text ∧ Leftmost pieces ∧
        pieces.map Piece.value = out.map some ∧ percentDecode text = Utf8.lossy out := by
  refine ⟨?_, ?_, ?_⟩
  · intro text encoded hencodes
    rw [percentDecode, Utf8.encode, percentDecodeBytes_of_encodes hencodes]
    exact Utf8.lossy_encode text
  · intro text hnone
    rw [percentDecode, Utf8.encode, percentDecodeBytes_of_noEscape hnone]
    exact Utf8.lossy_encode text
  · intro text
    obtain ⟨pieces, hsource, hleft, hvalue⟩ := exists_pieces (Utf8.encode text)
    exact ⟨pieces, _, hsource, hleft, hvalue, rfl⟩

/-- A text in which one character is kept. -/
theorem percent_decode_inverts_mixed : percentDecode "a%c3%A4%25" = "aä%" := by
  refine percent_decode_inverts.1 _ _ ?_
  have ha : PercentEncodes "aä%".toList ('a' :: (['%', 'c', '3', '%', 'A', '4'] ++
      (['%', '2', '5'] ++ []))) :=
    .keep (by decide) (.escape
      (.cons (.inl rfl) (.inl rfl) (.cons (.inr rfl) (.inl rfl) .nil))
      (.escape (.cons (.inl rfl) (.inl rfl) .nil) .nil))
  exact ha

/-- An escape that decoding has produced stays. -/
example : percentDecode "%2541" = "%41" := by decide

end Steamroids
