import Mathlib.Data.List.GetD
import Mathlib.Data.List.Nodup

/-!
# Base64 for URLs

The encoding of byte strings in the URL-safe alphabet, without padding: three bytes are written
as four characters of six bits each, and one or two bytes at the end as two or three characters.
A decoder is strict if it accepts what the encoder writes and nothing else; in particular the
bits that the last character has beyond the last byte must be zero.

Encoding and decoding go through the list of six-bit groups. The characters of the alphabet and
the arithmetic of the bits are then two separate matters.

## Main results

* `octets_eq_some_iff`: six-bit groups are joined to exactly the bytes that are cut into them.
* `decode_eq_some_iff`: the decoder is strict.
-/

namespace Base64Url

/-! ### The alphabet -/

/-- The alphabet that is safe in URLs. -/
def alphabet : List Char :=
  "ABCDEFGHIJKLMNOPQRSTUVWXYZabcdefghijklmnopqrstuvwxyz0123456789-_".toList

/-- The character of a six-bit group. -/
def symbol (n : Nat) : Char := alphabet.getD n 'A'

/-- The six-bit group of a character. -/
def index? (c : Char) : Option Nat := if c ∈ alphabet then some (alphabet.idxOf c) else none

/-- It has 64 symbols. -/
theorem length_alphabet : alphabet.length = 64 := by decide +kernel

/-- No symbol stands twice in it. -/
theorem nodup_alphabet : alphabet.Nodup := by decide +kernel

/-- A number below 64 is read off its symbol. -/
theorem index?_symbol {n : Nat} (h : n < 64) : index? (symbol n) = some n := by
  have hlt : n < alphabet.length := by rwa [length_alphabet]
  have hget : symbol n = alphabet[n] := List.getD_eq_getElem _ _ hlt
  rw [hget, index?, if_pos (List.getElem_mem hlt), nodup_alphabet.idxOf_getElem]

/-- What is read off a symbol is the number it stands for. -/
theorem index?_eq_some {c : Char} {n : Nat} (h : index? c = some n) :
    n < 64 ∧ symbol n = c := by
  rw [index?, Option.ite_none_right_eq_some, Option.some.injEq] at h
  obtain ⟨hmem, rfl⟩ := h
  have hlt := List.idxOf_lt_length_of_mem hmem
  refine ⟨by rwa [length_alphabet] at hlt, ?_⟩
  rw [symbol, List.getD_eq_getElem _ _ hlt]
  exact List.getElem_idxOf hlt

/-- A text is read as six-bit groups in one way, and only a text of the alphabet is. -/
theorem mapM_index?_eq_some_iff {s : List Char} {xs : List Nat} :
    s.mapM index? = some xs ↔ s = xs.map symbol ∧ ∀ x ∈ xs, x < 64 := by
  induction s generalizing xs with
  | nil => cases xs <;> simp
  | cons c s ih =>
      simp only [List.mapM_cons, Option.bind_eq_bind, Option.bind_eq_some_iff, Option.pure_def,
        Option.some.injEq]
      constructor
      · rintro ⟨x, hx, ys, hys, rfl⟩
        obtain ⟨hlt, rfl⟩ := index?_eq_some hx
        obtain ⟨rfl, hall⟩ := ih.mp hys
        exact ⟨rfl, List.forall_mem_cons.mpr ⟨hlt, hall⟩⟩
      · rintro ⟨hs, hall⟩
        cases xs with
        | nil => cases hs
        | cons x ys =>
            obtain ⟨rfl, rfl⟩ := List.cons.inj hs
            obtain ⟨hlt, hys⟩ := List.forall_mem_cons.mp hall
            exact ⟨x, index?_symbol hlt, ys, ih.mpr ⟨rfl, hys⟩, rfl⟩

/-! ### Bits -/

/-- Cut bytes into groups of six bits, the last one filled up with zeros. -/
def sextets : List UInt8 → List Nat
  | [] => []
  | [a] => [a.toNat / 4, a.toNat % 4 * 16]
  | [a, b] => [a.toNat / 4, a.toNat % 4 * 16 + b.toNat / 16, b.toNat % 16 * 4]
  | a :: b :: c :: rest =>
      a.toNat / 4 :: (a.toNat % 4 * 16 + b.toNat / 16) :: (b.toNat % 16 * 4 + c.toNat / 64) ::
        c.toNat % 64 :: sextets rest

/-- Join groups of six bits to bytes. The bits that are left over must be zero. -/
def octets : List Nat → Option (List UInt8)
  | [] => some []
  | [_] => none
  | [x, y] => if y % 16 = 0 then some [UInt8.ofNat (x * 4 + y / 16)] else none
  | [x, y, z] =>
      if z % 4 = 0 then
        some [UInt8.ofNat (x * 4 + y / 16), UInt8.ofNat (y % 16 * 16 + z / 4)]
      else
        none
  | x :: y :: z :: w :: rest =>
      (octets rest).map fun bytes =>
        UInt8.ofNat (x * 4 + y / 16) :: UInt8.ofNat (y % 16 * 16 + z / 4) ::
          UInt8.ofNat (z % 4 * 64 + w) :: bytes

/-- A byte is determined by its number. -/
theorem ofNat_eq_of_eq {a : UInt8} {n : Nat} (h : n = a.toNat) : UInt8.ofNat n = a := by
  rw [h, UInt8.ofNat_toNat]

/-- A sextet has six bits. -/
theorem sextets_lt (bytes : List UInt8) : ∀ x ∈ sextets bytes, x < 64 := by
  induction bytes using sextets.induct with
  | case1 => simp [sextets]
  | case2 a =>
      have ha := a.toNat_lt
      simp only [sextets, List.forall_mem_cons]
      refine ⟨?_, ?_, List.forall_mem_nil _⟩ <;> omega
  | case3 a b =>
      have ha := a.toNat_lt
      have hb := b.toNat_lt
      simp only [sextets, List.forall_mem_cons]
      refine ⟨?_, ?_, ?_, List.forall_mem_nil _⟩ <;> omega
  | case4 a b c rest ih =>
      have ha := a.toNat_lt
      have hb := b.toNat_lt
      have hc := c.toNat_lt
      simp only [sextets, List.forall_mem_cons]
      refine ⟨?_, ?_, ?_, ?_, ih⟩ <;> omega

/-- The sextets of some bytes give them back. -/
theorem octets_sextets (bytes : List UInt8) : octets (sextets bytes) = some bytes := by
  induction bytes using sextets.induct with
  | case1 => rfl
  | case2 a =>
      have hrest : a.toNat % 4 * 16 % 16 = 0 := by omega
      rw [sextets, octets, if_pos hrest, ofNat_eq_of_eq (a := a) (by omega)]
  | case3 a b =>
      have hb := b.toNat_lt
      have hrest : b.toNat % 16 * 4 % 4 = 0 := by omega
      rw [sextets, octets, if_pos hrest, ofNat_eq_of_eq (a := a) (by omega),
        ofNat_eq_of_eq (a := b) (by omega)]
  | case4 a b c rest ih =>
      have hb := b.toNat_lt
      have hc := c.toNat_lt
      rw [sextets, octets, ih, Option.map_some, ofNat_eq_of_eq (a := a) (by omega),
        ofNat_eq_of_eq (a := b) (by omega), ofNat_eq_of_eq (a := c) (by omega)]

/-- Only the sextets of some bytes give them. -/
theorem sextets_of_octets {xs : List Nat} {bytes : List UInt8} (hlt : ∀ x ∈ xs, x < 64)
    (h : octets xs = some bytes) : xs = sextets bytes := by
  have hsize : UInt8.size = 256 := rfl
  induction xs using octets.induct generalizing bytes with
  | case1 => cases h; rfl
  | case2 x => cases h
  | case3 x y hrest =>
      obtain ⟨hx, hy, -⟩ : x < 64 ∧ y < 64 ∧ _ := by simpa only [List.forall_mem_cons] using hlt
      rw [octets, if_pos hrest, Option.some.injEq] at h
      rw [← h, sextets, UInt8.toNat_ofNat_of_lt' (by omega)]
      simp only [List.cons.injEq, and_true]
      omega
  | case4 x y hrest => simp [octets, hrest] at h
  | case5 x y z hrest =>
      obtain ⟨hx, hy, hz, -⟩ : x < 64 ∧ y < 64 ∧ z < 64 ∧ _ := by
        simpa only [List.forall_mem_cons] using hlt
      rw [octets, if_pos hrest, Option.some.injEq] at h
      rw [← h, sextets, UInt8.toNat_ofNat_of_lt' (by omega), UInt8.toNat_ofNat_of_lt' (by omega)]
      simp only [List.cons.injEq, and_true]
      omega
  | case6 x y z hrest => simp [octets, hrest] at h
  | case7 x y z w rest ih =>
      obtain ⟨hx, hy, hz, hw, hrest⟩ : x < 64 ∧ y < 64 ∧ z < 64 ∧ w < 64 ∧ _ := by
        simpa only [List.forall_mem_cons] using hlt
      rw [octets, Option.map_eq_some_iff] at h
      obtain ⟨tail, htail, rfl⟩ := h
      rw [sextets, ← ih hrest htail, UInt8.toNat_ofNat_of_lt' (by omega),
        UInt8.toNat_ofNat_of_lt' (by omega), UInt8.toNat_ofNat_of_lt' (by omega)]
      simp only [List.cons.injEq, and_true]
      omega

/-- Six-bit groups are joined to the bytes that are cut into them, and to no others. -/
theorem octets_eq_some_iff {xs : List Nat} (hlt : ∀ x ∈ xs, x < 64) {bytes : List UInt8} :
    octets xs = some bytes ↔ xs = sextets bytes :=
  ⟨sextets_of_octets hlt, fun h => h ▸ octets_sextets bytes⟩

/-! ### The code -/

/-- The encoding, without padding. -/
def encode (bytes : List UInt8) : List Char := (sextets bytes).map symbol

/-- The decoding. It fails on other symbols, and on bits behind the last byte. -/
def decode (s : List Char) : Option (List UInt8) := (s.mapM index?).bind octets

/-- The decoder accepts what the encoder writes, and nothing else. -/
theorem decode_eq_some_iff {s : List Char} {bytes : List UInt8} :
    decode s = some bytes ↔ s = encode bytes := by
  simp only [decode, Option.bind_eq_some_iff, mapM_index?_eq_some_iff]
  constructor
  · rintro ⟨xs, ⟨rfl, hlt⟩, hjoin⟩
    rw [encode, ← (octets_eq_some_iff hlt).mp hjoin]
  · rintro rfl
    exact ⟨sextets bytes, ⟨rfl, sextets_lt bytes⟩, octets_sextets bytes⟩

example : encode [0x7b, 0x7d] = "e30".toList := by decide +kernel

end Base64Url
