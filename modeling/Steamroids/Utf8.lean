import Mathlib.Data.List.Basic

/-!
# UTF-8

Texts as bytes, over the codec that comes with Lean. `encode` gives the bytes of a text. `scan`
reads bytes from the front, and meets either a character or the longest beginning of one that is
cut off there. A strict reader (`text?`) takes bytes that hold characters only. A lossy one
(`lossy`) puts U+FFFD where there is none.

## Main results

* `text?_eq_some_iff`: the strict reader inverts `encode`, and accepts nothing else.
* `lossy_encode`: the lossy reader inverts it too.
* `eq_singleton_of_mem`: a byte below `0x80` is a character of its own.
-/

namespace Utf8

/-- The bytes of a text. -/
def encode (s : String) : List UInt8 := s.toList.flatMap String.utf8EncodeChar

/-- The character that the bytes begin with. -/
def front? (bytes : List UInt8) : Option Char := bytes.toByteArray.utf8DecodeChar? 0

/-- The second byte may follow the first one of a longer character. -/
def follows (first second : UInt8) : Bool :=
  let (low, high) : UInt8 × UInt8 :=
    if first = 0xe0 then (0xa0, 0xbf)
    else if first = 0xed then (0x80, 0x9f)
    else if first = 0xf0 then (0x90, 0xbf)
    else if first = 0xf4 then (0x80, 0x8f)
    else (0x80, 0xbf)
  low ≤ second && second ≤ high

/-- How many bytes are given up together where no character begins: the longest beginning of
one, and a single byte if there is none. -/
def brokenLen : List UInt8 → Nat
  | first :: second :: rest =>
      if 0xe0 ≤ first && first ≤ 0xf4 && follows first second then
        match rest with
        | third :: _ => if 0xf0 ≤ first && 0x80 ≤ third && third ≤ 0xbf then 3 else 2
        | [] => 2
      else 1
  | _ => 1

/-- What the bytes behind the first `skip` hold, with `none` for what is given up. -/
def scan : Nat → List UInt8 → List (Option Char)
  | _, [] => []
  | skip + 1, _ :: rest => scan skip rest
  | 0, byte :: rest =>
      match front? (byte :: rest) with
      | some c => some c :: scan (c.utf8Size - 1) rest
      | none => none :: scan (brokenLen (byte :: rest) - 1) rest

/-- `String::from_utf8_lossy`. -/
def lossy (bytes : List UInt8) : String :=
  String.ofList ((scan 0 bytes).map fun c => c.getD '\uFFFD')

/-- `str::from_utf8`. -/
def text? (bytes : List UInt8) : Option String := ((scan 0 bytes).mapM id).map String.ofList

/-! ### Reading what was written -/

/-- The first character is read off its own bytes. -/
theorem front?_append (c : Char) (rest : List UInt8) :
    front? (String.utf8EncodeChar c ++ rest) = some c := by
  rw [front?, List.toByteArray_append]
  exact ByteArray.utf8DecodeChar?_utf8EncodeChar_append

/-- The rest of a character that was read is skipped. -/
theorem scan_append {skip : Nat} {bytes : List UInt8} (h : bytes.length = skip)
    (rest : List UInt8) : scan skip (bytes ++ rest) = scan 0 rest := by
  induction bytes generalizing skip with
  | nil =>
      subst h
      rfl
  | cons byte bytes ih =>
      subst h
      exact ih rfl

/-- A character in front is read first. -/
theorem scan_char (c : Char) (rest : List UInt8) :
    scan 0 (String.utf8EncodeChar c ++ rest) = some c :: scan 0 rest := by
  have hfront := front?_append c rest
  have hlen := String.length_utf8EncodeChar c
  rcases hbytes : String.utf8EncodeChar c with _ | ⟨byte, bytes⟩
  · exact absurd hbytes String.utf8EncodeChar_ne_nil
  · rw [hbytes] at hfront hlen
    have hskip : bytes.length = c.utf8Size - 1 := by
      rw [← hlen, List.length_cons, Nat.add_sub_cancel]
    rw [List.cons_append] at hfront ⊢
    rw [scan, hfront]
    simp only [scan_append hskip]

/-- The encoding of characters is read back, by induction on them. -/
theorem scan_flatMap (cs : List Char) :
    scan 0 (cs.flatMap String.utf8EncodeChar) = cs.map some := by
  induction cs with
  | nil => rfl
  | cons c cs ih => rw [List.flatMap_cons, scan_char, ih, List.map_cons]

/-- All are there exactly if each is. -/
theorem mapM_id_eq_some {α : Type*} {l : List (Option α)} {as : List α} :
    l.mapM id = some as ↔ l = as.map some := by
  induction l generalizing as with
  | nil => cases as <;> simp
  | cons a l ih =>
      rcases a with _ | a
      · cases as <;> simp
      · cases as with
        | nil => simp [Option.bind_eq_some_iff]
        | cons b as => simp [Option.bind_eq_some_iff, ih, and_comm]

/-- **The lossy reader loses nothing of a text.** -/
theorem lossy_encode (s : String) : lossy (encode s) = s := by
  have hget : (fun c : Option Char => c.getD '\uFFFD') ∘ some = id := rfl
  rw [lossy, encode, scan_flatMap, List.map_map, hget, List.map_id, String.ofList_toList]

/-- **Round trip.** The encoding of a text is that text. -/
theorem text?_encode (s : String) : text? (encode s) = some s := by
  rw [text?, encode, scan_flatMap, mapM_id_eq_some.mpr rfl, Option.map_some,
    String.ofList_toList]

/-- Bytes that begin with a character. -/
theorem eq_append_of_front? {bytes : List UInt8} {c : Char} (h : front? bytes = some c) :
    ∃ rest, bytes = String.utf8EncodeChar c ++ rest := by
  obtain ⟨rest, hrest⟩ := ByteArray.exists_of_utf8DecodeChar?_eq_some h
  refine ⟨rest.data.toList, ?_⟩
  have hdata := congrArg (fun b => b.data.toList) hrest
  simpa using hdata

/-- Only the encoding of the characters is read as them. -/
theorem eq_flatMap_of_scan {cs : List Char} {bytes : List UInt8}
    (h : scan 0 bytes = cs.map some) : bytes = cs.flatMap String.utf8EncodeChar := by
  induction cs generalizing bytes with
  | nil =>
      rcases bytes with _ | ⟨byte, bytes⟩
      · rfl
      · rw [scan] at h
        split at h <;> cases h
  | cons c cs ih =>
      have hfront : front? bytes = some c := by
        rcases bytes with _ | ⟨byte, bytes⟩
        · cases h
        · rw [scan] at h
          split at h
          · rename_i c' hc'
            rw [hc']
            exact (List.cons.inj h).1
          · exact absurd (List.cons.inj h).1 (by simp)
      obtain ⟨rest, rfl⟩ := eq_append_of_front? hfront
      rw [scan_char, List.map_cons] at h
      rw [List.flatMap_cons, ← ih (List.cons.inj h).2]

/-- **The strict reader accepts the bytes of texts.** -/
theorem text?_eq_some_iff {bytes : List UInt8} {s : String} :
    text? bytes = some s ↔ bytes = encode s := by
  constructor
  · intro h
    obtain ⟨cs, hcs, rfl⟩ := Option.map_eq_some_iff.mp h
    rw [encode, String.toList_ofList]
    exact eq_flatMap_of_scan (mapM_id_eq_some.mp hcs)
  · rintro rfl
    exact text?_encode s

/-! ### ASCII -/

/-- A character below `0x80` is one byte. -/
theorem utf8EncodeChar_of_lt {c : Char} (h : c.toNat < 0x80) :
    String.utf8EncodeChar c = [UInt8.ofNat c.toNat] :=
  if_pos (Nat.le_of_lt_succ h)

/-- **A byte below `0x80` is a character of its own.** -/
theorem eq_singleton_of_mem {c : Char} {byte : UInt8} (h : byte ∈ String.utf8EncodeChar c)
    (hbyte : byte.toNat < 0x80) : String.utf8EncodeChar c = [byte] ∧ c.toNat = byte.toNat := by
  have hnat : c.toNat = c.val.toNat := rfl
  have hhigh : ∀ n, n < 0x80 → byte ≠ UInt8.ofNat (n + 0x80) := by
    intro n hn heq
    rw [heq, UInt8.toNat_ofNat'] at hbyte
    omega
  rw [String.utf8EncodeChar] at h ⊢
  split at h
  · obtain rfl := List.mem_singleton.mp h
    refine ⟨if_pos ‹_›, ?_⟩
    rw [UInt8.toNat_ofNat']
    omega
  · exfalso
    split at h
    · simp only [List.mem_cons, List.not_mem_nil, or_false] at h
      rcases h with h | h
      · exact hhigh (c.val.toNat / 64 % 32 + 64) (by omega) h
      · exact hhigh (c.val.toNat % 64) (by omega) h
    split at h
    · simp only [List.mem_cons, List.not_mem_nil, or_false] at h
      rcases h with h | h | h
      · exact hhigh (c.val.toNat / 4096 % 16 + 96) (by omega) h
      · exact hhigh (c.val.toNat / 64 % 64) (by omega) h
      · exact hhigh (c.val.toNat % 64) (by omega) h
    · simp only [List.mem_cons, List.not_mem_nil, or_false] at h
      rcases h with h | h | h | h
      · exact hhigh (c.val.toNat / 262144 % 8 + 112) (by omega) h
      · exact hhigh (c.val.toNat / 4096 % 64) (by omega) h
      · exact hhigh (c.val.toNat / 64 % 64) (by omega) h
      · exact hhigh (c.val.toNat % 64) (by omega) h

end Utf8
