import Steamroids.Codec

/-!
# Multi Batches

Steam coalesces several messages into one `Multi`. `decodeMulti` (`session/connection.rs`)
splits such a body into its embedded messages: each is a `u32` length followed by a full
frame, nested batches are flattened up to a fixed depth, legacy messages are skipped, and
any error loses the whole batch.

The recursion of the source is on the nesting depth, which `maxMultiDepth` bounds, so the
model recurses on the number of levels still allowed; the record loop recurses on a fuel
that the length of the payload always covers, since a record is at least four bytes long.

## Main results

* `decodeMulti_ne_multi`: no message of a decoded batch is itself a `Multi`.
-/

namespace Steamroids

/-- `k_EMsgMulti`. -/
def emsgMulti : UInt32 := 1

/-- Hard cap on a decompressed `Multi` payload. -/
def maxMultiUnzipped : Nat := 8 * 1024 * 1024

/-- Max nested `Multi` levels. -/
def maxMultiDepth : Nat := 4

/-- `read_to_end` through `take(limit)`: the bytes of the stream up to `limit`, or the
error the stream ends with before it. -/
def readToEnd (limit : Nat) (stream : Bytes × Option String) : Except String Bytes :=
  if limit ≤ stream.1.length then
    .ok (stream.1.take limit)
  else
    match stream.2 with
    | none => .ok stream.1
    | some e => .error e

/-- Gzip-decompress a `Multi` body, refusing to inflate past `maxMultiUnzipped`. -/
def gunzip (P : Prost) (data : Bytes) : Except Error Bytes :=
  match readToEnd (maxMultiUnzipped + 1) (P.gzip data) with
  | .error e => .error (.codec ("gunzip Multi: " ++ e))
  | .ok buf =>
      if maxMultiUnzipped < buf.length then
        .error (.codec ("Multi inflated past " ++ toString maxMultiUnzipped ++ " cap"))
      else
        .ok buf

/-- The payload of a decoded `CMsgMulti`. A non-zero `size_unzipped` means that the body
is compressed. -/
def multiPayload (P : Prost) (multi : CMsgMulti) : Except Error Bytes :=
  let raw := multi.messageBody.getD []
  let size := (multi.sizeUnzipped.getD 0).toNat
  if size = 0 then
    .ok raw
  else if maxMultiUnzipped < size then
    .error (.codec ("Multi size_unzipped " ++ toString size ++ " over "
      ++ toString maxMultiUnzipped ++ " cap"))
  else
    gunzip P raw

/-- The messages of one embedded frame: a batch goes to `nested`, any other message
stands for itself, and a legacy non-protobuf frame holds none. -/
def decodeRecord (P : Prost) (nested : Bytes → Except Error (List SteamMessage))
    (frame : Bytes) : Except Error (List SteamMessage) :=
  match tryDecode P frame with
  | .error e => .error e
  | .ok (some sub) => if sub.emsg = emsgMulti then nested sub.body else .ok [sub]
  | .ok none => .ok []

/-- The record loop of `decode_multi`, with `nested` for the batches inside the batch. -/
def decodeRecords (P : Prost) (nested : Bytes → Except Error (List SteamMessage)) :
    Nat → Bytes → Except Error (List SteamMessage)
  | 0, _ => .ok []
  | fuel + 1, cur =>
      if cur.length < 4 then
        .ok []
      else
        let len := (leWord cur).toNat
        let cur := cur.drop 4
        if cur.length < len then
          .error (.codec "truncated message inside Multi")
        else do
          let here ← decodeRecord P nested (cur.take len)
          let rest ← decodeRecords P nested fuel (cur.drop len)
          .ok (here ++ rest)

/-- `decodeMulti` with the number of nesting levels still allowed. -/
def decodeLevels (P : Prost) : Nat → Bytes → Except Error (List SteamMessage)
  | 0, _ => .error (.codec ("Multi nested deeper than " ++ toString maxMultiDepth))
  | levels + 1, body =>
      match P.multi body with
      | .error e => .error (.codec ("decode Multi: " ++ e))
      | .ok multi => do
          let payload ← multiPayload P multi
          decodeRecords P (decodeLevels P levels) payload.length payload

/-- Split a `CMsgMulti` body into its embedded messages; `depth` is the current nesting
level, bounded by `maxMultiDepth`. -/
def decodeMulti (P : Prost) (body : Bytes) (depth : Nat) :
    Except Error (List SteamMessage) :=
  decodeLevels P (maxMultiDepth + 1 - depth) body

/-! ### A decoded batch is flat -/

/-- An embedded frame holds no `Multi` once the batches inside it do not. -/
theorem decodeRecord_ne_multi {P : Prost}
    {nested : Bytes → Except Error (List SteamMessage)}
    (hnested : ∀ body msgs, nested body = .ok msgs → ∀ m ∈ msgs, m.emsg ≠ emsgMulti)
    {frame : Bytes} {msgs : List SteamMessage}
    (h : decodeRecord P nested frame = .ok msgs) : ∀ m ∈ msgs, m.emsg ≠ emsgMulti := by
  simp only [decodeRecord] at h
  split at h
  · cases h
  · split at h
    · exact hnested _ _ h
    · rename_i hne
      obtain rfl : [_] = msgs := Except.ok.inj h
      intro m hm
      obtain rfl := List.mem_singleton.mp hm
      exact hne
  · obtain rfl : [] = msgs := Except.ok.inj h
    simp

/-- The record loop adds no `Multi` of its own. -/
theorem decodeRecords_ne_multi {P : Prost}
    {nested : Bytes → Except Error (List SteamMessage)}
    (hnested : ∀ body msgs, nested body = .ok msgs → ∀ m ∈ msgs, m.emsg ≠ emsgMulti)
    {fuel : Nat} {cur : Bytes} {msgs : List SteamMessage}
    (h : decodeRecords P nested fuel cur = .ok msgs) : ∀ m ∈ msgs, m.emsg ≠ emsgMulti := by
  induction fuel generalizing cur msgs with
  | zero =>
      obtain rfl : [] = msgs := Except.ok.inj h
      simp
  | succ fuel ih =>
      simp only [decodeRecords] at h
      split at h
      · obtain rfl : [] = msgs := Except.ok.inj h
        simp
      split at h
      · cases h
      obtain ⟨here, hhere, hbind⟩ := bind_eq_ok.mp h
      obtain ⟨rest, hrest, hmsgs⟩ := bind_eq_ok.mp hbind
      obtain rfl : here ++ rest = msgs := Except.ok.inj hmsgs
      intro m hm
      rcases List.mem_append.mp hm with hm | hm
      · exact decodeRecord_ne_multi hnested hhere m hm
      · exact ih hrest m hm

/-- No message of a batch is a batch, by induction on the levels. -/
theorem decodeLevels_ne_multi {P : Prost} {levels : Nat} {body : Bytes}
    {msgs : List SteamMessage} (h : decodeLevels P levels body = .ok msgs) :
    ∀ m ∈ msgs, m.emsg ≠ emsgMulti := by
  induction levels generalizing body msgs with
  | zero => cases h
  | succ levels ih =>
      simp only [decodeLevels] at h
      split at h
      · cases h
      obtain ⟨payload, -, hrec⟩ := bind_eq_ok.mp h
      exact decodeRecords_ne_multi (fun _ _ hn => ih hn) hrec

/-- No message of a decoded batch is itself a `Multi`, whatever the bytes. -/
theorem decodeMulti_ne_multi {P : Prost} {body : Bytes} {depth : Nat}
    {msgs : List SteamMessage} (h : decodeMulti P body depth = .ok msgs) :
    ∀ m ∈ msgs, m.emsg ≠ emsgMulti :=
  decodeLevels_ne_multi h

end Steamroids
