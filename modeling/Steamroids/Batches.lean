import Steamroids.Driver
import Steamroids.Framing

/-!
# Trees of Batches

A `Multi` holds frames, and a frame may be a `Multi` again. What Steam sends is therefore a tree,
of batches with messages at its leaves (`MultiTree`), and each batch is stored raw or compressed.
`decode_multi` (`session/connection.rs`) is a loop over the records of one batch that calls
itself for the batches among them.

`Framed`, `Concat` and `Stored` say when bytes are a frame, a payload and a body of such a tree.
Of prost and flate2 they use that bytes which encode a message decode to it, and that bytes which
compress a payload inflate to it.

## Main results

* `decodeRecord_framed`, `decodeRecords_concat`: what the loop makes of the frames and the
  payloads of trees, by induction on the tree.
* `decodeMulti?_eq`: the loop with its slices checked and its iterations counted.
* `decode_multi_flattens`: a tree is flattened if it is not too deep, and refused otherwise.
-/

namespace Steamroids

/-! ### Trees -/

/-- A frame with what is in it: a message, a legacy message of which nothing is read, or a
batch of frames. -/
inductive MultiTree
  | message (msg : SteamMessage)
  | legacy
  | batch (trees : List MultiTree)

mutual

/-- The messages of a tree, from left to right. -/
def MultiTree.leaves : MultiTree → List SteamMessage
  | .message msg => [msg]
  | .legacy => []
  | .batch trees => leavesOf trees

/-- The messages at the leaves of the trees, in order. -/
def leavesOf : List MultiTree → List SteamMessage
  | [] => []
  | t :: ts => t.leaves ++ leavesOf ts

end

mutual

/-- How many batches lie on the longest way down. -/
def MultiTree.depth : MultiTree → Nat
  | .message _ => 0
  | .legacy => 0
  | .batch trees => depthOf trees + 1

/-- The depth of the deepest of the trees. -/
def depthOf : List MultiTree → Nat
  | [] => 0
  | t :: ts => max t.depth (depthOf ts)

end

/-- `body` is the `CMsgMulti` of a batch with this payload, raw or compressed. -/
inductive Stored (P : Prost) (body payload : Bytes) : Prop
  | raw (m : CMsgMulti) : P.multi body = .ok m → m.sizeUnzipped.getD 0 = 0 →
      m.messageBody.getD [] = payload → Stored P body payload
  | gzip (size : UInt32) (data : Bytes) :
      P.multi body = .ok { sizeUnzipped := some size, messageBody := some data } →
      size ≠ 0 → size.toNat ≤ maxMultiUnzipped →
      P.gzip data = (payload, none) → payload.length ≤ maxMultiUnzipped →
      Stored P body payload

mutual

/-- `frame` is the frame of the tree. -/
def MultiTree.Framed (P : Prost) : MultiTree → Bytes → Prop
  | .message msg, frame => msg.emsg.toNat < 2 ^ 31 ∧ msg.emsg ≠ emsgMulti ∧
      ∃ header, header.length < 2 ^ 32 ∧ P.header header = .ok msg.header ∧
        frame = encodeRaw msg.emsg header msg.body
  | .legacy, frame => prefixLen ≤ frame.length ∧ ¬ isProto frame
  | .batch trees, frame => ∃ header decoded body payload,
      header.length < 2 ^ 32 ∧ P.header header = .ok decoded ∧
        frame = encodeRaw emsgMulti header body ∧ Stored P body payload ∧ Concat P trees payload

/-- `payload` is the concatenation of the frames of the trees, each behind its length. -/
def Concat (P : Prost) : List MultiTree → Bytes → Prop
  | [], payload => payload = []
  | t :: ts, payload => ∃ frame rest, t.Framed P frame ∧ frame.length < 2 ^ 32 ∧
      Concat P ts rest ∧ payload = leBytes (UInt32.ofNat frame.length) ++ (frame ++ rest)

end

/-! ### Flattening -/

/-- What `decode_multi` returns for a batch that is nested too deep. -/
def tooDeep : Error := .codec ("Multi nested deeper than " ++ toString maxMultiDepth)

section Flattening

variable {P : Prost}

/-- A compressed payload is found again. -/
theorem multiPayload_of_gzip {size : UInt32} {data payload : Bytes} (hsize : size ≠ 0)
    (hcap : size.toNat ≤ maxMultiUnzipped) (hgzip : P.gzip data = (payload, none))
    (hlen : payload.length ≤ maxMultiUnzipped) :
    multiPayload P { sizeUnzipped := some size, messageBody := some data } = .ok payload := by
  have hpos : size.toNat ≠ 0 := by
    rwa [Ne, ← UInt32.toNat_zero, UInt32.toNat_inj]
  have hread : readToEnd (maxMultiUnzipped + 1) (P.gzip data) = .ok payload := by
    rw [readToEnd, hgzip, if_neg (by simpa using Nat.lt_succ_of_le hlen)]
  simp [multiPayload, gunzip, hpos, hread, Nat.not_lt.mpr hcap, Nat.not_lt.mpr hlen]

/-- The payload of a batch is found again. -/
theorem decodeLevels_stored {body payload : Bytes} (h : Stored P body payload) (levels : Nat) :
    decodeLevels P (levels + 1) body =
      decodeRecords P (decodeLevels P levels) payload.length payload := by
  cases h with
  | raw m hm hsize hbody =>
      have hpayload : multiPayload P m = .ok payload := by
        simp [multiPayload, hsize, hbody]
      simp only [decodeLevels, hm, hpayload, bind, Except.bind]
  | gzip size data hm hsize hcap hgzip hlen =>
      have hpayload := multiPayload_of_gzip hsize hcap hgzip hlen
      simp only [decodeLevels, hm, hpayload, bind, Except.bind]

/-- A frame with a header that decodes is decoded to its message. -/
theorem tryDecode_encodeRaw {emsg : UInt32} {header body : Bytes} {decoded : CMsgProtoBufHeader}
    (hlen : header.length < 2 ^ 32) (hheader : P.header header = .ok decoded)
    (hemsg : emsg.toNat < 2 ^ 31) :
    tryDecode P (encodeRaw emsg header body) = .ok (some ⟨emsg, decoded, body⟩) := by
  rw [tryDecode, unframe_encodeRaw emsg body hlen, and_emsgMask_of_lt hemsg]
  simp only [hheader]

/-- A frame without the protobuf flag decodes to nothing. -/
theorem tryDecode_legacy {frame : Bytes} (hlen : prefixLen ≤ frame.length)
    (hlegacy : ¬ isProto frame) : tryDecode P frame = .ok none := by
  have hword : leWord frame &&& protoMask = 0 := and_protoMask_eq_zero.mpr (Nat.not_le.mp hlegacy)
  simp [tryDecode, unframe, Nat.not_lt.mpr hlen, hword]

/-- One record in front of the others. -/
theorem decodeRecords_cons {nested : Bytes → Except Error (List SteamMessage)} {fuel : Nat}
    {frame : Bytes} (rest : Bytes) (hlen : frame.length < 2 ^ 32) :
    decodeRecords P nested (fuel + 1) (leBytes (UInt32.ofNat frame.length) ++ (frame ++ rest)) =
      (do
        let here ← decodeRecord P nested frame
        let rest ← decodeRecords P nested fuel rest
        .ok (here ++ rest)) := by
  have hword : (UInt32.ofNat frame.length).toNat = frame.length := by
    rw [UInt32.toNat_ofNat']
    exact Nat.mod_eq_of_lt hlen
  have hdrop : (leBytes (UInt32.ofNat frame.length) ++ (frame ++ rest)).drop 4 = frame ++ rest :=
    List.drop_left' (length_leBytes _)
  have hcur : ¬ (leBytes (UInt32.ofNat frame.length) ++ (frame ++ rest)).length < 4 := by simp
  have hframe : ¬ (frame ++ rest).length < frame.length := by simp
  rw [decodeRecords, if_neg hcur, leWord_leBytes, hword, hdrop]
  simp only [if_neg hframe, List.take_left, List.drop_left]

mutual

/-- **The frame of a tree.** -/
theorem decodeRecord_framed : ∀ (t : MultiTree) (levels : Nat) (frame : Bytes),
    t.Framed P frame → decodeRecord P (decodeLevels P levels) frame =
      if t.depth ≤ levels then .ok t.leaves else .error tooDeep
  | .message msg, levels, frame, h => by
      obtain ⟨hemsg, hmulti, header, hlen, hheader, rfl⟩ := h
      simp [decodeRecord, tryDecode_encodeRaw hlen hheader hemsg, hmulti, MultiTree.depth,
        MultiTree.leaves]
  | .legacy, levels, frame, h => by
      obtain ⟨hlen, hlegacy⟩ := h
      simp [decodeRecord, tryDecode_legacy hlen hlegacy, MultiTree.depth, MultiTree.leaves]
  | .batch trees, levels, frame, h => by
      obtain ⟨header, decoded, body, payload, hlen, hheader, rfl, hstored, hconcat⟩ := h
      have hnested : decodeRecord P (decodeLevels P levels) (encodeRaw emsgMulti header body) =
          decodeLevels P levels body := by
        rw [decodeRecord, tryDecode_encodeRaw hlen hheader (by decide)]
        simp only [if_true]
      rw [hnested]
      cases levels with
      | zero => simp [decodeLevels, MultiTree.depth, tooDeep]
      | succ levels =>
          rw [decodeLevels_stored hstored, decodeRecords_concat trees levels _ payload hconcat
            (Nat.le_refl _)]
          simp [MultiTree.depth, MultiTree.leaves]

/-- **The payload of a batch.** -/
theorem decodeRecords_concat : ∀ (ts : List MultiTree) (levels fuel : Nat) (payload : Bytes),
    Concat P ts payload → payload.length ≤ fuel →
      decodeRecords P (decodeLevels P levels) fuel payload =
        if depthOf ts ≤ levels then .ok (leavesOf ts) else .error tooDeep
  | [], levels, fuel, payload, h, hfuel => by
      obtain rfl : payload = [] := h
      cases fuel with
      | zero => simp [decodeRecords, depthOf, leavesOf]
      | succ fuel => simp [decodeRecords, depthOf, leavesOf]
  | t :: ts, levels, fuel, payload, h, hfuel => by
      obtain ⟨frame, rest, hframe, hlen, hrest, rfl⟩ := h
      obtain ⟨fuel, rfl⟩ : ∃ n, fuel = n + 1 := by
        refine Nat.exists_eq_succ_of_ne_zero ?_
        simp only [List.length_append, length_leBytes] at hfuel
        omega
      have hfuel' : rest.length ≤ fuel := by
        simp only [List.length_append, length_leBytes] at hfuel
        omega
      rw [decodeRecords_cons rest hlen, decodeRecord_framed t levels frame hframe,
        decodeRecords_concat ts levels fuel rest hrest hfuel']
      by_cases hdeep : t.depth ≤ levels
      · by_cases hrestDeep : depthOf ts ≤ levels
        · simp [hdeep, hrestDeep, depthOf, leavesOf, bind, Except.bind]
        · simp [hdeep, hrestDeep, depthOf, bind, Except.bind]
      · simp [hdeep, depthOf, bind, Except.bind]

end

end Flattening

/-! ### Slices and iterations -/

section Slices

variable (P : Prost)

/-- The messages that a frame adds, with every slice checked. -/
def decodeRecord? (nested? : Bytes → Option (Except Error (List SteamMessage))) (frame : Bytes) :
    Option (Except Error (List SteamMessage)) := do
  match ← Codec.tryDecode? P frame with
  | .error e => some (.error e)
  | .ok (some sub) => if sub.emsg = emsgMulti then nested? sub.body else some (.ok [sub])
  | .ok none => some (.ok [])

/-- The loop of `decode_multi` with every slice checked, in at most `fuel` iterations. -/
def decodeRecords? (nested? : Bytes → Option (Except Error (List SteamMessage))) :
    Nat → Bytes → List SteamMessage → Option (Except Error (List SteamMessage))
  | 0, _, _ => none
  | fuel + 1, cur, out =>
      if cur.length < 4 then
        some (.ok out)
      else do
        let len := (← word? (← slice? cur 0 4)).toNat
        let cur ← slice? cur 4 cur.length
        if cur.length < len then
          some (.error (.codec "truncated message inside Multi"))
        else
          match ← decodeRecord? P nested? (← slice? cur 0 len) with
          | .error e => some (.error e)
          | .ok msgs => decodeRecords? nested? fuel (← slice? cur len cur.length) (out ++ msgs)

/-- `decode_multi` with every slice checked, in at most `calls` nested calls, and in each of them
no more iterations than the payload has bytes, and one. -/
def decodeMulti? : Nat → Bytes → Nat → Option (Except Error (List SteamMessage))
  | 0, _, _ => none
  | calls + 1, body, depth =>
      if maxMultiDepth < depth then
        some (.error tooDeep)
      else
        match P.multi body with
        | .error e => some (.error (.codec ("decode Multi: " ++ e)))
        | .ok multi =>
            match multiPayload P multi with
            | .error e => some (.error e)
            | .ok payload =>
                decodeRecords? P (fun sub => decodeMulti? calls sub (depth + 1))
                  (payload.length + 1) payload []

variable {P}
variable {nested : Bytes → Except Error (List SteamMessage)}
  {nested? : Bytes → Option (Except Error (List SteamMessage))}

/-- The decoder with fuel agrees with the one without on a record. -/
theorem decodeRecord?_eq (h : ∀ body, nested? body = some (nested body)) (frame : Bytes) :
    decodeRecord? P nested? frame = some (decodeRecord P nested frame) := by
  rw [decodeRecord?, Codec.tryDecode?_eq, decodeRecord]
  rcases tryDecode P frame with e | _ | sub
  · rfl
  · rfl
  · simp only [Option.bind_eq_bind, Option.bind_some, h]
    split <;> rfl

/-- The loop takes one iteration for every record and one to end, and cuts no slice that is not
there. -/
theorem decodeRecords?_eq (h : ∀ body, nested? body = some (nested body)) (fuel : Nat)
    (cur : Bytes) (out : List SteamMessage) (hfuel : cur.length ≤ fuel) :
    decodeRecords? P nested? (fuel + 1) cur out =
      some ((decodeRecords P nested fuel cur).map (out ++ ·)) := by
  induction fuel generalizing cur out with
  | zero =>
      obtain rfl := List.length_eq_zero_iff.mp (Nat.le_zero.mp hfuel)
      simp [decodeRecords?, decodeRecords, Except.map]
  | succ fuel ih =>
      rw [decodeRecords?, decodeRecords]
      by_cases hshort : cur.length < 4
      · simp [hshort, Except.map]
      · have hfour : 4 ≤ cur.length := Nat.le_of_not_lt hshort
        rw [if_neg hshort, if_neg hshort, slice?_of_le (Nat.zero_le 4) hfour,
          slice?_of_le hfour (Nat.le_refl _)]
        simp only [List.drop_zero, Option.bind_eq_bind, Option.bind_some, word?_take hfour,
          List.take_length]
        split
        · rfl
        · rename_i hlong
          have hlen := Nat.le_of_not_lt hlong
          rw [slice?_of_le (Nat.zero_le _) hlen, slice?_of_le hlen (Nat.le_refl _)]
          simp only [List.drop_zero, Option.bind_some, List.take_length, decodeRecord?_eq h]
          rcases decodeRecord P nested ((cur.drop 4).take (leWord cur).toNat) with e | msgs
          · rfl
          · have hrest : ((cur.drop 4).drop (leWord cur).toNat).length ≤ fuel := by
              simp only [List.length_drop]
              omega
            simp only [ih _ (out ++ msgs) hrest, bind, Except.bind]
            rcases decodeRecords P nested fuel ((cur.drop 4).drop (leWord cur).toNat) with e | rest
            · rfl
            · simp [Except.map]

/-- **`decode_multi` ends, and cuts no slice that is not there**, whatever the bytes. -/
theorem decodeMulti?_eq (P : Prost) (levels depth : Nat) (body : Bytes)
    (hlevels : levels + depth = maxMultiDepth + 1) :
    decodeMulti? P (levels + 1) body depth = some (decodeLevels P levels body) := by
  induction levels generalizing depth body with
  | zero =>
      have hdeep : maxMultiDepth < depth := by omega
      simp [decodeMulti?, hdeep, decodeLevels, tooDeep]
  | succ levels ih =>
      have hdeep : ¬ maxMultiDepth < depth := by omega
      have hnested : ∀ sub, decodeMulti? P (levels + 1) sub (depth + 1) =
          some (decodeLevels P levels sub) := fun sub => ih (depth + 1) sub (by omega)
      rw [decodeMulti?, if_neg hdeep, decodeLevels]
      rcases P.multi body with e | multi
      · rfl
      · rcases hpayload : multiPayload P multi with e | payload
        · simp [hpayload, bind, Except.bind]
        · simp only [hpayload, decodeRecords?_eq hnested _ _ _ (Nat.le_refl _), bind, Except.bind]
          rcases decodeRecords P (decodeLevels P levels) payload.length payload with e | msgs
          · rfl
          · simp [Except.map]

end Slices

/-- **Batches are flattened.** The body of a tree of batches decodes to the messages of the tree,
from left to right, if no batch lies deeper than `maxMultiDepth` below the root, and is refused
otherwise. On any bytes `decode_multi` ends without a slice out of range, and returns no
`Multi`. -/
theorem decode_multi_flattens (P : Prost) :
    (∀ (trees : List MultiTree) (payload body : Bytes), Concat P trees payload →
      Stored P body payload →
        (depthOf trees ≤ maxMultiDepth → decodeMulti P body 0 = .ok (leavesOf trees)) ∧
        (maxMultiDepth < depthOf trees → ∃ e, decodeMulti P body 0 = .error e)) ∧
    ∀ body, decodeMulti? P (maxMultiDepth + 2) body 0 = some (decodeMulti P body 0) ∧
      ∀ msgs, decodeMulti P body 0 = .ok msgs → ∀ m ∈ msgs, m.emsg ≠ emsgMulti := by
  refine ⟨?_, ?_⟩
  · intro trees payload body hconcat hstored
    have hdecode : decodeMulti P body 0 =
        if depthOf trees ≤ maxMultiDepth then .ok (leavesOf trees) else .error tooDeep := by
      have hlevels := decodeLevels_stored hstored maxMultiDepth
      rw [decodeRecords_concat trees maxMultiDepth _ payload hconcat (Nat.le_refl _)] at hlevels
      exact hlevels
    refine ⟨?_, ?_⟩
    · intro hshallow
      rw [hdecode, if_pos hshallow]
    · intro hdeep
      exact ⟨tooDeep, by rw [hdecode, if_neg (Nat.not_le.mpr hdeep)]⟩
  · intro body
    exact ⟨decodeMulti?_eq P (maxMultiDepth + 1) 0 body rfl, fun msgs => decodeMulti_ne_multi⟩

namespace Sample

/-- An accepted logon as the only record of a payload. -/
def innerPayload : Bytes := leBytes 10 ++ logonFrame

/-- That payload, compressed with gzip. -/
def innerGzip : Bytes :=
  [0x1f, 0x8b, 0x08, 0x00, 0x00, 0x00, 0x00, 0x00, 0x02, 0x03, 0xe3, 0x62, 0x60, 0x60, 0x78, 0xcf,
    0xc4, 0xd0, 0x00, 0xa4, 0x18, 0x38, 0x18, 0x01, 0x4a, 0x8d, 0x5b, 0xdc, 0x0e, 0x00, 0x00, 0x00]

/-- Like `prost`, with batches that may be compressed, and the one gzip stream. -/
def batchProst : Prost :=
  { prost with
    multi
      | 0x08 :: size :: 0x12 :: n :: data =>
          if data.length = n.toNat ∧ n < 0x80 ∧ size < 0x80 then
            .ok { sizeUnzipped := some size.toUInt32, messageBody := some data }
          else .error "buffer underflow"
      | body => prost.multi body
    gzip data := if data = innerGzip then (innerPayload, none) else prost.gzip data }

/-- A friends list, a compressed batch, and a legacy message. -/
def trees : List MultiTree :=
  [.message { emsg := 767 }, .batch [.message { emsg := 751, body := [0x08, 0x01] }], .legacy]

/-- The frames of the three. -/
def treeFrames : List Bytes :=
  [frame 767 0 [], encodeRaw emsgMulti [] (0x08 :: 14 :: 0x12 :: 32 :: innerGzip),
    [0x02, 0, 0, 0, 0, 0, 0, 0]]

/-- Their records, one after the other. -/
def treePayload : Bytes :=
  treeFrames.flatMap fun frame => leBytes (UInt32.ofNat frame.length) ++ frame

/-- The payload as the field of a `Multi`. -/
def treeBody : Bytes := 0x12 :: UInt8.ofNat treePayload.length :: treePayload

end Sample

/-- A batch in a batch: the messages of both levels come in order. -/
theorem decode_multi_flattens_trees :
    Concat Sample.batchProst Sample.trees Sample.treePayload ∧
      Stored Sample.batchProst Sample.treeBody Sample.treePayload ∧
      decodeMulti Sample.batchProst Sample.treeBody 0 =
        .ok [{ emsg := 767 }, { emsg := 751, body := [0x08, 0x01] }] := by
  have hinner : Stored Sample.batchProst (0x08 :: 14 :: 0x12 :: 32 :: Sample.innerGzip)
      Sample.innerPayload :=
    .gzip 14 Sample.innerGzip rfl (by decide) (by decide) rfl (by decide)
  have hconcat : Concat Sample.batchProst Sample.trees Sample.treePayload := by
    refine ⟨Sample.frame 767 0 [], _, ⟨by decide, by decide, [], by decide, rfl, rfl⟩, by decide,
      ⟨_, _, ⟨[], {}, _, Sample.innerPayload, by decide, rfl, rfl, hinner, ?_⟩, by decide,
        ⟨[0x02, 0, 0, 0, 0, 0, 0, 0], [], ⟨by decide, by decide⟩, by decide, rfl, rfl⟩, rfl⟩, rfl⟩
    exact ⟨Sample.logonFrame, [], ⟨by decide, by decide, [], by decide, rfl, rfl⟩, by decide, rfl,
      rfl⟩
  have hstored : Stored Sample.batchProst Sample.treeBody Sample.treePayload :=
    .raw { messageBody := some Sample.treePayload } (by decide) rfl rfl
  exact ⟨hconcat, hstored,
    ((decode_multi_flattens Sample.batchProst).1 Sample.trees _ _ hconcat hstored).1 (by decide)⟩

end Steamroids
