import Mathlib.Algebra.GroupWithZero.Nat
import Steamroids.Batches

/-!
# Hostile Batches

What `decode_multi` (`session/connection.rs`) makes of a batch that no honest server sends: one
whose payload was cut off, and one that inflates to more than it is worth.

A payload is a row of records (`layOut`), and a cut leaves some of them whole, and a rest. The
record loop runs while four bytes are left, so a rest with a whole length word is found to be too
short, and a shorter one is passed over.

`decodeMultiLog` is `decode_multi` with the payloads that `gunzip` gave it. The cap on them is
one on each call.

## Main results

* `decodeRecords_layOut`: the loop over whole records, and what is left to it.
* `truncated_batch`: which cuts are refused.
* `decodeMultiLog_fst`: the log does not change the messages.
* `inflation_of_batches`: how much is inflated for a batch.
-/

namespace Steamroids

/-! ### Truncated payloads -/

/-- A frame behind its length. -/
def record (frame : Bytes) : Bytes := leBytes (UInt32.ofNat frame.length) ++ frame

/-- The payload with these frames. -/
def layOut (frames : List Bytes) : Bytes := frames.flatMap record

/-- No frames are laid out as nothing. -/
@[simp] theorem layOut_nil : layOut [] = [] := rfl

/-- The record of the first frame comes first. -/
@[simp] theorem layOut_cons (frame : Bytes) (frames : List Bytes) :
    layOut (frame :: frames) = record frame ++ layOut frames := rfl

/-- A record is four bytes longer than its frame. -/
@[simp] theorem length_record (frame : Bytes) : (record frame).length = 4 + frame.length := by
  rw [record, List.length_append, length_leBytes]

/-- What may stand in a batch: a frame whose length fits its word, and which decodes, together
with the batches inside it. -/
structure WellFormed (P : Prost) (frame : Bytes) : Prop where
  fits : frame.length < 2 ^ 32
  decodes : ∃ msgs, decodeRecord P (decodeLevels P maxMultiDepth) frame = .ok msgs

section Truncation

variable {P : Prost} {nested : Bytes → Except Error (List SteamMessage)}

/-- Too few bytes for a length word end the loop. -/
theorem decodeRecords_of_short (fuel : Nat) {rest : Bytes} (h : rest.length < 4) :
    decodeRecords P nested fuel rest = .ok [] := by
  cases fuel with
  | zero => rfl
  | succ fuel => rw [decodeRecords, if_pos h]

/-- A record that was cut off behind its length word. -/
theorem decodeRecords_of_cut {fuel : Nat} {frame rest : Bytes} (hfits : frame.length < 2 ^ 32)
    (hrest : rest <+: record frame) (hcut : rest.length < (record frame).length)
    (hword : 4 ≤ rest.length) :
    decodeRecords P nested (fuel + 1) rest =
      .error (.codec "truncated message inside Multi") := by
  obtain ⟨part, rfl⟩ : leBytes (UInt32.ofNat frame.length) <+: rest :=
    List.prefix_of_prefix_length_le (List.prefix_append _ frame) hrest (by simpa using hword)
  have hlen : (UInt32.ofNat frame.length).toNat = frame.length := by
    rw [UInt32.toNat_ofNat']
    exact Nat.mod_eq_of_lt hfits
  have hpart : part.length < frame.length := by
    simp only [List.length_append, length_leBytes, length_record] at hcut
    omega
  rw [decodeRecords, if_neg (Nat.not_lt.mpr hword), leWord_leBytes, hlen,
    List.drop_left' (length_leBytes _)]
  exact if_pos hpart

/-- **Whole records.** The loop takes them off one by one, and goes on with what is behind
them. -/
theorem decodeRecords_layOut {frames : List Bytes} (rest : Bytes) {fuel : Nat}
    (hframes : ∀ frame ∈ frames, frame.length < 2 ^ 32 ∧
      ∃ msgs, decodeRecord P nested frame = .ok msgs)
    (hfuel : (layOut frames ++ rest).length ≤ fuel) :
    ∃ msgs fuel', rest.length ≤ fuel' ∧ decodeRecords P nested fuel (layOut frames ++ rest) =
      (decodeRecords P nested fuel' rest).map (msgs ++ ·) := by
  induction frames generalizing fuel with
  | nil =>
      refine ⟨[], fuel, hfuel, ?_⟩
      rw [layOut_nil, List.nil_append]
      rcases decodeRecords P nested fuel rest with e | msgs <;> rfl
  | cons frame frames ih =>
      obtain ⟨⟨hfits, here, hhere⟩, hframes⟩ := List.forall_mem_cons.mp hframes
      rw [layOut_cons, List.append_assoc, List.length_append, length_record] at hfuel
      obtain ⟨fuel, rfl⟩ : ∃ n, fuel = n + 1 := ⟨fuel - 1, by omega⟩
      have hlater : (layOut frames ++ rest).length ≤ fuel := by omega
      obtain ⟨msgs, fuel', hfuel', hrest⟩ := ih hframes hlater
      refine ⟨here ++ msgs, fuel', hfuel', ?_⟩
      rw [layOut_cons, List.append_assoc, record, List.append_assoc,
        decodeRecords_cons _ hfits, hhere, hrest]
      rcases decodeRecords P nested fuel' rest with e | later
      · rfl
      · exact congrArg Except.ok (List.append_assoc here msgs later).symm

end Truncation

/-- A cut leaves whole records and a rest, which is a part of the next record. -/
theorem exists_rest_of_cut {frames : List Bytes} {cut : Bytes} (h : cut <+: layOut frames) :
    ∃ k rest, cut = layOut (frames.take k) ++ rest ∧ (rest = [] ∨ ∃ frame ∈ frames,
      rest <+: record frame ∧ rest.length < (record frame).length) := by
  induction frames generalizing cut with
  | nil => exact ⟨0, [], by simpa using h, .inl rfl⟩
  | cons frame frames ih =>
      rw [layOut_cons] at h
      by_cases hshort : cut.length < (record frame).length
      · refine ⟨0, cut, rfl, .inr ⟨frame, List.mem_cons_self, ?_, hshort⟩⟩
        exact List.prefix_of_prefix_length_le h (List.prefix_append _ _) (Nat.le_of_lt hshort)
      · obtain ⟨later, rfl⟩ : record frame <+: cut :=
          List.prefix_of_prefix_length_le (List.prefix_append _ _) h (Nat.le_of_not_lt hshort)
        obtain ⟨k, rest, rfl, hrest⟩ := ih ((List.prefix_append_right_inj _).mp h)
        refine ⟨k + 1, rest, ?_, hrest.imp_right ?_⟩
        · rw [List.take_succ_cons, layOut_cons, List.append_assoc]
        · rintro ⟨next, hnext, hpart⟩
          exact ⟨next, List.mem_cons_of_mem _ hnext, hpart⟩

/-- **Truncated batches.** A payload of well-formed frames is stored raw, and cut off where no
record ends. It is refused, unless the cut leaves one to three bytes of a length word. -/
theorem truncated_batch (P : Prost) (frames : List Bytes) (cut body : Bytes) (m : CMsgMulti)
    (hframes : ∀ frame ∈ frames, WellFormed P frame) (hcut : cut <+: layOut frames)
    (hboundary : ∀ k, cut ≠ layOut (frames.take k)) (hm : P.multi body = .ok m)
    (hsize : m.sizeUnzipped.getD 0 = 0) (hbody : m.messageBody.getD [] = cut) :
    (∃ e, decodeMulti P body 0 = .error e) ↔
      ∀ k rest, cut = layOut (frames.take k) ++ rest → ¬ (1 ≤ rest.length ∧ rest.length ≤ 3) := by
  have hdecode : decodeMulti P body 0 =
      decodeRecords P (decodeLevels P maxMultiDepth) cut.length cut :=
    decodeLevels_stored (.raw m hm hsize hbody) maxMultiDepth
  have hwhole : ∀ k rest, cut = layOut (frames.take k) ++ rest → ∃ msgs fuel,
      rest.length ≤ fuel ∧ decodeMulti P body 0 =
        (decodeRecords P (decodeLevels P maxMultiDepth) fuel rest).map (msgs ++ ·) := by
    intro k rest hrest
    rw [hdecode, hrest]
    refine decodeRecords_layOut rest (fun frame hframe => ?_) (Nat.le_refl _)
    obtain ⟨hfits, hdecodes⟩ := hframes frame (List.mem_of_mem_take hframe)
    exact ⟨hfits, hdecodes⟩
  refine ⟨?_, ?_⟩
  · rintro ⟨e, he⟩ k rest hrest ⟨-, hthree⟩
    obtain ⟨msgs, fuel, -, hok⟩ := hwhole k rest hrest
    rw [he, decodeRecords_of_short fuel (Nat.lt_succ_of_le hthree)] at hok
    cases hok
  · intro hnoword
    obtain ⟨k, rest, hrest, hnext⟩ := exists_rest_of_cut hcut
    have hword : 4 ≤ rest.length := by
      have hne : rest ≠ [] := by
        rintro rfl
        exact hboundary k (hrest.trans (List.append_nil _))
      have hpos := List.length_pos_iff.mpr hne
      have hlong := hnoword k rest hrest
      omega
    obtain ⟨msgs, fuel, hfuel, hok⟩ := hwhole k rest hrest
    obtain ⟨fuel, rfl⟩ : ∃ n, fuel = n + 1 := ⟨fuel - 1, by omega⟩
    rcases hnext with rfl | ⟨frame, hframe, hpart, hshort⟩
    · simp at hword
    · rw [decodeRecords_of_cut (hframes frame hframe).fits hpart hshort hword] at hok
      exact ⟨_, hok⟩

namespace Sample

/-- The payload of `treeFrames`, stored raw and cut off after `n` bytes. -/
def cutBody (n : Nat) : Bytes := 0x12 :: UInt8.ofNat n :: (layOut treeFrames).take n

/-- The frames of the example are well formed. -/
theorem wellFormed_treeFrames : ∀ frame ∈ treeFrames, WellFormed batchProst frame := by
  refine List.forall_mem_cons.mpr ⟨⟨by decide, _, rfl⟩, List.forall_mem_cons.mpr
    ⟨⟨by decide, _, rfl⟩, List.forall_mem_cons.mpr ⟨⟨by decide, _, rfl⟩, by simp⟩⟩⟩

/-- Where their records end. -/
theorem length_cut_layOut (k : Nat) : (layOut (treeFrames.take k)).length ∈ [0, 12, 60, 72] := by
  rcases k with _ | _ | _ | k
  · decide
  · decide
  · decide
  · rw [List.take_of_length_le (Nat.le_add_left 3 k)]
    decide

/-- No record ends where `n` bytes were kept. -/
theorem cut_ne_layOut {n : Nat} (h : ((layOut treeFrames).take n).length ∉ [0, 12, 60, 72])
    (k : Nat) : (layOut treeFrames).take n ≠ layOut (treeFrames.take k) := by
  intro hk
  exact h (hk ▸ length_cut_layOut k)

end Sample

/-- Two bytes behind the first record are passed over. -/
theorem truncated_length_word :
    (∀ frame ∈ Sample.treeFrames, WellFormed Sample.batchProst frame) ∧
      (layOut Sample.treeFrames).take 14 <+: layOut Sample.treeFrames ∧
      (∀ k, (layOut Sample.treeFrames).take 14 ≠ layOut (Sample.treeFrames.take k)) ∧
      Sample.batchProst.multi (Sample.cutBody 14) =
        .ok { messageBody := some ((layOut Sample.treeFrames).take 14) } ∧
      decodeMulti Sample.batchProst (Sample.cutBody 14) 0 = .ok [{ emsg := 767 }] := by
  exact ⟨Sample.wellFormed_treeFrames, List.take_prefix _ _, Sample.cut_ne_layOut (by decide),
    by decide, by decide⟩

/-- Ten bytes are a length word and a part of the first frame. -/
theorem truncated_batch_inside_frame :
    ∃ e, decodeMulti Sample.batchProst (Sample.cutBody 10) 0 = .error e := by
  refine (truncated_batch Sample.batchProst Sample.treeFrames
    ((layOut Sample.treeFrames).take 10) (Sample.cutBody 10)
    { messageBody := some ((layOut Sample.treeFrames).take 10) } Sample.wellFormed_treeFrames
    (List.take_prefix _ _) (Sample.cut_ne_layOut (by decide)) (by decide) rfl rfl).mpr ?_
  intro k rest hrest
  have hlen : 10 = (layOut (Sample.treeFrames.take k)).length + rest.length := by
    have := congrArg List.length hrest
    rwa [List.length_append, show ((layOut Sample.treeFrames).take 10).length = 10 by decide]
      at this
  have hwhole := Sample.length_cut_layOut k
  simp only [List.mem_cons, List.not_mem_nil, or_false] at hwhole
  omega

/-! ### Inflated payloads -/

section Inflation

variable (P : Prost)

/-- `multiPayload`, and what `gunzip` gave for it. -/
def multiPayloadLog (multi : CMsgMulti) : Except Error (Bytes × List Bytes) := do
  let payload ← multiPayload P multi
  .ok (payload, if (multi.sizeUnzipped.getD 0).toNat = 0 then [] else [payload])

/-- `decodeRecord`, with the buffers that were inflated on the way. -/
def decodeRecordLog (nested : Bytes → Except Error (List SteamMessage × List Bytes))
    (frame : Bytes) : Except Error (List SteamMessage × List Bytes) :=
  match tryDecode P frame with
  | .error e => .error e
  | .ok (some sub) => if sub.emsg = emsgMulti then nested sub.body else .ok ([sub], [])
  | .ok none => .ok ([], [])

/-- `decodeRecords`, with the buffers that were inflated on the way. -/
def decodeRecordsLog (nested : Bytes → Except Error (List SteamMessage × List Bytes)) :
    Nat → Bytes → Except Error (List SteamMessage × List Bytes)
  | 0, _ => .ok ([], [])
  | fuel + 1, cur =>
      if cur.length < 4 then
        .ok ([], [])
      else
        let len := (leWord cur).toNat
        let cur := cur.drop 4
        if cur.length < len then
          .error (.codec "truncated message inside Multi")
        else do
          let here ← decodeRecordLog P nested (cur.take len)
          let rest ← decodeRecordsLog nested fuel (cur.drop len)
          .ok (here.1 ++ rest.1, here.2 ++ rest.2)

/-- `decodeLevels`, with the buffers that were inflated on the way. -/
def decodeLevelsLog : Nat → Bytes → Except Error (List SteamMessage × List Bytes)
  | 0, _ => .error (.codec ("Multi nested deeper than " ++ toString maxMultiDepth))
  | levels + 1, body =>
      match P.multi body with
      | .error e => .error (.codec ("decode Multi: " ++ e))
      | .ok multi => do
          let payload ← multiPayloadLog P multi
          let decoded ← decodeRecordsLog P (decodeLevelsLog levels) payload.1.length payload.1
          .ok (decoded.1, payload.2 ++ decoded.2)

/-- `decode_multi`, and the payloads that `gunzip` gave on all levels. -/
def decodeMultiLog (body : Bytes) (depth : Nat) : Except Error (List SteamMessage × List Bytes) :=
  decodeLevelsLog P (maxMultiDepth + 1 - depth) body

variable {P}
variable {nested : Bytes → Except Error (List SteamMessage)}
  {nestedLog : Bytes → Except Error (List SteamMessage × List Bytes)}

/-- A record decodes to the same messages with the log. -/
theorem decodeRecordLog_fst (h : ∀ body, (nestedLog body).map Prod.fst = nested body)
    (frame : Bytes) :
    (decodeRecordLog P nestedLog frame).map Prod.fst = decodeRecord P nested frame := by
  rw [decodeRecordLog, decodeRecord]
  rcases tryDecode P frame with e | _ | sub
  · rfl
  · rfl
  · by_cases hmulti : sub.emsg = emsgMulti
    · simp only [if_pos hmulti, h]
    · simp only [if_neg hmulti]
      rfl

/-- So do the records, by induction on the fuel. -/
theorem decodeRecordsLog_fst (h : ∀ body, (nestedLog body).map Prod.fst = nested body)
    (fuel : Nat) (cur : Bytes) :
    (decodeRecordsLog P nestedLog fuel cur).map Prod.fst = decodeRecords P nested fuel cur := by
  induction fuel generalizing cur with
  | zero => rfl
  | succ fuel ih =>
      rw [decodeRecordsLog, decodeRecords]
      by_cases hshort : cur.length < 4
      · rw [if_pos hshort, if_pos hshort]
        rfl
      rw [if_neg hshort, if_neg hshort]
      by_cases hcut : (cur.drop 4).length < (leWord cur).toNat
      · simp only [if_pos hcut]
        rfl
      simp only [if_neg hcut, ← decodeRecordLog_fst h, ← ih]
      rcases decodeRecordLog P nestedLog ((cur.drop 4).take (leWord cur).toNat) with e | here
      · rfl
      · rcases decodeRecordsLog P nestedLog fuel ((cur.drop 4).drop (leWord cur).toNat)
          with e | rest <;> rfl

/-- So does a batch, by induction on the levels. -/
theorem decodeLevelsLog_fst (P : Prost) (levels : Nat) (body : Bytes) :
    (decodeLevelsLog P levels body).map Prod.fst = decodeLevels P levels body := by
  induction levels generalizing body with
  | zero => rfl
  | succ levels ih =>
      rw [decodeLevelsLog, decodeLevels]
      rcases P.multi body with e | multi
      · rfl
      rcases hpayload : multiPayload P multi with e | payload
      · simp only [multiPayloadLog, hpayload, bind, Except.bind]
        rfl
      simp only [multiPayloadLog, hpayload, bind, Except.bind, ← decodeRecordsLog_fst ih]
      rcases decodeRecordsLog P (decodeLevelsLog P levels) payload.length payload with e | decoded
        <;> rfl

/-- **The log changes nothing.** -/
theorem decodeMultiLog_fst (P : Prost) (body : Bytes) (depth : Nat) :
    (decodeMultiLog P body depth).map Prod.fst = decodeMulti P body depth :=
  decodeLevelsLog_fst P _ body

/-- One record in front of the others. -/
theorem decodeRecordsLog_record {fuel : Nat} {frame : Bytes} (rest : Bytes)
    (hfits : frame.length < 2 ^ 32) :
    decodeRecordsLog P nestedLog (fuel + 1) (record frame ++ rest) = (do
      let here ← decodeRecordLog P nestedLog frame
      let rest ← decodeRecordsLog P nestedLog fuel rest
      .ok (here.1 ++ rest.1, here.2 ++ rest.2)) := by
  have hlen : (UInt32.ofNat frame.length).toNat = frame.length := by
    rw [UInt32.toNat_ofNat']
    exact Nat.mod_eq_of_lt hfits
  have hcur : ¬ (leBytes (UInt32.ofNat frame.length) ++ (frame ++ rest)).length < 4 := by simp
  have hframe : ¬ (frame ++ rest).length < frame.length := by simp
  rw [record, List.append_assoc, decodeRecordsLog, if_neg hcur, leWord_leBytes, hlen,
    List.drop_left' (length_leBytes _)]
  simp only [if_neg hframe, List.take_left, List.drop_left]

/-- Equal frames without messages inflate to the same payloads again and again. -/
theorem decodeRecordsLog_replicate {frame : Bytes} {log : List Bytes}
    (hfits : frame.length < 2 ^ 32) (hframe : decodeRecordLog P nestedLog frame = .ok ([], log))
    (n : Nat) {fuel : Nat} (hfuel : (layOut (List.replicate n frame)).length ≤ fuel) :
    decodeRecordsLog P nestedLog fuel (layOut (List.replicate n frame)) =
      .ok ([], (List.replicate n log).flatten) := by
  induction n generalizing fuel with
  | zero => cases fuel <;> rfl
  | succ n ih =>
      rw [List.replicate_succ, layOut_cons, List.length_append, length_record] at hfuel
      obtain ⟨fuel, rfl⟩ : ∃ m, fuel = m + 1 := ⟨fuel - 1, by omega⟩
      rw [List.replicate_succ, layOut_cons, decodeRecordsLog_record _ hfits, hframe,
        ih (by omega)]
      rfl

/-- A raw batch of equal batches without messages. -/
theorem decodeLevelsLog_replicate {body sub : Bytes} {log : List Bytes} {n levels : Nat}
    (hmulti : P.multi body =
      .ok { messageBody := some (layOut (List.replicate n (encodeRaw emsgMulti [] sub))) })
    (hheader : P.header [] = .ok {}) (hfits : (encodeRaw emsgMulti [] sub).length < 2 ^ 32)
    (hsub : decodeLevelsLog P levels sub = .ok ([], log)) :
    decodeLevelsLog P (levels + 1) body = .ok ([], (List.replicate n log).flatten) := by
  have hframe : decodeRecordLog P (decodeLevelsLog P levels) (encodeRaw emsgMulti [] sub) =
      .ok ([], log) := by
    rw [decodeRecordLog, tryDecode_encodeRaw (by decide) hheader (by decide)]
    exact hsub
  have hrecords := decodeRecordsLog_replicate hfits hframe n (Nat.le_refl _)
  rw [decodeLevelsLog, hmulti]
  simp only [multiPayloadLog, multiPayload, Option.getD_none, Option.getD_some, UInt32.toNat_zero,
    if_true, bind, Except.bind, hrecords, List.nil_append]

/-- A compressed batch with one legacy message. -/
theorem decodeLevelsLog_legacy {body data frame : Bytes} {size : UInt32}
    (hmulti : P.multi body = .ok { sizeUnzipped := some size, messageBody := some data })
    (hsize : size ≠ 0) (hcap : size.toNat ≤ maxMultiUnzipped)
    (hgzip : P.gzip data = (record frame, none)) (hlen : (record frame).length ≤ maxMultiUnzipped)
    (hlegacy : tryDecode P frame = .ok none) (levels : Nat) :
    decodeLevelsLog P (levels + 1) body = .ok ([], [record frame]) := by
  have hpos : size.toNat ≠ 0 := by
    rwa [Ne, ← UInt32.toNat_zero, UInt32.toNat_inj]
  have hlog : multiPayloadLog P { sizeUnzipped := some size, messageBody := some data } =
      .ok (record frame, [record frame]) := by
    simp [multiPayloadLog, multiPayload_of_gzip hsize hcap hgzip hlen, hpos, bind, Except.bind]
  have hrecords : ∀ fuel, decodeRecordsLog P (decodeLevelsLog P levels) (fuel + 1)
      (record frame) = .ok ([], []) := by
    intro fuel
    have hfits : frame.length < 2 ^ 32 := by
      simp only [length_record, maxMultiUnzipped] at hlen
      omega
    rw [← List.append_nil (record frame), decodeRecordsLog_record [] hfits, decodeRecordLog,
      hlegacy]
    cases fuel <;> rfl
  have hlength : (record frame).length = (3 + frame.length) + 1 := by
    rw [length_record]
    omega
  rw [decodeLevelsLog, hmulti]
  simp only [hlog, bind, Except.bind, hlength, hrecords, List.append_nil]

/-- No payload of the log is longer than the cap. -/
def Capped (log : List Bytes) : Prop := ∀ buf ∈ log, buf.length ≤ maxMultiUnzipped

/-- No buffer is within the cap. -/
theorem capped_nil : Capped [] := by simp [Capped]

/-- Two lists of buffers within the cap are one. -/
theorem Capped.append {log later : List Bytes} (h : Capped log) (hlater : Capped later) :
    Capped (log ++ later) := by
  intro buf hbuf
  rcases List.mem_append.mp hbuf with hbuf | hbuf
  · exact h buf hbuf
  · exact hlater buf hbuf

/-- All of them together. -/
theorem Capped.sum_length_le {log : List Bytes} (h : Capped log) :
    (log.map List.length).sum ≤ log.length * maxMultiUnzipped := by
  induction log with
  | nil => simp
  | cons buf log ih =>
      obtain ⟨hbuf, hlog⟩ := List.forall_mem_cons.mp h
      have hrest := ih hlog
      simp only [List.map_cons, List.sum_cons, List.length_cons, Nat.succ_mul]
      omega

/-- What is inflated is within the cap. -/
theorem length_le_of_gunzip {data buf : Bytes} (h : gunzip P data = .ok buf) :
    buf.length ≤ maxMultiUnzipped := by
  simp only [gunzip] at h
  split at h
  · cases h
  split at h
  · cases h
  · obtain rfl := Except.ok.inj h
    exact Nat.le_of_not_lt ‹_›

/-- The payload of a batch is inflated within the cap. -/
theorem multiPayloadLog_capped {multi : CMsgMulti} {payload : Bytes} {log : List Bytes}
    (h : multiPayloadLog P multi = .ok (payload, log)) : Capped log := by
  obtain ⟨buf, hbuf, hok⟩ := bind_eq_ok.mp h
  obtain ⟨rfl, rfl⟩ := Prod.mk.inj (Except.ok.inj hok)
  by_cases hraw : (multi.sizeUnzipped.getD 0).toNat = 0
  · rw [if_pos hraw]
    exact capped_nil
  · rw [if_neg hraw]
    simp only [multiPayload, if_neg hraw] at hbuf
    split at hbuf
    · cases hbuf
    · intro payload hpayload
      obtain rfl := List.mem_singleton.mp hpayload
      exact length_le_of_gunzip hbuf

/-- A record inflates within the cap if its batches do. -/
theorem decodeRecordLog_capped
    (hnested : ∀ body msgs log, nestedLog body = .ok (msgs, log) → Capped log) {frame : Bytes}
    {msgs : List SteamMessage} {log : List Bytes}
    (h : decodeRecordLog P nestedLog frame = .ok (msgs, log)) : Capped log := by
  simp only [decodeRecordLog] at h
  split at h
  · cases h
  · split at h
    · exact hnested _ _ _ h
    · obtain ⟨-, rfl⟩ := Prod.mk.inj (Except.ok.inj h)
      exact capped_nil
  · obtain ⟨-, rfl⟩ := Prod.mk.inj (Except.ok.inj h)
    exact capped_nil

/-- So do the records, by induction on the fuel. -/
theorem decodeRecordsLog_capped
    (hnested : ∀ body msgs log, nestedLog body = .ok (msgs, log) → Capped log) {fuel : Nat}
    {cur : Bytes} {msgs : List SteamMessage} {log : List Bytes}
    (h : decodeRecordsLog P nestedLog fuel cur = .ok (msgs, log)) : Capped log := by
  induction fuel generalizing cur msgs log with
  | zero =>
      obtain ⟨-, rfl⟩ := Prod.mk.inj (Except.ok.inj h)
      exact capped_nil
  | succ fuel ih =>
      simp only [decodeRecordsLog] at h
      split at h
      · obtain ⟨-, rfl⟩ := Prod.mk.inj (Except.ok.inj h)
        exact capped_nil
      split at h
      · cases h
      obtain ⟨here, hhere, hbind⟩ := bind_eq_ok.mp h
      obtain ⟨rest, hrest, hlog⟩ := bind_eq_ok.mp hbind
      obtain ⟨-, rfl⟩ := Prod.mk.inj (Except.ok.inj hlog)
      exact (decodeRecordLog_capped hnested hhere).append (ih hrest)

/-- **Every payload is capped**, on whatever level it was inflated. -/
theorem decodeLevelsLog_capped {levels : Nat} {body : Bytes} {msgs : List SteamMessage}
    {log : List Bytes} (h : decodeLevelsLog P levels body = .ok (msgs, log)) : Capped log := by
  induction levels generalizing body msgs log with
  | zero => cases h
  | succ levels ih =>
      simp only [decodeLevelsLog] at h
      split at h
      · cases h
      obtain ⟨payload, hpayload, hbind⟩ := bind_eq_ok.mp h
      obtain ⟨decoded, hdecoded, hlog⟩ := bind_eq_ok.mp hbind
      obtain ⟨-, rfl⟩ := Prod.mk.inj (Except.ok.inj hlog)
      exact (multiPayloadLog_capped hpayload).append
        (decodeRecordsLog_capped (fun _ _ _ hn => ih hn) hdecoded)

end Inflation

/-- **What a batch inflates to.** For a batch that decodes, no call of `gunzip` gave more than the
cap, and all of them together at most the cap for each of them. The cap bounds all that the frame
inflates to if there is at most one compressed batch on all its levels. -/
theorem inflation_of_batches (P : Prost) (body : Bytes) (msgs : List SteamMessage)
    (h : decodeMulti P body 0 = .ok msgs) :
    ∃ log, decodeMultiLog P body 0 = .ok (msgs, log) ∧
      (∀ buf ∈ log, buf.length ≤ maxMultiUnzipped) ∧
      (log.map List.length).sum ≤ log.length * maxMultiUnzipped ∧
      (log.length ≤ 1 → (log.map List.length).sum ≤ maxMultiUnzipped) := by
  rw [← decodeMultiLog_fst] at h
  rcases hlog : decodeMultiLog P body 0 with e | ⟨msgs', log⟩
  · rw [hlog] at h
    cases h
  · rw [hlog] at h
    obtain rfl : msgs' = msgs := Except.ok.inj h
    have hcapped : Capped log := decodeLevelsLog_capped hlog
    refine ⟨log, rfl, hcapped, hcapped.sum_length_le, fun hone => ?_⟩
    calc (log.map List.length).sum
        ≤ log.length * maxMultiUnzipped := hcapped.sum_length_le
      _ ≤ 1 * maxMultiUnzipped := Nat.mul_le_mul_right _ hone
      _ = maxMultiUnzipped := Nat.one_mul _

namespace Sample

/-- A legacy message, all zero, that fills half of what a batch may inflate to. -/
def bigFrame : Bytes := List.replicate 4194301 0

/-- A payload with nothing else in it, of four mebibytes and a byte. -/
def bigPayload : Bytes := record bigFrame

/-- That payload, compressed with gzip. -/
def bigGzip : Bytes :=
  [0x1f, 0x8b, 0x08, 0x00, 0x00, 0x00, 0x00, 0x00, 0x02, 0xff, 0xed, 0xc1, 0x01, 0x0d, 0x00, 0x00,
    0x08, 0x03, 0x20, 0x9b, 0xbd, 0x7f, 0x28, 0xa7, 0x41, 0x0e, 0xec, 0x65] ++
  List.replicate 4064 0 ++ [0xaa, 0x3d, 0x06, 0x62, 0x2f, 0xb1, 0x01, 0x00, 0x40, 0x00]

/-- The `CMsgMulti` with the size and the bytes of the stream. -/
def bigBody : Bytes := [0x08, 0x81, 0x80, 0x80, 0x02, 0x12, 0x86, 0x20] ++ bigGzip

/-- Two such batches in one. -/
def bombPayload : Bytes := layOut (List.replicate 2 (encodeRaw emsgMulti [] bigBody))

/-- The payload as the field of a `Multi`. -/
def bombBody : Bytes := [0x12, 0xb4, 0x40] ++ bombPayload

/-- Like `prost` and flate2 on these bytes. -/
def bombProst : Prost :=
  { prost with
    multi body :=
      if body = bombBody then .ok { messageBody := some bombPayload }
      else if body = bigBody then
        .ok { sizeUnzipped := some 4194305, messageBody := some bigGzip }
      else prost.multi body
    gzip data := if data = bigGzip then (bigPayload, none) else prost.gzip data }

/-- It is one byte above four MiB. -/
theorem length_bigPayload : bigPayload.length = 4194305 := by
  rw [bigPayload, length_record, bigFrame, List.length_replicate]

/-- It decodes to no message. -/
theorem tryDecode_bigFrame : tryDecode bombProst bigFrame = .ok none := by
  have hzeros : bigFrame = 0 :: 0 :: 0 :: 0 :: List.replicate 4194297 0 := rfl
  refine tryDecode_legacy ?_ ?_
  · rw [bigFrame, List.length_replicate]
    decide
  · rw [hzeros, isProto, leWord]
    decide

/-- The outer batch holds the payload as it is. -/
theorem multi_bombBody : bombProst.multi bombBody = .ok { messageBody := some bombPayload } := by
  simp only [bombProst, if_true]

/-- The inner batches hold it compressed. -/
theorem multi_bigBody : bombProst.multi bigBody =
    .ok { sizeUnzipped := some 4194305, messageBody := some bigGzip } := by
  have hne : bigBody ≠ bombBody := by
    intro h
    cases congrArg List.head? h
  simp only [bombProst, if_neg hne, if_true]

/-- It inflates to the big payload. -/
theorem gzip_bigGzip : bombProst.gzip bigGzip = (bigPayload, none) := by
  simp only [bombProst, if_true]

/-- One of the two batches holds no message, and is inflated. -/
theorem decodeLevelsLog_bigBody (levels : Nat) :
    decodeLevelsLog bombProst (levels + 1) bigBody = .ok ([], [bigPayload]) :=
  decodeLevelsLog_legacy multi_bigBody (by decide) (by decide) gzip_bigGzip
    (length_bigPayload.trans_le (by decide)) tryDecode_bigFrame levels

/-- The batch inflates both of its siblings. -/
theorem decodeMultiLog_bombBody :
    decodeMultiLog bombProst bombBody 0 = .ok ([], [bigPayload, bigPayload]) := by
  have hfits : (encodeRaw emsgMulti [] bigBody).length < 2 ^ 32 := by
    simp only [encodeRaw, bigBody, bigGzip, List.length_append, length_leBytes, List.length_cons,
      List.length_nil, List.length_replicate]
    decide
  exact decodeLevelsLog_replicate multi_bombBody rfl hfits (decodeLevelsLog_bigBody 3)

end Sample

/-- Each of the two batches stays below the cap, and both together do not. -/
theorem siblings_inflate_past_cap :
    decodeMulti Sample.bombProst Sample.bombBody 0 = .ok [] ∧
      decodeMultiLog Sample.bombProst Sample.bombBody 0 =
        .ok ([], [Sample.bigPayload, Sample.bigPayload]) ∧
      maxMultiUnzipped < ([Sample.bigPayload, Sample.bigPayload].map List.length).sum := by
  refine ⟨?_, Sample.decodeMultiLog_bombBody, ?_⟩
  · rw [← decodeMultiLog_fst, Sample.decodeMultiLog_bombBody]
    rfl
  · simp only [List.map_cons, List.map_nil, Sample.length_bigPayload]
    decide

/-- Alone, one of the two batches stays within the cap. -/
theorem inflation_of_batches_single :
    decodeMulti Sample.bombProst Sample.bigBody 0 = .ok [] ∧
      ∃ log, decodeMultiLog Sample.bombProst Sample.bigBody 0 = .ok ([], log) ∧
        log.length = 1 ∧ (log.map List.length).sum ≤ maxMultiUnzipped := by
  have hlog : decodeMultiLog Sample.bombProst Sample.bigBody 0 = .ok ([], [Sample.bigPayload]) :=
    Sample.decodeLevelsLog_bigBody 4
  have hok : decodeMulti Sample.bombProst Sample.bigBody 0 = .ok [] := by
    rw [← decodeMultiLog_fst, hlog]
    rfl
  obtain ⟨log, hlog', -, -, hcap⟩ := inflation_of_batches _ _ _ hok
  obtain rfl : [Sample.bigPayload] = log :=
    (Prod.mk.inj (Except.ok.inj (hlog.symm.trans hlog'))).2
  exact ⟨hok, _, hlog, rfl, hcap (Nat.le_refl _)⟩

end Steamroids
