import Steamroids.Dialing

/-!
# The Errors of Connecting

Which errors the readers of a new connection give: the decoder's own are codec errors, those of a
logon come from the WebSocket, the decoder or Steam, and those of a proxy's reply from the
transport. A timeout is never among the errors of a logon, and a proxy's reply has one only where
its reader waits.

## Main results

* `logon_fails`: the errors of a logon.
* `readConnectReply_fails`: the errors of a proxy's reply.
-/

namespace Steamroids

variable {α β : Type} {good : Error → Prop}

/-- All errors are of a kind. -/
def Fails (good : Error → Prop) (r : Except Error α) : Prop := ∀ e, r = .error e → good e

/-- A success does not fail. -/
theorem fails_ok (a : α) : Fails good (.ok a) := by
  rintro e ⟨⟩

/-- An error of the kind is a failure of the kind. -/
theorem fails_error {e : Error} (h : good e) : Fails good (.error e : Except Error α) := by
  rintro e' ⟨⟩
  exact h

/-- Two steps that fail only so fail only so. -/
theorem Fails.bind {x : Except Error α} {f : α → Except Error β} (h : Fails good x)
    (hf : ∀ a, Fails good (f a)) : Fails good (x >>= f) := by
  cases x with
  | error e => exact fails_error (h e rfl)
  | ok a => exact hf a

/-- The value does not matter to the failures. -/
theorem Fails.map {r : Except Error α} (h : Fails good r) (f : α → β) : Fails good (r.map f) := by
  cases r with
  | error e => exact fails_error (h e rfl)
  | ok a => exact fails_ok _

/-! ### The decoder -/

/-- A frame or a message that cannot be decoded. -/
def Error.IsCodec (e : Error) : Prop := ∃ text, e = .codec text

/-- A frame is split, or fails to decode. -/
theorem unframe_fails (bytes : Bytes) : Fails Error.IsCodec (unframe bytes) := by
  unfold unframe
  split
  · exact fails_error ⟨_, rfl⟩
  · dsimp only
    split
    · exact fails_ok _
    · split
      · exact fails_error ⟨_, rfl⟩
      · exact fails_ok _

/-- A message is decoded, or fails to decode. -/
theorem tryDecode_fails (P : Prost) (bytes : Bytes) : Fails Error.IsCodec (tryDecode P bytes) := by
  unfold tryDecode
  split
  · next e he => exact fails_error (unframe_fails bytes e he)
  · exact fails_ok _
  · split
    · exact fails_error ⟨_, rfl⟩
    · exact fails_ok _

/-- The payload of a batch is unpacked, or fails to decode. -/
theorem multiPayload_fails (P : Prost) (multi : CMsgMulti) :
    Fails Error.IsCodec (multiPayload P multi) := by
  unfold multiPayload gunzip
  dsimp only
  split
  · exact fails_ok _
  · split
    · exact fails_error ⟨_, rfl⟩
    · split
      · exact fails_error ⟨_, rfl⟩
      · split
        · exact fails_error ⟨_, rfl⟩
        · exact fails_ok _

/-- A record fails with an error of the codec only. -/
theorem decodeRecord_fails {P : Prost} {nested : Bytes → Except Error (List SteamMessage)}
    (h : ∀ body, Fails Error.IsCodec (nested body)) (frame : Bytes) :
    Fails Error.IsCodec (decodeRecord P nested frame) := by
  unfold decodeRecord
  split
  · next e he => exact fails_error (tryDecode_fails P frame e he)
  · split
    · exact h _
    · exact fails_ok _
  · exact fails_ok _

/-- So does the loop over the records, by induction on its fuel. -/
theorem decodeRecords_fails {P : Prost} {nested : Bytes → Except Error (List SteamMessage)}
    (h : ∀ body, Fails Error.IsCodec (nested body)) (fuel : Nat) (cur : Bytes) :
    Fails Error.IsCodec (decodeRecords P nested fuel cur) := by
  induction fuel generalizing cur with
  | zero => exact fails_ok _
  | succ fuel ih =>
      rw [decodeRecords]
      split
      · exact fails_ok _
      · dsimp only
        split
        · exact fails_error ⟨_, rfl⟩
        · exact (decodeRecord_fails h _).bind fun here => (ih _).bind fun rest => fails_ok _

/-- So does a batch, by induction on the levels. -/
theorem decodeLevels_fails (P : Prost) (levels : Nat) (body : Bytes) :
    Fails Error.IsCodec (decodeLevels P levels body) := by
  induction levels generalizing body with
  | zero => exact fails_error ⟨_, rfl⟩
  | succ levels ih =>
      rw [decodeLevels]
      split
      · exact fails_error ⟨_, rfl⟩
      · exact (multiPayload_fails P _).bind fun payload => decodeRecords_fails ih _ _

/-! ### A logon -/

/-- The errors of a logon: of the WebSocket, of the decoder, or a rejection. -/
def Error.OfLogon (e : Error) : Prop :=
  (∃ text, e = .webSocket text) ∨ e.IsCodec ∨ (∃ text, e = .authRejected text) ∨
    ∃ text, e = .logonRetryable text

/-- A frame that cannot be read is an error of the logon. -/
theorem readFrame_fails {item : WsItem} {r : Except Error Bytes} (h : readFrame item = some r) :
    Fails Error.OfLogon r := by
  intro e he
  subst he
  unfold readFrame at h
  split at h <;> first
    | exact .inl ⟨_, (Except.error.inj (Option.some.inj h)).symm⟩
    | cases h

/-- So is a message that cannot be read. -/
theorem readMessage_fails {P : Prost} {inbox left : List SteamMessage} {item : WsItem}
    {r : Except Error SteamMessage} (h : readMessage P inbox item = (left, some r)) :
    Fails Error.OfLogon r := by
  intro e he
  subst he
  have hcodec : ∀ {e' : Error}, (left, some (Except.error e)) =
      (inbox, some (.error e' : Except Error SteamMessage)) → e'.IsCodec → e.OfLogon := by
    intro e' heq hcodec
    obtain rfl : e = e' := Except.error.inj (Option.some.inj (Prod.mk.inj heq).2)
    exact .inr (.inl hcodec)
  unfold readMessage at h
  split at h
  · cases h
  · next e' hframe =>
      obtain rfl : e' = e := Except.error.inj (Option.some.inj (Prod.mk.inj h).2)
      exact readFrame_fails hframe e' rfl
  · next frame hframe =>
      split at h
      · next e' he' => exact hcodec h.symm (tryDecode_fails P frame e' he')
      · split at h
        · split at h
          · next e' he' => exact hcodec h.symm (decodeLevels_fails P _ _ e' he')
          · split at h <;> cases h
        · cases h
      · cases h

/-- What the logon makes of a message is a success, or an error of the logon. -/
theorem logonMessage_fails {P : Prost} {conn : CmConnection} {msg : SteamMessage}
    {r : Except Error (CmConnection × LoggedOn)} (h : conn.logonMessage P msg = some r) :
    Fails Error.OfLogon r := by
  have hrejection : ∀ eresult reason, (logonRejection eresult reason).OfLogon := by
    intro eresult reason
    unfold logonRejection
    split
    · exact .inr (.inr (.inr ⟨_, rfl⟩))
    · exact .inr (.inr (.inl ⟨_, rfl⟩))
  unfold CmConnection.logonMessage at h
  split at h
  · split at h
    · obtain rfl := Option.some.inj h
      exact fails_error (.inr (.inl ⟨_, rfl⟩))
    · dsimp only at h
      split at h
      · obtain rfl := Option.some.inj h
        exact fails_error (hrejection _ _)
      · obtain rfl := Option.some.inj h
        exact fails_ok _
  · split at h
    · obtain rfl := Option.some.inj h
      exact fails_error (hrejection _ _)
    · cases h

/-- **The errors of a logon.** -/
theorem logon_fails {P : Prost} {conn : CmConnection} {items : List WsItem} {l : LogonEnd}
    (h : conn.logon P items = some l) : Fails Error.OfLogon l.result := by
  induction items with
  | nil => cases h
  | cons item items ih =>
      rw [CmConnection.logon] at h
      split at h
      · exact ih h
      · next inbox e hread =>
          obtain rfl := Option.some.inj h
          exact fails_error (readMessage_fails hread e rfl)
      · next inbox msg hread =>
          split at h
          · next r rest hin =>
              obtain rfl := Option.some.inj h
              obtain ⟨skipped, answer, -, -, -, hr⟩ := logonInbox_eq_some hin
              exact logonMessage_fails hr
          · exact ih h

/-! ### The reply of a proxy -/

/-- An error of the transport. -/
def Error.OfTransport (e : Error) : Prop := ∃ te : TransportError, te.toError = e

/-- A line of the proxy's reply is read, or an error of the transport is given. -/
theorem readLine_fails (what : String) (reader : Buffered.Reader UInt8 String) :
    Fails Error.OfTransport (readLine what reader) := by
  unfold readLine
  refine Fails.bind ?_ fun read => ?_
  · unfold timeout
    split
    · exact fails_ok _
    · exact fails_error ⟨.timeout what, rfl⟩
    · exact fails_error ⟨.io _, rfl⟩
  · dsimp only
    split
    · exact fails_ok _
    · exact fails_error ⟨.io _, rfl⟩

/-- The headers of the reply are passed over, or an error of the transport is given. -/
theorem drainHeaders_fails (left : Nat) (reader : Buffered.Reader UInt8 String) :
    Fails Error.OfTransport (drainHeaders left reader) := by
  induction left generalizing reader with
  | zero => exact fails_error ⟨.httpConnect _, rfl⟩
  | succ left ih =>
      rw [drainHeaders]
      refine (readLine_fails _ reader).bind fun read => ?_
      dsimp only
      split
      · exact fails_ok _
      · exact ih _

/-- **The errors of a proxy's reply.** -/
theorem readConnectReply_fails (reader : Buffered.Reader UInt8 String) :
    Fails Error.OfTransport (readConnectReply reader) := by
  unfold readConnectReply
  refine (readLine_fails _ reader).bind fun read => ?_
  dsimp only
  split
  · exact fails_error ⟨.httpConnect _, rfl⟩
  · exact drainHeaders_fails _ _

end Steamroids
