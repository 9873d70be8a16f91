import Steamroids.Multi

/-!
# One Connection: Reading and Logging On

The read side of a CM connection (`session/connection.rs`): `readFrame` skips control
frames, `readMessage` decodes frames and unpacks `Multi` batches into an inbox, and
`logon` reads until the server accepts or refuses the logon.

`read_message` is a future that the driver's `select!` drops and creates anew on every
iteration. Its only suspension point is the wait for the next WebSocket item, and it holds
nothing across it: it waits only with an empty inbox. So it is modelled by the two places
at which it can stand (`ReadFuture`) and by what it does with the next item
(`readMessage`), and a drop just goes back to `ReadFuture.fresh`.

What a connection delivers is `decodedPrefix`: the messages of its frames in order, up to
the first item that ends the stream.

## Main results

* `readMessage_of_some` / `readMessage_of_none`: what the reader does with one item, in
  terms of the messages of that item.
* `decodedPrefix_append`: the decoded prefix of an open stream extends item by item.
* `decodedPrefix_ne_multi`: no delivered message is a `Multi`.
* `logon_spec`: `logon` uses up the decoded prefix through the first answer to the logon
  and leaves the rest of that frame in the inbox.
-/

namespace Steamroids

/-! ### WebSocket items and the messages in them -/

/-- A WebSocket message; the payloads that nothing reads are left out. -/
inductive WsMessage
  | text
  | binary (data : Bytes)
  | ping
  | pong
  | close
  | frame
  deriving DecidableEq, Repr

/-- What polling the WebSocket stream yields: a message, a transport error, or the end of
the stream. -/
inductive WsItem
  | msg (m : WsMessage)
  | failed (e : String)
  | ended
  deriving DecidableEq, Repr

/-- Whether an item counts as inbound activity: every frame does, an error or the end of
the stream does not. -/
def WsItem.touches : WsItem → Bool
  | .msg _ => true
  | _ => false

/-- What `read_frame` makes of one item; `none` reads on. -/
def readFrame : WsItem → Option (Except Error Bytes)
  | .ended => some (.error (.webSocket "connection closed"))
  | .failed e => some (.error (.webSocket e))
  | .msg (.binary data) => some (.ok data)
  | .msg .close => some (.error (.webSocket "server closed the connection"))
  | .msg .text => some (.error (.webSocket "unexpected text frame from CM"))
  | .msg .ping => none
  | .msg .pong => none
  | .msg .frame => none

/-- Where a `read_message` future stands: at the top of its loop, or waiting for the next
WebSocket item. -/
inductive ReadFuture
  | fresh
  | parked
  deriving DecidableEq, Repr

/-- What a waiting `read_message` makes of the next item: the inbox it leaves, and its
result unless it waits on. -/
def readMessage (P : Prost) (inbox : List SteamMessage) (item : WsItem) :
    List SteamMessage × Option (Except Error SteamMessage) :=
  match readFrame item with
  | none => (inbox, none)
  | some (.error e) => (inbox, some (.error e))
  | some (.ok frame) =>
      match tryDecode P frame with
      | .error e => (inbox, some (.error e))
      | .ok (some msg) =>
          if msg.emsg = emsgMulti then
            match decodeMulti P msg.body 0 with
            | .error e => (inbox, some (.error e))
            | .ok msgs =>
                -- `inbox.extend`, then `pop_front` at the top of the loop
                match inbox ++ msgs with
                | [] => ([], none)
                | m :: rest => (rest, some (.ok m))
          else
            (inbox, some (.ok msg))
      | .ok none => (inbox, none)

/-- The messages of one frame, a batch flattened and a legacy message skipped. -/
def decodeFrame (P : Prost) (frame : Bytes) : Except Error (List SteamMessage) :=
  decodeRecord P (fun body => decodeMulti P body 0) frame

/-- The messages of one item; `none` if the item ends the stream. -/
def itemMessages (P : Prost) (item : WsItem) : Option (List SteamMessage) :=
  match readFrame item with
  | none => some []
  | some (.error _) => none
  | some (.ok frame) =>
      match decodeFrame P frame with
      | .error _ => none
      | .ok msgs => some msgs

/-- The in-order concatenation of the messages of the items, up to the first item that
ends the stream. -/
def decodedPrefix (P : Prost) : List WsItem → List SteamMessage
  | [] => []
  | item :: items =>
      match itemMessages P item with
      | none => []
      | some msgs => msgs ++ decodedPrefix P items

/-- None of the items ends the stream. -/
def StreamOpen (P : Prost) (items : List WsItem) : Prop :=
  ∀ item ∈ items, (itemMessages P item).isSome

/-- The reader returns the first message of an item and keeps the others. -/
theorem readMessage_of_some {P : Prost} {item : WsItem} {msgs : List SteamMessage}
    (h : itemMessages P item = some msgs) :
    readMessage P [] item = (msgs.tail, msgs.head?.map .ok) := by
  rcases hf : readFrame item with _ | ⟨e | frame⟩
  · simp only [itemMessages, hf, Option.some.injEq] at h
    subst h
    simp [readMessage, hf]
  · simp [itemMessages, hf] at h
  · rcases hd : tryDecode P frame with e | _ | msg
    · simp [itemMessages, hf, decodeFrame, decodeRecord, hd] at h
    · simp only [itemMessages, hf, decodeFrame, decodeRecord, hd, Option.some.injEq] at h
      subst h
      simp [readMessage, hf, hd]
    · by_cases hmulti : msg.emsg = emsgMulti
      · rcases hm : decodeMulti P msg.body 0 with e | batch
        · simp [itemMessages, hf, decodeFrame, decodeRecord, hd, hmulti, hm] at h
        · simp only [itemMessages, hf, decodeFrame, decodeRecord, hd, hmulti, if_true, hm,
            Option.some.injEq] at h
          subst h
          cases batch <;> simp [readMessage, hf, hd, hmulti, hm]
      · simp only [itemMessages, hf, decodeFrame, decodeRecord, hd, hmulti, if_false,
          Option.some.injEq] at h
        subst h
        simp [readMessage, hf, hd, hmulti]

/-- An item that ends the stream makes the reader fail and adds nothing to the inbox. -/
theorem readMessage_of_none {P : Prost} {item : WsItem} (h : itemMessages P item = none)
    (inbox : List SteamMessage) :
    ∃ e, readMessage P inbox item = (inbox, some (.error e)) := by
  rcases hf : readFrame item with _ | ⟨e | frame⟩
  · simp [itemMessages, hf] at h
  · exact ⟨e, by simp [readMessage, hf]⟩
  · rcases hd : tryDecode P frame with e | _ | msg
    · exact ⟨e, by simp [readMessage, hf, hd]⟩
    · simp [itemMessages, hf, decodeFrame, decodeRecord, hd] at h
    · by_cases hmulti : msg.emsg = emsgMulti
      · rcases hm : decodeMulti P msg.body 0 with e | batch
        · exact ⟨e, by simp [readMessage, hf, hd, hmulti, hm]⟩
        · simp [itemMessages, hf, decodeFrame, decodeRecord, hd, hmulti, hm] at h
      · simp [itemMessages, hf, decodeFrame, decodeRecord, hd, hmulti] at h

/-- No message of an item is a batch. -/
theorem itemMessages_ne_multi {P : Prost} {item : WsItem} {msgs : List SteamMessage}
    (h : itemMessages P item = some msgs) : ∀ m ∈ msgs, m.emsg ≠ emsgMulti := by
  rcases hf : readFrame item with _ | ⟨e | frame⟩
  · simp only [itemMessages, hf, Option.some.injEq] at h
    subst h
    simp
  · simp [itemMessages, hf] at h
  · rcases hd : decodeFrame P frame with e | batch
    · simp [itemMessages, hf, hd] at h
    · simp only [itemMessages, hf, hd, Option.some.injEq] at h
      subst h
      exact decodeRecord_ne_multi (fun _ _ => decodeMulti_ne_multi) hd

/-! ### The decoded prefix of a stream -/

/-- The decoded prefix of an open stream extends by what comes after it. -/
theorem decodedPrefix_append {P : Prost} {items : List WsItem} (h : StreamOpen P items)
    (more : List WsItem) :
    decodedPrefix P (items ++ more) = decodedPrefix P items ++ decodedPrefix P more := by
  induction items with
  | nil => rfl
  | cons item items ih =>
      obtain ⟨msgs, hmsgs⟩ := Option.isSome_iff_exists.mp (h item List.mem_cons_self)
      have hopen : StreamOpen P items := fun i hi => h i (List.mem_cons_of_mem item hi)
      simp only [List.cons_append, decodedPrefix, hmsgs, ih hopen, List.append_assoc]

/-- A stream that has ended delivers nothing more. -/
theorem decodedPrefix_append_of_none {P : Prost} {items : List WsItem}
    (hopen : StreamOpen P items) {item : WsItem} (h : itemMessages P item = none)
    (more : List WsItem) :
    decodedPrefix P (items ++ item :: more) = decodedPrefix P items := by
  rw [decodedPrefix_append hopen]
  simp [decodedPrefix, h]

/-- An open stream delivers the messages of its next item after those of the others. -/
theorem decodedPrefix_concat {P : Prost} {items : List WsItem}
    (hopen : StreamOpen P items) {item : WsItem} {msgs : List SteamMessage}
    (h : itemMessages P item = some msgs) :
    decodedPrefix P (items ++ [item]) = decodedPrefix P items ++ msgs := by
  rw [decodedPrefix_append hopen]
  simp [decodedPrefix, h]

/-- A stream stays open with one more item that decodes. -/
theorem StreamOpen.concat {P : Prost} {items : List WsItem} (hopen : StreamOpen P items)
    {item : WsItem} {msgs : List SteamMessage} (h : itemMessages P item = some msgs) :
    StreamOpen P (items ++ [item]) := by
  intro i hi
  rcases List.mem_append.mp hi with hi | hi
  · exact hopen i hi
  · obtain rfl := List.mem_singleton.mp hi
    rw [h]
    rfl

/-- No delivered message is a `Multi`. -/
theorem decodedPrefix_ne_multi {P : Prost} {items : List WsItem} :
    ∀ m ∈ decodedPrefix P items, m.emsg ≠ emsgMulti := by
  induction items with
  | nil => simp [decodedPrefix]
  | cons item items ih =>
      rcases hmsgs : itemMessages P item with _ | msgs
      · simp [decodedPrefix, hmsgs]
      · intro m hm
        simp only [decodedPrefix, hmsgs, List.mem_append] at hm
        rcases hm with hm | hm
        · exact itemMessages_ne_multi hmsgs m hm
        · exact ih m hm

/-! ### Logging on -/

/-- `k_EMsgClientLogonResponse`. -/
def emsgClientLogonResponse : UInt32 := 751

/-- `k_EMsgClientLoggedOff`. -/
def emsgClientLoggedOff : UInt32 := 757

/-- Base `SteamID` of the initial logon header. -/
def logonHeaderSteamid : UInt64 := 0x0110000100000000

/-- Fallback heartbeat interval if Steam does not specify one. -/
def defaultHeartbeatSecs : Int := 9

/-- A CM connection, without its socket and its activity clock. -/
structure CmConnection where
  steamId : UInt64
  sessionId : Int
  inbox : List SteamMessage
  deriving DecidableEq, Repr

/-- What an accepted logon returns. -/
structure LoggedOn where
  steamId : UInt64
  sessionId : Int
  heartbeatInterval : Nat
  deriving DecidableEq, Repr

/-- A connection that has just been opened. -/
def CmConnection.connect : CmConnection :=
  { steamId := logonHeaderSteamid, sessionId := 0, inbox := [] }

/-- `true` when a logon `EResult` is worth retrying on a fresh connection. -/
def logonEresultRetryable (code : Int) : Bool :=
  code = EResult.noConnection || code = EResult.busy || code = EResult.timeout
    || code = EResult.serviceUnavailable || code = EResult.tryAnotherCm
    || code = EResult.rateLimitExceeded

/-- Classify a rejected logon `EResult` into a retryable or terminal error. -/
def logonRejection (eresult : Int) (reason : String) : Error :=
  if logonEresultRetryable eresult then .logonRetryable reason else .authRejected reason

/-- What `logon` makes of one message; `none` reads on. -/
def CmConnection.logonMessage (P : Prost) (conn : CmConnection) (msg : SteamMessage) :
    Option (Except Error (CmConnection × LoggedOn)) :=
  if msg.emsg = emsgClientLogonResponse then
    match P.logonResponse msg.body with
    | .error e => some (.error (.codec ("decode logon response: " ++ e)))
    | .ok resp =>
        let eresult := resp.eresult.getD EResult.fail
        if eresult ≠ EResult.ok then
          some (.error (logonRejection eresult ("CM logon eresult " ++ toString eresult)))
        else
          let steamId := msg.header.steamid.getD conn.steamId
          let sessionId := msg.header.clientSessionid.getD conn.sessionId
          let hb := max (resp.heartbeatSeconds.getD defaultHeartbeatSecs) 1
          some (.ok ({ conn with steamId, sessionId },
            { steamId, sessionId, heartbeatInterval := fromSecs hb.toNat }))
  else if msg.emsg = emsgClientLoggedOff then
    let eresult := match P.loggedOff msg.body with
      | .error _ => EResult.fail
      | .ok m => m.eresult.getD EResult.fail
    some (.error (logonRejection eresult
      ("CM logged us off during logon (eresult " ++ toString eresult ++ ")")))
  else
    none

/-- How a `logon` ended, with the items it has not read. The inbox of the connection is
kept beside the result, which on an error is dropped with the connection. -/
structure LogonEnd where
  result : Except Error (CmConnection × LoggedOn)
  inbox : List SteamMessage
  unread : List WsItem
  deriving DecidableEq

/-- Read the messages at hand until one answers the logon: the answer and the messages
behind it. -/
def CmConnection.logonInbox (P : Prost) (conn : CmConnection) :
    List SteamMessage → Option (Except Error (CmConnection × LoggedOn) × List SteamMessage)
  | [] => none
  | msg :: rest =>
      match conn.logonMessage P msg with
      | some r => some (r, rest)
      | none => conn.logonInbox P rest

/-- The receive loop of `logon` over the items the socket yields, from an empty inbox;
`none` while it still waits. -/
def CmConnection.logon (P : Prost) (conn : CmConnection) : List WsItem → Option LogonEnd
  | [] => none
  | item :: items =>
      match readMessage P [] item with
      | (_, none) => conn.logon P items
      | (inbox, some (.error e)) => some { result := .error e, inbox, unread := items }
      | (inbox, some (.ok msg)) =>
          match conn.logonInbox P (msg :: inbox) with
          | some (r, rest) => some { result := r, inbox := rest, unread := items }
          | none => conn.logon P items

/-- Whether a message answers a logon. -/
def SteamMessage.answersLogon (msg : SteamMessage) : Bool :=
  msg.emsg = emsgClientLogonResponse || msg.emsg = emsgClientLoggedOff

/-- `logon` reads on exactly past the messages that do not answer it. -/
theorem logonMessage_eq_none_iff {P : Prost} {conn : CmConnection} {msg : SteamMessage} :
    conn.logonMessage P msg = none ↔ msg.answersLogon = false := by
  unfold CmConnection.logonMessage SteamMessage.answersLogon
  by_cases hresp : msg.emsg = emsgClientLogonResponse
  · rcases P.logonResponse msg.body with e | resp
    · simp [hresp]
    · by_cases hok : resp.eresult.getD EResult.fail = EResult.ok
      · simp [hresp, hok]
      · simp [hresp, hok]
  · by_cases hoff : msg.emsg = emsgClientLoggedOff
    · simp [hoff, show emsgClientLoggedOff ≠ emsgClientLogonResponse by decide]
    · simp [hresp, hoff]

/-- The logon stops at the first answer among the messages at hand. -/
theorem logonInbox_eq_some {P : Prost} {conn : CmConnection} {msgs rest : List SteamMessage}
    {r : Except Error (CmConnection × LoggedOn)}
    (h : conn.logonInbox P msgs = some (r, rest)) :
    ∃ skipped answer, msgs = skipped ++ answer :: rest ∧
      (∀ m ∈ skipped, m.answersLogon = false) ∧ answer.answersLogon = true ∧
      conn.logonMessage P answer = some r := by
  induction msgs with
  | nil => cases h
  | cons msg msgs ih =>
      rcases hmsg : conn.logonMessage P msg with _ | r'
      · simp only [CmConnection.logonInbox, hmsg] at h
        obtain ⟨skipped, answer, rfl, hskip, hans, hr⟩ := ih h
        refine ⟨msg :: skipped, answer, rfl, ?_, hans, hr⟩
        intro m hm
        rcases List.mem_cons.mp hm with rfl | hm
        · exact logonMessage_eq_none_iff.mp hmsg
        · exact hskip m hm
      · simp only [CmConnection.logonInbox, hmsg, Option.some.injEq, Prod.mk.injEq] at h
        obtain ⟨rfl, rfl⟩ := h
        refine ⟨[], msg, rfl, by simp, ?_, hmsg⟩
        by_contra hans
        rw [Bool.not_eq_true, ← @logonMessage_eq_none_iff P conn] at hans
        rw [hmsg] at hans
        cases hans

/-- Where the logon goes on waiting, no message has answered it. -/
theorem logonInbox_eq_none {P : Prost} {conn : CmConnection} {msgs : List SteamMessage}
    (h : conn.logonInbox P msgs = none) : ∀ m ∈ msgs, m.answersLogon = false := by
  induction msgs with
  | nil => simp
  | cons msg msgs ih =>
      rcases hmsg : conn.logonMessage P msg with _ | r
      · simp only [CmConnection.logonInbox, hmsg] at h
        intro m hm
        rcases List.mem_cons.mp hm with rfl | hm
        · exact logonMessage_eq_none_iff.mp hmsg
        · exact ih h m hm
      · simp [CmConnection.logonInbox, hmsg] at h

/-- What a `logon` that ended in `l` has read of `items`: either it stopped at the first
message that answers it, having used up the decoded prefix through that message, with the
rest of the frame left in the inbox; or the stream ended before any answer. -/
inductive LogonReads (P : Prost) (conn : CmConnection) (l : LogonEnd) : List WsItem → Prop
  | answered {used : List WsItem} {skipped : List SteamMessage} {answer : SteamMessage} :
      StreamOpen P used →
      decodedPrefix P used = skipped ++ answer :: l.inbox →
      (∀ m ∈ skipped, m.answersLogon = false) →
      answer.answersLogon = true →
      conn.logonMessage P answer = some l.result →
      LogonReads P conn l (used ++ l.unread)
  | cut {used : List WsItem} {item : WsItem} :
      StreamOpen P used →
      itemMessages P item = none →
      (∀ m ∈ decodedPrefix P used, m.answersLogon = false) →
      l.inbox = [] →
      (∃ e, l.result = .error e) →
      LogonReads P conn l (used ++ item :: l.unread)

/-- An item that decodes in front of an open stream. -/
theorem StreamOpen.cons {P : Prost} {items : List WsItem} {item : WsItem}
    {msgs : List SteamMessage} (h : itemMessages P item = some msgs)
    (hopen : StreamOpen P items) : StreamOpen P (item :: items) := by
  intro i hi
  rcases List.mem_cons.mp hi with rfl | hi
  · rw [h]
    rfl
  · exact hopen i hi

/-- An item without an answer in it is read past. -/
theorem LogonReads.cons {P : Prost} {conn : CmConnection} {l : LogonEnd}
    {items : List WsItem} {item : WsItem} {msgs : List SteamMessage}
    (hitem : itemMessages P item = some msgs) (hskip : ∀ m ∈ msgs, m.answersLogon = false)
    (h : LogonReads P conn l items) : LogonReads P conn l (item :: items) := by
  cases h with
  | @answered used skipped answer hopen hdec hs ha hr =>
      refine @LogonReads.answered P conn l (item :: used) (msgs ++ skipped) answer
        (StreamOpen.cons hitem hopen) ?_ ?_ ha hr
      · simp [decodedPrefix, hitem, hdec]
      · intro m hm
        rcases List.mem_append.mp hm with hm | hm
        · exact hskip m hm
        · exact hs m hm
  | @cut used it hopen hit hs hin he =>
      refine @LogonReads.cut P conn l (item :: used) it (StreamOpen.cons hitem hopen) hit ?_
        hin he
      intro m hm
      simp only [decodedPrefix, hitem, List.mem_append] at hm
      rcases hm with hm | hm
      · exact hskip m hm
      · exact hs m hm

/-- **What `logon` reads**, over every sequence of items. -/
theorem logon_spec {P : Prost} {conn : CmConnection} {items : List WsItem} {l : LogonEnd}
    (h : conn.logon P items = some l) : LogonReads P conn l items := by
  induction items with
  | nil => cases h
  | cons item items ih =>
      rcases hitem : itemMessages P item with _ | msgs
      · obtain ⟨e, he⟩ := readMessage_of_none hitem []
        simp only [CmConnection.logon, he, Option.some.injEq] at h
        subst h
        exact @LogonReads.cut P conn _ [] item (by simp [StreamOpen]) hitem
          (by simp [decodedPrefix]) rfl ⟨e, rfl⟩
      · have hread := readMessage_of_some hitem
        cases msgs with
        | nil =>
            simp only [CmConnection.logon, hread, List.head?_nil, Option.map_none] at h
            exact (ih h).cons hitem (by simp)
        | cons msg rest =>
            simp only [CmConnection.logon, hread, List.head?_cons, Option.map_some,
              List.tail_cons] at h
            rcases hin : conn.logonInbox P (msg :: rest) with _ | ⟨r, left⟩
            · simp only [hin] at h
              exact (ih h).cons hitem (logonInbox_eq_none hin)
            · simp only [hin, Option.some.injEq] at h
              subst h
              obtain ⟨skipped, answer, hsplit, hs, ha, hr⟩ := logonInbox_eq_some hin
              refine @LogonReads.answered P conn _ [item] skipped answer
                (StreamOpen.cons hitem (by simp [StreamOpen])) ?_ hs ha hr
              simp [decodedPrefix, hitem, hsplit]

end Steamroids
