import Steamroids.Ledger
import Steamroids.Message

/-!
# Operations That Steam Answers

Nine operations on friends and profiles (`friends.rs`, `persona.rs`) send a request and judge
the reply. `dispatch_request` (`session/driver.rs`) fails a reply whose routing header has an
`EResult` other than `OK`, and the operation then looks at the one in the body. They are not all
alike: `add_friend` skips the check of the header and takes `DuplicateRequest` for a success,
`create_friends_group` also wants a group id, the results of some messages are signed, and two
operations send a request for every friend of a list.

A session is what it answers to a request, given everything that was exchanged before
(`Session`). So it may answer anything, in any order of its own.

## Main results

* `readReply_eq_ok`: when `dispatch_request` returns a body.
* `asksOnce_of_judge`, `asksEach_of_asksOnce`: what an operation sends, and when it succeeds,
  from what it makes of one body.
* `rejection_never_ok`: the nine operations.
-/

namespace Steamroids

/-- `EResult::DuplicateRequest`. -/
def EResult.duplicateRequest : Int := 29

/-! ### Requests and their answers -/

/-- A request, as it is queued for the driver. -/
structure Asked where
  emsg : UInt32
  body : Bytes
  timeout : Nat
  deriving DecidableEq, Repr

/-- How a request ends, as its caller sees it. -/
inductive RequestEnd
  /-- The queue is closed. -/
  | stopped
  /-- The channel of the reply is closed. -/
  | dropped
  | timedOut
  | replied (res : Except Error SteamMessage)
  deriving DecidableEq

/-- A request and how it ended. -/
abbrev Exchange := Asked × RequestEnd

/-- A session, as its callers see it. -/
abbrev Session := List Exchange → Asked → RequestEnd

/-- The result of an operation, and everything that has been exchanged with the session. -/
abbrev Outcome (α : Type) := Except Error α × List Exchange

/-- Default reply budget. -/
def defaultRequestTimeout : Nat := fromSecs 30

/-- Fail a reply whose header carries a non-OK `EResult`, with Steam's text if it sent one. -/
def checkReplyEresult (msg : SteamMessage) : Except Error Unit :=
  match msg.header.eresult with
  | none => .ok ()
  | some er =>
      if er ≠ EResult.ok then
        let text := match msg.header.errorMessage with
          | some text => if text.isEmpty then "" else ": " ++ text
          | none => ""
        .error (.remote s!"emsg {msg.emsg}: eresult {er}{text}")
      else
        .ok ()

/-- Wait for the reply, optionally reject a non-OK header, and decode the body. -/
def readReply {ρ : Type} (checkEresult : Bool) (decode : Bytes → Except String ρ)
    (answer : RequestEnd) : Except Error ρ :=
  match answer with
  | .stopped => .error (.webSocket "session driver stopped")
  | .dropped => .error (.webSocket "session driver dropped the request")
  | .timedOut => .error (.timeout "steam request")
  | .replied (.error e) => .error e
  | .replied (.ok msg) =>
      match if checkEresult then checkReplyEresult msg else .ok () with
      | .error e => .error e
      | .ok () =>
          match decode msg.body with
          | .error e => .error (.codec s!"decode response: {e}")
          | .ok response => .ok response

/-- Queue a request, await its reply, and read it. -/
def dispatchRequest {ρ : Type} (S : Session) (past : List Exchange) (emsg : UInt32)
    (body : Bytes) (timeout : Nat) (checkEresult : Bool) (decode : Bytes → Except String ρ) :
    Outcome ρ :=
  let asked : Asked := ⟨emsg, body, timeout⟩
  let answer := S past asked
  (readReply checkEresult decode answer, past ++ [(asked, answer)])

/-- `request`: a request with the default timeout, whose reply is checked and decoded. -/
def request {ρ : Type} (S : Session) (past : List Exchange) (emsg : UInt32) (body : Bytes)
    (decode : Bytes → Except String ρ) : Outcome ρ :=
  dispatchRequest S past emsg body defaultRequestTimeout true decode

/-- `request` without the check of the header. -/
def requestIgnoringEresult {ρ : Type} (S : Session) (past : List Exchange) (emsg : UInt32)
    (body : Bytes) (decode : Bytes → Except String ρ) : Outcome ρ :=
  dispatchRequest S past emsg body defaultRequestTimeout false decode

/-! ### Messages -/

/-- `CMsgClientAddFriend`. -/
structure CMsgClientAddFriend where
  steamidToAdd : Option UInt64 := none
  accountnameOrEmailToAdd : Option String := none
  deriving DecidableEq, Repr

/-- `CMsgClientAddFriendResponse`. -/
structure CMsgClientAddFriendResponse where
  eresult : Option Int := none
  steamIdAdded : Option UInt64 := none
  personaNameAdded : Option String := none
  deriving DecidableEq, Repr

/-- `CMsgClientSetPlayerNickname`. -/
structure CMsgClientSetPlayerNickname where
  steamid : Option UInt64 := none
  nickname : Option String := none
  deriving DecidableEq, Repr

/-- A response that only has a result: those of `SetPlayerNickname`, of `DeleteFriendsGroup`
and `ManageFriendsGroup`, and of `AddFriendToGroup` and `RemoveFriendFromGroup`. -/
structure ResultResponse where
  eresult : Option UInt32 := none
  deriving DecidableEq, Repr

/-- `CMsgClientCreateFriendsGroup`. -/
structure CMsgClientCreateFriendsGroup where
  steamid : Option UInt64 := none
  groupname : Option String := none
  steamidFriends : List UInt64 := []
  deriving DecidableEq, Repr

/-- `CMsgClientCreateFriendsGroupResponse`. -/
structure CMsgClientCreateFriendsGroupResponse where
  eresult : Option UInt32 := none
  groupid : Option Int := none
  deriving DecidableEq, Repr

/-- `CMsgClientDeleteFriendsGroup`. -/
structure CMsgClientDeleteFriendsGroup where
  steamid : Option UInt64 := none
  groupid : Option Int := none
  deriving DecidableEq, Repr

/-- `CMsgClientManageFriendsGroup`. -/
structure CMsgClientManageFriendsGroup where
  groupid : Option Int := none
  groupname : Option String := none
  steamidFriendsAdded : List UInt64 := []
  steamidFriendsRemoved : List UInt64 := []
  deriving DecidableEq, Repr

/-- `CMsgClientAddFriendToGroup` and `CMsgClientRemoveFriendFromGroup`. -/
structure CMsgClientFriendGroup where
  groupid : Option Int := none
  steamiduser : Option UInt64 := none
  deriving DecidableEq, Repr

/-- `CMsgClientFriendProfileInfo`. -/
structure CMsgClientFriendProfileInfo where
  steamidFriend : Option UInt64 := none
  deriving DecidableEq, Repr

/-- The fields of `CMsgClientFriendProfileInfoResponse` that the crate reads. -/
structure CMsgClientFriendProfileInfoResponse where
  eresult : Option Int := none
  steamidFriend : Option UInt64 := none
  timeCreated : Option UInt32 := none
  realName : Option String := none
  cityName : Option String := none
  stateName : Option String := none
  countryName : Option String := none
  summary : Option String := none
  deriving DecidableEq, Repr

/-- What the operations use of prost: the encoders of their requests, and the decoders of the
responses, each failing with the text of its error. -/
structure OperationsProst where
  addFriend : CMsgClientAddFriend → Bytes
  addFriendResponse : Bytes → Except String CMsgClientAddFriendResponse
  setPlayerNickname : CMsgClientSetPlayerNickname → Bytes
  setPlayerNicknameResponse : Bytes → Except String ResultResponse
  createFriendsGroup : CMsgClientCreateFriendsGroup → Bytes
  createFriendsGroupResponse : Bytes → Except String CMsgClientCreateFriendsGroupResponse
  deleteFriendsGroup : CMsgClientDeleteFriendsGroup → Bytes
  deleteFriendsGroupResponse : Bytes → Except String ResultResponse
  manageFriendsGroup : CMsgClientManageFriendsGroup → Bytes
  manageFriendsGroupResponse : Bytes → Except String ResultResponse
  addFriendToGroup : CMsgClientFriendGroup → Bytes
  addFriendToGroupResponse : Bytes → Except String ResultResponse
  removeFriendFromGroup : CMsgClientFriendGroup → Bytes
  removeFriendFromGroupResponse : Bytes → Except String ResultResponse
  friendProfileInfo : CMsgClientFriendProfileInfo → Bytes
  friendProfileInfoResponse : Bytes → Except String CMsgClientFriendProfileInfoResponse

/-! ### The operations -/

/-- `EMSG_CLIENT_ADD_FRIEND`. -/
def emsgClientAddFriend : UInt32 := 791

/-- `EMSG_AM_CLIENT_SET_PLAYER_NICKNAME`. -/
def emsgAmClientSetPlayerNickname : UInt32 := 5588

/-- `EMSG_AM_CLIENT_CREATE_FRIENDS_GROUP`. -/
def emsgAmClientCreateFriendsGroup : UInt32 := 5560

/-- `EMSG_AM_CLIENT_DELETE_FRIENDS_GROUP`. -/
def emsgAmClientDeleteFriendsGroup : UInt32 := 5562

/-- `EMSG_AM_CLIENT_MANAGE_FRIENDS_GROUP`. -/
def emsgAmClientManageFriendsGroup : UInt32 := 5564

/-- `EMSG_AM_CLIENT_ADD_FRIEND_TO_GROUP`. -/
def emsgAmClientAddFriendToGroup : UInt32 := 5566

/-- `EMSG_AM_CLIENT_REMOVE_FRIEND_FROM_GROUP`. -/
def emsgAmClientRemoveFriendFromGroup : UInt32 := 5568

/-- `EMSG_CLIENT_FRIEND_PROFILE_INFO`. -/
def emsgClientFriendProfileInfo : UInt32 := 5535

/-- `EResult::OK`, as the unsigned results have it. -/
def eresultOkU32 : UInt32 := 1

/-- `EResult::Fail`, the default of the unsigned results. -/
def eresultFailU32 : UInt32 := 2

/-- The check of an unsigned result. -/
def checkResult (what : String) (eresult : Option UInt32) : Except Error Unit :=
  let code := eresult.getD eresultFailU32
  if code ≠ eresultOkU32 then .error (.remote s!"{what}: eresult {code}") else .ok ()

/-- The result of a friend add. -/
structure AddedFriend where
  steamId : UInt64
  personaName : String
  eresult : Int
  deriving DecidableEq, Repr

/-- What `add` makes of a response. The code decides, not the presence of an id. -/
def addedFriend (response : CMsgClientAddFriendResponse) : Except Error AddedFriend :=
  let code := response.eresult.getD EResult.fail
  if code ≠ EResult.ok ∧ code ≠ EResult.duplicateRequest then
    .error (.remote s!"add friend: eresult {code}")
  else
    match response.steamIdAdded.filter fun id => id != 0 with
    | none => .error (.remote s!"add friend: eresult {code}, no steam id")
    | some steamId => .ok ⟨steamId, response.personaNameAdded.getD "", code⟩

variable (C : OperationsProst) (S : Session)

/-- Shared `AddFriend` request and response handling. -/
def add (message : CMsgClientAddFriend) (past : List Exchange) : Outcome AddedFriend :=
  let r := requestIgnoringEresult S past emsgClientAddFriend (C.addFriend message)
    C.addFriendResponse
  (r.1 >>= addedFriend, r.2)

/-- `add_friend`, by the account's id. -/
def addFriend (steamId : UInt64) (past : List Exchange) : Outcome AddedFriend :=
  add C S { steamidToAdd := some steamId } past

/-- `set_nickname`. -/
def setNickname (steamId : UInt64) (nickname : String) (past : List Exchange) : Outcome Unit :=
  let r := request S past emsgAmClientSetPlayerNickname
    (C.setPlayerNickname { steamid := some steamId, nickname := some nickname })
    C.setPlayerNicknameResponse
  (r.1 >>= fun response => checkResult "set nickname" response.eresult, r.2)

/-- `clear_nickname`: an empty nickname, with an error text of its own. -/
def clearNickname (steamId : UInt64) (past : List Exchange) : Outcome Unit :=
  let r := request S past emsgAmClientSetPlayerNickname
    (C.setPlayerNickname { steamid := some steamId, nickname := some "" })
    C.setPlayerNicknameResponse
  (r.1 >>= fun response => checkResult "clear nickname" response.eresult, r.2)

/-- A group that was created. -/
structure NewFriendsGroup where
  groupId : Int
  name : String
  deriving DecidableEq, Repr

/-- What `create_friends_group` makes of a response; 0 is a usable group id. -/
def newFriendsGroup (name : String) (response : CMsgClientCreateFriendsGroupResponse) :
    Except Error NewFriendsGroup := do
  checkResult "create friends group" response.eresult
  match response.groupid with
  | none => .error (.remote "create friends group: OK without a groupid")
  | some groupId => .ok ⟨groupId, name⟩

/-- `create_friends_group`. -/
def createFriendsGroup (name : String) (members : List UInt64) (past : List Exchange) :
    Outcome NewFriendsGroup :=
  let r := request S past emsgAmClientCreateFriendsGroup
    (C.createFriendsGroup { groupname := some name, steamidFriends := members })
    C.createFriendsGroupResponse
  (r.1 >>= newFriendsGroup name, r.2)

/-- `delete_friends_group`. -/
def deleteFriendsGroup (groupId : Int) (past : List Exchange) : Outcome Unit :=
  let r := request S past emsgAmClientDeleteFriendsGroup
    (C.deleteFriendsGroup { groupid := some groupId }) C.deleteFriendsGroupResponse
  (r.1 >>= fun response => checkResult "delete friends group" response.eresult, r.2)

/-- `rename_friends_group`. -/
def renameFriendsGroup (groupId : Int) (newName : String) (past : List Exchange) : Outcome Unit :=
  let r := request S past emsgAmClientManageFriendsGroup
    (C.manageFriendsGroup { groupid := some groupId, groupname := some newName })
    C.manageFriendsGroupResponse
  (r.1 >>= fun response => checkResult "rename friends group" response.eresult, r.2)

/-- A loop over friends, left at the first error. -/
def eachFriend (body : UInt64 → List Exchange → Outcome Unit) :
    List UInt64 → List Exchange → Outcome Unit
  | [], past => (.ok (), past)
  | sid :: rest, past =>
      match body sid past with
      | (.ok (), past) => eachFriend body rest past
      | (.error e, past) => (.error e, past)

/-- One turn of the loop in `add_friends_to_group`. -/
def addFriendToGroup (groupId : Int) (sid : UInt64) (past : List Exchange) : Outcome Unit :=
  let r := request S past emsgAmClientAddFriendToGroup
    (C.addFriendToGroup { groupid := some groupId, steamiduser := some sid })
    C.addFriendToGroupResponse
  (r.1 >>= fun response =>
    checkResult s!"add friend {sid} to group {groupId}" response.eresult, r.2)

/-- `add_friends_to_group`: one request for each friend. -/
def addFriendsToGroup (groupId : Int) (steamIds : List UInt64) (past : List Exchange) :
    Outcome Unit :=
  eachFriend (addFriendToGroup C S groupId) steamIds past

/-- One turn of the loop in `remove_friends_from_group`. -/
def removeFriendFromGroup (groupId : Int) (sid : UInt64) (past : List Exchange) : Outcome Unit :=
  let r := request S past emsgAmClientRemoveFriendFromGroup
    (C.removeFriendFromGroup { groupid := some groupId, steamiduser := some sid })
    C.removeFriendFromGroupResponse
  (r.1 >>= fun response =>
    checkResult s!"remove friend {sid} from group {groupId}" response.eresult, r.2)

/-- `remove_friends_from_group`: one request for each friend. -/
def removeFriendsFromGroup (groupId : Int) (steamIds : List UInt64) (past : List Exchange) :
    Outcome Unit :=
  eachFriend (removeFriendFromGroup C S groupId) steamIds past

/-- The public profile fields. -/
structure ProfileInfo where
  steamId : UInt64
  realName : Option String
  country : Option String
  state : Option String
  city : Option String
  summary : Option String
  createdAt : Option UInt32
  deriving DecidableEq, Repr

/-- Convert a profile-info response, rejecting a non-OK `EResult`. -/
def profileInfoFromResponse (steamId : UInt64) (response : CMsgClientFriendProfileInfoResponse) :
    Except Error ProfileInfo :=
  let code := response.eresult.getD EResult.fail
  if code ≠ EResult.ok then
    .error (.remote s!"profile info: eresult {code}")
  else
    -- empty strings mean "not shared"
    let someIfSet := fun s : Option String => s.filter fun v => !v.isEmpty
    .ok
      { steamId := response.steamidFriend.getD steamId
        realName := someIfSet response.realName
        country := someIfSet response.countryName
        state := someIfSet response.stateName
        city := someIfSet response.cityName
        summary := someIfSet response.summary
        createdAt := response.timeCreated.filter fun t => t != 0 }

/-- `request_profile_info`. -/
def requestProfileInfo (steamId : UInt64) (past : List Exchange) : Outcome ProfileInfo :=
  let r := request S past emsgClientFriendProfileInfo
    (C.friendProfileInfo { steamidFriend := some steamId }) C.friendProfileInfoResponse
  (r.1 >>= profileInfoFromResponse steamId, r.2)

/-! ### When they succeed -/

variable {C S}

/-- A reply passes if its header has no result, or `OK`. -/
theorem checkReplyEresult_eq_ok {msg : SteamMessage} :
    checkReplyEresult msg = .ok () ↔
      msg.header.eresult = none ∨ msg.header.eresult = some EResult.ok := by
  rcases h : msg.header.eresult with _ | er
  · simp [checkReplyEresult, h]
  · by_cases her : er = EResult.ok
    · simp [checkReplyEresult, h, her]
    · simp [checkReplyEresult, h, her]

/-- A body is returned of a reply whose header passes the check and whose body decodes. -/
theorem readReply_eq_ok {ρ : Type} {checkEresult : Bool} {decode : Bytes → Except String ρ}
    {answer : RequestEnd} {response : ρ} :
    readReply checkEresult decode answer = .ok response ↔
      ∃ msg, answer = .replied (.ok msg) ∧
        (checkEresult → msg.header.eresult = none ∨ msg.header.eresult = some EResult.ok) ∧
        decode msg.body = .ok response := by
  rcases answer with _ | _ | _ | ⟨e | msg⟩
  · simp [readReply]
  · simp [readReply]
  · simp [readReply]
  · simp [readReply]
  · have hcheck : (if checkEresult then checkReplyEresult msg else .ok ()) = .ok () ↔
        (checkEresult → msg.header.eresult = none ∨ msg.header.eresult = some EResult.ok) := by
      cases checkEresult with
      | false => simp
      | true => simp [checkReplyEresult_eq_ok]
    constructor
    · intro h
      simp only [readReply] at h
      split at h
      · cases h
      · rename_i hc
        split at h
        · cases h
        · rename_i r hd
          obtain rfl := Except.ok.inj h
          exact ⟨msg, rfl, hcheck.mp hc, hd⟩
    · rintro ⟨msg', hmsg, hc, hd⟩
      obtain rfl : msg = msg' := by simpa using hmsg
      simp only [readReply, hcheck.mpr hc, hd]

/-- A reply that the operation has to take for a success: its header passes the check, if there
is one, and its body decodes to something good. -/
def Accepts {ρ : Type} (checkEresult : Bool) (decode : Bytes → Except String ρ)
    (good : ρ → Prop) (answer : RequestEnd) : Prop :=
  ∃ msg response, answer = .replied (.ok msg) ∧
    (checkEresult → msg.header.eresult = none ∨ msg.header.eresult = some EResult.ok) ∧
    decode msg.body = .ok response ∧ good response

/-- The operation sends one request, and succeeds exactly if its answer is accepted. -/
def AsksOnce {α : Type} (S : Session) (op : List Exchange → Outcome α) (asked : Asked)
    (accepts : RequestEnd → Prop) : Prop :=
  ∀ past, (op past).2 = past ++ [(asked, S past asked)] ∧
    ((∃ v, (op past).1 = .ok v) ↔ accepts (S past asked))

/-- The operation sends the requests for the ids, in order, up to and including the first one
that is not accepted, and succeeds exactly if all are. -/
def AsksEach (S : Session) (op : List UInt64 → List Exchange → Outcome Unit)
    (asked : UInt64 → Asked) (accepts : RequestEnd → Prop) : Prop :=
  ∀ ids past, ∃ xs, (op ids past).2 = past ++ xs ∧
    xs.map Prod.fst = (ids.take xs.length).map asked ∧
    Ledger.Justified (fun pre x => x.2 = S (past ++ pre) x.1) xs ∧
    (∀ x ∈ xs.dropLast, accepts x.2) ∧
    (xs.length = ids.length ∨ ∃ x, xs.getLast? = some x ∧ ¬ accepts x.2) ∧
    ((op ids past).1 = .ok () ↔ xs.length = ids.length ∧ ∀ x ∈ xs, accepts x.2)

/-- An operation that judges the body of one reply. -/
theorem asksOnce_of_judge {ρ α : Type} {emsg : UInt32} {body : Bytes} {timeout : Nat}
    {checkEresult : Bool} {decode : Bytes → Except String ρ} {judge : ρ → Except Error α}
    {good : ρ → Prop} (hjudge : ∀ response, (∃ v, judge response = .ok v) ↔ good response) :
    AsksOnce S
      (fun past =>
        ((dispatchRequest S past emsg body timeout checkEresult decode).1 >>= judge,
          (dispatchRequest S past emsg body timeout checkEresult decode).2))
      ⟨emsg, body, timeout⟩ (Accepts checkEresult decode good) := by
  intro past
  refine ⟨rfl, ?_⟩
  constructor
  · rintro ⟨v, hv⟩
    obtain ⟨response, hresponse, hjudged⟩ := bind_eq_ok.mp hv
    obtain ⟨msg, hmsg, hheader, hbody⟩ := readReply_eq_ok.mp hresponse
    exact ⟨msg, response, hmsg, hheader, hbody, (hjudge response).mp ⟨v, hjudged⟩⟩
  · rintro ⟨msg, response, hmsg, hheader, hbody, hgood⟩
    obtain ⟨v, hv⟩ := (hjudge response).mpr hgood
    exact ⟨v, bind_eq_ok.mpr ⟨response, readReply_eq_ok.mpr ⟨msg, hmsg, hheader, hbody⟩, hv⟩⟩

/-- A loop over operations that each send one request. -/
theorem asksEach_of_asksOnce {op : UInt64 → List Exchange → Outcome Unit}
    {asked : UInt64 → Asked} {accepts : RequestEnd → Prop}
    (h : ∀ sid, AsksOnce S (op sid) (asked sid) accepts) :
    AsksEach S (eachFriend op) asked accepts := by
  intro ids
  induction ids with
  | nil =>
      intro past
      exact ⟨[], by simp [eachFriend], rfl, Ledger.justified_nil, by simp, .inl rfl,
        by simp [eachFriend]⟩
  | cons sid rest ih =>
      intro past
      obtain ⟨hsent, hok⟩ := h sid past
      rcases hop : op sid past with ⟨e | u, past'⟩
      · rw [hop] at hsent hok
        obtain rfl : past' = _ := hsent
        have hnot : ¬ accepts (S past (asked sid)) := by simpa using hok
        refine ⟨[(asked sid, S past (asked sid))], by simp [eachFriend, hop], by simp, ?_, by simp,
          .inr ⟨_, rfl, hnot⟩, ?_⟩
        · exact Ledger.justified_append_singleton.mpr ⟨Ledger.justified_nil, by simp⟩
        · simp [eachFriend, hop, hnot]
      · rw [hop] at hsent hok
        obtain rfl : past' = _ := hsent
        have hacc : accepts (S past (asked sid)) := by simpa using hok
        obtain ⟨xs, hpast, hasked, hown, hinit, hstop, hres⟩ :=
          ih (past ++ [(asked sid, S past (asked sid))])
        refine ⟨(asked sid, S past (asked sid)) :: xs, ?_, ?_, ?_, ?_, ?_, ?_⟩
        · simpa [eachFriend, hop] using hpast
        · simpa using hasked
        · refine Ledger.justified_append.mpr
            (⟨?_, ?_⟩ : Ledger.Justified _ [(asked sid, S past (asked sid))] ∧ _)
          · exact Ledger.justified_append_singleton.mpr ⟨Ledger.justified_nil, by simp⟩
          · intro pre x post hxs
            simpa using hown pre x post hxs
        · intro x hx
          cases xs with
          | nil => simp at hx
          | cons y ys =>
              rcases List.mem_cons.mp hx with rfl | hx
              · exact hacc
              · exact hinit x hx
        · rcases hstop with hlen | ⟨x, hx, hnot⟩
          · exact .inl (by simp [hlen])
          · exact .inr ⟨x, by simp [List.getLast?_cons, hx], hnot⟩
        · simp [eachFriend, hop, hres, hacc]

/-! ### The nine operations -/

/-- A response passes only with `OK`. -/
theorem checkResult_ok_iff {what : String} {eresult : Option UInt32} :
    (∃ v, checkResult what eresult = .ok v) ↔ eresult = some eresultOkU32 := by
  rcases eresult with _ | code
  · simp [checkResult, eresultFailU32, eresultOkU32]
  · by_cases h : code = eresultOkU32
    · simp [checkResult, h]
    · simp [checkResult, h]

/-- A friend counts as added with `OK` or a duplicate request, and a nonzero id. -/
theorem addedFriend_ok_iff {response : CMsgClientAddFriendResponse} :
    (∃ v, addedFriend response = .ok v) ↔
      (response.eresult = some EResult.ok ∨ response.eresult = some EResult.duplicateRequest) ∧
        ∃ id, response.steamIdAdded = some id ∧ id ≠ 0 := by
  rcases hcode : response.eresult with _ | code
  · simp [addedFriend, hcode, EResult.fail, EResult.ok, EResult.duplicateRequest]
  · by_cases hgood : code = EResult.ok ∨ code = EResult.duplicateRequest
    · have hpass : ¬ (code ≠ EResult.ok ∧ code ≠ EResult.duplicateRequest) := by tauto
      rcases hid : response.steamIdAdded with _ | id
      · simp [addedFriend, hcode, hpass, hid]
      · by_cases hzero : id = 0
        · simp [addedFriend, hcode, hpass, hid, hzero, Option.filter]
        · simp [addedFriend, hcode, hpass, hid, hzero, hgood, Option.filter]
    · have hstop : code ≠ EResult.ok ∧ code ≠ EResult.duplicateRequest := by tauto
      simp [addedFriend, hcode, hstop]

/-- A group counts as created with `OK` and an id. -/
theorem newFriendsGroup_ok_iff {name : String} {response : CMsgClientCreateFriendsGroupResponse} :
    (∃ v, newFriendsGroup name response = .ok v) ↔
      response.eresult = some eresultOkU32 ∧ ∃ id, response.groupid = some id := by
  constructor
  · rintro ⟨v, hv⟩
    obtain ⟨u, hcheck, hgroup⟩ := bind_eq_ok.mp hv
    refine ⟨checkResult_ok_iff.mp ⟨u, hcheck⟩, ?_⟩
    rcases hid : response.groupid with _ | id
    · simp [hid] at hgroup
    · exact ⟨id, rfl⟩
  · rintro ⟨hcode, id, hid⟩
    obtain ⟨u, hcheck⟩ := checkResult_ok_iff.mpr hcode
    exact ⟨⟨id, name⟩, bind_eq_ok.mpr ⟨u, hcheck, by simp [hid]⟩⟩

/-- A profile counts only with `OK`. -/
theorem profileInfoFromResponse_ok_iff {steamId : UInt64}
    {response : CMsgClientFriendProfileInfoResponse} :
    (∃ v, profileInfoFromResponse steamId response = .ok v) ↔
      response.eresult = some EResult.ok := by
  rcases h : response.eresult with _ | code
  · simp [profileInfoFromResponse, h, EResult.fail, EResult.ok]
  · by_cases hcode : code = EResult.ok
    · simp [profileInfoFromResponse, h, hcode]
    · simp [profileInfoFromResponse, h, hcode]

/-- **A rejection never reads as success.** Whatever the session answers, each of the seven
operations that send one request succeeds exactly if the reply is one of success, and the two
that take a list send the requests for its ids up to the first that is not accepted. -/
theorem rejection_never_ok (C : OperationsProst) (S : Session) :
    (∀ steamId, AsksOnce S (addFriend C S steamId)
      ⟨emsgClientAddFriend, C.addFriend { steamidToAdd := some steamId }, defaultRequestTimeout⟩
      (Accepts false C.addFriendResponse fun response =>
        (response.eresult = some 1 ∨ response.eresult = some 29) ∧
          ∃ id, response.steamIdAdded = some id ∧ id ≠ 0)) ∧
    (∀ steamId nickname, AsksOnce S (setNickname C S steamId nickname)
      ⟨emsgAmClientSetPlayerNickname,
        C.setPlayerNickname { steamid := some steamId, nickname := some nickname },
        defaultRequestTimeout⟩
      (Accepts true C.setPlayerNicknameResponse fun response => response.eresult = some 1)) ∧
    (∀ steamId, AsksOnce S (clearNickname C S steamId)
      ⟨emsgAmClientSetPlayerNickname,
        C.setPlayerNickname { steamid := some steamId, nickname := some "" },
        defaultRequestTimeout⟩
      (Accepts true C.setPlayerNicknameResponse fun response => response.eresult = some 1)) ∧
    (∀ name members, AsksOnce S (createFriendsGroup C S name members)
      ⟨emsgAmClientCreateFriendsGroup,
        C.createFriendsGroup { groupname := some name, steamidFriends := members },
        defaultRequestTimeout⟩
      (Accepts true C.createFriendsGroupResponse fun response =>
        response.eresult = some 1 ∧ ∃ id, response.groupid = some id)) ∧
    (∀ groupId, AsksOnce S (deleteFriendsGroup C S groupId)
      ⟨emsgAmClientDeleteFriendsGroup, C.deleteFriendsGroup { groupid := some groupId },
        defaultRequestTimeout⟩
      (Accepts true C.deleteFriendsGroupResponse fun response => response.eresult = some 1)) ∧
    (∀ groupId newName, AsksOnce S (renameFriendsGroup C S groupId newName)
      ⟨emsgAmClientManageFriendsGroup,
        C.manageFriendsGroup { groupid := some groupId, groupname := some newName },
        defaultRequestTimeout⟩
      (Accepts true C.manageFriendsGroupResponse fun response => response.eresult = some 1)) ∧
    (∀ groupId, AsksEach S (addFriendsToGroup C S groupId)
      (fun sid => ⟨emsgAmClientAddFriendToGroup,
        C.addFriendToGroup { groupid := some groupId, steamiduser := some sid },
        defaultRequestTimeout⟩)
      (Accepts true C.addFriendToGroupResponse fun response => response.eresult = some 1)) ∧
    (∀ groupId, AsksEach S (removeFriendsFromGroup C S groupId)
      (fun sid => ⟨emsgAmClientRemoveFriendFromGroup,
        C.removeFriendFromGroup { groupid := some groupId, steamiduser := some sid },
        defaultRequestTimeout⟩)
      (Accepts true C.removeFriendFromGroupResponse fun response =>
        response.eresult = some 1)) ∧
    ∀ steamId, AsksOnce S (requestProfileInfo C S steamId)
      ⟨emsgClientFriendProfileInfo, C.friendProfileInfo { steamidFriend := some steamId },
        defaultRequestTimeout⟩
      (Accepts true C.friendProfileInfoResponse fun response => response.eresult = some 1) := by
  refine ⟨?_, ?_, ?_, ?_, ?_, ?_, ?_, ?_, ?_⟩
  · intro steamId
    exact asksOnce_of_judge fun _ => addedFriend_ok_iff
  · intro steamId nickname
    exact asksOnce_of_judge fun _ => checkResult_ok_iff
  · intro steamId
    exact asksOnce_of_judge fun _ => checkResult_ok_iff
  · intro name members
    exact asksOnce_of_judge fun _ => newFriendsGroup_ok_iff
  · intro groupId
    exact asksOnce_of_judge fun _ => checkResult_ok_iff
  · intro groupId newName
    exact asksOnce_of_judge fun _ => checkResult_ok_iff
  · intro groupId
    exact asksEach_of_asksOnce fun sid => asksOnce_of_judge fun _ => checkResult_ok_iff
  · intro groupId
    exact asksEach_of_asksOnce fun sid => asksOnce_of_judge fun _ => checkResult_ok_iff
  · intro steamId
    exact asksOnce_of_judge fun _ => profileInfoFromResponse_ok_iff

end Steamroids
