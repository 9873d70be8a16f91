import Steamroids.Crowd
import Steamroids.Readiness

/-!
# CS2 Player Profiles

`cs2.rs` asks the GC of CS2 for a player's profile. The reply carries no job id: it is
broadcast to everybody who waits, and each call takes the first `PlayersProfile` with an entry
for its own account. Any number of calls may wait at once, on clones of one coordinator.

## Main results

* `verdict_profile`: what a call that keeps up makes of the replies since it subscribed.
* `player_profile_of_first_reply`: every call returns the profile of its own account, whatever
  else is broadcast.
-/

namespace Steamroids

namespace Cs2

/-- `APP_ID`: CS2's Steam app id. -/
def appId : UInt32 := 730

/-- `GC_CLIENT_REQUEST_PLAYERS_PROFILE`. -/
def gcClientRequestPlayersProfile : UInt32 := 9127

/-- `GC_PLAYERS_PROFILE`. -/
def gcPlayersProfile : UInt32 := 9128

/-- Detail level requested from the GC. -/
def requestLevel : UInt32 := 32

/-! ### The messages -/

/-- The fields of `CMsgGCCStrike15_v2_ClientRequestPlayersProfile` that the crate writes. -/
structure ClientRequestPlayersProfile where
  accountId : Option UInt32 := none
  requestLevel : Option UInt32 := none
  deriving DecidableEq, Repr

/-- The fields of `PlayerRankingInfo` that the crate reads. -/
structure PlayerRankingInfo where
  rankId : Option UInt32 := none
  wins : Option UInt32 := none
  deriving DecidableEq, Repr

/-- The fields of `PlayerMedalsInfo`. -/
structure PlayerMedalsInfo where
  displayItemsDefidx : List UInt32 := []
  featuredDisplayItemDefidx : Option UInt32 := none
  deriving DecidableEq, Repr

/-- The fields of `CMsgGCCStrike15_v2_MatchmakingGC2ClientHello`, an entry of a
`PlayersProfile`, that the crate reads. -/
structure AccountProfile where
  accountId : Option UInt32 := none
  ranking : Option PlayerRankingInfo := none
  medals : Option PlayerMedalsInfo := none
  playerLevel : Option Int32 := none
  playerCurXp : Option Int32 := none
  deriving DecidableEq, Repr

/-- The field of `CMsgGCCStrike15_v2_PlayersProfile` that the crate reads. -/
structure PlayersProfile where
  accountProfiles : List AccountProfile := []
  deriving DecidableEq, Repr

/-- What the CS2 layer uses of prost. -/
structure Cs2Prost where
  playersProfile : Bytes → Except String PlayersProfile
  encodeRequest : ClientRequestPlayersProfile → Bytes

/-- A CS2 player's public profile summary. -/
structure PlayerProfile where
  accountId : UInt32
  level : Int32
  currentXp : Int32
  competitiveRank : Option UInt32
  competitiveWins : Option UInt32
  medals : List UInt32
  featuredMedal : Option UInt32
  deriving DecidableEq, Repr

/-! ### `request_player_profile` -/

/-- The entry is for `account`. -/
def AccountProfile.isFor (account : UInt32) (entry : AccountProfile) : Bool :=
  entry.accountId == some account

/-- What `request_player_profile` does up to the reply: the request, on a coordinator that is
attached to CS2. -/
def requestPlayerProfile (G : GcProst) (S : Cs2Prost) (appid account : UInt32) :
    Except Error (Call GcMessage PlayersProfile) :=
  if appid ≠ appId then
    .error (.invalidConfig ("GameCoordinator is attached to app " ++ toString appid ++
      ", not CS2 (" ++ toString appId ++ ")"))
  else
    .ok (requestMatching G appid gcClientRequestPlayersProfile
      (S.encodeRequest { accountId := some account, requestLevel := some requestLevel })
      gcPlayersProfile S.playersProfile
      fun response => response.accountProfiles.any (·.isFor account))

/-- The profile that an entry makes for `account`. -/
def PlayerProfile.ofEntry (account : UInt32) (entry : AccountProfile) : PlayerProfile where
  accountId := account
  level := entry.playerLevel.getD 0
  currentXp := entry.playerCurXp.getD 0
  competitiveRank := entry.ranking.bind (·.rankId)
  competitiveWins := entry.ranking.bind (·.wins)
  medals := (entry.medals.map (·.displayItemsDefidx)).getD []
  featuredMedal := entry.medals.bind (·.featuredDisplayItemDefidx)

/-- What it does with the reply. -/
def playerProfile (account : UInt32) (response : PlayersProfile) : Except Error PlayerProfile :=
  match response.accountProfiles.find? (·.isFor account) with
  | some entry => .ok (.ofEntry account entry)
  | none => .error (.network
      ("GC PlayersProfile carried no profile for account " ++ toString account))

/-- What a call for `account` has returned when its request stands at `st`. -/
def result? (account : UInt32) : CallStage PlayersProfile → Option (Except Error PlayerProfile)
  | .wait (.done res) => some (res.bind (playerProfile account))
  | _ => none

/-! ### The replies -/

/-- The first entry for `account` in a GC message. -/
def entryFor (S : Cs2Prost) (account : UInt32) (msg : GcMessage) : Option AccountProfile :=
  if msg.msgtype = gcPlayersProfile then
    match S.playersProfile msg.body with
    | .ok response => response.accountProfiles.find? fun e => decide (e.accountId = some account)
    | .error _ => none
  else
    none

/-- The profile says of the account what the entry does, and what the entry leaves out is 0, empty
or absent. -/
structure PlayerProfile.TakenFrom (p : PlayerProfile) (account : UInt32)
    (entry : AccountProfile) : Prop where
  accountId : p.accountId = account
  level : p.level = entry.playerLevel.getD 0
  currentXp : p.currentXp = entry.playerCurXp.getD 0
  competitiveRank : p.competitiveRank = entry.ranking.bind PlayerRankingInfo.rankId
  competitiveWins : p.competitiveWins = entry.ranking.bind PlayerRankingInfo.wins
  medals : p.medals = (entry.medals.map PlayerMedalsInfo.displayItemsDefidx).getD []
  featuredMedal : p.featuredMedal =
    entry.medals.bind PlayerMedalsInfo.featuredDisplayItemDefidx

/-- The profile that an entry makes is taken from it. -/
theorem takenFrom_ofEntry (account : UInt32) (entry : AccountProfile) :
    (PlayerProfile.ofEntry account entry).TakenFrom account entry :=
  ⟨rfl, rfl, rfl, rfl, rfl, rfl, rfl⟩

/-- What a call for `account` is to make of the messages since it subscribed. -/
def outcome (S : Cs2Prost) (account : UInt32) (replies : List GcMessage) :
    Except Error PlayerProfile :=
  match replies.findSome? (entryFor S account) with
  | some entry => .ok (.ofEntry account entry)
  | none => .error (.timeout "GC response")

/-- Every `PlayersProfile` body decodes. -/
def Decodable (S : Cs2Prost) (msgs : List GcMessage) : Prop :=
  ∀ msg ∈ msgs, msg.msgtype = gcPlayersProfile → ∃ response,
    S.playersProfile msg.body = .ok response

section Judge

variable {G : GcProst} {S : Cs2Prost} {appid account : UInt32}
  {C : Call GcMessage PlayersProfile}

/-- A call is made on a coordinator of CS2. -/
theorem eq_of_requestPlayerProfile (h : requestPlayerProfile G S appid account = .ok C) :
    C = requestMatching G appid gcClientRequestPlayersProfile
      (S.encodeRequest { accountId := some account, requestLevel := some requestLevel })
      gcPlayersProfile S.playersProfile
      fun response => response.accountProfiles.any (·.isFor account) := by
  simp only [requestPlayerProfile] at h
  split at h
  · cases h
  · exact (Except.ok.inj h).symm

/-- A message of another type is passed over. -/
theorem judge_of_other {msg : GcMessage} (hC : requestPlayerProfile G S appid account = .ok C)
    (htype : msg.msgtype ≠ gcPlayersProfile) : C.wait.judge msg = none := by
  rw [eq_of_requestPlayerProfile hC]
  exact if_neg htype

/-- A profile that does not decode fails the call. -/
theorem judge_of_undecodable {msg : GcMessage} {e : String}
    (hC : requestPlayerProfile G S appid account = .ok C)
    (htype : msg.msgtype = gcPlayersProfile) (h : S.playersProfile msg.body = .error e) :
    C.wait.judge msg = some (.error (.codec ("decode GC response: " ++ e))) := by
  simp only [eq_of_requestPlayerProfile hC, requestMatching, if_pos htype, h]

/-- The filter of the request agrees with the search in its reply. -/
theorem judge_of_decoded {msg : GcMessage} {response : PlayersProfile}
    (hC : requestPlayerProfile G S appid account = .ok C)
    (htype : msg.msgtype = gcPlayersProfile) (h : S.playersProfile msg.body = .ok response) :
    C.wait.judge msg =
      if (response.accountProfiles.find? (·.isFor account)).isSome then some (.ok response)
      else none := by
  have hany : response.accountProfiles.any (·.isFor account) =
      (response.accountProfiles.find? (·.isFor account)).isSome := by
    rw [Bool.eq_iff_iff, List.any_eq_true, List.find?_isSome]
  simp only [eq_of_requestPlayerProfile hC, requestMatching, if_pos htype, h, hany]

/-- The entry that the code searches for is the first one with the account's id. -/
theorem entryFor_of_decoded {msg : GcMessage} {response : PlayersProfile}
    (htype : msg.msgtype = gcPlayersProfile) (h : S.playersProfile msg.body = .ok response) :
    entryFor S account msg = response.accountProfiles.find? (·.isFor account) := by
  have hfor : AccountProfile.isFor account = fun e => decide (e.accountId = some account) :=
    funext fun e => beq_eq_decide e.accountId (some account)
  simp only [entryFor, if_pos htype, h, hfor]

/-- A reply with an entry for the account is taken, and the profile is made of this entry. -/
theorem judge_of_entry {msg : GcMessage} {entry : AccountProfile}
    (hC : requestPlayerProfile G S appid account = .ok C)
    (h : entryFor S account msg = some entry) :
    ∃ response, C.wait.judge msg = some (.ok response) ∧
      playerProfile account response = .ok (.ofEntry account entry) := by
  by_cases htype : msg.msgtype = gcPlayersProfile
  · rcases hresponse : S.playersProfile msg.body with e | response
    · simp [entryFor, htype, hresponse] at h
    · rw [entryFor_of_decoded htype hresponse] at h
      refine ⟨response, ?_, ?_⟩
      · rw [judge_of_decoded hC htype hresponse, h]
        rfl
      · rw [playerProfile, h]
  · simp [entryFor, htype] at h

/-- Every other message is passed over. -/
theorem judge_of_no_entry {msg : GcMessage}
    (hC : requestPlayerProfile G S appid account = .ok C)
    (hdecodes : msg.msgtype = gcPlayersProfile →
      ∃ response, S.playersProfile msg.body = .ok response)
    (h : entryFor S account msg = none) : C.wait.judge msg = none := by
  by_cases htype : msg.msgtype = gcPlayersProfile
  · obtain ⟨response, hresponse⟩ := hdecodes htype
    rw [entryFor_of_decoded htype hresponse] at h
    rw [judge_of_decoded hC htype hresponse, h]
    rfl
  · exact judge_of_other hC htype

/-- **What a call that keeps up returns** is the outcome of the replies since it subscribed. -/
theorem verdict_profile {replies : List GcMessage}
    (hC : requestPlayerProfile G S appid account = .ok C) (hdecodes : Decodable S replies) :
    (C.wait.verdict replies).bind (playerProfile account) = outcome S account replies := by
  induction replies with
  | nil =>
      rw [eq_of_requestPlayerProfile hC]
      rfl
  | cons msg replies ih =>
      obtain ⟨hmsg, hreplies⟩ := List.forall_mem_cons.mp hdecodes
      rcases hentry : entryFor S account msg with _ | entry
      · have hjudge := judge_of_no_entry hC hmsg hentry
        rw [Channel.Wait.verdict, outcome, List.findSome?_cons, List.findSome?_cons, hjudge, hentry]
        exact ih hreplies
      · obtain ⟨response, hjudge, hprofile⟩ := judge_of_entry hC hentry
        rw [Channel.Wait.verdict, outcome, List.findSome?_cons, List.findSome?_cons, hjudge, hentry]
        exact hprofile

/-- A reply that is taken has an entry for the account. -/
theorem playerProfile_of_judge {msg : GcMessage} {response : PlayersProfile}
    (hC : requestPlayerProfile G S appid account = .ok C)
    (h : C.wait.judge msg = some (.ok response)) :
    ∃ p, playerProfile account response = .ok p := by
  by_cases htype : msg.msgtype = gcPlayersProfile
  · rcases hresponse : S.playersProfile msg.body with e | decoded
    · simp [judge_of_undecodable hC htype hresponse] at h
    · rw [judge_of_decoded hC htype hresponse] at h
      rcases hentry : decoded.accountProfiles.find? (·.isFor account) with _ | entry
      · simp [hentry] at h
      · obtain rfl : decoded = response := by simpa [hentry] using h
        exact ⟨_, by rw [playerProfile, hentry]⟩
  · simp [judge_of_other hC htype] at h

end Judge

/-! ### Any number of calls -/

/-- What the coordinator's pump has broadcast. -/
def broadcasts (past : List Deed) : List GcMessage := past.filterMap Deed.gcMessage?

/-- A run of a crowd, from the moment at which the call that is looked at has subscribed. This
call is for `account`, is made on a clone of the coordinator and keeps up, and every
`PlayersProfile` body decodes. The other calls may be for any accounts, and stand anywhere. -/
structure ProfileRun (G : GcProst) (S : Cs2Prost) (account : UInt32) where
  appid : UInt32
  callers : List (Caller GcMessage PlayersProfile)
  index : Nat
  caller : Caller GcMessage PlayersProfile
  clone : Nat
  before : Crowd PlayersProfile
  start : Crowd PlayersProfile
  moves : List CrowdMove
  final : Crowd PlayersProfile
  caller_at : callers[index]? = some caller
  requests : requestPlayerProfile G S appid account = .ok caller.call
  on_clone : caller.party = .coordinator clone
  subscribes : Crowd.step callers before (.call index .subscribe) = some start
  runs : Ledger.exec (Crowd.step callers) start moves = some final
  keepsUp : Ledger.Guarded (World.step caller.call caller.party caller.ch)
    (World.KeepsUp caller.call) (start.view (.subscribed (caller.call.sent before.past).length))
    (moves.filterMap (CrowdMove.seenBy index))
  decodable : Decodable S (broadcasts final.past)

namespace ProfileRun

variable {G : GcProst} {S : Cs2Prost} {account : UInt32} (r : ProfileRun G S account)

/-- What was broadcast since the call subscribed. -/
def replies : List GcMessage :=
  (broadcasts r.final.past).drop (broadcasts r.before.past).length

/-- The call waits for message number `next`, and does not lag. -/
def Waits (next : Nat) : Prop :=
  r.final.stages[r.index]? = some (.wait (.waiting next)) ∧
    (broadcasts r.final.past).length ≤ next + gcEventCapacity

/-- The next move of the call, which waits and does not lag, makes it return `res`. -/
def Returns (res : Except Error PlayerProfile) : Prop :=
  ∃ next m w, r.Waits next ∧ Crowd.step r.callers r.final (.call r.index m) = some w ∧
    w.stages[r.index]?.bind (result? account) = some res

/-- A call for a profile receives what is broadcast. -/
theorem sent_eq (past : List Deed) : r.caller.call.sent past = broadcasts past := by
  rw [eq_of_requestPlayerProfile r.requests]
  rfl

/-- Its channel is the one of the coordinator's messages. -/
theorem capacity_eq : r.caller.call.capacity = gcEventCapacity := by
  rw [eq_of_requestPlayerProfile r.requests]
  rfl

/-- A caller holds the channel open. -/
theorem holds_caller : r.caller.call.holds r.caller.party = true := by
  rw [eq_of_requestPlayerProfile r.requests, r.on_clone]
  rfl

/-- Where the call stands. -/
theorem tracks : ∃ st, r.final.stages[r.index]? = some st ∧
    World.Tracks r.caller.call (broadcasts r.before.past).length (r.final.view st) ∧
    World.Borrowed r.caller.party (r.final.view st) := by
  have hsends : r.caller.call.opening.sends = true := by
    rw [eq_of_requestPlayerProfile r.requests]
    rfl
  have htracks := Crowd.tracks_of_subscribe r.caller_at hsends r.holds_caller r.subscribes r.runs
    r.keepsUp
  rwa [r.sent_eq] at htracks

/-- The verdict on what was broadcast is the outcome. -/
theorem verdict_replies :
    (r.caller.call.wait.verdict
      ((r.caller.call.sent r.final.past).drop (broadcasts r.before.past).length)).bind
      (playerProfile account) = outcome S account r.replies := by
  rw [r.sent_eq]
  refine verdict_profile r.requests fun msg hmsg => ?_
  exact r.decodable msg (List.mem_of_mem_drop hmsg)

/-- A reply that the call has taken is the verdict. -/
theorem verdict_of_done {response : PlayersProfile}
    (h : r.final.stages[r.index]? = some (.wait (.done (.ok response)))) :
    r.caller.call.wait.verdict
      ((r.caller.call.sent r.final.past).drop (broadcasts r.before.past).length) =
        .ok response := by
  obtain ⟨st, hst, htracks, -⟩ := r.tracks
  obtain rfl := Option.some.inj (hst.symm.trans h)
  cases htracks with
  | subscribed hcall _ => cases hcall
  | waiting hcall _ _ _ => cases hcall
  | @done res hcall hok =>
      cases hcall
      exact hok response rfl

/-- The world of a call that waits and does not lag. -/
theorem tracks_of_waits {next : Nat} (h : r.Waits next) :
    World.Tracks r.caller.call (broadcasts r.before.past).length
        (r.final.view (.wait (.waiting next))) ∧
      r.caller.party ∈ r.final.parties ∧
      (r.caller.call.sent r.final.past).length ≤ next + r.caller.call.capacity := by
  obtain ⟨st, hst, htracks, hborrowed⟩ := r.tracks
  obtain rfl := Option.some.inj (hst.symm.trans h.1)
  rw [r.sent_eq, r.capacity_eq]
  exact ⟨htracks, hborrowed rfl, h.2⟩

/-- What the call returns is the outcome of its replies. -/
theorem outcome_of_returns {res : Except Error PlayerProfile} (h : r.Returns res) :
    res = outcome S account r.replies := by
  obtain ⟨next, m, w, hwaits, hstep, hres⟩ := h
  obtain ⟨htracks, -, hlag⟩ := r.tracks_of_waits hwaits
  have hlt : r.index < r.final.stages.length := (List.getElem?_eq_some_iff.mp hwaits.1).1
  rw [Crowd.step_call r.caller_at hwaits.1] at hstep
  obtain ⟨v, hv, rfl⟩ := Option.map_eq_some_iff.mp hstep
  rw [List.getElem?_set_self hlt] at hres
  have hkeeps : World.KeepsUp r.caller.call (r.final.view (.wait (.waiting next))) (.call m) := by
    rintro - next' (hcall | hcall)
    · cases hcall
    · cases hcall
      exact hlag
  obtain ⟨st, rfl⟩ : ∃ st, v = r.final.view st := by
    cases World.step_makes hv with
    | @call _ st _ _ => exact ⟨st, rfl⟩
  rcases st with _ | _ | _ | ⟨_ | got⟩
  · cases hres
  · cases hres
  · cases hres
  · cases hres
  · have hgot := htracks.verdict r.holds_caller hkeeps rfl hv
    have hres' : res = got.bind (playerProfile account) := (Option.some.inj hres).symm
    exact hres'.trans ((congrArg (·.bind (playerProfile account)) hgot).trans r.verdict_replies)

/-- A call that waits can come to the outcome of its replies. -/
theorem outcome_of_waits {next : Nat} (h : r.Waits next) :
    ∃ (ms : List CallMove) (w : Crowd PlayersProfile),
      Ledger.exec (Crowd.step r.callers) r.final (ms.map (.call r.index)) = some w ∧
      w.stages[r.index]?.bind (result? account) = some (outcome S account r.replies) := by
  obtain ⟨htracks, hcaller, hlag⟩ := r.tracks_of_waits h
  have hlt : r.index < r.final.stages.length := (List.getElem?_eq_some_iff.mp h.1).1
  obtain ⟨ms, hms⟩ : ∃ ms : List CallMove,
      Ledger.exec (World.step r.caller.call r.caller.party r.caller.ch)
        (r.final.view (.wait (.waiting next))) (ms.map .call) = some (r.final.view _) :=
    htracks.ends r.holds_caller hcaller rfl hlag
  refine ⟨ms, _, Crowd.exec_own r.caller_at h.1 hms, ?_⟩
  rw [List.getElem?_set_self hlt]
  exact congrArg some r.verdict_replies

/-- A profile that was returned is the outcome of the replies. -/
theorem outcome_of_done {p : PlayerProfile}
    (h : r.final.stages[r.index]?.bind (result? account) = some (.ok p)) :
    outcome S account r.replies = .ok p := by
  obtain ⟨st, hst, hres⟩ := Option.bind_eq_some_iff.mp h
  rcases st with _ | _ | _ | ⟨_ | e | response⟩
  · cases hres
  · cases hres
  · cases hres
  · cases hres
  · cases hres
  · rw [← r.verdict_replies, r.verdict_of_done hst]
    exact Option.some.inj hres

end ProfileRun

/-- A success is the profile that the first entry makes. -/
theorem outcome_eq_ok {S : Cs2Prost} {account : UInt32} {replies : List GcMessage}
    {p : PlayerProfile} :
    outcome S account replies = .ok p ↔
      ∃ entry, replies.findSome? (entryFor S account) = some entry ∧
        p = .ofEntry account entry := by
  rw [outcome]
  cases replies.findSome? (entryFor S account) <;> simp [eq_comm]

/-- **Every call gets the profile of its own account.** A call for an account returns a profile
only if each of its fields is taken from the first entry for this account, in the first
`PlayersProfile` with such an entry that was broadcast since the call subscribed. Once there is
one and the call waits, it returns this profile, and it can do so by its own moves. What it
returns is the same in two runs whose messages for the account are the same. The branch for a
reply without the account is not reached. -/
theorem player_profile_of_first_reply (G : GcProst) (S : Cs2Prost) (account : UInt32)
    (r : ProfileRun G S account) :
    (∀ p, r.final.stages[r.index]?.bind (result? account) = some (.ok p) →
      ∃ entry, r.replies.findSome? (entryFor S account) = some entry ∧
        p.TakenFrom account entry) ∧
    (∀ entry, r.replies.findSome? (entryFor S account) = some entry →
      (∀ res, r.Returns res → ∃ p, res = .ok p ∧ p.TakenFrom account entry) ∧
        ∀ next, r.Waits next →
          ∃ (ms : List CallMove) (w : Crowd PlayersProfile) (p : PlayerProfile),
            Ledger.exec (Crowd.step r.callers) r.final (ms.map (.call r.index)) = some w ∧
              w.stages[r.index]?.bind (result? account) = some (.ok p) ∧
              p.TakenFrom account entry) ∧
    (∀ r' : ProfileRun G S account,
      r'.replies.filter (fun msg => (entryFor S account msg).isSome) =
        r.replies.filter (fun msg => (entryFor S account msg).isSome) →
      ∀ res res', r.Returns res → r'.Returns res' → res' = res) ∧
    ∀ response, r.final.stages[r.index]? = some (.wait (.done (.ok response))) →
      ∃ p, playerProfile account response = .ok p := by
  refine ⟨?_, ?_, ?_, ?_⟩
  · intro p hp
    obtain ⟨entry, hentry, rfl⟩ := outcome_eq_ok.mp (r.outcome_of_done hp)
    exact ⟨entry, hentry, takenFrom_ofEntry account entry⟩
  · intro entry hentry
    have hok : outcome S account r.replies = .ok (.ofEntry account entry) :=
      outcome_eq_ok.mpr ⟨entry, hentry, rfl⟩
    refine ⟨fun res hres => ⟨_, (r.outcome_of_returns hres).trans hok, takenFrom_ofEntry _ _⟩, ?_⟩
    intro next hwaits
    obtain ⟨ms, w, hms, hres⟩ := r.outcome_of_waits hwaits
    exact ⟨ms, w, _, hms, hok ▸ hres, takenFrom_ofEntry _ _⟩
  · intro r' hsame res res' hres hres'
    rw [r.outcome_of_returns hres, r'.outcome_of_returns hres', outcome, outcome,
      ← Channel.findSome?_filter_isSome, hsame, Channel.findSome?_filter_isSome]
  · intro response hdone
    have hverdict := Channel.Wait.verdict_eq_ok.mp (r.verdict_of_done hdone)
    obtain ⟨msg, -, hjudge⟩ := List.exists_of_findSome?_eq_some hverdict
    exact playerProfile_of_judge r.requests hjudge

end Cs2

namespace Sample

open Cs2

/-- Prost on one entry, with numbers below 128: a rank with its wins, two medals of which one is
featured, a level and its XP. -/
def accountProfile : Bytes → Except String AccountProfile
  | [0x08, account, 0x3a, 0x04, 0x10, rank, 0x18, wins, 0x4a, 0x06, 0x38, medal, 0x38, medal',
      0x40, featured, 0x88, 0x01, level, 0x90, 0x01, xp] =>
      .ok { accountId := some account.toUInt32
            ranking := some { rankId := some rank.toUInt32, wins := some wins.toUInt32 }
            medals := some
              { displayItemsDefidx := [medal.toUInt32, medal'.toUInt32]
                featuredDisplayItemDefidx := some featured.toUInt32 }
            playerLevel := some level.toUInt32.toInt32
            playerCurXp := some xp.toUInt32.toInt32 }
  | _ => .error "unexpected bytes"

/-- Prost on a message with one such entry. -/
def playersProfile : Bytes → Except String PlayersProfile
  | 0x12 :: 0x16 :: entry => (accountProfile entry).map fun e => { accountProfiles := [e] }
  | _ => .error "unexpected bytes"

/-- Prost on requests for such accounts. -/
def cs2Prost : Cs2Prost where
  playersProfile := playersProfile
  encodeRequest request :=
    [0x18, (request.accountId.getD 0).toUInt8, 0x20, (request.requestLevel.getD 0).toUInt8]

/-- The request for the profile of `account`. -/
def profileCall (account : UInt32) : Call GcMessage PlayersProfile :=
  (requestPlayerProfile gcProst cs2Prost 730 account).toOption.get rfl

/-- A reply with the profile of one account. -/
def profileReply (account level : UInt8) : GcMessage where
  appid := 730
  msgtype := gcPlayersProfile
  body := [0x12, 0x16, 0x08, account, 0x3a, 0x04, 0x10, 18, 0x18, 99, 0x4a, 0x06, 0x38, 11, 0x38,
    12, 0x40, 12, 0x88, 0x01, level, 0x90, 0x01, 55]

/-- The entry for the first account. -/
def profileEntry : AccountProfile where
  accountId := some 1
  ranking := some { rankId := some 18, wins := some 99 }
  medals := some { displayItemsDefidx := [11, 12], featuredDisplayItemDefidx := some 12 }
  playerLevel := some 7
  playerCurXp := some 55

/-- Two calls, for the accounts 1 and 2, on two clones of the coordinator. -/
def profileCallers : List (Caller GcMessage PlayersProfile) :=
  [⟨profileCall 1, .coordinator 0, 5⟩, ⟨profileCall 2, .coordinator 1, 6⟩]

/-- Both calls have found the GC ready. -/
def profilesReady : Crowd PlayersProfile :=
  ⟨[], [.driver, .pump, .coordinator 0, .coordinator 1], [.ready, .ready]⟩

/-- The first has subscribed. -/
def profilesSubscribed : Crowd PlayersProfile :=
  { profilesReady with stages := [.subscribed 0, .ready] }

/-- The second subscribes, both send, and the GC answers the second before the first. -/
def profileMoves : List CrowdMove :=
  [.call 1 .subscribe, .deed (.driver (.acked 6 (.ok ()))), .deed (.driver (.acked 5 (.ok ()))),
    .call 0 (.acked (.ok ())), .deed (.relay (profileReply 2 40)), .call 0 .receive,
    .call 1 (.acked (.ok ())), .deed (.relay (profileReply 1 7))]

/-- The first has passed over the answer to the second. -/
def profilesAnswered : Crowd PlayersProfile :=
  ⟨[.driver (.acked 6 (.ok ())), .driver (.acked 5 (.ok ())), .relay (profileReply 2 40),
      .relay (profileReply 1 7)],
    [.driver, .pump, .coordinator 0, .coordinator 1], [.wait (.waiting 1), .wait (.waiting 0)]⟩

/-- The run, as the first call sees it. -/
def profileRun : ProfileRun gcProst cs2Prost 1 where
  appid := 730
  callers := profileCallers
  index := 0
  caller := ⟨profileCall 1, .coordinator 0, 5⟩
  clone := 0
  before := profilesReady
  start := profilesSubscribed
  moves := profileMoves
  final := profilesAnswered
  caller_at := rfl
  requests := rfl
  on_clone := rfl
  subscribes := by decide
  runs := by decide
  keepsUp := by
    have hrun : Ledger.exec (World.step (profileCall 1) (.coordinator 0) 5)
        (profilesSubscribed.view (.subscribed 0)) (profileMoves.filterMap (CrowdMove.seenBy 0)) =
          some (profilesAnswered.view (.wait (.waiting 1))) := by
      decide
    exact World.guarded_of_sent_le hrun (by decide)
  decodable := by
    intro msg hmsg _
    have hmsg' : msg ∈ [profileReply 2 40, profileReply 1 7] := hmsg
    rcases List.mem_pair.mp hmsg' with rfl | rfl
    · exact ⟨_, rfl⟩
    · exact ⟨_, rfl⟩

end Sample

/-- The first call waits, beside the second, and the profile that it returns is the one of its
own account, with its rank and its medals. -/
theorem player_profile_of_first_reply_own :
    Sample.profileRun.Waits 1 ∧
      ∃ (ms : List CallMove) (w : Crowd Cs2.PlayersProfile) (p : Cs2.PlayerProfile),
        Ledger.exec (Crowd.step Sample.profileCallers) Sample.profilesAnswered
          (ms.map (.call 0)) = some w ∧
        w.stages[0]?.bind (Cs2.result? 1) = some (.ok p) ∧
        p.accountId = 1 ∧ p.level = 7 ∧ p.currentXp = 55 ∧ p.competitiveRank = some 18 ∧
        p.competitiveWins = some 99 ∧ p.medals = [11, 12] ∧ p.featuredMedal = some 12 := by
  have hwaits : Sample.profileRun.Waits 1 := ⟨rfl, by decide⟩
  have hmet := (Cs2.player_profile_of_first_reply _ _ 1 Sample.profileRun).2.1
    Sample.profileEntry (by decide)
  obtain ⟨ms, w, p, hms, hp, htaken⟩ := hmet.2 1 hwaits
  exact ⟨hwaits, ms, w, p, hms, hp, htaken.accountId, htaken.level, htaken.currentXp,
    htaken.competitiveRank, htaken.competitiveWins, htaken.medals, htaken.featuredMedal⟩

end Steamroids
