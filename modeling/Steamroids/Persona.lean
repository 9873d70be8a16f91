import Steamroids.Calls

/-!
# Player Summaries

`request_player_summary` (`persona.rs`) asks Steam for the persona state of an account and
waits for the message that carries it. Steam pushes partial updates of the same type, so a
message counts only if it has the flag for the player's name and mentions the account.

## Main results

* `summaryFromPersonaState_eq_some_iff`: which messages give a summary, and what it is.
* `summary_links_avatar_iff`: when its two fields on the avatar agree.
-/

namespace Steamroids

/-- `k_EMsgClientPersonaState`. -/
def emsgClientPersonaState : UInt32 := 766

/-- `k_EMsgClientRequestFriendData`. -/
def emsgClientRequestFriendData : UInt32 := 815

/-- The flags we ask for: Status, `PlayerName`, Presence, `LastSeen` and `GameExtraInfo`. -/
def personaFlags : UInt32 := 1 ||| 2 ||| 16 ||| 64 ||| 256

/-- The `status_flags` bit a persona state must carry: `PlayerName`. -/
def requiredSummaryFlags : UInt32 := 2

/-- Steam's avatar CDN host. -/
def avatarHost : String := "https://avatars.steamstatic.com/"

/-- The hash Steam serves for accounts without a custom avatar. -/
def defaultAvatarHash : String := "fef49e7fa7e1997310d705b2a6158ff8dc1cdfeb"

/-- A player's online status. -/
inductive PersonaState
  | offline
  | online
  | busy
  | away
  | snooze
  | lookingToTrade
  | lookingToPlay
  | invisible
  | unknown (value : UInt32)
  deriving DecidableEq, Repr

/-- `PersonaState::from_raw`. -/
def PersonaState.fromRaw (value : UInt32) : PersonaState :=
  match value.toNat with
  | 0 => .offline
  | 1 => .online
  | 2 => .busy
  | 3 => .away
  | 4 => .snooze
  | 5 => .lookingToTrade
  | 6 => .lookingToPlay
  | 7 => .invisible
  | _ => .unknown value

/-- The game a player is in. -/
structure CurrentGame where
  appId : UInt32
  gameId : UInt64
  name : String
  deriving DecidableEq, Repr

/-- A player's persona summary. -/
structure PlayerSummary where
  steamId : UInt64
  personaName : String
  profileUrl : String
  avatarUrl : String
  avatarHash : String
  state : PersonaState
  currentGame : Option CurrentGame
  deriving DecidableEq, Repr

/-- The fields of `CMsgClientPersonaState.Friend` that the crate reads. -/
structure ProtoPersona where
  friendid : Option UInt64 := none
  personaState : Option UInt32 := none
  gamePlayedAppId : Option UInt32 := none
  playerName : Option String := none
  avatarHash : Option Bytes := none
  gameName : Option String := none
  gameid : Option UInt64 := none
  deriving DecidableEq, Repr

/-- The fields of `CMsgClientPersonaState` that the crate reads. -/
structure CMsgClientPersonaState where
  statusFlags : Option UInt32 := none
  friends : List ProtoPersona := []
  deriving DecidableEq, Repr

/-- `CMsgClientRequestFriendData`. -/
structure CMsgClientRequestFriendData where
  personaStateRequested : Option UInt32 := none
  friends : List UInt64 := []
  deriving DecidableEq, Repr

/-- What the persona operations use of prost: a decoder that fails with the text of its
error, and an encoder. -/
structure PersonaProst where
  personaState : Bytes → Except String CMsgClientPersonaState
  encodeRequestFriendData : CMsgClientRequestFriendData → Bytes

/-- Lowercase-hex encode a byte string. -/
def hashToHex (hash : Bytes) : String :=
  String.join (hash.map fun b =>
    String.ofList [Nat.digitChar (b.toNat / 16), Nat.digitChar (b.toNat % 16)])

/-- Avatar image sizes Steam serves. -/
inductive AvatarSize
  | small
  | medium
  | full
  deriving DecidableEq, Repr

/-- The suffix of an avatar's file name. -/
def AvatarSize.suffix : AvatarSize → String
  | .small => ""
  | .medium => "_medium"
  | .full => "_full"

/-- An avatar URL of a given size. An empty or all-zero hash maps to Steam's default. -/
def avatarUrlSized (hash : Bytes) (size : AvatarSize) : String :=
  let hex := hashToHex hash
  let hex := if hex.isEmpty || hash.all (· == 0) then defaultAvatarHash else hex
  avatarHost ++ hex ++ size.suffix ++ ".jpg"

/-- The full-size avatar URL. -/
def avatarUrl (hash : Bytes) : String := avatarUrlSized hash .full

/-- The canonical community profile URL of an account. -/
def profileUrl (steamId : UInt64) : String :=
  "https://steamcommunity.com/profiles/" ++ toString steamId.toNat

/-- The game that an entry of a persona state mentions. -/
def currentGame (friend : ProtoPersona) : Option CurrentGame :=
  let gameId := friend.gameid.getD 0
  let appId := friend.gamePlayedAppId.getD 0
  if appId ≠ 0 ∨ gameId ≠ 0 then
    some
      { appId := if appId ≠ 0 then appId else gameId.toUInt32
        gameId
        name := friend.gameName.getD "" }
  else
    none

/-- Pull the entry of `steamId` out of a persona state. `ok none` means that the message is
not an answer: it lacks the required flag, or does not mention the account. -/
def summaryFromPersonaState (S : PersonaProst) (msg : SteamMessage) (steamId : UInt64) :
    Except Error (Option PlayerSummary) :=
  match S.personaState msg.body with
  | .error e => .error (.codec ("decode persona state: " ++ e))
  | .ok state =>
      if (state.statusFlags.getD 0) &&& requiredSummaryFlags ≠ requiredSummaryFlags then
        .ok none
      else
        match state.friends.find? fun f => f.friendid == some steamId with
        | none => .ok none
        | some friend =>
            let avatar := friend.avatarHash.getD []
            .ok (some
              { steamId
                personaName := friend.playerName.getD ""
                profileUrl := profileUrl steamId
                avatarUrl := avatarUrl avatar
                avatarHash := hashToHex avatar
                state := .fromRaw (friend.personaState.getD 0)
                currentGame := currentGame friend })

/-- What the wait makes of a message. -/
def judgeSummary (S : PersonaProst) (steamId : UInt64) (msg : SteamMessage) :
    Option (Except Error PlayerSummary) :=
  if msg.emsg ≠ emsgClientPersonaState then
    none
  else
    match summaryFromPersonaState S msg steamId with
    | .error e => some (.error e)
    | .ok summary => summary.map .ok

/-- Fetch a player's persona summary. -/
def requestPlayerSummary (S : PersonaProst) (steamId : UInt64) :
    Call SteamMessage PlayerSummary where
  needsReady := false
  message? := Deed.message?
  capacity := eventCapacity
  holds := Party.holdsEvents
  opening := .notify emsgClientRequestFriendData
    (S.encodeRequestFriendData
      { personaStateRequested := some personaFlags, friends := [steamId] })
  wait :=
    { judge := judgeSummary S steamId
      closed := .webSocket "session stopped"
      timedOut := .timeout "persona state" }

/-! ### What a summary says

The documentation of `PlayerSummary` promises that `avatar_hash` is the hash of the image that
`avatar_url` links, with the default avatar's hash in place of an unset one. The code makes that
replacement in the URL only. -/

/-- The avatar hash of a summary as it is documented. -/
def documentedHash (hash : Bytes) : String :=
  if hash.all (· == 0) then defaultAvatarHash else hashToHex hash

/-- `friend` is the entry of `steamId` that an answer is read from: the first one for this
account, in a persona state with the `PlayerName` flag. -/
def FirstEntry (S : PersonaProst) (msg : SteamMessage) (steamId : UInt64)
    (friend : ProtoPersona) : Prop :=
  ∃ state before after, S.personaState msg.body = .ok state ∧
    state.statusFlags.getD 0 &&& requiredSummaryFlags = requiredSummaryFlags ∧
    state.friends = before ++ friend :: after ∧ friend.friendid = some steamId ∧
    ∀ f ∈ before, f.friendid ≠ some steamId

/-- The number Steam writes for an online status. -/
def PersonaState.value : PersonaState → UInt32
  | .offline => 0
  | .online => 1
  | .busy => 2
  | .away => 3
  | .snooze => 4
  | .lookingToTrade => 5
  | .lookingToPlay => 6
  | .invisible => 7
  | .unknown value => value

/-- The fields of a summary, the two on the avatar apart, are those of the entry. The status
keeps the entry's number, and is unknown only for a number without a name. -/
structure DrawnFrom (friend : ProtoPersona) (s : PlayerSummary) : Prop where
  steamId : friend.friendid = some s.steamId
  personaName : s.personaName = friend.playerName.getD ""
  profileUrl : s.profileUrl =
    "https://steamcommunity.com/profiles/" ++ toString s.steamId.toNat
  state : s.state.value = friend.personaState.getD 0
  named : ∀ value, s.state = .unknown value → 7 < value
  noGame : s.currentGame = none ↔
    friend.gamePlayedAppId.getD 0 = 0 ∧ friend.gameid.getD 0 = 0
  game : ∀ g, s.currentGame = some g → g.gameId = friend.gameid.getD 0 ∧
    g.name = friend.gameName.getD "" ∧
    (friend.gamePlayedAppId.getD 0 ≠ 0 → g.appId = friend.gamePlayedAppId.getD 0) ∧
    (friend.gamePlayedAppId.getD 0 = 0 → g.appId = (friend.gameid.getD 0).toUInt32)

/-- The two fields on the avatar agree, and are those of the entry as documented. -/
structure LinksAvatar (friend : ProtoPersona) (s : PlayerSummary) : Prop where
  url : s.avatarUrl = avatarHost ++ s.avatarHash ++ "_full.jpg"
  hash : s.avatarHash = documentedHash (friend.avatarHash.getD [])

/-- No number of a status is lost, whether it has a name or not. -/
theorem PersonaState.value_fromRaw : Function.LeftInverse PersonaState.value .fromRaw := by
  intro value
  unfold PersonaState.fromRaw
  split <;> first | rfl | exact UInt32.toNat_inj.mp (Eq.symm ‹_›)

/-- The numbers up to 7 all have a name. -/
theorem PersonaState.lt_of_fromRaw_eq_unknown {raw value : UInt32}
    (h : PersonaState.fromRaw raw = .unknown value) : 7 < value := by
  unfold PersonaState.fromRaw at h
  split at h <;> cases h
  rw [UInt32.lt_iff_toNat_lt]
  grind

/-- A hash is written with two digits for each byte. -/
theorem toList_hashToHex (hash : Bytes) :
    (hashToHex hash).toList =
      hash.flatMap fun b => [Nat.digitChar (b.toNat / 16), Nat.digitChar (b.toNat % 16)] := by
  simp [hashToHex, String.toList_join, List.flatMap_map]

/-- Only the empty hash is written as the empty text. -/
theorem hashToHex_isEmpty (hash : Bytes) : (hashToHex hash).isEmpty = hash.isEmpty := by
  rw [Bool.eq_iff_iff, String.isEmpty_iff, ← String.toList_eq_nil_iff, toList_hashToHex]
  cases hash <;> simp

/-- The URL links the documented hash, whatever the bytes. -/
theorem avatarUrl_eq (hash : Bytes) :
    avatarUrl hash = avatarHost ++ documentedHash hash ++ "_full.jpg" := by
  have hunset : ((hashToHex hash).isEmpty || hash.all (· == 0)) = hash.all (· == 0) := by
    rw [hashToHex_isEmpty]
    cases hash <;> simp
  have hsuffix (hex : String) :
      avatarHost ++ hex ++ AvatarSize.full.suffix ++ ".jpg" = avatarHost ++ hex ++ "_full.jpg" :=
    String.append_assoc
  simp only [avatarUrl, avatarUrlSized, documentedHash, hunset]
  exact hsuffix _

/-- The digits of an unset hash are zeros, and the default hash has others. -/
theorem hashToHex_ne_default {hash : Bytes} (h : ∀ b ∈ hash, b = 0) :
    hashToHex hash ≠ defaultAvatarHash := by
  intro heq
  have hmem : 'f' ∈ (hashToHex hash).toList := by
    rw [heq]
    decide
  rw [toList_hashToHex, List.mem_flatMap] at hmem
  obtain ⟨b, hb, hf⟩ := hmem
  rw [h b hb] at hf
  exact absurd hf (by decide)

/-- The hash in a summary is the documented one exactly if the account has set an avatar. -/
theorem hashToHex_eq_documentedHash_iff (hash : Bytes) :
    hashToHex hash = documentedHash hash ↔ ∃ b ∈ hash, b ≠ 0 := by
  have hunset : hash.all (· == 0) = true ↔ ∀ b ∈ hash, b = 0 := by simp
  by_cases h : hash.all (· == 0) = true
  · have hzero := hunset.mp h
    simp only [documentedHash, if_pos h, hashToHex_ne_default hzero, false_iff]
    rintro ⟨b, hb, hne⟩
    exact hne (hzero b hb)
  · simp only [documentedHash, if_neg h, true_iff]
    rw [hunset] at h
    push Not at h
    exact h

/-- The summary that the code makes of an entry. -/
def summaryOf (steamId : UInt64) (friend : ProtoPersona) : PlayerSummary :=
  { steamId
    personaName := friend.playerName.getD ""
    profileUrl := profileUrl steamId
    avatarUrl := avatarUrl (friend.avatarHash.getD [])
    avatarHash := hashToHex (friend.avatarHash.getD [])
    state := .fromRaw (friend.personaState.getD 0)
    currentGame := currentGame friend }

/-- A player is in no game if neither id is set. -/
theorem currentGame_eq_none_iff (friend : ProtoPersona) :
    currentGame friend = none ↔
      friend.gamePlayedAppId.getD 0 = 0 ∧ friend.gameid.getD 0 = 0 := by
  simp [currentGame]

/-- The app id of a game is the low half of its game id where the entry has none. -/
theorem currentGame_eq_some {friend : ProtoPersona} {g : CurrentGame}
    (h : currentGame friend = some g) :
    g = { appId := if friend.gamePlayedAppId.getD 0 ≠ 0 then friend.gamePlayedAppId.getD 0
            else (friend.gameid.getD 0).toUInt32
          gameId := friend.gameid.getD 0
          name := friend.gameName.getD "" } := by
  simp only [currentGame, Option.ite_none_right_eq_some, Option.some.injEq] at h
  exact h.2.symm

/-- The summary of an entry is drawn from it. -/
theorem drawnFrom_summaryOf {steamId : UInt64} {friend : ProtoPersona}
    (h : friend.friendid = some steamId) : DrawnFrom friend (summaryOf steamId friend) where
  steamId := h
  personaName := rfl
  profileUrl := rfl
  state := PersonaState.value_fromRaw _
  named _ h := PersonaState.lt_of_fromRaw_eq_unknown h
  noGame := currentGame_eq_none_iff friend
  game g hg := by
    rw [currentGame_eq_some hg]
    exact ⟨rfl, rfl, fun happ => if_pos happ, fun happ => if_neg (not_not.mpr happ)⟩

/-- The avatar fields of an entry's summary are right if and only if its hash is set. -/
theorem linksAvatar_summaryOf_iff (steamId : UInt64) (friend : ProtoPersona) :
    LinksAvatar friend (summaryOf steamId friend) ↔
      ∃ b ∈ friend.avatarHash.getD [], b ≠ 0 := by
  rw [← hashToHex_eq_documentedHash_iff]
  refine ⟨fun h => h.hash, fun h => ⟨?_, h⟩⟩
  show avatarUrl _ = avatarHost ++ hashToHex _ ++ "_full.jpg"
  rw [avatarUrl_eq, h]

/-- A message gives a summary if and only if it has a first entry, and it is that entry's. -/
theorem summaryFromPersonaState_eq_some_iff (S : PersonaProst) (msg : SteamMessage)
    (steamId : UInt64) (s : PlayerSummary) :
    summaryFromPersonaState S msg steamId = .ok (some s) ↔
      ∃ friend, FirstEntry S msg steamId friend ∧ s = summaryOf steamId friend := by
  constructor
  · intro h
    rcases hdec : S.personaState msg.body with e | state
    · simp [summaryFromPersonaState, hdec] at h
    · simp only [summaryFromPersonaState, hdec] at h
      split at h
      · simp at h
      · rename_i hflag
        rcases hfind : state.friends.find? fun f => f.friendid == some steamId with _ | friend
        · simp [hfind] at h
        · simp only [hfind, Except.ok.injEq, Option.some.injEq] at h
          obtain ⟨hid, before, after, hsplit, hbefore⟩ := List.find?_eq_some_iff_append.mp hfind
          refine ⟨friend, ⟨state, before, after, hdec, not_not.mp hflag, hsplit, ?_, ?_⟩, h.symm⟩
          · exact beq_iff_eq.mp hid
          · intro f hf heq
            simpa [heq] using hbefore f hf
  · rintro ⟨friend, ⟨state, before, after, hdec, hflag, hsplit, hid, hbefore⟩, rfl⟩
    have hfind : (state.friends.find? fun f => f.friendid == some steamId) = some friend := by
      refine List.find?_eq_some_iff_append.mpr ⟨beq_iff_eq.mpr hid, before, after, hsplit, ?_⟩
      intro f hf
      simpa using hbefore f hf
    simp only [summaryFromPersonaState, hdec, hflag, hfind, ne_eq, not_true_eq_false, if_false]
    rfl

/-- An entry for the account in a flagged persona state means a first one. -/
theorem exists_firstEntry_iff (S : PersonaProst) (msg : SteamMessage) (steamId : UInt64) :
    (∃ friend, FirstEntry S msg steamId friend) ↔
      ∃ state, S.personaState msg.body = .ok state ∧
        state.statusFlags.getD 0 &&& requiredSummaryFlags = requiredSummaryFlags ∧
        ∃ f ∈ state.friends, f.friendid = some steamId := by
  constructor
  · rintro ⟨friend, state, before, after, hdec, hflag, hsplit, hid, -⟩
    exact ⟨state, hdec, hflag, friend, by simp [hsplit], hid⟩
  · rintro ⟨state, hdec, hflag, f, hf, hid⟩
    have hsome : (state.friends.find? fun f => f.friendid == some steamId).isSome :=
      List.find?_isSome.mpr ⟨f, hf, beq_iff_eq.mpr hid⟩
    obtain ⟨friend, hfind⟩ := Option.isSome_iff_exists.mp hsome
    obtain ⟨hid', before, after, hsplit, hbefore⟩ := List.find?_eq_some_iff_append.mp hfind
    refine ⟨friend, state, before, after, hdec, hflag, hsplit, beq_iff_eq.mp hid', ?_⟩
    intro g hg
    simpa using hbefore g hg

/-- A summary is returned exactly for a persona state that decodes, has the flag and holds an
entry of the account, and it is drawn from the first such entry. Its two avatar fields agree,
and are as documented, if and only if that entry has a hash with a nonzero byte. -/
theorem summary_links_avatar_iff (S : PersonaProst) (msg : SteamMessage) (steamId : UInt64) :
    ((∃ s, summaryFromPersonaState S msg steamId = .ok (some s)) ↔
      ∃ state, S.personaState msg.body = .ok state ∧
        state.statusFlags.getD 0 &&& requiredSummaryFlags = requiredSummaryFlags ∧
        ∃ f ∈ state.friends, f.friendid = some steamId) ∧
    ∀ s, summaryFromPersonaState S msg steamId = .ok (some s) →
      ∃ friend, FirstEntry S msg steamId friend ∧ DrawnFrom friend s ∧
        (LinksAvatar friend s ↔ ∃ b ∈ friend.avatarHash.getD [], b ≠ 0) := by
  refine ⟨?_, ?_⟩
  · rw [← exists_firstEntry_iff]
    simp only [summaryFromPersonaState_eq_some_iff]
    exact ⟨fun ⟨_, friend, hf, _⟩ => ⟨friend, hf⟩, fun ⟨friend, hf⟩ => ⟨_, friend, hf, rfl⟩⟩
  · intro s hs
    obtain ⟨friend, hf, rfl⟩ := (summaryFromPersonaState_eq_some_iff S msg steamId s).mp hs
    obtain ⟨state, before, after, hdec, hflag, hsplit, hid, hbefore⟩ := hf
    exact ⟨friend, ⟨state, before, after, hdec, hflag, hsplit, hid, hbefore⟩,
      drawnFrom_summaryOf hid, linksAvatar_summaryOf_iff steamId friend⟩

namespace Sample

/-- What prost makes of a persona state with one entry: its flags, the `friendid` of the
entry, and its `avatar_hash` if that is there. -/
def personaState : Bytes → Except String CMsgClientPersonaState
  | 0x08 :: flags :: 0x12 :: n :: 0x09 :: id :: 0 :: 0 :: 0 :: 0 :: 0 :: 0 :: 0 :: rest =>
      let answer (avatarHash : Option Bytes) : CMsgClientPersonaState :=
        { statusFlags := some flags.toUInt32
          friends := [{ friendid := some id.toUInt64, avatarHash }] }
      match rest with
      | [] => if flags < 0x80 ∧ n = 9 then .ok (answer none) else .error "buffer underflow"
      | 0xFA :: 0x01 :: len :: hash =>
          if flags < 0x80 ∧ n < 0x80 ∧ n.toNat = 12 + hash.length ∧ len.toNat = hash.length then
            .ok (answer (some hash))
          else
            .error "buffer underflow"
      | _ => .error "unexpected bytes"
  | _ => .error "unexpected bytes"

/-- prost for the messages of the examples. -/
def personaProst : PersonaProst where
  personaState := personaState
  encodeRequestFriendData _ := []

/-- A persona state with the name flag, for account 7, whose entry ends with these bytes. -/
def personaMessage (n : UInt8) (rest : Bytes) : SteamMessage :=
  { emsg := emsgClientPersonaState
    header := {}
    body := [0x08, 0x02, 0x12, n, 0x09, 7, 0, 0, 0, 0, 0, 0, 0] ++ rest }

end Sample

/-- An entry with the hash `dead`: both fields have it. -/
theorem summary_links_avatar_set :
    ∃ s, summaryFromPersonaState Sample.personaProst
        (Sample.personaMessage 14 [0xFA, 0x01, 2, 0xde, 0xad]) 7 = .ok (some s) ∧
      s.avatarHash = "dead" ∧
      s.avatarUrl = "https://avatars.steamstatic.com/dead_full.jpg" ∧
      ∃ friend, FirstEntry Sample.personaProst
          (Sample.personaMessage 14 [0xFA, 0x01, 2, 0xde, 0xad]) 7 friend ∧
        DrawnFrom friend s ∧
        (LinksAvatar friend s ↔ ∃ b ∈ friend.avatarHash.getD [], b ≠ 0) :=
  ⟨summaryOf 7 { friendid := some 7, avatarHash := some [0xde, 0xad] }, by decide, by decide,
    by decide, (summary_links_avatar_iff _ _ _).2 _ (by decide)⟩

/-- An entry without a hash: the URL links the default avatar, the hash is empty. -/
theorem unset_avatar_hash_is_empty :
    ∃ s, summaryFromPersonaState Sample.personaProst (Sample.personaMessage 9 []) 7 =
        .ok (some s) ∧
      s.avatarHash = "" ∧
      s.avatarUrl = avatarHost ++ defaultAvatarHash ++ "_full.jpg" ∧
      s.avatarUrl ≠ avatarHost ++ s.avatarHash ++ "_full.jpg" :=
  ⟨summaryOf 7 { friendid := some 7 }, by decide, by decide, by decide, by decide⟩

end Steamroids
