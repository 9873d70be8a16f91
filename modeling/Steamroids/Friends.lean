import Steamroids.Calls

/-!
# The Post-Login Lists

Steam pushes the friends list, the nickname list and the friends-groups list once, shortly
after a logon, and later sends changes to them under the same message types. Three
operations (`friends.rs`) return the full list: each subscribes, looks in the snapshot
cache, and then waits. They differ in the message type, in what makes a list a full one, in
what they make of its entries, and in the texts of their errors; `requestList` is what they
have in common.
-/

namespace Steamroids

/-! ### The lists -/

/-- How we relate to another account. -/
inductive FriendRelationship
  | none
  | blocked
  | requestRecipient
  | friend
  | requestInitiator
  | ignored
  | ignoredFriend
  | unknown (value : UInt32)
  deriving DecidableEq, Repr

/-- `FriendRelationship::from_raw`. -/
def FriendRelationship.fromRaw (value : UInt32) : FriendRelationship :=
  match value.toNat with
  | 0 => .none
  | 1 => .blocked
  | 2 => .requestRecipient
  | 3 => .friend
  | 4 => .requestInitiator
  | 5 => .ignored
  | 6 => .ignoredFriend
  | _ => .unknown value

/-- One entry of the friends list. -/
structure Friend where
  steamId : UInt64
  relationship : FriendRelationship
  deriving DecidableEq, Repr

/-- A friend with a personal nickname. -/
structure Nickname where
  steamId : UInt64
  nickname : String
  deriving DecidableEq, Repr

/-- A custom group in the friends list. -/
structure FriendsGroup where
  groupId : Int
  name : String
  members : List UInt64
  deriving DecidableEq, Repr

/-- `CMsgClientFriendsList.Friend`. -/
structure ProtoFriend where
  ulfriendid : Option UInt64 := Option.none
  efriendrelationship : Option UInt32 := Option.none
  deriving DecidableEq, Repr

/-- The fields of `CMsgClientFriendsList` that the crate reads. -/
structure CMsgClientFriendsList where
  bincremental : Option Bool := none
  friends : List ProtoFriend := []
  deriving DecidableEq, Repr

/-- `CMsgClientPlayerNicknameList.PlayerNickname`. -/
structure PlayerNickname where
  steamid : Option UInt64 := none
  nickname : Option String := none
  deriving DecidableEq, Repr

/-- `CMsgClientPlayerNicknameList`. -/
structure CMsgClientPlayerNicknameList where
  removal : Option Bool := none
  incremental : Option Bool := none
  nicknames : List PlayerNickname := []
  deriving DecidableEq, Repr

/-- `CMsgClientFriendsGroupsList.FriendGroup`. -/
structure ProtoFriendGroup where
  nGroupId : Option Int := none
  strGroupName : Option String := none
  deriving DecidableEq, Repr

/-- `CMsgClientFriendsGroupsList.FriendGroupsMembership`. -/
structure ProtoMembership where
  ulSteamId : Option UInt64 := none
  nGroupId : Option Int := none
  deriving DecidableEq, Repr

/-- `CMsgClientFriendsGroupsList`. -/
structure CMsgClientFriendsGroupsList where
  bremoval : Option Bool := none
  bincremental : Option Bool := none
  friendGroups : List ProtoFriendGroup := []
  memberships : List ProtoMembership := []
  deriving DecidableEq, Repr

/-- What the friends operations use of prost, each decoder failing with the text of its
error. -/
structure FriendsProst where
  friendsList : Bytes → Except String CMsgClientFriendsList
  nicknameList : Bytes → Except String CMsgClientPlayerNicknameList
  groupsList : Bytes → Except String CMsgClientFriendsGroupsList

/-- The entries of a friends list; those without an id are dropped. -/
def friendsFrom (list : CMsgClientFriendsList) : List Friend :=
  list.friends.filterMap fun f => f.ulfriendid.map fun id =>
    ⟨id, .fromRaw (f.efriendrelationship.getD 0)⟩

/-- The entries of a nickname list; those without an id are dropped. -/
def nicknamesFrom (list : CMsgClientPlayerNicknameList) : List Nickname :=
  list.nicknames.filterMap fun n => n.steamid.map fun id => ⟨id, n.nickname.getD ""⟩

/-- The groups of a friends-groups list, each with its members. -/
def groupsFrom (list : CMsgClientFriendsGroupsList) : List FriendsGroup :=
  list.friendGroups.filterMap fun g => g.nGroupId.map fun groupId =>
    { groupId
      name := g.strGroupName.getD ""
      members := list.memberships.filterMap fun m =>
        if m.nGroupId = some groupId then m.ulSteamId else none }

/-- Whether a nickname list is the full one. -/
def isFullNicknames (list : CMsgClientPlayerNicknameList) : Bool :=
  !list.incremental.getD false && !list.removal.getD false

/-- Whether a friends-groups list is the full one. -/
def isFullGroups (list : CMsgClientFriendsGroupsList) : Bool :=
  !list.bincremental.getD false && !list.bremoval.getD false

/-! ### The operations -/

/-- `k_EMsgClientFriendsList`. -/
def emsgClientFriendsList : UInt32 := 767

/-- `k_EMsgClientFriendsGroupsList`. -/
def emsgClientFriendsGroupsList : UInt32 := 5553

/-- `k_EMsgClientPlayerNicknameList`. -/
def emsgClientPlayerNicknameList : UInt32 := 5587

/-- What an operation makes of a body: an error if it does not decode, the entries of a full
list, and nothing of any other list. -/
def judgeList {γ β : Type} (decode : Bytes → Except String γ) (isFull : γ → Bool)
    (entries : γ → β) (what : String) (body : Bytes) : Option (Except Error β) :=
  match decode body with
  | .error e => some (.error (.codec ("decode " ++ what ++ ": " ++ e)))
  | .ok list => if isFull list then some (.ok (entries list)) else none

/-- The operation that returns the full list of type `emsg`. -/
def requestList {β : Type} (emsg : UInt32) (judge : Bytes → Option (Except Error β))
    (what : String) : Call SteamMessage β where
  needsReady := false
  message? := Deed.message?
  capacity := eventCapacity
  holds := Party.holdsEvents
  opening := .readCache emsg judge
  wait :=
    { judge := fun msg => if msg.emsg = emsg then judge msg.body else none
      closed := .webSocket "session stopped"
      timedOut := .timeout what }

/-- Capture the account's friends list. -/
def requestFriendsList (F : FriendsProst) : Call SteamMessage (List Friend) :=
  requestList emsgClientFriendsList
    (judgeList F.friendsList (fun list => list.bincremental != some true) friendsFrom
      "friends list")
    "friends list"

/-- Capture the post-login nickname list. -/
def requestNicknames (F : FriendsProst) : Call SteamMessage (List Nickname) :=
  requestList emsgClientPlayerNicknameList
    (judgeList F.nicknameList isFullNicknames nicknamesFrom "nicknames")
    "nicknames list"

/-- Capture the post-login friends-groups list. -/
def requestFriendsGroupsList (F : FriendsProst) : Call SteamMessage (List FriendsGroup) :=
  requestList emsgClientFriendsGroupsList
    (judgeList F.groupsList isFullGroups groupsFrom "groups list")
    "friends groups list"

/-- Prost on an empty body, an empty full list, and a list of one friend with a small id. -/
def Sample.friendsProst : FriendsProst where
  friendsList
    | [] => .ok {}
    | [0x08, 0x00] => .ok { bincremental := some false }
    | [0x12, 0x0b, 0x09, id, 0, 0, 0, 0, 0, 0, 0, 0x10, 0x03] =>
        .ok { friends := [{ ulfriendid := some id.toUInt64, efriendrelationship := some 3 }] }
    | _ => .error "unexpected bytes"
  nicknameList body := if body = [] then .ok {} else .error "unexpected bytes"
  groupsList body := if body = [] then .ok {} else .error "unexpected bytes"

end Steamroids
