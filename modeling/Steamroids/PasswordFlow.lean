import Steamroids.Conversation
import Steamroids.HttpClient
import Steamroids.Polling
import Steamroids.TokenStore
import Steamroids.Totp

/-!
# The Password Flow

A sign-in with a password is a conversation with Steam's auth service (`signin.rs`): fetch an RSA
key, begin a session with the encrypted password, submit a Steam Guard code if one is asked for, and
poll for the token. Each answer has a result code, and any step may end the flow, with an outcome
or with an error. The calls that are made are kept with the result codes that they got.

What the service answers is arbitrary. Prost, RSA, base64 and reqwest are parameters.

## Main results

* `executePasswordFlow_run`: the ways in which a flow goes, and that it ends in one of them.
-/

namespace Steamroids

open Conversation (Talk andThen)

/-! ### Requests and responses -/

/-- `EAuthSessionGuardType` values. -/
def guardTypeNone : Int := 1
/-- `GUARD_TYPE_EMAIL_CODE`. -/
def guardTypeEmailCode : Int := 2
/-- `GUARD_TYPE_DEVICE_CODE`. -/
def guardTypeDeviceCode : Int := 3

/-- `EAuthTokenPlatformType_SteamClient`. -/
def platformSteamClient : Int := 1
/-- `EOSType` for Windows 10. -/
def osTypeWindows10 : Int := 16
/-- `ESessionPersistence_Persistent`. -/
def sessionPersistent : Int := 1

/-- The fields of `CAuthenticationDeviceDetails` that are set. -/
structure DeviceDetails where
  deviceFriendlyName : Option String
  platformType : Option Int
  osType : Option Int
  deriving DecidableEq, Repr

/-- The fields of `CAuthenticationBeginAuthSessionViaCredentialsRequest` that are set. -/
structure BeginRequest where
  deviceFriendlyName : Option String
  accountName : Option String
  encryptedPassword : Option String
  encryptionTimestamp : Option UInt64
  rememberLogin : Option Bool
  platformType : Option Int
  persistence : Option Int
  deviceDetails : Option DeviceDetails
  deriving DecidableEq, Repr

/-- `CAuthenticationUpdateAuthSessionWithSteamGuardCodeRequest`. -/
structure UpdateRequest where
  clientId : Option UInt64
  steamid : Option UInt64
  code : Option String
  codeType : Option Int
  deriving DecidableEq, Repr

/-- A request to the auth service. -/
inductive AuthRequest
  | rsaKey (accountName : Option String)
  | begin (req : BeginRequest)
  | update (req : UpdateRequest)
  | poll (req : PollRequest)
  deriving DecidableEq, Repr

/-- The method of a request. -/
def AuthRequest.method : AuthRequest → String
  | .rsaKey _ => "GetPasswordRSAPublicKey"
  | .begin _ => "BeginAuthSessionViaCredentials"
  | .update _ => "UpdateAuthSessionWithSteamGuardCode"
  | .poll _ => "PollAuthSessionStatus"

/-- A call, with the result code that came back. -/
abbrev AuthCall := AuthRequest × Except Error Int

/-- The fields of `CAuthenticationGetPasswordRsaPublicKeyResponse`. -/
structure RsaKeyResponse where
  publickeyMod : Option String := none
  publickeyExp : Option String := none
  timestamp : Option UInt64 := none

/-- One of the confirmations that Steam would accept. -/
structure AllowedConfirmation where
  confirmationType : Option Int := none
  associatedMessage : Option String := none

/-- The fields of `CAuthenticationBeginAuthSessionViaCredentialsResponse` that are read. -/
structure BeginResponse where
  clientId : Option UInt64 := none
  requestId : Option Bytes := none
  steamid : Option UInt64 := none
  interval : Option Binary32 := none
  allowedConfirmations : List AllowedConfirmation := []

/-- The crates that the flow uses. An error is given by its text. -/
structure AuthCrates where
  http : HttpCode
  /-- The error of `Url::parse`, if there is one. -/
  parseUrl : String → Option String
  rsaKeyResponse : Bytes → Except String RsaKeyResponse
  beginResponse : Bytes → Except String BeginResponse
  updateResponse : Bytes → Except String Unit
  pollResponse : Bytes → Except String PollResponse
  /-- `BigUint::parse_bytes` in base 16. -/
  parseHex : String → Option Nat
  /-- The error of `RsaPublicKey::new`, if there is one. -/
  newKey : Nat → Nat → Option String
  /-- Encryption with the modulus and the exponent, and with the randomness of this flow. -/
  encrypt : Nat → Nat → Bytes → Except String Bytes
  b64 : List Char → Except String Bytes
  /-- The `hmac` crate, over SHA-1. -/
  hmac : Bytes → Bytes → Sha1.Digest

/-- What a flow meets: the system clock, and what comes back for each call. -/
structure AuthWorld where
  clock : Option UInt64
  rsaKey : Except String HttpResponse
  begin : Except String HttpResponse
  update : Except String HttpResponse
  polls : PollWorld

/-! ### The steps -/

/-- The result of the flow, unless the polls run out. -/
abbrev FlowResult := Option (Except Error SignInOutcome)

/-- Either continue the flow, or leave it with an outcome. -/
inductive EarlyExit (α : Type)
  | continue (a : α)
  | outcome (o : SignInOutcome)

/-- Make one call, read its answer, and go on or not. -/
def talk {α : Type} (call : AuthCall) (step : Except Error (EarlyExit α)) :
    Talk AuthCall FlowResult α :=
  ([call], match step with
    | .error e => .inl (some (.error e))
    | .ok (.outcome o) => .inl (some (.ok o))
    | .ok (.continue a) => .inr a)

/-- Read the answer to a request: a result code other than OK ends the flow. -/
def readAnswer {α Resp : Type} (req : AuthRequest) (answer : Except Error (Int × Resp))
    (read : Resp → Except Error α) : Except Error (EarlyExit α) := do
  let (er, resp) ← answer
  if er ≠ EResult.ok then
    match mapNonOkEresult er with
    | some outcome => .ok (.outcome outcome)
    | none => .error (.authRejected (req.method ++ " eresult " ++ toString er))
  else
    (read resp).map .continue

/-- `.ok_or_else(|| Error::AuthRejected(..))`. -/
def required {α : Type} (field : Option α) (text : String) : Except Error α :=
  field.elim (.error (.authRejected text)) .ok

/-- The key as it is used. -/
structure RsaKey where
  modHex : String
  expHex : String
  timestamp : UInt64

/-- Read the key from its answer. -/
def readRsaKey (resp : RsaKeyResponse) : Except Error RsaKey := do
  let modHex ← required resp.publickeyMod "rsa response: missing modulus"
  let expHex ← required resp.publickeyExp "rsa response: missing exponent"
  let timestamp ← required resp.timestamp "rsa response: missing timestamp"
  pure ⟨modHex, expHex, timestamp⟩

section Flow

variable (C : AuthCrates) (J : JwtCode) (W : AuthWorld)

/-- The answer to the first call. -/
def AuthWorld.rsaKeyAnswer : Except Error (Int × RsaKeyResponse) :=
  call ⟨C.parseUrl, C.rsaKeyResponse⟩ "GetPasswordRSAPublicKey" W.rsaKey

/-- The answer to the call that begins a session. -/
def AuthWorld.beginAnswer : Except Error (Int × BeginResponse) :=
  call ⟨C.parseUrl, C.beginResponse⟩ "BeginAuthSessionViaCredentials" W.begin

/-- The answer to a guard code. -/
def AuthWorld.updateAnswer : Except Error (Int × Unit) :=
  call ⟨C.parseUrl, C.updateResponse⟩ "UpdateAuthSessionWithSteamGuardCode" W.update

/-- The web API as polling uses it. -/
def AuthCrates.pollApi : WebApi PollResponse := ⟨C.parseUrl, C.pollResponse⟩

/-- Fetch the RSA public key. -/
def fetchRsaKey (accountName : String) : Talk AuthCall FlowResult RsaKey :=
  let req := .rsaKey (some accountName)
  talk (req, (W.rsaKeyAnswer C).map Prod.fst) (readAnswer req (W.rsaKeyAnswer C) readRsaKey)

/-- Encrypt the password with the key that is given in hex, to base64. -/
def encryptPassword (password modHex expHex : String) : Except Error String := do
  let n ← required (C.parseHex modHex) "rsa: bad modulus hex"
  let e ← required (C.parseHex expHex) "rsa: bad exponent hex"
  (C.newKey n e).elim (.ok ()) fun err => .error (.authRejected ("rsa: " ++ err))
  let ct ← (C.encrypt n e password.toUTF8.toList).mapError fun err =>
    .authRejected ("rsa encrypt: " ++ err)
  pure (String.ofList (Base64.encode ct))

/-- What is read of the answer that begins a session: beyond what polling uses, the guard types, and
the hint on the email domain. -/
structure BegunSession extends BeginSession where
  guards : List Int
  emailDomainHint : Option String

/-- One iteration of the loop over the allowed confirmations. -/
def readConfirmation (acc : List Int × Option String) (c : AllowedConfirmation) :
    List Int × Option String :=
  match c.confirmationType with
  | none => acc
  | some ct =>
      (acc.1 ++ [ct],
        if ct = guardTypeEmailCode ∧ acc.2 = none then c.associatedMessage.filter (· ≠ "")
        else acc.2)

/-- Read the session from the answer that begins it. -/
def readBeginSession (resp : BeginResponse) : Except Error BegunSession := do
  let clientId ← required resp.clientId "BeginAuth response: missing client_id"
  let requestId ← required resp.requestId "BeginAuth response: missing request_id"
  let sessionSteamid ← required resp.steamid "BeginAuth response: missing steamid"
  let (guards, emailDomainHint) := resp.allowedConfirmations.foldl readConfirmation ([], none)
  pure
    { clientId
      requestId
      sessionSteamid
      pollInterval := computePollInterval resp.interval
      pollInterval_spec := ⟨resp.interval, rfl⟩
      guards
      emailDomainHint }

/-- The request that begins a session. -/
def beginRequest (accountName encryptedPasswordB64 : String) (encryptionTimestamp : UInt64) :
    BeginRequest where
  deviceFriendlyName := some "steamroids"
  accountName := some accountName
  encryptedPassword := some encryptedPasswordB64
  encryptionTimestamp := some encryptionTimestamp
  rememberLogin := some true
  platformType := some platformSteamClient
  persistence := some sessionPersistent
  deviceDetails := some ⟨some "steamroids", some platformSteamClient, some osTypeWindows10⟩

/-- Begin the auth session. -/
def beginSession (accountName encryptedPasswordB64 : String) (encryptionTimestamp : UInt64) :
    Talk AuthCall FlowResult BegunSession :=
  let req := .begin (beginRequest accountName encryptedPasswordB64 encryptionTimestamp)
  talk (req, (W.beginAnswer C).map Prod.fst) (readAnswer req (W.beginAnswer C) readBeginSession)

/-- The request that submits a guard code. -/
def updateRequest (begun : BegunSession) (code : String) : UpdateRequest where
  clientId := some begun.clientId
  steamid := some begun.sessionSteamid
  code := some code
  codeType := some guardTypeDeviceCode

/-- Handle whichever Steam Guard variant Steam asked for. -/
def resolveGuard (begun : BegunSession) (sharedSecret : Option String) :
    Talk AuthCall FlowResult Unit :=
  if guardTypeDeviceCode ∈ begun.guards then
    match sharedSecret with
    | none => ([], .inl (some (.ok .needsMobileGuardCode)))
    | some secret =>
        match generateAuthCode C.hmac C.b64 W.clock secret none with
        | .error e => ([], .inl (some (.error e)))
        | .ok code =>
            let req := .update (updateRequest begun code)
            talk (req, (W.updateAnswer C).map Prod.fst) (readAnswer req (W.updateAnswer C) .ok)
  else if guardTypeEmailCode ∈ begun.guards then
    ([], .inl (some (.ok (.needsEmailGuardCode (begun.emailDomainHint.getD "")))))
  else if begun.guards ≠ [] ∧ guardTypeNone ∉ begun.guards then
    ([], .inl (some (.error
      (.authRejected ("unsupported confirmation types: " ++ toString begun.guards)))))
  else
    ([], .inr ())

/-- Poll until Steam emits a token. -/
def pollTalk (session : BeginSession) (fuel : Nat) : Talk AuthCall FlowResult Empty :=
  let r := pollForToken C.pollApi J session W.polls fuel
  (r.1.mapIdx fun n req => (.poll req, (W.polls.answer C.pollApi n).map Prod.fst), .inl r.2)

/-- The flow, with so many polls at most. -/
def executePasswordFlow (proxy : Option ProxyConfig) (creds : PasswordCredentials) (fuel : Nat) :
    Talk AuthCall FlowResult Empty :=
  match httpClient C.http proxy with
  | .error e => ([], .inl (some (.error e)))
  | .ok _ =>
      andThen (fetchRsaKey C W creds.accountName) fun key =>
        match encryptPassword C creds.password key.modHex key.expHex with
        | .error e => ([], .inl (some (.error e)))
        | .ok encryptedB64 =>
            andThen (beginSession C W creds.accountName encryptedB64 key.timestamp) fun begun =>
              andThen (resolveGuard C W begun creds.sharedSecret) fun () =>
                pollTalk C J W begun.toBeginSession fuel

end Flow

/-! ### One call -/

/-- The call went through and was answered with OK. -/
def Good (c : AuthCall) : Prop := c.2 = .ok EResult.ok

/-- What a call leads to that is not: its own error, what its result code stands for, or an error
that names the code. -/
inductive Verdict : AuthCall → Except Error SignInOutcome → Prop
  | failed (req : AuthRequest) (e : Error) : Verdict (req, .error e) (.error e)
  | mapped (req : AuthRequest) {er : Int} {outcome : SignInOutcome} : MeansOutcome er outcome →
      Verdict (req, .ok er) (.ok outcome)
  | rejected (req : AuthRequest) {er : Int} : MeansNone er →
      Verdict (req, .ok er) (.error (.authRejected (req.method ++ " eresult " ++ toString er)))

/-- How a call goes whose answer is read. -/
inductive Said {α Resp : Type} (req : AuthRequest) (answer : Except Error (Int × Resp))
    (read : Resp → Except Error α) : Talk AuthCall FlowResult α → Prop
  | bad {res : Except Error SignInOutcome} : ¬ Good (req, answer.map Prod.fst) →
      Verdict (req, answer.map Prod.fst) res →
      Said req answer read ([(req, answer.map Prod.fst)], .inl (some res))
  | unread {resp : Resp} {e : Error} : answer = .ok (EResult.ok, resp) → read resp = .error e →
      Said req answer read ([(req, .ok EResult.ok)], .inl (some (.error e)))
  | good {resp : Resp} {a : α} : answer = .ok (EResult.ok, resp) → read resp = .ok a →
      Said req answer read ([(req, .ok EResult.ok)], .inr a)

/-- A call goes in one of these ways. -/
theorem talk_said {α Resp : Type} (req : AuthRequest) (answer : Except Error (Int × Resp))
    (read : Resp → Except Error α) :
    Said req answer read (talk (req, answer.map Prod.fst) (readAnswer req answer read)) := by
  rcases answer with e | ⟨er, resp⟩
  · exact .bad (by simp [Good, Except.map]) (.failed req e)
  · by_cases her : er = EResult.ok
    · subst her
      rcases hread : read resp with e | a
      · have h : Said req (.ok (EResult.ok, resp)) read _ := .unread rfl hread
        simpa [talk, readAnswer, bind, Except.bind, Except.map, hread] using h
      · have h : Said req (.ok (EResult.ok, resp)) read _ := .good rfl hread
        simpa [talk, readAnswer, bind, Except.bind, Except.map, hread] using h
    · have hbad : ¬ Good (req, (.ok (er, resp) : Except Error (Int × Resp)).map Prod.fst) := by
        simpa [Good, Except.map] using her
      cases hmap : mapNonOkEresult er with
      | none =>
          have h : Said req (.ok (er, resp)) read _ :=
            .bad hbad (.rejected req (mapNonOkEresult_eq_none_iff.mp hmap))
          simpa [talk, readAnswer, bind, Except.bind, Except.map, her, hmap] using h
      | some o =>
          have h : Said req (.ok (er, resp)) read _ :=
            .bad hbad (.mapped req (mapNonOkEresult_eq_some_iff.mp hmap))
          simpa [talk, readAnswer, bind, Except.bind, Except.map, her, hmap] using h

/-- A call that ends the flow has a result. -/
theorem Said.of_inl {α Resp : Type} {req : AuthRequest} {answer : Except Error (Int × Resp)}
    {read : Resp → Except Error α} {calls : List AuthCall} {r : FlowResult}
    (h : Said req answer read (calls, .inl r)) : ∃ res, r = some res := by
  cases h with
  | bad => exact ⟨_, rfl⟩
  | unread => exact ⟨_, rfl⟩

/-- A call after which the flow goes on was answered with OK, and its answer was read. -/
theorem Said.of_inr {α Resp : Type} {req : AuthRequest} {answer : Except Error (Int × Resp)}
    {read : Resp → Except Error α} {calls : List AuthCall} {a : α}
    (h : Said req answer read (calls, .inr a)) :
    calls = [(req, .ok EResult.ok)] ∧
      ∃ resp, answer = .ok (EResult.ok, resp) ∧ read resp = .ok a := by
  cases h with
  | good hans hread => exact ⟨rfl, _, hans, hread⟩

/-! ### The steps of a flow -/

section Runs

variable (C : AuthCrates) (J : JwtCode) (W : AuthWorld)

/-- The service has handed out this key. -/
def HasKey (key : RsaKey) : Prop :=
  ∃ resp, W.rsaKeyAnswer C = .ok (EResult.ok, resp) ∧ resp.publickeyMod = some key.modHex ∧
    resp.publickeyExp = some key.expHex ∧ resp.timestamp = some key.timestamp

/-- The text is the base64 of the password's bytes, encrypted with the numbers that a key of the
service writes in hex, and the time is that of the key. -/
def Encrypted (creds : PasswordCredentials) (encryptedB64 : String) (timestamp : UInt64) : Prop :=
  ∃ key n e ciphertext, HasKey C W key ∧ key.timestamp = timestamp ∧
    C.parseHex key.modHex = some n ∧ C.parseHex key.expHex = some e ∧
    C.encrypt n e creds.password.toUTF8.toList = .ok ciphertext ∧
    encryptedB64 = String.ofList (Base64.encode ciphertext)

/-- The hint on the email domain in a confirmation. -/
def emailHint (c : AllowedConfirmation) : Option String :=
  if c.confirmationType = some guardTypeEmailCode then c.associatedMessage.filter (· ≠ "") else none

/-- The session is the one that the answer begins: its guards are the types of the confirmations,
and its hint is the first one in them. -/
structure BegunSession.TakenFrom (begun : BegunSession) (resp : BeginResponse) : Prop where
  clientId : resp.clientId = some begun.clientId
  requestId : resp.requestId = some begun.requestId
  sessionSteamid : resp.steamid = some begun.sessionSteamid
  pollInterval : begun.pollInterval = computePollInterval resp.interval
  guards : begun.guards = resp.allowedConfirmations.filterMap AllowedConfirmation.confirmationType
  emailDomainHint : begun.emailDomainHint = resp.allowedConfirmations.findSome? emailHint

/-- The service has begun this session. -/
def HasBegun (begun : BegunSession) : Prop :=
  ∃ resp, W.beginAnswer C = .ok (EResult.ok, resp) ∧ begun.TakenFrom resp

variable {C W}

/-- A required field is there. -/
theorem required_eq_ok_iff {α : Type} {field : Option α} {text : String} {a : α} :
    required field text = .ok a ↔ field = some a := by
  cases field <;> simp [required]

/-- A key that is read has been handed out. -/
theorem hasKey_of_read {key : RsaKey}
    (h : ∃ resp, W.rsaKeyAnswer C = .ok (EResult.ok, resp) ∧ readRsaKey resp = .ok key) :
    HasKey C W key := by
  obtain ⟨resp, hans, hread⟩ := h
  obtain ⟨modHex, hmod, hread⟩ := bind_eq_ok.mp hread
  obtain ⟨expHex, hexp, hread⟩ := bind_eq_ok.mp hread
  obtain ⟨timestamp, htime, hread⟩ := bind_eq_ok.mp hread
  obtain rfl := Except.ok.inj hread
  exact ⟨resp, hans, required_eq_ok_iff.mp hmod, required_eq_ok_iff.mp hexp,
    required_eq_ok_iff.mp htime⟩

/-- What is made of the password with a key. -/
theorem HasKey.encrypted {key : RsaKey} {creds : PasswordCredentials} {enc : String}
    (hkey : HasKey C W key)
    (h : encryptPassword C creds.password key.modHex key.expHex = .ok enc) :
    Encrypted C W creds enc key.timestamp := by
  obtain ⟨n, hn, h⟩ := bind_eq_ok.mp h
  obtain ⟨e, he, h⟩ := bind_eq_ok.mp h
  obtain ⟨⟨⟩, -, h⟩ := bind_eq_ok.mp h
  obtain ⟨ciphertext, hct, h⟩ := bind_eq_ok.mp h
  obtain rfl := Except.ok.inj h
  refine ⟨key, n, e, ciphertext, hkey, rfl, required_eq_ok_iff.mp hn, required_eq_ok_iff.mp he, ?_,
    rfl⟩
  cases hencrypt : C.encrypt n e creds.password.toUTF8.toList with
  | error err =>
      rw [hencrypt] at hct
      cases hct
  | ok ct =>
      rw [hencrypt] at hct
      exact congrArg Except.ok (Except.ok.inj hct)

/-- One confirmation adds its type to the guards, and its hint if there is none yet. -/
theorem readConfirmation_eq (acc : List Int × Option String) (c : AllowedConfirmation) :
    readConfirmation acc c = (acc.1 ++ c.confirmationType.toList, acc.2.or (emailHint c)) := by
  obtain ⟨guards, hint⟩ := acc
  rcases hct : c.confirmationType with _ | ct
  · simp [readConfirmation, emailHint, hct]
  · by_cases hemail : ct = guardTypeEmailCode
    · cases hint <;> simp [readConfirmation, emailHint, hct, hemail]
    · simp [readConfirmation, emailHint, hct, hemail]

/-- The loop over the confirmations collects their types, and the first hint. -/
theorem foldl_readConfirmation (cs : List AllowedConfirmation) (acc : List Int × Option String) :
    cs.foldl readConfirmation acc =
      (acc.1 ++ cs.filterMap AllowedConfirmation.confirmationType,
        acc.2.or (cs.findSome? emailHint)) := by
  induction cs generalizing acc with
  | nil => simp
  | cons c cs ih =>
      rw [List.foldl_cons, ih, readConfirmation_eq]
      cases hct : c.confirmationType <;> cases hhint : emailHint c <;> simp [hct, hhint]

/-- A session that is read has been begun. -/
theorem hasBegun_of_read {begun : BegunSession}
    (h : ∃ resp, W.beginAnswer C = .ok (EResult.ok, resp) ∧ readBeginSession resp = .ok begun) :
    HasBegun C W begun := by
  obtain ⟨resp, hans, hread⟩ := h
  obtain ⟨clientId, hclient, hread⟩ := bind_eq_ok.mp hread
  obtain ⟨requestId, hrequest, hread⟩ := bind_eq_ok.mp hread
  obtain ⟨sessionSteamid, hsteamid, hread⟩ := bind_eq_ok.mp hread
  rw [foldl_readConfirmation] at hread
  obtain rfl := Except.ok.inj hread
  exact ⟨resp, hans,
    { clientId := required_eq_ok_iff.mp hclient
      requestId := required_eq_ok_iff.mp hrequest
      sessionSteamid := required_eq_ok_iff.mp hsteamid
      pollInterval := rfl
      guards := List.nil_append _
      emailDomainHint := Option.none_or }⟩

/-- The service begins one session. -/
theorem HasBegun.unique {begun begun' : BegunSession} (h : HasBegun C W begun)
    (h' : HasBegun C W begun') : begun' = begun := by
  obtain ⟨resp, hans, hfrom⟩ := h
  obtain ⟨resp', hans', hfrom'⟩ := h'
  obtain rfl : resp = resp' := by
    rw [hans] at hans'
    simpa using hans'
  obtain ⟨⟨clientId, requestId, sessionSteamid, pollInterval, _⟩, guards, hint⟩ := begun
  obtain ⟨⟨clientId', requestId', sessionSteamid', pollInterval', _⟩, guards', hint'⟩ := begun'
  obtain rfl : clientId = clientId' := Option.some.inj (hfrom.clientId.symm.trans hfrom'.clientId)
  obtain rfl : requestId = requestId' :=
    Option.some.inj (hfrom.requestId.symm.trans hfrom'.requestId)
  obtain rfl : sessionSteamid = sessionSteamid' :=
    Option.some.inj (hfrom.sessionSteamid.symm.trans hfrom'.sessionSteamid)
  obtain rfl : pollInterval = pollInterval' := hfrom.pollInterval.trans hfrom'.pollInterval.symm
  obtain rfl : guards = guards' := hfrom.guards.trans hfrom'.guards.symm
  obtain rfl : hint = hint' := hfrom.emailDomainHint.trans hfrom'.emailDomainHint.symm
  rfl

variable (C W)

/-- How the guard is resolved. -/
inductive GuardRun (begun : BegunSession) (sharedSecret : Option String) :
    Talk AuthCall FlowResult Unit → Prop
  | noSecret : guardTypeDeviceCode ∈ begun.guards → sharedSecret = none →
      GuardRun begun sharedSecret ([], .inl (some (.ok .needsMobileGuardCode)))
  | noCode {secret : String} {e : Error} : guardTypeDeviceCode ∈ begun.guards →
      sharedSecret = some secret → generateAuthCode C.hmac C.b64 W.clock secret none = .error e →
      GuardRun begun sharedSecret ([], .inl (some (.error e)))
  | code {secret code : String} {t : Talk AuthCall FlowResult Unit} :
      guardTypeDeviceCode ∈ begun.guards → sharedSecret = some secret →
      generateAuthCode C.hmac C.b64 W.clock secret none = .ok code →
      Said (.update (updateRequest begun code)) (W.updateAnswer C) .ok t →
      GuardRun begun sharedSecret t
  | email : guardTypeDeviceCode ∉ begun.guards → guardTypeEmailCode ∈ begun.guards →
      GuardRun begun sharedSecret
        ([], .inl (some (.ok (.needsEmailGuardCode (begun.emailDomainHint.getD "")))))
  | unsupported : guardTypeDeviceCode ∉ begun.guards → guardTypeEmailCode ∉ begun.guards →
      begun.guards ≠ [] → guardTypeNone ∉ begun.guards →
      GuardRun begun sharedSecret ([], .inl (some (.error
        (.authRejected ("unsupported confirmation types: " ++ toString begun.guards)))))
  | free : guardTypeDeviceCode ∉ begun.guards → guardTypeEmailCode ∉ begun.guards →
      begun.guards = [] ∨ guardTypeNone ∈ begun.guards →
      GuardRun begun sharedSecret ([], .inr ())

/-- The guard is resolved in one of these ways. -/
theorem resolveGuard_run (begun : BegunSession) (sharedSecret : Option String) :
    GuardRun C W begun sharedSecret (resolveGuard C W begun sharedSecret) := by
  unfold resolveGuard
  split
  · rename_i hdevice
    rcases sharedSecret with _ | secret
    · exact .noSecret hdevice rfl
    · dsimp only
      rcases hcode : generateAuthCode C.hmac C.b64 W.clock secret none with e | code
      · exact .noCode hdevice rfl hcode
      · exact .code hdevice rfl hcode (talk_said _ _ _)
  · rename_i hdevice
    split
    · rename_i hemail
      exact .email hdevice hemail
    · rename_i hemail
      split
      · rename_i hother
        exact .unsupported hdevice hemail hother.1 hother.2
      · rename_i hother
        refine .free hdevice hemail ?_
        by_cases hnil : begun.guards = []
        · exact .inl hnil
        · exact .inr (not_not.mp fun hnone => hother ⟨hnil, hnone⟩)

variable {C W} in
/-- A guard that ends the flow gives a result. -/
theorem GuardRun.of_inl {begun : BegunSession} {sharedSecret : Option String}
    {calls : List AuthCall} {r : FlowResult}
    (h : GuardRun C W begun sharedSecret (calls, .inl r)) : ∃ res, r = some res := by
  cases h with
  | noSecret => exact ⟨_, rfl⟩
  | noCode => exact ⟨_, rfl⟩
  | code _ _ _ hsaid => exact hsaid.of_inl
  | email => exact ⟨_, rfl⟩
  | unsupported => exact ⟨_, rfl⟩

/-- The calls of `n` polls. -/
def pollCalls (session : BeginSession) (n : Nat) : List AuthCall :=
  (List.range n).map fun i =>
    (.poll (pollRequest C.pollApi session W.polls i),
      (W.polls.answer C.pollApi i).map Prod.fst)

/-- How polling goes: `n` polls that decide nothing, and one more. -/
structure PollRun (session : BeginSession) (n : Nat) (res : Except Error SignInOutcome) :
    Prop where
  few : n < 120
  undecided : ∀ i < n, (W.polls.answer C.pollApi i).Undecided
  ended : Decides J session (W.polls.answer C.pollApi n) res ∨
    (W.polls.answer C.pollApi n).Undecided ∧ res = .error (.timeout "auth poll exceeded 120s")

/-- How a flow goes. -/
inductive FlowRun (proxy : Option ProxyConfig) (creds : PasswordCredentials) :
    List AuthCall → Except Error SignInOutcome → Prop
  | noClient {e : Error} : httpClient C.http proxy = .error e →
      FlowRun proxy creds [] (.error e)
  | noKey {calls : List AuthCall} {res : Except Error SignInOutcome} :
      Said (.rsaKey (some creds.accountName)) (W.rsaKeyAnswer C) readRsaKey
        (calls, .inl (some res)) →
      FlowRun proxy creds calls res
  | notEncrypted {key : RsaKey} {e : Error} : HasKey C W key →
      encryptPassword C creds.password key.modHex key.expHex = .error e →
      FlowRun proxy creds [(.rsaKey (some creds.accountName), .ok EResult.ok)] (.error e)
  | notBegun {enc : String} {timestamp : UInt64} {calls : List AuthCall}
      {res : Except Error SignInOutcome} : Encrypted C W creds enc timestamp →
      Said (.begin (beginRequest creds.accountName enc timestamp)) (W.beginAnswer C)
        readBeginSession (calls, .inl (some res)) →
      FlowRun proxy creds ((.rsaKey (some creds.accountName), .ok EResult.ok) :: calls) res
  | guarded {enc : String} {timestamp : UInt64} {begun : BegunSession} {calls : List AuthCall}
      {res : Except Error SignInOutcome} : Encrypted C W creds enc timestamp →
      HasBegun C W begun → GuardRun C W begun creds.sharedSecret (calls, .inl (some res)) →
      FlowRun proxy creds ((.rsaKey (some creds.accountName), .ok EResult.ok) ::
        (.begin (beginRequest creds.accountName enc timestamp), .ok EResult.ok) :: calls) res
  | polled {enc : String} {timestamp : UInt64} {begun : BegunSession} {calls : List AuthCall}
      {n : Nat} {res : Except Error SignInOutcome} : Encrypted C W creds enc timestamp →
      HasBegun C W begun → GuardRun C W begun creds.sharedSecret (calls, .inr ()) →
      PollRun C J W begun.toBeginSession n res →
      FlowRun proxy creds ((.rsaKey (some creds.accountName), .ok EResult.ok) ::
        (.begin (beginRequest creds.accountName enc timestamp), .ok EResult.ok) ::
        (calls ++ pollCalls C W begun.toBeginSession (n + 1))) res

variable {C J W}

/-- Polling ends, on a clock that advances by the interval with every sleep. -/
theorem pollTalk_run {session : BeginSession}
    (hclock : ∀ n, W.polls.clock n + session.pollInterval ≤ W.polls.clock (n + 1)) :
    ∃ n res, (∀ fuel, 121 ≤ fuel →
        pollTalk C J W session fuel = (pollCalls C W session (n + 1), .inl (some res))) ∧
      PollRun C J W session n res := by
  have hbudget := clock_ge hclock 120
  have hcalls (k : Nat) : ((List.range k).map (pollRequest C.pollApi session W.polls)).mapIdx
      (fun n req => (.poll req, (W.polls.answer C.pollApi n).map Prod.fst)) =
        pollCalls C W session k := by
    refine List.ext_getElem (by simp [pollCalls]) fun i _ _ => ?_
    simp [pollCalls]
  obtain ⟨k, hle, hk, hmin⟩ := exists_not_pollsOn (A := C.pollApi) hclock
  by_cases hlate : k ≠ 0 ∧ W.polls.clock 0 + pollBudget ≤ W.polls.clock k
  · obtain ⟨hne, hlate⟩ := hlate
    obtain ⟨n, rfl⟩ := Nat.exists_eq_succ_of_ne_zero hne
    refine ⟨n, _, fun fuel hfuel => ?_,
      { few := hle
        undecided := fun i hi => (hmin i (Nat.lt_succ_of_lt hi)).2
        ended := .inr ⟨(hmin n (Nat.lt_succ_self n)).2, rfl⟩ }⟩
    rw [pollTalk, pollForToken_late hmin hne hlate (by omega), hcalls]
  · have htime : k = 0 ∨ W.polls.clock k < W.polls.clock 0 + pollBudget := by omega
    have hdec : ¬ (W.polls.answer C.pollApi k).Undecided := fun hans => hk ⟨htime, hans⟩
    have hne : k ≠ 120 := by
      rintro rfl
      exact htime.elim (by decide) (Nat.not_lt.mpr hbudget)
    obtain ⟨res, hres⟩ := Option.ne_none_iff_exists'.mp (mt judgePoll_eq_none_iff.mp hdec)
    refine ⟨k, res, fun fuel hfuel => ?_,
      { few := Nat.lt_of_le_of_ne hle hne
        undecided := fun i hi => (hmin i hi).2
        ended := .inl (decides_of_judgePoll hres) }⟩
    rw [pollTalk, pollForToken_decided hmin htime hres (by omega), hcalls]

variable (C W) in
/-- Every sleep between two polls takes the interval of the session or more. -/
def Sleeps : Prop :=
  ∀ begun, HasBegun C W begun →
    ∀ n, W.polls.clock n + begun.pollInterval ≤ W.polls.clock (n + 1)

/-- Every flow ends, in one of the ways of `FlowRun`. -/
theorem executePasswordFlow_run (hsleeps : Sleeps C W) (proxy : Option ProxyConfig)
    (creds : PasswordCredentials) :
    ∃ calls res, (∀ fuel, 121 ≤ fuel →
        executePasswordFlow C J W proxy creds fuel = (calls, .inl (some res))) ∧
      FlowRun C J W proxy creds calls res := by
  unfold executePasswordFlow
  rcases hclient : httpClient C.http proxy with e | client
  · exact ⟨[], .error e, fun _ _ => rfl, .noClient hclient⟩
  have hsaid : Said _ _ _ (fetchRsaKey C W creds.accountName) := talk_said _ _ _
  rcases hfetch : fetchRsaKey C W creds.accountName with ⟨calls, r | key⟩ <;> rw [hfetch] at hsaid
  · obtain ⟨res, rfl⟩ := hsaid.of_inl
    exact ⟨calls, res, fun _ _ => rfl, .noKey hsaid⟩
  obtain ⟨rfl, hread⟩ := hsaid.of_inr
  have hkey := hasKey_of_read hread
  rcases henc : encryptPassword C creds.password key.modHex key.expHex with e | enc
  · refine ⟨_, .error e, fun _ _ => ?_, .notEncrypted hkey henc⟩
    simp [andThen, henc]
  have hencrypted := hkey.encrypted henc
  have hbegin : Said _ _ _ (beginSession C W creds.accountName enc key.timestamp) :=
    talk_said _ _ _
  rcases hbegins : beginSession C W creds.accountName enc key.timestamp with ⟨calls, r | begun⟩ <;>
    rw [hbegins] at hbegin
  · obtain ⟨res, rfl⟩ := hbegin.of_inl
    refine ⟨_, res, fun _ _ => ?_, .notBegun hencrypted hbegin⟩
    simp [andThen, henc, hbegins]
  obtain ⟨rfl, hread⟩ := hbegin.of_inr
  have hbegun := hasBegun_of_read hread
  have hguard := resolveGuard_run C W begun creds.sharedSecret
  rcases hguards : resolveGuard C W begun creds.sharedSecret with ⟨calls, r | ⟨⟩⟩ <;>
    rw [hguards] at hguard
  · obtain ⟨res, rfl⟩ := hguard.of_inl
    refine ⟨_, res, fun _ _ => ?_, .guarded hencrypted hbegun hguard⟩
    simp [andThen, henc, hbegins, hguards]
  obtain ⟨n, res, hpoll, hrun⟩ := pollTalk_run (J := J) (hsleeps begun hbegun)
  refine ⟨_, res, fun fuel hfuel => ?_, .polled hencrypted hbegun hguard hrun⟩
  simp [andThen, henc, hbegins, hguards, hpoll fuel hfuel]

end Runs

end Steamroids
