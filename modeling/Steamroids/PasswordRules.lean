import Steamroids.PasswordFlow

/-!
# The rules of the password flow

Whatever the service answers, and whenever, a flow is a conversation of a fixed form: it asks for a
key, begins a session, submits a guard code if one is asked for and can be made, and polls. It goes
on after OK answers only, and what it submits at each stage comes from the answers before. What it
returns is what the last answer says.

## Main results

* `password_flow_conversation`: the form of every flow, and where its requests come from.
* `password_flow_outcome`: what the service has said when a flow returns an outcome.
-/

namespace Steamroids

open Conversation

section Rules

variable {C : AuthCrates} {J : JwtCode} {W : AuthWorld} {proxy : Option ProxyConfig}
  {creds : PasswordCredentials} {calls : List AuthCall} {res : Except Error SignInOutcome}

/-! ### Order -/

/-- The conversation goes on after OK answers only, and ends with the verdict of any other. -/
abbrev OrderlyTalk (calls : List AuthCall) (res : Except Error SignInOutcome) : Prop :=
  Disciplined Good Verdict calls res

/-- One call is orderly. -/
theorem Said.orderly {α Resp : Type} {req : AuthRequest} {answer : Except Error (Int × Resp)}
    {read : Resp → Except Error α} (h : Said req answer read (calls, .inl (some res))) :
    OrderlyTalk calls res := by
  cases h with
  | bad _ hverdict => exact disciplined_single fun _ => hverdict
  | unread => exact disciplined_single fun hbad => absurd rfl hbad

/-- Resolving the guard is orderly. -/
theorem GuardRun.orderly {begun : BegunSession} {secret : Option String}
    (h : GuardRun C W begun secret (calls, .inl (some res))) : OrderlyTalk calls res := by
  cases h with
  | noSecret => exact disciplined_nil
  | noCode => exact disciplined_nil
  | code _ _ _ hsaid => exact hsaid.orderly
  | email => exact disciplined_nil
  | unsupported => exact disciplined_nil

/-- The calls that resolve the guard before polling are good. -/
theorem GuardRun.good {begun : BegunSession} {secret : Option String}
    (h : GuardRun C W begun secret (calls, .inr ())) : ∀ c ∈ calls, Good c := by
  cases h with
  | code _ _ _ hsaid =>
      obtain ⟨rfl, -⟩ := hsaid.of_inr
      exact List.forall_mem_singleton.mpr rfl
  | free => exact List.forall_mem_nil _

/-- An answer that decides nothing is OK. -/
theorem PollAnswer.Undecided.fst_eq {a : PollAnswer} (h : a.Undecided) :
    a.map Prod.fst = .ok EResult.ok := by
  obtain ⟨resp, rfl, -⟩ := h
  rfl

/-- What polling returns at an answer other than OK is the verdict of the call. -/
theorem Decides.verdict {session : BeginSession} {a : PollAnswer} (req : PollRequest)
    (h : Decides J session a res) (hbad : ¬ Good (.poll req, a.map Prod.fst)) :
    Verdict (.poll req, a.map Prod.fst) res := by
  cases h with
  | failed e => exact .failed _ e
  | mapped resp _ hmeans => exact .mapped _ hmeans
  | rejected resp _ hnone => exact .rejected (.poll req) hnone
  | token => exact absurd rfl hbad

/-- Polling is orderly. -/
theorem PollRun.orderly {session : BeginSession} {n : Nat} (h : PollRun C J W session n res) :
    OrderlyTalk (pollCalls C W session (n + 1)) res := by
  rw [pollCalls, List.range_succ, List.map_append]
  refine Disciplined.append ?_ (disciplined_single fun hbad => ?_)
  · intro c hc
    obtain ⟨i, hi, rfl⟩ := List.mem_map.mp hc
    exact (h.undecided i (List.mem_range.mp hi)).fst_eq
  · rcases h.ended with hdec | ⟨hans, -⟩
    · exact hdec.verdict _ hbad
    · exact absurd hans.fst_eq hbad

/-- Every flow is orderly. -/
theorem FlowRun.orderly (h : FlowRun C J W proxy creds calls res) : OrderlyTalk calls res := by
  cases h with
  | noClient => exact disciplined_nil
  | noKey hsaid => exact hsaid.orderly
  | notEncrypted => exact disciplined_single fun hbad => absurd rfl hbad
  | notBegun _ hsaid => exact hsaid.orderly.cons rfl
  | guarded _ _ hguard => exact .cons rfl (.cons rfl hguard.orderly)
  | polled _ _ hguard hpoll => exact .cons rfl (.cons rfl (hpoll.orderly.append hguard.good))

/-! ### Stages -/

/-- The methods in the order in which a flow calls them, with so many guard codes and polls. -/
def stages (codes polls : Nat) : List String :=
  ["GetPasswordRSAPublicKey", "BeginAuthSessionViaCredentials"] ++
    List.replicate codes "UpdateAuthSessionWithSteamGuardCode" ++
    List.replicate polls "PollAuthSessionStatus"

/-- The calls are the first ones of a flow with one guard code and 120 polls at most. -/
def InStages (calls : List AuthCall) : Prop :=
  ∃ codes ≤ 1, ∃ polls ≤ 120, calls.map (·.1.method) <+: stages codes polls

/-- A call is one call. -/
theorem Said.single {α Resp : Type} {req : AuthRequest} {answer : Except Error (Int × Resp)}
    {read : Resp → Except Error α} {x : FlowResult ⊕ α} (h : Said req answer read (calls, x)) :
    ∃ a, calls = [(req, a)] := by
  cases h <;> exact ⟨_, rfl⟩

/-- To resolve the guard, at most one code is submitted, and only one that is asked for. -/
theorem GuardRun.submits {begun : BegunSession} {secret : Option String} {x : FlowResult ⊕ Unit}
    (h : GuardRun C W begun secret (calls, x)) :
    calls = [] ∨ ∃ s code answer, guardTypeDeviceCode ∈ begun.guards ∧ secret = some s ∧
      generateAuthCode C.hmac C.b64 W.clock s none = .ok code ∧
      calls = [(.update (updateRequest begun code), answer)] := by
  cases h with
  | noSecret => exact .inl rfl
  | noCode => exact .inl rfl
  | code hdevice hsecret hcode hsaid =>
      obtain ⟨answer, rfl⟩ := hsaid.single
      exact .inr ⟨_, _, answer, hdevice, hsecret, hcode, rfl⟩
  | email => exact .inl rfl
  | unsupported => exact .inl rfl
  | free => exact .inl rfl

/-- The methods that resolve the guard. -/
theorem GuardRun.methods {begun : BegunSession} {secret : Option String} {x : FlowResult ⊕ Unit}
    (h : GuardRun C W begun secret (calls, x)) :
    ∃ codes ≤ 1, calls.map (·.1.method) =
      List.replicate codes "UpdateAuthSessionWithSteamGuardCode" := by
  rcases h.submits with rfl | ⟨_, _, _, _, _, _, rfl⟩
  · exact ⟨0, Nat.zero_le 1, rfl⟩
  · exact ⟨1, le_rfl, rfl⟩

/-- The methods of polling. -/
theorem pollCalls_methods (C : AuthCrates) (W : AuthWorld) (session : BeginSession) (n : Nat) :
    (pollCalls C W session n).map (·.1.method) = List.replicate n "PollAuthSessionStatus" := by
  rw [pollCalls, List.map_map]
  exact List.eq_replicate_iff.mpr ⟨by simp, by simp [AuthRequest.method]⟩

/-- Every flow calls the methods in their order. -/
theorem FlowRun.inStages (h : FlowRun C J W proxy creds calls res) : InStages calls := by
  have hone (c : AuthCall) (hc : c.1.method = "GetPasswordRSAPublicKey") : InStages [c] :=
    ⟨0, Nat.zero_le 1, 0, Nat.zero_le 120, ["BeginAuthSessionViaCredentials"], by simp [hc, stages]⟩
  cases h with
  | noClient => exact ⟨0, Nat.zero_le 1, 0, Nat.zero_le 120, List.nil_prefix⟩
  | noKey hsaid =>
      obtain ⟨_, rfl⟩ := hsaid.single
      exact hone _ rfl
  | notEncrypted => exact hone _ rfl
  | notBegun _ hsaid =>
      obtain ⟨_, rfl⟩ := hsaid.single
      exact ⟨0, Nat.zero_le 1, 0, Nat.zero_le 120, [], rfl⟩
  | guarded _ _ hguard =>
      obtain ⟨codes, hcodes, hmethods⟩ := hguard.methods
      refine ⟨codes, hcodes, 0, Nat.zero_le 120, [], ?_⟩
      rw [List.map_cons, List.map_cons, hmethods]
      simp [stages, AuthRequest.method]
  | polled _ _ hguard hpoll =>
      obtain ⟨codes, hcodes, hmethods⟩ := hguard.methods
      refine ⟨codes, hcodes, _, hpoll.few, [], ?_⟩
      rw [List.map_cons, List.map_cons, List.map_append, hmethods, pollCalls_methods]
      simp [stages, AuthRequest.method]

/-! ### Where the requests come from -/

variable (C W creds) in
/-- Where the data of a request comes from. -/
inductive Traced : AuthRequest → Prop
  | rsaKey : Traced (.rsaKey (some creds.accountName))
  /-- The password goes out encrypted, with the time of the key. -/
  | begin {enc : String} {timestamp : UInt64} : Encrypted C W creds enc timestamp →
      Traced (.begin
        { deviceFriendlyName := some "steamroids"
          accountName := some creds.accountName
          encryptedPassword := some enc
          encryptionTimestamp := some timestamp
          rememberLogin := some true
          platformType := some 1
          persistence := some 1
          deviceDetails := some ⟨some "steamroids", some 1, some 16⟩ })
  /-- The code is that of the account's secret, at the time of the clock. -/
  | update {begun : BegunSession} {secret code : String} : HasBegun C W begun →
      guardTypeDeviceCode ∈ begun.guards → creds.sharedSecret = some secret →
      CodeOf C.hmac C.b64 W.clock secret none code →
      Traced (.update
        { clientId := some begun.clientId
          steamid := some begun.sessionSteamid
          code := some code
          codeType := some 3 })
  | poll {begun : BegunSession} (n : Nat) : HasBegun C W begun →
      Traced (.poll (pollRequest C.pollApi begun.toBeginSession W.polls n))

/-- The request that resolves the guard comes from the session and the secret. -/
theorem GuardRun.traced {begun : BegunSession} {x : FlowResult ⊕ Unit}
    (hbegun : HasBegun C W begun) (h : GuardRun C W begun creds.sharedSecret (calls, x)) :
    ∀ c ∈ calls, Traced C W creds c.1 := by
  rcases h.submits with rfl | ⟨s, code, _, hdevice, hsecret, hcode, rfl⟩
  · exact List.forall_mem_nil _
  · exact List.forall_mem_singleton.mpr
      (.update hbegun hdevice hsecret (generateAuthCode_eq_ok_iff.mp hcode))

/-- Every request of a flow comes from the answers before it and from the credentials. -/
theorem FlowRun.traced (h : FlowRun C J W proxy creds calls res) :
    ∀ c ∈ calls, Traced C W creds c.1 := by
  cases h with
  | noClient => exact List.forall_mem_nil _
  | noKey hsaid =>
      obtain ⟨_, rfl⟩ := hsaid.single
      exact List.forall_mem_singleton.mpr .rsaKey
  | notEncrypted => exact List.forall_mem_singleton.mpr .rsaKey
  | notBegun henc hsaid =>
      obtain ⟨_, rfl⟩ := hsaid.single
      exact List.forall_mem_cons.mpr ⟨.rsaKey, List.forall_mem_singleton.mpr (.begin henc)⟩
  | guarded henc hbegun hguard =>
      exact List.forall_mem_cons.mpr
        ⟨.rsaKey, List.forall_mem_cons.mpr ⟨.begin henc, hguard.traced hbegun⟩⟩
  | polled henc hbegun hguard hpoll =>
      refine List.forall_mem_cons.mpr ⟨.rsaKey, List.forall_mem_cons.mpr ⟨.begin henc, ?_⟩⟩
      intro c hc
      rcases List.mem_append.mp hc with hc | hc
      · exact hguard.traced hbegun c hc
      · obtain ⟨i, -, rfl⟩ := List.mem_map.mp hc
        exact .poll i hbegun

/-! ### The guard -/

/-- Nothing stands between the session and its token: the code that was asked for is accepted, or
there is none to submit. -/
structure GuardSettled (begun : BegunSession) (calls : List AuthCall) : Prop where
  accepted : guardTypeDeviceCode ∈ begun.guards →
    ∃ code, (.update ⟨some begun.clientId, some begun.sessionSteamid, some code, some 3⟩,
      .ok EResult.ok) ∈ calls
  free : guardTypeDeviceCode ∉ begun.guards →
    guardTypeEmailCode ∉ begun.guards ∧ (begun.guards = [] ∨ guardTypeNone ∈ begun.guards)

/-- A flow goes on to polling with the guard settled. -/
theorem GuardRun.settled {begun : BegunSession} {secret : Option String}
    (h : GuardRun C W begun secret (calls, .inr ())) : GuardSettled begun calls := by
  cases h with
  | code hdevice _ _ hsaid =>
      obtain ⟨rfl, -⟩ := hsaid.of_inr
      exact ⟨fun _ => ⟨_, List.mem_singleton.mpr rfl⟩, fun hfree => absurd hdevice hfree⟩
  | free hdevice hemail hother =>
      exact ⟨fun hcode => absurd hcode hdevice, fun _ => ⟨hemail, hother⟩⟩

/-- A guard stays settled. -/
theorem GuardSettled.mono {begun : BegunSession} {calls' : List AuthCall}
    (h : GuardSettled begun calls) (hsub : calls ⊆ calls') : GuardSettled begun calls' where
  accepted := fun hdevice =>
    let ⟨code, hcode⟩ := h.accepted hdevice
    ⟨code, hsub hcode⟩
  free := h.free

/-- A poll is made only when the guard is settled. -/
theorem FlowRun.settled (h : FlowRun C J W proxy creds calls res) {req : PollRequest}
    {answer : Except Error Int} (hmem : (.poll req, answer) ∈ calls) {begun : BegunSession}
    (hbegun : HasBegun C W begun) : GuardSettled begun calls := by
  cases h with
  | noClient => cases hmem
  | noKey hsaid =>
      obtain ⟨_, rfl⟩ := hsaid.single
      simp at hmem
  | notEncrypted => simp at hmem
  | notBegun _ hsaid =>
      obtain ⟨_, rfl⟩ := hsaid.single
      simp at hmem
  | guarded _ _ hguard =>
      rcases hguard.submits with rfl | ⟨_, _, _, _, _, _, rfl⟩ <;> simp at hmem
  | polled _ hbegun' hguard _ =>
      obtain rfl := hbegun.unique hbegun'
      exact hguard.settled.mono fun c hc => by simp [hc]

variable (C W creds) in
/-- The rules of a conversation with the service. -/
structure Conversed (calls : List AuthCall) (res : Except Error SignInOutcome) : Prop where
  orderly : OrderlyTalk calls res
  inStages : InStages calls
  traced : ∀ c ∈ calls, Traced C W creds c.1
  settled : ∀ req answer, (.poll req, answer) ∈ calls →
    ∀ begun, HasBegun C W begun → GuardSettled begun calls

end Rules

/-- **A sign-in is one orderly conversation.** For every account, every proxy and all answers, in
whatever form they come, a flow ends. It calls the methods of the service in their order, with one
guard code and 120 polls at most, and goes on after OK answers only; an answer other than OK decides
the result. The password goes out encrypted with the key of the service, a guard code is submitted
only if one is asked for and the account has the secret for it, and a token is asked for only once
the guard is settled, with the ids of the session that the service began. -/
theorem password_flow_conversation (C : AuthCrates) (J : JwtCode) (W : AuthWorld)
    (hsleeps : Sleeps C W) (proxy : Option ProxyConfig) (creds : PasswordCredentials) :
    ∃ calls res, (∀ fuel, 121 ≤ fuel →
        executePasswordFlow C J W proxy creds fuel = (calls, .inl (some res))) ∧
      Conversed C W creds calls res := by
  obtain ⟨calls, res, hflow, hrun⟩ := executePasswordFlow_run (J := J) hsleeps proxy creds
  exact ⟨calls, res, hflow,
    { orderly := hrun.orderly
      inStages := hrun.inStages
      traced := hrun.traced
      settled := fun _ _ hmem _ => hrun.settled hmem }⟩

namespace Sample

/-- Answers of a few bytes, a key of one byte, and a cipher that adds the modulus. -/
def authCrates : AuthCrates where
  http := ⟨fun _ => none, none⟩
  parseUrl _ := none
  rsaKeyResponse
    | [t] => .ok ⟨some "c1", some "3", some t.toUInt64⟩
    | _ => .error "unexpected bytes"
  beginResponse
    | [guard] => .ok
        { clientId := some 3
          requestId := some [1]
          steamid := some 8
          allowedConfirmations := [⟨some guard.toNat, none⟩] }
    | _ => .error "unexpected bytes"
  updateResponse _ := .ok ()
  pollResponse := pollApi.decode
  parseHex text := if text = "c1" then some 0xc1 else if text = "3" then some 3 else none
  newKey _ _ := none
  encrypt n _ bytes := .ok (bytes.map (· + n.toUInt8))
  b64 := base64
  hmac := Sha1.hmac

/-- Steam asks for a code of the mobile app, takes it, and hands out a token in the second poll. -/
def guardedWorld : AuthWorld where
  clock := some 29
  rsaKey := .ok { xEresult := some [0x31], body := .ok [5] }
  begin := .ok { xEresult := some [0x31], body := .ok [3] }
  update := .ok { xEresult := some [0x31], body := .ok [] }
  polls := pollWorld

/-- The account, with the secret for its codes. -/
def guardedCreds : PasswordCredentials where
  accountName := "user"
  password := "pw"
  sharedSecret := some "AAAAAAAAAAAAAAAAAAAAAAAAAAA="

/-- The session that Steam begins. -/
def guardedSession : BegunSession :=
  { pollSession with guards := [3], emailDomainHint := none }

/-- The guarded session is the one that the world begins. -/
theorem guardedSession_begun : HasBegun authCrates guardedWorld guardedSession :=
  ⟨_, rfl, ⟨rfl, rfl, rfl, rfl, rfl, rfl⟩⟩

/-- The clock of the guarded world goes on with every sleep. -/
theorem guardedWorld_sleeps : Sleeps authCrates guardedWorld := by
  intro begun hbegun n
  rw [guardedSession_begun.unique hbegun]
  show fromSecs (5 * n) + fromSecs 5 ≤ fromSecs (5 * (n + 1))
  rw [fromSecs, fromSecs, fromSecs, ← Nat.add_mul]
  exact Nat.mul_le_mul_right _ (Nat.mul_succ 5 n).ge

/-- What is said until the token is handed out. -/
def guardedCalls : List AuthCall :=
  [(.rsaKey (some "user"), .ok 1),
    (.begin (beginRequest "user" "MTg=" 5), .ok 1),
    (.update ⟨some 3, some 8, some "RYH4D", some 3⟩, .ok 1),
    (.poll ⟨some 3, some [1]⟩, .ok 1),
    (.poll ⟨some 9, some [1]⟩, .ok 1)]

/-- The flow with a guard code, call by call. -/
theorem guarded_flow : executePasswordFlow authCrates jwtCode guardedWorld none guardedCreds 121 =
    (guardedCalls, .inl (some (.ok (.success 7 freshToken none)))) := by
  decide +kernel

end Sample

/-- A flow with a guard code and two polls. -/
theorem password_flow_conversation_guarded :
    Conversed Sample.authCrates Sample.guardedWorld Sample.guardedCreds Sample.guardedCalls
      (.ok (.success 7 Sample.freshToken none)) := by
  obtain ⟨calls, res, hflow, h⟩ := password_flow_conversation Sample.authCrates Sample.jwtCode
    Sample.guardedWorld Sample.guardedWorld_sleeps none Sample.guardedCreds
  obtain ⟨rfl, hres⟩ := Prod.mk.inj ((hflow 121 le_rfl).symm.trans Sample.guarded_flow)
  obtain rfl := Option.some.inj (Sum.inl.inj hres)
  exact h

/-! ### Outcomes -/

section Outcome

variable {C : AuthCrates} {J : JwtCode} {W : AuthWorld} {proxy : Option ProxyConfig}
  {creds : PasswordCredentials} {calls : List AuthCall} {res : Except Error SignInOutcome}

/-- A call of the last method. -/
def isPoll : AuthCall → Bool
  | (.poll _, _) => true
  | _ => false

/-- Resolving the guard makes no poll. -/
theorem GuardRun.no_poll {begun : BegunSession} {secret : Option String} {x : FlowResult ⊕ Unit}
    (h : GuardRun C W begun secret (calls, x)) : calls.countP isPoll = 0 := by
  rcases h.submits with rfl | ⟨_, _, _, _, _, _, rfl⟩ <;> rfl

/-- The number of polls. -/
theorem countP_pollCalls (session : BeginSession) (n : Nat) :
    (pollCalls C W session n).countP isPoll = n := by
  have hall : (pollCalls C W session n).countP isPoll = (pollCalls C W session n).length := by
    refine List.countP_eq_length.mpr fun c hc => ?_
    obtain ⟨i, -, rfl⟩ := List.mem_map.mp hc
    rfl
  rw [hall, pollCalls, List.length_map, List.length_range]

variable (C W) in
/-- The confirmations that the service allows for the session. -/
def Allows (confirmations : List AllowedConfirmation) : Prop :=
  ∃ resp, W.beginAnswer C = .ok (EResult.ok, resp) ∧ resp.allowedConfirmations = confirmations

variable (C J W creds) in
/-- What the service has said when an outcome is returned. -/
inductive Warranted (calls : List AuthCall) : SignInOutcome → Prop
  /-- It has handed out the token, in one of the polls made, after the guard was settled. -/
  | issued {begun : BegunSession} {n : Nat} {resp : PollResponse} {token : String}
      {steamId : UInt64} : HasBegun C W begun → GuardSettled begun calls →
      n < calls.countP isPoll → W.polls.answer C.pollApi n = .ok (EResult.ok, resp) →
      resp.refreshToken = some token → token ≠ "" → AccountOf J begun.toBeginSession token steamId →
      Warranted calls (.success steamId token (resp.accessToken.filter (· ≠ "")))
  /-- It has answered the last call with a result code that stands for the outcome. -/
  | refused {req : AuthRequest} {er : Int} {outcome : SignInOutcome} :
      calls.getLast? = some (req, .ok er) → MeansOutcome er outcome → Warranted calls outcome
  /-- It asks for a code from the mobile app, which cannot be made without the secret. -/
  | noSecret {cs : List AllowedConfirmation} : Allows C W cs →
      (∃ c ∈ cs, c.confirmationType = some guardTypeDeviceCode) → creds.sharedSecret = none →
      Warranted calls .needsMobileGuardCode
  /-- It asks for a code from an email, and not for one from the mobile app. -/
  | email {cs : List AllowedConfirmation} : Allows C W cs →
      (∃ c ∈ cs, c.confirmationType = some guardTypeEmailCode) →
      (∀ c ∈ cs, c.confirmationType ≠ some guardTypeDeviceCode) →
      Warranted calls (.needsEmailGuardCode ((cs.findSome? emailHint).getD ""))

/-- The guards of a session are those that the service allows. -/
theorem HasBegun.allows {begun : BegunSession} (h : HasBegun C W begun) :
    ∃ cs, Allows C W cs ∧ begun.guards = cs.filterMap AllowedConfirmation.confirmationType ∧
      begun.emailDomainHint = cs.findSome? emailHint := by
  obtain ⟨resp, hans, hfrom⟩ := h
  exact ⟨_, ⟨resp, hans, rfl⟩, hfrom.guards, hfrom.emailDomainHint⟩

/-- What the code of the last answer stands for. -/
theorem Verdict.warranted {c : AuthCall} {outcome : SignInOutcome} (h : Verdict c (.ok outcome))
    (hlast : calls.getLast? = some c) : Warranted C J W creds calls outcome := by
  cases h with
  | mapped req hmeans => exact .refused hlast hmeans

/-- A call that ends the flow with an outcome is the one that decides it. -/
theorem Said.of_ok {α Resp : Type} {req : AuthRequest} {answer : Except Error (Int × Resp)}
    {read : Resp → Except Error α} {outcome : SignInOutcome}
    (h : Said req answer read (calls, .inl (some res))) (hres : res = .ok outcome) :
    ∃ c, calls = [c] ∧ Verdict c (.ok outcome) := by
  cases h with
  | bad _ hverdict => exact ⟨_, rfl, hres ▸ hverdict⟩
  | unread => cases hres

/-- The last call of polling. -/
theorem getLast?_pollCalls (pre : List AuthCall) (session : BeginSession) (n : Nat) :
    (pre ++ pollCalls C W session (n + 1)).getLast? =
      some (.poll (pollRequest C.pollApi session W.polls n),
        (W.polls.answer C.pollApi n).map Prod.fst) := by
  simp [pollCalls, List.range_succ]

/-- The outcome of a guard that cannot be resolved. -/
theorem GuardRun.warranted {begun : BegunSession} {outcome : SignInOutcome} (pre : List AuthCall)
    (hbegun : HasBegun C W begun)
    (h : GuardRun C W begun creds.sharedSecret (calls, .inl (some res)))
    (hres : res = .ok outcome) : Warranted C J W creds (pre ++ calls) outcome := by
  obtain ⟨cs, hallows, hguards, hhint⟩ := hbegun.allows
  have hmem (ct : Int) : ct ∈ begun.guards ↔ ∃ c ∈ cs, c.confirmationType = some ct := by
    rw [hguards, List.mem_filterMap]
  cases h with
  | noSecret hdevice hsecret =>
      obtain rfl := Except.ok.inj hres
      exact .noSecret hallows ((hmem _).mp hdevice) hsecret
  | noCode => cases hres
  | code _ _ _ hsaid =>
      obtain ⟨c, rfl, hverdict⟩ := hsaid.of_ok hres
      exact hverdict.warranted List.getLast?_concat
  | email hdevice hemail =>
      obtain rfl := Except.ok.inj hres
      rw [hhint]
      refine .email hallows ((hmem _).mp hemail) fun c hc hct => ?_
      exact hdevice ((hmem _).mpr ⟨c, hc, hct⟩)
  | unsupported => cases hres

/-- The outcome of polling. -/
theorem PollRun.warranted {begun : BegunSession} {outcome : SignInOutcome} {n : Nat}
    (pre : List AuthCall) (hbegun : HasBegun C W begun) (hsettled : GuardSettled begun pre)
    (h : PollRun C J W begun.toBeginSession n res) (hres : res = .ok outcome) :
    Warranted C J W creds (pre ++ pollCalls C W begun.toBeginSession (n + 1)) outcome := by
  have hlast := getLast?_pollCalls (C := C) (W := W) pre begun.toBeginSession n
  rcases h.ended with hdec | ⟨-, htimeout⟩
  · generalize hans : W.polls.answer C.pollApi n = a at hdec hlast
    cases hdec with
    | failed => cases hres
    | mapped resp _ hmeans =>
        obtain rfl := Except.ok.inj hres
        exact .refused hlast hmeans
    | rejected => cases hres
    | token htoken hne haccount =>
        obtain rfl := Except.ok.inj hres
        refine .issued hbegun (hsettled.mono (List.subset_append_left _ _)) ?_ hans htoken hne
          haccount
        rw [List.countP_append, countP_pollCalls]
        omega
  · cases htimeout.symm.trans hres

/-- Every outcome of a flow is warranted. -/
theorem FlowRun.warranted {outcome : SignInOutcome} (h : FlowRun C J W proxy creds calls res)
    (hres : res = .ok outcome) : Warranted C J W creds calls outcome := by
  cases h with
  | noClient => cases hres
  | noKey hsaid =>
      obtain ⟨c, rfl, hverdict⟩ := hsaid.of_ok hres
      exact hverdict.warranted rfl
  | notEncrypted => cases hres
  | notBegun _ hsaid =>
      obtain ⟨c, rfl, hverdict⟩ := hsaid.of_ok hres
      exact hverdict.warranted rfl
  | guarded _ hbegun hguard => exact hguard.warranted [_, _] hbegun hres
  | polled _ hbegun hguard hpoll =>
      exact hpoll.warranted (_ :: _ :: _) hbegun
        (hguard.settled.mono fun c hc => List.mem_cons_of_mem _ (List.mem_cons_of_mem _ hc)) hres

/-- A token that is handed out in a poll ends polling, and is returned. -/
theorem PollRun.keeps {session : BeginSession} {n i : Nat} {resp : PollResponse} {token : String}
    (h : PollRun C J W session n res) (hi : i < n + 1)
    (hans : W.polls.answer C.pollApi i = .ok (EResult.ok, resp))
    (htoken : resp.refreshToken = some token) (hne : token ≠ "") :
    ∃ steamId, res = .ok (.success steamId token (resp.accessToken.filter (· ≠ ""))) := by
  have hdecided : ¬ (W.polls.answer C.pollApi i).Undecided := by
    rintro ⟨resp', hans', hnone⟩
    obtain rfl : resp = resp' := by simpa [hans] using hans'
    rcases hnone with hnone | hnone <;> simp_all
  rcases Nat.lt_succ_iff_lt_or_eq.mp hi with hi | rfl
  · exact absurd (h.undecided i hi) hdecided
  · rcases h.ended with hdec | ⟨hundecided, -⟩
    · rw [hans] at hdec
      cases hdec with
      | mapped _ her => exact absurd rfl her
      | rejected _ her => exact absurd rfl her
      | token htoken' _ _ =>
          obtain rfl := Option.some.inj (htoken.symm.trans htoken')
          exact ⟨_, rfl⟩
    · exact absurd hundecided hdecided

variable (C W) in
/-- A token that was handed out in one of the polls is returned. -/
def TokensKept (calls : List AuthCall) (res : Except Error SignInOutcome) : Prop :=
  ∀ n resp token, n < calls.countP isPoll → W.polls.answer C.pollApi n = .ok (EResult.ok, resp) →
    resp.refreshToken = some token → token ≠ "" →
    ∃ steamId, res = .ok (.success steamId token (resp.accessToken.filter (· ≠ "")))

/-- A flow keeps every token that it is handed. -/
theorem FlowRun.tokensKept (h : FlowRun C J W proxy creds calls res) :
    TokensKept C W calls res := by
  intro i resp token hi hans htoken hne
  cases h with
  | noClient => simp at hi
  | noKey hsaid =>
      obtain ⟨_, rfl⟩ := hsaid.single
      simp [isPoll] at hi
  | notEncrypted => simp [isPoll] at hi
  | notBegun _ hsaid =>
      obtain ⟨_, rfl⟩ := hsaid.single
      simp [isPoll] at hi
  | guarded _ _ hguard => simp [isPoll, hguard.no_poll] at hi
  | polled _ _ hguard hpoll =>
      simp only [List.countP_cons, List.countP_append, hguard.no_poll, countP_pollCalls,
        isPoll] at hi
      exact hpoll.keeps (by simpa using hi) hans htoken hne

end Outcome

/-- **An outcome is what the service has said.** A flow returns a token only if the service has
handed it out in a poll of this session, after the guard was settled, and together with the account
that it is for; and no token that was handed out is lost. A guard code is asked for only if the
service has asked for one of that kind and it cannot be made here, or has answered with the code for
it; and every other outcome is that of the code of the last answer. -/
theorem password_flow_outcome (C : AuthCrates) (J : JwtCode) (W : AuthWorld)
    (hsleeps : Sleeps C W) (proxy : Option ProxyConfig) (creds : PasswordCredentials) :
    ∃ calls res, (∀ fuel, 121 ≤ fuel →
        executePasswordFlow C J W proxy creds fuel = (calls, .inl (some res))) ∧
      (∀ outcome, res = .ok outcome → Warranted C J W creds calls outcome) ∧
      TokensKept C W calls res := by
  obtain ⟨calls, res, hflow, hrun⟩ := executePasswordFlow_run (J := J) hsleeps proxy creds
  exact ⟨calls, res, hflow, fun _ hres => hrun.warranted hres, hrun.tokensKept⟩

/-- The token of the second poll is returned, with the account that it names. -/
theorem password_flow_outcome_guarded :
    Warranted Sample.authCrates Sample.jwtCode Sample.guardedWorld Sample.guardedCreds
        Sample.guardedCalls (.success 7 Sample.freshToken none) ∧
      TokensKept Sample.authCrates Sample.guardedWorld Sample.guardedCalls
        (.ok (.success 7 Sample.freshToken none)) := by
  obtain ⟨calls, res, hflow, hwarranted, hkept⟩ := password_flow_outcome Sample.authCrates
    Sample.jwtCode Sample.guardedWorld Sample.guardedWorld_sleeps none Sample.guardedCreds
  obtain ⟨rfl, hres⟩ := Prod.mk.inj ((hflow 121 le_rfl).symm.trans Sample.guarded_flow)
  obtain rfl := Option.some.inj (Sum.inl.inj hres)
  exact ⟨hwarranted _ rfl, hkept⟩

end Steamroids
