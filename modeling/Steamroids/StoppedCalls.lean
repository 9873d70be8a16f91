import Steamroids.Coordinator
import Steamroids.Friends
import Steamroids.Persona

/-!
# Calls on a Stopped Session

The calls that wait for a message are documented to fail with `Error::WebSocket` when the
session, or the pump of the coordinator, has stopped. They would learn of it by the end of
their channel. But a channel ends when its last sender is dropped, and every call borrows a
handle or a coordinator that holds one: a waiting call never sees the end, and waits until
its timer fires (`stopped_session_times_out`).

The only calls that can tell are those that send a message of their own before they wait, and
only from the answer to that message.

## Main results

* `Fate.step`, `Fate.run`: what becomes of a call that no message answers.
* `stopped_call_error_iff`: which calls end with `Error::WebSocket`, for the five operations.
-/

namespace Steamroids

/-! ### The driver's acknowledgements -/

namespace SessionDriver

variable {P : Prost} {d d' : SessionDriver}

/-- A write that fails is an error of the socket. -/
theorem writeResult_error {write : Option String} {e : Error} (h : writeResult write = .error e) :
    ∃ text, e = .webSocket text := by
  cases write with
  | none => cases h
  | some text => exact ⟨text, (Except.error.inj h).symm⟩

/-- What the driver acknowledges as failed failed for a reason of the connection. -/
theorem Reachable.acked_error (hd : Reachable P d) {ch : Chan} {e : Error}
    (h : .acked ch (.error e) ∈ d.log) : ∃ text, e = .webSocket text := by
  revert h
  refine hd.invariant (I := fun d => .acked ch (.error e) ∈ d.log → ∃ text, e = .webSocket text)
    ?_ ?_
  · intro now items d₀ h₀
    obtain ⟨c, -, hs⟩ := spawn_spec h₀
    simp [hs.log]
  · intro d d' hact hold hmem
    cases hact with
    | notify emsg body ack write _ =>
        rcases List.mem_append.mp hmem with hmem | hmem
        · exact hold hmem
        · simp only [List.mem_cons, reduceCtorEq, Effect.acked.injEq, List.not_mem_nil, or_false,
            false_or] at hmem
          exact writeResult_error hmem.2.symm
    | notifyDown emsg body ack _ =>
        rcases List.mem_append.mp hmem with hmem | hmem
        · exact hold hmem
        · simp only [List.mem_cons, reduceCtorEq, Effect.acked.injEq, Except.error.injEq,
            List.not_mem_nil, or_false, false_or] at hmem
          exact ⟨_, hmem.2⟩
    | announce _ _ =>
        refine hold ((List.mem_append.mp hmem).resolve_right fun hnew => ?_)
        rcases mem_announce hnew with he | he <;> cases he
    | sweep now =>
        refine hold ((List.mem_append.mp hmem).resolve_right fun hnew => ?_)
        rcases mem_swept hnew with ⟨entry, ⟨he, -⟩ | he⟩ <;> cases he
    | failAll reason _ =>
        refine hold ((List.mem_append.mp hmem).resolve_right fun hnew => ?_)
        obtain ⟨entry, -, he⟩ := List.mem_map.mp hnew
        cases he
    | _ => exact hold (by simpa using hmem)

/-- Nothing is acknowledged twice. -/
theorem Reachable.acked_once (hd : Reachable P d) {ch : Chan} {res res' : Except Error Unit}
    (h : .acked ch res ∈ d.log) (h' : .acked ch res' ∈ d.log) : res = res' := by
  have hack := hd.balanced.ack ch
  have hone := hd.balanced.once ch
  have heq := Ledger.eq_of_countP_le_one (p := Effect.acks ch) (by omega) h h'
    (by simp [Effect.acks]) (by simp [Effect.acks])
  exact (Effect.acked.inj heq).2

end SessionDriver

/-! ### What becomes of a call that nothing answers -/

namespace World

variable {α β : Type} {C : Call α β} {caller : Party} {ch : Chan} {start : Nat} {w w' : World β}

/-- The call's own message, if it sends one, was acknowledged. -/
def Accepted (C : Call α β) (ch : Chan) (w : World β) : Prop :=
  C.opening.sends → .acked ch (.ok ()) ∈ effects w.past

/-- The send of the call's own message failed with `text`: it is what the driver acknowledged, or
what the handle says of a driver that is gone without an answer. -/
def SendFailed (ch : Chan) (w : World β) (text : String) : Prop :=
  .acked ch (.error (.webSocket text)) ∈ effects w.past ∨
    .driver ∉ w.parties ∧ (effects w.past).any (Effect.acks ch) = false ∧
      (text = "session driver stopped" ∨ text = "session driver dropped the notification")

/-- An acknowledgement stays. -/
theorem Accepted.step {m : Move} (h : Accepted C ch w) (hstep : step C caller ch w m = some w') :
    Accepted C ch w' :=
  fun hsends => (effects_mono (step_makes hstep).past).subset (h hsends)

/-- A send that failed has failed for good: a driver that is gone answers no more. -/
theorem SendFailed.step {m : Move} {text : String} (h : SendFailed ch w text)
    (hstep : step C caller ch w m = some w') : SendFailed ch w' text := by
  rcases h with hacked | ⟨hgone, hnone, htext⟩
  · exact .inl ((effects_mono (step_makes hstep).past).subset hacked)
  · cases step_makes hstep with
    | @deed x hdoer =>
        cases x with
        | driver e => exact absurd hdoer hgone
        | relay msg => exact .inr ⟨hgone, by rwa [effects_concat_relay], htext⟩
    | @join p hp => exact .inr ⟨by simpa [Ne.symm hp] using hgone, hnone, htext⟩
    | @leave p _ => exact .inr ⟨fun hmem => hgone (List.mem_of_mem_erase hmem), hnone, htext⟩
    | call _ _ => exact .inr ⟨hgone, hnone, htext⟩

/-- The error that a call gets for its message is the one its send failed with. -/
theorem sendFailed_of_isAck {e : Error} (h : Call.isAck w.past w.parties ch (.error e))
    (hacked : ∀ e, .acked ch (.error e) ∈ effects w.past → ∃ text, e = .webSocket text) :
    ∃ text, e = .webSocket text ∧ SendFailed ch w text := by
  rcases h with h | ⟨hgone, hnone, h | h⟩
  · obtain ⟨text, rfl⟩ := hacked e h
    exact ⟨text, rfl, .inl h⟩
  · exact ⟨_, Except.error.inj h, .inr ⟨hgone, hnone, .inl rfl⟩⟩
  · exact ⟨_, Except.error.inj h, .inr ⟨hgone, hnone, .inr rfl⟩⟩

/-- Only the driver says that a message was written. -/
theorem accepted_of_isAck (h : Call.isAck w.past w.parties ch (.ok ())) :
    .acked ch (.ok ()) ∈ effects w.past := by
  rcases h with h | ⟨-, -, h | h⟩
  · exact h
  · cases h
  · cases h

/-- Once the driver is gone, the call's own message has an answer. -/
theorem isAck_of_gone (h : .driver ∉ w.parties) : ∃ res, Call.isAck w.past w.parties ch res := by
  rcases hany : (effects w.past).any (Effect.acks ch) with _ | _
  · exact ⟨_, .inr ⟨h, hany, .inl rfl⟩⟩
  · obtain ⟨x, hx, hacks⟩ := List.any_eq_true.mp hany
    cases x with
    | acked ch' res =>
        obtain rfl : ch' = ch := by simpa [Effect.acks] using hacks
        exact ⟨res, .inl hx⟩
    | _ => cases hacks

/-- From `w₁` to `w`, no message that the call accepts came through its channel from number
`start` on, or was found in the cache. -/
structure Unanswered (C : Call α β) (start : Nat) (w₁ w : World β) : Prop where
  sent : ∀ j a b, start ≤ j → (C.sent w.past)[j]? = some a → C.wait.judge a ≠ some (.ok b)
  cached : ∀ emsg judge, C.opening = .readCache emsg judge →
    ∀ past, w₁.past <+: past → past <+: w.past →
      ∀ b, ((shared (effects past)).cache emsg).bind judge ≠ some (.ok b)

/-- What is unanswered now was unanswered before. -/
theorem Unanswered.before {w₁ : World β} (h : Unanswered C start w₁ w')
    (hpast : w.past <+: w'.past) : Unanswered C start w₁ w := by
  refine ⟨?_, ?_⟩
  · intro j a b hj ha
    obtain ⟨more, hmore⟩ := sent_mono (C := C) hpast
    have hlt : j < (C.sent w.past).length := (List.getElem?_eq_some_iff.mp ha).1
    exact h.sent j a b hj (by rw [← hmore, List.getElem?_append_left hlt, ha])
  · intro emsg judge hopening past hfrom hto
    exact h.cached emsg judge hopening past hfrom (hto.trans hpast)

/-- The call ends with `Error::Codec` by a message that it cannot decode, and with
`Error::Timeout` by its timer. -/
structure Documented (C : Call α β) : Prop where
  timedOut : ∃ what, C.wait.timedOut = .timeout what
  judge : ∀ a e, C.wait.judge a = some (.error e) → ∃ text, e = .codec text
  cache : ∀ emsg judge, C.opening = .readCache emsg judge →
    ∀ body e, judge body = some (.error e) → ∃ text, e = .codec text

/-- Where a call stands that nothing has answered. -/
inductive Fate (C : Call α β) (start : Nat) (ch : Chan) (w : World β) : Prop
  | subscribed : w.call = .subscribed start → Fate C start ch w
  | waiting {next : Nat} : w.call = .wait (.waiting next) → start ≤ next → Accepted C ch w →
      Fate C start ch w
  /-- The timer fired, or a message came that does not decode. -/
  | gaveUp {e : Error} : w.call = .wait (.done (.error e)) →
      (e = C.wait.timedOut ∨ ∃ text, e = .codec text) → Accepted C ch w → Fate C start ch w
  /-- The call's own message was not accepted. -/
  | refused {text : String} : w.call = .wait (.done (.error (.webSocket text))) →
      C.opening.sends → SendFailed ch w text → Fate C start ch w

/-- A call whose channel stays open, and which nothing answers, goes from one of these
standings to another. The moves of the others leave the call where it is. -/
theorem Fate.step {m : Move} {w₁ : World β} (hC : Documented C) (hholds : C.holds caller = true)
    (hw : Borrowed caller w) (hfrom : w₁.past <+: w.past) (hun : Unanswered C start w₁ w)
    (hacked : ∀ e, .acked ch (.error e) ∈ effects w.past → ∃ text, e = .webSocket text)
    (h : Fate C start ch w) (hstep : step C caller ch w m = some w') : Fate C start ch w' := by
  have hstay : w'.call = w.call → Fate C start ch w' := by
    intro hcall
    cases h with
    | subscribed h => exact .subscribed (hcall.trans h)
    | waiting h hle hacc => exact .waiting (hcall.trans h) hle (hacc.step hstep)
    | gaveUp h he hacc => exact .gaveUp (hcall.trans h) he (hacc.step hstep)
    | refused h hsends href => exact .refused (hcall.trans h) hsends (href.step hstep)
  cases step_makes hstep with
  | deed _ => exact hstay rfl
  | join _ => exact hstay rfl
  | leave _ => exact hstay rfl
  | @call c st hcaller hsteps =>
      cases h with
      | subscribed hcall =>
          rw [hcall] at hsteps
          cases hsteps with
          | subscribe hst => rcases hst with hst | hst <;> cases hst
          | @found _ emsg judge res hopening hread =>
              rcases res with e | b
              · obtain ⟨body, -, hbody⟩ := Option.bind_eq_some_iff.mp hread
                refine .gaveUp rfl (.inr (hC.cache _ _ hopening body e hbody)) fun hsends => ?_
                rw [hopening] at hsends
                cases hsends
              · exact absurd hread (hun.cached emsg judge hopening w.past hfrom List.prefix_rfl b)
          | missed hopening _ =>
              refine .waiting rfl (Nat.le_refl _) fun hsends => ?_
              rw [hopening] at hsends
              cases hsends
          | acked _ hack => exact .waiting rfl (Nat.le_refl _) fun _ => accepted_of_isAck hack
          | refused hopening hack =>
              obtain ⟨text, rfl, hfailed⟩ := sendFailed_of_isAck hack hacked
              exact .refused rfl (by rw [hopening]; rfl) hfailed
      | waiting hcall hle hacc =>
          rw [hcall] at hsteps
          cases hsteps with
          | subscribe hst => rcases hst with hst | hst <;> cases hst
          | receive hrecv =>
              rw [isOpen_of_running hw hholds (by rw [hcall]; rfl)] at hrecv
              obtain ⟨-, ⟨next', rfl, hnext, -⟩ | ⟨a, res, ha, hres, rfl⟩⟩ :=
                Channel.Wait.receive_of_open hrecv
              · exact .waiting rfl (by omega) hacc
              · rcases res with e | b
                · exact .gaveUp rfl (.inr (hC.judge a e hres)) hacc
                · exact absurd hres (hun.sent _ a b hle ha)
          | expire hexp =>
              obtain rfl := Channel.Wait.expire_eq hexp
              exact .gaveUp rfl (.inl rfl) hacc
      | gaveUp hcall _ _ =>
          rw [hcall] at hsteps
          cases hsteps with
          | subscribe hst => rcases hst with hst | hst <;> cases hst
      | refused hcall _ _ =>
          rw [hcall] at hsteps
          cases hsteps with
          | subscribe hst => rcases hst with hst | hst <;> cases hst

/-- The fate of a call over a run. The conditions hold at every earlier moment, because they hold
at the last one. -/
theorem Fate.run {w₁ : World β} {ms : List Move} (hC : Documented C)
    (hholds : C.holds caller = true) (hcaller : caller ∈ w₁.parties)
    (hcall : w₁.call = .subscribed start)
    (hrun : Ledger.exec (World.step C caller ch) w₁ ms = some w)
    (hun : Unanswered C start w₁ w)
    (hacked : ∀ e, .acked ch (.error e) ∈ effects w.past → ∃ text, e = .webSocket text) :
    Borrowed caller w ∧ Fate C start ch w := by
  have key : Borrowed caller w ∧ w₁.past <+: w.past ∧ (Unanswered C start w₁ w →
      (∀ e, .acked ch (.error e) ∈ effects w.past → ∃ text, e = .webSocket text) →
      Fate C start ch w) := by
    refine Ledger.exec_invariant (I := fun v => Borrowed caller v ∧ w₁.past <+: v.past ∧
      (Unanswered C start w₁ v →
        (∀ e, .acked ch (.error e) ∈ effects v.past → ∃ text, e = .webSocket text) →
        Fate C start ch v)) ?_ hrun
      ⟨fun _ => hcaller, List.prefix_rfl, fun _ _ => .subscribed hcall⟩
    rintro v m v' ⟨hv, hfrom, hfate⟩ hstep
    have hpast := (step_makes hstep).past
    refine ⟨hv.step hstep, hfrom.trans hpast, fun hun' hacked' => ?_⟩
    have hun := hun'.before hpast
    have hacked : ∀ e, .acked ch (.error e) ∈ effects v.past → ∃ text, e = .webSocket text :=
      fun e he => hacked' e ((effects_mono hpast).subset he)
    exact (hfate hun hacked).step hC hholds hv hfrom hun hacked hstep
  exact ⟨key.1, key.2.2 hun hacked⟩

/-- A message that was not accepted was not acknowledged as sent, if it is acknowledged once. -/
theorem SendFailed.not_accepted {text : String} (h : SendFailed ch w text)
    (honce : ∀ e, .acked ch (.ok ()) ∈ effects w.past → .acked ch (.error e) ∉ effects w.past) :
    .acked ch (.ok ()) ∉ effects w.past := by
  intro hok
  rcases h with he | ⟨-, hnone, -⟩
  · exact honce _ hok he
  · simpa [Effect.acks] using List.any_eq_false.mp hnone _ hok

/-- **What a call ends with that no message answers.** -/
theorem Fate.result (h : Fate C start ch w) (hC : Documented C)
    (honce : ∀ e, .acked ch (.ok ()) ∈ effects w.past → .acked ch (.error e) ∉ effects w.past)
    {res : Except Error β} (hres : w.call = .wait (.done res)) :
    ((∃ text, res = .error (.webSocket text)) ↔
      C.opening.sends ∧ .acked ch (.ok ()) ∉ effects w.past) ∧
    (∀ text, res = .error (.webSocket text) → SendFailed ch w text) ∧
    ((∃ text, res = .error (.webSocket text)) ∨ (∃ text, res = .error (.codec text)) ∨
      res = .error C.wait.timedOut) := by
  cases h with
  | subscribed h => rw [h] at hres; cases hres
  | waiting h _ _ => rw [h] at hres; cases hres
  | @gaveUp e h he hacc =>
      obtain rfl : .error e = res := by simpa [h] using hres
      have hne : ∀ text, e ≠ .webSocket text := by
        obtain ⟨what, hwhat⟩ := hC.timedOut
        rcases he with rfl | ⟨text', rfl⟩ <;> simp [hwhat]
      refine ⟨⟨?_, ?_⟩, ?_, .inr ?_⟩
      · rintro ⟨text, ht⟩
        exact absurd (Except.error.inj ht) (hne text)
      · rintro ⟨hsends, hnot⟩
        exact absurd (hacc hsends) hnot
      · intro text ht
        exact absurd (Except.error.inj ht) (hne text)
      · rcases he with rfl | ⟨text, rfl⟩
        · exact .inr rfl
        · exact .inl ⟨text, rfl⟩
  | @refused text h hsends hfailed =>
      obtain rfl : .error (.webSocket text) = res := by simpa [h] using hres
      have hnot := hfailed.not_accepted honce
      refine ⟨⟨fun _ => ⟨hsends, hnot⟩, fun _ => ⟨text, rfl⟩⟩, ?_, .inl ⟨text, rfl⟩⟩
      rintro text' ⟨⟩
      exact hfailed

/-- With the driver gone, the call ends by its own moves. -/
theorem Fate.ends (h : Fate C start ch w) (hborrow : Borrowed caller w)
    (hholds : C.holds caller = true) (hgone : .driver ∉ w.parties) : Ends C caller ch w := by
  cases h with
  | subscribed h =>
      exact ends_of_subscribed (hborrow (by rw [h]; rfl)) hholds h fun _ => isAck_of_gone hgone
  | waiting h _ _ => exact ends_of_waiting (hborrow (by rw [h]; rfl)) hholds h
  | gaveUp h _ _ => exact ⟨[], _, List.forall_mem_nil _, by rw [← h]; rfl⟩
  | refused h _ _ => exact ⟨[], _, List.forall_mem_nil _, by rw [← h]; rfl⟩

/-- At no moment of a run does a call that waits see the end of its channel. -/
theorem recv_ne_closed_of_run {w₁ : World β} {ms : List Move} {next : Nat}
    (hholds : C.holds caller = true) (hcaller : caller ∈ w₁.parties)
    (hrun : Ledger.exec (World.step C caller ch) w₁ ms = some w)
    (hcall : w.call = .wait (.waiting next)) (next' : Nat) :
    Channel.recv C.capacity (C.sent w.past) (w.parties.any C.holds) next ≠
      some (.closed, next') := by
  have hw : Borrowed caller w :=
    Ledger.exec_invariant (I := Borrowed caller) (fun _ _ _ hv hstep => hv.step hstep) hrun
      fun _ => hcaller
  rw [isOpen_of_running hw hholds (by rw [hcall]; rfl)]
  exact Channel.recv_ne_closed

end World

/-! ### The operations -/

/-- The operations that wait for a message. -/
inductive Operation : ∀ {α β : Type}, Call α β → Prop
  | friendsList (F : FriendsProst) : Operation (requestFriendsList F)
  | nicknames (F : FriendsProst) : Operation (requestNicknames F)
  | friendsGroupsList (F : FriendsProst) : Operation (requestFriendsGroupsList F)
  | playerSummary (S : PersonaProst) (steamId : UInt64) :
      Operation (requestPlayerSummary S steamId)
  | matching {β : Type} (G : GcProst) (appid sendType : UInt32) (body : Bytes)
      (responseType : UInt32) (decode : Bytes → Except String β) (accept : β → Bool) :
      Operation (requestMatching G appid sendType body responseType decode accept)

namespace World

/-- A call for a list ends as documented. -/
theorem documented_requestList {γ β : Type} (emsg : UInt32) (decode : Bytes → Except String γ)
    (isFull : γ → Bool) (entries : γ → β) (what what' : String) :
    Documented (requestList emsg (judgeList decode isFull entries what) what') := by
  have hcodec : ∀ body e, judgeList decode isFull entries what body = some (.error e) →
      ∃ text, e = .codec text := by
    intro body e he
    simp only [judgeList] at he
    split at he
    · exact ⟨_, (Except.error.inj (Option.some.inj he)).symm⟩
    · split at he <;> cases he
  refine ⟨⟨_, rfl⟩, ?_, ?_⟩
  · intro a e he
    simp only [requestList] at he
    split at he
    · exact hcodec _ e he
    · cases he
  · rintro _ _ ⟨⟩
    exact hcodec

/-- So does a call for a summary. -/
theorem documented_requestPlayerSummary (S : PersonaProst) (steamId : UInt64) :
    Documented (requestPlayerSummary S steamId) := by
  refine ⟨⟨_, rfl⟩, ?_, by rintro _ _ ⟨⟩⟩
  intro a e he
  simp only [requestPlayerSummary, judgeSummary] at he
  split at he
  · cases he
  · split at he
    · rename_i e' hsummary
      obtain rfl : e' = e := Except.error.inj (Option.some.inj he)
      simp only [summaryFromPersonaState] at hsummary
      split at hsummary
      · exact ⟨_, (Except.error.inj hsummary).symm⟩
      · split at hsummary
        · cases hsummary
        · split at hsummary <;> cases hsummary
    · obtain ⟨summary, -, h⟩ := Option.map_eq_some_iff.mp he
      cases h

/-- So does a request to the coordinator. -/
theorem documented_requestMatching {β : Type} (G : GcProst) (appid sendType : UInt32)
    (body : Bytes) (responseType : UInt32) (decode : Bytes → Except String β)
    (accept : β → Bool) :
    Documented (requestMatching G appid sendType body responseType decode accept) := by
  refine ⟨⟨_, rfl⟩, ?_, by rintro _ _ ⟨⟩⟩
  intro a e he
  simp only [requestMatching] at he
  split at he
  · split at he
    · exact ⟨_, (Except.error.inj (Option.some.inj he)).symm⟩
    · split at he <;> cases he
  · cases he

end World

/-- Every operation ends as documented. -/
theorem Operation.documented {α β : Type} {C : Call α β} (h : Operation C) :
    World.Documented C := by
  cases h with
  | friendsList F => exact World.documented_requestList _ _ _ _ _ _
  | nicknames F => exact World.documented_requestList _ _ _ _ _ _
  | friendsGroupsList F => exact World.documented_requestList _ _ _ _ _ _
  | playerSummary S steamId => exact World.documented_requestPlayerSummary S steamId
  | matching G appid sendType body responseType decode accept =>
      exact World.documented_requestMatching G appid sendType body responseType decode accept

/-- **How a call ends that nothing answers**, whoever stops and leaves while it runs. It ends
with `Error::WebSocket` exactly if it sends a message of its own which the driver does not
acknowledge, and the text is then that of the send's own error; otherwise it ends by its timer, or
by a message that does not decode. It never sees its channel end, so the text that it has for that
never comes. With the driver gone, it does end. -/
theorem stopped_call_error_iff {α β : Type} {C : Call α β} {P : Prost} {d : SessionDriver}
    {caller : Party} {ch : Chan} {start : Nat} {w₁ w : World β} {ms : List Move}
    (hC : Operation C) (hd : d.Reachable P) (hholds : C.holds caller = true)
    (hcaller : caller ∈ w₁.parties) (hcall : w₁.call = .subscribed start)
    (hrun : Ledger.exec (World.step C caller ch) w₁ ms = some w)
    (hlog : effects w.past <+: d.log) (hun : World.Unanswered C start w₁ w) :
    (∀ res, w.call = .wait (.done res) →
      ((∃ text, res = .error (.webSocket text)) ↔
        C.opening.sends ∧ .acked ch (.ok ()) ∉ effects w.past) ∧
      (∀ text, res = .error (.webSocket text) → World.SendFailed ch w text) ∧
      ((∃ text, res = .error (.webSocket text)) ∨ (∃ text, res = .error (.codec text)) ∨
        res = .error C.wait.timedOut)) ∧
    (∀ ms v next next', Ledger.exec (World.step C caller ch) w₁ ms = some v →
      v.call = .wait (.waiting next) →
      Channel.recv C.capacity (C.sent v.past) (v.parties.any C.holds) next ≠
        some (.closed, next')) ∧
    (.driver ∉ w.parties → World.Ends C caller ch w) := by
  have hacked : ∀ e, .acked ch (.error e) ∈ effects w.past → ∃ text, e = .webSocket text :=
    fun e he => hd.acked_error (hlog.subset he)
  obtain ⟨hborrow, hfate⟩ :=
    World.Fate.run hC.documented hholds hcaller hcall hrun hun hacked
  have honce : ∀ e, .acked ch (.ok ()) ∈ effects w.past →
      .acked ch (.error e) ∉ effects w.past := by
    intro e hok he
    cases hd.acked_once (hlog.subset hok) (hlog.subset he)
  refine ⟨fun res hres => hfate.result hC.documented honce hres, ?_, hfate.ends hborrow hholds⟩
  intro ms' v next next' hrun' hwaits
  exact World.recv_ne_closed_of_run hholds hcaller hrun' hwaits next'

/-- A session is live, and a caller has subscribed for the friends list. -/
def Sample.listening : World (List Friend) :=
  ⟨(closed.log.take 3).map .driver, [.driver, .handle 0], .subscribed 0⟩

/-- The call starts to wait, the owner logs the session off, and the driver returns. -/
def Sample.stopping : List Move :=
  .call .read :: (closed.log.drop 3).map (.deed ∘ .driver) ++ [.leave .driver]

/-- The call still waits. -/
def Sample.stranded : World (List Friend) :=
  ⟨closed.log.map .driver, [.handle 0], .wait (.waiting 0)⟩

/-- The closed session of the examples is reachable. -/
theorem reachable_closed : Sample.closed.Reachable Sample.prost :=
  SessionDriver.reachable_session.run (Option.some_get _).symm

/-- The stop of the session is a run of the call. -/
theorem listening_stranded :
    Ledger.exec (World.step (requestFriendsList Sample.friendsProst) (.handle 0) 9)
      Sample.listening Sample.stopping = some Sample.stranded := by
  decide

/-- No list is pushed before the session ends. -/
theorem unanswered_of_stranded {w : World (List Friend)} (hw : w.past = Sample.stranded.past) :
    World.Unanswered (requestFriendsList Sample.friendsProst) 0 Sample.listening w := by
  refine ⟨?_, ?_⟩
  · have hnone : (requestFriendsList Sample.friendsProst).sent Sample.stranded.past = [] := by
      decide
    simp [hw, hnone]
  · rintro _ _ ⟨⟩ past - hpast b
    have hempty : ∀ n ≤ Sample.stranded.past.length,
        (shared (effects (Sample.stranded.past.take n))).cache 767 = none := by decide
    rw [hw] at hpast
    have hcache := hempty past.length hpast.length_le
    rw [← List.prefix_iff_eq_take.mp hpast] at hcache
    simp [emsgClientFriendsList, hcache]

/-- In a session that was logged off, the friends-list call can end, but not with
`Error::WebSocket`. -/
theorem stopped_call_error_iff_stranded :
    World.Ends (requestFriendsList Sample.friendsProst) (.handle 0) 9 Sample.stranded ∧
      ∀ ms w res, Ledger.exec (World.step (requestFriendsList Sample.friendsProst) (.handle 0) 9)
        Sample.stranded ms = some w → w.past = Sample.stranded.past →
        w.call = .wait (.done res) → ¬ ∃ text, res = .error (.webSocket text) := by
  have hlog : effects Sample.stranded.past <+: Sample.closed.log := by decide
  refine ⟨?_, ?_⟩
  · exact (stopped_call_error_iff (.friendsList Sample.friendsProst) reachable_closed (by decide)
      (by decide) rfl listening_stranded hlog (unanswered_of_stranded rfl)).2.2 (by decide)
  · intro ms w res hrun hpast hres hws
    have hall := Ledger.exec_append_eq_some.mpr ⟨_, listening_stranded, hrun⟩
    have hiff := (stopped_call_error_iff (.friendsList Sample.friendsProst) reachable_closed
      (by decide) (by decide) rfl hall (hpast ▸ hlog) (unanswered_of_stranded hpast)).1 res hres
    cases (hiff.1.mp hws).1

/-- The session has stopped, no list was pushed, and the call that waits for it still ends
with `Error::Timeout`. -/
theorem stopped_session_times_out :
    Sample.closed.Reachable Sample.prost ∧ Sample.closed.phase = .stopped (.ok ()) ∧
      effects Sample.stranded.past = Sample.closed.log ∧ .driver ∉ Sample.stranded.parties ∧
      World.Unanswered (requestFriendsList Sample.friendsProst) 0 Sample.listening
        Sample.stranded ∧
      Ledger.exec (World.step (requestFriendsList Sample.friendsProst) (.handle 0) 9)
        Sample.listening (Sample.stopping ++ [.call .expire]) =
          some { Sample.stranded with call := .wait (.done (.error (.timeout "friends list"))) } :=
  ⟨reachable_closed, by decide, by decide, by decide, unanswered_of_stranded rfl,
    by decide⟩

end Steamroids
