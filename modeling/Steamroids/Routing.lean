import Steamroids.Reading
import Steamroids.Requests

/-!
# A Reply Answers the Request it was Meant for

The driver routes a message by its `jobid_target` alone. Cross-talk would need two requests
with one job id, or a message of an old connection meeting a request of a new one. The job
ids on the wire strictly increase over the whole session, and the pending table and the
inbox are both empty when a connection is replaced, so neither happens: each reply in the
ledger is justified by the entries in front of it (`OwnReply`).

## Main results

* `Reachable.wireOrdered`: the job ids on the wire strictly increase.
* `Reachable.ownReplies`: each reply was decoded from the connection on which its own
  request was written, after it was written.
* `reply_answers_own_request`: the whole statement, with what happens to a late reply.
-/

namespace Steamroids

/-! ### Job ids on the wire -/

namespace Effect

/-- The job id of a written frame, with the request the frame was written for. -/
def jobFrame? : Effect → Option (UInt64 × Option Chan)
  | .wrote _ frame origin _ => frame.header.jobidSource.map fun jobid => (jobid, origin)
  | _ => none

end Effect

/-- The job ids put on the wire, in order, each with the request it was spent on. -/
def jobFrames (log : List Effect) : List (UInt64 × Option Chan) :=
  log.filterMap Effect.jobFrame?

/-- The frames of two stretches follow one another. -/
theorem jobFrames_append (log es : List Effect) :
    jobFrames (log ++ es) = jobFrames log ++ jobFrames es :=
  List.filterMap_append

/-- The job id of a request's frame was put on the wire. -/
theorem Wrote.mem_jobFrames {log : List Effect} {conn : Nat} {ch : Chan} {jobid : UInt64}
    (h : Wrote log conn ch jobid) : (jobid, some ch) ∈ jobFrames log := by
  obtain ⟨emsg, header, body, deadline, hwithin, hjob⟩ := h
  refine List.mem_filterMap.mpr
    ⟨.wrote conn ⟨emsg, header, body⟩ (some ch) true, hwithin.subset (by simp), ?_⟩
  simp [Effect.jobFrame?, hjob]

namespace SessionDriver

variable {P : Prost} {d d' : SessionDriver}

/-- The job ids on the wire increase, stay below the next one, and a request spends at most
one. -/
structure WireOrdered (d : SessionDriver) : Prop where
  increasing : (jobFrames d.log).Pairwise fun a b => a.1 < b.1
  below : ∀ p ∈ jobFrames d.log, p.1 < d.nextJobid
  spent : ∀ ch, (jobFrames d.log).countP (fun p => p.2 == some ch) ≤
    d.log.countP (Effect.takesRequest ch)

/-- Effects without a job id keep the order. -/
theorem WireOrdered.quiet (h : WireOrdered d) {es : List Effect} (hlog : d'.log = d.log ++ es)
    (hes : ∀ e ∈ es, e.jobFrame? = none) (hnext : d'.nextJobid = d.nextJobid) :
    WireOrdered d' := by
  have hjobs : jobFrames d'.log = jobFrames d.log := by
    have hnil : jobFrames es = [] := List.filterMap_eq_nil_iff.mpr hes
    rw [hlog, jobFrames_append, hnil, List.append_nil]
  refine ⟨hjobs ▸ h.increasing, ?_, ?_⟩
  · rw [hjobs, hnext]
    exact h.below
  · intro ch
    have := h.spent ch
    rw [hjobs, hlog, List.countP_append]
    omega

/-- A request spends the next job id. -/
theorem WireOrdered.spend (h : WireOrdered d) (hlt : d.nextJobid.toNat < 2 ^ 64 - 1)
    {es : List Effect} (hlog : d'.log = d.log ++ es) {ch : Chan}
    (hes : jobFrames es = [(d.nextJobid, some ch)])
    (htake : ∀ ch', es.countP (Effect.takesRequest ch') = if ch = ch' then 1 else 0)
    (hnext : d'.nextJobid = bumpJobid d.nextJobid) : WireOrdered d' := by
  have hbump := bumpJobid_of_lt hlt
  have hjobs : jobFrames d'.log = jobFrames d.log ++ [(d.nextJobid, some ch)] := by
    rw [hlog, jobFrames_append, hes]
  have hup : d.nextJobid < bumpJobid d.nextJobid :=
    UInt64.lt_iff_toNat_lt.mpr (by rw [hbump]; omega)
  refine ⟨?_, ?_, ?_⟩
  · rw [hjobs, List.pairwise_append]
    refine ⟨h.increasing, List.pairwise_singleton _ _, ?_⟩
    intro p hp q hq
    obtain rfl := List.mem_singleton.mp hq
    exact h.below p hp
  · rw [hjobs, hnext]
    intro p hp
    rcases List.mem_append.mp hp with hp | hp
    · exact UInt64.lt_trans (h.below p hp) hup
    · obtain rfl := List.mem_singleton.mp hp
      exact hup
  · intro ch'
    have := h.spent ch'
    rw [hjobs, hlog, List.countP_append, List.countP_append, htake]
    by_cases hch : ch = ch'
    · simp [hch]
      omega
    · simp [hch]
      omega

/-- **Step lemma.** The job ids on the wire grow with every act. -/
theorem WireOrdered.act (hact : Act P d d') (hlt : d.nextJobid.toNat < 2 ^ 64 - 1)
    (h : WireOrdered d) : WireOrdered d' := by
  cases hact with
  | abandon ch => exact h.quiet (List.append_nil _).symm (by simp) rfl
  | turn l' _ => exact h.quiet (List.append_nil _).symm (by simp) rfl
  | exit ph _ => exact h.quiet (List.append_nil _).symm (by simp) rfl
  | request emsg body deadline ch _ =>
      refine h.spend hlt rfl rfl ?_ rfl
      simp [List.countP_cons, Effect.takesRequest, Command.isRequest, Command.chan]
  | requestFailed emsg body deadline ch _ =>
      refine h.spend hlt rfl rfl ?_ rfl
      simp [List.countP_cons, Effect.takesRequest, Command.isRequest, Command.chan]
  | announce _ _ =>
      refine h.quiet rfl ?_ rfl
      intro e he
      rcases mem_announce he with rfl | rfl <;> rfl
  | sweep now =>
      refine h.quiet rfl ?_ rfl
      intro e he
      rcases mem_swept he with ⟨entry, ⟨rfl, -⟩ | rfl⟩ <;> rfl
  | failAll reason _ =>
      refine h.quiet rfl ?_ rfl
      intro e he
      obtain ⟨entry, -, rfl⟩ := List.mem_map.mp he
      rfl
  | _ => exact h.quiet rfl (by simp [Effect.jobFrame?, frame]) rfl

/-- **Run lemma.** They grow in every run that has ids left. -/
theorem Reachable.wireOrdered (h : Reachable P d) (hleft : JobIdsLeft d.log) :
    WireOrdered d := by
  have key : JobTable d ∧ (JobIdsLeft d.log → WireOrdered d) := by
    refine h.invariant (I := fun d => JobTable d ∧ (JobIdsLeft d.log → WireOrdered d)) ?_ ?_
    · intro now items d₀ h₀
      refine ⟨(Reachable.of_spawn h₀).jobTable, fun _ => ?_⟩
      obtain ⟨c, -, hs⟩ := spawn_spec h₀
      have hnil : jobFrames d₀.log = [] := by
        rw [hs.log]
        rfl
      constructor <;> simp [hnil]
    · rintro s s' hact ⟨hjobs, hord⟩
      refine ⟨hjobs.act hact, fun hleft' => ?_⟩
      obtain ⟨es, hes⟩ := hact.log_append
      rw [hes] at hleft'
      have hleft := hleft'.of_append
      have hnext := hjobs.next_le
      refine (hord hleft).act hact ?_
      simp only [JobIdsLeft] at hleft
      omega
  exact key.2 hleft

/-- Two frames with one job id were written for one request. -/
theorem WireOrdered.origin_eq (h : WireOrdered d) {jobid : UInt64} {o o' : Option Chan}
    (ho : (jobid, o) ∈ jobFrames d.log) (ho' : (jobid, o') ∈ jobFrames d.log) : o = o' := by
  have hnodup : ((jobFrames d.log).map Prod.fst).Nodup := by
    rw [List.Nodup, List.pairwise_map]
    refine h.increasing.imp ?_
    intro a b hab heq
    exact UInt64.lt_irrefl _ (heq ▸ hab)
  exact congrArg Prod.snd (List.inj_on_of_nodup_map hnodup ho ho' rfl)

/-! ### Replies -/

/-- A reply is the answer to its own request: that request was written before it, on the
connection that the message then came from, with the job id that the message targets. -/
def OwnReply (P : Prost) (pre : List Effect) (e : Effect) : Prop :=
  ∀ ch a delivered, e = .replied ch (.ok a) delivered →
    (∃ jobid, a.msg.header.jobidTarget = some jobid ∧ Wrote pre a.conn ch jobid) ∧
    a.msg ∈ decodedPrefix P (itemsOf a.conn pre)

/-- Effects that route nothing need no justification. -/
theorem justified_of_unrouted {log es : List Effect} (h : Ledger.Justified (OwnReply P) log)
    (hes : ∀ e ∈ es, ∀ ch a delivered, e ≠ .replied ch (.ok a) delivered) :
    Ledger.Justified (OwnReply P) (log ++ es) := by
  refine Ledger.justified_append.mpr ⟨h, ?_⟩
  rintro pre e post rfl ch a delivered rfl
  exact absurd rfl (hes _ (by simp) ch a delivered)

/-- **Step lemma.** A message resolves the request that wrote its job id. It has waited in the
inbox, which holds messages of the current connection only. -/
theorem Act.ownReplies (hact : Act P d d') (hjobs : JobTable d) (hdel : Delivery P d)
    (h : Ledger.Justified (OwnReply P) d.log) : Ledger.Justified (OwnReply P) d'.log := by
  cases hact with
  | abandon ch => exact h
  | turn l' _ => exact h
  | exit ph _ => exact h
  | @route msg rest jobid entry hin hw =>
      obtain ⟨htarget, hentry⟩ := waiter_eq_some hw
      refine Ledger.justified_append_singleton.mpr ⟨h, ?_⟩
      intro ch a delivered he
      obtain ⟨rfl, ha, -⟩ := Effect.replied.inj he
      obtain rfl := Except.ok.inj ha
      refine ⟨⟨jobid, htarget, hjobs.wrote jobid entry hentry⟩, ?_⟩
      obtain ⟨skipped, answer, hdec, -, -⟩ := hdel.stream d.conn le_rfl
      show msg ∈ decodedPrefix P (itemsOf d.conn d.log)
      rw [hdec]
      simp [waiting, hin]
  | announce _ _ =>
      refine justified_of_unrouted h ?_
      intro e he
      rcases mem_announce he with rfl | rfl <;> simp
  | sweep now =>
      refine justified_of_unrouted h ?_
      intro e he
      rcases mem_swept he with ⟨entry, ⟨rfl, -⟩ | rfl⟩ <;> simp
  | failAll reason _ =>
      refine justified_of_unrouted h ?_
      intro e he
      obtain ⟨entry, -, rfl⟩ := List.mem_map.mp he
      simp
  | _ => exact justified_of_unrouted h (by simp)

/-- **Run lemma.** So does every message of every run. -/
theorem Reachable.ownReplies (h : Reachable P d) : Ledger.Justified (OwnReply P) d.log := by
  have key : JobTable d ∧ Delivery P d ∧ Ledger.Justified (OwnReply P) d.log := by
    refine h.invariant
      (I := fun d => JobTable d ∧ Delivery P d ∧ Ledger.Justified (OwnReply P) d.log) ?_ ?_
    · intro now items d₀ h₀
      have hr := Reachable.of_spawn h₀
      refine ⟨hr.jobTable, hr.delivery, ?_⟩
      obtain ⟨c, -, hs⟩ := spawn_spec h₀
      rw [hs.log]
      exact justified_of_unrouted Ledger.justified_nil (by simp)
    · rintro s s' hact ⟨hjobs, hdel, hown⟩
      exact ⟨hjobs.act hact, hdel.act hact, hact.ownReplies hjobs hdel hown⟩
  exact key.2.2

/-- An effect disposes of its message alone. -/
theorem Delivery.sole (h : Delivery P d) {pre post : List Effect} {e : Effect} {a : Arrival}
    (hsplit : d.log = pre ++ e :: post) (he : e.arrival? = some a) :
    ∀ e' ∈ pre ++ post, e'.arrival? ≠ some a := by
  have hnodup := h.nodup
  rw [hsplit, taken_append] at hnodup
  have hcons : taken (e :: post) = a :: taken post := by simp [taken, he]
  rw [hcons, List.nodup_middle, List.nodup_cons] at hnodup
  intro e' he' hea
  refine hnodup.1 ?_
  rw [← taken_append]
  exact List.mem_filterMap.mpr ⟨e', he', hea⟩

/-- **A reply answers its own request.** Whenever a request resolves with a message: its
own frame, the only one it had, was written before, with the job id that the message
targets; the message was decoded from the connection that frame was written to; and no
other request gets it, nor any subscriber. The job ids on the wire strictly increase, and a
message for the job of a request that has been settled is broadcast. -/
theorem reply_answers_own_request (hd : Reachable P d) (hleft : JobIdsLeft d.log) :
    (∀ pre post ch a delivered, d.log = pre ++ .replied ch (.ok a) delivered :: post →
      (∃ jobid, a.msg.header.jobidTarget = some jobid ∧ Wrote pre a.conn ch jobid ∧
        ∀ jobid', (jobid', some ch) ∈ jobFrames d.log → jobid' = jobid) ∧
      a.msg ∈ decodedPrefix P (itemsOf a.conn pre) ∧
      ∀ e ∈ pre ++ post, e.arrival? ≠ some a) ∧
    ((jobFrames d.log).map Prod.fst).Pairwise (· < ·) ∧
    (∀ pre post e a ch jobid, d.log = pre ++ e :: post → e.dispatch? = some a →
      a.msg.header.jobidTarget = some jobid → (jobid, some ch) ∈ jobFrames pre →
      (∃ e' ∈ pre, e'.settles ch) → e = .broadcast a) := by
  have hord := hd.wireOrdered hleft
  have hbal := hd.balanced
  refine ⟨?_, List.pairwise_map.mpr hord.increasing, ?_⟩
  · intro pre post ch a delivered hsplit
    obtain ⟨⟨jobid, htarget, hwrote⟩, hdec⟩ := hd.ownReplies pre _ post hsplit ch a delivered rfl
    refine ⟨⟨jobid, htarget, hwrote, ?_⟩, hdec, hd.delivery.sole hsplit rfl⟩
    intro jobid' hjobid'
    have hmem : (jobid, some ch) ∈ jobFrames d.log := by
      rw [hsplit, jobFrames_append]
      exact List.mem_append_left _ hwrote.mem_jobFrames
    have hone : (jobFrames d.log).countP (fun p => p.2 == some ch) ≤ 1 := by
      have h₁ := hord.spent ch
      have h₂ := hbal.once ch
      omega
    have heq := Ledger.eq_of_countP_le_one hone hjobid' hmem (by simp) (by simp)
    exact congrArg Prod.fst heq
  · intro pre post e a ch jobid hsplit he htarget hjob ⟨e', he', hset⟩
    cases e with
    | broadcast b =>
        obtain rfl : b = a := Option.some.inj he
        rfl
    | replied ch' res delivered =>
        cases res with
        | error err => cases he
        | ok b =>
            exfalso
            obtain rfl : b = a := Option.some.inj he
            obtain ⟨⟨jobid', htarget', hwrote⟩, -⟩ :=
              hd.ownReplies pre _ post hsplit ch' b delivered rfl
            obtain rfl : jobid = jobid' := Option.some.inj (htarget.symm.trans htarget')
            have hin : ∀ p ∈ jobFrames pre, p ∈ jobFrames d.log := by
              intro p hp
              rw [hsplit, jobFrames_append]
              exact List.mem_append_left _ hp
            obtain rfl : ch = ch' := Option.some.inj
              (hord.origin_eq (hin _ hjob) (hin _ hwrote.mem_jobFrames))
            have h₁ := hbal.request_le ch
            have h₂ := hbal.once ch
            have hpre : 0 < pre.countP (Effect.settles ch) :=
              List.countP_pos_iff.mpr ⟨e', he', hset⟩
            have hcount : d.log.countP (Effect.settles ch) =
                pre.countP (Effect.settles ch) + (post.countP (Effect.settles ch) + 1) := by
              rw [hsplit, List.countP_append]
              simp [Effect.settles]
            omega
    | _ => cases he

/-- The reply of the answered session has the job id of its request. -/
theorem reply_answers_own_request_answered :
    ∃ pre a, Sample.answered.log = pre ++ [.replied 7 (.ok a) true] ∧
      (∃ jobid, a.msg.header.jobidTarget = some jobid ∧ Wrote pre a.conn 7 jobid) ∧
      ((jobFrames Sample.answered.log).map Prod.fst).Pairwise (· < ·) := by
  have hleft : JobIdsLeft Sample.answered.log := by
    unfold JobIdsLeft
    decide
  have h := reply_answers_own_request reachable_answered hleft
  have hsplit : Sample.answered.log = Sample.answered.log.dropLast ++
      [.replied 7 (.ok ⟨0, 0, { emsg := 147, header := { jobidTarget := some 1 } }⟩) true] := by
    decide
  obtain ⟨⟨jobid, htarget, hwrote, -⟩, -⟩ := h.1 _ _ _ _ _ hsplit
  exact ⟨_, _, hsplit, ⟨jobid, htarget, hwrote⟩, h.2.1⟩

end SessionDriver

end Steamroids
