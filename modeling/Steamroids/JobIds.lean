import Steamroids.Requests

/-!
# Job Ids

Every request is written with a job id of its own, by which `dispatch` finds it again when a
reply comes in. The ids come from a 64-bit counter that starts at 1 and, behind `u64::MAX`,
starts at 1 again: in the order in which frames are written, the requests of a session are
numbered `1, 2, …, 2 ^ 64 - 1, 1, 2, …`. One lap of the counter is `jobidPeriod` requests.

## Main results

* `Reachable.numbered`: in every run, the counter and the ids of the pending requests are
  what the order of the requests says.
* `new_jobid_sound_iff`: the id that a new request is given can be routed, and belongs to no
  pending request, unless the request is the last of a lap or a request a whole number of laps
  before it is still pending.
-/

namespace Steamroids

/-- How many ids the counter runs through before it repeats: the 64-bit range without
zero. -/
def jobidPeriod : Nat := 2 ^ 64 - 1

/-- The request that a written frame is for. -/
def Effect.issuedTo : Effect → Option Chan
  | .wrote _ _ origin _ => origin
  | _ => none

/-- The requests that have been given a job id, in this order. -/
def issued (log : List Effect) : List Chan := log.filterMap Effect.issuedTo

/-- What two stretches issue follows one another. -/
theorem issued_append (log es : List Effect) : issued (log ++ es) = issued log ++ issued es :=
  List.filterMap_append

/-- Entries that issue no id add none. -/
theorem issued_eq_nil {es : List Effect} (h : ∀ e ∈ es, e.issuedTo = none) : issued es = [] :=
  List.filterMap_eq_nil_iff.mpr h

namespace SessionDriver

variable {P : Prost} {d d' : SessionDriver}

/-! ### The counter over a run -/

/-- The counter goes from each number of the lap to the next, and from the last to 1. -/
theorem bumpJobid_of_eq {jobid : UInt64} {n : Nat} (h : jobid.toNat = n % jobidPeriod + 1) :
    (bumpJobid jobid).toNat = (n + 1) % jobidPeriod + 1 := by
  simp only [jobidPeriod] at h ⊢
  by_cases hlt : jobid.toNat < 2 ^ 64 - 1
  · rw [bumpJobid_of_lt hlt]
    omega
  · have hmax : jobid = u64Max := by
      apply UInt64.toNat_inj.mp
      show jobid.toNat = 2 ^ 64 - 1
      omega
    have hone : (bumpJobid jobid).toNat = 1 := by simp [bumpJobid, hmax]
    rw [hone]
    omega

/-- The counter and the pending table follow the order in which the requests were issued. -/
structure Numbered (d : SessionDriver) : Prop where
  next : d.nextJobid.toNat = (issued d.log).length % jobidPeriod + 1
  nodup : (issued d.log).Nodup
  taken : ∀ ch ∈ issued d.log, ∃ c, .took c ∈ d.log ∧ c.chan = ch
  number : ∀ jobid entry, d.pending.lookup jobid = some entry →
    ∃ k, (issued d.log)[k]? = some entry.reply ∧ jobid.toNat = k % jobidPeriod + 1

/-- Nothing is issued, and no request is entered. -/
theorem Numbered.quiet (h : Numbered d) (hnext : d'.nextJobid = d.nextJobid)
    (hlog : ∃ es, d'.log = d.log ++ es ∧ ∀ e ∈ es, e.issuedTo = none)
    (hsub : ∀ jobid entry, d'.pending.lookup jobid = some entry →
      d.pending.lookup jobid = some entry) : Numbered d' := by
  obtain ⟨es, hes, hnone⟩ := hlog
  have hissued : issued d'.log = issued d.log := by
    rw [hes, issued_append, issued_eq_nil hnone, List.append_nil]
  refine ⟨by rw [hnext, hissued]; exact h.next, by rw [hissued]; exact h.nodup, ?_, ?_⟩
  · intro ch hch
    rw [hissued] at hch
    obtain ⟨c, hc, hchan⟩ := h.taken ch hch
    exact ⟨c, by rw [hes]; exact List.mem_append_left es hc, hchan⟩
  · intro jobid entry hentry
    rw [hissued]
    exact h.number jobid entry (hsub jobid entry hentry)

/-- A new request is issued to a channel that no request was issued to before. -/
theorem Numbered.not_mem_issued (h : Numbered d) {c : Command} (hnew : d.isNew (some c)) :
    c.chan ∉ issued d.log := by
  intro hmem
  obtain ⟨c', hc', hchan⟩ := h.taken c.chan hmem
  simp only [isNew, Bool.not_eq_true', List.any_eq_false] at hnew
  simpa [hchan] using hnew _ hc'

/-- A request is issued the next number; if its frame was sent it is entered under it. -/
theorem Numbered.issue (h : Numbered d) {c : Command} (hnew : d.isNew (some c))
    {es : List Effect} (hes : issued es = [c.chan]) (htook : .took c ∈ es)
    (hnext : d'.nextJobid = bumpJobid d.nextJobid) (hlog : d'.log = d.log ++ es)
    (hsub : ∀ jobid entry, d'.pending.lookup jobid = some entry →
      d.pending.lookup jobid = some entry ∨ jobid = d.nextJobid ∧ entry.reply = c.chan) :
    Numbered d' := by
  have hissued : issued d'.log = issued d.log ++ [c.chan] := by
    rw [hlog, issued_append, hes]
  refine ⟨?_, ?_, ?_, ?_⟩
  · rw [hnext, hissued, List.length_append]
    exact bumpJobid_of_eq h.next
  · rw [hissued]
    exact List.concat_eq_append ▸ h.nodup.concat (h.not_mem_issued hnew)
  · intro ch hch
    rw [hissued, List.mem_append, List.mem_singleton] at hch
    rcases hch with hch | rfl
    · obtain ⟨c', hc', hchan⟩ := h.taken ch hch
      exact ⟨c', by rw [hlog]; exact List.mem_append_left es hc', hchan⟩
    · exact ⟨c, by rw [hlog]; exact List.mem_append_right _ htook, rfl⟩
  · intro jobid entry hentry
    rw [hissued]
    rcases hsub jobid entry hentry with hold | ⟨rfl, hreply⟩
    · obtain ⟨k, hk, hnum⟩ := h.number jobid entry hold
      have hlt := (List.getElem?_eq_some_iff.mp hk).1
      exact ⟨k, by rw [List.getElem?_append_left hlt]; exact hk, hnum⟩
    · exact ⟨(issued d.log).length, by simp [hreply], h.next⟩

/-- **Step lemma.** The numbering is kept by every act. -/
theorem Numbered.act (hact : Act P d d') (h : Numbered d) : Numbered d' := by
  cases hact with
  | request emsg body deadline ch hnew =>
      refine h.issue hnew rfl (List.mem_cons_self ..) rfl rfl ?_
      intro jobid entry hentry
      by_cases hjob : jobid = d.nextJobid
      · subst hjob
        rw [AList.lookup_insert, Option.some.injEq] at hentry
        exact .inr ⟨rfl, by rw [← hentry]; rfl⟩
      · rw [AList.lookup_insert_ne hjob] at hentry
        exact .inl hentry
  | requestFailed emsg body deadline ch hnew =>
      exact h.issue hnew rfl (List.mem_cons_self ..) rfl rfl fun _ _ hentry => .inl hentry
  | @route msg rest jobid entry _ _ =>
      refine h.quiet rfl ⟨_, rfl, by simp [Effect.issuedTo]⟩ ?_
      intro jobid' entry' hentry
      by_cases hjob : jobid' = jobid
      · subst hjob
        simp at hentry
      · rwa [AList.lookup_erase_ne hjob] at hentry
  | announce _ _ =>
      refine h.quiet rfl ⟨_, rfl, ?_⟩ fun _ _ hentry => hentry
      intro e he
      rcases mem_announce he with rfl | rfl <;> rfl
  | sweep now =>
      refine h.quiet rfl ⟨_, rfl, ?_⟩ ?_
      · intro e he
        obtain ⟨entry, ⟨rfl, -⟩ | rfl⟩ := mem_swept he <;> rfl
      · intro jobid entry hentry
        have hmem := AList.mem_lookup_iff.mp hentry
        exact AList.mem_lookup_iff.mpr (List.mem_of_mem_filter hmem)
  | failAll reason _ =>
      refine h.quiet rfl ⟨_, rfl, ?_⟩ (by simp [failAllPending])
      intro e he
      obtain ⟨entry, -, rfl⟩ := List.mem_map.mp he
      rfl
  | abandon ch => exact h.quiet rfl ⟨[], by simp⟩ fun _ _ hentry => hentry
  | turn l' _ => exact h.quiet rfl ⟨[], by simp⟩ fun _ _ hentry => hentry
  | exit ph _ => exact h.quiet rfl ⟨[], by simp⟩ fun _ _ hentry => hentry
  | _ => exact h.quiet rfl ⟨_, rfl, by simp [Effect.issuedTo]⟩ fun _ _ hentry => hentry

/-- **Run lemma.** The requests are numbered in every reachable state. -/
theorem Reachable.numbered (h : Reachable P d) : Numbered d := by
  refine h.invariant ?_ fun _ _ => Numbered.act
  intro now items d₀ h₀
  obtain ⟨c, -, hs⟩ := spawn_spec h₀
  have hissued : issued d₀.log = [] := by
    rw [hs.log]
    rfl
  refine ⟨?_, ?_, ?_, ?_⟩
  · rw [hs.nextJobid, hissued]
    rfl
  · rw [hissued]
    exact List.nodup_nil
  · simp [hissued]
  · simp [hs.pending]

/-! ### The id of a new request -/

/-- What is asked of the id that a new request is given, in the step from `d` to `d'`: a reply
can be routed by it, no pending request has it, and entering the request under it evicts no
other one. -/
structure SoundId (d d' : SessionDriver) (jobid : UInt64) (entry : Pending) (sent : Bool) :
    Prop where
  ne_zero : jobid ≠ 0
  ne_max : jobid ≠ u64Max
  free : jobid ∉ d.pending
  routed : sent → ∀ msg : SteamMessage, msg.header.jobidTarget = some jobid →
    d'.waiter msg = some (jobid, entry)
  kept : sent → ∀ id e, d.pending.lookup id = some e → d'.pending.lookup id = some e

/-- The next request is not the last of a lap of the counter, and no request that was issued
a whole number of laps before it is still pending. -/
def Unlapped (d : SessionDriver) : Prop :=
  ¬ jobidPeriod ∣ (issued d.log).length + 1 ∧
    ∀ k ch, (issued d.log)[k]? = some ch → jobidPeriod ∣ (issued d.log).length - k →
      ∀ jobid entry, d.pending.lookup jobid = some entry → entry.reply ≠ ch

/-- A message for a job goes to the request that is pending under its id. -/
theorem waiter_of_ne {msg : SteamMessage} {jobid : UInt64} (hzero : jobid ≠ 0)
    (hmax : jobid ≠ u64Max) (h : msg.header.jobidTarget = some jobid) :
    d.waiter msg = (d.pending.lookup jobid).map fun entry => (jobid, entry) := by
  simp [waiter, h, Option.filter, hzero, hmax]

/-- A message for the id that means no job goes to nobody. -/
theorem waiter_max {msg : SteamMessage} (h : msg.header.jobidTarget = some u64Max) :
    d.waiter msg = none := by
  simp [waiter, h, Option.filter]

/-- Acts add to the ledger. -/
theorem Acts.log_append (h : Acts P d d') : ∃ es, d'.log = d.log ++ es := by
  induction h with
  | refl => exact ⟨[], (List.append_nil _).symm⟩
  | tail _ hact ih =>
      obtain ⟨es, hes⟩ := ih
      obtain ⟨es', hes'⟩ := hact.log_append
      exact ⟨es ++ es', by rw [hes', hes, List.append_assoc]⟩

/-- A connected driver takes a request: its frame is written with the next id, and if that
succeeds it is entered under this id. -/
theorem step_request {l : ConnectedLoop} (hph : d.phase = .connected l) {emsg : UInt32}
    {body : Bytes} {deadline : Nat} {ch : Chan} {write : Option String}
    (h : d.step P (.command (some (.request emsg body deadline ch)) write) = some d') :
    (∃ rest, d'.log = d.log ++ [.took (.request emsg body deadline ch),
      .wrote d.conn (d.frame emsg (some d.nextJobid) body) (some ch) write.isNone] ++ rest) ∧
    (write.isNone → d'.pending = d.pending.insert d.nextJobid { reply := ch, deadline }) := by
  obtain ⟨ch', hi, -⟩ | ⟨r, hr, rfl⟩ := step_connected hph h
  · cases hi
  · simp only [runConnected, Option.some.injEq] at hr
    subst hr
    cases write with
    | none =>
        refine ⟨⟨[], ?_⟩, fun _ => rfl⟩
        simp [onCommand, sendFrame, emit, frame, resume, Turn.ofBranch]
    | some e =>
        refine ⟨?_, by simp⟩
        simp only [onCommand, sendFrame, Option.isSome_some, if_true, Turn.ofBranch, resume]
        obtain ⟨es, hes⟩ := Acts.log_append (leave_acts (P := P) _ .disconnected)
        refine ⟨.replied ch (.error (.webSocket "session reconnecting")) (!d.isClosed ch) :: es,
          hes.trans ?_⟩
        simp [reply, emit, frame, isClosed]

/-- The next id is `u64::MAX` at the end of a lap only. -/
theorem Numbered.next_eq_max_iff (h : Numbered d) :
    d.nextJobid = u64Max ↔ jobidPeriod ∣ (issued d.log).length + 1 := by
  have hnext := h.next
  have hmax : u64Max.toNat = 2 ^ 64 - 1 := rfl
  rw [← UInt64.toNat_inj, hmax]
  simp only [jobidPeriod] at hnext ⊢
  omega

/-- The next id is pending if the request that had it some laps ago is. -/
theorem Numbered.next_mem_iff (h : Numbered d) :
    d.nextJobid ∈ d.pending ↔
      ∃ k ch, (issued d.log)[k]? = some ch ∧ jobidPeriod ∣ (issued d.log).length - k ∧
        ∃ jobid entry, d.pending.lookup jobid = some entry ∧ entry.reply = ch := by
  have hnext := h.next
  constructor
  · intro hmem
    obtain ⟨entry, hentry⟩ := Option.isSome_iff_exists.mp (AList.lookup_isSome.mpr hmem)
    obtain ⟨k, hk, hnum⟩ := h.number _ entry hentry
    refine ⟨k, entry.reply, hk, ?_, d.nextJobid, entry, hentry, rfl⟩
    have hlt := (List.getElem?_eq_some_iff.mp hk).1
    simp only [jobidPeriod] at hnext hnum ⊢
    omega
  · rintro ⟨k, ch, hk, hdvd, jobid, entry, hentry, rfl⟩
    obtain ⟨k', hk', hnum⟩ := h.number jobid entry hentry
    have hlt := (List.getElem?_eq_some_iff.mp hk).1
    obtain rfl : k = k' := (List.getElem?_inj hlt h.nodup).mp (hk.trans hk'.symm)
    obtain rfl : jobid = d.nextJobid := by
      apply UInt64.toNat_inj.mp
      simp only [jobidPeriod] at hnext hnum hdvd
      omega
    exact AList.lookup_isSome.mp (by rw [hentry]; rfl)

/-- The next id is good unless it is the reserved one, or pending. -/
theorem Numbered.unlapped_iff (h : Numbered d) :
    Unlapped d ↔ d.nextJobid ≠ u64Max ∧ d.nextJobid ∉ d.pending := by
  rw [Unlapped, ne_eq, h.next_eq_max_iff, h.next_mem_iff]
  push Not
  rfl

/-- In every run, the id that a new request is given is as it should be exactly if the request
is not the last of a lap of the counter and none a whole number of laps before it is still
pending. -/
theorem new_jobid_sound_iff (hd : Reachable P d) {l : ConnectedLoop}
    (hph : d.phase = .connected l) {emsg : UInt32} {body : Bytes} {deadline : Nat} {ch : Chan}
    {write : Option String}
    (hstep : d.step P (.command (some (.request emsg body deadline ch)) write) = some d') :
    ∃ jobid, (∃ rest, d'.log = d.log ++ [.took (.request emsg body deadline ch),
        .wrote d.conn (d.frame emsg (some jobid) body) (some ch) write.isNone] ++ rest) ∧
      (SoundId d d' jobid { reply := ch, deadline } write.isNone ↔ Unlapped d) := by
  have hnum := hd.numbered
  obtain ⟨hlog, hpend⟩ := step_request hph hstep
  refine ⟨d.nextJobid, hlog, ?_⟩
  rw [hnum.unlapped_iff]
  constructor
  · exact fun hsound => ⟨hsound.ne_max, hsound.free⟩
  · rintro ⟨hmax, hfree⟩
    have hzero : d.nextJobid ≠ 0 := by
      intro hzero
      have hnext := hnum.next
      rw [hzero] at hnext
      exact absurd hnext (Nat.succ_ne_zero _).symm
    refine ⟨hzero, hmax, hfree, ?_, ?_⟩
    · intro hsent msg hmsg
      rw [waiter_of_ne hzero hmax hmsg, hpend hsent, AList.lookup_insert]
      rfl
    · intro hsent id e he
      have hne : id ≠ d.nextJobid := by
        rintro rfl
        exact hfree (AList.lookup_isSome.mp (by rw [he]; rfl))
      rw [hpend hsent, AList.lookup_insert_ne hne]
      exact he

/-- The first request of a session has a sound id. -/
theorem new_jobid_sound_first :
    ∃ d', Sample.session.step Sample.prost
        (.command (some (.request 151 [] (fromSecs 30) 7)) none) = some d' ∧
      ∃ jobid, (∃ rest, d'.log = Sample.session.log ++
          [.took (.request 151 [] (fromSecs 30) 7),
            .wrote Sample.session.conn (Sample.session.frame 151 (some jobid) []) (some 7) true] ++
          rest) ∧
        (SoundId Sample.session d' jobid { reply := 7, deadline := fromSecs 30 } true ↔
          Unlapped Sample.session) :=
  ⟨_, (Option.some_get (by decide)).symm,
    new_jobid_sound_iff reachable_session rfl (Option.some_get (by decide)).symm⟩

/-! ### A whole lap of requests

A session in which requests are made and nothing else happens: the channels are `0, 1, …`, so
that the request on channel `k` is the one with `k` requests before it. -/

/-- What the session looks like after `n` requests. -/
structure Flooded (d : SessionDriver) (n : Nat) : Prop where
  phase : ∃ l, d.phase = .connected l
  issued : Steamroids.issued d.log = List.range n
  taken : ∀ c, .took c ∈ d.log → c.chan < n
  first : 0 < n → n ≤ jobidPeriod →
    d.pending.lookup 1 = some { reply := 0, deadline := fromSecs 30 }

/-- A request that is taken while connected is numbered, written and held. -/
theorem step_request_of_isNew {l : ConnectedLoop} (hph : d.phase = .connected l) {emsg : UInt32}
    {body : Bytes} {deadline : Nat} {ch : Chan}
    (hnew : d.isNew (some (.request emsg body deadline ch))) :
    d.step P (.command (some (.request emsg body deadline ch)) none) =
      some { d with
        nextJobid := bumpJobid d.nextJobid
        pending := d.pending.insert d.nextJobid { reply := ch, deadline }
        log := d.log ++ [.took (.request emsg body deadline ch),
          .wrote d.conn (d.frame emsg (some d.nextJobid) body) (some ch) true]
        phase := .connected { l with reading := .fresh } } := by
  simp [step, hnew, hph, runConnected, onCommand, sendFrame, emit, frame, Turn.ofBranch, resume]

/-- The next channel is new. -/
theorem Flooded.isNew {n : Nat} (h : Flooded d n) {emsg : UInt32} {body : Bytes}
    {deadline : Nat} : d.isNew (some (.request emsg body deadline n)) := by
  simp only [SessionDriver.isNew, Bool.not_eq_true', List.any_eq_false]
  intro e he
  cases e with
  | took c =>
      have hne : c.chan ≠ n := Nat.ne_of_lt (h.taken c he)
      simpa [Command.chan] using hne
  | _ => simp

/-- The first request keeps its place in the table for a whole lap. -/
theorem Flooded.lookup_one {n : Nat} (h : Flooded d n) (hnum : Numbered d) (hpos : 0 < n)
    (hlt : n < jobidPeriod) (entry : Pending) :
    (d.pending.insert d.nextJobid entry).lookup 1 =
      some { reply := 0, deadline := fromSecs 30 } := by
  have hnext := hnum.next
  rw [h.issued, List.length_range] at hnext
  have hne : 1 ≠ d.nextJobid := by
    intro heq
    rw [← heq, Nat.mod_eq_of_lt hlt] at hnext
    exact absurd (Nat.succ.inj hnext) (Nat.ne_of_lt hpos)
  rw [AList.lookup_insert_ne hne]
  exact h.first hpos (Nat.le_of_lt hlt)

/-- **Step lemma.** One more request. -/
theorem Flooded.step {n : Nat} (h : Flooded d n) (hnum : Numbered d) :
    ∃ d', d.step P (.command (some (.request 151 [] (fromSecs 30) n)) none) = some d' ∧
      Flooded d' (n + 1) := by
  obtain ⟨l, hph⟩ := h.phase
  refine ⟨_, step_request_of_isNew hph h.isNew, ⟨_, rfl⟩, ?_, ?_, ?_⟩
  · rw [issued_append, h.issued, List.range_succ]
    rfl
  · intro c hc
    rcases List.mem_append.mp hc with hc | hc
    · exact Nat.lt_succ_of_lt (h.taken c hc)
    · obtain rfl : c = .request 151 [] (fromSecs 30) n := by simpa using hc
      exact Nat.lt_succ_self n
  · intro _ hle
    rcases Nat.eq_zero_or_pos n with rfl | hpos
    · have hone : d.nextJobid = 1 := by
        apply UInt64.toNat_inj.mp
        rw [hnum.next, h.issued]
        rfl
      rw [hone]
      exact AList.lookup_insert _
    · exact h.lookup_one hnum hpos hle _

/-- Any number of requests can be made. -/
theorem exists_flooded (n : Nat) : ∃ d, Reachable Sample.prost d ∧ Flooded d n := by
  induction n with
  | zero =>
      refine ⟨Sample.session, reachable_session, ⟨_, rfl⟩, rfl, ?_, fun hpos => ?_⟩
      · intro c hc
        have hlog : Sample.session.log =
            [.adopted 0 [Sample.item Sample.logonFrame], .cleared,
              .published (.loggedOn Sample.session.steamId)] := by decide
        simp [hlog] at hc
      · exact absurd hpos (Nat.lt_irrefl 0)
  | succ n ih =>
      obtain ⟨d, hd, hfl⟩ := ih
      obtain ⟨d', hstep, hfl'⟩ := hfl.step (P := Sample.prost) hd.numbered
      have hrun : Ledger.exec (step Sample.prost) d
          [.command (some (.request 151 [] (fromSecs 30) n)) none] = some d' := by
        simp [Ledger.exec, hstep]
      exact ⟨d', hd.run hrun, hfl'⟩

/-- The last request of a lap is given `u64::MAX`, and no reply can be routed to it. The next
one is given 1, and evicts the first request of the session if that is still pending. -/
theorem jobids_wrap_unsoundly :
    (∃ d d', Reachable Sample.prost d ∧
      d.step Sample.prost (.command (some (.request 151 [] (fromSecs 30) (jobidPeriod - 1)))
        none) = some d' ∧
      .wrote d.conn (d.frame 151 (some u64Max) []) (some (jobidPeriod - 1)) true ∈ d'.log ∧
      ∀ msg : SteamMessage, msg.header.jobidTarget = some u64Max → d'.waiter msg = none) ∧
    ∃ d d', Reachable Sample.prost d ∧
      d.step Sample.prost (.command (some (.request 151 [] (fromSecs 30) jobidPeriod)) none) =
        some d' ∧
      d.pending.lookup 1 = some { reply := 0, deadline := fromSecs 30 } ∧
      d'.pending.lookup 1 = some { reply := jobidPeriod, deadline := fromSecs 30 } := by
  have hone : 1 ≤ jobidPeriod := by decide
  constructor
  · obtain ⟨d, hd, hfl⟩ := exists_flooded (jobidPeriod - 1)
    obtain ⟨l, hph⟩ := hfl.phase
    have hlap : (issued d.log).length + 1 = jobidPeriod := by
      rw [hfl.issued, List.length_range, Nat.sub_add_cancel hone]
    have hmax : d.nextJobid = u64Max :=
      hd.numbered.next_eq_max_iff.mpr (hlap ▸ Nat.dvd_refl _)
    refine ⟨d, _, hd, step_request_of_isNew hph hfl.isNew, ?_, fun msg hmsg => waiter_max hmsg⟩
    rw [← hmax]
    simp
  · obtain ⟨d, hd, hfl⟩ := exists_flooded jobidPeriod
    obtain ⟨l, hph⟩ := hfl.phase
    have hnext : d.nextJobid = 1 := by
      apply UInt64.toNat_inj.mp
      rw [hd.numbered.next, hfl.issued, List.length_range, Nat.mod_self]
      rfl
    refine ⟨d, _, hd, step_request_of_isNew hph hfl.isNew, hfl.first hone le_rfl, ?_⟩
    rw [hnext]
    exact AList.lookup_insert _

end SessionDriver

end Steamroids
