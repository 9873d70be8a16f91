import Mathlib.Data.List.ReduceOption
import Steamroids.Handles
import Steamroids.JobIds

/-!
# The Fate of Calls on Handles

Many calls are under way at once, on any number of handles, each with its own channel, and the
driver sees one queue. What binds the two sides together is an invariant of all runs (`Linked`): the
driver has taken exactly the first commands of those that were sent, no command twice, and every
call that has returned was told the truth.

## Main results

* `Handles.Reachable.linked`: the invariant.
* `Handles.calls_keep_order`: commands are taken in the order in which they were sent, and a call
  returns what the driver has answered to its own command, or why there is no answer.
-/

namespace Steamroids

namespace SessionDriver

variable {P : Prost} {d d' : SessionDriver}

/-- To leave the loop abandons no channel. -/
theorem leave_abandoned (d : SessionDriver) (x : LoopExit) :
    (d.leave x).abandoned = d.abandoned := by
  cases x with
  | shutdown => rfl
  | loggedOff reason => rfl
  | disconnected =>
      exact (drain_steady { d with phase := .backoff initialBackoff } d.inbox).abandoned

/-- Only a caller abandons its channel. -/
theorem step_abandoned {i : Input} (h : d.step P i = some d') (hd : d.Resting)
    (hi : ∀ ch, i ≠ .abandon ch) : d'.abandoned = d.abandoned := by
  cases step_takes h with
  | abandon ch => exact absurd rfl (hi ch)
  | @loop l i r hph hnew hr =>
      simp only [Resting, hph] at hd
      obtain ⟨d₁, t⟩ := r
      have hsteady := (runConnected_branch hd.2 hr).steady.abandoned
      cases t with
      | again l => exact hsteady
      | exit x => exact (leave_abandoned d₁ x).trans hsteady
  | commandDown c write hdown hnew =>
      rcases c with _ | ⟨emsg, body, deadline, ch⟩ | ⟨emsg, body, ch⟩ | ch <;> rfl
  | wake hph => rfl
  | refused now e hph _ => rfl
  | rejected now e hph _ => rfl
  | live now hph hc => rfl
  | @closed result hph => cases result <;> rfl

/-- A step adds to the ledger. -/
theorem step_log_append {i : Input} (h : d.step P i = some d') (hd : d.Resting) :
    ∃ es, d'.log = d.log ++ es :=
  Acts.log_append (step_acts h hd)

/-- What is acknowledged was taken. -/
theorem Reachable.took_of_acked (hd : Reachable P d) {ch : Chan} {res : Except Error Unit}
    (h : .acked ch res ∈ d.log) : ∃ c, .took c ∈ d.log ∧ c.isRequest = false ∧ c.chan = ch := by
  have hpos : 0 < d.log.countP (Effect.acks ch) :=
    List.countP_pos_iff.mpr ⟨_, h, by simp [Effect.acks]⟩
  rw [hd.balanced.ack] at hpos
  obtain ⟨e, he, htakes⟩ := List.countP_pos_iff.mp hpos
  cases e with
  | took c =>
      simp only [Effect.takesOther, Bool.and_eq_true, beq_iff_eq, Bool.not_eq_true'] at htakes
      exact ⟨c, he, htakes⟩
  | _ => cases htakes

/-- Nothing moves a driver that has returned. -/
theorem step_stopped {i : Input} (h : d.step P i = some d') {result : Except Error Unit}
    (hph : d.phase = .stopped result) : ∃ ch, i = .abandon ch := by
  cases i with
  | abandon ch => exact ⟨ch, rfl⟩
  | _ => simp [step, hph] at h

end SessionDriver

/-! ### Replies in the ledger -/

/-- The first answer on a channel stays the first. -/
theorem reply?_append {log es : List Effect} {ch : Chan} {r : Reply} (h : reply? log ch = some r) :
    reply? (log ++ es) ch = some r := by
  rw [reply?] at h ⊢
  rw [List.findSome?_append, h, Option.some_or]

/-- An answer is an entry of the ledger. -/
theorem mem_of_reply? {log : List Effect} {ch : Chan} {r : Reply} (h : reply? log ch = some r) :
    (∃ res, r = .message res ∧ .replied ch res true ∈ log) ∨
      ∃ res, r = .ack res ∧ .acked ch res ∈ log := by
  obtain ⟨e, he, hr⟩ := List.exists_of_findSome?_eq_some h
  cases e with
  | replied c res delivered =>
      cases delivered with
      | false => cases hr
      | true =>
          obtain ⟨rfl, hr'⟩ := Option.ite_none_right_eq_some.mp hr
          exact .inl ⟨res, (Option.some.inj hr').symm, he⟩
  | acked c res =>
      obtain ⟨rfl, hr'⟩ := Option.ite_none_right_eq_some.mp hr
      exact .inr ⟨res, (Option.some.inj hr').symm, he⟩
  | _ => cases hr

/-- An answer that came through is found. -/
theorem reply?_isSome {log : List Effect} {ch : Chan}
    (h : 0 < log.countP (Effect.resolves ch) ∨ 0 < log.countP (Effect.acks ch)) :
    ∃ r, reply? log ch = some r := by
  rw [← Option.isSome_iff_exists, reply?, List.findSome?_isSome_iff]
  rcases h with h | h
  · obtain ⟨e, he, hres⟩ := List.countP_pos_iff.mp h
    refine ⟨e, he, ?_⟩
    cases e with
    | replied c res delivered => simp_all [Effect.resolves, Effect.reply?]
    | _ => cases hres
  · obtain ⟨e, he, hack⟩ := List.countP_pos_iff.mp h
    refine ⟨e, he, ?_⟩
    cases e with
    | acked c res => simp_all [Effect.acks, Effect.reply?]
    | _ => cases hack

/-! ### The invariant -/

/-- A reply is of the kind that the command asks for. -/
def Reply.Fits (c : Command) : Reply → Prop
  | .message _ => c.isRequest
  | .ack _ => ¬ c.isRequest

/-- The stage of a call whose command went into the queue. -/
def HandleStage.wasSent : HandleStage → Bool
  | .sending => false
  | .returned .stopped => false
  | _ => true

/-- The stage of a call that was given up. -/
def HandleStage.gaveUp : HandleStage → Bool
  | .returned .timedOut => true
  | .cancelled => true
  | _ => false

namespace Handles

/-- What is true of a call by where it stands. -/
def Fate (w : Handles) (c : Command) : HandleStage → Prop
  | .sending => 0 < w.handles
  | .waiting => 0 < w.handles ∧ c ∈ w.sent
  | .returned .stopped => w.isStopped ∧ c ∉ w.sent
  | .returned .dropped => c ∈ w.sent ∧
      ((c.isRequest → JobIdsLeft w.driver.log) → w.isStopped ∧ c ∉ w.sent.take w.taken)
  | .returned .timedOut => c ∈ w.sent ∧ c.isRequest
  | .returned (.replied r) => c ∈ w.sent.take w.taken ∧ r.Fits c ∧
      reply? w.driver.log c.chan = some r
  | .cancelled => True

/-- The calls, the queue and the driver's ledger fit together. -/
structure Linked (P : Prost) (w : Handles) : Prop where
  driver : w.driver.Reachable P
  le : w.taken ≤ w.sent.length
  room : w.sent.length ≤ w.taken + commandCapacity
  fifo : (fromQueue w.driver.log).reduceOption = w.sent.take w.taken
  gone : none ∈ fromQueue w.driver.log → w.handles = 0 ∧ w.taken = w.sent.length
  distinct : (w.calls.map fun x => x.1.chan).Nodup
  once : (w.sent.map Command.chan).Nodup
  called : ∀ c ∈ w.sent, ∃ st, (c, st) ∈ w.calls ∧ st.wasSent
  abandoned : ∀ ch ∈ w.driver.abandoned, ∃ c st, (c, st) ∈ w.calls ∧ c.chan = ch ∧ st.gaveUp
  fates : ∀ c st, (c, st) ∈ w.calls → w.Fate c st

variable {P : Prost} {w w' : Handles} {n : Nat} {c : Command} {st st' : HandleStage}

/-! ### One call moves -/

/-- A channel belongs to one call. -/
theorem Linked.same (h : Linked P w) {x y : Command × HandleStage} (hx : x ∈ w.calls)
    (hy : y ∈ w.calls) (hchan : x.1.chan = y.1.chan) : x = y :=
  List.inj_on_of_nodup_map h.distinct hx hy hchan

/-- A call that goes on keeps its channel. -/
theorem map_chan_set (hn : w.calls[n]? = some (c, st)) :
    (w.calls.set n (c, st')).map (fun x => x.1.chan) = w.calls.map fun x => x.1.chan := by
  obtain ⟨hlt, hget⟩ := List.getElem?_eq_some_iff.mp hn
  rw [List.map_set]
  refine List.ext_getElem (by simp) fun i hi _ => ?_
  by_cases heq : n = i
  · subst heq
    simp [hget]
  · simp [heq]

/-- The other calls stay, and the channel of the one that moves is not theirs. -/
theorem Linked.mem_set (h : Linked P w) (hn : w.calls[n]? = some (c, st))
    (x : Command × HandleStage) :
    x ∈ w.calls.set n (c, st') ↔ x = (c, st') ∨ x ∈ w.calls ∧ x.1.chan ≠ c.chan := by
  obtain ⟨hlt, hget⟩ := List.getElem?_eq_some_iff.mp hn
  rw [List.mem_iff_getElem]
  constructor
  · rintro ⟨i, hi, rfl⟩
    rw [List.length_set] at hi
    by_cases heq : n = i
    · subst heq
      simp
    · rw [List.getElem_set_ne heq]
      refine .inr ⟨List.getElem_mem _, fun hchan => heq ?_⟩
      have hn' : n < (w.calls.map fun x => x.1.chan).length := by simpa
      have hi' : i < (w.calls.map fun x => x.1.chan).length := by simpa
      have hsame : (w.calls.map fun x => x.1.chan)[n] = (w.calls.map fun x => x.1.chan)[i] := by
        simp [hget, hchan]
      exact h.distinct.getElem_inj_iff.mp hsame
  · rintro (rfl | ⟨hx, hne⟩)
    · exact ⟨n, by simpa, by simp⟩
    · obtain ⟨i, hi, rfl⟩ := List.mem_iff_getElem.mp hx
      have heq : n ≠ i := by
        rintro rfl
        exact hne (by rw [hget])
      exact ⟨i, by simpa, by rw [List.getElem_set_ne heq]⟩

/-- What is true of a call stays true while everything else goes on. -/
theorem Fate.keep (h : w.Fate c st) (hhandles : st.isRunning → 0 < w'.handles)
    (hsent : ∀ c ∈ w.sent, c ∈ w'.sent)
    (htaken : ∀ c ∈ w.sent.take w.taken, c ∈ w'.sent.take w'.taken)
    (hstopped : w.isStopped → w'.isStopped ∧ w'.sent = w.sent ∧ w'.taken = w.taken)
    (hlog : ∃ es, w'.driver.log = w.driver.log ++ es) : w'.Fate c st := by
  obtain ⟨es, hlog⟩ := hlog
  rcases st with _ | _ | e | _
  · exact hhandles rfl
  · exact ⟨hhandles rfl, hsent c h.2⟩
  · cases e with
    | stopped =>
        obtain ⟨hstop, hnot⟩ := h
        obtain ⟨hstop', hsame, -⟩ := hstopped hstop
        exact ⟨hstop', hsame ▸ hnot⟩
    | dropped =>
        obtain ⟨hmem, hleft⟩ := h
        refine ⟨hsent c hmem, fun hleft' => ?_⟩
        rw [hlog] at hleft'
        obtain ⟨hstop, hnot⟩ := hleft fun hreq => (hleft' hreq).of_append
        obtain ⟨hstop', hsame, htaken'⟩ := hstopped hstop
        exact ⟨hstop', by rw [hsame, htaken']; exact hnot⟩
    | timedOut => exact ⟨hsent c h.1, h.2⟩
    | replied r =>
        obtain ⟨hmem, hfits, hreply⟩ := h
        exact ⟨htaken c hmem, hfits, hlog ▸ reply?_append hreply⟩
  · trivial

/-- A running call borrows a handle. -/
theorem Fate.handles (h : w.Fate c st) (hrunning : st.isRunning) : 0 < w.handles := by
  rcases st with _ | _ | e | _
  · exact h
  · exact h.1
  · cases hrunning
  · cases hrunning

/-- The calls that stay where they are. -/
theorem Linked.fates_set (h : Linked P w) (hn : w.calls[n]? = some (c, st))
    (hcalls : w'.calls = w.calls.set n (c, st')) (hkeep : ∀ c' st'', (c', st'') ∈ w.calls →
      c'.chan ≠ c.chan → w.Fate c' st'' → w'.Fate c' st'') (hown : w'.Fate c st') :
    ∀ c' st'', (c', st'') ∈ w'.calls → w'.Fate c' st'' := by
  intro c' st'' hmem
  rw [hcalls, h.mem_set hn] at hmem
  rcases hmem with heq | ⟨hmem, hne⟩
  · obtain ⟨rfl, rfl⟩ := Prod.mk.inj heq
    exact hown
  · exact hkeep c' st'' hmem hne (h.fates c' st'' hmem)

/-- A call that has not sent its command is not in the queue. -/
theorem Linked.not_sent (h : Linked P w) (hmem : (c, st) ∈ w.calls) (hst : st.wasSent = false)
    {c' : Command} (hc' : c' ∈ w.sent) : c'.chan ≠ c.chan := by
  intro hchan
  obtain ⟨st', hmem', hsent⟩ := h.called c' hc'
  obtain ⟨-, rfl⟩ := Prod.mk.inj (h.same hmem' hmem hchan)
  rw [hst] at hsent
  cases hsent

/-- The driver has taken what it answers. -/
theorem Linked.took (h : Linked P w) {c : Command} (hc : .took c ∈ w.driver.log) :
    c ∈ w.sent.take w.taken := by
  rw [← h.fifo, List.reduceOption_mem_iff]
  exact List.mem_filterMap.mpr ⟨_, hc, rfl⟩

/-- A command that the driver has fetched is in its ledger. -/
theorem Linked.took_of_mem (h : Linked P w) {c : Command} (hc : c ∈ w.sent.take w.taken) :
    .took c ∈ w.driver.log := by
  rw [← h.fifo, List.reduceOption_mem_iff] at hc
  obtain ⟨e, he, hq⟩ := List.mem_filterMap.mp hc
  cases e with
  | took c' =>
      obtain rfl := Option.some.inj (Option.some.inj hq)
      exact he
  | _ => cases hq

/-- Commands on one channel are the same. -/
theorem Linked.eq_of_chan (h : Linked P w) {c c' : Command} (hc : c ∈ w.sent) (hc' : c' ∈ w.sent)
    (hchan : c.chan = c'.chan) : c = c' :=
  List.inj_on_of_nodup_map h.once hc hc' hchan

/-! ### The moves keep the invariant -/

/-- A handle is cloned. -/
theorem Linked.clone (h : Linked P w) (hpos : 0 < w.handles) :
    Linked P { w with handles := w.handles + 1 } where
  driver := h.driver
  le := h.le
  room := h.room
  fifo := h.fifo
  gone := fun hgone => absurd (h.gone hgone).1 (Nat.ne_of_gt hpos)
  distinct := h.distinct
  once := h.once
  called := h.called
  abandoned := h.abandoned
  fates := fun c st hmem => (h.fates c st hmem).keep (fun _ => Nat.succ_pos _) (fun _ => id)
    (fun _ => id) (fun hstop => ⟨hstop, rfl, rfl⟩) ⟨[], (List.append_nil _).symm⟩

/-- A handle that no running call needs is dropped. -/
theorem Linked.drop (h : Linked P w) (hdrop : ∀ x ∈ w.calls, x.2.isRunning → 1 < w.handles) :
    Linked P { w with handles := w.handles - 1 } where
  driver := h.driver
  le := h.le
  room := h.room
  fifo := h.fifo
  gone := fun hgone => by
    obtain ⟨hnone, hall⟩ := h.gone hgone
    exact ⟨by simp [hnone], hall⟩
  distinct := h.distinct
  once := h.once
  called := h.called
  abandoned := h.abandoned
  fates := fun c st hmem => (h.fates c st hmem).keep
    (fun hrunning => Nat.sub_pos_of_lt (hdrop _ hmem hrunning)) (fun _ => id) (fun _ => id)
    (fun hstop => ⟨hstop, rfl, rfl⟩) ⟨[], (List.append_nil _).symm⟩

/-- A call begins on a new channel. -/
theorem Linked.call (h : Linked P w) (hpos : 0 < w.handles)
    (hnew : c.chan ∉ w.calls.map fun x => x.1.chan) :
    Linked P { w with calls := w.calls ++ [(c, .sending)] } where
  driver := h.driver
  le := h.le
  room := h.room
  fifo := h.fifo
  gone := h.gone
  distinct := by
    rw [List.map_append]
    exact List.nodup_append.mpr ⟨h.distinct, List.nodup_singleton _, by
      rintro a ha b hb rfl
      obtain rfl := List.mem_singleton.mp hb
      exact hnew ha⟩
  once := h.once
  called := fun c' hc' => by
    obtain ⟨st, hmem, hsent⟩ := h.called c' hc'
    exact ⟨st, List.mem_append_left _ hmem, hsent⟩
  abandoned := fun ch hch => by
    obtain ⟨c', st, hmem, hrest⟩ := h.abandoned ch hch
    exact ⟨c', st, List.mem_append_left _ hmem, hrest⟩
  fates := fun c' st hmem => by
    rcases List.mem_append.mp hmem with hmem | hmem
    · exact h.fates c' st hmem
    · obtain ⟨rfl, rfl⟩ := Prod.mk.inj (List.mem_singleton.mp hmem)
      exact hpos

/-- A call keeps its command and its channel. -/
theorem Linked.called_set (h : Linked P w) (hn : w.calls[n]? = some (c, st))
    (hsent : c ∈ w.sent → st'.wasSent) :
    ∀ c' ∈ w.sent, ∃ st'', (c', st'') ∈ w.calls.set n (c, st') ∧ st''.wasSent := by
  intro c' hc'
  obtain ⟨st'', hmem, hsent''⟩ := h.called c' hc'
  by_cases hchan : c'.chan = c.chan
  · obtain ⟨rfl, -⟩ := Prod.mk.inj (h.same hmem (List.mem_of_getElem? hn) hchan)
    exact ⟨st', (h.mem_set hn _).mpr (.inl rfl), hsent hc'⟩
  · exact ⟨st'', (h.mem_set hn _).mpr (.inr ⟨hmem, hchan⟩), hsent''⟩

/-- The callers of the abandoned channels stay gone when a call goes on. -/
theorem Linked.abandoned_set (h : Linked P w) (hn : w.calls[n]? = some (c, st))
    (hst : st.isRunning) : ∀ ch ∈ w.driver.abandoned,
      ∃ c' st'', (c', st'') ∈ w.calls.set n (c, st') ∧ c'.chan = ch ∧ st''.gaveUp := by
  intro ch hch
  obtain ⟨c', st'', hmem, rfl, hgave⟩ := h.abandoned ch hch
  refine ⟨c', st'', (h.mem_set hn _).mpr (.inr ⟨hmem, fun hchan => ?_⟩), rfl, hgave⟩
  obtain ⟨-, rfl⟩ := Prod.mk.inj (h.same hmem (List.mem_of_getElem? hn) hchan)
  rcases st'' with _ | _ | e | _ <;> simp_all [HandleStage.gaveUp, HandleStage.isRunning]

/-- A call puts its command into the queue. -/
theorem Linked.send (h : Linked P w) (hn : w.calls[n]? = some (c, .sending))
    (hopen : w.isStopped = false) (hroom : w.sent.length < w.taken + commandCapacity) :
    Linked P { w.goto n c .waiting with sent := w.sent ++ [c] } where
  driver := h.driver
  le := by
    have := h.le
    simp only [goto, List.length_append, List.length_singleton]
    omega
  room := by
    simp only [goto, List.length_append, List.length_singleton]
    omega
  fifo := by
    simp only [goto]
    rw [h.fifo, List.take_append_of_le_length h.le]
  gone := fun hgone => absurd (h.gone hgone).1
    (Nat.ne_of_gt (h.fates c .sending (List.mem_of_getElem? hn)))
  distinct := by
    simp only [goto, map_chan_set hn]
    exact h.distinct
  once := by
    rw [List.map_append]
    refine List.nodup_append.mpr ⟨h.once, List.nodup_singleton _, ?_⟩
    intro ch hch ch' hch' heq
    obtain ⟨c', hc', rfl⟩ := List.mem_map.mp hch
    obtain rfl := List.mem_singleton.mp hch'
    exact h.not_sent (List.mem_of_getElem? hn) rfl hc' heq
  called := fun c' hc' => by
    rcases List.mem_append.mp hc' with hc' | hc'
    · exact h.called_set hn (fun _ => rfl) c' hc'
    · obtain rfl := List.mem_singleton.mp hc'
      exact ⟨.waiting, (h.mem_set hn _).mpr (.inl rfl), rfl⟩
  abandoned := h.abandoned_set hn rfl
  fates := by
    refine h.fates_set hn rfl ?_ ⟨h.fates c _ (List.mem_of_getElem? hn), by simp⟩
    intro c' st' hmem _ hfate
    refine hfate.keep ?_ (fun _ => List.mem_append_left _) ?_ ?_ ⟨[], (List.append_nil _).symm⟩
    · exact fun _ => h.fates c _ (List.mem_of_getElem? hn)
    · intro c'' hc''
      simp only [goto]
      rw [List.take_append_of_le_length h.le]
      exact hc''
    · intro hstop
      rw [hopen] at hstop
      cases hstop

/-- What has come through a channel answers the command that the driver took on it. -/
theorem Linked.answers (h : Linked P w) (hc : c ∈ w.sent) {r : Reply}
    (hr : reply? w.driver.log c.chan = some r) : c ∈ w.sent.take w.taken ∧ r.Fits c := by
  have hbal := h.driver.balanced
  have hown {c' : Command} (htook : .took c' ∈ w.driver.log) (hchan : c'.chan = c.chan) :
      c' = c ∧ c ∈ w.sent.take w.taken := by
    have hmem := h.took htook
    obtain rfl := h.eq_of_chan (List.mem_of_mem_take hmem) hc hchan
    exact ⟨rfl, hmem⟩
  rcases mem_of_reply? hr with ⟨res, rfl, hmem⟩ | ⟨res, rfl, hmem⟩
  · have hpos : 0 < w.driver.log.countP (Effect.settles c.chan) :=
      List.countP_pos_iff.mpr ⟨_, hmem, by simp [Effect.settles]⟩
    have hle := hbal.request_le c.chan
    obtain ⟨e, he, htakes⟩ :=
      List.countP_pos_iff.mp (show 0 < w.driver.log.countP (Effect.takesRequest c.chan) by omega)
    cases e with
    | took c' =>
        simp only [Effect.takesRequest, Bool.and_eq_true, beq_iff_eq] at htakes
        obtain ⟨rfl, htaken⟩ := hown he htakes.2
        exact ⟨htaken, htakes.1⟩
    | _ => cases htakes
  · obtain ⟨c', htook, hnot, hchan⟩ := h.driver.took_of_acked hmem
    obtain ⟨rfl, htaken⟩ := hown htook hchan
    exact ⟨htaken, by simp [Reply.Fits, hnot]⟩

/-- A call that still waits for a command that was taken has an answer, or the driver holds its
request. -/
theorem Linked.answered (h : Linked P w) (hmem : (c, .waiting) ∈ w.calls)
    (htaken : c ∈ w.sent.take w.taken) (hleft : c.isRequest → JobIdsLeft w.driver.log)
    (hheld : SessionDriver.held w.driver.pending c.chan = 0) :
    ∃ r, reply? w.driver.log c.chan = some r := by
  have hbal := h.driver.balanced
  have htook := h.took_of_mem htaken
  apply reply?_isSome
  rcases hreq : c.isRequest with _ | _
  · have hpos : 0 < w.driver.log.countP (Effect.takesOther c.chan) :=
      List.countP_pos_iff.mpr ⟨_, htook, by simp [Effect.takesOther, hreq]⟩
    rw [← hbal.ack] at hpos
    exact .inr hpos
  · have hpos : 0 < w.driver.log.countP (Effect.takesRequest c.chan) :=
      List.countP_pos_iff.mpr ⟨_, htook, by simp [Effect.takesRequest, hreq]⟩
    have hrequest := hbal.request (hleft hreq) c.chan
    have hsettles := countP_settles c.chan w.driver.log
    have hdrops : w.driver.log.countP (Effect.drops c.chan) = 0 := by
      refine List.countP_eq_zero.mpr fun e he hdrops => ?_
      obtain ⟨c', st', hmem', hchan, hgave⟩ :=
        h.abandoned _ (h.driver.replies.gone c.chan e he hdrops)
      obtain ⟨-, rfl⟩ := Prod.mk.inj (h.same hmem' hmem hchan)
      cases hgave
    exact .inl (by omega)

/-- A driver that has stopped holds no request. -/
theorem Linked.held_of_stopped (h : Linked P w) (hstop : w.isStopped) (ch : Chan) :
    SessionDriver.held w.driver.pending ch = 0 := by
  have hrest := h.driver.resting
  rw [isStopped] at hstop
  split at hstop
  · rename_i result hph
    simp only [SessionDriver.Resting, hph] at hrest
    simp [hrest, SessionDriver.held]
  · cases hstop

/-- A call ends as its fate says. -/
theorem Linked.ends (h : Linked P w) (hn : w.calls[n]? = some (c, st)) {e : HandleEnd}
    (hend : w.Ends c st e) : Linked P (w.goto n c (.returned e)) := by
  have hmem := List.mem_of_getElem? hn
  have hrunning : st.isRunning := by cases hend <;> rfl
  have hfate := h.fates c st hmem
  have hown : w.Fate c (.returned e) ∧ (c ∈ w.sent → (HandleStage.returned e).wasSent) := by
    cases hend with
    | stopped hstop =>
        have hnot : c ∉ w.sent := fun hc => h.not_sent hmem rfl hc rfl
        exact ⟨⟨hstop, hnot⟩, fun hc => absurd hc hnot⟩
    | replied hr =>
        obtain ⟨htaken, hfits⟩ := h.answers hfate.2 hr
        exact ⟨⟨htaken, hfits, hr⟩, fun _ => rfl⟩
    | dropped hnone hlost =>
        refine ⟨⟨hfate.2, fun hleft => ?_⟩, fun _ => rfl⟩
        have hnot (hheld : SessionDriver.held w.driver.pending c.chan = 0) :
            c ∉ w.sent.take w.taken := by
          intro htaken
          obtain ⟨r, hr⟩ := h.answered hmem htaken hleft hheld
          rw [hnone] at hr
          cases hr
        rcases hstop : w.isStopped with _ | _
        · simp only [holdsSender, hstop, Bool.not_false, Bool.true_and, Bool.or_eq_false_iff,
            decide_eq_false_iff_not, Nat.not_lt, Nat.le_zero] at hlost
          have hsent : c ∈ w.sent.take w.taken ++ w.sent.drop w.taken := by
            rw [List.take_append_drop]
            exact hfate.2
          rcases List.mem_append.mp hsent with htaken | hqueue
          · exact absurd htaken (hnot hlost.2)
          · exact absurd hqueue hlost.1
        · exact ⟨rfl, hnot (h.held_of_stopped hstop c.chan)⟩
  obtain ⟨hown, hsent⟩ := hown
  exact
    { driver := h.driver
      le := h.le
      room := h.room
      fifo := h.fifo
      gone := h.gone
      distinct := by
        simp only [goto, map_chan_set hn]
        exact h.distinct
      once := h.once
      called := h.called_set hn hsent
      abandoned := h.abandoned_set hn hrunning
      fates := h.fates_set hn rfl (fun _ _ _ _ hfate => hfate) hown }

/-- A caller goes away, and abandons the channel. -/
theorem Linked.givesUp (h : Linked P w) (hn : w.calls[n]? = some (c, st))
    (hgives : GivesUp c st st') : Linked P ((w.abandon c).goto n c st') := by
  have hmem := List.mem_of_getElem? hn
  have hrunning : st.isRunning := by
    cases hgives with
    | timedOut => rfl
    | cancelled hst => exact hst
  have hgave : st'.gaveUp ∧ st'.wasSent := by cases hgives <;> exact ⟨rfl, rfl⟩
  have hstep : Ledger.exec (SessionDriver.step P) w.driver [.abandon c.chan] =
      some (w.abandon c).driver := rfl
  exact
    { driver := h.driver.run hstep
      le := h.le
      room := h.room
      fifo := h.fifo
      gone := h.gone
      distinct := by
        simp only [goto, abandon, map_chan_set hn]
        exact h.distinct
      once := h.once
      called := h.called_set hn fun _ => hgave.2
      abandoned := by
        intro ch hch
        rcases List.mem_cons.mp hch with rfl | hch
        · exact ⟨c, st', (h.mem_set hn _).mpr (.inl rfl), rfl, hgave.1⟩
        · exact h.abandoned_set hn hrunning ch hch
      fates := by
        refine h.fates_set hn rfl (fun _ _ _ _ hfate => hfate) ?_
        have hfate := h.fates c st hmem
        cases hgives with
        | timedOut hreq => exact ⟨hfate.2, hreq⟩
        | cancelled => trivial }

/-- What the driver fetches is no abandoned channel. -/
theorem Fetches.not_abandon {i : Input} {taken : Nat} (h : w.Fetches i taken) (ch : Chan) :
    i ≠ .abandon ch := by
  rintro rfl
  cases h with
  | own hown => cases hown

/-- What the driver gets from its queue is what comes next there. -/
theorem Fetches.spec {i : Input} {taken : Nat} (h : w.Fetches i taken)
    (hle : w.taken ≤ w.sent.length) :
    w.taken ≤ taken ∧ taken ≤ w.sent.length ∧
      w.sent.take taken = w.sent.take w.taken ++ i.queued.reduceOption ∧
      (none ∈ i.queued → w.handles = 0 ∧ w.taken = w.sent.length) ∧
      (w.taken = w.sent.length → taken = w.taken) := by
  cases h with
  | @command c write hc =>
      obtain ⟨hlt, -⟩ := List.getElem?_eq_some_iff.mp hc
      refine ⟨Nat.le_succ _, hlt, ?_, by simp [Input.queued], fun h => absurd h (Nat.ne_of_lt hlt)⟩
      rw [List.take_add_one, hc]
      rfl
  | gone hall hnone =>
      refine ⟨le_rfl, hle, ?_, fun _ => ⟨hnone, hall⟩, fun _ => rfl⟩
      simp [Input.queued]
  | own hown =>
      have hnil : i.queued = [] := by cases i <;> first | rfl | cases hown
      rw [hnil]
      exact ⟨le_rfl, hle, by simp, by simp, fun _ => rfl⟩

/-- The driver takes a step, with the command it fetches for it. -/
theorem Linked.drives (h : Linked P w) {i : Input} {d : SessionDriver} {taken : Nat}
    (hstep : w.driver.step P i = some d) (hfetch : w.Fetches i taken) :
    Linked P { w with driver := d, taken := taken } := by
  obtain ⟨hle, hlen, htake, hend, hlast⟩ := hfetch.spec h.le
  have hrest := h.driver.resting
  have hqueue := SessionDriver.step_fromQueue hstep hrest
  have hexec : Ledger.exec (SessionDriver.step P) w.driver [i] = some d :=
    Ledger.exec_cons_eq_some.mpr ⟨d, hstep, rfl⟩
  exact
    { driver := h.driver.run hexec
      le := hlen
      room := le_trans h.room (Nat.add_le_add_right hle _)
      fifo := by rw [hqueue, List.reduceOption_append, h.fifo, htake]
      gone := by
        intro hgone
        rw [hqueue] at hgone
        have hwas : w.handles = 0 ∧ w.taken = w.sent.length :=
          (List.mem_append.mp hgone).elim h.gone hend
        exact ⟨hwas.1, (hlast hwas.2).trans hwas.2⟩
      distinct := h.distinct
      once := h.once
      called := h.called
      abandoned := by
        rw [SessionDriver.step_abandoned hstep hrest hfetch.not_abandon]
        exact h.abandoned
      fates := by
        intro c st hmem
        have hfate := h.fates c st hmem
        refine hfate.keep hfate.handles (fun _ => id) ?_ ?_
          (SessionDriver.step_log_append hstep hrest)
        · intro c' hc'
          rw [htake]
          exact List.mem_append_left _ hc'
        · intro hstop
          rw [isStopped] at hstop
          split at hstop
          · rename_i result hph
            obtain ⟨ch, rfl⟩ := SessionDriver.step_stopped hstep hph
            exact absurd rfl (hfetch.not_abandon ch)
          · cases hstop }

/-- **Step lemma.** The calls, the queue and the ledger fit together after every move. -/
theorem Linked.makes (h : Linked P w) (hmakes : Makes P w w') : Linked P w' := by
  cases hmakes with
  | clone hpos => exact h.clone hpos
  | drop hdrop => exact h.drop hdrop
  | call hpos hnew => exact h.call hpos hnew
  | send hn hopen hroom => exact h.send hn hopen hroom
  | ends hn hend => exact h.ends hn hend
  | givesUp hn hgives => exact h.givesUp hn hgives
  | drives hstep hfetch => exact h.drives hstep hfetch

/-- **The two sides fit together in every run.** -/
theorem Reachable.linked (h : Reachable P w) : Linked P w := by
  obtain ⟨now, items, w₀, ms, hspawn, hexec⟩ := h
  refine Ledger.exec_invariant (fun _ _ _ hw hstep => hw.makes (step_makes hstep)) hexec ?_
  obtain ⟨d, hd, rfl⟩ := Option.map_eq_some_iff.mp hspawn
  obtain ⟨c, -, hs⟩ := SessionDriver.spawn_spec hd
  have hnone : fromQueue d.log = [] := by
    rw [hs.log]
    rfl
  exact
    { driver := .of_spawn hd
      le := le_rfl
      room := Nat.zero_le _
      fifo := by rw [hnone]; rfl
      gone := by simp [hnone]
      distinct := List.nodup_nil
      once := List.nodup_nil
      called := by simp
      abandoned := by simp [hs.abandoned]
      fates := by simp }

/-- **Commands are taken in order, and calls are told the truth.** However the calls on any number
of handles are interleaved with each other and with the driver, given up, or cut off by its end: the
driver takes the commands in the order in which they were sent and none of them twice, at most
`commandCapacity` wait, and a call returns what was answered to its own command. If it returns that
the driver stopped, the driver has, and never got the command; if it returns that the driver dropped
the command, the driver has stopped without having taken it. -/
theorem calls_keep_order (h : Reachable P w) :
    ((fromQueue w.driver.log).reduceOption = w.sent.take w.taken ∧
        (w.sent.map Command.chan).Nodup ∧ w.queue.length ≤ commandCapacity) ∧
      ∀ c e, (c, .returned e) ∈ w.calls → w.Fate c (.returned e) := by
  have hw := h.linked
  refine ⟨⟨hw.fifo, hw.once, ?_⟩, fun c e => hw.fates c (.returned e)⟩
  have hroom := hw.room
  rw [queue, List.length_drop]
  omega

end Handles

/-- A session with its first handle. -/
def Sample.handle : Handles :=
  (Handles.spawn Sample.prost 0 [Sample.item Sample.logonFrame]).get (by decide)

/-- Two calls on two handles, both of them answered. -/
def Sample.served : Handles :=
  (Ledger.exec (Handles.step Sample.prost) Sample.handle
    [.call (.request 151 [] (fromSecs 30) 7), .clone, .call (.notify 742 [1] 8), .send 1, .send 0,
      .take none, .take none, .drive .poll,
      .drive (.item 1 (Sample.item (Sample.frame 147 1 []))), .receive 0, .receive 1]).get
    (by decide)

/-- The served calls of the examples are reachable. -/
theorem Sample.reachable_served : Sample.served.Reachable Sample.prost :=
  ⟨0, [Sample.item Sample.logonFrame], Sample.handle, _, (Option.some_get _).symm,
    (Option.some_get _).symm⟩

/-- Two calls through two handles: the queue has them in order, and both return. -/
theorem Handles.calls_keep_order_served :
    (fromQueue Sample.served.driver.log).reduceOption =
        [.notify 742 [1] 8, .request 151 [] (fromSecs 30) 7] ∧
      Sample.served.Fate (.notify 742 [1] 8) (.returned (.replied (.ack (.ok ())))) := by
  obtain ⟨⟨hfifo, -, -⟩, hfates⟩ := Handles.calls_keep_order Sample.reachable_served
  exact ⟨hfifo.trans (by decide), hfates _ _ (by decide)⟩

end Steamroids
