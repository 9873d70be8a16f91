import Steamroids.Acts

/-!
# Every Decoded Message is Handled Once

The messages of a connection pass through two owners and a future that is dropped and
created anew at every turn of the driver's loop. This module shows that none is lost,
repeated or reordered on the way. For each connection of a session, the items its socket
yielded are in the ledger (`itemsOf`), and so are the messages that the driver took from it
(`takenOf`): the decoded prefix of the items is what the logon used up, followed by what
was taken, followed by what still waits in the inbox (`Delivery`).

## Main results

* `establish_spec`: the inbox of an accepted connection is what its logon left over.
* `Delivery.act`, `Reachable.delivery`: the invariant.
* `decoded_messages_handled_once`: the whole statement, over every connection of every run.
-/

namespace Steamroids

/-! ### Reading the ledger -/

namespace Effect

/-- The items that a ledger entry adds to the stream of connection `conn`. -/
def items (conn : Nat) : Effect → List WsItem
  | .adopted c its => if c = conn then its else []
  | .yielded c it => if c = conn then [it] else []
  | _ => []

/-- The message that a ledger entry disposes of. -/
def arrival? : Effect → Option Arrival
  | .replied _ (.ok a) _ => some a
  | .broadcast a => some a
  | .evicted a => some a
  | _ => none

/-- The `ClientLoggedOff` that a ledger entry ends the connected loop with. -/
def eviction? : Effect → Option Arrival
  | .evicted a => some a
  | _ => none

/-- The message that a ledger entry shows to have gone through `dispatch`. -/
def dispatch? : Effect → Option Arrival
  | .replied _ (.ok a) _ => some a
  | .broadcast a => some a
  | _ => none

/-- An effect that has no part in reading. -/
def isIdle : Effect → Bool
  | .adopted _ _ => false
  | .yielded _ _ => false
  | .replied _ (.ok _) _ => false
  | .broadcast _ => false
  | .evicted _ => false
  | _ => true

end Effect

/-- The items that connection `conn` has yielded. -/
def itemsOf (conn : Nat) (log : List Effect) : List WsItem :=
  log.flatMap (Effect.items conn)

/-- The messages the driver has taken, as it stamped them. -/
def taken (log : List Effect) : List Arrival := log.filterMap Effect.arrival?

/-- The messages the driver has taken from connection `conn`. -/
def takenOf (conn : Nat) (log : List Effect) : List SteamMessage :=
  ((taken log).filter fun a => a.conn = conn).map Arrival.msg

/-- The messages of connection `conn` that the connected loop read as a logoff. -/
def evictionsOf (conn : Nat) (log : List Effect) : List Arrival :=
  (log.filterMap Effect.eviction?).filter fun a => a.conn = conn

/-- The messages that have gone through `dispatch`. -/
def dispatched (log : List Effect) : List Arrival := log.filterMap Effect.dispatch?

/-- The items of two stretches follow one another. -/
theorem itemsOf_append (conn : Nat) (log es : List Effect) :
    itemsOf conn (log ++ es) = itemsOf conn log ++ itemsOf conn es :=
  List.flatMap_append

/-- What is taken in two stretches follows one another. -/
theorem taken_append (log es : List Effect) :
    taken (log ++ es) = taken log ++ taken es :=
  List.filterMap_append

/-- The same for one connection. -/
theorem takenOf_append (conn : Nat) (log es : List Effect) :
    takenOf conn (log ++ es) = takenOf conn log ++ takenOf conn es := by
  simp [takenOf, taken_append]

/-- The evictions of two stretches follow one another. -/
theorem evictionsOf_append (conn : Nat) (log es : List Effect) :
    evictionsOf conn (log ++ es) = evictionsOf conn log ++ evictionsOf conn es := by
  simp [evictionsOf]

/-- A message that was taken went through `dispatch` or was read as a logoff. -/
theorem count_taken (a : Arrival) (log : List Effect) :
    (taken log).count a = (dispatched log).count a + (log.filterMap Effect.eviction?).count a := by
  induction log with
  | nil => rfl
  | cons e log ih =>
      have hcons : ∀ f : Effect → Option Arrival,
          ((e :: log).filterMap f).count a = (f e).toList.count a + (log.filterMap f).count a := by
        intro f
        rcases hf : f e with _ | b
        · simp [hf]
        · simp [hf, List.count_cons, Nat.add_comm]
      have he : e.arrival?.toList.count a =
          e.dispatch?.toList.count a + e.eviction?.toList.count a := by
        cases e with
        | replied ch res delivered => cases res <;> rfl
        | evicted b => exact (Nat.zero_add _).symm
        | _ => rfl
      simp only [taken, dispatched, hcons] at ih ⊢
      omega

/-- Idle effects add to no stream and dispose of no message. -/
theorem idle_projections {es : List Effect} (h : ∀ e ∈ es, e.isIdle) (conn : Nat) :
    itemsOf conn es = [] ∧ taken es = [] ∧ evictionsOf conn es = [] := by
  induction es with
  | nil => exact ⟨rfl, rfl, rfl⟩
  | cons e es ih =>
      obtain ⟨h₁, h₂, h₃⟩ := ih fun e' he' => h e' (List.mem_cons_of_mem e he')
      have he := h e List.mem_cons_self
      have hproj : e.items conn = [] ∧ e.arrival? = none ∧ e.eviction? = none := by
        cases e with
        | replied ch res delivered =>
            cases res
            · exact ⟨rfl, rfl, rfl⟩
            · cases he
        | _ => first | exact ⟨rfl, rfl, rfl⟩ | cases he
      refine ⟨?_, ?_, ?_⟩
      · simpa [itemsOf, hproj.1] using h₁
      · simpa [taken, hproj.2.1] using h₂
      · simpa [evictionsOf, hproj.2.2] using h₃

/-! ### What a logon uses up -/

/-- `msgs` begins with what a logon uses up, through the first message that answers it;
`rest` is what follows. -/
def AfterLogon (msgs rest : List SteamMessage) : Prop :=
  ∃ skipped answer, msgs = skipped ++ answer :: rest ∧
    (∀ m ∈ skipped, m.answersLogon = false) ∧ answer.answersLogon = true

/-- What comes later comes after the logon. -/
theorem AfterLogon.append {msgs rest : List SteamMessage} (h : AfterLogon msgs rest)
    (more : List SteamMessage) : AfterLogon (msgs ++ more) (rest ++ more) := by
  obtain ⟨skipped, answer, rfl, hskip, hans⟩ := h
  exact ⟨skipped, answer, by simp, hskip, hans⟩

namespace SessionDriver

variable {P : Prost} {d d' : SessionDriver}

/-- An accepted connection has read an open stream through the answer to its logon, and its
inbox holds the rest. -/
theorem establish_spec {items : List WsItem} {c : CmConnection × LoggedOn}
    (h : establish P items = some c) :
    StreamOpen P items ∧ AfterLogon (decodedPrefix P items) c.1.inbox := by
  obtain ⟨-, skipped, answer, hopen, hdec, hskip, hans, -⟩ := establish_answered h
  exact ⟨hopen, skipped, answer, hdec, hskip, hans⟩

/-! ### The invariant -/

/-- What still waits to be taken from connection `conn`. -/
def waiting (d : SessionDriver) (conn : Nat) : List SteamMessage :=
  if conn = d.conn then d.inbox else []

/-- Every connection of the session is read in order and without loss. -/
structure Delivery (P : Prost) (d : SessionDriver) : Prop where
  stream : ∀ c ≤ d.conn, AfterLogon (decodedPrefix P (itemsOf c d.log))
    (takenOf c d.log ++ d.waiting c)
  streamOpen : ∀ l, d.phase = .connected l → StreamOpen P (itemsOf d.conn d.log)
  future : ∀ c, d.conn < c →
    itemsOf c d.log = [] ∧ takenOf c d.log = [] ∧ evictionsOf c d.log = []
  numbers : (taken d.log).map Arrival.number = List.range d.arrivals
  evictedOnce : ∀ c, (evictionsOf c d.log).length ≤ 1
  notEvicted : ∀ l, d.phase = .connected l → evictionsOf d.conn d.log = []

/-- Idle effects keep the invariant. -/
theorem Delivery.idle (h : Delivery P d) {es : List Effect} (hlog : d'.log = d.log ++ es)
    (hes : ∀ e ∈ es, e.isIdle) (hconn : d'.conn = d.conn) (hin : d'.inbox = d.inbox)
    (harr : d'.arrivals = d.arrivals)
    (hph : ∀ l, d'.phase = .connected l → ∃ l', d.phase = .connected l') : Delivery P d' := by
  have hitems : ∀ c, itemsOf c d'.log = itemsOf c d.log := by
    intro c
    rw [hlog, itemsOf_append, (idle_projections hes c).1, List.append_nil]
  have harrs : taken d'.log = taken d.log := by
    rw [hlog, taken_append, (idle_projections hes 0).2.1, List.append_nil]
  have hevs : ∀ c, evictionsOf c d'.log = evictionsOf c d.log := by
    intro c
    rw [hlog, evictionsOf_append, (idle_projections hes c).2.2, List.append_nil]
  have htaken : ∀ c, takenOf c d'.log = takenOf c d.log := by
    intro c
    rw [takenOf, harrs, takenOf]
  have hwait : ∀ c, d'.waiting c = d.waiting c := by
    intro c
    rw [waiting, waiting, hconn, hin]
  refine ⟨?_, ?_, ?_, ?_, ?_, ?_⟩
  · intro c hc
    rw [hitems, htaken, hwait]
    exact h.stream c (hconn ▸ hc)
  · intro l hl
    obtain ⟨l', hl'⟩ := hph l hl
    rw [hconn, hitems]
    exact h.streamOpen l' hl'
  · intro c hc
    rw [hitems, htaken, hevs]
    exact h.future c (hconn ▸ hc)
  · rw [harrs, harr]
    exact h.numbers
  · intro c
    rw [hevs]
    exact h.evictedOnce c
  · intro l hl
    obtain ⟨l', hl'⟩ := hph l hl
    rw [hconn, hevs]
    exact h.notEvicted l' hl'

/-- Taking the next message of the inbox keeps the invariant, if the loop is left when the
message is read as a logoff. -/
theorem Delivery.pop (h : Delivery P d) {msg : SteamMessage} {rest : List SteamMessage}
    (hin : d.inbox = msg :: rest) {es : List Effect} (hlog : d'.log = d.log ++ es)
    (hitems : ∀ c, itemsOf c es = []) (harrs : taken es = [d.arrival msg])
    (hconn : d'.conn = d.conn) (hin' : d'.inbox = rest) (harr : d'.arrivals = d.arrivals + 1)
    (hev : ((∀ c, evictionsOf c es = []) ∧
        ∀ l, d'.phase = .connected l → ∃ l', d.phase = .connected l') ∨
      (evictionsOf d.conn es = [d.arrival msg] ∧ (∀ c, c ≠ d.conn → evictionsOf c es = []) ∧
        (∃ l, d.phase = .connected l) ∧ ∀ l, d'.phase ≠ .connected l)) : Delivery P d' := by
  have hitems' : ∀ c, itemsOf c d'.log = itemsOf c d.log := by
    intro c
    rw [hlog, itemsOf_append, hitems, List.append_nil]
  have htaken : ∀ c, takenOf c d'.log =
      takenOf c d.log ++ if c = d.conn then [msg] else [] := by
    intro c
    rw [hlog, takenOf_append, takenOf, takenOf, harrs]
    by_cases hc : c = d.conn
    · simp [hc, arrival]
    · simp [hc, arrival, Ne.symm hc]
  refine ⟨?_, ?_, ?_, ?_, ?_, ?_⟩
  · intro c hc
    have hs := h.stream c (hconn ▸ hc)
    rw [hitems', htaken]
    by_cases hcc : c = d.conn
    · simpa [waiting, hcc, hconn, hin, hin'] using hs
    · simpa [waiting, hcc, hconn] using hs
  · intro l hl
    rw [hconn, hitems']
    rcases hev with ⟨-, hph⟩ | ⟨-, -, -, hph⟩
    · obtain ⟨l', hl'⟩ := hph l hl
      exact h.streamOpen l' hl'
    · exact absurd hl (hph l)
  · intro c hc
    rw [hconn] at hc
    obtain ⟨h₁, h₂, h₃⟩ := h.future c hc
    have hne : c ≠ d.conn := by omega
    rw [hitems', htaken, hlog, evictionsOf_append, h₁, h₂, h₃]
    refine ⟨rfl, by simp [hne], ?_⟩
    rcases hev with ⟨he, -⟩ | ⟨-, he, -, -⟩
    · rw [he, List.nil_append]
    · rw [he c hne, List.nil_append]
  · rw [hlog, taken_append, harrs, List.map_append, h.numbers, harr, List.range_succ]
    rfl
  · intro c
    rw [hlog, evictionsOf_append, List.length_append]
    rcases hev with ⟨he, -⟩ | ⟨he, hother, ⟨l, hl⟩, -⟩
    · rw [he]
      exact h.evictedOnce c
    · by_cases hc : c = d.conn
      · rw [hc, h.notEvicted l hl, he]
        rfl
      · rw [hother c hc]
        exact h.evictedOnce c
  · intro l hl
    rcases hev with ⟨he, hph⟩ | ⟨-, -, -, hph⟩
    · obtain ⟨l', hl'⟩ := hph l hl
      rw [hconn, hlog, evictionsOf_append, he, h.notEvicted l' hl', List.nil_append]
    · exact absurd hl (hph l)

/-- An item that the connected loop reads changes the stream of the current connection
only, and disposes of no message. -/
theorem yielded_projections (conn : Nat) (it : WsItem) :
    (∀ c, itemsOf c [.yielded conn it] = if c = conn then [it] else []) ∧
      taken [.yielded conn it] = [] ∧ ∀ c, evictionsOf c [.yielded conn it] = [] := by
  refine ⟨?_, rfl, fun _ => rfl⟩
  intro c
  by_cases hc : c = conn
  · simp [itemsOf, Effect.items, hc]
  · simp [itemsOf, Effect.items, hc, Ne.symm hc]

/-- Reading an item with an empty inbox keeps the invariant, if an item that ends the
stream ends the loop. -/
theorem Delivery.yielded (h : Delivery P d) {l : ConnectedLoop} {it : WsItem}
    (hph : d.phase = .connected l) (hin : d.inbox = [])
    (hlog : d'.log = d.log ++ [.yielded d.conn it]) (hconn : d'.conn = d.conn)
    (harr : d'.arrivals = d.arrivals) (hin' : d'.inbox = (itemMessages P it).getD [])
    (hph' : itemMessages P it = none → ∀ l, d'.phase ≠ .connected l) : Delivery P d' := by
  have hopen := h.streamOpen l hph
  obtain ⟨hitems, htaken₁, hevs₁⟩ := yielded_projections d.conn it
  have hitems' : ∀ c, itemsOf c d'.log =
      itemsOf c d.log ++ if c = d.conn then [it] else [] := by
    intro c
    rw [hlog, itemsOf_append, hitems]
  have htaken : taken d'.log = taken d.log := by
    rw [hlog, taken_append, htaken₁, List.append_nil]
  have htakenOf : ∀ c, takenOf c d'.log = takenOf c d.log := by
    intro c
    rw [takenOf, htaken, takenOf]
  have hevs : ∀ c, evictionsOf c d'.log = evictionsOf c d.log := by
    intro c
    rw [hlog, evictionsOf_append, hevs₁, List.append_nil]
  refine ⟨?_, ?_, ?_, ?_, ?_, ?_⟩
  · intro c hc
    have hs := h.stream c (hconn ▸ hc)
    rw [hitems', htakenOf]
    by_cases hcc : c = d.conn
    · subst hcc
      simp only [waiting, hconn, if_true, hin, List.append_nil, hin'] at hs ⊢
      rcases hit : itemMessages P it with _ | msgs
      · rw [decodedPrefix_append_of_none hopen hit []]
        simpa using hs
      · rw [decodedPrefix_concat hopen hit]
        exact hs.append msgs
    · simpa [waiting, hcc, hconn] using hs
  · intro l' hl'
    rcases hit : itemMessages P it with _ | msgs
    · exact absurd hl' (hph' hit l')
    · rw [hconn, hitems', if_pos rfl]
      exact hopen.concat hit
  · intro c hc
    rw [hconn] at hc
    obtain ⟨h₁, h₂, h₃⟩ := h.future c hc
    have hne : c ≠ d.conn := by omega
    rw [hitems', htakenOf, hevs, h₁, h₂, h₃]
    simp [hne]
  · rw [htaken, harr]
    exact h.numbers
  · intro c
    rw [hevs]
    exact h.evictedOnce c
  · intro l' _
    rw [hconn, hevs]
    exact h.notEvicted l hph

/-- Taking over a new connection keeps the invariant: the old one has been read out. -/
theorem Delivery.adopted (h : Delivery P d) {items : List WsItem}
    {c : CmConnection × LoggedOn} (hc : establish P items = some c) (hin : d.inbox = [])
    (hlog : d'.log = d.log ++ [.adopted (d.conn + 1) items, .cleared,
      .published (.loggedOn c.1.steamId)])
    (hconn : d'.conn = d.conn + 1) (harr : d'.arrivals = d.arrivals)
    (hin' : d'.inbox = c.1.inbox) : Delivery P d' := by
  obtain ⟨hopen, hafter⟩ := establish_spec hc
  obtain ⟨hno, htno, hevno⟩ := h.future (d.conn + 1) (Nat.lt_succ_self _)
  have hitems : ∀ n, itemsOf n d'.log =
      itemsOf n d.log ++ if n = d.conn + 1 then items else [] := by
    intro n
    rw [hlog, itemsOf_append]
    by_cases hn : n = d.conn + 1
    · simp [itemsOf, Effect.items, hn]
    · simp [itemsOf, Effect.items, hn, Ne.symm hn]
  have htaken : taken d'.log = taken d.log := by
    rw [hlog, taken_append]
    exact List.append_nil _
  have htakenOf : ∀ n, takenOf n d'.log = takenOf n d.log := by
    intro n
    rw [takenOf, htaken, takenOf]
  have hevs : ∀ n, evictionsOf n d'.log = evictionsOf n d.log := by
    intro n
    rw [hlog, evictionsOf_append]
    exact List.append_nil _
  refine ⟨?_, ?_, ?_, ?_, ?_, ?_⟩
  · intro n hn
    rw [hitems, htakenOf]
    by_cases hnew : n = d.conn + 1
    · subst hnew
      rw [hno, htno]
      simpa [waiting, hconn, hin'] using hafter
    · have hs := h.stream n (by omega)
      have hwait : d.waiting n = [] := by
        simp only [waiting]
        split
        · exact hin
        · rfl
      rw [hwait] at hs
      simpa [waiting, hconn, hnew] using hs
  · intro _ _
    rw [hconn, hitems, hno, if_pos rfl]
    exact hopen
  · intro n hn
    obtain ⟨h₁, h₂, h₃⟩ := h.future n (by omega)
    have hne : n ≠ d.conn + 1 := by omega
    rw [hitems, htakenOf, hevs, h₁, h₂, h₃]
    simp [hne]
  · rw [htaken, harr]
    exact h.numbers
  · intro n
    rw [hevs]
    exact h.evictedOnce n
  · intro _ _
    rw [hconn, hevs]
    exact hevno

/-- To announce a message is to take it, and nothing else. -/
theorem announce_projections (a : Arrival) :
    (∀ c, itemsOf c (announce a) = []) ∧ taken (announce a) = [a] ∧
      ∀ c, evictionsOf c (announce a) = [] := by
  simp only [announce]
  split <;> exact ⟨fun _ => rfl, rfl, fun _ => rfl⟩

/-- **Step lemma.** Every act takes the messages in the order they came. -/
theorem Delivery.act (hact : Act P d d') (h : Delivery P d) : Delivery P d' := by
  cases hact with
  | abandon ch => exact h.idle (List.append_nil _).symm (by simp) rfl rfl rfl fun l hl => ⟨l, hl⟩
  | turn l' hph =>
      exact h.idle (List.append_nil _).symm (by simp) rfl rfl rfl fun _ _ => ⟨_, hph⟩
  | exit ph hne =>
      exact h.idle (List.append_nil _).symm (by simp) rfl rfl rfl fun l hl => absurd hl (hne l)
  | receive now hph hin hit =>
      exact h.yielded hph hin rfl rfl rfl (by simp [hit]) (by simp [hit])
  | cut now hph hin hit =>
      exact h.yielded hph hin rfl rfl rfl (by simp [hit, hin]) (by simp)
  | route hin hw =>
      exact h.pop hin rfl (fun _ => rfl) rfl rfl rfl rfl
        (.inl ⟨fun _ => rfl, fun l hl => ⟨l, hl⟩⟩)
  | announce hin hw =>
      obtain ⟨hitems, htaken, hevs⟩ := announce_projections (d.arrival _)
      exact h.pop hin rfl hitems htaken rfl rfl rfl (.inl ⟨hevs, fun l hl => ⟨l, hl⟩⟩)
  | evict ph hph hin hoff hne =>
      refine h.pop hin rfl (fun _ => rfl) rfl rfl rfl rfl (.inr ⟨?_, ?_, ⟨_, hph⟩, hne⟩)
      · simp [evictionsOf, Effect.eviction?, arrival]
      · intro c hc
        simp [evictionsOf, Effect.eviction?, arrival, Ne.symm hc]
  | sweep now =>
      refine h.idle rfl ?_ rfl rfl rfl fun l hl => ⟨l, hl⟩
      intro e he
      rcases mem_swept he with ⟨entry, ⟨rfl, -⟩ | rfl⟩ <;> rfl
  | failAll reason _ =>
      refine h.idle rfl ?_ rfl rfl rfl fun l hl => ⟨l, hl⟩
      intro e he
      obtain ⟨entry, -, rfl⟩ := List.mem_map.mp he
      rfl
  | dial hph => exact h.idle rfl (by simp [Effect.isIdle]) rfl rfl rfl (by simp)
  | live now hst hpend hin hc => exact h.adopted hc hin rfl rfl rfl rfl
  | stop reason => exact h.idle rfl (by simp [Effect.isIdle]) rfl rfl rfl (by simp)
  | fail e => exact h.idle rfl (by simp [Effect.isIdle]) rfl rfl rfl (by simp)
  | _ => exact h.idle rfl (by simp [Effect.isIdle]) rfl rfl rfl fun l hl => ⟨l, hl⟩

/-- **Run lemma.** So does every run. -/
theorem Reachable.delivery (h : Reachable P d) : Delivery P d := by
  refine h.invariant ?_ fun _ _ => Delivery.act
  intro now items d₀ h₀
  obtain ⟨c, hc, hs⟩ := spawn_spec h₀
  obtain ⟨hopen, hafter⟩ := establish_spec hc
  have hitems : ∀ n, itemsOf n d₀.log = if n = 0 then items else [] := by
    intro n
    by_cases hn : n = 0
    · simp [hs.log, itemsOf, Effect.items, hn]
    · simp [hs.log, itemsOf, Effect.items, hn, Ne.symm hn]
  have htaken : taken d₀.log = [] := by
    rw [hs.log]
    rfl
  have hevs : ∀ n, evictionsOf n d₀.log = [] := by
    intro n
    rw [hs.log]
    rfl
  refine ⟨?_, ?_, ?_, ?_, ?_, ?_⟩
  · intro n hn
    obtain rfl : n = 0 := by simpa [hs.conn] using hn
    simpa [hitems, takenOf, htaken, waiting, hs.conn, hs.inbox] using hafter
  · intro _ _
    simpa [hs.conn, hitems] using hopen
  · intro n hn
    have hne : n ≠ 0 := by
      rw [hs.conn] at hn
      omega
    exact ⟨by simp [hitems, hne], by simp [takenOf, htaken], hevs n⟩
  · simp [htaken, hs.arrivals]
  · simp [hevs]
  · simp [hevs]

/-- The connected loop reads only a `ClientLoggedOff` as a logoff. -/
theorem Reachable.evicted_logoff (h : Reachable P d) {a : Arrival} (ha : .evicted a ∈ d.log) :
    a.msg.emsg = emsgClientLoggedOff := by
  refine h.invariant (I := fun d => ∀ a, .evicted a ∈ d.log → a.msg.emsg = emsgClientLoggedOff)
    ?_ ?_ a ha
  · intro now items d₀ h₀
    obtain ⟨c, -, hs⟩ := spawn_spec h₀
    simp [hs.log]
  · intro s s' hact hs a ha
    cases hact with
    | evict ph _ _ hoff _ =>
        rcases List.mem_append.mp ha with ha | ha
        · exact hs a ha
        · obtain rfl : a = s.arrival _ := by simpa using ha
          exact hoff
    | announce _ _ =>
        refine hs a ((List.mem_append.mp ha).resolve_right fun hnew => ?_)
        rcases mem_announce hnew with he | he <;> cases he
    | sweep now =>
        rcases List.mem_append.mp ha with ha | ha
        · exact hs a ha
        · rcases mem_swept ha with ⟨entry, ⟨he, -⟩ | he⟩ <;> cases he
    | failAll reason _ =>
        rcases List.mem_append.mp ha with ha | ha
        · exact hs a ha
        · obtain ⟨entry, -, hentry⟩ := List.mem_map.mp ha
          cases hentry
    | _ => exact hs a (by simpa using ha)

/-- No message is taken twice. -/
theorem Delivery.nodup (h : Delivery P d) : (taken d.log).Nodup := by
  have hmap : ((taken d.log).map Arrival.number).Nodup := h.numbers ▸ List.nodup_range
  exact List.Nodup.of_map _ hmap

/-- A message that was taken, and did not end its loop, has gone through `dispatch`
once. -/
theorem Delivery.dispatched_once (h : Delivery P d) {a : Arrival} (ha : a ∈ taken d.log)
    (hev : a ∉ evictionsOf a.conn d.log) : (dispatched d.log).count a = 1 := by
  have hone := List.count_eq_one_of_mem h.nodup ha
  have hzero : (d.log.filterMap Effect.eviction?).count a = 0 := by
    rw [List.count_eq_zero]
    intro hmem
    exact hev (List.mem_filter.mpr ⟨hmem, by simp⟩)
  have := count_taken a d.log
  omega

/-- **Every decoded message is handled once.** A logon uses up the decoded prefix of its
connection through the first answer to it. From then on, at each moment of every run and
for every connection of the session, what the driver has taken, followed by what waits in
its inbox, is the rest of the decoded prefix, with no `Multi` in it. A frame that does not
decode adds nothing to the inbox. Once a connection is lost, nothing of it waits, and every
message taken from it went through `dispatch` once, the `ClientLoggedOff` that ended the
loop excepted. -/
theorem decoded_messages_handled_once (hd : Reachable P d) :
    (∀ items l, CmConnection.connect.logon P items = some l →
      LogonReads P CmConnection.connect l items) ∧
    (∀ inbox data e, decodeFrame P data = .error e →
      (readMessage P inbox (.msg (.binary data))).1 = inbox) ∧
    ∀ c ≤ d.conn,
      AfterLogon (decodedPrefix P (itemsOf c d.log)) (takenOf c d.log ++ d.waiting c) ∧
      (∀ m ∈ takenOf c d.log ++ d.waiting c, m.emsg ≠ emsgMulti) ∧
      (c < d.conn ∨ d.Down →
        d.waiting c = [] ∧
        (evictionsOf c d.log).length ≤ 1 ∧
        (∀ a ∈ evictionsOf c d.log, a.msg.emsg = emsgClientLoggedOff) ∧
        ∀ a ∈ taken d.log, a.conn = c → a ∉ evictionsOf c d.log →
          (dispatched d.log).count a = 1) := by
  have hdel := hd.delivery
  refine ⟨fun _ _ => logon_spec, ?_, ?_⟩
  · intro inbox data e he
    have hnone : itemMessages P (.msg (.binary data)) = none := by
      simp [itemMessages, readFrame, he]
    obtain ⟨e', he'⟩ := readMessage_of_none hnone inbox
    rw [he']
  · intro c hc
    have hs := hdel.stream c hc
    refine ⟨hs, ?_, ?_⟩
    · intro m hm
      obtain ⟨skipped, answer, hdec, -, -⟩ := hs
      refine @decodedPrefix_ne_multi P (itemsOf c d.log) m ?_
      rw [hdec]
      exact List.mem_append_right _ (List.mem_cons_of_mem _ hm)
    · intro hlost
      refine ⟨?_, hdel.evictedOnce c, ?_, ?_⟩
      · rcases hlost with hlt | hdown
        · simp [waiting, Nat.ne_of_lt hlt]
        · simp [waiting, (hd.resting.of_down hdown).2.2]
      · intro a ha
        obtain ⟨e, he, hea⟩ := List.mem_filterMap.mp (List.mem_of_mem_filter ha)
        cases e <;> cases hea
        exact hd.evicted_logoff he
      · rintro a ha rfl hev
        exact hdel.dispatched_once ha hev

/-- A session with one answered request has taken its reply, and nothing else. -/
theorem decoded_messages_handled_once_answered :
    AfterLogon (decodedPrefix Sample.prost (itemsOf 0 Sample.answered.log))
        (takenOf 0 Sample.answered.log ++ Sample.answered.waiting 0) ∧
      takenOf 0 Sample.answered.log = [{ emsg := 147, header := { jobidTarget := some 1 } }] :=
  ⟨((decoded_messages_handled_once reachable_answered).2.2 0 (Nat.zero_le _)).1, by decide⟩

end SessionDriver

end Steamroids
