import Steamroids.Attempts
import Steamroids.Binary32
import Steamroids.Lifecycle

/-!
# Connecting, Again and Again

A live session is reached through three loops. `CmConnection::establish` (`session/connection.rs`)
fetches the directory and tries its first five servers in turn; `establish_resilient`
(`session/driver.rs`) does so up to four times when a session is started; and `reconnect` does so
for as long as it takes when a session has lost its connection. All three follow one rule: a logon
that was rejected for good (`Error::AuthRejected`) ends everything at once, and after any other
failure the next attempt is made.

The first two are functions of what they meet: the directory, and how each attempt goes. The third
is the driver in its phases `backoff` and `connecting`, in runs whose connect attempts are calls of
`establish` (`FedBy`).

## Main results

* `establish_rules`, `resilient_rules`: which attempts the two functions make, and what they return.
* `Reachable.backedOff`: how long the driver sleeps before an attempt.
* `reconnect_rules`: when the driver makes an attempt, what follows it, and what ends a session.
* `only_auth_rejection_ends_retries`: the rules of the three loops.
-/

namespace Steamroids

/-! ### The directory -/

/-- A CM endpoint that the directory returned. -/
structure CmServer where
  endpoint : String
  datacenter : Option String
  load : Option Binary32
  deriving DecidableEq, Repr

/-- An entry of the directory. -/
structure ServerEntry where
  endpoint : String
  kind : Option String
  dc : Option String
  load : Option Binary32

/-- What serde_json makes of a directory: its entries (none if the list is left out), or the text
of an error. -/
abbrev DirectoryJson := String → Except String (List ServerEntry)

/-- Parse a directory into servers. -/
def parseServers (json : DirectoryJson) (body : String) : Except Error (List CmServer) :=
  match json body with
  | .error e => .error (.network ("GetCMListForConnect: unparseable response: " ++ e))
  | .ok entries =>
      let servers := (entries.filter fun e => e.kind.all (· == "websockets")).map fun e =>
        { endpoint := e.endpoint, datacenter := e.dc, load := e.load : CmServer }
      if servers.isEmpty then
        .error (.network "GetCMListForConnect returned no websocket servers")
      else
        .ok servers

/-- The HTTP answer to the directory request. -/
structure DirectoryReply where
  status : Nat
  /-- How the status is displayed. -/
  statusText : String
  body : Except String String

/-- What the directory request meets: an error in building the HTTP client, or else the answer or
the text of a network error. -/
structure DirectoryFetch where
  clientError : Option String
  reply : Except String DirectoryReply

/-- Fetch the current list of servers. -/
def discoverCmServers (json : DirectoryJson) (fetch : DirectoryFetch) :
    Except Error (List CmServer) :=
  match fetch.clientError with
  | some e => .error (.invalidConfig e)
  | none =>
      match fetch.reply with
      | .error e => .error (.network ("GetCMListForConnect: " ++ e))
      | .ok reply =>
          match reply.body with
          | .error e => .error (.network ("GetCMListForConnect body: " ++ e))
          | .ok body =>
              if reply.status < 200 ∨ 300 ≤ reply.status then
                .error (.network ("GetCMListForConnect: HTTP " ++ reply.statusText))
              else
                parseServers json body

/-- A directory gives servers, at least one, or an error that is no rejection. -/
theorem parseServers_spec (json : DirectoryJson) (body : String) :
    (∃ e, parseServers json body = .error e ∧ e.isAuthRejected = false) ∨
      ∃ servers, parseServers json body = .ok servers ∧ servers ≠ [] := by
  rw [parseServers]
  split
  · exact .inl ⟨_, rfl, rfl⟩
  · dsimp only
    split
    · exact .inl ⟨_, rfl, rfl⟩
    · rename_i hne
      exact .inr ⟨_, rfl, fun hnil => hne (List.isEmpty_iff.mpr hnil)⟩

/-- Without a directory there is an error, but not one about the account; with one there is a
server in it. -/
theorem discoverCmServers_spec (json : DirectoryJson) (fetch : DirectoryFetch) :
    (∃ e, discoverCmServers json fetch = .error e ∧ e.isAuthRejected = false) ∨
      ∃ servers, discoverCmServers json fetch = .ok servers ∧ servers ≠ [] := by
  rw [discoverCmServers]
  split
  · exact .inl ⟨_, rfl, rfl⟩
  · split
    · exact .inl ⟨_, rfl, rfl⟩
    · split
      · exact .inl ⟨_, rfl, rfl⟩
      · split
        · exact .inl ⟨_, rfl, rfl⟩
        · exact parseServers_spec json _

/-! ### One attempt -/

/-- The ways in which the transport fails. -/
inductive TransportError
  | io (text : String)
  | invalidUrl (text : String)
  | urlParse (text : String)
  | invalidConfig (text : String)
  | socks5 (text : String)
  | httpConnect (text : String)
  | tls (text : String)
  | webSocket (text : String)
  | timeout (what : String)
  deriving DecidableEq, Repr

/-- The crate's error for a failure of the transport. -/
def TransportError.toError : TransportError → Error
  | .io t => .io t
  | .invalidUrl t => .invalidUrl t
  | .urlParse t => .urlParse t
  | .invalidConfig t => .invalidConfig t
  | .socks5 t => .socks5 t
  | .httpConnect t => .httpConnect t
  | .tls t => .tls t
  | .webSocket t => .webSocket t
  | .timeout w => .timeout w

/-- How connecting to one server and logging on to it goes: no connection, a logon that cannot be
sent, a logon that ends with the items read so far, or no end within the time for it. -/
inductive ConnectAttempt (P : Prost)
  | connectFailed (e : TransportError)
  | sendFailed (e : String)
  | answered (items : List WsItem) (r : LogonEnd)
      (hlogon : CmConnection.connect.logon P items = some r) (hread : r.unread = [])
  | timedOut

variable {P : Prost}

namespace ConnectAttempt

/-- The result of the attempt, if it ends in time. -/
def done? : ConnectAttempt P → Option (Except Error (CmConnection × LoggedOn))
  | .connectFailed e => some (.error e.toError)
  | .sendFailed e => some (.error (.webSocket e))
  | .answered _ r _ _ => some (r.result.map fun c => ({ c.1 with inbox := r.inbox }, c.2))
  | .timedOut => none

/-- The items that were read. -/
def items : ConnectAttempt P → List WsItem
  | .answered items _ _ _ => items
  | _ => []

/-- The result, with a timeout for an attempt that does not end in time. -/
def result (a : ConnectAttempt P) : Except Error (CmConnection × LoggedOn) :=
  a.done?.getD (.error (.timeout "cm connect attempt"))

/-- Only an answer of Steam can be a rejection. -/
theorem answered_of_isAuthRejected {a : ConnectAttempt P} {e : Error} (h : a.result = .error e)
    (he : e.isAuthRejected = true) :
    ∃ items r hlogon hread, a = .answered items r hlogon hread ∧ r.result = .error e := by
  cases a with
  | connectFailed t =>
      obtain rfl : t.toError = e := Except.error.inj h
      cases t <;> cases he
  | sendFailed t =>
      obtain rfl : .webSocket t = e := Except.error.inj h
      cases he
  | timedOut =>
      obtain rfl : .timeout _ = e := Except.error.inj h
      cases he
  | answered items r hlogon hread =>
      refine ⟨items, r, hlogon, hread, rfl, ?_⟩
      cases hr : r.result with
      | error e' => simpa [result, done?, hr, Except.map] using h
      | ok c => simp [result, done?, hr, Except.map] at h

/-- A connection that is logged on is the one that the driver takes over. -/
theorem establish_of_result {a : ConnectAttempt P} {c : CmConnection × LoggedOn}
    (h : a.result = .ok c) : SessionDriver.establish P a.items = some c := by
  cases a with
  | connectFailed t => cases h
  | sendFailed t => cases h
  | timedOut => cases h
  | answered items r hlogon hread =>
      obtain ⟨res, inbox, unread⟩ := r
      obtain rfl : unread = [] := hread
      cases res with
      | error e => cases h
      | ok p =>
          obtain rfl := Except.ok.inj h
          simp only [SessionDriver.establish, ConnectAttempt.items, hlogon]

end ConnectAttempt

/-! ### Establishing a connection -/

/-- How many servers are tried. -/
def maxConnectAttempts : Nat := 5

/-- How many times the directory is gone through for a new session. -/
def initialConnectAttempts : Nat := 4

/-- A success, or the error after which nothing is tried any more. -/
def endsRetries {α : Type} : Except Error α → Bool
  | .ok _ => true
  | .error e => e.isAuthRejected

/-- The loop over the servers, with the last error: the attempts made, and the result. -/
def establishLoop (lastErr : Option Error) :
    List (CmServer × ConnectAttempt P) →
      List (CmServer × ConnectAttempt P) × Except Error (CmConnection × LoggedOn)
  | [] => ([], .error (lastErr.getD (.network "no CM servers to connect to")))
  | a :: rest =>
      match a.2.done? with
      | some (.ok c) => ([a], .ok c)
      | some (.error e) =>
          if e.isAuthRejected then
            ([a], .error e)
          else
            let r := establishLoop (some e) rest
            (a :: r.1, r.2)
      | none =>
          let r := establishLoop (some (.timeout "cm connect attempt")) rest
          (a :: r.1, r.2)

/-- What one call of `establish` meets: the directory, and how the attempt on each server of the
list would go. -/
structure ConnectRound (P : Prost) where
  directory : DirectoryFetch
  attempt : Nat → ConnectAttempt P

/-- The servers that may be tried, each with its attempt. -/
def ConnectRound.offered (round : ConnectRound P) (servers : List CmServer) :
    List (CmServer × ConnectAttempt P) :=
  (servers.take maxConnectAttempts).zipIdx.map fun s => (s.1, round.attempt s.2)

/-- Discover a CM, connect (trying servers in turn), and log on: the attempts made, and the
result. -/
def CmConnection.establish (json : DirectoryJson) (round : ConnectRound P) :
    List (CmServer × ConnectAttempt P) × Except Error (CmConnection × LoggedOn) :=
  match discoverCmServers json round.directory with
  | .error e => ([], .error e)
  | .ok servers => establishLoop none (round.offered servers)

/-- What `establish_resilient` does: the rounds that it runs, the seconds that it sleeps between
them, and its result. -/
structure ResilientRun where
  rounds : List Nat
  sleeps : List Nat
  result : Except Error (CmConnection × LoggedOn)

/-- The loop over the rounds, with the next backoff and the last error. -/
def resilientLoop (json : DirectoryJson) (rounds : Nat → ConnectRound P) (backoff : Nat)
    (lastErr : Error) : List Nat → ResilientRun
  | [] => ⟨[], [], .error lastErr⟩
  | attempt :: rest =>
      match (CmConnection.establish json (rounds attempt)).2 with
      | .ok c => ⟨[attempt], [], .ok c⟩
      | .error e =>
          if e.isAuthRejected then
            ⟨[attempt], [], .error e⟩
          else if attempt < initialConnectAttempts then
            let r := resilientLoop json rounds (min (backoff * 2) maxBackoff) e rest
            ⟨attempt :: r.rounds, backoff :: r.sleeps, r.result⟩
          else
            let r := resilientLoop json rounds backoff e rest
            ⟨attempt :: r.rounds, r.sleeps, r.result⟩

/-- Establish the initial connection, retrying transient failures with backoff. -/
def establishResilient (json : DirectoryJson) (rounds : Nat → ConnectRound P) : ResilientRun :=
  resilientLoop json rounds initialBackoff (.network "no connect attempt ran")
    (List.range' 1 initialConnectAttempts)

/-! ### The rules of the two functions -/

open Attempts

/-- The rules of `establish`, for the attempts made and the result. -/
structure EstablishRules (json : DirectoryJson) (round : ConnectRound P)
    (tried : List (CmServer × ConnectAttempt P))
    (res : Except Error (CmConnection × LoggedOn)) : Prop where
  discovery : ∀ e, discoverCmServers json round.directory = .error e →
    tried = [] ∧ res = .error e ∧ e.isAuthRejected = false
  listed : ∀ servers, discoverCmServers json round.directory = .ok servers →
    tried.map Prod.fst <+: servers.take 5
  order : ∀ servers, discoverCmServers json round.directory = .ok servers →
    StopsAtFirst (fun a => endsRetries a.2.result) (round.offered servers) tried
  result : ∀ servers, discoverCmServers json round.directory = .ok servers →
    ∃ last, tried.getLast? = some last ∧ res = last.2.result
  rejected : ∀ before a after e, tried = before ++ a :: after → a.2.result = .error e →
    e.isAuthRejected = true → after = [] ∧ res = .error e

/-- The rules of `establish_resilient`. -/
structure ResilientRules (json : DirectoryJson) (rounds : Nat → ConnectRound P)
    (run : ResilientRun) : Prop where
  order : StopsAtFirst (fun n => endsRetries (CmConnection.establish json (rounds n)).2)
    [1, 2, 3, 4] run.rounds
  result : ∃ last, run.rounds.getLast? = some last ∧
    run.result = (CmConnection.establish json (rounds last)).2
  rejected : ∀ before n after e, run.rounds = before ++ n :: after →
    (CmConnection.establish json (rounds n)).2 = .error e → e.isAuthRejected = true →
    after = [] ∧ run.result = .error e

/-- A round offers the first five servers. -/
theorem map_fst_offered (round : ConnectRound P) (servers : List CmServer) :
    (round.offered servers).map Prod.fst = servers.take 5 := by
  simp [ConnectRound.offered, maxConnectAttempts, Function.comp_def]

/-- The loop over the servers makes attempts until one settles the matter. -/
theorem establishLoop_eq (lastErr : Option Error) (as : List (CmServer × ConnectAttempt P)) :
    establishLoop lastErr as =
      loop (fun a => a.2.result) endsRetries
        (.error (lastErr.getD (.network "no CM servers to connect to"))) as := by
  induction as generalizing lastErr with
  | nil => rfl
  | cons a rest ih =>
      rw [establishLoop, loop]
      rcases hdone : a.2.done? with _ | e | c
      · simp [ConnectAttempt.result, hdone, endsRetries, Error.isAuthRejected, ih]
      · cases he : e.isAuthRejected <;> simp [ConnectAttempt.result, hdone, endsRetries, he, ih]
      · simp [ConnectAttempt.result, hdone, endsRetries]

/-- The loop over the rounds makes them as the general loop does. -/
theorem resilientLoop_eq (json : DirectoryJson) (rounds : Nat → ConnectRound P) (backoff : Nat)
    (lastErr : Error) (as : List Nat) :
    ((resilientLoop json rounds backoff lastErr as).rounds,
        (resilientLoop json rounds backoff lastErr as).result) =
      loop (fun n => (CmConnection.establish json (rounds n)).2) endsRetries (.error lastErr)
        as := by
  induction as generalizing backoff lastErr with
  | nil => rfl
  | cons n rest ih =>
      rw [resilientLoop, loop]
      rcases hres : (CmConnection.establish json (rounds n)).2 with e | c
      · cases he : e.isAuthRejected
        · by_cases hlt : n < initialConnectAttempts
          · simp [endsRetries, he, hlt, ← ih (min (backoff * 2) maxBackoff) e]
          · simp [endsRetries, he, hlt, ← ih backoff e]
        · simp [endsRetries, he]
      · simp [endsRetries]

/-- **The rules of `establish`.** -/
theorem establish_rules (json : DirectoryJson) (round : ConnectRound P) :
    EstablishRules json round (CmConnection.establish json round).1
      (CmConnection.establish json round).2 := by
  rcases discoverCmServers_spec json round.directory with ⟨e, he, hauth⟩ | ⟨servers, hs, hne⟩
  · have hest : CmConnection.establish json round = ([], .error e) := by
      rw [CmConnection.establish, he]
    rw [hest]
    refine ⟨?_, ?_, ?_, ?_, ?_⟩
    · intro e' he'
      obtain rfl : e = e' := Except.error.inj (he.symm.trans he')
      exact ⟨rfl, rfl, hauth⟩
    · exact fun servers hs => by cases he.symm.trans hs
    · exact fun servers hs => by cases he.symm.trans hs
    · exact fun servers hs => by cases he.symm.trans hs
    · exact fun before a after e' h => absurd h.symm (by simp)
  · have hest : CmConnection.establish json round =
        loop (fun a => a.2.result) endsRetries (.error (.network "no CM servers to connect to"))
          (round.offered servers) := by
      rw [CmConnection.establish, hs]
      exact establishLoop_eq none _
    have hoffered : round.offered servers ≠ [] := by
      intro hnil
      have hmap := map_fst_offered round servers
      rw [hnil, List.map_nil, eq_comm, List.take_eq_nil_iff] at hmap
      exact hmap.elim (by decide) hne
    have hsame {servers' : List CmServer}
        (hs' : discoverCmServers json round.directory = .ok servers') : servers = servers' :=
      Except.ok.inj (hs.symm.trans hs')
    rw [hest]
    refine ⟨?_, ?_, ?_, ?_, ?_⟩
    · exact fun e he => by cases hs.symm.trans he
    · intro servers' hs'
      obtain rfl := hsame hs'
      rw [← map_fst_offered round servers]
      exact stopsAtFirst_loop.isPrefix.map Prod.fst
    · intro servers' hs'
      obtain rfl := hsame hs'
      exact stopsAtFirst_loop
    · intro servers' hs'
      exact getLast?_loop hoffered
    · intro before a after e htried hres hauth
      obtain ⟨hnil, hlast⟩ := loop_of_settles htried (by simp [hres, endsRetries, hauth])
      exact ⟨hnil, hlast.trans hres⟩

/-- **The rules of `establish_resilient`.** -/
theorem resilient_rules (json : DirectoryJson) (rounds : Nat → ConnectRound P) :
    ResilientRules json rounds (establishResilient json rounds) := by
  have heq := resilientLoop_eq json rounds initialBackoff (.network "no connect attempt ran")
    [1, 2, 3, 4]
  have hrounds : (establishResilient json rounds).rounds = (loop _ _ _ _).1 :=
    congrArg Prod.fst heq
  have hresult : (establishResilient json rounds).result = (loop _ _ _ _).2 :=
    congrArg Prod.snd heq
  refine ⟨?_, ?_, ?_⟩
  · rw [hrounds]
    exact stopsAtFirst_loop
  · rw [hrounds, hresult]
    exact getLast?_loop (List.cons_ne_nil _ _)
  · intro before n after e hrun hres hauth
    rw [hrounds] at hrun
    obtain ⟨hnil, hlast⟩ := loop_of_settles hrun (by simp [hres, endsRetries, hauth])
    exact ⟨hnil, (hresult.trans hlast).trans hres⟩

/-! ### Reconnecting -/

namespace Lifecycle

/-- The connect attempts since the session fell, after one more event. -/
def Event.recount (n : Nat) : Event → Nat
  | .publish .connecting => 0
  | .dial => n + 1
  | _ => n

/-- The connect attempts that have been started since the session fell. -/
def dials (w : List Event) : Nat := w.foldl Event.recount 0

/-- An event at the end recounts the dials. -/
theorem dials_snoc (w : List Event) (e : Event) : dials (w ++ [e]) = e.recount (dials w) := by
  rw [dials, List.foldl_append]
  rfl

/-- Nothing is dialed after a rejection. -/
theorem Lives.no_dial {w w₁ w₂ : List Event} {s : Stage} {e : Error} (h : Lives w s)
    (hw : w = w₁ ++ .refuse e :: w₂) (he : e.isAuthRejected = true) : .dial ∉ w₂ := by
  induction h generalizing w₂ with
  | nil => simp at hw
  | @snoc w s s' ev hlives hnext ih =>
      rcases List.eq_nil_or_concat w₂ with rfl | ⟨w₂, ev', rfl⟩
      · exact List.not_mem_nil
      · rw [List.concat_eq_append] at hw ⊢
        have hw' : w ++ [ev] = (w₁ ++ .refuse e :: w₂) ++ [ev'] := by rw [hw]; simp
        obtain ⟨rfl, hev⟩ := List.append_inj' hw' rfl
        obtain rfl : ev = ev' := by simpa using hev
        have hstage := (hlives.refused e).mp ⟨by simp, he⟩
        rw [List.mem_append, List.mem_singleton, not_or]
        refine ⟨ih rfl, ?_⟩
        rintro rfl
        cases hnext
        rcases hstage with h | h | h <;> cases h

end Lifecycle

/-- What the driver is told of a call of `establish`: the error, or the items that the logon of
the new connection read. -/
def ConnectRound.input (json : DirectoryJson) (round : ConnectRound P) :
    Except Error (List WsItem) :=
  match CmConnection.establish json round with
  | (_, .error e) => .error e
  | (tried, .ok _) => .ok (tried.getLast?.elim [] fun a => a.2.items)

/-- Every connect attempt of the run is a call of `establish`. -/
def FedBy (P : Prost) (json : DirectoryJson) (is : List Input) : Prop :=
  ∀ now r, .attempt now r ∈ is → ∃ round : ConnectRound P, round.input json = r

/-- A round is a failed attempt of the driver exactly if it fails. -/
theorem input_eq_error_iff {json : DirectoryJson} {round : ConnectRound P} {e : Error} :
    round.input json = .error e ↔ (CmConnection.establish json round).2 = .error e := by
  rcases hest : CmConnection.establish json round with ⟨tried, e' | c⟩ <;>
    simp [ConnectRound.input, hest]

/-- A call that succeeds hands the driver a connection that it can take over. -/
theorem input_of_ok {json : DirectoryJson} {round : ConnectRound P}
    {c : CmConnection × LoggedOn} (h : (CmConnection.establish json round).2 = .ok c) :
    ∃ items, round.input json = .ok items ∧ SessionDriver.establish P items = some c := by
  have hrules := establish_rules json round
  rcases hdisc : discoverCmServers json round.directory with e | servers
  · cases (hrules.discovery e hdisc).2.1.symm.trans h
  · obtain ⟨last, hlast, hres⟩ := hrules.result servers hdisc
    refine ⟨last.2.items, ?_, ConnectAttempt.establish_of_result (hres.symm.trans h)⟩
    rcases hest : CmConnection.establish json round with ⟨tried, res⟩
    rw [hest] at h hlast
    obtain rfl : res = .ok c := h
    simp only [ConnectRound.input, hest]
    rw [show tried.getLast? = some last from hlast]
    rfl

namespace SessionDriver

open Lifecycle

variable {d d' : SessionDriver}

/-- The driver sleeps as long as the number of attempts says. -/
def BackedOff (d : SessionDriver) : Prop :=
  match d.phase with
  | .backoff secs => secs = min (2 ^ dials (events d.log)) 60
  | .connecting secs => ∃ k, dials (events d.log) = k + 1 ∧ secs = min (2 ^ k) 60
  | _ => True

/-- A dial counts. -/
theorem dials_dialed (d : SessionDriver) :
    dials (events (d.emit .dialed).log) = dials (events d.log) + 1 :=
  (congrArg dials (events_append d.log _)).trans (dials_snoc _ _)

/-- A refusal does not count. -/
theorem dials_refused (d : SessionDriver) (e : Error) :
    dials (events (d.emit (.refused e)).log) = dials (events d.log) :=
  (congrArg dials (events_append d.log _)).trans (dials_snoc _ _)

/-- A refusal adds itself to the refusals. -/
theorem refuse_mem_emit {e e' : Error} :
    .refuse e ∈ events (d.emit (.refused e')).log ↔ .refuse e ∈ events d.log ∨ e = e' := by
  simp [emit, events, Effect.event?]

/-- The phase of a driver that has left its loop. -/
theorem leave_phase (d : SessionDriver) (x : LoopExit) : (d.leave x).phase = exitPhase x := by
  cases x with
  | shutdown => rfl
  | loggedOff reason => rfl
  | disconnected =>
      exact (drain_steady { d with phase := .backoff initialBackoff } d.inbox).phase

/-- An iteration of the connected loop refuses nothing. If it leads to a reconnect, that is what it
says last. -/
theorem resume_spec {l : ConnectedLoop} {i : Input} {r : SessionDriver × Turn} (hrest : d.Resting)
    (hph : d.phase = .connected l) (hr : d.runConnected P l i = some r) :
    (∀ e, .refuse e ∈ events (resume r).log → .refuse e ∈ events d.log) ∧
      ((∃ l', (resume r).phase = .connected l') ∨ (∃ result, (resume r).phase = .closing result) ∨
        (resume r).phase = .backoff initialBackoff ∧
          ∃ w, events (resume r).log = w ++ [.publish .connecting]) := by
  simp only [Resting, hph] at hrest
  obtain ⟨es, hes, hkind⟩ := (runConnected_branch hrest.2 hr).events
  have hloop : ∀ e, .refuse e ∈ events r.1.log → .refuse e ∈ events d.log := by
    intro e he
    rw [hes, List.mem_append] at he
    rcases he with he | he
    · exact he
    · rcases hkind with ⟨-, htraffic⟩ | ⟨-, rfl | rfl⟩
      · cases htraffic _ he
      · simp at he
      · simp at he
  rcases hr2 : r.2 with l' | x
  · simp only [resume, hr2]
    exact ⟨hloop, .inl ⟨l', rfl⟩⟩
  · simp only [resume, hr2, leave_phase, leave_events]
    refine ⟨fun e he => hloop e ?_, ?_⟩
    · cases x <;> simpa using he
    · cases x with
      | shutdown => exact .inr (.inl ⟨_, rfl⟩)
      | loggedOff reason => exact .inr (.inl ⟨_, rfl⟩)
      | disconnected => exact .inr (.inr ⟨rfl, events r.1.log, by simp⟩)

/-- A command while the socket is down stops the driver, or leaves it where it is. -/
theorem onCommandDown_spec (d : SessionDriver) (c : Option Command) :
    (∃ logoff, events (d.onCommandDown c).log = events d.log ++ [.stop logoff] ∧
      ∃ result, (d.onCommandDown c).phase = .closing result) ∨
    events (d.onCommandDown c).log = events d.log ∧ (d.onCommandDown c).phase = d.phase := by
  rcases c with _ | ⟨emsg, body, deadline, ch⟩ | ⟨emsg, body, ch⟩ | ch
  · refine .inl ⟨false, ?_, _, rfl⟩
    exact (finish_events _ _).trans (events_append d.log _)
  · refine .inr ⟨?_, rfl⟩
    simp [onCommandDown, answerWhileDown, events, Effect.event?, Command.event?]
  · refine .inr ⟨?_, rfl⟩
    simp [onCommandDown, answerWhileDown, events, Effect.event?, Command.event?]
  · refine .inl ⟨true, ?_, _, rfl⟩
    refine (finish_events _ _).trans ?_
    simp [answerWhileDown, events, Effect.event?, Command.event?]

/-- **Step lemma.** The wait doubles with each dial, up to a minute: doubling and capping commute.
-/
theorem BackedOff.step {i : Input} (hd : d.BackedOff) (hrest : d.Resting)
    (h : d.step P i = some d') : d'.BackedOff := by
  cases step_takes h with
  | abandon ch => exact hd
  | @loop l i r hph hnew hr =>
      rcases (resume_spec hrest hph hr).2 with ⟨l', hph'⟩ | ⟨result, hph'⟩ | ⟨hph', w, hw⟩
      · simp only [BackedOff, hph']
      · simp only [BackedOff, hph']
      · simp only [BackedOff, hph', hw, dials_snoc, Event.recount]
        rfl
  | commandDown c write hdown hnew =>
      rcases d.onCommandDown_spec c with ⟨logoff, -, result, hph'⟩ | ⟨hev, hph'⟩
      · simp only [BackedOff, hph']
      · simpa only [BackedOff, hev, hph'] using hd
  | @wake secs hph =>
      simp only [BackedOff, hph] at hd
      exact ⟨_, d.dials_dialed, hd⟩
  | @refused secs now e hph he =>
      simp only [BackedOff, hph] at hd
      obtain ⟨k, hk, hsecs⟩ := hd
      change min (secs * 2) 60 = min (2 ^ dials (events (d.emit (.refused e)).log)) 60
      rw [dials_refused, hk, hsecs, Nat.pow_succ]
      omega
  | rejected now e hph he => trivial
  | live now hph hc => trivial
  | @closed result hph => cases result <;> trivial

/-- **Run lemma.** Before the attempt number `k + 1` since the session fell, the driver sleeps for
`min (2 ^ k) 60` seconds. -/
theorem Reachable.backedOff (h : Reachable P d) : d.BackedOff := by
  refine h.invariant_of_step ?_ fun d d' i hrest hd hstep => hd.step hrest hstep
  intro now items d₀ h₀
  obtain ⟨c, -, hs⟩ := spawn_spec h₀
  obtain ⟨l, hl, -⟩ := hs.phase
  simp only [BackedOff, hl]

/-- A failed attempt is logged when the driver is told of it. -/
theorem refused_of_step {i : Input} {e : Error} (hrest : d.Resting) (h : d.step P i = some d')
    (he : .refuse e ∈ events d'.log) :
    .refuse e ∈ events d.log ∨ ∃ now, i = .attempt now (.error e) := by
  cases step_takes h with
  | abandon ch => exact .inl he
  | @loop l i r hph hnew hr => exact .inl ((resume_spec hrest hph hr).1 e he)
  | commandDown c write hdown hnew =>
      left
      rcases d.onCommandDown_spec c with ⟨logoff, hev, -⟩ | ⟨hev, -⟩
      · simpa [hev] using he
      · rwa [hev] at he
  | @wake secs hph =>
      left
      simpa [emit, events, Effect.event?] using he
  | @refused secs now e' hph he' =>
      rcases refuse_mem_emit.mp he with he | rfl
      · exact .inl he
      · exact .inr ⟨now, rfl⟩
  | @rejected secs now e' hph he' =>
      rw [finish_events] at he
      rcases refuse_mem_emit.mp he with he | rfl
      · exact .inl he
      · exact .inr ⟨now, rfl⟩
  | live now hph hc =>
      left
      simpa [goLive, publish, enterConnected, emit, events, Effect.event?] using he
  | @closed result hph =>
      left
      cases result <;> simpa [conclude, publish, emit, events, Effect.event?] using he

/-- **Run lemma.** A refusal comes from an attempt that failed so. -/
theorem refused_of_exec {is : List Input} {e : Error} (hrest : d.Resting)
    (h : Ledger.exec (step P) d is = some d') (he : .refuse e ∈ events d'.log) :
    .refuse e ∈ events d.log ∨ ∃ now, .attempt now (.error e) ∈ is := by
  induction is generalizing d with
  | nil =>
      obtain rfl : d = d' := Option.some.inj h
      exact .inl he
  | cons i is ih =>
      obtain ⟨m, hm, hrun⟩ := Ledger.exec_cons_eq_some.mp h
      rcases ih (step_resting hm hrest) hrun with hmem | ⟨now, hmem⟩
      · rcases refused_of_step hrest hm hmem with hmem | ⟨now, rfl⟩
        · exact .inl hmem
        · exact .inr ⟨now, List.mem_cons_self⟩
      · exact .inr ⟨now, List.mem_cons_of_mem _ hmem⟩

/-- An attempt is only started when a sleep is over. -/
theorem connecting_of_step {i : Input} {secs : Nat} (hrest : d.Resting)
    (h : d.step P i = some d') (hph' : d'.phase = .connecting secs) :
    d.phase = .connecting secs ∨ i = .wake ∧ d.phase = .backoff secs := by
  cases step_takes h with
  | abandon ch => exact .inl hph'
  | @loop l i r hph hnew hr =>
      rcases (resume_spec hrest hph hr).2 with ⟨l', h⟩ | ⟨result, h⟩ | ⟨h, -⟩
      · cases h.symm.trans hph'
      · cases h.symm.trans hph'
      · cases h.symm.trans hph'
  | commandDown c write hdown hnew =>
      rcases d.onCommandDown_spec c with ⟨logoff, -, result, h⟩ | ⟨-, h⟩
      · cases h.symm.trans hph'
      · exact .inl (h.symm.trans hph')
  | @wake secs' hph =>
      obtain rfl : secs' = secs := Phase.connecting.inj hph'
      exact .inr ⟨rfl, hph⟩
  | refused now e hph he => cases hph'
  | rejected now e hph he => cases hph'
  | live now hph hc => cases hph'
  | @closed result hph => cases result <;> cases hph'

/-- Only the last handle going, a `Logoff` of the owner or a terminal logoff of Steam stops the
session without an error. -/
theorem stops_of_step {i : Input} {reason : String} (hrest : d.Resting)
    (h : d.step P i = some d') (hph' : d'.phase = .closing (.ok reason)) :
    d.phase = .closing (.ok reason) ∨ d.stops P i := by
  cases step_takes h with
  | abandon ch => exact .inl hph'
  | @loop l i r hph hnew hr =>
      simp only [Resting, hph] at hrest
      have hbranch := runConnected_branch hrest.2 hr
      rcases hr2 : r.2 with l' | x
      · simp only [resume, hr2] at hph'
        cases hph'
      · rw [hr2] at hbranch
        simp only [resume, hr2, leave_phase] at hph'
        rcases hbranch.exit_spec.cause with ⟨rfl, -⟩ | ⟨-, hstops⟩
        · cases hph'
        · exact .inr hstops
  | commandDown c write hdown hnew =>
      rcases c with _ | ⟨emsg, body, deadline, ch⟩ | ⟨emsg, body, ch⟩ | ch
      · exact .inr rfl
      · exact .inl hph'
      · exact .inl hph'
      · exact .inr rfl
  | wake hph => cases hph'
  | refused now e hph he => cases hph'
  | rejected now e hph he => cases hph'
  | live now hph hc => cases hph'
  | @closed result hph => cases result <;> cases hph'

/-- The rules of `reconnect`, at a state `d` that a session has reached through the inputs `is`. -/
structure ReconnectRules (P : Prost) (json : DirectoryJson) (is : List Input)
    (d : SessionDriver) : Prop where
  /-- A sleep ends with an attempt; before the `k`-th one it lasts `min (2 ^ (k - 1)) 60` s. -/
  wake : ∀ secs, d.phase = .backoff secs → ∃ d', d.step P .wake = some d' ∧
    d'.phase = .connecting secs ∧ d'.log = d.log ++ [.dialed] ∧
    ∃ k, dials (events d'.log) = k ∧ 1 ≤ k ∧ secs = min (2 ^ (k - 1)) 60
  /-- No attempt is made in another way. -/
  dial : ∀ i d' secs, d.step P i = some d' → d'.phase = .connecting secs →
    d.phase = .connecting secs ∨ i = .wake ∧ d.phase = .backoff secs
  /-- A success brings the session back. -/
  live : ∀ secs now (round : ConnectRound P) c, d.phase = .connecting secs →
    (CmConnection.establish json round).2 = .ok c →
    ∃ d' l, d.step P (.attempt now (round.input json)) = some d' ∧ d'.phase = .connected l
  /-- Every error but a rejection is followed by a sleep. -/
  retry : ∀ secs now (round : ConnectRound P) e, d.phase = .connecting secs →
    (CmConnection.establish json round).2 = .error e → e.isAuthRejected = false →
    ∃ d' secs', d.step P (.attempt now (round.input json)) = some d' ∧ d'.phase = .backoff secs'
  /-- A rejection ends the session. -/
  reject : ∀ secs now (round : ConnectRound P) e, d.phase = .connecting secs →
    (CmConnection.establish json round).2 = .error e → e.isAuthRejected = true →
    ∃ d', d.step P (.attempt now (round.input json)) = some d' ∧ d'.phase = .closing (.error e)
  /-- Nothing but a rejection ends the session with an error: the last attempt of one of its
  rounds was answered so. -/
  ended : ∀ e, d.phase = .closing (.error e) ∨ d.phase = .stopped (.error e) →
    e.isAuthRejected = true ∧ ∃ now, ∃ round : ConnectRound P, ∃ last items r hlogon hread,
      .attempt now (round.input json) ∈ is ∧
      (CmConnection.establish json round).2 = .error e ∧
      (CmConnection.establish json round).1.getLast? = some last ∧
      last.2 = .answered items r hlogon hread ∧ r.result = .error e
  /-- Without an error it ends only by the will of its owner or a terminal logoff. -/
  stopped : ∀ i d' reason, d.step P i = some d' → d'.phase = .closing (.ok reason) →
    d.phase = .closing (.ok reason) ∨ d.stops P i
  /-- After a rejection there is no further attempt. -/
  after : ∀ p e q, d.log = p ++ .refused e :: q → e.isAuthRejected = true → .dialed ∉ q

variable {json : DirectoryJson}

/-- The driver takes a failed round for a failed attempt. -/
theorem step_attempt_of_error {secs now : Nat} {round : ConnectRound P} {e : Error}
    (hph : d.phase = .connecting secs) (he : (CmConnection.establish json round).2 = .error e) :
    d.step P (.attempt now (round.input json)) = d.onAttempt P now secs (.error e) := by
  rw [input_eq_error_iff.mpr he]
  simp only [step, hph]

/-- A call of `establish` that ends in a rejection made an attempt that was answered so. -/
theorem answered_of_establish {round : ConnectRound P} {e : Error}
    (h : (CmConnection.establish json round).2 = .error e) (he : e.isAuthRejected = true) :
    ∃ last items r hlogon hread, (CmConnection.establish json round).1.getLast? = some last ∧
      last.2 = .answered items r hlogon hread ∧ r.result = .error e := by
  have hrules := establish_rules json round
  rcases hdisc : discoverCmServers json round.directory with e' | servers
  · obtain ⟨-, hres, hretry⟩ := hrules.discovery e' hdisc
    obtain rfl : e' = e := Except.error.inj (hres.symm.trans h)
    cases hretry.symm.trans he
  · obtain ⟨last, hlast, hres⟩ := hrules.result servers hdisc
    obtain ⟨items, r, hlogon, hread, hans, hr⟩ :=
      ConnectAttempt.answered_of_isAuthRejected (hres.symm.trans h) he
    exact ⟨last, items, r, hlogon, hread, hlast, hans, hr⟩

/-- **The rules of `reconnect`.** -/
theorem reconnect_rules {now : Nat} {items : List WsItem} {d₀ : SessionDriver} {is : List Input}
    (h₀ : spawn P now items = some d₀) (hrun : Ledger.exec (step P) d₀ is = some d)
    (hfed : FedBy P json is) : ReconnectRules P json is d := by
  have hd : Reachable P d := ⟨now, items, d₀, is, h₀, hrun⟩
  obtain ⟨s, hs, hm⟩ := hd.lives
  refine ⟨?_, ?_, ?_, ?_, ?_, ?_, ?_, ?_⟩
  · intro secs hph
    have hback := hd.backedOff
    simp only [BackedOff, hph] at hback
    refine ⟨{ d.emit .dialed with phase := .connecting secs }, by simp only [step, hph], rfl, rfl,
      dials (events d.log) + 1, d.dials_dialed, by omega, hback⟩
  · intro i d' secs hstep hph'
    exact connecting_of_step hd.resting hstep hph'
  · intro secs now round c hph hc
    obtain ⟨items, hinput, hest⟩ := input_of_ok hc
    refine ⟨d.goLive now items c.1 c.2, _, ?_, rfl⟩
    rw [hinput]
    simp only [step, hph, onAttempt, hest, Option.map_some]
  · intro secs now round e hph he hretry
    rw [step_attempt_of_error hph he]
    simp only [onAttempt, hretry]
    exact ⟨_, _, rfl, rfl⟩
  · intro secs now round e hph he hrej
    rw [step_attempt_of_error hph he]
    simp only [onAttempt, hrej, if_true]
    exact ⟨_, rfl, rfl⟩
  · intro e hph
    obtain ⟨hmem, hrej⟩ := (hs.refused e).mpr ((hm.rejected_iff e).mpr hph)
    have hstart : .refuse e ∉ events d₀.log := by
      obtain ⟨c, -, hspawned⟩ := spawn_spec h₀
      rw [hspawned.log]
      simp [events, Effect.event?]
    obtain ⟨now, hatt⟩ := (refused_of_exec (spawn_resting h₀) hrun hmem).resolve_left hstart
    obtain ⟨round, hround⟩ := hfed now _ hatt
    have hres := input_eq_error_iff.mp hround
    obtain ⟨last, items, r, hlogon, hread, hans⟩ := answered_of_establish hres hrej
    exact ⟨hrej, now, round, last, items, r, hlogon, hread, hround ▸ hatt, hres, hans⟩
  · intro i d' reason hstep hph'
    exact stops_of_step hd.resting hstep hph'
  · intro p e q hlog hrej hq
    have hev : events d.log = events p ++ .refuse e :: events q := by
      rw [hlog, events_append]
      rfl
    exact hs.no_dial hev hrej (mem_events hq rfl)

end SessionDriver

namespace Sample

/-- A logon that is rejected for a wrong password. -/
def rejection : ConnectAttempt prost :=
  .answered [item (frame emsgClientLogonResponse 0 [0x08, 0x05])]
    ((CmConnection.connect.logon prost
      [item (frame emsgClientLogonResponse 0 [0x08, 0x05])]).get (by decide))
    (Option.some_get _).symm (by decide)

/-- A directory with two servers. -/
def directoryJson : DirectoryJson := fun _ =>
  .ok [{ endpoint := "cm1.example:443", kind := some "websockets", dc := none, load := none },
    { endpoint := "cm2.example:443", kind := none, dc := none, load := none }]

/-- A round that does not get the directory. -/
def unlisted : ConnectRound prost where
  directory := { clientError := none, reply := .error "dns error" }
  attempt _ := .timedOut

/-- A round whose first server is silent and whose second one rejects the logon. -/
def turnedDown : ConnectRound prost where
  directory :=
    { clientError := none, reply := .ok { status := 200, statusText := "200 OK", body := .ok "" } }
  attempt n := if n = 0 then .timedOut else rejection

/-- The session loses its connection and reconnects, until its logon is rejected. -/
def turningDown : List Input :=
  [.command (some (.notify 5402 [] 3)) (some "broken pipe"), .wake,
    .attempt 1 (unlisted.input directoryJson), .wake, .attempt 2 (turnedDown.input directoryJson),
    .closed]

end Sample

namespace SessionDriver

/-- **Only a rejected logon ends the retries.** Whatever the directory and the servers do,
`establish` tries the listed servers in order, five at most, `establish_resilient` does so four
times at most, and both stop at the first success and at the first rejection. A session that has
lost its connection goes on after every other error, with longer and longer sleeps, and ends with
an error only when its logon was rejected; after that it makes no attempt any more. -/
theorem only_auth_rejection_ends_retries (P : Prost) (json : DirectoryJson) :
    (∀ round : ConnectRound P, EstablishRules json round (CmConnection.establish json round).1
      (CmConnection.establish json round).2) ∧
    (∀ rounds : Nat → ConnectRound P,
      ResilientRules json rounds (establishResilient json rounds)) ∧
    ∀ now items d₀ is d, spawn P now items = some d₀ → Ledger.exec (step P) d₀ is = some d →
      FedBy P json is → ReconnectRules P json is d :=
  ⟨establish_rules json, resilient_rules json, fun _ _ _ _ _ => reconnect_rules⟩

/-- A session that is turned down with result 5 stops with that rejection. -/
theorem only_auth_rejection_ends_retries_sample :
    ∃ d, Ledger.exec (step Sample.prost) Sample.session Sample.turningDown = some d ∧
      d.phase = .stopped (.error (.authRejected "CM logon eresult 5")) ∧
      ReconnectRules Sample.prost Sample.directoryJson Sample.turningDown d := by
  have hfed : FedBy Sample.prost Sample.directoryJson Sample.turningDown := by
    intro now r hr
    have hr : (now = 1 ∧ r = Sample.unlisted.input Sample.directoryJson) ∨
        now = 2 ∧ r = Sample.turnedDown.input Sample.directoryJson := by
      simpa [Sample.turningDown] using hr
    rcases hr with ⟨-, rfl⟩ | ⟨-, rfl⟩
    · exact ⟨_, rfl⟩
    · exact ⟨_, rfl⟩
  have hd := (Option.some_get (x := Ledger.exec (step Sample.prost) Sample.session
    Sample.turningDown) (by decide)).symm
  refine ⟨_, hd, by decide, ?_⟩
  exact (only_auth_rejection_ends_retries _ _).2.2 0 _ _ _ _ (Option.some_get _).symm hd hfed

end SessionDriver

end Steamroids
