import Steamroids.DialRules

/-!
# Starting a Session

The loops of `establish` and of `establish_resilient` on any wire. They are those of
`Establishing`, with attempts that are made on the wire, in time.

## Main results

* `session_starts_in_time`: they end within a fixed time.
* `wire_acts_discreet`: with a proxy nothing goes past it, and the refresh token goes into TLS only.
* `connecting_refines_rounds`: they are the loops of `Establishing`, with the backoff slept.
* `proxy_deadlines_unreached`: the deadlines of a proxy's handshake are never reached.
-/

namespace Steamroids

open Timed (Comp Meets EndsBy Ran)

namespace Carrier

variable {C : Carrier} {P : Prost} {config : SessionConfig} {now : Nat}

/-! ### The loop over the servers -/

/-- The deadlines that `establish` can report. -/
def sessionTimeouts (proxy : Option ProxyConfig) : List String :=
  "cm connect attempt" :: wsTimeouts proxy

/-- An attempt is over before a deadline of the proxy's handshake. -/
theorem attemptTimeout_lt (t : Nat) (h : t ≤ now + connectAttemptTimeout) :
    t < now + proxyHandshakeTimeout := by
  have hlt : connectAttemptTimeout < proxyHandshakeTimeout := by decide
  omega

/-- An attempt within its time. -/
theorem meets_attempt_within {allowed : CmServer → Prop} {server : CmServer}
    (hserver : allowed server) :
    Meets now (WireAct.Discreet C config.proxy allowed)
      (Timed.within connectAttemptTimeout (C.attempt P config server) : Async _)
      fun _ r => ∃ a : ConnectAttempt P, r = .ok a.done? ∧
        ∀ w, a.done? = some (.error (.timeout w)) → w ∈ wsTimeouts config.proxy := by
  refine (meets_attempt hserver).within _ ?_ ⟨.timedOut, rfl, by rintro w ⟨⟩⟩
  intro t r _ ht hattempted
  obtain ⟨a, ha⟩ := hattempted.attempt
  refine ⟨a, congrArg _ ha.symm, ?_⟩
  intro w hw
  refine (hattempted.late w (Option.some.inj (ha.symm.trans hw))).resolve_right ?_
  exact Nat.not_le.mpr (attemptTimeout_lt t ht)

/-- If it is a timeout, then one that `establish` can report. -/
def Reports {α : Type} (proxy : Option ProxyConfig) (r : Except Error α) : Prop :=
  ∀ w, r = .error (.timeout w) → w ∈ sessionTimeouts proxy

/-- The loop keeps to its servers, and reports what its attempts do. -/
theorem meets_establishLoop {allowed : CmServer → Prop} {servers : List CmServer}
    (hservers : ∀ server ∈ servers, allowed server) {lastErr : Option Error}
    (hlast : ∀ w, lastErr = some (.timeout w) → w ∈ sessionTimeouts config.proxy) :
    Meets now (WireAct.Discreet C config.proxy allowed) (C.establishLoop P config lastErr servers)
      fun _ r => Reports config.proxy r := by
  induction servers generalizing lastErr now with
  | nil =>
      refine Timed.meets_ofExcept ?_
      intro w hw
      refine hlast w ?_
      cases lastErr with
      | none => cases hw
      | some e => exact congrArg some (Except.error.inj hw)
  | cons server rest ih =>
      obtain ⟨hserver, hrest⟩ := List.forall_mem_cons.mp hservers
      refine (meets_attempt_within hserver).bind ?_ ?_
      · rintro t e - ⟨a, h, -⟩
        cases h
      · rintro t x - ⟨a, hx, htimeouts⟩
        obtain rfl := Except.ok.inj hx
        rcases hdone : a.done? with _ | e | c
        · refine ih hrest ?_
          rintro w ⟨⟩
          exact List.mem_cons_self
        · have hreports : ∀ w, e = .timeout w → w ∈ sessionTimeouts config.proxy := by
            rintro w rfl
            exact List.mem_cons_of_mem _ (htimeouts w hdone)
          dsimp only
          split
          · exact Timed.meets_ofExcept fun w hw => hreports w (Except.error.inj hw)
          · exact ih hrest fun w hw => hreports w (Option.some.inj hw)
        · exact Timed.meets_ofExcept (by rintro w ⟨⟩)

/-! ### The directory -/

/-- Without a directory there is an error at once, and not a timeout. -/
theorem discoverCmServers_fails (json : DirectoryJson) (fetch : DirectoryFetch) :
    Fails (fun e => ∀ w, e ≠ .timeout w) (Steamroids.discoverCmServers json fetch) := by
  have hnetwork : ∀ text w, Error.network text ≠ .timeout w := by rintro text w ⟨⟩
  unfold Steamroids.discoverCmServers parseServers
  split
  · exact fails_error (by rintro w ⟨⟩)
  · split
    · exact fails_error (hnetwork _)
    · split
      · exact fails_error (hnetwork _)
      · split
        · exact fails_error (hnetwork _)
        · split
          · exact fails_error (hnetwork _)
          · dsimp only
            split
            · exact fails_error (hnetwork _)
            · exact fails_ok _

/-- The directory is fetched through the proxy, and a failure of it is a value. -/
theorem meets_fetchDirectory {proxy : Option ProxyConfig} {allowed : CmServer → Prop} :
    Meets now (WireAct.Discreet C proxy allowed)
      (C.fetchDirectory (proxy.map ProxyConfig.httpProxy)) fun _ r => ∀ e, r ≠ .error e := by
  refine Timed.meets_instant_bind ?_
  have hlate {α : Type} {t deadline : Nat} {a : WireAct} {answer : Answer α}
      (ha : a.Discreet C proxy allowed) : Meets t (WireAct.Discreet C proxy allowed)
        (Timed.withinAt deadline (Timed.act a answer) : Async _) fun _ r => ∀ e, r ≠ .error e := by
    have hact : Meets t (WireAct.Discreet C proxy allowed) (Timed.act a answer) fun _ _ => True :=
      Timed.meets_act ha fun _ _ _ => trivial
    refine hact.withinAt deadline ?_ ?_
    · rintro t r - - - e ⟨⟩
    · rintro e ⟨⟩
  have hpure {t : Nat} {reply : Except String DirectoryReply} :
      Meets t (WireAct.Discreet C proxy allowed) (pure reply : Async _)
        fun _ r => ∀ e, r ≠ .error e := by
    refine Timed.meets_ofExcept ?_
    rintro e ⟨⟩
  refine (hlate ?_).bind (fun _ e _ h => absurd rfl (h e)) fun t response _ _ => ?_
  · rfl
  · split
    · exact hpure
    · exact (hlate (by rfl)).bind (fun _ e _ h => absurd rfl (h e)) fun _ _ _ _ => hpure

/-- The servers are those of a directory that has come through the proxy. -/
theorem meets_discoverCmServers {proxy : Option ProxyConfig} {allowed : CmServer → Prop} :
    Meets now (WireAct.Discreet C proxy allowed) (C.discoverCmServers proxy)
      fun _ r => ∃ fetch, Steamroids.discoverCmServers C.json fetch = r := by
  have hclient : Meets now (WireAct.Discreet C proxy allowed)
      (Timed.ofExcept (httpClient C.http proxy) : Async _) fun _ r => r = httpClient C.http proxy :=
    Timed.meets_ofExcept rfl
  refine hclient.bind ?_ ?_
  · intro t e _ he
    rcases httpClient_cases C.http proxy with ⟨text, herror⟩ | hok
    · obtain rfl := Except.error.inj (he.trans herror)
      exact ⟨⟨some text, .error ""⟩, rfl⟩
    · cases he.trans hok
  · intro t via _ hvia
    rcases httpClient_cases C.http proxy with ⟨text, herror⟩ | hok
    · cases hvia.trans herror
    · obtain rfl := Except.ok.inj (hvia.trans hok)
      refine meets_fetchDirectory.bind (fun _ e _ h => absurd rfl (h e)) fun _ reply _ _ => ?_
      exact Timed.meets_ofExcept ⟨⟨none, reply⟩, rfl⟩

/-! ### Rounds -/

/-- A round reports timeouts of its attempts only. -/
theorem meets_establish :
    Meets now (WireAct.Discreet C config.proxy fun _ => True) (C.establish P config)
      fun _ r => Reports config.proxy r := by
  refine meets_discoverCmServers.bind ?_ ?_
  · rintro t e - ⟨fetch, hfetch⟩ w hw
    exact absurd (Except.error.inj hw) (discoverCmServers_fails C.json fetch e hfetch w)
  · rintro t servers - -
    exact meets_establishLoop (fun _ _ => trivial) (by rintro w ⟨⟩)

/-- So does the loop over the rounds. -/
theorem meets_resilientLoop (as : List Nat) (backoff : Nat) {lastErr : Error}
    (hlast : ∀ w, lastErr = .timeout w → w ∈ sessionTimeouts config.proxy) :
    Meets now (WireAct.Discreet C config.proxy fun _ => True)
      (C.resilientLoop P config backoff lastErr as) fun _ r => Reports config.proxy r := by
  induction as generalizing backoff lastErr now with
  | nil => exact Timed.meets_ofExcept fun w hw => hlast w (Except.error.inj hw)
  | cons n rest ih =>
      have hround : Meets now (WireAct.Discreet C config.proxy fun _ => True)
          ((C.establish P config).result : Async _)
          fun _ r => ∃ x, r = .ok x ∧ Reports config.proxy x :=
        meets_establish.result fun t r _ h => ⟨r, rfl, h⟩
      refine hround.bind ?_ ?_
      · rintro t e - ⟨x, h, -⟩
        cases h
      · rintro t x - ⟨x', hx, hreports⟩
        obtain rfl := Except.ok.inj hx
        cases x with
        | ok c => exact Timed.meets_ofExcept (by rintro w ⟨⟩)
        | error e =>
            have hnext : ∀ w, e = .timeout w → w ∈ sessionTimeouts config.proxy :=
              fun w hw => hreports w (congrArg _ hw)
            dsimp only
            split
            · exact Timed.meets_ofExcept hreports
            · split
              · have hsleep : Meets t (WireAct.Discreet C config.proxy fun _ => True)
                    (Timed.sleep (fromSecs backoff) : Async Unit) fun _ r => r = .ok () :=
                  Timed.meets_sleep rfl
                refine hsleep.bind ?_ fun _ _ _ _ => ih _ hnext
                rintro t' e' - h
                cases h
              · exact ih _ hnext

/-! ### A start, taken apart -/

section OnWire

variable (C P config)

/-- Attempts on servers as they are made on the wire, one after the other: each begins when the one
before it is over or its time is up, and ends as the attempt of `Establishing` does. -/
inductive TriedOnWire : Nat → List (Nat × WireAct) → List (CmServer × ConnectAttempt P) →
    List (Nat × WireAct) → Nat → Prop
  | nil (now : Nat) (log : List (Nat × WireAct)) : TriedOnWire now log [] [] now
  | cons {now t t' : Nat} {log acts acts' : List (Nat × WireAct)} {server : CmServer}
      {a : ConnectAttempt P} {tried : List (CmServer × ConnectAttempt P)} :
      Ran (Timed.within connectAttemptTimeout (C.attempt P config server) : Async _) now log acts t
        (.ok a.done?) →
      TriedOnWire t (log ++ acts) tried acts' t' →
      TriedOnWire now log ((server, a) :: tried) (acts ++ acts') t'

/-- A round as it is made on the wire: it is a run of `establish` with the result of the round, the
directory gives what that of the round does, and what follows are the attempts of the round. -/
structure RoundOnWire (round : ConnectRound P) (now : Nat) (log acts : List (Nat × WireAct))
    (t : Nat) : Prop where
  ran : Ran (C.establish P config) now log acts t (CmConnection.establish C.json round).2
  parts : ∃ t₀ before after, acts = before ++ after ∧
    Ran (C.discoverCmServers config.proxy) now log before t₀
      (Steamroids.discoverCmServers C.json round.directory) ∧
    TriedOnWire C P config t₀ (log ++ before) (CmConnection.establish C.json round).1 after t

/-- Rounds as they are made on the wire, with the seconds slept between them. -/
inductive RoundsOnWire : List (ConnectRound P) → List Nat → Nat → List (Nat × WireAct) →
    List (Nat × WireAct) → Nat → Prop
  | nil (now : Nat) (log : List (Nat × WireAct)) : RoundsOnWire [] [] now log [] now
  | last {round : ConnectRound P} {now t : Nat} {log acts : List (Nat × WireAct)} :
      RoundOnWire C P config round now log acts t → RoundsOnWire [round] [] now log acts t
  | slept {round : ConnectRound P} {rounds : List (ConnectRound P)} {nap : Nat} {naps : List Nat}
      {now t t' : Nat} {log acts acts' : List (Nat × WireAct)} :
      RoundOnWire C P config round now log acts t →
      RoundsOnWire rounds naps (t + fromSecs nap) (log ++ acts) acts' t' →
      RoundsOnWire (round :: rounds) (nap :: naps) now log (acts ++ acts') t'

variable {C P config}

variable {t t₁ : Nat} {log acts before after : List (Nat × WireAct)}
  {r : Except Error (CmConnection × LoggedOn)}

variable (C P config) in
/-- A run of the loop over the servers, as that of `Establishing` with some attempts. -/
def LoopOnWire (lastErr : Option Error) (servers : List CmServer) (now : Nat)
    (log acts : List (Nat × WireAct)) (t : Nat) (r : Except Error (CmConnection × LoggedOn)) :
    Prop :=
  ∃ as : List (ConnectAttempt P), as.length = servers.length ∧
    (Steamroids.establishLoop lastErr (servers.zip as)).2 = r ∧
    TriedOnWire C P config now log (Steamroids.establishLoop lastErr (servers.zip as)).1 acts t

section Attempt

variable {lastErr : Option Error} {server : CmServer} {rest : List CmServer} {a : ConnectAttempt P}

/-- One attempt more, after which the loop goes on. -/
theorem LoopOnWire.cons {e : Error}
    (hattempt : Ran (Timed.within connectAttemptTimeout (C.attempt P config server) : Async _) now
      log before t₁ (.ok a.done?))
    (ha : a.result = .error e) (he : e.isAuthRejected = false)
    (h : LoopOnWire C P config (some e) rest t₁ (log ++ before) after t r) :
    LoopOnWire C P config lastErr (server :: rest) now log (before ++ after) t r := by
  obtain ⟨as, hlength, hresult, htried⟩ := h
  have hstep : Steamroids.establishLoop lastErr ((server :: rest).zip (a :: as)) =
      ((server, a) :: (Steamroids.establishLoop (some e) (rest.zip as)).1,
        (Steamroids.establishLoop (some e) (rest.zip as)).2) := by
    rw [List.zip_cons_cons, establishLoop_eq, establishLoop_eq]
    simp [Attempts.loop, ha, endsRetries, he]
  refine ⟨a :: as, by rw [List.length_cons, hlength, List.length_cons], ?_, ?_⟩
  · rw [hstep]
    exact hresult
  · rw [hstep]
    exact .cons hattempt htried

/-- One attempt more, after which the loop ends. -/
theorem loopOnWire_of_settled
    (hattempt : Ran (Timed.within connectAttemptTimeout (C.attempt P config server) : Async _) now
      log before t₁ (.ok a.done?))
    (ha : a.result = r) (hr : endsRetries r = true)
    (h : Ran (Timed.ofExcept r : Async _) t₁ (log ++ before) after t r) :
    LoopOnWire C P config lastErr (server :: rest) now log (before ++ after) t r := by
  obtain ⟨rfl, rfl, -⟩ := Timed.ran_ofExcept_inv h
  have hstep : Steamroids.establishLoop lastErr
      ((server :: rest).zip (a :: List.replicate rest.length .timedOut)) = ([(server, a)], r) := by
    rw [List.zip_cons_cons, establishLoop_eq]
    simp [Attempts.loop, ha, hr]
  refine ⟨a :: List.replicate rest.length .timedOut, by simp, ?_, ?_⟩
  · rw [hstep]
  · rw [hstep]
    exact .cons hattempt (.nil _ _)

end Attempt

/-- The loop over the servers makes the attempts of the loop of `Establishing`. -/
theorem establishLoop_onWire {servers : List CmServer} {lastErr : Option Error}
    (h : Ran (C.establishLoop P config lastErr servers) now log acts t r) :
    LoopOnWire C P config lastErr servers now log acts t r := by
  induction servers generalizing lastErr now log acts with
  | nil =>
      obtain ⟨rfl, rfl, rfl⟩ := Timed.ran_ofExcept_inv h
      exact ⟨[], rfl, rfl, .nil _ _⟩
  | cons server rest ih =>
      have hwithin := @meets_attempt_within C P config now (fun _ => True) server trivial
      rcases h.bind_inv with ⟨t₁, x, before, after, rfl, hattempt, hnext⟩ | ⟨e, hattempt, -⟩
      · obtain ⟨a, hx, -⟩ := (hwithin.of_ran hattempt).2
        obtain rfl := Except.ok.inj hx
        rcases hdone : a.done? with _ | e | c
        · have hresult : a.result = .error (.timeout "cm connect attempt") := by
            rw [ConnectAttempt.result, hdone]
            rfl
          rw [hdone] at hnext
          exact .cons hattempt hresult rfl (ih hnext)
        · have hresult : a.result = .error e := by
            rw [ConnectAttempt.result, hdone]
            rfl
          rw [hdone] at hnext
          dsimp only at hnext
          split at hnext
          · next he =>
              obtain ⟨-, -, rfl⟩ := Timed.ran_ofExcept_inv hnext
              exact loopOnWire_of_settled hattempt hresult he hnext
          · next he => exact .cons hattempt hresult (Bool.eq_false_iff.mpr he) (ih hnext)
        · have hresult : a.result = .ok c := by
            rw [ConnectAttempt.result, hdone]
            rfl
          rw [hdone] at hnext
          obtain ⟨-, -, rfl⟩ := Timed.ran_ofExcept_inv hnext
          exact loopOnWire_of_settled hattempt hresult rfl hnext
      · obtain ⟨a, hx, -⟩ := (hwithin.of_ran hattempt).2
        cases hx

/-- The attempts of a round that is made of a list of them. -/
theorem offered_eq_zip (fetch : DirectoryFetch) {as : List (ConnectAttempt P)}
    {servers : List CmServer} (h : as.length = (servers.take maxConnectAttempts).length) :
    (ConnectRound.mk fetch fun i => as.getD i .timedOut).offered servers =
      (servers.take maxConnectAttempts).zip as := by
  refine List.ext_getElem (by simp [ConnectRound.offered, ← h]) fun i hi _ => ?_
  have hlt : i < as.length := by simpa [ConnectRound.offered, ← h] using hi
  simp [ConnectRound.offered, List.getElem?_eq_getElem hlt]

/-- A run of `establish` is a round on the wire. -/
theorem establish_onWire (h : Ran (C.establish P config) now log acts t r) :
    ∃ round : ConnectRound P, (CmConnection.establish C.json round).2 = r ∧
      RoundOnWire C P config round now log acts t := by
  have hmeets := @meets_discoverCmServers C now config.proxy fun _ => True
  rcases Timed.Ran.bind_inv h with
    ⟨t₀, servers, before, after, rfl, hdirectory, hloop⟩ | ⟨e, hdirectory, rfl⟩
  · obtain ⟨fetch, hfetch⟩ := (hmeets.of_ran hdirectory).2
    obtain ⟨as, hlength, hresult, htried⟩ := establishLoop_onWire hloop
    have hround : CmConnection.establish C.json ⟨fetch, fun i => as.getD i .timedOut⟩ =
        Steamroids.establishLoop none ((servers.take maxConnectAttempts).zip as) := by
      simp only [CmConnection.establish, hfetch, offered_eq_zip fetch hlength]
    refine ⟨⟨fetch, fun i => as.getD i .timedOut⟩, by rw [hround, hresult], ?_, ?_⟩
    · rw [hround, hresult]
      exact h
    · refine ⟨t₀, before, after, rfl, ?_, ?_⟩
      · rw [hfetch]
        exact hdirectory
      · rw [hround]
        exact htried
  · obtain ⟨fetch, hfetch⟩ := (hmeets.of_ran hdirectory).2
    have hround : CmConnection.establish C.json
        (⟨fetch, fun _ => .timedOut⟩ : ConnectRound P) = ([], .error e) := by
      simp only [CmConnection.establish, hfetch]
    refine ⟨⟨fetch, fun _ => .timedOut⟩, by rw [hround], ?_, ?_⟩
    · rw [hround]
      exact h
    · refine ⟨t, acts, [], (List.append_nil acts).symm, ?_, ?_⟩
      · rw [hfetch]
        exact hdirectory
      · rw [hround]
        exact .nil _ _

/-- The rounds that are run are among those that may be. -/
theorem resilientLoop_rounds_subset (json : DirectoryJson) (rounds : Nat → ConnectRound P)
    (backoff : Nat) (lastErr : Error) (as : List Nat) :
    (Steamroids.resilientLoop json rounds backoff lastErr as).rounds ⊆ as := by
  have heq := congrArg Prod.fst (resilientLoop_eq json rounds backoff lastErr as)
  dsimp only at heq
  rw [heq]
  exact Attempts.stopsAtFirst_loop.isPrefix.subset

/-- The loop runs through its rounds with any other round for a number that is not among them. -/
theorem resilientLoop_update {json : DirectoryJson} {rounds : Nat → ConnectRound P} {n : Nat}
    {rest : List Nat} (hn : n ∉ rest) (round : ConnectRound P) (backoff : Nat) (lastErr : Error) :
    Steamroids.resilientLoop json (fun m => if m = n then round else rounds m) backoff lastErr
        rest = Steamroids.resilientLoop json rounds backoff lastErr rest := by
  induction rest generalizing backoff lastErr with
  | nil => rfl
  | cons m rest ih =>
      obtain ⟨hne, hrest⟩ := not_or.mp (mt List.mem_cons.mpr hn)
      simp only [Steamroids.resilientLoop, if_neg (Ne.symm hne), ih hrest]

/-- The same for the rounds that are run. -/
theorem map_update {rounds : Nat → ConnectRound P} {n : Nat} {ns : List Nat} (hn : n ∉ ns)
    (round : ConnectRound P) :
    ns.map (fun m => if m = n then round else rounds m) = ns.map rounds := by
  refine List.map_congr_left fun m hm => if_neg ?_
  rintro rfl
  exact hn hm

variable (C P config) in
/-- A run of the loop over the rounds, as that of `Establishing` with some rounds. -/
def StartOnWire (backoff : Nat) (lastErr : Error) (as : List Nat) (now : Nat)
    (log acts : List (Nat × WireAct)) (t : Nat) (r : Except Error (CmConnection × LoggedOn)) :
    Prop :=
  ∃ rounds : Nat → ConnectRound P,
    let run := Steamroids.resilientLoop C.json rounds backoff lastErr as
    run.result = r ∧ RoundsOnWire C P config (run.rounds.map rounds) run.sleeps now log acts t

section Round

variable {backoff n : Nat} {lastErr : Error} {rest : List Nat}

/-- A round that settles the matter. -/
theorem startOnWire_of_settled (hround : Ran (C.establish P config) now log before t₁ r)
    (hr : endsRetries r = true)
    (h : Ran (Timed.ofExcept r : Async _) t₁ (log ++ before) after t r) :
    StartOnWire C P config backoff lastErr (n :: rest) now log (before ++ after) t r := by
  obtain ⟨rfl, rfl, -⟩ := Timed.ran_ofExcept_inv h
  obtain ⟨round, hresult, honWire⟩ := establish_onWire hround
  have hrun : Steamroids.resilientLoop C.json (fun _ => round) backoff lastErr (n :: rest) =
      ⟨[n], [], r⟩ := by
    cases r with
    | ok c => simp [Steamroids.resilientLoop, hresult]
    | error e =>
        have he : e.isAuthRejected = true := hr
        simp [Steamroids.resilientLoop, hresult, he]
  refine ⟨fun _ => round, ?_⟩
  rw [hrun, List.append_nil]
  exact ⟨rfl, .last honWire⟩

/-- A round that fails, after which the loop sleeps and goes on. -/
theorem StartOnWire.slept {e : Error}
    (hround : Ran (C.establish P config) now log before t₁ (.error e))
    (he : e.isAuthRejected = false) (hn : n ∉ rest) (hlt : n < initialConnectAttempts)
    (h : StartOnWire C P config (min (backoff * 2) maxBackoff) e rest (t₁ + fromSecs backoff)
      (log ++ before) after t r) :
    StartOnWire C P config backoff lastErr (n :: rest) now log (before ++ after) t r := by
  obtain ⟨round, hresult, honWire⟩ := establish_onWire hround
  obtain ⟨rounds, hrest, hrounds⟩ := h
  have hsub := resilientLoop_rounds_subset C.json rounds (min (backoff * 2) maxBackoff) e rest
  refine ⟨fun m => if m = n then round else rounds m, ?_⟩
  simp only [Steamroids.resilientLoop, if_true, hresult, he, hlt, Bool.false_eq_true, if_false,
    resilientLoop_update hn, List.map_cons, map_update (mt (@hsub n) hn)]
  exact ⟨hrest, .slept honWire hrounds⟩

/-- The last round, if it fails. -/
theorem startOnWire_of_last {e : Error}
    (hround : Ran (C.establish P config) now log before t₁ (.error e))
    (he : e.isAuthRejected = false) (hlt : ¬ n < initialConnectAttempts)
    (h : Ran (Timed.ofExcept (.error e) : Async _) t₁ (log ++ before) after t r) :
    StartOnWire C P config backoff lastErr [n] now log (before ++ after) t r := by
  obtain ⟨rfl, rfl, rfl⟩ := Timed.ran_ofExcept_inv h
  obtain ⟨round, hresult, honWire⟩ := establish_onWire hround
  refine ⟨fun _ => round, ?_⟩
  simp only [Steamroids.resilientLoop, hresult, he, hlt, Bool.false_eq_true, if_false,
    List.map_cons, List.map_nil, List.append_nil]
  exact ⟨trivial, .last honWire⟩

end Round

/-- The loop over the rounds makes those of the loop of `Establishing`, and sleeps as it does. -/
theorem resilientLoop_onWire {k count backoff : Nat} {lastErr : Error}
    (hcount : k + count = initialConnectAttempts + 1)
    (h : Ran (C.resilientLoop P config backoff lastErr (List.range' k count)) now log acts t r) :
    StartOnWire C P config backoff lastErr (List.range' k count) now log acts t r := by
  induction count generalizing k backoff lastErr now log acts with
  | zero =>
      obtain ⟨rfl, rfl, rfl⟩ := Timed.ran_ofExcept_inv h
      exact ⟨fun _ => ⟨⟨none, .error ""⟩, fun _ => .timedOut⟩, rfl, .nil _ _⟩
  | succ count ih =>
      rw [List.range'_succ] at h ⊢
      have hk : k ∉ List.range' (k + 1) count := by simp
      rcases Timed.Ran.bind_inv h with
        ⟨t₁, x, before, after, rfl, hround, hnext⟩ | ⟨e, hround, -⟩
      · obtain ⟨x', hx, hran⟩ := Timed.ran_result_inv hround
        obtain rfl := Except.ok.inj hx
        cases x with
        | ok c =>
            obtain ⟨-, -, rfl⟩ := Timed.ran_ofExcept_inv hnext
            exact startOnWire_of_settled hran rfl hnext
        | error e =>
            dsimp only at hnext
            split at hnext
            · next he =>
                obtain ⟨-, -, rfl⟩ := Timed.ran_ofExcept_inv hnext
                exact startOnWire_of_settled hran he hnext
            · next he =>
                have he := Bool.eq_false_iff.mpr he
                split at hnext
                · next hlt =>
                    rcases Timed.Ran.bind_inv hnext with
                      ⟨t₂, u, slept, later, rfl, hsleep, hloop⟩ | ⟨e', hsleep, -⟩
                    · obtain ⟨rfl, rfl, -⟩ := Timed.ran_sleep_inv hsleep
                      rw [List.append_nil] at hloop
                      exact .slept hran he hk hlt (ih (by omega) hloop)
                    · obtain ⟨-, -, h⟩ := Timed.ran_sleep_inv hsleep
                      cases h
                · next hlt =>
                    obtain rfl : count = 0 := by omega
                    exact startOnWire_of_last hran he hlt hnext
      · obtain ⟨x', hx, -⟩ := Timed.ran_result_inv hround
        cases hx

/-- Rounds take at least the time that is slept between them. -/
theorem RoundsOnWire.sleeps_le {rounds : List (ConnectRound P)} {naps : List Nat}
    (h : RoundsOnWire C P config rounds naps now log acts t) : now + fromSecs naps.sum ≤ t := by
  induction h with
  | nil => simp [fromSecs]
  | last hround => simpa [fromSecs] using hround.ran.le
  | slept hround _ ih =>
      have hle := hround.ran.le
      simp only [List.sum_cons, fromSecs, Nat.add_mul] at ih ⊢
      omega

/-- Every act of the rounds is one of a round. -/
theorem RoundsOnWire.mem {rounds : List (ConnectRound P)} {naps : List Nat}
    (h : RoundsOnWire C P config rounds naps now log acts t) {x : Nat × WireAct} (hx : x ∈ acts) :
    ∃ pre mid post since t' r, acts = pre ++ mid ++ post ∧ x ∈ mid ∧
      Ran (C.establish P config) since (log ++ pre) mid t' r := by
  induction h with
  | nil => cases hx
  | @last round now t log acts hround =>
      exact ⟨[], acts, [], now, t, _, by simp, hx, (List.append_nil log).symm ▸ hround.ran⟩
  | @slept round rounds nap naps now t t' log acts acts' hround _ ih =>
      rcases List.mem_append.mp hx with hx | hx
      · exact ⟨[], acts, acts', now, t, _, by simp, hx, (List.append_nil log).symm ▸ hround.ran⟩
      · obtain ⟨pre, mid, post, since, t'', r, rfl, hmem, hran⟩ := ih hx
        refine ⟨acts ++ pre, mid, post, since, t'', r, by simp, hmem, ?_⟩
        rw [← List.append_assoc]
        exact hran

variable (C config) in
/-- The servers that may be tried in a round that begins so: the first five that it discovers. -/
def Offered (now : Nat) (log : List (Nat × WireAct)) (server : CmServer) : Prop :=
  ∃ acts t servers, Ran (C.discoverCmServers config.proxy) now log acts t (.ok servers) ∧
    server ∈ servers.take 5

/-- The acts of a round keep to the proxy, and to the servers of the round. -/
theorem establish_discreet (h : Ran (C.establish P config) now log acts t r) :
    ∀ x ∈ acts, x.2.Discreet C config.proxy (Offered C config now log) := by
  have hmeets := @meets_discoverCmServers C now config.proxy (Offered C config now log)
  rcases Timed.Ran.bind_inv h with
    ⟨t₀, servers, before, after, rfl, hdirectory, hloop⟩ | ⟨e, hdirectory, rfl⟩
  · intro x hx
    rcases List.mem_append.mp hx with hx | hx
    · exact (hmeets.of_ran hdirectory).1 x hx
    · have hservers : ∀ server ∈ servers.take maxConnectAttempts, Offered C config now log server :=
        fun server hserver => ⟨before, t₀, servers, hdirectory, hserver⟩
      exact ((meets_establishLoop hservers (by rintro w ⟨⟩)).of_ran hloop).1 x hx
  · exact (hmeets.of_ran hdirectory).1

end OnWire

/-! ### In time -/

/-- The time for a socket. -/
def tcpTime : Option ProxyConfig → Nat
  | some _ => proxyConnectTimeout
  | none => tcpConnectTimeout

/-- A socket is there in its time. -/
theorem endsBy_connectTcp (proxy : Option ProxyConfig) (host : String) (port : UInt16) :
    EndsBy now (now + tcpTime proxy) (C.connectTcp proxy host port) := by
  cases proxy with
  | some p => exact Timed.endsBy_timeout _ _ _
  | none =>
      exact (Timed.endsBy_timeout _ _ _).bind (Nat.le_refl _) fun _ _ _ ht =>
        Timed.endsBy_ofExcept ht _

/-- TLS is there in its time. -/
theorem endsBy_wrapTls (host : String) (isWss : Bool) (tcp : AsyncStream) :
    EndsBy now (now + tlsHandshakeTimeout) (C.wrapTls host isWss tcp) := by
  unfold wrapTls
  split
  · refine (Timed.endsBy_ofExcept (Nat.le_refl _) _).bind (Nat.le_add_right _ _) fun t _ _ ht => ?_
    refine ((Timed.endsBy_timeout _ _ _).mono (Nat.add_le_add_right ht _)).bind (Nat.le_refl _) ?_
    exact fun _ _ _ ht' => Timed.endsBy_ofExcept ht' _
  · exact Timed.endsBy_ofExcept (Nat.le_add_right _ _) _

/-- A WebSocket is there in the time of its handshakes. -/
theorem endsBy_connectWs (url : String) (proxy : Option ProxyConfig) :
    EndsBy now (now + (tcpTime proxy + tlsHandshakeTimeout + wsHandshakeTimeout))
      (C.connectWs url proxy) := by
  refine (Timed.endsBy_ofExcept (Nat.le_refl now) _).bind (Nat.le_add_right _ _) ?_
  rintro t₀ ⟨host, port, isWss⟩ - ht₀
  refine (endsBy_connectTcp proxy host port).bind (by omega) fun t₁ tcp _ ht₁ => ?_
  refine (endsBy_wrapTls host isWss tcp).bind (by omega) fun t₂ stream _ ht₂ => ?_
  refine (Timed.endsBy_ofExcept (Nat.le_refl t₂) _).bind (by omega) fun t₃ _ _ ht₃ => ?_
  refine (Timed.endsBy_timeout _ _ _).bind (by omega) fun t₄ _ _ ht₄ => ?_
  exact Timed.endsBy_ofExcept (by omega) _

/-- The directory is there in the time of the HTTP client. -/
theorem endsBy_fetchDirectory (via : Option HttpProxy) :
    EndsBy now (now + totalTimeout) (C.fetchDirectory via) := by
  refine Timed.endsBy_instant_bind ?_
  refine (Timed.endsBy_withinAt (Nat.le_add_right _ _) _).bind (Nat.le_refl _) ?_
  intro t response _ ht
  split
  · exact Timed.endsBy_ofExcept ht _
  · exact (Timed.endsBy_withinAt ht _).bind (Nat.le_refl _) fun _ _ _ ht =>
      Timed.endsBy_ofExcept ht _

/-- So are the servers in it. -/
theorem endsBy_discoverCmServers (proxy : Option ProxyConfig) :
    EndsBy now (now + totalTimeout) (C.discoverCmServers proxy) := by
  refine (Timed.endsBy_ofExcept (Nat.le_refl _) _).bind (Nat.le_add_right _ _) ?_
  intro t via _ ht
  refine (endsBy_fetchDirectory via).bind (Nat.add_le_add_right ht _) fun _ _ _ ht' => ?_
  exact Timed.endsBy_ofExcept (ht'.trans (Nat.add_le_add_right ht _)) _

/-- The loop over the servers takes the time of their attempts. -/
theorem endsBy_establishLoop (lastErr : Option Error) (servers : List CmServer) :
    EndsBy now (now + servers.length * connectAttemptTimeout)
      (C.establishLoop P config lastErr servers) := by
  induction servers generalizing lastErr now with
  | nil => exact Timed.endsBy_ofExcept (Nat.le_add_right _ _) _
  | cons server rest ih =>
      have hbound : now + (rest.length + 1) * connectAttemptTimeout =
          now + connectAttemptTimeout + rest.length * connectAttemptTimeout := by
        rw [Nat.succ_mul]
        omega
      rw [List.length_cons, hbound]
      refine (Timed.endsBy_within _ _).bind (Nat.le_add_right _ _) fun t x _ ht => ?_
      have hrest (lastErr : Option Error) : EndsBy t _ (C.establishLoop P config lastErr rest) :=
        (ih lastErr).mono (Nat.add_le_add_right ht _)
      have hle := ht.trans (Nat.le_add_right _ (rest.length * connectAttemptTimeout))
      rcases x with _ | e | c
      · exact hrest _
      · dsimp only
        split
        · exact Timed.endsBy_ofExcept hle _
        · exact hrest _
      · exact Timed.endsBy_ofExcept hle _

/-- The time for one round: the directory, and five servers. -/
def roundTime : Nat := fromSecs 130

/-- A round takes the time for it. -/
theorem endsBy_establish : EndsBy now (now + roundTime) (C.establish P config) := by
  refine (endsBy_discoverCmServers config.proxy).bind (Nat.add_le_add_left (by decide) _) ?_
  intro t servers _ ht
  refine (endsBy_establishLoop none _).mono ?_
  have hservers : (servers.take maxConnectAttempts).length ≤ 5 := List.length_take_le _ _
  have htime : totalTimeout + 5 * connectAttemptTimeout = roundTime := by decide
  have := Nat.mul_le_mul_right connectAttemptTimeout hservers
  omega

/-- The seconds that are slept between the rounds, if all of them fail. -/
def naps (backoff : Nat) : List Nat → Nat
  | [] => 0
  | n :: rest =>
      if n < initialConnectAttempts then backoff + naps (min (backoff * 2) maxBackoff) rest
      else naps backoff rest

/-- The loop over the rounds takes their time, and that of the naps between them. -/
theorem endsBy_resilientLoop (backoff : Nat) (lastErr : Error) (as : List Nat) :
    EndsBy now (now + as.length * roundTime + fromSecs (naps backoff as))
      (C.resilientLoop P config backoff lastErr as) := by
  induction as generalizing backoff lastErr now with
  | nil => exact Timed.endsBy_ofExcept (by omega) _
  | cons n rest ih =>
      have hlength : (rest.length + 1) * roundTime = roundTime + rest.length * roundTime := by
        rw [Nat.succ_mul, Nat.add_comm]
      rw [List.length_cons, hlength]
      refine endsBy_establish.result.bind (by omega) fun t x _ ht => ?_
      cases x with
      | ok c => exact Timed.endsBy_ofExcept (by omega) _
      | error e =>
          dsimp only
          split
          · exact Timed.endsBy_ofExcept (by omega) _
          · rw [naps]
            split
            · have hadd : fromSecs (backoff + naps (min (backoff * 2) maxBackoff) rest) =
                  fromSecs backoff + fromSecs (naps (min (backoff * 2) maxBackoff) rest) :=
                Nat.add_mul _ _ _
              rw [hadd]
              refine (Timed.endsBy_sleep _).bind (by omega) fun t' _ _ ht' => ?_
              exact (ih _ _).mono (by omega)
            · exact (ih _ _).mono (by omega)

/-! ### The rules of a start -/

/-- The time of `connect_ws`: its three handshakes, one after the other. -/
theorem fromSecs_wsTime (proxy : Option ProxyConfig) :
    fromSecs (if proxy.isSome then 75 else 45) =
      tcpTime proxy + tlsHandshakeTimeout + wsHandshakeTimeout := by
  have hdirect : fromSecs 45 =
      tcpConnectTimeout + tlsHandshakeTimeout + wsHandshakeTimeout := by decide
  have hproxied : fromSecs 75 =
      proxyConnectTimeout + tlsHandshakeTimeout + wsHandshakeTimeout := by decide
  cases proxy with
  | none =>
      rw [Option.isSome_none, if_neg Bool.false_ne_true, hdirect]
      rfl
  | some p =>
      rw [Option.isSome_some, if_pos rfl, hproxied]
      rfl

/-- The time of `establish_resilient`: its rounds, and the naps between them. -/
theorem fromSecs_resilientTime :
    fromSecs 527 = [1, 2, 3, 4].length * roundTime +
      fromSecs (naps initialBackoff [1, 2, 3, 4]) := by
  decide

/-- A start ends by the end of its last round. -/
theorem endsBy_establishResilient :
    EndsBy now (now + fromSecs 527) (C.establishResilient P config) := by
  rw [fromSecs_resilientTime, ← Nat.add_assoc]
  exact endsBy_resilientLoop initialBackoff _ [1, 2, 3, 4]

/-- **A session starts in time.** Whatever the network does, and if it never answers: `connect_ws`
has a result within 75 seconds through a proxy and within 45 without, `establish` within 130, and
`establish_resilient` within 527. -/
theorem session_starts_in_time (C : Carrier) (P : Prost) (config : SessionConfig) (url : String)
    (now : Nat) (log : List (Nat × WireAct)) :
    (∃ t r, ((C.connectWs url config.proxy).run now log).done = some (t, r) ∧
      t ≤ now + fromSecs (if config.proxy.isSome then 75 else 45)) ∧
    (∃ t r, ((C.establish P config).run now log).done = some (t, r) ∧ t ≤ now + fromSecs 130) ∧
    ∃ t r, ((C.establishResilient P config).run now log).done = some (t, r) ∧
      t ≤ now + fromSecs 527 := by
  refine ⟨?_, endsBy_establish log, endsBy_establishResilient log⟩
  rw [fromSecs_wsTime]
  exact endsBy_connectWs url config.proxy log

/-- A start reports timeouts of its attempts only. -/
theorem meets_establishResilient :
    Meets now (WireAct.Discreet C config.proxy fun _ => True) (C.establishResilient P config)
      fun _ r => Reports config.proxy r :=
  meets_resilientLoop _ _ (by rintro w ⟨⟩)

/-- A start is made of rounds on the wire. -/
theorem establishResilient_onWire {t : Nat} {log acts : List (Nat × WireAct)}
    {r : Except Error (CmConnection × LoggedOn)}
    (h : Ran (C.establishResilient P config) now log acts t r) :
    StartOnWire C P config initialBackoff (.network "no connect attempt ran")
      (List.range' 1 initialConnectAttempts) now log acts t r :=
  have hcount : 1 + initialConnectAttempts = initialConnectAttempts + 1 := Nat.add_comm _ _
  resilientLoop_onWire hcount h

end Carrier

namespace Sample

/-- A URL crate that knows the two servers of the directory. -/
def serverCrate : UrlCrate where
  parse raw :=
    if raw = "wss://cm1.example:443/cmsocket/" then
      .ok { scheme := "wss", hostStr := some "cm1.example", port := none }
    else if raw = "wss://cm2.example:443/cmsocket/" then
      .ok { scheme := "wss", hostStr := some "cm2.example", port := none }
    else
      .error "relative URL without a base"
  portOrKnownDefault url := url.port <|> knownDefaultPort url.scheme

/-- The crate is a standard one. -/
theorem standard_serverCrate : serverCrate.Standard := by
  have hparsed : ∀ raw url, serverCrate.parse raw = .ok url →
      schemeOf raw = some "wss" ∧ url.scheme = "wss" := by
    intro raw url h
    rw [serverCrate] at h
    dsimp only at h
    split at h
    · next hraw =>
        subst hraw
        exact ⟨by decide, by rw [← Except.ok.inj h]⟩
    · split at h
      · next hraw =>
          subst hraw
          exact ⟨by decide, by rw [← Except.ok.inj h]⟩
      · cases h
  refine ⟨fun _ => rfl, ?_, ?_⟩
  · intro raw url h
    obtain ⟨hraw, hurl⟩ := hparsed raw url h
    rw [hraw, hurl]
  · intro raw url h _ hscheme
    rw [(hparsed raw url h).2] at hscheme
    exact absurd hscheme (by decide)

/-- The reply of the proxy is not empty. -/
theorem okReply_ne_nil : Utf8.encode "HTTP/1.1 200 OK\r\n\r\n" ≠ [] := by decide

/-- A carrier on which everything takes a second. -/
def carrier : Carrier where
  json := directoryJson
  http := { proxyAll := fun _ => none, build := none }
  url := serverCrate
  base64 := id
  serverName _ := .ok ()
  clientRequest _ := .ok ()
  fetchLate := "operation timed out"
  response _ _ _ := some (fromSecs 1, .ok (200, "200 OK"))
  body _ _ _ := some (fromSecs 1, .ok "")
  dial _ _ _ := some (fromSecs 1, .ok ())
  socks5 _ _ _ _ _ := some (fromSecs 1, .ok ())
  handshake _ _ _ _ := some (fromSecs 1, .ok ())
  write _ _ _ _ := some (fromSecs 1, .ok ())
  reply _ _ _ := [(fromSecs 1, .chunk ⟨_, okReply_ne_nil⟩)]
  upgrade _ _ _ _ := some (fromSecs 1, .ok ())
  send _ _ _ := some (fromSecs 1, .ok ())
  items _ _ _ := [(fromSecs 1, item logonFrame)]

/-- A start through an https proxy. -/
def proxied : SessionConfig where
  accountName := "account"
  refreshToken := "token"
  proxy := some { kind := .httpConnect, host := "proxy", port := 3128, tlsToProxy := true }

/-- The start on that carrier. -/
def started : Timed.Run WireAct Error (CmConnection × LoggedOn) :=
  (carrier.establishResilient prost proxied).run 0 []

end Sample

namespace Carrier

/-- **Nothing goes past the proxy, and no token out of TLS.** On any network, and wherever a
deadline cuts in: every act of a start is one of a round of it, which has begun at that instant and
after those acts, and keeps to the configured proxy. The logon, with the refresh token in it, is
only sent over TLS with the host in the URL of a server that is among the first five that this round
has discovered. -/
theorem wire_acts_discreet {C : Carrier} (hU : C.url.Standard) (P : Prost) (config : SessionConfig)
    (now : Nat) (log : List (Nat × WireAct)) :
    ∀ x ∈ ((C.establishResilient P config).run now log).acts,
      ∃ pre mid post since t r,
        ((C.establishResilient P config).run now log).acts = pre ++ mid ++ post ∧ x ∈ mid ∧
        Ran (C.establish P config) since (log ++ pre) mid t r ∧
        x.2.Discreet C config.proxy (Offered C config since (log ++ pre)) ∧
        ∀ s emsg header logon, x.2 = .send s emsg header logon →
          ∃ server host port, Offered C config since (log ++ pre) server ∧
            ServerAt C server host port ∧ s = .tls host (through config.proxy host port) := by
  intro x hx
  obtain ⟨t, r, hdone, -⟩ := endsBy_establishResilient (C := C) (P := P) log
  obtain ⟨rounds, -, hrounds⟩ := establishResilient_onWire (Timed.ran_of_done hdone)
  obtain ⟨pre, mid, post, since, t', r', hacts, hmem, hran⟩ := hrounds.mem hx
  have hdiscreet := establish_discreet hran x hmem
  refine ⟨pre, mid, post, since, t', r', hacts, hmem, hran, hdiscreet, ?_⟩
  intro s emsg header logon hsend
  rw [hsend] at hdiscreet
  obtain ⟨server, hserver, ⟨host, port, isWss⟩, htarget, rfl⟩ := hdiscreet
  obtain ⟨hwss, hat⟩ := wsTarget_wsUrl hU htarget
  obtain rfl : isWss = true := hwss
  exact ⟨server, host, port, hserver, hat, rfl⟩

/-- The logon of a start through an https proxy is sent into the proxy's tunnel. -/
theorem wire_acts_discreet_proxied :
    ∃ t s emsg header logon, (t, .send s emsg header logon) ∈ Sample.started.acts ∧
      ∃ pre since server host port, Offered Sample.carrier Sample.proxied since pre server ∧
        ServerAt Sample.carrier server host port ∧
        s = .tls host (through Sample.proxied.proxy host port) := by
  have hsent : (fromSecs 8, .send
      (.tls "cm1.example" (.tunnel "cm1.example:443" (.tls "proxy" (.tcp "proxy:3128"))))
      emsgClientLogon { steamid := some logonHeaderSteamid, clientSessionid := some 0 }
      (clientLogon "account" "token")) ∈ Sample.started.acts := by decide
  obtain ⟨pre, _, _, since, _, _, -, -, -, -, hsend⟩ :=
    wire_acts_discreet Sample.standard_serverCrate Sample.prost Sample.proxied 0 [] _ hsent
  exact ⟨_, _, _, _, _, hsent, _, since, hsend _ _ _ _ rfl⟩

/-- **A start is what `Establishing` says.** For a start on any network there are rounds, each with
a directory and with attempts on its servers, for which the loops of `Establishing` have the same
result. They are those of the run: in each round the directory has given what that of the round
does, the attempts made are those that the run has made, on the same servers, in the same number and
with the same ends, and between the rounds it has slept as they do. -/
theorem connecting_refines_rounds {C : Carrier} {P : Prost} {config : SessionConfig} {now t : Nat}
    {log : List (Nat × WireAct)} {r : Except Error (CmConnection × LoggedOn)}
    (h : ((C.establishResilient P config).run now log).done = some (t, r)) :
    ∃ rounds : Nat → ConnectRound P,
      let run := Steamroids.establishResilient C.json rounds
      run.result = r ∧ now + fromSecs run.sleeps.sum ≤ t ∧
        RoundsOnWire C P config (run.rounds.map rounds) run.sleeps now log
          ((C.establishResilient P config).run now log).acts t := by
  obtain ⟨rounds, hresult, hrounds⟩ := establishResilient_onWire (Timed.ran_of_done h)
  exact ⟨rounds, hresult, hrounds.sleeps_le, hrounds⟩

/-- The start through the proxy succeeds, and so does a start in `Establishing`, in its rounds. -/
theorem connecting_refines_rounds_proxied :
    ∃ (rounds : Nat → ConnectRound Sample.prost) (c : CmConnection × LoggedOn),
      let run := Steamroids.establishResilient Sample.directoryJson rounds
      run.result = .ok c ∧
        RoundsOnWire Sample.carrier Sample.prost Sample.proxied (run.rounds.map rounds) run.sleeps 0
          [] Sample.started.acts (fromSecs 10) := by
  have hstarted : ∃ c, Sample.started.done = some (fromSecs 10, .ok c) :=
    ⟨({ steamId := logonHeaderSteamid, sessionId := 0, inbox := [] },
      { steamId := logonHeaderSteamid, sessionId := 0, heartbeatInterval := fromSecs 9 }),
      by decide⟩
  obtain ⟨c, hc⟩ := hstarted
  obtain ⟨rounds, hresult, -, hrounds⟩ := connecting_refines_rounds hc
  exact ⟨rounds, c, hresult, hrounds⟩

/-- **The deadlines of a proxy are never reached.** A start can only report four timeouts, through a
proxy three: those of a server's attempt and of the WebSocket's own steps. The 30 seconds of each
step of a proxy's handshake, and the 45 for all of it, are longer than an attempt. -/
theorem proxy_deadlines_unreached {C : Carrier} {P : Prost} {config : SessionConfig} {now t : Nat}
    {log : List (Nat × WireAct)} {w : String}
    (h : ((C.establishResilient P config).run now log).done = some (t, .error (.timeout w))) :
    w ∈ sessionTimeouts config.proxy :=
  meets_establishResilient.done log t _ h w rfl

/-- A proxy that does not answer costs every attempt its time. -/
theorem proxy_deadlines_unreached_stalled :
    ∃ t w, (({ Sample.carrier with dial := fun _ _ _ => none : Carrier }.establishResilient
        Sample.prost Sample.proxied).run 0 []).done = some (t, .error (.timeout w)) ∧
      w ∈ sessionTimeouts Sample.proxied.proxy := by
  have hstalled : (({ Sample.carrier with dial := fun _ _ _ => none : Carrier }.establishResilient
      Sample.prost Sample.proxied).run 0 []).done =
        some (fromSecs 175, .error (.timeout "cm connect attempt")) := by decide
  exact ⟨_, _, hstalled, proxy_deadlines_unreached hstalled⟩

end Carrier

end Steamroids
