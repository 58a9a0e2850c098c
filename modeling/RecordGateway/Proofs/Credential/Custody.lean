import RecordGateway.Proofs.Credential.Lifetime
import RecordGateway.Proofs.Session.Schedule

/-!
Who gets which token. The refresher, those who read the token, and the clock go on in any order, one
`Move` after the other, and what of it can be seen from outside is logged. A move changes what the
refresher holds only by the answer to a login (`Move.turn`). So after every run the token that is held is
the last that was published (`Runs.held_eq`), and whoever is handed a token gets that one, and before it
has expired (`Runs.told_token`). The schedule by which a session lets time pass is one order of moves
among them (`exists_runs_run`).
-/

namespace RecordGateway.Credential

/-- What can be seen of the moves. Readers bear numbers. -/
inductive Happening where
  | requested (reader : Nat)
  | told (reader : Nat) (answer : Answer)
  /-- The answer to a login is taken: a token, or why there is none, or nothing if the refresher breaks
  down over it. -/
  | loggedIn (outcome : Option (Except Fault Token))

/-- The tokens that logins have brought, the first one first. -/
def published (log : List Happening) : List Token :=
  log.filterMap fun
    | .loggedIn (some (.ok token)) => some token
    | _ => none

/-- What the refresher of a session holds, if there is one. -/
def held (session : Session) : Option Holding :=
  session.refresher.map (·.holding)

/-- What the refresher of a session is about, if there is one. -/
def phase (session : Session) : Option Phase :=
  session.refresher.map (·.phase)

/-- What a step of the refresher takes: the answer to a login, if one is being made. -/
def taken (session : Session) : List Happening :=
  match phase session with
  | some (.loggingIn _ outcome) =>
    [.loggedIn (session.refresherSettings.receive session.now outcome)]
  | _ => []

/-- What a reader is told who looks at the token, if anything. -/
def heard (reader : Nat) : Session.Polled Answer → List Happening
  | .answered answer _ => [.told reader answer]
  | _ => []

/-- One move. A reader may have seen the state of the token before, or not, and waits within limits.
What goes on beside the refresher and the clock, such as what the gateway says to the next login, is not
restricted. -/
inductive Move (session : Session) : List Happening → Session → Prop where
  | pass {moment : Time} : session.now ≤ moment → Move session [] (session.moveTo moment)
  | wake : Move session [] session.renew
  | refresh {next : Session} : session.stepRefresher? = some next → Move session (taken session) next
  | request (reader : Nat) : Move session [.requested reader] session
  | look (reader : Nat) (seen : Option Nat) (limits : Limits) :
      Move session (heard reader (session.pollCredential seen limits))
        (session.pollCredential seen limits).session
  | aside {next : Session} :
      next.refresher = session.refresher → next.now = session.now → next.client = session.client →
      Move session [] next

/-- Any number of moves. -/
inductive Runs (start : Session) : List Happening → Session → Prop where
  | refl : Runs start [] start
  | step {log happenings : List Happening} {session next : Session} :
      Runs start log session → Move session happenings next → Runs start (log ++ happenings) next

variable {start session next : Session} {log happenings : List Happening} {seen : Option Nat}
  {limits : Limits} {reader : Nat} {text : String}

@[simp] theorem published_append (front back : List Happening) :
    published (front ++ back) = published front ++ published back :=
  List.filterMap_append

/-! ### One move -/

@[simp] theorem Refresher.holding_ask (refresher : Refresher) :
    refresher.ask.holding = refresher.holding := by
  rw [ask]
  split <;> rfl

/-- The answer to a login replaces what is held, unless it is no token and what is held is still valid, or
the refresher breaks down over it. -/
theorem Refresher.holding_settle (settings : Settings) (refresher : Refresher) (now : Time)
    (outcome : Except Status String) :
    (refresher.settle settings now outcome).holding =
      match settings.receive now outcome with
      | none => refresher.holding
      | some (.ok token) => .ready token
      | some (.error fault) =>
        if refresher.holdsValid now then refresher.holding
        else .failed (settings.reporter.explain fault) := by
  rw [settle]
  rcases settings.receive now outcome with _ | fault | token
  · rfl
  · cases refresher.holdsValid now <;> rfl
  · rfl

theorem Refresher.holdsValid_iff {refresher : Refresher} {now : Time} :
    refresher.holdsValid now = true ↔
      ∃ token, refresher.holding = .ready token ∧ token.isExpired now = false := by
  rw [holdsValid]
  cases refresher.holding <;> simp

@[simp] theorem held_renew (session : Session) : held session.renew = held session := by
  rw [held, held, Session.renew, Option.map_map]
  congr 1
  funext refresher
  exact refresher.holding_ask

/-- A reader is told a token only if the refresher holds it and it has not expired. -/
theorem Refresher.look_token {refresher : Refresher} {now : Time}
    (h : (refresher.look now).1 = some (.token text)) :
    ∃ token, refresher.holding = .ready token ∧ token.text = text ∧ token.isExpired now = false := by
  unfold look at h
  cases hholding : refresher.holding with
  | ready token =>
      rw [hholding] at h
      cases hexpired : token.isExpired now with
      | true =>
          simp only [hexpired] at h
          cases hphase : refresher.phase <;> simp [hphase] at h
      | false =>
          simp only [hexpired] at h
          exact ⟨token, rfl, Answer.token.inj (Option.some.inj h), hexpired⟩
  | failed reason =>
      rw [hholding] at h
      cases h
  | pending =>
      rw [hholding] at h
      cases hphase : refresher.phase <;> simp [hphase] at h

/-- Whoever is told something of the token is told what a look at it shows. -/
theorem look_of_answered {answer : Answer} (hanswer : answer ∉ [Answer.stopped, .timedOut, .cancelled])
    (h : session.pollCredential seen limits = .answered answer next) :
    ∃ refresher, session.refresher = some refresher ∧
      (refresher.look session.now).1 = some answer := by
  simp only [List.mem_cons, List.not_mem_nil, or_false, not_or] at hanswer
  rw [Session.pollCredential] at h
  by_cases hcancelled : session.scopeCancelled limits.scope = true
  · rw [if_pos hcancelled] at h
    grind
  rw [if_neg hcancelled] at h
  cases hrefresher : session.refresher with
  | none =>
      rw [hrefresher] at h
      grind
  | some refresher =>
      rw [hrefresher] at h
      refine ⟨refresher, rfl, ?_⟩
      rcases hlooked : refresher.look session.now with ⟨answer, asks⟩
      simp only [hlooked] at h
      by_cases hseen : seen = some refresher.revision
      · rw [if_pos hseen] at h
        grind
      · rw [if_neg hseen] at h
        grind

/-- Only a token that is held and has not expired is told. -/
theorem held_of_told (h : session.pollCredential seen limits = .answered (.token text) next) :
    ∃ token, held session = some (.ready token) ∧ token.text = text ∧
      token.isExpired session.now = false := by
  obtain ⟨refresher, hrefresher, hlook⟩ := look_of_answered (by simp) h
  obtain ⟨token, hholding, htoken⟩ := Refresher.look_token hlook
  rw [held, hrefresher, Option.map_some, hholding]
  exact ⟨token, rfl, htoken⟩

/-- Whoever looks for the first time while a valid token is held is told it. -/
theorem pollCredential_of_held {refresher : Refresher} {token : Token}
    (hopen : session.scopeCancelled limits.scope = false) (hrefresher : session.refresher = some refresher)
    (hholding : refresher.holding = .ready token) (hvalid : token.isExpired session.now = false) :
    session.pollCredential none limits = .answered (.token token.text) session := by
  have hlook : refresher.look session.now = (some (.token token.text), false) := by
    rw [Refresher.look, hholding]
    simp only [hvalid, Bool.false_eq_true, if_false]
  rw [Session.pollCredential, hopen, hrefresher]
  simp only [hlook]
  rfl

/-- What a move can come to: it takes the answer to a login, or it leaves both what is held and a login
that is being made as they are. -/
inductive Turn (session : Session) (happenings : List Happening) (next : Session) : Prop where
  | idle : held next = held session → (∀ outcome, .loggedIn outcome ∉ happenings) →
      (∀ due outcome, phase session = some (.loggingIn due outcome) → phase next = phase session) →
      Turn session happenings next
  | answered {refresher : Refresher} {due : Option Time} {outcome : Except Status String} :
      session.refresher = some refresher → refresher.phase = .loggingIn due outcome →
      happenings = [.loggedIn (session.refresherSettings.receive session.now outcome)] →
      next.refresher = some (refresher.settle session.refresherSettings session.now outcome) →
      Turn session happenings next

theorem phase_renew {due : Option Time} {outcome : Except Status String}
    (h : phase session = some (.loggingIn due outcome)) : phase session.renew = phase session := by
  rw [phase, Option.map_eq_some_iff] at h
  obtain ⟨refresher, hrefresher, hphase⟩ := h
  rw [phase, phase, Session.renew, hrefresher, Option.map_some, Option.map_some, Option.map_some,
    Refresher.ask, hphase]

theorem Turn.of_renew (hquiet : ∀ outcome, .loggedIn outcome ∉ happenings)
    (hnext : next = session ∨ next = session.renew) : Turn session happenings next := by
  rcases hnext with rfl | rfl
  · exact .idle rfl hquiet fun _ _ _ => rfl
  · exact .idle (held_renew session) hquiet fun _ _ => phase_renew

/-- A step of the refresher takes the answer to a login that has come, begins a login, or ends a pause. -/
theorem turn_stepRefresher (h : session.stepRefresher? = some next) :
    Turn session (taken session) next := by
  rw [Session.stepRefresher?] at h
  cases hrefresher : session.refresher with
  | none =>
      rw [hrefresher] at h
      cases h
  | some refresher =>
      have hphase : phase session = some refresher.phase := by rw [phase, hrefresher]; rfl
      have hheld : held session = some refresher.holding := by rw [held, hrefresher]; rfl
      rw [hrefresher, Option.bind_eq_bind, Option.bind_some] at h
      cases hnow : refresher.phase with
      | starting =>
          rw [hnow] at h hphase
          obtain rfl := Option.some.inj h
          refine .idle ?_ ?_ ?_
          · rw [hheld]
            rfl
          · rw [taken, hphase]
            exact fun _ => List.not_mem_nil
          · intro due outcome hlogging
            rw [hphase] at hlogging
            cases hlogging
      | loggingIn due outcome =>
          rw [hnow] at h hphase
          obtain ⟨stepped, hstep, hnext⟩ := Option.bind_eq_some_iff.mp h
          obtain rfl := Option.some.inj hnext
          rw [Refresher.step?, hnow] at hstep
          cases due with
          | none => cases hstep
          | some due =>
              obtain ⟨-, hsettle⟩ := Option.ite_none_right_eq_some.mp hstep
              obtain rfl := Option.some.inj hsettle
              refine .answered hrefresher hnow ?_ rfl
              rw [taken, hphase]
      | pausing moment woken =>
          rw [hnow] at h hphase
          obtain ⟨stepped, hstep, hnext⟩ := Option.bind_eq_some_iff.mp h
          obtain rfl := Option.some.inj hnext
          rw [Refresher.step?, hnow] at hstep
          obtain ⟨-, hstarting⟩ := Option.ite_none_right_eq_some.mp hstep
          obtain rfl := Option.some.inj hstarting
          refine .idle ?_ ?_ ?_
          · rw [hheld]
            rfl
          · rw [taken, hphase]
            exact fun _ => List.not_mem_nil
          · intro due outcome hlogging
            rw [hphase] at hlogging
            cases hlogging
      | stopped =>
          rw [hnow] at h
          obtain ⟨stepped, hstep, -⟩ := Option.bind_eq_some_iff.mp h
          rw [Refresher.step?, hnow] at hstep
          cases hstep

theorem Move.turn (h : Move session happenings next) : Turn session happenings next := by
  cases h with
  | pass => exact .idle rfl (fun _ => List.not_mem_nil) fun _ _ _ => rfl
  | wake => exact .of_renew (fun _ => List.not_mem_nil) (.inr rfl)
  | refresh hstep => exact turn_stepRefresher hstep
  | request reader => exact .idle rfl (by simp) fun _ _ _ => rfl
  | look reader seen limits =>
      refine .of_renew (fun outcome hmem => ?_) (Session.session_pollCredential session seen limits)
      cases hpoll : session.pollCredential seen limits with
      | answered answer next =>
          rw [hpoll] at hmem
          cases List.mem_singleton.mp hmem
      | _ =>
          rw [hpoll] at hmem
          cases hmem
  | aside hrefresher =>
      refine .idle ?_ (fun _ => List.not_mem_nil) fun _ _ _ => ?_
      · rw [held, held, hrefresher]
      · rw [phase, phase, hrefresher]

/-! ### What is held -/

theorem Turn.held_of_ok {token : Token} (h : Turn session happenings next)
    (hlogin : .loggedIn (some (.ok token)) ∈ happenings) : held next = some (.ready token) := by
  cases h with
  | idle _ hquiet => exact absurd hlogin (hquiet _)
  | answered _ _ hhappenings hnext =>
      obtain rfl := hhappenings
      have hreceived := Happening.loggedIn.inj (List.mem_singleton.mp hlogin)
      rw [held, hnext, Option.map_some, Refresher.holding_settle, ← hreceived]

/-- A login that fails takes nothing away from readers. -/
theorem Turn.held_of_error {fault : Fault} {token : Token} (h : Turn session happenings next)
    (hlogin : .loggedIn (some (.error fault)) ∈ happenings)
    (hheld : held session = some (.ready token)) (hvalid : token.isExpired session.now = false) :
    held next = some (.ready token) := by
  cases h with
  | idle _ hquiet => exact absurd hlogin (hquiet _)
  | @answered refresher _ _ hrefresher _ hhappenings hnext =>
      obtain rfl := hhappenings
      have hreceived := Happening.loggedIn.inj (List.mem_singleton.mp hlogin)
      rw [held, hrefresher] at hheld
      have hholding : refresher.holding = .ready token := Option.some.inj hheld
      have hholds := Refresher.holdsValid_iff.mpr ⟨token, hholding, hvalid⟩
      rw [held, hnext, Option.map_some, Refresher.holding_settle, ← hreceived]
      simp only [if_pos hholds, hholding]

/-- A refresher that breaks down over the answer to a login takes nothing away from readers either, and stops
for good. -/
theorem Turn.held_of_broken (h : Turn session happenings next) (hlogin : .loggedIn none ∈ happenings) :
    held next = held session ∧ phase next = some .stopped := by
  cases h with
  | idle _ hquiet => exact absurd hlogin (hquiet _)
  | answered hrefresher _ hhappenings hnext =>
      obtain rfl := hhappenings
      have hreceived := Happening.loggedIn.inj (List.mem_singleton.mp hlogin)
      constructor
      · rw [held, held, hnext, hrefresher, Option.map_some, Refresher.holding_settle, ← hreceived]
        rfl
      · rw [phase, hnext, Option.map_some, Refresher.settle, ← hreceived]

/-- What readers are refused with is known already, or it explains why a login has just failed, at a moment
at which no valid token is held. -/
theorem Turn.of_held_failed {reason : String} (h : Turn session happenings next)
    (hfailed : held next = some (.failed reason)) :
    held session = some (.failed reason) ∨
      (∃ fault, .loggedIn (some (.error fault)) ∈ happenings ∧
        reason = session.refresherSettings.reporter.explain fault) ∧
        ∀ token, held session = some (.ready token) → token.isExpired session.now = true := by
  cases h with
  | idle hheld => exact .inl (hheld ▸ hfailed)
  | @answered refresher _ outcome hrefresher _ hhappenings hnext =>
      obtain rfl := hhappenings
      rw [held, hnext, Option.map_some, Refresher.holding_settle] at hfailed
      rw [held, hrefresher, Option.map_some]
      rcases hreceived : session.refresherSettings.receive session.now outcome with _ | fault | token
      · rw [hreceived] at hfailed
        exact .inl hfailed
      · rw [hreceived] at hfailed
        by_cases hholds : refresher.holdsValid session.now = true
        · simp only [if_pos hholds] at hfailed
          exact .inl hfailed
        · simp only [if_neg hholds] at hfailed
          obtain rfl := Holding.failed.inj (Option.some.inj hfailed)
          refine .inr ⟨⟨fault, List.mem_singleton_self _, rfl⟩, fun token hheld => ?_⟩
          rw [← Bool.not_eq_false]
          intro hvalid
          exact hholds (Refresher.holdsValid_iff.mpr ⟨token, Option.some.inj hheld, hvalid⟩)
      · rw [hreceived] at hfailed
        cases hfailed

/-- The token that is held has just been published, or it was held before and none has been. -/
theorem Turn.of_held_ready {token : Token} (h : Turn session happenings next)
    (hready : held next = some (.ready token)) :
    published happenings = [token] ∨ held session = some (.ready token) ∧ published happenings = [] := by
  cases h with
  | idle hheld hquiet =>
      refine .inr ⟨hheld ▸ hready, ?_⟩
      rw [published, List.filterMap_eq_nil_iff]
      rintro (reader | ⟨reader, answer⟩ | outcome) hmem
      · rfl
      · rfl
      · exact absurd hmem (hquiet outcome)
  | @answered refresher _ outcome hrefresher _ hhappenings hnext =>
      obtain rfl := hhappenings
      rw [held, hnext, Option.map_some, Refresher.holding_settle] at hready
      rw [held, hrefresher, Option.map_some]
      rcases hreceived : session.refresherSettings.receive session.now outcome with _ | fault | given
      · rw [hreceived] at hready
        exact .inr ⟨hready, rfl⟩
      · rw [hreceived] at hready
        by_cases hholds : refresher.holdsValid session.now = true
        · simp only [if_pos hholds] at hready
          exact .inr ⟨hready, rfl⟩
        · simp only [if_neg hholds] at hready
          cases hready
      · rw [hreceived] at hready
        obtain rfl := Holding.ready.inj (Option.some.inj hready)
        exact .inl rfl

/-- A login that is being made goes on, or its answer is taken. -/
theorem Turn.of_loggingIn {due : Option Time} {outcome : Except Status String}
    (h : Turn session happenings next) (hphase : phase session = some (.loggingIn due outcome)) :
    phase next = phase session ∨
      happenings = [.loggedIn (session.refresherSettings.receive session.now outcome)] := by
  cases h with
  | idle _ _ hkept => exact .inl (hkept _ _ hphase)
  | answered hrefresher hlogging hhappenings _ =>
      rw [phase, hrefresher, Option.map_some, hlogging] at hphase
      obtain ⟨-, rfl⟩ := Phase.loggingIn.inj (Option.some.inj hphase)
      exact .inr hhappenings

/-! ### Runs -/

/-- The token that is held is the last that was published. -/
theorem Runs.held_eq (hstart : ∀ token, held start ≠ some (.ready token)) (h : Runs start log session)
    {token : Token} (hheld : held session = some (.ready token)) :
    (published log).getLast? = some token := by
  induction h with
  | refl => exact absurd hheld (hstart token)
  | step _ hmove ih =>
      rw [published_append, List.getLast?_append]
      rcases hmove.turn.of_held_ready hheld with hnew | ⟨hkept, hnone⟩
      · rw [hnew]
        rfl
      · rw [hnone, ih hkept]
        rfl

/-- Whoever is told a token is told the last that was published, which has not expired. -/
theorem Runs.told_token (hstart : ∀ token, held start ≠ some (.ready token))
    (h : Runs start log session) (hmove : Move session happenings next)
    (htold : .told reader (.token text) ∈ happenings) :
    ∃ token, token.text = text ∧ token.isExpired session.now = false ∧
      (published log).getLast? = some token := by
  cases hmove with
  | look reader seen limits =>
      cases hpoll : session.pollCredential seen limits with
      | answered answer next =>
          rw [hpoll] at htold
          obtain ⟨-, rfl⟩ := Happening.told.inj (List.mem_singleton.mp htold)
          obtain ⟨token, hheld, htext, hvalid⟩ := held_of_told hpoll
          exact ⟨token, htext, hvalid, h.held_eq hstart hheld⟩
      | _ =>
          rw [hpoll] at htold
          cases htold
  | refresh hstep =>
      rw [taken] at htold
      split at htold
      · cases List.mem_singleton.mp htold
      · cases htold
  | request => cases List.mem_singleton.mp htold
  | _ => cases htold

/-- What is true of a session that has just begun, its readers and its refresher, in any order of
moves. Whoever is handed a token is handed one that has not expired at that moment. It is the last that
was published, so it is either the last published before the reader asked for it or a later one. A login
that succeeds is published; a login that fails takes no valid token away, and readers are refused only
after a login has failed while no valid token was held. A token over which the refresher breaks down leaves
what is held in place, and is the last. No login that is being made is forgotten. -/
theorem token_custody {client : Client} {script : Session.Script}
    (hrun : Runs (.start client script) log session) (hmove : Move session happenings next) :
    (∀ reader text, .told reader (.token text) ∈ happenings →
      ∃ token, token.text = text ∧ token.isExpired session.now = false ∧
        (published log).getLast? = some token ∧
        ∀ earlier since, log = earlier ++ .requested reader :: since →
          (published earlier).getLast? = some token ∨ token ∈ published since) ∧
    (∀ token, .loggedIn (some (.ok token)) ∈ happenings → held next = some (.ready token)) ∧
    (∀ fault token, .loggedIn (some (.error fault)) ∈ happenings → held session = some (.ready token) →
      token.isExpired session.now = false → held next = some (.ready token)) ∧
    (.loggedIn none ∈ happenings → held next = held session ∧ phase next = some .stopped) ∧
    (∀ reason, held next = some (.failed reason) →
      held session = some (.failed reason) ∨
        (∃ fault, .loggedIn (some (.error fault)) ∈ happenings) ∧
          ∀ token, held session = some (.ready token) → token.isExpired session.now = true) ∧
    ∀ due outcome, phase session = some (.loggingIn due outcome) →
      phase next = phase session ∨
        happenings = [.loggedIn (session.refresherSettings.receive session.now outcome)] := by
  have hstart : ∀ token, held (.start client script) ≠ some (.ready token) := by
    intro token hheld
    rw [held, Session.start] at hheld
    cases hcredentials : client.config.credentials <;> simp [hcredentials] at hheld
  refine ⟨fun reader text htold => ?_, fun _ => hmove.turn.held_of_ok,
    fun _ _ => hmove.turn.held_of_error, hmove.turn.held_of_broken,
    fun _ hfailed => (hmove.turn.of_held_failed hfailed).imp_right
      fun ⟨⟨fault, hmem, _⟩, hnone⟩ => ⟨⟨fault, hmem⟩, hnone⟩,
    fun _ _ => hmove.turn.of_loggingIn⟩
  obtain ⟨token, htext, hvalid, hlast⟩ := hrun.told_token hstart hmove htold
  refine ⟨token, htext, hvalid, hlast, ?_⟩
  rintro earlier since rfl
  rw [published_append, List.getLast?_append, Option.or_eq_some_iff] at hlast
  rcases hlast with hsince | ⟨-, hearlier⟩
  · exact .inr (List.mem_of_getLast? hsince)
  · exact .inl hearlier

/-- A token that is valid for two seconds. -/
def briefText : String := "e30.eyJpYXQiOjEsImV4cCI6M30.sig"

theorem receive_briefText (settings : Refresher.Settings) :
    ∃ token, settings.receive 0 (.ok briefText) = some (.ok token) ∧ token.text = briefText ∧
      token.isExpired 0 = false := by
  have hread : Claims.ofToken briefText = .ok ⟨1, 3⟩ := Claims.ofToken_of_toOption (by decide +kernel)
  have hlifetime : (Claims.mk 1 3).lifetime? = some 2000 := by decide
  obtain ⟨token, hreceive, htext, -, hnow, hcounted⟩ :=
    Token.exists_receive hread hlifetime 0 settings.fraction
  refine ⟨token, hreceive, htext, Token.isExpired_eq_false_iff.mpr ?_⟩
  rw [Token.expiresAt, hnow, hcounted]
  decide

/-- A client with credentials, and a gateway that answers its first login at once. -/
def briefSession : Session :=
  .start
    { framer := { command := fun _ => .ok [], batch := fun _ _ => .ok [], value := fun _ => .ok [] }
      config := { credentials := some { user := "", password := "" } } }
    { logins := [some ⟨some 0, .ok briefText⟩] }

theorem custody_of_brief_token :
    ∃ log session happenings next, Runs briefSession log session ∧ Move session happenings next ∧
      .told 0 (.token briefText) ∈ happenings ∧
      ∃ token, token.text = briefText ∧ token.isExpired session.now = false ∧
        (published log).getLast? = some token := by
  let settings := briefSession.refresherSettings
  let waiting : Refresher := { phase := .loggingIn (some 0) (.ok briefText) }
  let begun : Session :=
    { briefSession with refresher := some waiting, script.logins := [], logins := [0] }
  let answered : Session :=
    { begun with refresher := some (waiting.settle settings 0 (.ok briefText)) }
  have hbegin : Move briefSession [] begun := .refresh rfl
  have hanswer : Move begun (taken begun) answered := .refresh rfl
  have hrun := (Runs.refl.step hbegin).step hanswer
  obtain ⟨token, hreceive, htext, hvalid⟩ := receive_briefText settings
  have hholding : (waiting.settle settings 0 (.ok briefText)).holding = .ready token := by
    rw [Refresher.holding_settle, hreceive]
  have hpoll : answered.pollCredential none {} = .answered (.token token.text) answered :=
    pollCredential_of_held rfl rfl hholding hvalid
  have hmove : Move answered (heard 0 (answered.pollCredential none {})) _ := .look 0 none {}
  have htold : .told 0 (.token briefText) ∈ heard 0 (answered.pollCredential none {}) := by
    rw [hpoll, htext]
    exact List.mem_singleton_self _
  obtain ⟨given, hgiven, hunexpired, hlast, -⟩ := (token_custody hrun hmove).1 0 briefText htold
  exact ⟨_, _, _, _, hrun, hmove, htold, given, hgiven, hunexpired, hlast⟩

/-! ### The schedule of a session -/

/-- Some run leads from one session to the other. -/
def Leads (session next : Session) : Prop :=
  ∃ log, Runs session log next

theorem Runs.trans {middle : Session} {front back : List Happening} (hfront : Runs session front middle)
    (hback : Runs middle back next) : Runs session (front ++ back) next := by
  induction hback with
  | refl =>
      rw [List.append_nil]
      exact hfront
  | step _ hmove ih =>
      rw [← List.append_assoc]
      exact ih.step hmove

theorem Move.leads (h : Move session happenings next) : Leads session next :=
  ⟨_, Runs.refl.step h⟩

theorem Leads.trans {middle : Session} (hfront : Leads session middle) (hback : Leads middle next) :
    Leads session next := by
  obtain ⟨front, hfront⟩ := hfront
  obtain ⟨back, hback⟩ := hback
  exact ⟨front ++ back, hfront.trans hback⟩

theorem leads_of_beside (h : session.Beside next) : Leads session next :=
  (Move.aside h.refresher_eq h.now_eq h.client_eq).leads

theorem steady_leads : Session.Steady Leads where
  refl session := ⟨[], .refl⟩
  trans := Leads.trans
  poll session seen question := by
    cases question with
    | credential limits => exact (Move.look 0 seen limits).leads
    | _ =>
        rcases session.beside_poll seen _ with hbeside | hbeside
        · exact leads_of_beside hbeside
        · exact Move.wake.leads.trans (leads_of_beside hbeside)
  refresh hstep := (Move.refresh hstep).leads
  fill session number _ hchange := leads_of_beside (session.beside_updateSet number hchange)
  alarms session alarms :=
    Move.leads (show Move session [] { session with alarms } from .aside rfl rfl rfl)
  cancel session := Move.leads (show Move session [] session.cancel from .aside rfl rfl rfl)

/-- However a session goes on while a call is made, it goes on by moves. -/
theorem exists_runs_run {α : Type} (session : Session) (flow : Flow α) :
    ∃ log, Runs session log (session.run flow).2 :=
  steady_leads.runUntil (fun _ _ hmoment => (Move.pass hmoment).leads) flow
    (Nat.le_add_right _ _)

end RecordGateway.Credential
