import Autotrading.Resubscription

/-!
# The life of the realtime client

`start` holds a socket only between a connection and its loss. It gives up after eleven failed
attempts in a row, between which it sleeps for less than three minutes in all; after `disconnect` it
opens no connection but the one that is under way; and a new connection gets one message for every
code that was subscribed before the first price is received.
-/
namespace Autotrading.KISRealtimeClient

open RestoredSet (Entry)
open Client (Sending)

variable {python : Interpreter} {s s' : Session} {e : Event} {events : List Event}

/-! ## What a step does -/

/-- The phases with a socket. -/
def Phase.connected : Phase → Bool
  | resubscribing .. | receiving | answering _ => true
  | _ => false

/-- A step of a call or of a `disconnect`: `start` waits on, and the socket is at most closed. -/
structure Aside (s s' : Session) : Prop where
  phase : s'.phase = s.phase
  key : s'.client.approvalKey = s.client.approvalKey
  ws : s'.client.ws = s.client.ws ∨ s'.client.ws = none
  running : s'.client.running = true → s.client.running = true

/-- The steps beside `start`. -/
def Event.isAside : Event → Bool
  | call .. | callSent _ | callRaised _ | disconnect | disconnected | disconnectRaised => true
  | _ => false

/-- The steps of `start`, and those beside it. -/
inductive Turn (s : Session) : Event → Session → Prop
  | started (h : s.phase = .created) :
    Turn s .started ({ s with client.running := true }.attempt 0)
  | approved (n : ℕ) (key : String) (h : s.phase = .approving n) :
    Turn s (.approved key) { s with client.approvalKey := some key, phase := .opening n }
  | opened (n ws : ℕ) (codes : List String) (h : s.phase = .opening n) :
    Turn s (.opened ws codes) ({ s with client.ws := some ws }.resubscribe codes)
  | resent (sending : Sending) (code : String) (rest : List String)
      (h : s.phase = .resubscribing sending code rest) :
    Turn s .sent ({ s with client := s.client.subscribed code }.resubscribe rest)
  | answered (message : String) (h : s.phase = .answering message) :
    Turn s .sent { s with phase := .receiving }
  | handled (message : Message) (h : s.phase = .receiving) : Turn s (.received message) s
  | replying (message : Message) (reply : String) (h : s.phase = .receiving) :
    Turn s (.received message) { s with phase := .answering reply }
  | refused (message : Message) (h : s.phase = .receiving) :
    Turn s (.received message) (s.leave 0)
  | lost (h : s.phase.connected = true) : Turn s .raised (s.leave 0)
  | failed (n : ℕ) (h : s.phase = .approving n ∨ s.phase = .opening n) :
    Turn s .raised (s.leave n)
  | awake (n delay : ℕ) (h : s.phase = .sleeping n delay) : Turn s .awake (s.attempt n)
  | idleCancelled (h : s.phase.connected = false) (client : Client)
      (hclient : client = s.client ∨ client = { s.client with ws := none }) :
    Turn s .cancelled { s with phase := .ended, client := client }
  | cancelled (h : s.phase.connected = true) :
    Turn s .cancelled { s with phase := .ended, client.ws := none }
  | aside {e : Event} {s' : Session} (he : e.isAside = true) (h : Aside s s') : Turn s e s'

theorem aside_of_client {calls : List Call} {closing : ℕ} {codes : Finset String} :
    Aside s { s with client.subscribedCodes := codes, calls := calls, closing := closing } where
  phase := rfl
  key := rfl
  ws := .inl rfl
  running := id

theorem step_turn (h : step python s e = some s') : Turn s e s' := by
  cases e with
  | started =>
    cases hphase : s.phase <;> simp [step, hphase] at h
    exact h ▸ .started hphase
  | approved key =>
    cases hphase : s.phase <;> simp [step, hphase] at h
    exact h ▸ .approved _ key hphase
  | opened ws codes =>
    cases hphase : s.phase <;> simp [step, hphase] at h
    exact h.2 ▸ .opened _ ws codes hphase
  | sent =>
    cases hphase : s.phase <;> simp [step, hphase] at h
    · exact h ▸ .resent _ _ _ hphase
    · exact h ▸ .answered _ hphase
  | received message =>
    cases hphase : s.phase <;> simp [step, hphase] at h
    cases hmessage : onMessage python s.client.ws.isSome message with
    | error e =>
      simp only [hmessage, Option.some.injEq] at h
      exact h ▸ .refused message hphase
    | ok reply =>
      cases reply with
      | none =>
        simp only [hmessage, Option.some.injEq] at h
        exact h ▸ .handled message hphase
      | some reply =>
        simp only [hmessage, Option.some.injEq] at h
        exact h ▸ .replying message reply hphase
  | raised =>
    cases hphase : s.phase with
    | approving n =>
      simp only [step, hphase, Option.some.injEq] at h
      exact h ▸ .failed n (.inl hphase)
    | opening n =>
      simp only [step, hphase, Option.some.injEq] at h
      exact h ▸ .failed n (.inr hphase)
    | resubscribing | receiving | answering =>
      simp only [step, hphase, Option.some.injEq] at h
      exact h ▸ .lost (by rw [hphase]; rfl)
    | _ => simp [step, hphase] at h
  | awake =>
    cases hphase : s.phase <;> simp [step, hphase] at h
    exact h ▸ .awake _ _ hphase
  | cancelled =>
    cases hphase : s.phase with
    | ended => simp [step, hphase] at h
    | created | sleeping =>
      simp only [step, hphase, Option.some.injEq] at h
      exact h ▸ .idleCancelled (by rw [hphase]; rfl) s.client (.inl rfl)
    | approving | opening =>
      simp only [step, hphase, Option.some.injEq] at h
      exact h ▸ .idleCancelled (by rw [hphase]; rfl) _ (.inr rfl)
    | resubscribing | receiving | answering =>
      simp only [step, hphase, Option.some.injEq] at h
      exact h ▸ .cancelled (by rw [hphase]; rfl)
  | call route code =>
    apply Turn.aside rfl
    cases hrequest : route.request s.client code with
    | ok sending =>
      simp only [step, hrequest, Option.some.injEq] at h
      exact h ▸ aside_of_client
    | error e =>
      simp only [step, hrequest, Option.some.injEq] at h
      exact h ▸ aside_of_client
  | callSent i =>
    apply Turn.aside rfl
    simp only [step, Option.map_eq_some_iff] at h
    obtain ⟨call, -, rfl⟩ := h
    cases call.route <;> exact aside_of_client
  | callRaised i =>
    apply Turn.aside rfl
    simp only [step, Option.map_eq_some_iff] at h
    obtain ⟨call, -, rfl⟩ := h
    exact aside_of_client
  | disconnect =>
    apply Turn.aside rfl
    simp only [step, Option.some.injEq] at h
    subst h
    split <;> exact ⟨rfl, rfl, .inl rfl, by simp⟩
  | disconnected =>
    apply Turn.aside rfl
    simp only [step, Option.ite_none_right_eq_some, Option.some.injEq] at h
    obtain ⟨-, rfl⟩ := h
    exact ⟨rfl, rfl, .inr rfl, id⟩
  | disconnectRaised =>
    apply Turn.aside rfl
    simp only [step, Option.ite_none_right_eq_some, Option.some.injEq] at h
    obtain ⟨-, rfl⟩ := h
    exact aside_of_client

/-! ## The socket -/

/-- There is a socket only while `start` is connected. -/
def Session.Plugged (s : Session) : Prop := s.client.ws.isSome = true → s.phase.connected = true

theorem plugged_attempt (hws : s.client.ws = none) (n : ℕ) : (s.attempt n).Plugged := by
  unfold Session.attempt
  split <;> simp [Session.Plugged, hws]

theorem ws_leave (s : Session) (n : ℕ) : (s.leave n).client.ws = none := by
  simp only [Session.leave]
  split_ifs <;> rfl

theorem plugged_leave (s : Session) (n : ℕ) : (s.leave n).Plugged := by
  simp [Session.Plugged, ws_leave]

theorem plugged_resubscribe (s : Session) (codes : List String) :
    (s.resubscribe codes).Plugged := by
  cases codes with
  | nil =>
    rw [Session.resubscribe]
    split
    · exact fun _ => rfl
    · exact plugged_leave s 0
  | cons code rest =>
    rw [Session.resubscribe]
    split
    · exact fun _ => rfl
    · exact plugged_leave s 0

theorem Session.Plugged.ws_none (h : s.Plugged) (hphase : s.phase.connected = false) :
    s.client.ws = none := by
  by_contra hws
  have hsome := h (Option.isSome_iff_ne_none.mpr hws)
  simp [hphase] at hsome

theorem step_plugged (hs : s.Plugged) (h : step python s e = some s') : s'.Plugged := by
  cases step_turn h with
  | started hphase =>
    refine plugged_attempt ?_ 0
    exact hs.ws_none (by rw [hphase]; rfl)
  | approved n key hphase =>
    have hws := hs.ws_none (by rw [hphase]; rfl)
    simp [Session.Plugged, hws]
  | opened n ws codes hphase => exact plugged_resubscribe _ codes
  | resent sending code rest hphase => exact plugged_resubscribe _ rest
  | answered message hphase => exact fun _ => rfl
  | handled message hphase => exact hs
  | replying message reply hphase => exact fun _ => rfl
  | refused message hphase => exact plugged_leave s 0
  | lost hphase => exact plugged_leave s 0
  | failed n hphase => exact plugged_leave s n
  | awake n delay hphase => exact plugged_attempt (hs.ws_none (by rw [hphase]; rfl)) n
  | idleCancelled hphase client hclient =>
    have hws := hs.ws_none hphase
    obtain rfl | rfl := hclient <;> simp [Session.Plugged, hws]
  | cancelled hphase => simp [Session.Plugged]
  | aside he haside =>
    intro hsome
    rw [haside.phase]
    apply hs
    cases haside.ws with
    | inl hws => rwa [← hws]
    | inr hws => simp [hws] at hsome

theorem run_cons {s'' : Session} : run python s (e :: events) = some s'' ↔
    ∃ s', step python s e = some s' ∧ run python s' events = some s'' := by
  simp only [run, Option.bind_eq_some_iff]

theorem run_plugged (hs : s.Plugged) (h : run python s events = some s') : s'.Plugged := by
  induction events generalizing s with
  | nil =>
    obtain rfl := Option.some.inj h
    exact hs
  | cons e events ih =>
    obtain ⟨s₁, hstep, hrun⟩ := run_cons.mp h
    exact ih (step_plugged hs hstep) hrun

theorem plugged_init : Session.init.Plugged := by simp [Session.Plugged, Session.init, Client.init]

/-- `start` that has ended does not go on. -/
theorem step_ended (hphase : s.phase = .ended) (h : step python s e = some s') :
    s'.phase = .ended := by
  cases step_turn h with
  | aside he haside => rw [haside.phase, hphase]
  | idleCancelled => rfl
  | cancelled => rfl
  | failed n hfailed => simp [hphase] at hfailed
  | lost hconnected => simp [hphase, Phase.connected] at hconnected
  | started hcreated => simp [hphase] at hcreated
  | approved n key happroving => simp [hphase] at happroving
  | opened n ws codes hopening => simp [hphase] at hopening
  | resent sending code rest hresubscribing => simp [hphase] at hresubscribing
  | answered message hanswering => simp [hphase] at hanswering
  | handled message hreceiving => simp [hphase] at hreceiving
  | replying message reply hreceiving => simp [hphase] at hreceiving
  | refused message hreceiving => simp [hphase] at hreceiving
  | awake n delay hsleeping => simp [hphase] at hsleeping

theorem run_ended (hphase : s.phase = .ended) (h : run python s events = some s') :
    s'.phase = .ended := by
  induction events generalizing s with
  | nil =>
    obtain rfl := Option.some.inj h
    exact hphase
  | cons e events ih =>
    obtain ⟨s₁, hstep, hrun⟩ := run_cons.mp h
    exact ih (step_ended hphase hstep) hrun

/-- A call without a socket raises. -/
theorem request_of_no_socket (hws : s.client.ws = none) (route : Route) (code : String) :
    route.request s.client code =
      .error (.other "RuntimeError" "WebSocket이 연결되지 않았습니다.") := by
  cases route <;> simp [Route.request, Client.subscribe, Client.unsubscribe, Client.request, hws]

/-- While `start` is not connected, a call of the API raises and changes nothing; once `start` has
ended, that is so for good. -/
theorem calls_refused (h : run python .init events = some s) (route : Route) (code : String) :
    (s.phase.connected = false →
      route.request s.client code =
          .error (.other "RuntimeError" "WebSocket이 연결되지 않았습니다.") ∧
        step python s (.call route code) = some s) ∧
    (s.phase = .ended → ∀ more s', run python s more = some s' →
      s'.phase = .ended ∧ step python s' (.call route code) = some s') := by
  have hrefused : ∀ s : Session, s.Plugged → s.phase.connected = false →
      route.request s.client code =
          .error (.other "RuntimeError" "WebSocket이 연결되지 않았습니다.") ∧
        step python s (.call route code) = some s := by
    intro s hs hphase
    have hrequest := request_of_no_socket (hs.ws_none hphase) route code
    exact ⟨hrequest, by simp [step, hrequest]⟩
  have hs := run_plugged plugged_init h
  refine ⟨hrefused s hs, fun hended more s' hmore => ?_⟩
  have hended' := run_ended hended hmore
  exact ⟨hended', (hrefused s' (run_plugged hs hmore) (by rw [hended']; rfl)).2⟩

/-- A call while the approval key is awaited, and one after `start` was cancelled. -/
theorem calls_refused_cancelled : ∃ s s' : Session,
    run .sample .init [.started, .cancelled] = some s ∧
    run .sample s [.call .subscribe "005930"] = some s' ∧ s'.phase = .ended := by
  have h : run .sample .init [.started, .cancelled] = some _ := rfl
  have hcalls := calls_refused h .subscribe "005930"
  refine ⟨_, _, h, ?_, (hcalls.2 rfl [] _ rfl).1⟩
  rw [run, (hcalls.1 rfl).2]
  rfl

/-! ## Giving up -/

/-- The failed attempts in a row; as many as it takes when `start` has ended. -/
def Phase.attempts : Phase → ℕ
  | approving n | opening n | sleeping n _ => n
  | ended => maxReconnectAttempts + 1
  | _ => 0

/-- The sleeps that are to come behind the `n`-th failed attempt. -/
def sleepsAfter (n : ℕ) : ℕ :=
  (((List.range maxReconnectAttempts).drop n).map fun k =>
    min (reconnectDelaySeconds * (k + 1)) 30).sum

/-- The sleep that `start` is in and those that are to come if no attempt succeeds. -/
def Phase.sleepLeft : Phase → ℕ
  | sleeping n delay => delay + sleepsAfter n
  | phase => sleepsAfter phase.attempts

/-- The seconds that the step ends a sleep of. -/
def sleptIn (s : Session) : Event → ℕ
  | .awake =>
    match s.phase with
    | .sleeping _ delay => delay
    | _ => 0
  | _ => 0

/-- The seconds slept in a run. -/
def slept (python : Interpreter) : Session → List Event → ℕ
  | _, [] => 0
  | s, e :: es => sleptIn s e + ((step python s e).map fun s => slept python s es).getD 0

def Event.isOpened : Event → Bool
  | opened .. => true
  | _ => false

def Event.isRaised : Event → Bool
  | raised => true
  | _ => false

/-- Only `start` that has ended has failed more often than is allowed. -/
def Session.Bounded (s : Session) : Prop :=
  s.phase = .ended ∨ s.phase.attempts ≤ maxReconnectAttempts

theorem sleepsAfter_succ {n : ℕ} (h : n < maxReconnectAttempts) :
    sleepsAfter n = min (reconnectDelaySeconds * (n + 1)) 30 + sleepsAfter (n + 1) := by
  have hlength : n < (List.range maxReconnectAttempts).length := by simpa using h
  rw [sleepsAfter, List.drop_eq_getElem_cons hlength, List.map_cons, List.sum_cons,
    List.getElem_range, ← sleepsAfter]

theorem sleepsAfter_anti {m n : ℕ} (h : m ≤ n) : sleepsAfter n ≤ sleepsAfter m := by
  induction h with
  | refl => exact Nat.le_refl _
  | @step n hle ih =>
    change sleepsAfter (n + 1) ≤ sleepsAfter m
    by_cases hn : n < maxReconnectAttempts
    · have hsucc := sleepsAfter_succ hn
      omega
    · have hnil : (List.range maxReconnectAttempts).drop (n + 1) = [] :=
        List.drop_eq_nil_of_le (by rw [List.length_range]; omega)
      simp [sleepsAfter, hnil]

/-- What `start` has left after a step: fewer attempts by what has failed, and less to sleep by
what it has slept. -/
structure Spends (s : Session) (failed slept : ℕ) (s' : Session) : Prop where
  bounded : s'.Bounded
  attempts : s.phase.attempts + failed ≤ s'.phase.attempts
  sleep : slept + s'.phase.sleepLeft ≤ s.phase.sleepLeft

theorem spends_ended {failed : ℕ} (hs : s.phase.attempts + failed ≤ maxReconnectAttempts + 1)
    (hphase : s'.phase = .ended) : Spends s failed 0 s' where
  bounded := .inl hphase
  attempts := by
    rw [hphase]
    exact hs
  sleep := by
    have hnone : s'.phase.sleepLeft = 0 := by
      rw [hphase]
      rfl
    omega

theorem spends_leave {n failed : ℕ} (hn : n ≤ maxReconnectAttempts)
    (hattempts : s.phase.attempts = n) (hsleep : s.phase.sleepLeft = sleepsAfter n)
    (hfailed : failed ≤ 1) : Spends s failed 0 (s.leave n) := by
  simp only [Session.leave]
  split_ifs with hrunning hmax
  · exact spends_ended (by omega) rfl
  · exact spends_ended (by omega) rfl
  · have hsucc := sleepsAfter_succ (not_lt.mp hmax)
    refine ⟨.inr (not_lt.mp hmax), ?_, ?_⟩
    · change s.phase.attempts + failed ≤ n + 1
      omega
    · change 0 + (min (reconnectDelaySeconds * (n + 1)) 30 + sleepsAfter (n + 1)) ≤
        s.phase.sleepLeft
      omega

theorem spends_attempt {n delay : ℕ} (hn : n ≤ maxReconnectAttempts)
    (hattempts : s.phase.attempts ≤ n) (hsleep : delay + sleepsAfter n ≤ s.phase.sleepLeft) :
    Spends s 0 delay (s.attempt n) := by
  rw [Session.attempt]
  split
  · exact ⟨.inr hn, hattempts, hsleep⟩
  · refine ⟨.inl rfl, ?_, ?_⟩
    · change s.phase.attempts ≤ maxReconnectAttempts + 1
      omega
    · have hle : sleepsAfter (maxReconnectAttempts + 1) ≤ sleepsAfter n :=
        sleepsAfter_anti (by omega)
      change delay + sleepsAfter (maxReconnectAttempts + 1) ≤ s.phase.sleepLeft
      omega

/-- A connection has no failed attempt behind it. -/
theorem attempts_of_connected {phase : Phase} (h : phase.connected = true) :
    phase.attempts = 0 ∧ phase.sleepLeft = sleepsAfter 0 := by
  cases phase <;> simp [Phase.connected] at h <;> exact ⟨rfl, rfl⟩

theorem spends_lost {failed : ℕ} (h : s.phase.connected = true) (hfailed : failed ≤ 1) :
    Spends s failed 0 (s.leave 0) :=
  spends_leave (Nat.zero_le _) (attempts_of_connected h).1 (attempts_of_connected h).2 hfailed

theorem spends_connected (h : s.phase.connected = true) (h' : s'.phase.connected = true) :
    Spends s 0 0 s' := by
  have hs := attempts_of_connected h
  have hs' := attempts_of_connected h'
  exact ⟨.inr (by rw [hs'.1]; exact Nat.zero_le _), by omega, by omega⟩

theorem resubscribe_connected_or_leave (s : Session) (codes : List String) :
    (s.resubscribe codes).phase.connected = true ∨ s.resubscribe codes = s.leave 0 := by
  cases codes with
  | nil =>
    rw [Session.resubscribe]
    split
    · exact .inl rfl
    · exact .inr rfl
  | cons code rest =>
    rw [Session.resubscribe]
    split
    · exact .inl rfl
    · exact .inr rfl

theorem Session.Bounded.le (hs : s.Bounded) (hphase : s.phase ≠ .ended) :
    s.phase.attempts ≤ maxReconnectAttempts := hs.resolve_left hphase

theorem step_spends (hs : s.Bounded) (h : step python s e = some s') (hno : e.isOpened = false) :
    Spends s (if e.isRaised then 1 else 0) (sleptIn s e) s' := by
  cases step_turn h with
  | started hphase =>
    have hspends : Spends { s with client.running := true } 0 0
        ({ s with client.running := true }.attempt 0) :=
      spends_attempt (Nat.zero_le _) (by simp [hphase, Phase.attempts])
        (by simp [hphase, Phase.sleepLeft, Phase.attempts])
    exact ⟨hspends.bounded, hspends.attempts, hspends.sleep⟩
  | approved n key hphase =>
    have hle := hs.le (by simp [hphase])
    rw [hphase] at hle
    refine ⟨.inr hle, by rw [hphase]; exact Nat.le_refl _, ?_⟩
    rw [hphase]
    exact (Nat.zero_add _).le
  | opened n ws codes hphase => simp [Event.isOpened] at hno
  | resent sending code rest hphase =>
    have hconnected : s.phase.connected = true := by rw [hphase]; rfl
    cases resubscribe_connected_or_leave { s with client := s.client.subscribed code } rest with
    | inl hgoes => exact spends_connected hconnected hgoes
    | inr hleave =>
      have hspends : Spends { s with client := s.client.subscribed code } 0 0 _ :=
        spends_lost hconnected (Nat.zero_le _)
      rw [hleave]
      exact ⟨hspends.bounded, hspends.attempts, hspends.sleep⟩
  | answered message hphase => exact spends_connected (by rw [hphase]; rfl) rfl
  | handled message hphase =>
    exact spends_connected (by rw [hphase]; rfl) (by rw [hphase]; rfl)
  | replying message reply hphase => exact spends_connected (by rw [hphase]; rfl) rfl
  | refused message hphase => exact spends_lost (by rw [hphase]; rfl) (Nat.zero_le _)
  | lost hphase => exact spends_lost hphase (Nat.le_refl _)
  | failed n hphase =>
    have hle := hs.le (by rintro hended; simp [hended] at hphase)
    obtain hphase | hphase := hphase
    · rw [hphase] at hle
      exact spends_leave hle (by rw [hphase]; rfl) (by rw [hphase]; rfl) (Nat.le_refl _)
    · rw [hphase] at hle
      exact spends_leave hle (by rw [hphase]; rfl) (by rw [hphase]; rfl) (Nat.le_refl _)
  | awake n delay hphase =>
    have hle := hs.le (by simp [hphase])
    have hslept : sleptIn s .awake = delay := by rw [sleptIn, hphase]
    rw [hphase] at hle
    rw [hslept]
    exact spends_attempt hle (by rw [hphase]; exact Nat.le_refl _)
      (by rw [hphase]; exact Nat.le_refl _)
  | idleCancelled hphase client hclient =>
    have hle : s.phase.attempts ≤ maxReconnectAttempts + 1 :=
      hs.elim (fun hended => by rw [hended]; exact Nat.le_refl _) Nat.le_succ_of_le
    exact spends_ended hle rfl
  | cancelled hphase =>
    exact spends_ended (by rw [(attempts_of_connected hphase).1]; exact Nat.zero_le _) rfl
  | aside he haside =>
    have hslept : sleptIn s e = 0 := by cases e <;> simp [Event.isAside] at he <;> rfl
    have hraised : e.isRaised = false := by cases e <;> simp [Event.isAside] at he <;> rfl
    rw [hslept, hraised]
    refine ⟨?_, by rw [haside.phase]; exact Nat.le_refl _, by rw [haside.phase, Nat.zero_add]⟩
    rw [Session.Bounded, haside.phase]
    exact hs

/-- A new connection counts as no failed attempt, also when it is lost at once. -/
theorem opened_bounded (s : Session) (codes : List String) :
    (s.resubscribe codes).Bounded ∧ (s.resubscribe codes).phase.sleepLeft ≤ sleepsAfter 0 := by
  cases resubscribe_connected_or_leave s codes with
  | inl hgoes =>
    have hzero := attempts_of_connected hgoes
    exact ⟨.inr (by rw [hzero.1]; exact Nat.zero_le _), hzero.2.le⟩
  | inr hleave =>
    have hspends : Spends { s with phase := .receiving } 0 0 (s.leave 0) :=
      spends_lost rfl (Nat.zero_le _)
    rw [hleave]
    exact ⟨hspends.bounded, (Nat.zero_add _).symm.le.trans hspends.sleep⟩

theorem step_bounded (hs : s.Bounded) (hsleep : s.phase.sleepLeft ≤ sleepsAfter 0)
    (h : step python s e = some s') : s'.Bounded ∧ s'.phase.sleepLeft ≤ sleepsAfter 0 := by
  cases hno : e.isOpened with
  | false =>
    have hspends := step_spends hs h hno
    have hle := hspends.sleep
    exact ⟨hspends.bounded, by omega⟩
  | true =>
    cases step_turn h with
    | opened n ws codes hphase => exact opened_bounded _ codes
    | aside he => cases e <;> simp [Event.isAside, Event.isOpened] at he hno
    | _ => simp [Event.isOpened] at hno

theorem run_bounded (hs : s.Bounded) (hsleep : s.phase.sleepLeft ≤ sleepsAfter 0)
    (h : run python s events = some s') : s'.Bounded ∧ s'.phase.sleepLeft ≤ sleepsAfter 0 := by
  induction events generalizing s with
  | nil =>
    obtain rfl := Option.some.inj h
    exact ⟨hs, hsleep⟩
  | cons e events ih =>
    obtain ⟨s₁, hstep, hrun⟩ := run_cons.mp h
    have hfirst := step_bounded hs hsleep hstep
    exact ih hfirst.1 hfirst.2 hrun

theorem slept_cons (h : step python s e = some s') :
    slept python s (e :: events) = sleptIn s e + slept python s' events := by
  simp [slept, h]

theorem run_spends (hs : s.Bounded) (h : run python s events = some s')
    (hno : ∀ e ∈ events, e.isOpened = false) :
    Spends s (events.countP Event.isRaised) (slept python s events) s' := by
  induction events generalizing s with
  | nil =>
    obtain rfl := Option.some.inj h
    exact ⟨hs, Nat.le_refl _, (Nat.zero_add _).le⟩
  | cons e events ih =>
    obtain ⟨s₁, hstep, hrun⟩ := run_cons.mp h
    have hfirst := step_spends hs hstep (hno e List.mem_cons_self)
    have hrest := ih hfirst.bounded hrun fun e' he' => hno e' (List.mem_cons_of_mem e he')
    rw [slept_cons hstep, List.countP_cons]
    have hattempts := hfirst.attempts
    have hattempts' := hrest.attempts
    have hsleep := hfirst.sleep
    have hsleep' := hrest.sleep
    exact ⟨hrest.bounded, by omega, by omega⟩

/-- As long as no connection comes about, `start` fails at most eleven times, sleeps for at most 165
seconds in all, and has ended when it has failed eleven times. -/
theorem gives_up {before : List Event} (h₁ : run python .init before = some s)
    (h₂ : run python s events = some s') (hno : ∀ e ∈ events, e.isOpened = false) :
    events.countP Event.isRaised ≤ 11 ∧ slept python s events ≤ 165 ∧
      (events.countP Event.isRaised = 11 → s'.phase = .ended) := by
  obtain ⟨hbounded, hleft⟩ := run_bounded (s := .init) (.inr (Nat.zero_le _)) (Nat.le_refl _) h₁
  have hspends := run_spends hbounded h₂ hno
  have hattempts := hspends.attempts
  have hle : s'.phase.attempts ≤ 11 := by
    cases hspends.bounded with
    | inl hended => rw [hended]; exact Nat.le_refl _
    | inr hle => exact Nat.le_succ_of_le hle
  have hall : sleepsAfter 0 = 165 := by decide
  have hsleep := hspends.sleep
  refine ⟨by omega, by omega, fun heq => ?_⟩
  cases hspends.bounded with
  | inl hended => exact hended
  | inr hle =>
    have hten : maxReconnectAttempts = 10 := rfl
    omega

/-- Eleven failed attempts in a row. -/
theorem gives_up_eleven : ∃ s s' : Session,
    run .sample .init [.started] = some s ∧
    run .sample s
      ((List.replicate 10 [Event.raised, .awake]).flatten ++ [.raised]) = some s' ∧
    s'.phase = .ended := by
  have h₁ : run .sample .init [.started] = some _ := rfl
  have h₂ : run .sample ⟨⟨none, ∅, true, none⟩, .approving 0, [], 0⟩
      ((List.replicate 10 [Event.raised, .awake]).flatten ++ [.raised]) = some _ := rfl
  exact ⟨_, _, h₁, h₂, (gives_up h₁ h₂ (by simp [Event.isOpened])).2.2 (by rfl)⟩

/-! ## After `disconnect` -/

/-- `start` is on the way to a connection. -/
def Phase.connecting : Phase → Bool
  | approving _ | opening _ => true
  | _ => false

/-- `disconnect` was called after `start`. -/
def Session.Disconnecting (s : Session) : Prop := s.client.running = false ∧ s.phase ≠ .created

theorem leave_disconnecting (hrunning : s.client.running = false) (n : ℕ) :
    (s.leave n).Disconnecting ∧ (s.leave n).phase = .ended := by
  simp [Session.leave, Session.Disconnecting, hrunning]

theorem resubscribe_disconnecting (hrunning : s.client.running = false) (codes : List String) :
    (s.resubscribe codes).Disconnecting ∧ (s.resubscribe codes).phase.connecting = false := by
  have hleave := leave_disconnecting hrunning 0
  have hleave' : (s.leave 0).phase.connecting = false := by rw [hleave.2]; rfl
  cases codes with
  | nil =>
    rw [Session.resubscribe]
    split
    · exact ⟨⟨hrunning, by simp⟩, rfl⟩
    · exact ⟨hleave.1, hleave'⟩
  | cons code rest =>
    rw [Session.resubscribe]
    split
    · exact ⟨⟨hrunning, by simp⟩, rfl⟩
    · exact ⟨hleave.1, hleave'⟩

/-- Only the connection that is under way is opened. -/
theorem step_disconnecting (hs : s.Disconnecting) (h : step python s e = some s') :
    s'.Disconnecting ∧
      (if e.isOpened then 1 else 0) + (if s'.phase.connecting then 1 else 0) ≤
        if s.phase.connecting then 1 else 0 := by
  obtain ⟨hrunning, hcreated⟩ := hs
  cases step_turn h with
  | started hphase => exact absurd hphase hcreated
  | approved n key hphase => exact ⟨⟨hrunning, by simp⟩, by rw [hphase]; exact Nat.le_refl _⟩
  | opened n ws codes hphase =>
    have hnext := resubscribe_disconnecting (s := { s with client.ws := some ws }) hrunning codes
    refine ⟨hnext.1, ?_⟩
    rw [hnext.2, hphase]
    exact Nat.le_refl _
  | resent sending code rest hphase =>
    have hnext := resubscribe_disconnecting
      (s := { s with client := s.client.subscribed code }) hrunning rest
    refine ⟨hnext.1, ?_⟩
    rw [hnext.2]
    exact Nat.zero_le _
  | answered message hphase => exact ⟨⟨hrunning, by simp⟩, Nat.zero_le _⟩
  | handled message hphase => exact ⟨⟨hrunning, hcreated⟩, by rw [hphase]; exact Nat.le_refl _⟩
  | replying message reply hphase => exact ⟨⟨hrunning, by simp⟩, Nat.zero_le _⟩
  | refused message hphase =>
    have hnext := leave_disconnecting hrunning 0
    exact ⟨hnext.1, by rw [hnext.2]; exact Nat.zero_le _⟩
  | lost hphase =>
    have hnext := leave_disconnecting hrunning 0
    exact ⟨hnext.1, by rw [hnext.2]; exact Nat.zero_le _⟩
  | failed n hphase =>
    have hnext := leave_disconnecting hrunning n
    exact ⟨hnext.1, by rw [hnext.2]; exact Nat.zero_le _⟩
  | awake n delay hphase =>
    have hended : s.attempt n = { s with phase := .ended } := by simp [Session.attempt, hrunning]
    rw [hended]
    exact ⟨⟨hrunning, by simp⟩, Nat.zero_le _⟩
  | idleCancelled hphase client hclient =>
    refine ⟨⟨?_, by simp⟩, Nat.zero_le _⟩
    obtain rfl | rfl := hclient <;> exact hrunning
  | cancelled hphase => exact ⟨⟨hrunning, by simp⟩, Nat.zero_le _⟩
  | aside he haside =>
    have hopened : e.isOpened = false := by cases e <;> simp [Event.isAside] at he <;> rfl
    rw [Session.Disconnecting, haside.phase, hopened]
    refine ⟨⟨?_, hcreated⟩, (Nat.zero_add _).le⟩
    by_contra hrunning'
    have := haside.running (by simpa using hrunning')
    simp [hrunning] at this

theorem run_disconnecting (hs : s.Disconnecting) (h : run python s events = some s') :
    events.countP Event.isOpened + (if s'.phase.connecting then 1 else 0) ≤
      if s.phase.connecting then 1 else 0 := by
  induction events generalizing s with
  | nil =>
    obtain rfl := Option.some.inj h
    exact (Nat.zero_add _).le
  | cons e events ih =>
    obtain ⟨s₁, hstep, hrun⟩ := run_cons.mp h
    have hfirst := step_disconnecting hs hstep
    have hrest := ih hfirst.1 hrun
    rw [List.countP_cons]
    omega

/-- The first loss or failure ends `start`. -/
theorem step_disconnecting_raised (hs : s.Disconnecting) (h : step python s .raised = some s') :
    s.phase ≠ .ended ∧ s'.phase = .ended := by
  cases step_turn h with
  | lost hphase =>
    refine ⟨fun hended => ?_, (leave_disconnecting hs.1 0).2⟩
    simp [hended, Phase.connected] at hphase
  | failed n hphase =>
    refine ⟨fun hended => ?_, (leave_disconnecting hs.1 n).2⟩
    simp [hended] at hphase
  | aside he => cases he

theorem run_disconnecting_raised (hs : s.Disconnecting) (h : run python s events = some s') :
    (s.phase = .ended → events.countP Event.isRaised = 0) ∧ events.countP Event.isRaised ≤ 1 ∧
      (events.countP Event.isRaised = 1 → s'.phase = .ended) := by
  induction events generalizing s with
  | nil => simp
  | cons e events ih =>
    obtain ⟨s₁, hstep, hrun⟩ := run_cons.mp h
    obtain ⟨hnone, hone, hends⟩ := ih (step_disconnecting hs hstep).1 hrun
    rw [List.countP_cons]
    by_cases he : e = .raised
    · subst he
      obtain ⟨hnot, hended⟩ := step_disconnecting_raised hs hstep
      have hzero := hnone hended
      simp only [hzero, Event.isRaised, if_true]
      exact ⟨fun h => absurd h hnot, Nat.le_refl _, fun _ => run_ended hended hrun⟩
    · have hnot : e.isRaised = false := by cases e <;> simp [Event.isRaised] at he ⊢
      simp only [hnot, Bool.false_eq_true, if_false, Nat.add_zero]
      exact ⟨fun h => hnone (step_ended h hstep), hone, hends⟩

/-- After `disconnect`, `start` opens at most the connection that was under way, and ends with the
first loss or failure. -/
theorem after_disconnect (hstarted : s.phase ≠ .created)
    (h : run python s (.disconnect :: events) = some s') :
    (events.countP Event.isOpened ≤ if s.phase.connecting then 1 else 0) ∧
      events.countP Event.isRaised ≤ 1 ∧
      (events.countP Event.isRaised = 1 → s'.phase = .ended) := by
  obtain ⟨s₁, hstep, hrun⟩ := run_cons.mp h
  have hphase : s₁.phase = s.phase := by
    cases step_turn hstep with
    | aside _ haside => exact haside.phase
  have hs₁ : s₁.Disconnecting := by
    refine ⟨?_, by rwa [hphase]⟩
    simp only [step, Option.some.injEq] at hstep
    subst hstep
    split <;> rfl
  have hopened := run_disconnecting hs₁ hrun
  have hraised := run_disconnecting_raised hs₁ hrun
  rw [hphase] at hopened
  exact ⟨by omega, hraised.2⟩

/-- A `disconnect` during an attempt, which then fails. -/
theorem after_disconnect_failing : ∃ s s' : Session,
    run .sample .init [.started] = some s ∧
    run .sample s [.disconnect, .approved "key", .raised] = some s' ∧
    s'.phase = .ended := by
  have h : run .sample ⟨⟨none, ∅, true, none⟩, .approving 0, [], 0⟩
      [.disconnect, .approved "key", .raised] = some _ := rfl
  exact ⟨_, _, rfl, h, (after_disconnect (by simp) h).2.2 rfl⟩

/-! ## The messages of a new connection -/

/-- The subscription that the step has sent again. -/
def resentIn (s : Session) : Event → List Sending
  | .sent =>
    match s.phase with
    | .resubscribing sending _ _ => [sending]
    | _ => []
  | _ => []

/-- The subscriptions that a run sends again. -/
def resent (python : Interpreter) : Session → List Event → List Sending
  | _, [] => []
  | s, e :: es => resentIn s e ++ ((step python s e).map fun s => resent python s es).getD []

/-- The message that subscribes a code on a connection. -/
def Client.subscription (client : Client) (ws : ℕ) (code : String) : Sending :=
  ⟨ws, client.buildSubscribeMessage "1" domesticStockRealtimePrice code⟩

/-- A connection that is this one, and what is under way is its next message. -/
structure Session.On (s : Session) (ws : ℕ) : Prop where
  socket : s.client.ws = some ws ∨ s.client.ws = none
  sending : ∀ sending code rest, s.phase = .resubscribing sending code rest →
    sending = s.client.subscription ws code

/-- What is still to be sent again. -/
def Session.toSend (s : Session) (ws : ℕ) : List Sending :=
  s.phase.pending.map (s.client.subscription ws)

theorem leave_not_connected (s : Session) (n : ℕ) : (s.leave n).phase.connected = false := by
  simp only [Session.leave]
  split_ifs <;> rfl

theorem attempt_not_connected (s : Session) (n : ℕ) : (s.attempt n).phase.connected = false := by
  rw [Session.attempt]
  split <;> rfl

theorem approvalKey_resubscribe (s : Session) (codes : List String) :
    (s.resubscribe codes).client.approvalKey = s.client.approvalKey := by
  have hleave : (s.leave 0).client.approvalKey = s.client.approvalKey := by
    simp only [Session.leave]
    split_ifs <;> rfl
  cases codes with
  | nil =>
    rw [Session.resubscribe]
    split
    · rfl
    · exact hleave
  | cons code rest =>
    rw [Session.resubscribe]
    split
    · rfl
    · exact hleave

theorem on_resubscribe {ws : ℕ} {codes : List String}
    (hws : s.client.ws = some ws ∨ s.client.ws = none)
    (hgoes : (s.resubscribe codes).phase.connected = true) :
    (s.resubscribe codes).On ws ∧
      (s.resubscribe codes).toSend ws = codes.map (s.client.subscription ws) := by
  have hleave := leave_not_connected s 0
  cases codes with
  | nil =>
    rw [Session.resubscribe] at hgoes ⊢
    split at hgoes
    · next hsome =>
      rw [if_pos hsome]
      exact ⟨⟨hws, by simp⟩, rfl⟩
    · simp [hleave] at hgoes
  | cons code rest =>
    rw [Session.resubscribe] at hgoes ⊢
    cases hrequest : s.client.subscribe code with
    | error e => simp [hrequest, hleave] at hgoes
    | ok sending =>
      have hsending : sending = s.client.subscription ws code := by
        rw [Client.subscribe, Client.request] at hrequest
        split at hrequest
        · next v hv =>
          split at hrequest
          · obtain rfl : v = ws := by simpa [hv] using hws
            exact (Except.ok.inj hrequest).symm
          · cases hrequest
        · cases hrequest
      refine ⟨⟨hws, ?_⟩, rfl⟩
      intro sending' code' rest' hphase
      obtain ⟨rfl, rfl, -⟩ := Phase.resubscribing.inj hphase
      exact hsending

/-- The answer to a ping, or a message of the server, is no subscription. -/
theorem on_receiving {ws : ℕ} {phase : Phase} (hon : s.On ws)
    (hphase : phase = .receiving ∨ ∃ message, phase = .answering message) :
    { s with phase := phase }.On ws ∧ { s with phase := phase }.toSend ws = [] := by
  obtain rfl | ⟨message, rfl⟩ := hphase
  · exact ⟨⟨hon.socket, by simp⟩, rfl⟩
  · exact ⟨⟨hon.socket, by simp⟩, rfl⟩

/-- A step within a connection. -/
theorem step_on {ws : ℕ} (h : step python s e = some s') (hno : e.isOpened = false)
    (hgoes : s'.phase.connected = true) :
    s.phase.connected = true ∧
      (s.On ws → s'.On ws ∧ s'.client.approvalKey = s.client.approvalKey ∧
        s.toSend ws = resentIn s e ++ s'.toSend ws) := by
  cases step_turn h with
  | started hphase => simp [attempt_not_connected] at hgoes
  | approved n key hphase => cases hgoes
  | opened n v codes hphase => simp [Event.isOpened] at hno
  | resent sending code rest hphase =>
    refine ⟨by rw [hphase]; rfl, fun hon => ?_⟩
    have hnext := on_resubscribe (s := { s with client := s.client.subscribed code })
      hon.socket hgoes
    refine ⟨hnext.1, approvalKey_resubscribe _ rest, ?_⟩
    rw [hnext.2, Session.toSend, hphase, resentIn, hphase, hon.sending sending code rest hphase]
    rfl
  | answered message hphase =>
    refine ⟨by rw [hphase]; rfl, fun hon => ?_⟩
    have hnext := on_receiving hon (.inl rfl)
    refine ⟨hnext.1, rfl, ?_⟩
    rw [hnext.2, Session.toSend, hphase, resentIn, hphase]
    rfl
  | handled message hphase =>
    refine ⟨by rw [hphase]; rfl, fun hon => ⟨hon, rfl, rfl⟩⟩
  | replying message reply hphase =>
    refine ⟨by rw [hphase]; rfl, fun hon => ?_⟩
    have hnext := on_receiving hon (.inr ⟨reply, rfl⟩)
    refine ⟨hnext.1, rfl, ?_⟩
    rw [hnext.2, Session.toSend, hphase]
    rfl
  | refused message hphase => simp [leave_not_connected] at hgoes
  | lost hphase => simp [leave_not_connected] at hgoes
  | failed n hphase => simp [leave_not_connected] at hgoes
  | awake n delay hphase => simp [attempt_not_connected] at hgoes
  | idleCancelled hphase client hclient => cases hgoes
  | cancelled hphase => cases hgoes
  | aside he haside =>
    rw [haside.phase] at hgoes
    refine ⟨hgoes, fun hon => ?_⟩
    have hsame : s'.client.subscription ws = s.client.subscription ws := by
      funext code
      simp [Client.subscription, Client.buildSubscribeMessage, haside.key]
    have hnone : resentIn s e = [] := by cases e <;> simp [Event.isAside] at he <;> rfl
    refine ⟨⟨?_, ?_⟩, haside.key, ?_⟩
    · cases haside.ws with
      | inl hws =>
        rw [hws]
        exact hon.socket
      | inr hws => exact .inr hws
    · rw [haside.phase, hsame]
      exact hon.sending
    · rw [Session.toSend, Session.toSend, haside.phase, hsame, hnone, List.nil_append]

theorem resent_cons (h : step python s e = some s') :
    resent python s (e :: events) = resentIn s e ++ resent python s' events := by
  simp [resent, h]

theorem run_on {ws : ℕ} (h : run python s events = some s')
    (hno : ∀ e ∈ events, e.isOpened = false) (hgoes : s'.phase.connected = true) :
    s.phase.connected = true ∧
      (s.On ws → s'.On ws ∧ s.toSend ws = resent python s events ++ s'.toSend ws) := by
  induction events generalizing s with
  | nil =>
    obtain rfl := Option.some.inj h
    exact ⟨hgoes, fun hon => ⟨hon, rfl⟩⟩
  | cons e events ih =>
    obtain ⟨s₁, hstep, hrun⟩ := run_cons.mp h
    obtain ⟨hgoes₁, hrest⟩ := ih hrun fun e' he' => hno e' (List.mem_cons_of_mem e he')
    obtain ⟨hgoes₀, hfirst⟩ := step_on hstep (hno e List.mem_cons_self) hgoes₁
    refine ⟨hgoes₀, fun hon => ?_⟩
    obtain ⟨hon₁, -, hsend⟩ := hfirst hon
    obtain ⟨hon', hsend'⟩ := hrest hon₁
    refine ⟨hon', ?_⟩
    rw [hsend, hsend', resent_cons hstep, List.append_assoc]

/-- Whatever the calls of the API do in the meantime: when `start` comes to receive on a new
connection, it has sent one subscription on it for each code of the set that it met, in the order in
which the set listed them. -/
theorem resubscribes_all {ws : ℕ} {codes : List String} {s₁ : Session}
    (hopened : step python s (.opened ws codes) = some s₁)
    (h : run python s₁ events = some s') (hno : ∀ e ∈ events, e.isOpened = false)
    (hreceives : s'.phase = .receiving) :
    codes.Nodup ∧ codes.toFinset = s.client.subscribedCodes ∧
      resent python s₁ events = codes.map (s.client.subscription ws) := by
  have hgoes : s'.phase.connected = true := by rw [hreceives]; rfl
  obtain ⟨hgoes₁, hrest⟩ := run_on h hno hgoes
  cases hphase : s.phase with
  | opening n =>
    simp only [step, hphase, Option.ite_none_right_eq_some, Option.some.injEq] at hopened
    obtain ⟨⟨hnodup, hcodes⟩, rfl⟩ := hopened
    obtain ⟨hon, hsend⟩ := on_resubscribe (.inl rfl) hgoes₁
    obtain ⟨-, hall⟩ := hrest hon
    have hnil : s'.toSend ws = [] := by rw [Session.toSend, hreceives]; rfl
    rw [hsend, hnil, List.append_nil] at hall
    exact ⟨hnodup, hcodes, hall.symm⟩
  | _ => simp [step, hphase] at hopened

/-- One code, and a call that unsubscribes it while it is subscribed again. -/
theorem resubscribes_all_one : ∃ s s₁ s' : Session,
    s.phase = .opening 0 ∧
    step .sample s (.opened 7 ["005930"]) = some s₁ ∧
    run .sample s₁ [.call .unsubscribe "005930", .callSent 0, .sent] = some s' ∧
    resent .sample s₁ [.call .unsubscribe "005930", .callSent 0, .sent] =
      [s.client.subscription 7 "005930"] := by
  have hopened : step .sample
      ⟨⟨none, {"005930"}, true, some "key"⟩, .opening 0, [], 0⟩ (.opened 7 ["005930"]) = some _ := rfl
  have h : run .sample
      ⟨⟨some 7, {"005930"}, true, some "key"⟩,
        .resubscribing ⟨7, ⟨"key", "P", "1", "utf-8", "H0STCNT0", "005930"⟩⟩ "005930" [], [], 0⟩
      [.call .unsubscribe "005930", .callSent 0, .sent] = some _ := rfl
  exact ⟨_, _, _, rfl, hopened, h,
    (resubscribes_all hopened h (by simp [Event.isOpened]) rfl).2.2⟩

end Autotrading.KISRealtimeClient
