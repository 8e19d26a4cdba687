import Autotrading.ConnectionManager

/-!
# What the clients of the order socket get

The connections and the broadcast under way are a group with its rounds; `connect` is called once
for a socket, so a client gets a stretch of the broadcasts, in order and without a gap.
-/
namespace Autotrading.ConnectionManager

open Fanout (Group Round)
open JsonText (Json)
open KISRealtimeClient (codes get member isText)

variable {WebSocket : Type} [DecidableEq WebSocket] {nesting : ℕ} {w : WebSocket}
  {s s' : Server WebSocket} {e : Event WebSocket} {es es' : List (Event WebSocket)}

/-! ## The group behind the server -/

/-- The broadcast under way. -/
def Subscriber.phase : Subscriber WebSocket → Fanout.Phase WebSocket Json
  | .created | .listening => .idle
  | .sending message connection connections dead =>
    .sending ⟨message, connection, connections, dead⟩
  | .ended => .stopped

def Server.group (s : Server WebSocket) : Group WebSocket Json := ⟨s.connections, s.subscriber.phase⟩

/-- What an event is for the group. -/
def Event.action (nesting : ℕ) : Event WebSocket → Fanout.Action WebSocket Json
  | .accepted w => .join w
  | .raised w => .leave w
  | .message rawData connections =>
    match broadcast? nesting rawData with
    | some payload => .start payload connections
    | none => .pass
  | .delivered => .delivered
  | .failed => .failed
  | .subscriberRaised | .subscriberCancelled => .stop
  | _ => .pass

theorem group_broadcast (s : Server WebSocket) (message : Json)
    (connections dead : List WebSocket) :
    (s.broadcast message dead connections).group = s.group.advance message connections dead := by
  cases connections <;> rfl

/-- A step of the handlers and the subscriber is a step of the group. -/
theorem step_group (h : step nesting s e = some s') :
    s.group.step (e.action nesting) = some s'.group := by
  cases e with
  | accepted v =>
    cases hv : s.handlers v with
    | accepting =>
      simp only [step, hv, Option.some.injEq] at h
      subst h
      rfl
    | _ => simp [step, hv] at h
  | raised v =>
    simp only [step, Option.ite_none_right_eq_some, Option.some.injEq] at h
    obtain ⟨-, rfl⟩ := h
    rfl
  | message rawData connections =>
    cases hsub : s.subscriber with
    | listening =>
      cases hb : broadcast? nesting rawData with
      | none =>
        simp only [step, hsub, hb, Option.some.injEq] at h
        subst h
        simp [Event.action, hb, Group.step]
      | some message =>
        simp only [step, hsub, hb, Option.ite_none_right_eq_some, Option.some.injEq] at h
        obtain ⟨hlist, rfl⟩ := h
        have hphase : s.group.phase = .idle := by simp [Server.group, hsub, Subscriber.phase]
        have hlist' : connections.Nodup ∧ connections.toFinset = s.group.members := hlist
        simp only [Event.action, hb, Group.step, hphase]
        rw [if_pos hlist', group_broadcast]
    | _ => simp [step, hsub] at h
  | delivered =>
    cases hsub : s.subscriber with
    | sending message connection connections dead =>
      simp only [step, hsub, Option.some.injEq] at h
      subst h
      have hphase : s.group.phase = .sending ⟨message, connection, connections, dead⟩ := by
        simp [Server.group, hsub, Subscriber.phase]
      simp only [Event.action, Group.step, hphase, group_broadcast]
    | _ => simp [step, hsub] at h
  | failed =>
    cases hsub : s.subscriber with
    | sending message connection connections dead =>
      simp only [step, hsub, Option.some.injEq] at h
      subst h
      have hphase : s.group.phase = .sending ⟨message, connection, connections, dead⟩ := by
        simp [Server.group, hsub, Subscriber.phase]
      simp only [Event.action, Group.step, hphase, group_broadcast]
    | _ => simp [step, hsub] at h
  | subscriberRaised =>
    cases hsub : s.subscriber with
    | created | listening =>
      simp only [step, hsub, Option.some.injEq] at h
      subst h
      simp [Event.action, Group.step, Server.group, hsub, Subscriber.phase]
    | _ => simp [step, hsub] at h
  | subscriberCancelled =>
    cases hsub : s.subscriber with
    | ended => simp [step, hsub] at h
    | _ =>
      simp only [step, hsub, Option.some.injEq] at h
      subst h
      simp [Event.action, Group.step, Server.group, hsub, Subscriber.phase]
  | subscribed =>
    cases hsub : s.subscriber with
    | created =>
      simp only [step, hsub, Option.some.injEq] at h
      subst h
      simp [Event.action, Group.step, Server.group, hsub, Subscriber.phase]
    | _ => simp [step, hsub] at h
  | silence =>
    cases hsub : s.subscriber with
    | listening =>
      simp only [step, hsub, Option.some.injEq] at h
      subst h
      rfl
    | _ => simp [step, hsub] at h
  | opened v | acceptRaised v | sent v | received v _ | timedOut v | cancelled v =>
    cases hv : s.handlers v <;> simp [step, hv] at h <;> subst h <;> rfl

/-! ## Runs -/

/-- What the events of a run are for the group. -/
def actions (nesting : ℕ) (es : List (Event WebSocket)) : List (Fanout.Action WebSocket Json) :=
  es.map (Event.action nesting)

theorem run_cons {s'' : Server WebSocket} : run nesting s (e :: es) = some s'' ↔
    ∃ s', step nesting s e = some s' ∧ run nesting s' es = some s'' := by
  simp only [run, Option.bind_eq_some_iff]

theorem sentTo_cons (h : step nesting s e = some s') :
    sentTo nesting w s (e :: es) = output w s e ++ sentTo nesting w s' es := by
  simp [sentTo, h]

theorem run_group (h : run nesting s es = some s') :
    s.group.run (actions nesting es) = some s'.group := by
  induction es generalizing s with
  | nil =>
    obtain rfl := Option.some.inj h
    rfl
  | cons e es ih =>
    obtain ⟨s₁, hstep, hrun⟩ := run_cons.mp h
    exact Fanout.run_cons.mpr ⟨s₁.group, step_group hstep, ih hrun⟩

omit [DecidableEq WebSocket] in
theorem messages_actions (es : List (Event WebSocket)) :
    Fanout.messages (actions nesting es) = broadcasts nesting es := by
  induction es with
  | nil => rfl
  | cons e es ih =>
    have htail : broadcasts nesting (e :: es) =
        (e.text?.bind (broadcast? nesting)).toList ++ broadcasts nesting es := by
      cases htext : e.text? with
      | none => simp [broadcasts, texts, htext]
      | some text => cases hb : broadcast? nesting text <;> simp [broadcasts, texts, htext, hb]
    rw [htail, ← ih, actions, List.map_cons, Fanout.messages_cons, ← actions]
    congr 1
    cases e with
    | message rawData connections =>
      cases hb : broadcast? nesting rawData <;>
        simp [Event.action, Event.text?, hb, Fanout.Action.started?]
    | _ => rfl

/-! ## The messages of a broadcast -/

/-- The message is of a broadcast, and not one of the handler's own. -/
def isOrderMessage (message : Json) : Bool :=
  match get message "type" .null with
  | .ok type => isText type "order_updated" || isText type "order_created"
  | .error _ => false

theorem isOrderMessage_orderUpdated (data : Json) : isOrderMessage (orderUpdated data) = true := rfl

theorem isOrderMessage_orderCreated (data : Json) : isOrderMessage (orderCreated data) = true := rfl

theorem isOrderMessage_connected : isOrderMessage connectedMessage = false := by decide

theorem isOrderMessage_ping : isOrderMessage pingMessage = false := by decide

/-- A text is broadcast when it is an object of one of the two types; only its data goes out. -/
theorem broadcast?_eq_some_iff {rawData : List Char} {message : Json} :
    broadcast? nesting rawData = some message ↔
      ∃ members, JsonText.loads nesting rawData = .ok (.obj members) ∧
        ((isText (member members "type" .null) "order_updated" = true ∧
            message = orderUpdated (member members "data" .null)) ∨
          (isText (member members "type" .null) "order_updated" = false ∧
            isText (member members "type" .null) "order_created" = true ∧
            message = orderCreated (member members "data" .null))) := by
  unfold broadcast? handleText
  cases hloads : JsonText.loads nesting rawData with
  | error fault => simp [Except.mapError, bind, Except.bind]
  | ok payload =>
    cases payload with
    | obj members =>
      simp only [Except.mapError, bind, Except.bind, KISRealtimeClient.get, Except.ok.injEq,
        Json.obj.injEq, exists_eq_left']
      generalize member members "type" .null = type
      generalize member members "data" .null = data
      cases hupdated : isText type "order_updated" with
      | true => simp [pure, Except.pure, @eq_comm _ message]
      | false =>
        cases hcreated : isText type "order_created" <;>
          simp [pure, Except.pure, @eq_comm _ message]
    | _ => simp [Except.mapError, bind, Except.bind, KISRealtimeClient.get]

theorem isOrderMessage_broadcast {rawData : List Char} {message : Json}
    (h : broadcast? nesting rawData = some message) : isOrderMessage message = true := by
  obtain ⟨members, -, hmessage⟩ := broadcast?_eq_some_iff.mp h
  cases hmessage with
  | inl hupdated =>
    rw [hupdated.2]
    exact isOrderMessage_orderUpdated _
  | inr hcreated =>
    rw [hcreated.2.2]
    exact isOrderMessage_orderCreated _

/-- Only broadcasts are under way. -/
def Server.Faithful (s : Server WebSocket) : Prop :=
  ∀ message connection connections dead,
    s.subscriber = .sending message connection connections dead → isOrderMessage message = true

theorem faithful_broadcast {message : Json} {connections dead : List WebSocket}
    (h : isOrderMessage message = true) : (s.broadcast message dead connections).Faithful := by
  intro message' connection' connections' dead' hsub
  cases connections with
  | nil => cases hsub
  | cons connection connections =>
    obtain ⟨rfl, -⟩ := Subscriber.sending.inj hsub
    exact h

theorem step_faithful (hs : s.Faithful) (h : step nesting s e = some s') : s'.Faithful := by
  cases e with
  | message rawData connections =>
    cases hsub : s.subscriber with
    | listening =>
      cases hb : broadcast? nesting rawData with
      | none =>
        simp only [step, hsub, hb, Option.some.injEq] at h
        exact h ▸ hs
      | some message =>
        simp only [step, hsub, hb, Option.ite_none_right_eq_some, Option.some.injEq] at h
        exact h.2 ▸ faithful_broadcast (isOrderMessage_broadcast hb)
    | _ => simp [step, hsub] at h
  | delivered | failed =>
    cases hsub : s.subscriber with
    | sending message connection connections dead =>
      simp only [step, hsub, Option.some.injEq] at h
      exact h ▸ faithful_broadcast (hs _ _ _ _ hsub)
    | _ => simp [step, hsub] at h
  | subscribed | silence | subscriberRaised | subscriberCancelled =>
    cases hsub : s.subscriber <;> simp [step, hsub] at h <;> subst h <;>
      simp_all [Server.Faithful]
  | raised v =>
    simp only [step, Option.ite_none_right_eq_some, Option.some.injEq] at h
    obtain ⟨-, rfl⟩ := h
    exact hs
  | opened v | accepted v | acceptRaised v | sent v | received v _ | timedOut v | cancelled v =>
    cases hv : s.handlers v <;> simp [step, hv] at h <;> subst h <;> exact hs

/-- The order messages of a step are what the group brings. -/
theorem filter_output (hs : s.Faithful) (w : WebSocket) (e : Event WebSocket) :
    (output w s e).filter isOrderMessage = s.group.output w (e.action nesting) := by
  cases e with
  | sent v =>
    have hgroup : s.group.output w (Event.action nesting (.sent v)) = [] := rfl
    rw [hgroup, output]
    split_ifs
    · cases s.handlers w <;> simp [isOrderMessage_connected, isOrderMessage_ping]
    · rfl
  | delivered =>
    cases hsub : s.subscriber with
    | sending message connection connections dead =>
      have hphase : s.group.phase = .sending ⟨message, connection, connections, dead⟩ := by
        simp [Server.group, hsub, Subscriber.phase]
      simp only [output, hsub, Event.action, Group.output, hphase]
      split_ifs
      · simp [hs _ _ _ _ hsub]
      · rfl
    | _ => simp [output, hsub, Event.action, Group.output, Server.group, Subscriber.phase]
  | message rawData connections =>
    cases hb : broadcast? nesting rawData <;> simp [output, Event.action, hb, Group.output]
  | _ => simp [output, Event.action, Group.output]

theorem filter_sentTo (hs : s.Faithful) (h : run nesting s es = some s') :
    (sentTo nesting w s es).filter isOrderMessage =
      s.group.received w (actions nesting es) := by
  induction es generalizing s with
  | nil => rfl
  | cons e es ih =>
    obtain ⟨s₁, hstep, hrun⟩ := run_cons.mp h
    rw [sentTo_cons hstep, List.filter_append, actions, List.map_cons,
      Fanout.received_cons (step_group hstep), filter_output hs, ih (step_faithful hs hstep) hrun,
      actions]

/-! ## One handler for each socket -/

/-- How often the handler will still register its socket, at most. -/
def Handler.joins : Handler → ℕ
  | unopened | accepting => 1
  | _ => 0

theorem setHandler_apply (s : Server WebSocket) (v w : WebSocket) (h : Handler) :
    (s.setHandler v h).handlers w = if w = v then h else s.handlers w := by
  simp [Server.setHandler, Function.update_apply]

theorem step_joins (h : step nesting s e = some s') (w : WebSocket) :
    (e.action nesting).joined?.toList.count w + (s'.handlers w).joins ≤
      (s.handlers w).joins := by
  cases e with
  | accepted v =>
    cases hv : s.handlers v with
    | accepting =>
      simp only [step, hv, Option.some.injEq] at h
      subst h
      have hconnect : (s.connect v).handlers = s.handlers := rfl
      rw [setHandler_apply, hconnect]
      by_cases hw : w = v
      · simp [hw, hv, Event.action, Fanout.Action.joined?, Handler.joins]
      · simp [hw, Ne.symm hw, Event.action, Fanout.Action.joined?]
    | _ => simp [step, hv] at h
  | raised v =>
    simp only [step, Option.ite_none_right_eq_some, Option.some.injEq] at h
    obtain ⟨-, rfl⟩ := h
    have hdisconnect : (s.disconnect v).handlers = s.handlers := rfl
    rw [setHandler_apply, hdisconnect]
    by_cases hw : w = v
    · simp [hw, Event.action, Fanout.Action.joined?, Handler.joins]
    · simp [hw, Event.action, Fanout.Action.joined?]
  | opened v | acceptRaised v | sent v | received v _ | timedOut v | cancelled v =>
    by_cases hw : w = v
    · subst hw
      cases hv : s.handlers w <;> simp [step, hv] at h <;> subst h <;>
        simp [setHandler_apply, hv, Event.action, Fanout.Action.joined?, Handler.joins]
    · cases hv : s.handlers v <;> simp [step, hv] at h <;> subst h <;>
        simp [setHandler_apply, hw, Event.action, Fanout.Action.joined?]
  | message rawData connections =>
    have hhandlers : s'.handlers = s.handlers := by
      cases hsub : s.subscriber <;> simp [step, hsub] at h
      cases hb : broadcast? nesting rawData <;> simp [hb] at h
      · rw [h]
      · rw [← h.2]
        cases connections <;> rfl
    have hnone : (Event.action nesting (.message rawData connections)).joined? = none := by
      cases hb : broadcast? nesting rawData <;> simp [Event.action, hb, Fanout.Action.joined?]
    simp [hnone, hhandlers]
  | delivered | failed =>
    cases hsub : s.subscriber with
    | sending message connection connections dead =>
      simp only [step, hsub, Option.some.injEq] at h
      subst h
      cases connections <;> simp [Server.broadcast, Event.action, Fanout.Action.joined?]
    | _ => simp [step, hsub] at h
  | subscribed | silence | subscriberRaised | subscriberCancelled =>
    cases hsub : s.subscriber <;> simp [step, hsub] at h <;> subst h <;>
      simp [Event.action, Fanout.Action.joined?]

theorem run_joins (h : run nesting s es = some s') (w : WebSocket) :
    ((actions nesting es).filterMap Fanout.Action.joined?).count w + (s'.handlers w).joins ≤
      (s.handlers w).joins := by
  induction es generalizing s with
  | nil =>
    obtain rfl := Option.some.inj h
    simp [actions]
  | cons e es ih =>
    obtain ⟨s₁, hstep, hrun⟩ := run_cons.mp h
    have hfirst := step_joins hstep w
    have hrest := ih hrun
    have hcons : (actions nesting (e :: es)).filterMap Fanout.Action.joined? =
        (e.action nesting).joined?.toList ++
          (actions nesting es).filterMap Fanout.Action.joined? := by
      cases hj : (e.action nesting).joined? <;> simp [actions, hj]
    rw [hcons, List.count_append]
    omega

/-! ## Who is registered -/

/-- A registered socket has a handler that is at work or was cancelled; a handler at work has its
socket registered, unless a broadcast could not reach it. -/
structure Server.Tracked (s : Server WebSocket) (failed : List WebSocket) : Prop where
  registered : ∀ w ∈ s.connections, (s.handlers w).isOpen = true ∨ s.handlers w = .cancelled
  kept : ∀ w, (s.handlers w).isOpen = true → w ∈ s.connections ∨ w ∈ failed
  dead : ∀ w ∈ s.group.dead, w ∈ failed

variable {failed : List WebSocket}

omit [DecidableEq WebSocket] in
theorem Server.Tracked.mono (h : s.Tracked failed) (more : List WebSocket) :
    s.Tracked (failed ++ more) where
  registered := h.registered
  kept := fun w hw => (h.kept w hw).imp id (List.mem_append_left more)
  dead := fun w hw => List.mem_append_left more (h.dead w hw)

theorem tracked_broadcast (h : s.Tracked failed) {message : Json}
    {connections dead : List WebSocket} (hdead : ∀ w ∈ dead, w ∈ failed) :
    (s.broadcast message dead connections).Tracked failed := by
  cases connections with
  | nil =>
    constructor
    · intro w hw
      exact h.registered w (Finset.mem_sdiff.mp hw).1
    · intro w hw
      by_cases hmem : w ∈ dead
      · exact .inr (hdead w hmem)
      · refine (h.kept w hw).imp (fun hin => ?_) id
        exact Finset.mem_sdiff.mpr ⟨hin, by simpa using hmem⟩
    · intro w hw
      simp [Server.broadcast, Server.group, Subscriber.phase, Group.dead] at hw
  | cons connection connections => exact ⟨h.registered, h.kept, hdead⟩

/-- A step of one handler that registers nothing. -/
theorem tracked_setHandler {v : WebSocket} {next : Handler} (h : s.Tracked failed)
    (hregistered : v ∈ s.connections → next.isOpen = true ∨ next = .cancelled)
    (hkept : next.isOpen = true → v ∈ s.connections ∨ v ∈ failed) :
    (s.setHandler v next).Tracked failed := by
  constructor
  · intro w hw
    rw [setHandler_apply]
    by_cases hv : w = v
    · rw [if_pos hv]
      exact hregistered (hv ▸ hw)
    · rw [if_neg hv]
      exact h.registered w hw
  · intro w hw
    rw [setHandler_apply] at hw
    by_cases hv : w = v
    · rw [if_pos hv] at hw
      exact hv ▸ hkept hw
    · rw [if_neg hv] at hw
      exact h.kept w hw
  · exact h.dead

omit [DecidableEq WebSocket] in
/-- A subscriber that is not in a broadcast. -/
theorem tracked_idle {subscriber : Subscriber WebSocket} (h : s.Tracked failed)
    (hidle : ∀ message connection connections dead,
      subscriber ≠ .sending message connection connections dead) :
    { s with subscriber := subscriber }.Tracked failed where
  registered := h.registered
  kept := h.kept
  dead := by
    intro w hw
    cases subscriber with
    | sending message connection connections dead => exact absurd rfl (hidle _ _ _ _)
    | _ => simp [Server.group, Subscriber.phase, Group.dead] at hw

theorem step_tracked_handler {v : WebSocket} (h : s.Tracked failed)
    (hstep : step nesting s e = some s')
    (he : e ∈ [.opened v, .acceptRaised v, .sent v, .timedOut v, .cancelled v]) :
    s'.Tracked failed := by
  simp only [List.mem_cons, List.not_mem_nil, or_false] at he
  have hkept := h.kept v
  have hnot : v ∈ s.connections → (s.handlers v).isOpen = true ∨ s.handlers v = .cancelled :=
    h.registered v
  obtain rfl | rfl | rfl | rfl | rfl := he <;>
    cases hv : s.handlers v <;> simp [step, hv] at hstep <;> subst hstep <;>
    (refine tracked_setHandler h ?_ ?_ <;> simp_all [Handler.isOpen])

theorem step_tracked (h : s.Tracked failed) (hstep : step nesting s e = some s') :
    s'.Tracked (failed ++ (failure? s e).toList) := by
  cases e with
  | opened v => exact (step_tracked_handler (v := v) h hstep (by simp)).mono _
  | acceptRaised v => exact (step_tracked_handler (v := v) h hstep (by simp)).mono _
  | sent v => exact (step_tracked_handler (v := v) h hstep (by simp)).mono _
  | timedOut v => exact (step_tracked_handler (v := v) h hstep (by simp)).mono _
  | cancelled v => exact (step_tracked_handler (v := v) h hstep (by simp)).mono _
  | received v message =>
    cases hv : s.handlers v with
    | receiving =>
      simp only [step, hv, Option.some.injEq] at hstep
      exact hstep ▸ h.mono _
    | _ => simp [step, hv] at hstep
  | accepted v =>
    apply Server.Tracked.mono
    cases hv : s.handlers v with
    | accepting =>
      simp only [step, hv, Option.some.injEq] at hstep
      subst hstep
      constructor
      · intro w hw
        rw [setHandler_apply]
        by_cases hne : w = v
        · simp [hne, Handler.isOpen]
        · rw [if_neg hne]
          exact h.registered w ((Finset.mem_insert.mp hw).resolve_left hne)
      · intro w hw
        rw [setHandler_apply] at hw
        by_cases hne : w = v
        · exact .inl (Finset.mem_insert.mpr (.inl hne))
        · rw [if_neg hne] at hw
          exact (h.kept w hw).imp (Finset.mem_insert_of_mem) id
      · exact h.dead
    | _ => simp [step, hv] at hstep
  | raised v =>
    apply Server.Tracked.mono
    simp only [step, Option.ite_none_right_eq_some, Option.some.injEq] at hstep
    obtain ⟨-, rfl⟩ := hstep
    constructor
    · intro w hw
      have hmem := Finset.mem_erase.mp hw
      rw [setHandler_apply, if_neg hmem.1]
      exact h.registered w hmem.2
    · intro w hw
      rw [setHandler_apply] at hw
      by_cases hne : w = v
      · simp [hne, Handler.isOpen] at hw
      · rw [if_neg hne] at hw
        exact (h.kept w hw).imp (fun hin => Finset.mem_erase.mpr ⟨hne, hin⟩) id
    · exact h.dead
  | message rawData connections =>
    apply Server.Tracked.mono
    cases hsub : s.subscriber with
    | listening =>
      cases hb : broadcast? nesting rawData with
      | none =>
        simp only [step, hsub, hb, Option.some.injEq] at hstep
        exact hstep ▸ h
      | some message =>
        simp only [step, hsub, hb, Option.ite_none_right_eq_some, Option.some.injEq] at hstep
        exact hstep.2 ▸ tracked_broadcast h (by simp)
    | _ => simp [step, hsub] at hstep
  | delivered =>
    apply Server.Tracked.mono
    cases hsub : s.subscriber with
    | sending message connection connections dead =>
      simp only [step, hsub, Option.some.injEq] at hstep
      refine hstep ▸ tracked_broadcast h fun w hw => h.dead w ?_
      simpa [Server.group, hsub, Subscriber.phase, Group.dead] using hw
    | _ => simp [step, hsub] at hstep
  | failed =>
    cases hsub : s.subscriber with
    | sending message connection connections dead =>
      simp only [step, hsub, Option.some.injEq] at hstep
      subst hstep
      refine tracked_broadcast (h.mono _) fun w hw => ?_
      cases List.mem_append.mp hw with
      | inl hin =>
        refine List.mem_append_left _ (h.dead w ?_)
        simpa [Server.group, hsub, Subscriber.phase, Group.dead] using hin
      | inr hnew => simpa [failure?, hsub] using Or.inr (List.mem_singleton.mp hnew)
    | _ => simp [step, hsub] at hstep
  | subscribed | silence | subscriberRaised | subscriberCancelled =>
    apply Server.Tracked.mono
    cases hsub : s.subscriber <;> simp [step, hsub] at hstep <;> subst hstep <;>
      first | exact h | exact tracked_idle h (by simp)

theorem failures_cons (h : step nesting s e = some s') :
    failures nesting s (e :: es) = (failure? s e).toList ++ failures nesting s' es := by
  simp [failures, h]

theorem run_tracked (h : s.Tracked failed) (hrun : run nesting s es = some s') :
    s'.Tracked (failed ++ failures nesting s es) := by
  induction es generalizing s failed with
  | nil =>
    obtain rfl := Option.some.inj hrun
    simpa [failures] using h
  | cons e es ih =>
    obtain ⟨s₁, hstep, hrest⟩ := run_cons.mp hrun
    rw [failures_cons hstep, ← List.append_assoc]
    exact ih (step_tracked h hstep) hrest

omit [DecidableEq WebSocket] in
theorem tracked_init : (Server.init : Server WebSocket).Tracked [] where
  registered := by simp [Server.init]
  kept := by simp [Server.init, Handler.isOpen]
  dead := by simp [Server.init, Server.group, Subscriber.phase, Group.dead]

theorem run_init_tracked (h : run nesting .init es = some s) :
    s.Tracked (failures nesting .init es) := run_tracked tracked_init h

/-- In every run: a registered socket has a handler that is at work, or was cancelled; a handler at
work whose socket is not registered has missed a broadcast that could not reach it. -/
theorem registered_or_missed (h : run nesting .init es = some s) (w : WebSocket) :
    (w ∈ s.connections → (s.handlers w).isOpen = true ∨ s.handlers w = .cancelled) ∧
      ((s.handlers w).isOpen = true → w ∉ s.connections → w ∈ failures nesting .init es) := by
  have htracked := run_init_tracked h
  exact ⟨htracked.registered w, fun hopen hnot => (htracked.kept w hopen).resolve_left hnot⟩

/-- A text that creates an order. -/
def createdText : List Char := "\x7b\"type\": \"order_created\"\x7d".toList

/-- The second of two sockets is not reached; its handler is at work and it is not registered. -/
theorem registered_or_missed_second : ∃ s : Server ℕ,
    run 1 .init [.opened 0, .accepted 0, .opened 1, .accepted 1, .sent 1, .subscribed,
      .message createdText [0, 1], .delivered, .failed] = some s ∧
    (s.handlers 1).isOpen = true ∧ 1 ∉ s.connections ∧
    1 ∈ failures 1 .init [.opened 0, .accepted 0, .opened 1, .accepted 1, .sent 1, .subscribed,
      .message createdText [0, 1], .delivered, .failed] := by
  refine ⟨_, rfl, rfl, by decide, ?_⟩
  exact (registered_or_missed rfl 1).2 rfl (by decide)

/-! ## What a client gets -/

omit [DecidableEq WebSocket] in
theorem wellFormed_init : (Server.init : Server WebSocket).group.WellFormed := List.nodup_nil

omit [DecidableEq WebSocket] in
theorem past_init (w : WebSocket) : (Server.init : Server WebSocket).group.Past w :=
  .inr ⟨by simp [Server.init, Server.group], by simp [Server.init, Server.group,
    Subscriber.phase, Group.awaiting]⟩

omit [DecidableEq WebSocket] in
theorem faithful_init : (Server.init : Server WebSocket).Faithful := by
  intro message connection connections dead hsub
  cases hsub

theorem run_faithful (hs : s.Faithful) (h : run nesting s es = some s') : s'.Faithful := by
  induction es generalizing s with
  | nil =>
    obtain rfl := Option.some.inj h
    exact hs
  | cons e es ih =>
    obtain ⟨s₁, hstep, hrest⟩ := run_cons.mp h
    exact ih (step_faithful hs hstep) hrest

/-- A handler that has registered its socket does not do it again. -/
theorem noJoin_of_joins (h : run nesting s es = some s') (hzero : (s.handlers w).joins = 0) :
    Fanout.NoJoin w (actions nesting es) := by
  have hcount := run_joins h w
  have hnone : w ∉ (actions nesting es).filterMap Fanout.Action.joined? :=
    List.count_eq_zero.mp (by omega)
  intro a ha hjoin
  exact hnone (List.mem_filterMap.mpr ⟨a, ha, hjoin⟩)

omit [DecidableEq WebSocket] in
theorem joins_of_mem (h : s.Tracked failed) (hmem : w ∈ s.connections) :
    (s.handlers w).joins = 0 := by
  have hregistered := h.registered w hmem
  cases hw : s.handlers w with
  | unopened | accepting => simp [hw, Handler.isOpen] at hregistered
  | _ => rfl

theorem run_awaiting (h : s.Tracked failed)
    (hsent : ∀ v ∈ s.group.awaiting, (s.handlers v).joins = 0) (hrun : run nesting s es = some s') : ∀ v ∈ s'.group.awaiting, (s'.handlers v).joins = 0 := by
  induction es generalizing s failed with
  | nil =>
    obtain rfl := Option.some.inj hrun
    exact hsent
  | cons e es ih =>
    obtain ⟨s₁, hstep, hrest⟩ := run_cons.mp hrun
    refine ih (step_tracked h hstep) (fun v hv => ?_) hrest
    have hle := step_joins hstep v
    have hzero : (s.handlers v).joins = 0 := by
      cases Fanout.step_awaiting (step_group hstep) v hv with
      | inl hold => exact hsent v hold
      | inr hmem => exact joins_of_mem h hmem
    omega

/-- In every run, the order messages that a client is sent are a stretch of the broadcasts: in
order, without a gap and none twice. -/
theorem sent_in_order (h : run nesting .init es = some s) (w : WebSocket) :
    (sentTo nesting w .init es).filter isOrderMessage <:+: broadcasts nesting es := by
  have hone : ((actions nesting es).filterMap Fanout.Action.joined?).count w ≤ 1 := by
    have hjoins := run_joins h w
    have hinit : ((Server.init : Server WebSocket).handlers w).joins = 1 := rfl
    omega
  rw [filter_sentTo faithful_init h, ← messages_actions]
  exact Fanout.received_infix wellFormed_init (past_init w) hone (run_group h)

/-- A client that comes between two broadcasts and is greeted during the second. -/
theorem sent_in_order_late : ∃ s : Server ℕ,
    run 1 .init [.subscribed, .message createdText [], .opened 0, .accepted 0,
      .message createdText [0], .sent 0, .delivered] = some s ∧
    (sentTo 1 0 .init [.subscribed, .message createdText [], .opened 0, .accepted 0,
      .message createdText [0], .sent 0, .delivered]).filter isOrderMessage <:+:
      broadcasts 1 [Event.subscribed, .message createdText [], .opened 0, .accepted 0,
        .message createdText [0], .sent 0, .delivered] :=
  ⟨_, rfl, sent_in_order rfl 0⟩

/-- From any time at which a client is registered to a later one at which it still is, with no
broadcast under way, the order messages it is sent are the broadcasts. -/
theorem sent_while_registered {s₁ s₂ : Server WebSocket} (h₁ : run nesting .init es = some s₁)
    (hmem₁ : w ∈ s₁.connections) (hsub₁ : s₁.subscriber = .listening)
    (h₂ : run nesting s₁ es' = some s₂) (hmem₂ : w ∈ s₂.connections)
    (hsub₂ : s₂.subscriber = .listening) :
    (sentTo nesting w s₁ es').filter isOrderMessage = broadcasts nesting es' := by
  have hzero := joins_of_mem (run_init_tracked h₁) hmem₁
  have hlive : s₂.group.Live w :=
    ⟨hmem₂, by simp [Server.group, hsub₂, Subscriber.phase, Group.dead],
      by simp [Server.group, hsub₂, Subscriber.phase]⟩
  have hwf := Fanout.run_wellFormed wellFormed_init (run_group h₁)
  have hflow := Fanout.received_of_live hwf (noJoin_of_joins h₂ hzero) (run_group h₂) hlive
  have howed₁ : s₁.group.owed w = [] := by simp [Group.owed, Server.group, hsub₁, Subscriber.phase]
  have howed₂ : s₂.group.owed w = [] := by simp [Group.owed, Server.group, hsub₂, Subscriber.phase]
  rw [howed₁, howed₂, List.nil_append, List.append_nil, messages_actions] at hflow
  rw [filter_sentTo (run_faithful faithful_init h₁) h₂, hflow]

/-- A broadcast that could not reach a client is the last one that is sent to it, whatever its
handler does. -/
theorem nothing_after_failure {s₁ s₂ : Server WebSocket} {message : Json}
    {connections dead : List WebSocket} (h₁ : run nesting .init es = some s₁)
    (hsub : s₁.subscriber = .sending message w connections dead)
    (h₂ : run nesting s₁ (.failed :: es') = some s₂) :
    (sentTo nesting w s₁ (.failed :: es')).filter isOrderMessage = [] := by
  obtain ⟨s, hstep, hrun⟩ := run_cons.mp h₂
  have hphase : s₁.group.phase = .sending ⟨message, w, connections, dead⟩ := by
    simp [Server.group, hsub, Subscriber.phase]
  have hwf := Fanout.run_wellFormed wellFormed_init (run_group h₁)
  have hpast : s.group.Past w := Fanout.step_failed_past hwf hphase (step_group hstep)
  have hzero : (s₁.handlers w).joins = 0 := by
    refine run_awaiting tracked_init ?_ h₁ w ?_
    · simp [Server.init, Server.group, Subscriber.phase, Group.awaiting]
    · simp [Group.awaiting, hphase]
  have hjoins := step_joins hstep w
  have hfaithful := run_faithful faithful_init h₁
  rw [filter_sentTo hfaithful h₂, actions, List.map_cons,
    Fanout.received_cons (step_group hstep), ← actions,
    Fanout.received_of_past hpast (noJoin_of_joins hrun (by omega)) (run_group hrun),
    List.append_nil]
  rfl

/-- The handler of a client that a broadcast could not reach goes on, and its ping reaches it. -/
theorem nothing_after_failure_ping : ∃ s₁ s₂ : Server ℕ,
    run 1 .init [.opened 0, .accepted 0, .sent 0, .subscribed, .message createdText [0]] = some s₁ ∧
    run 1 s₁ [.failed, .timedOut 0, .sent 0, .message createdText []] = some s₂ ∧
    (sentTo 1 0 s₁ [.failed, .timedOut 0, .sent 0, .message createdText []]).filter
      isOrderMessage = [] := by
  refine ⟨_, _, rfl, rfl, ?_⟩
  have h₁ : run 1 (.init : Server ℕ)
      [.opened 0, .accepted 0, .sent 0, .subscribed, .message createdText [0]] = some _ := rfl
  exact nothing_after_failure h₁ rfl rfl

end Autotrading.ConnectionManager
