import Autotrading.RealtimeClient
import Autotrading.RealtimeMessages

/-!
# Subscribing again

After a connection is lost, `start` copies the codes of the set and subscribes them one by one; each
is added to the set when its message is sent. A code that a call of the API has unsubscribed since
the copy was taken is added again.
-/
namespace Autotrading.KISRealtimeClient

open RestoredSet (Update Entry held intended BroughtBack Sourced)

variable {python : Interpreter} {s s' : Session} {e : Event} {events : List Event}

/-! ## What a step does to the subscriptions -/

namespace Session

@[simp] theorem attempt_subscribedCodes (s : Session) (n : ℕ) :
    (s.attempt n).client.subscribedCodes = s.client.subscribedCodes := by
  rw [attempt]
  split <;> rfl

@[simp] theorem attempt_pending (s : Session) (n : ℕ) : (s.attempt n).phase.pending = [] := by
  rw [attempt]
  split <;> rfl

@[simp] theorem leave_subscribedCodes (s : Session) (n : ℕ) :
    (s.leave n).client.subscribedCodes = s.client.subscribedCodes := by
  simp only [leave]
  split_ifs <;> rfl

@[simp] theorem leave_pending (s : Session) (n : ℕ) : (s.leave n).phase.pending = [] := by
  simp only [leave]
  split_ifs <;> rfl

@[simp] theorem resubscribe_subscribedCodes (s : Session) (codes : List String) :
    (s.resubscribe codes).client.subscribedCodes = s.client.subscribedCodes := by
  cases codes with
  | nil =>
    rw [resubscribe]
    split
    · rfl
    · exact leave_subscribedCodes s 0
  | cons code rest =>
    cases h : s.client.subscribe code <;> simp [resubscribe, h]

theorem resubscribe_pending (s : Session) (codes : List String) :
    (s.resubscribe codes).phase.pending ⊆ codes := by
  cases codes with
  | nil =>
    rw [resubscribe]
    split
    · exact List.Subset.refl _
    · rw [leave_pending]
      exact List.Subset.refl _
  | cons code rest =>
    cases h : s.client.subscribe code with
    | ok sending => simp [resubscribe, h, Phase.pending]
    | error e =>
      have hleave : s.resubscribe (code :: rest) = s.leave 0 := by simp [resubscribe, h]
      rw [hleave, leave_pending]
      exact List.nil_subset _

end Session

/-- What one step does: the set changes by what the step completes; `start` takes the codes it
subscribes again from the set. -/
structure Steps (s : Session) (entries : List (Entry String)) (s' : Session) : Prop where
  held : s'.client.subscribedCodes = held s.client.subscribedCodes entries
  pending : ∀ code ∈ s'.phase.pending,
    code ∈ s.phase.pending ∨ code ∈ s'.client.subscribedCodes
  restored : ∀ code, .restore code ∈ entries → code ∈ s.phase.pending

/-- A step that completes nothing and starts no subscribing. -/
theorem Steps.idle (hcodes : s'.client.subscribedCodes = s.client.subscribedCodes)
    (hpending : s'.phase.pending ⊆ s.phase.pending) : Steps s [] s' where
  held := hcodes
  pending := fun code hcode => .inl (hpending hcode)
  restored := by simp

theorem subscribedCodes_complete (route : Route) (client : Client) (code : String) :
    (route.complete client code).subscribedCodes =
      (route.update code).apply client.subscribedCodes := by
  cases route <;> rfl

/-- The copy that `start` subscribes again is the set. -/
theorem steps_opened {ws : ℕ} {codes : List String}
    (h : step python s (.opened ws codes) = some s') : Steps s [] s' := by
  cases hphase : s.phase with
  | opening n =>
    simp only [step, hphase, Option.ite_none_right_eq_some, Option.some.injEq] at h
    obtain ⟨⟨-, hcodes⟩, rfl⟩ := h
    refine ⟨by simp [held], fun code hcode => .inr ?_, by simp⟩
    have hmem := Session.resubscribe_pending _ _ hcode
    simpa [← hcodes] using hmem
  | _ => simp [step, hphase] at h

/-- A message of `start` is sent: a code is subscribed again, or a ping is answered. -/
theorem steps_sent (h : step python s .sent = some s') :
    Steps s (completion s .sent).toList s' := by
  cases hphase : s.phase with
  | resubscribing sending code rest =>
    simp only [step, hphase, Option.some.injEq] at h
    subst h
    have hrest := Session.resubscribe_pending { s with client := s.client.subscribed code } rest
    constructor
    · simp [completion, hphase, held, Entry.apply, Client.subscribed]
    · intro code' hcode
      rw [hphase]
      exact .inl (List.mem_cons_of_mem code (hrest hcode))
    · simp [completion, hphase, Phase.pending]
  | answering message =>
    simp only [step, hphase, Option.some.injEq] at h
    subst h
    have hnone : completion s .sent = none := by simp [completion, hphase]
    rw [hnone]
    exact .idle rfl (by simp [Phase.pending])
  | _ => simp [step, hphase] at h

theorem steps_received {message : Message} (h : step python s (.received message) = some s') :
    Steps s [] s' := by
  cases hphase : s.phase with
  | receiving =>
    simp only [step, hphase] at h
    cases hmessage : onMessage python s.client.ws.isSome message with
    | ok reply =>
      cases reply with
      | none =>
        simp only [hmessage, Option.some.injEq] at h
        subst h
        exact .idle rfl (List.Subset.refl _)
      | some reply =>
        simp only [hmessage, Option.some.injEq] at h
        subst h
        exact .idle rfl (by simp [Phase.pending])
    | error e =>
      simp only [hmessage, Option.some.injEq] at h
      subst h
      exact .idle (by simp) (by simp)
  | _ => simp [step, hphase] at h

/-- Every step changes the codes by what it completes. -/
theorem step_steps (h : step python s e = some s') : Steps s (completion s e).toList s' := by
  cases e with
  | started =>
    cases hphase : s.phase with
    | created =>
      simp only [step, hphase, Option.some.injEq] at h
      subst h
      exact .idle (by simp) (by simp)
    | _ => simp [step, hphase] at h
  | approved approvalKey =>
    cases hphase : s.phase with
    | approving n =>
      simp only [step, hphase, Option.some.injEq] at h
      subst h
      exact .idle rfl (by simp [Phase.pending])
    | _ => simp [step, hphase] at h
  | opened ws codes => exact steps_opened h
  | sent => exact steps_sent h
  | received message => exact steps_received h
  | raised =>
    obtain ⟨n, rfl⟩ : ∃ n, s.leave n = s' := by
      cases hphase : s.phase <;> simp [step, hphase] at h <;> exact ⟨_, h⟩
    exact .idle (by simp) (by simp)
  | awake =>
    cases hphase : s.phase with
    | sleeping n delay =>
      simp only [step, hphase, Option.some.injEq] at h
      subst h
      exact .idle (by simp) (by simp)
    | _ => simp [step, hphase] at h
  | cancelled =>
    have hended : s'.client.subscribedCodes = s.client.subscribedCodes ∧ s'.phase = .ended := by
      cases hphase : s.phase <;> simp [step, hphase] at h <;> simp [← h]
    exact .idle hended.1 (by simp [hended.2, Phase.pending])
  | call route stockCode =>
    simp only [step] at h
    cases hrequest : route.request s.client stockCode with
    | ok sending =>
      simp only [hrequest, Option.some.injEq] at h
      subst h
      exact .idle rfl (List.Subset.refl _)
    | error e =>
      simp only [hrequest, Option.some.injEq] at h
      subst h
      exact .idle rfl (List.Subset.refl _)
  | callSent i =>
    simp only [step, Option.map_eq_some_iff] at h
    obtain ⟨call, hcall, rfl⟩ := h
    constructor
    · simp [completion, hcall, held, Entry.apply, subscribedCodes_complete]
    · exact fun code hcode => .inl hcode
    · simp [completion, hcall]
  | callRaised i =>
    simp only [step, Option.map_eq_some_iff] at h
    obtain ⟨call, -, rfl⟩ := h
    exact .idle rfl (List.Subset.refl _)
  | disconnect =>
    simp only [step, Option.some.injEq] at h
    subst h
    split
    · exact .idle rfl (List.Subset.refl _)
    · exact .idle rfl (List.Subset.refl _)
  | disconnected =>
    simp only [step, Option.ite_none_right_eq_some, Option.some.injEq] at h
    obtain ⟨-, rfl⟩ := h
    exact .idle rfl (List.Subset.refl _)
  | disconnectRaised =>
    simp only [step, Option.ite_none_right_eq_some, Option.some.injEq] at h
    obtain ⟨-, rfl⟩ := h
    exact .idle rfl (List.Subset.refl _)

/-! ## Runs -/

/-- A run from the codes `codes` has come to `s` with these completions. What `start` has yet to
subscribe again was among the codes, or a call has named it. -/
structure Follows (codes : Finset String) (log : List (Entry String)) (s : Session) : Prop where
  held : s.client.subscribedCodes = held codes log
  sourced : Sourced codes log
  pending : ∀ code ∈ s.phase.pending, code ∈ codes ∨ ∃ e ∈ log, e.Updates code

theorem Follows.step {codes : Finset String} {log : List (Entry String)} (h : Follows codes log s)
    (hstep : step python s e = some s') : Follows codes (log ++ (completion s e).toList) s' := by
  have hsteps := step_steps hstep
  have hheld : s'.client.subscribedCodes =
      RestoredSet.held codes (log ++ (completion s e).toList) := by
    rw [hsteps.held, h.held, RestoredSet.held_append]
  have hsourced : Sourced codes (log ++ (completion s e).toList) := by
    cases hentry : completion s e with
    | none => simpa using h.sourced
    | some entry =>
      refine h.sourced.concat fun code hcode => ?_
      have hpending : code ∈ s.phase.pending := hsteps.restored code (by simp [hentry, hcode])
      exact h.pending code hpending
  refine ⟨hheld, hsourced, fun code hcode => ?_⟩
  rcases hsteps.pending code hcode with hpending | hmem
  · rcases h.pending code hpending with hmem | ⟨entry, hentry, hupdates⟩
    · exact .inl hmem
    · exact .inr ⟨entry, List.mem_append_left _ hentry, hupdates⟩
  · rw [hheld] at hmem
    exact RestoredSet.source_of_mem_held hsourced hmem

theorem Follows.run {codes : Finset String} {log : List (Entry String)} (h : Follows codes log s)
    (hrun : run python s events = some s') :
    Follows codes (log ++ completions python s events) s' := by
  induction events generalizing s log with
  | nil =>
    obtain rfl : s = s' := by simpa [KISRealtimeClient.run] using hrun
    simpa [completions] using h
  | cons e events ih =>
    simp only [KISRealtimeClient.run, Option.bind_eq_some_iff] at hrun
    obtain ⟨next, hstep, hrest⟩ := hrun
    have hnext := ih (h.step hstep) hrest
    simpa [completions, hstep] using hnext

/-- Before `start` subscribes again, a run has come to the codes of the set without a completion. -/
theorem follows_nil (h : s.phase.pending = []) : Follows s.client.subscribedCodes [] s where
  held := rfl
  sourced := RestoredSet.sourced_nil _
  pending := by simp [h]

/-- The codes are what the completed calls make of them, in the order of their completion, exactly
if no code is subscribed again after a call has unsubscribed it and before another call on it is
completed. No code that is subscribed gets lost. -/
theorem subscriptions_iff (python : Interpreter) {s s' : Session} {events : List Event}
    (hstart : s.phase.pending = []) (hrun : run python s events = some s') :
    (s'.client.subscribedCodes =
        intended s.client.subscribedCodes (completions python s events) ↔
      ∀ code, ¬ BroughtBack (completions python s events) code) ∧
      intended s.client.subscribedCodes (completions python s events) ⊆
        s'.client.subscribedCodes := by
  have hfollows := (follows_nil hstart).run hrun
  rw [List.nil_append] at hfollows
  rw [hfollows.held]
  exact ⟨RestoredSet.held_eq_intended_iff hfollows.sourced,
    RestoredSet.intended_subset_held hfollows.sourced⟩

/-- Two codes are subscribed, the connection is lost, and the call that unsubscribes the second
is completed while `start` subscribes the first again. -/
def unsubscribedMeanwhile : List Event :=
  [.started, .approved "key", .opened 1 [], .call .subscribe "005930", .callSent 0,
    .call .subscribe "066570", .callSent 0, .raised, .awake, .approved "key",
    .opened 2 ["005930", "066570"], .call .unsubscribe "066570", .sent, .callSent 0, .sent]

theorem subscriptions_iff_sample :
    ∃ s', run .sample .init unsubscribedMeanwhile = some s' ∧
      (s'.client.subscribedCodes =
          intended ∅ (completions .sample .init unsubscribedMeanwhile) ↔
        ∀ code, ¬ BroughtBack (completions .sample .init unsubscribedMeanwhile) code) ∧
        intended ∅ (completions .sample .init unsubscribedMeanwhile) ⊆
          s'.client.subscribedCodes := by
  have hsome : (run .sample .init unsubscribedMeanwhile).isSome = true := by decide +kernel
  obtain ⟨s', hrun⟩ := Option.isSome_iff_exists.mp hsome
  exact ⟨s', hrun, subscriptions_iff .sample rfl hrun⟩

/-- When all calls are completed and `start` receives, the code that was unsubscribed is back. -/
theorem unsubscribed_returns :
    ((run .sample .init unsubscribedMeanwhile).map fun s =>
        (s.calls.length, s.phase.pending, s.client.subscribedCodes)) =
      some (0, [], {"005930", "066570"}) ∧
      intended ∅ (completions .sample .init unsubscribedMeanwhile) = {"005930"} := by
  decide +kernel

end Autotrading.KISRealtimeClient
