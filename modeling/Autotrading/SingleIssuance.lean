import Autotrading.TokenRefresh

/-!
# A token is issued once

Calls that are not forced, over Redis and a broker that do not fail. Before a token is stored
every look at the cache reads what was there at first, or nothing, so that nobody lets go of
the lock and one client in time holds it. Afterwards every look under the lock reads the
stored token, until a call that had found unreadable text removes it.
-/
namespace Autotrading

open Machine Prog

abbrev TokenSys : Type := Sys (LockOp TokenOp) (LockAns TokenAns) PyExc (LockWorld TokenStore) Unit

abbrev TokenTask : Type := Task (LockOp TokenOp) (LockAns TokenAns) PyExc Unit

/-- When a lock that was taken at a time expires. -/
def lockDeadline (ttlSeconds acquired : ℕ) : ℕ := acquired + ttlSeconds * 1000000

/-- When the lock that a call took expires. -/
def refreshDeadline (t : TokenTask) : ℕ :=
  lockDeadline AuthService.lockTtlSeconds ((acquiredAt t.history).getD 0)

theorem refreshDeadline_congr {t u : TokenTask} (h : acquiredAt t.history = acquiredAt u.history) :
    refreshDeadline t = refreshDeadline u := by rw [refreshDeadline, refreshDeadline, h]

theorem refreshDeadline_of_some {t : TokenTask} {n : ℕ} (h : acquiredAt t.history = some n) :
    refreshDeadline t = lockDeadline AuthService.lockTtlSeconds n := by
  rw [refreshDeadline, h, Option.getD_some]

/-- Who is let in stored an entry with its deadline under a free key. -/
theorem acquired_deadline {env : LockEnv TokenAns TokenStore} {w : LockWorld TokenStore}
    {key : String} {ttlSeconds : ℕ}
    (h : (LockWorld.handle env (.setNxEx key ttlSeconds) w).1 = .ok true) :
    (LockWorld.handle env (.setNxEx key ttlSeconds) w).2.locks =
      Function.update w.locks key (some (lockDeadline ttlSeconds w.now)) :=
  (LockWorld.acquired_handle env w h).2

/-- The call that an event makes. -/
def nextCall (sys : TokenSys) : Event Unit ℕ → Option (TokenTask × LockOp TokenOp)
  | .step i =>
    match sys.tasks[i]? with
    | some t =>
      match t.prog with
      | .call o _ => some (t, o)
      | _ => none
    | none => none
  | _ => none

def asksBroker : LockOp TokenOp → Bool
  | .other .getAccessToken => true
  | _ => false

def cleansUp : LockOp TokenOp → Bool
  | .other .delete => true
  | _ => false

/-- Who asks the broker does so, and has stored the token, before its lock expires. -/
def RefreshesInTime (sys : TokenSys) (e : Event Unit ℕ) : Prop :=
  (∀ t ∈ sys.tasks, issuances t.history ≠ [] → t.history.any storesToken = false →
    sys.state.now < refreshDeadline t) ∧
  ∀ c ∈ nextCall sys e, asksBroker c.2 = true → sys.state.now < refreshDeadline c.1

/-- Nobody removes unreadable text after a token was stored. -/
def CleansUpFirst (sys : TokenSys) (e : Event Unit ℕ) : Prop :=
  ∀ c ∈ nextCall sys e, cleansUp c.2 = true → ∀ t ∈ sys.tasks, t.history.any storesToken = false

namespace AuthService

/-- A call that is not forced, as a task. -/
def tokenCall (s : AuthService) : TokenProgram Unit := do
  let _ ← s.getValidAccessToken false
  pure ()

/-- Such calls over Redis and a broker that do not fail. -/
def tokenMachine (s : AuthService) (epoch : Instant)
    (broker : ℕ → List TokenResponse → TokenResponse) :
    Machine (LockOp TokenOp) (LockAns TokenAns) PyExc (LockWorld TokenStore) Unit ℕ :=
  lockMachine (tokenEnv epoch broker) fun _ => s.tokenCall

/-- The issued tokens are not within the buffer before their expiry. -/
def TokensLast (s : AuthService) (epoch : Instant) (sys : TokenSys) (_ : Event Unit ℕ) : Prop :=
  ∀ response ∈ sys.state.rest.issued, response.accessToken ≠ "" ∧
    ∃ e ∈ s.expiresAt response.accessTokenTokenExpired, epoch + sys.state.now < threshold e

end AuthService

instance (sys : TokenSys) (e : Event Unit ℕ) : Decidable (RefreshesInTime sys e) :=
  inferInstanceAs (Decidable (_ ∧ _))

instance (sys : TokenSys) (e : Event Unit ℕ) : Decidable (CleansUpFirst sys e) :=
  inferInstanceAs (Decidable (∀ c ∈ nextCall sys e, _))

instance (s : AuthService) (epoch : Instant) (sys : TokenSys) (e : Event Unit ℕ) :
    Decidable (s.TokensLast epoch sys e) :=
  inferInstanceAs (Decidable (∀ response ∈ sys.state.rest.issued, _))

/-! ## Redis and the broker -/

section World
variable {epoch : Instant} {broker : ℕ → List TokenResponse → TokenResponse}
  {w : LockWorld TokenStore} {n : ℕ}

theorem token_handle_now (o : LockOp TokenOp) :
    (LockWorld.handle (tokenEnv epoch broker) o w).2.now = w.now := by
  cases o with
  | setNxEx key ttlSeconds =>
    by_cases hzero : ttlSeconds = 0
    · simp [LockWorld.handle, LockWorld.effect, tokenEnv, hzero]
    · by_cases hheld : w.held key = true
      · simp [LockWorld.handle, LockWorld.effect, tokenEnv, hzero, hheld]
      · simp [LockWorld.handle, LockWorld.effect, tokenEnv, hzero, hheld]
  | delete key => rfl
  | other b => rfl

/-- Taking the lock of the token. -/
theorem token_handle_lock :
    (LockWorld.handle (tokenEnv epoch broker)
        (.setNxEx AuthService.tokenLockKey AuthService.lockTtlSeconds) w).1 =
        .ok (!w.held AuthService.tokenLockKey) ∧
      (LockWorld.handle (tokenEnv epoch broker)
        (.setNxEx AuthService.tokenLockKey AuthService.lockTtlSeconds) w).2.rest = w.rest ∧
      (w.held AuthService.tokenLockKey = true →
        (LockWorld.handle (tokenEnv epoch broker)
          (.setNxEx AuthService.tokenLockKey AuthService.lockTtlSeconds) w).2.locks = w.locks) := by
  by_cases hheld : w.held AuthService.tokenLockKey = true
  · simp [LockWorld.handle, LockWorld.effect, tokenEnv, AuthService.lockTtlSeconds, hheld]
  · simp [LockWorld.handle, LockWorld.effect, tokenEnv, AuthService.lockTtlSeconds, hheld]

/-- What a clock answers. -/
theorem clockRead_handle {o : LockOp TokenOp} {now : Instant}
    (h : now ∈ clockRead (n, ⟨o, (LockWorld.handle (tokenEnv epoch broker) o w).1⟩)) :
    now = epoch + w.now := by
  cases o with
  | setNxEx key ttlSeconds => cases h
  | delete key => cases h
  | other b =>
    cases b with
    | now => exact (Option.some.inj h).symm
    | _ => cases h

/-- What a look answers. -/
theorem lookText_handle {o : LockOp TokenOp} {text : Option TokenText}
    (h : text ∈ lookText (n, ⟨o, (LockWorld.handle (tokenEnv epoch broker) o w).1⟩)) :
    text = w.rest.cached w.now := by
  cases o with
  | setNxEx key ttlSeconds => cases h
  | delete key => cases h
  | other b =>
    cases b with
    | get => exact (Option.some.inj h).symm
    | _ => cases h

theorem issuance_eq_none {o : LockOp TokenOp} (ho : asksBroker o = false)
    (r : Except PyExc (LockAns TokenAns o)) : issuance (n, ⟨o, r⟩) = none := by
  cases o with
  | setNxEx key ttlSeconds => rfl
  | delete key => rfl
  | other b =>
    cases b with
    | getAccessToken => cases ho
    | _ => rfl

/-- What is in the cache later is what was there, or nothing. -/
theorem TokenStore.cached_mono (r : TokenStore) {n m : ℕ} (h : n ≤ m) :
    r.cached m = none ∨ r.cached m = r.cached n := by
  unfold TokenStore.cached
  split
  · exact .inl rfl
  · exact .inr rfl
  · split
    · next hm => exact .inr (by rw [if_pos (by omega)])
    · exact .inl rfl

def storesCall : LockOp TokenOp → Bool
  | .other (.set _ _) => true
  | _ => false

theorem storesToken_eq_false {o : LockOp TokenOp} (ho : storesCall o = false)
    (r : Except PyExc (LockAns TokenAns o)) : storesToken (n, ⟨o, r⟩) = false := by
  cases o with
  | setNxEx key ttlSeconds => rfl
  | delete key => rfl
  | other b =>
    cases b with
    | set payload ex => cases ho
    | _ => rfl

/-- Which calls leave the cache and the broker alone. -/
theorem token_handle_rest {o : LockOp TokenOp} (hset : storesCall o = false)
    (hask : asksBroker o = false) (hclean : cleansUp o = false)
    (hlock : ∀ key ttlSeconds, o = .setNxEx key ttlSeconds →
      key = AuthService.tokenLockKey ∧ ttlSeconds = AuthService.lockTtlSeconds) :
    (LockWorld.handle (tokenEnv epoch broker) o w).2.rest = w.rest := by
  cases o with
  | setNxEx key ttlSeconds =>
    obtain ⟨rfl, rfl⟩ := hlock key ttlSeconds rfl
    exact token_handle_lock.2.1
  | delete key => rfl
  | other b =>
    cases b with
    | get => rfl
    | delete => cases hclean
    | set payload ex => cases hset
    | getAccessToken => cases hask
    | now => rfl
    | sleep seconds => rfl

end World

namespace AuthService
variable {s : AuthService} {epoch : Instant} {broker : ℕ → List TokenResponse → TokenResponse}
  {sys sys' : TokenSys} {ev : Event Unit ℕ}

/-! ## What the calls know -/

/-- Nothing fails, the calls know what they know, and the clock runs forward. -/
structure Honest (s : AuthService) (epoch : Instant) (sys : TokenSys) : Prop where
  kept : Kept (fun _ => s.Refreshing) sys
  answered : Known (fun _ _ x => x.2.2.isOk = true) sys
  clocked : Known (fun w _ (x : TokenEntry) => ∀ now ∈ clockRead x, now ≤ epoch + w.now) sys
  ordered : Recorded (fun _ h (x : TokenEntry) => ∀ now ∈ clockRead x, ∀ before ∈ clockReads h,
    before ≤ now) sys

theorem safe_tokenCall : Safe s.Refreshing [] s.tokenCall :=
  Safe.bind safe_getValidAccessToken fun _ _ _ => safe_pure ()

theorem now_mono (hc : Change (s.tokenMachine epoch broker) sys ev sys') :
    sys.state.now ≤ sys'.state.now := by
  cases hc with
  | idle => rfl
  | launched l state hl => rw [← Option.some.inj hl]
  | stepped i t o k ht hp =>
    have hnow := @token_handle_now epoch broker sys.state o
    exact hnow.ge
  | crashed i t ht => rfl
  | moved elapsed => exact Nat.le_add_right _ _

theorem answered_handle {h : TokenCalls} {o : LockOp TokenOp} {w : LockWorld TokenStore}
    (ho : s.Refreshing h o) : (LockWorld.handle (tokenEnv epoch broker) o w).1.isOk = true := by
  cases o with
  | setNxEx key ttlSeconds =>
    obtain ⟨rfl, rfl, -⟩ := ho
    rw [token_handle_lock.1]
    rfl
  | delete key => rfl
  | other b =>
    cases b with
    | set payload ex =>
      obtain ⟨-, response, -, -, e, -, now, -, hex⟩ := ho
      have hpositive : ¬ex ≤ 0 := by omega
      simp [LockWorld.handle, LockWorld.effect, tokenEnv, TokenStore.effect, hpositive, Except.isOk,
        Except.toBool]
    | _ => rfl

theorem Honest.change (h : s.Honest epoch sys)
    (hc : Change (s.tokenMachine epoch broker) sys ev sys') : s.Honest epoch sys' := by
  have hclocked : Known (fun w _ (x : TokenEntry) => ∀ now ∈ clockRead x, now ≤ epoch + w.now) sys' := by
    refine h.clocked.change hc ?_ ?_
    · intro _ x hx now hnow
      have hlater : (sys.state.now : ℤ) ≤ sys'.state.now := Int.ofNat_le.mpr (now_mono hc)
      exact (hx now hnow).trans (add_le_add_right hlater epoch)
    · intro i t o k _ _ _ now hnow
      have hread := clockRead_handle hnow
      have hsame := @token_handle_now epoch broker sys.state o
      have hgoal : now ≤ epoch + (LockWorld.handle (tokenEnv epoch broker) o sys.state).2.now := by
        rw [hsame, hread]
      exact hgoal
  refine ⟨h.kept.change (fun _ => safe_tokenCall) hc, ?_, hclocked, ?_⟩
  · refine h.answered.change hc (fun _ _ hx => hx) ?_
    intro i t o k _ ht hp
    exact answered_handle (h.kept.obeys.call ht hp)
  · refine h.ordered.change hc ?_
    intro i t o k _ ht hp now hnow before hbefore
    have hread := clockRead_handle hnow
    obtain ⟨x, hx, hclock⟩ := List.mem_filterMap.mp hbefore
    rw [hread]
    exact h.clocked t (List.mem_of_getElem? ht) x hx before hclock

/-- Events that are no call leave the tasks, the keys, the cache and the broker as they were. -/
structure Carried (sys sys' : TokenSys) : Prop where
  now : sys.state.now ≤ sys'.state.now
  rest : sys'.state.rest = sys.state.rest
  locks : sys'.state.locks = sys.state.locks
  length : sys.tasks.length ≤ sys'.tasks.length
  tasks : ∀ (j : ℕ) (t : TokenTask), sys'.tasks[j]? = some t →
    (sys.tasks.length ≤ j ∧ t.history = []) ∨ ∃ u, sys.tasks[j]? = some u ∧ u.history = t.history

theorem carried_of_change (hc : Change (s.tokenMachine epoch broker) sys ev sys')
    (hev : ∀ i, ev ≠ .step i) : Carried sys sys' := by
  cases hc with
  | idle => exact ⟨le_rfl, rfl, rfl, le_rfl, fun j t ht => .inr ⟨t, ht, rfl⟩⟩
  | launched l state hl =>
    obtain rfl : sys.state = state := Option.some.inj hl
    refine ⟨le_rfl, rfl, rfl, by simp, ?_⟩
    intro j t ht
    by_cases hj : j < sys.tasks.length
    · rw [List.getElem?_append_left hj] at ht
      exact .inr ⟨t, ht, rfl⟩
    · rw [List.getElem?_append_right (by omega)] at ht
      rw [List.mem_singleton.mp (List.mem_of_getElem? ht)]
      exact .inl ⟨by omega, rfl⟩
  | stepped i t o k ht hp => exact absurd rfl (hev i)
  | crashed i t ht =>
    refine ⟨le_rfl, rfl, rfl, by simp, ?_⟩
    intro j u hu
    rcases of_getElem?_set hu with ⟨rfl, rfl⟩ | ⟨-, hu⟩
    · exact .inr ⟨t, ht, rfl⟩
    · exact .inr ⟨u, hu, rfl⟩
  | moved elapsed => exact ⟨Nat.le_add_right _ _, rfl, rfl, le_rfl, fun j t ht => .inr ⟨t, ht, rfl⟩⟩

/-! ## Who issued -/

def NoneIssued (sys : TokenSys) : Prop :=
  sys.state.rest.issued = [] ∧ ∀ t ∈ sys.tasks, issuances t.history = []

/-- The broker issued one token, to the task at an index. -/
structure IssuedAt (sys : TokenSys) (i : ℕ) (response : TokenResponse) : Prop where
  issued : sys.state.rest.issued = [response]
  index : i < sys.tasks.length
  tasks : ∀ (j : ℕ) (t : TokenTask), sys.tasks[j]? = some t →
    issuances t.history = if j = i then [response] else []

theorem IssuedAt.carried {i : ℕ} {response : TokenResponse} (h : IssuedAt sys i response)
    (hc : Carried sys sys') : IssuedAt sys' i response := by
  have hlength := hc.length
  have hindex := h.index
  refine ⟨by rw [hc.rest, h.issued], by omega, ?_⟩
  intro j t ht
  rcases hc.tasks j t ht with ⟨hj, hnil⟩ | ⟨u, hu, hsame⟩
  · rw [hnil, if_neg (by omega)]
    rfl
  · rw [← hsame]
    exact h.tasks j u hu

theorem NoneIssued.carried (h : NoneIssued sys) (hc : Carried sys sys') : NoneIssued sys' := by
  refine ⟨by rw [hc.rest, h.1], ?_⟩
  intro t ht
  obtain ⟨j, hj⟩ := List.getElem?_of_mem ht
  rcases hc.tasks j t hj with ⟨-, hnil⟩ | ⟨u, hu, hsame⟩
  · rw [hnil]
    rfl
  · rw [← hsame]
    exact h.2 u (List.mem_of_getElem? hu)

theorem mem_issuances {i : ℕ} {response r : TokenResponse} (h : IssuedAt sys i response) {t : TokenTask}
    {j : ℕ} (ht : sys.tasks[j]? = some t) (hr : r ∈ issuances t.history) : j = i ∧ r = response := by
  rw [h.tasks j t ht] at hr
  by_cases hj : j = i
  · rw [if_pos hj] at hr
    exact ⟨hj, List.mem_singleton.mp hr⟩
  · rw [if_neg hj] at hr
    cases hr

/-- A call that does not ask the broker. -/
theorem IssuedAt.step {i j : ℕ} {response : TokenResponse} (h : IssuedAt sys i response)
    {t : TokenTask} {o : LockOp TokenOp} {k : Except PyExc (LockAns TokenAns o) → TokenProgram Unit}
    (ht : sys.tasks[j]? = some t) (ho : asksBroker o = false) {n : ℕ}
    {r : Except PyExc (LockAns TokenAns o)} {w : LockWorld TokenStore}
    (hw : w.rest.issued = sys.state.rest.issued) :
    IssuedAt ⟨w, sys.tasks.set j (t.advance n o r k)⟩ i response := by
  refine ⟨hw.trans h.issued, by rw [List.length_set]; exact h.index, ?_⟩
  intro l u hu
  rcases of_getElem?_set hu with ⟨rfl, rfl⟩ | ⟨-, hu⟩
  · rw [← h.tasks _ t ht]
    simp [Task.advance, issuances, issuance_eq_none ho]
  · exact h.tasks l u hu

theorem NoneIssued.step {j : ℕ} (h : NoneIssued sys) {t : TokenTask} {o : LockOp TokenOp}
    {k : Except PyExc (LockAns TokenAns o) → TokenProgram Unit} (ht : sys.tasks[j]? = some t)
    (ho : asksBroker o = false) {n : ℕ} {r : Except PyExc (LockAns TokenAns o)}
    {w : LockWorld TokenStore} (hw : w.rest.issued = sys.state.rest.issued) :
    NoneIssued ⟨w, sys.tasks.set j (t.advance n o r k)⟩ := by
  refine ⟨hw.trans h.1, ?_⟩
  intro u hu
  rcases List.mem_or_eq_of_mem_set hu with hu | rfl
  · exact h.2 u hu
  · have hnone := h.2 t (List.mem_of_getElem? ht)
    simpa [Task.advance, issuances, issuance_eq_none ho] using hnone

/-! ## Before a token is stored -/

/-- What a look at the cache would read now. -/
def shown (sys : TokenSys) : Option TokenText := sys.state.rest.cached sys.state.now

/-- The lock is that of the one task that took it and is in time. -/
structure LockedInTime (sys : TokenSys) : Prop where
  owned : ∀ t ∈ sys.tasks, (acquiredAt t.history).isSome → sys.state.now < refreshDeadline t →
    sys.state.locks tokenLockKey = some (refreshDeadline t)
  alone : ∀ (i j : ℕ) (t u : TokenTask), sys.tasks[i]? = some t → sys.tasks[j]? = some u →
    (acquiredAt t.history).isSome → (acquiredAt u.history).isSome →
    sys.state.now < refreshDeadline t → sys.state.now < refreshDeadline u → i = j

/-- No token has been stored: the cache shows what it showed at first, or nothing. -/
structure Unstored (first : Option TokenText) (sys : TokenSys) : Prop where
  unstored : ∀ t ∈ sys.tasks, t.history.any storesToken = false
  shown : shown sys = none ∨ shown sys = first
  gone : ∀ t ∈ sys.tasks, none ∈ looks t.history → AuthService.shown sys = none
  read : Recorded (fun _ h (x : TokenEntry) => ∀ text ∈ lookText x,
    (text = none ∨ text = first) ∧ (none ∈ looks h → text = none)) sys
  locked : LockedInTime sys
  issued : NoneIssued sys ∨ ∃ i response, IssuedAt sys i response

/-- No text is both: what a clock has passed it does not come back to. -/
theorem not_found_of_missed {before after : List Instant} {text : Option TokenText}
    (hclock : ∀ a ∈ before, ∀ b ∈ after, a ≤ b) (hmissed : s.Missed before text) :
    ¬s.Found after text := by
  intro hfound
  cases text with
  | none => cases hfound
  | some text =>
    cases text with
    | malformed => cases hfound
    | unreadable e => cases hmissed
    | object payload =>
      obtain ⟨htoken, hvalid, e, he, hlast⟩ := hfound
      rcases hmissed with hnone | hinvalid | hnone | ⟨e', he', hmin, a, ha, hpassed⟩
      · rw [hnone] at htoken
        cases htoken
      · rw [hinvalid] at hvalid
        cases hvalid
      · rw [hnone] at he
        cases he
      · obtain rfl : e = e' := Option.some.inj (he.symm.trans he')
        rcases hlast with hover | ⟨b, hb, hearly⟩
        · exact absurd hmin (not_le.mpr hover)
        · exact absurd (hpassed.trans (hclock a ha b hb)) (not_le.mpr hearly)

theorem exists_split {α β : Type} {f : α → Option β} {xs : List α} {b : β}
    (h : b ∈ xs.filterMap f) : ∃ before x after, xs = before ++ x :: after ∧ b ∈ f x := by
  obtain ⟨x, hx, hb⟩ := List.mem_filterMap.mp h
  obtain ⟨before, after, hsplit⟩ := List.append_of_mem hx
  exact ⟨before, x, after, hsplit, hb⟩

/-- Before a token is stored nobody lets go of the lock. -/
theorem Unstored.not_released {first : Option TokenText} (h : Unstored first sys)
    (hh : s.Honest epoch sys) (hlast : s.TokensLast epoch sys ev) {t : TokenTask}
    (ht : t ∈ sys.tasks) : ¬s.Released t.history := by
  rintro (⟨x, hx, hfailed⟩ | hstored | ⟨response, hresponse, hnone⟩ | ⟨h₁, n, h₂, hsplit, hmissed, hfound⟩)
  · rw [hh.answered t ht x hx] at hfailed
    cases hfailed
  · rw [h.unstored t ht] at hstored
    cases hstored
  · rcases h.issued with hnever | ⟨i, r, hissued⟩
    · rw [hnever.2 t ht] at hresponse
      cases hresponse
    · obtain ⟨j, hj⟩ := List.getElem?_of_mem ht
      obtain ⟨-, rfl⟩ := mem_issuances hissued hj hresponse
      obtain ⟨-, e, he, -⟩ := hlast response (by simp [hissued.issued])
      rw [hnone] at he
      cases he
  · obtain ⟨text₁, hlook₁, hmissed⟩ := hmissed
    obtain ⟨text₂, hlook₂, hfound⟩ := hfound
    -- the look under the lock read what the look before it read
    have hread₁ : text₁ = none ∨ text₁ = first := by
      obtain ⟨before, x, after, rfl, hx⟩ := exists_split hlook₁
      exact (h.read t ht before x (after ++ granted n :: h₂) (by simp [hsplit]) text₁ hx).1
    have hread₂ : (text₂ = none ∨ text₂ = first) ∧ (none ∈ looks h₁ → text₂ = none) := by
      obtain ⟨before, x, after, rfl, hx⟩ := exists_split hlook₂
      obtain ⟨hread, hsticky⟩ :=
        h.read t ht (h₁ ++ granted n :: before) x after (by simp [hsplit]) text₂ hx
      refine ⟨hread, fun hnone => hsticky ?_⟩
      rw [looks_append]
      exact List.mem_append_left _ hnone
    have hsome : text₂ ≠ none := by
      intro hnone
      rw [hnone] at hfound
      cases hfound
    have hfirst₂ : text₂ = first := hread₂.1.resolve_left hsome
    have hfirst₁ : text₁ = first := by
      refine hread₁.resolve_left fun hnone => hsome (hread₂.2 ?_)
      rwa [← hnone]
    rw [hfirst₁] at hmissed
    rw [hfirst₂] at hfound
    refine not_found_of_missed ?_ hmissed hfound
    intro a ha b hb
    obtain ⟨before, x, after, rfl, hx⟩ := exists_split hb
    refine hh.ordered t ht (h₁ ++ granted n :: before) x after (by simp [hsplit]) b hx a ?_
    rw [clockReads_append]
    exact List.mem_append_left _ ha

theorem acquired_of_split {h h₁ h₂ : TokenCalls} {n : ℕ} (hh : h = h₁ ++ granted n :: h₂) :
    (acquiredAt h).isSome := by
  have hlater : (acquiredAt (granted n :: h₂)).isSome := rfl
  rw [hh, acquiredAt, List.findSome?_append]
  cases h₁.findSome? acquisition with
  | none => exact hlater
  | some m => rfl

/-- Who got a token took the lock before. -/
theorem Honest.acquired (h : s.Honest epoch sys) {t : TokenTask} (ht : t ∈ sys.tasks)
    {response : TokenResponse} (hr : response ∈ issuances t.history) :
    (acquiredAt t.history).isSome := by
  obtain ⟨before, x, after, hsplit, hx⟩ := exists_split hr
  obtain ⟨n, o, r⟩ := x
  have hasks : asksBroker o = true := by
    by_contra hother
    rw [Bool.not_eq_true] at hother
    rw [issuance_eq_none hother r] at hx
    cases hx
  have hcall : s.Refreshing before o := h.kept.recorded t ht before ⟨n, o, r⟩ after hsplit
  have ho : o = .other .getAccessToken := by
    unfold asksBroker at hasks
    split at hasks
    · rfl
    · cases hasks
  rw [ho] at hcall
  obtain ⟨-, h₁, n', h₂, hbefore, -⟩ := hcall
  have hgranted : t.history = h₁ ++ granted n' :: (h₂ ++ (n, ⟨o, r⟩) :: after) := by
    rw [hsplit, hbefore, List.append_assoc, List.cons_append]
  exact acquired_of_split hgranted

/-- The system after a call. -/
abbrev stepped (epoch : Instant) (broker : ℕ → List TokenResponse → TokenResponse) (sys : TokenSys)
    (i : ℕ) (t : TokenTask) (o : LockOp TokenOp)
    (k : Except PyExc (LockAns TokenAns o) → TokenProgram Unit) : TokenSys :=
  ⟨(LockWorld.handle (tokenEnv epoch broker) o sys.state).2, sys.tasks.set i
    (t.advance sys.state.now o (LockWorld.handle (tokenEnv epoch broker) o sys.state).1 k)⟩

section Step
variable {i : ℕ} {t : TokenTask} {o : LockOp TokenOp}
  {k : Except PyExc (LockAns TokenAns o) → TokenProgram Unit}

/-- A call that takes no lock. -/
theorem LockedInTime.kept (h : LockedInTime sys) (ht : sys.tasks[i]? = some t)
    (hacquired : acquisition ((sys.state.now,
      ⟨o, (LockWorld.handle (tokenEnv epoch broker) o sys.state).1⟩) : TokenEntry) = none)
    (hlocks : (LockWorld.handle (tokenEnv epoch broker) o sys.state).2.locks = sys.state.locks) :
    LockedInTime (stepped epoch broker sys i t o k) := by
  have hnow := @token_handle_now epoch broker sys.state o
  have hbefore (j : ℕ) (u : TokenTask)
      (hu : (stepped epoch broker sys i t o k).tasks[j]? = some u) :
      ∃ v, sys.tasks[j]? = some v ∧ acquiredAt v.history = acquiredAt u.history := by
    rcases of_getElem?_set hu with ⟨rfl, rfl⟩ | ⟨-, hu⟩
    · refine ⟨t, ht, ?_⟩
      rw [Task.advance, acquiredAt, acquiredAt, List.findSome?_append, List.findSome?_singleton,
        hacquired, Option.or_none]
    · exact ⟨u, hu, rfl⟩
  constructor
  · intro u hu hin htime
    obtain ⟨j, hj⟩ := List.getElem?_of_mem hu
    obtain ⟨v, hv, hsame⟩ := hbefore j u hj
    rw [← refreshDeadline_congr hsame] at htime ⊢
    rw [← hsame] at hin
    rw [hnow] at htime
    rw [hlocks]
    exact h.owned v (List.mem_of_getElem? hv) hin htime
  · intro j l u v hu hv hinu hinv htimeu htimev
    obtain ⟨u', hu', hsameu⟩ := hbefore j u hu
    obtain ⟨v', hv', hsamev⟩ := hbefore l v hv
    rw [← refreshDeadline_congr hsameu, hnow] at htimeu
    rw [← refreshDeadline_congr hsamev, hnow] at htimev
    rw [← hsameu] at hinu
    rw [← hsamev] at hinv
    exact h.alone j l u' v' hu' hv' hinu hinv htimeu htimev

theorem held_of_owned {w : LockWorld TokenStore} {key : String} {deadline : ℕ}
    (h : w.locks key = some deadline) (htime : w.now < deadline) : w.held key = true := by
  rw [LockWorld.held, h, Option.any_some, decide_eq_true htime]

/-- The deadline of who has just been let in. -/
theorem granted_deadline {n : ℕ} {k : Except PyExc Bool → TokenProgram Unit}
    (hfirst : acquiredAt t.history = none) :
    refreshDeadline (t.advance n (.setNxEx tokenLockKey lockTtlSeconds) (.ok true) k) =
      lockDeadline lockTtlSeconds n := by
  refine refreshDeadline_of_some ?_
  rw [acquiredAt] at hfirst
  rw [Task.advance, acquiredAt, List.findSome?_append, hfirst, Option.none_or]
  rfl

/-- Who takes the lock finds everybody else late. -/
theorem LockedInTime.grant (h : LockedInTime sys) (ht : sys.tasks[i]? = some t)
    {k : Except PyExc Bool → TokenProgram Unit} (hfirst : acquiredAt t.history = none) :
    LockedInTime (stepped epoch broker sys i t (.setNxEx tokenLockKey lockTtlSeconds) k) := by
  have hnow := @token_handle_now epoch broker sys.state
    (.setNxEx tokenLockKey lockTtlSeconds)
  obtain ⟨hanswer, -, hsame⟩ :=
    @token_handle_lock epoch broker sys.state
  by_cases hheld : sys.state.held tokenLockKey = true
  · refine h.kept ht ?_ (hsame hheld)
    rw [hanswer, hheld]
    rfl
  · rw [Bool.not_eq_true] at hheld
    rw [hheld, Bool.not_false] at hanswer
    have hlate (u : TokenTask) (hu : u ∈ sys.tasks) (hin : (acquiredAt u.history).isSome) :
        ¬sys.state.now < refreshDeadline u := by
      intro htime
      rw [held_of_owned (h.owned u hu hin htime) htime] at hheld
      cases hheld
    have hdeadline := granted_deadline (n := sys.state.now) (k := k) hfirst
    rw [← hanswer] at hdeadline
    have hgranted := acquired_deadline hanswer
    constructor
    · intro u hu hin htime
      rw [hnow] at htime
      rcases List.mem_or_eq_of_mem_set hu with hu | rfl
      · exact absurd htime (hlate u hu hin)
      · rw [hgranted, Function.update_self, hdeadline]
    · intro j l u v hu hv hinu hinv htimeu htimev
      rw [hnow] at htimeu htimev
      rcases of_getElem?_set hu with ⟨hj, -⟩ | ⟨-, hu⟩
      · rcases of_getElem?_set hv with ⟨hl, -⟩ | ⟨-, hv⟩
        · exact hj.symm.trans hl
        · exact absurd htimev (hlate v (List.mem_of_getElem? hv) hinv)
      · exact absurd htimeu (hlate u (List.mem_of_getElem? hu) hinu)

/-- A call but the release. -/
theorem LockedInTime.step (h : LockedInTime sys) (ht : sys.tasks[i]? = some t)
    (ho : s.Refreshing t.history o) (hdelete : ∀ key, o ≠ .delete key) :
    LockedInTime (stepped epoch broker sys i t o k) := by
  cases o with
  | setNxEx key ttlSeconds =>
    obtain ⟨rfl, rfl, hfirst, -⟩ := ho
    exact h.grant ht hfirst
  | delete key => exact absurd rfl (hdelete key)
  | other b => exact h.kept ht rfl rfl

/-- What a call leaves in the cache is what was there, unless it cleans up or stores. -/
theorem cache_step (ho : s.Refreshing t.history o) (hset : storesCall o = false) :
    (LockWorld.handle (tokenEnv epoch broker) o sys.state).2.rest.cache = none ∨
      (LockWorld.handle (tokenEnv epoch broker) o sys.state).2.rest.cache = sys.state.rest.cache := by
  cases o with
  | setNxEx key ttlSeconds =>
    obtain ⟨rfl, rfl, -⟩ := ho
    rw [token_handle_lock.2.1]
    exact .inr rfl
  | delete key => exact .inr rfl
  | other b =>
    cases b with
    | delete => exact .inl rfl
    | set payload ex => cases hset
    | _ => exact .inr rfl

theorem shown_step (ho : s.Refreshing t.history o) (hset : storesCall o = false) :
    shown (stepped epoch broker sys i t o k) = none ∨
      shown (stepped epoch broker sys i t o k) = shown sys := by
  have hnow := @token_handle_now epoch broker sys.state o
  unfold shown TokenStore.cached
  rw [hnow]
  rcases @cache_step s epoch broker sys t o ho hset with hnone | hsame
  · rw [hnone]
    exact .inl rfl
  · rw [hsame]
    exact .inr rfl

/-- The broker is asked by a task that took the lock, and answers it the first token. -/
theorem Unstored.ask {first : Option TokenText} (h : Unstored first sys) (hh : s.Honest epoch sys)
    (htime : RefreshesInTime sys (.step i)) {k : Except PyExc TokenResponse → TokenProgram Unit}
    (ht : sys.tasks[i]? = some t) (hp : t.prog = .call (.other .getAccessToken) k) :
    ∃ response, IssuedAt (stepped epoch broker sys i t (.other .getAccessToken) k) i response := by
  have hmem := List.mem_of_getElem? ht
  have hcall := hh.kept.obeys.call (o := .other .getAccessToken) ht hp
  obtain ⟨hfirst, h₁, n, h₂, hsplit, -⟩ := hcall
  have hintime : sys.state.now < refreshDeadline t := by
    refine htime.2 (t, .other .getAccessToken) ?_ rfl
    simp [nextCall, ht, hp]
  rcases h.issued with ⟨hnone, hnobody⟩ | ⟨j, response, hissued⟩
  · refine ⟨broker sys.state.now sys.state.rest.issued, ?_, ?_, ?_⟩
    · have hrest : (LockWorld.handle (tokenEnv epoch broker) (.other .getAccessToken)
          sys.state).2.rest.issued =
          sys.state.rest.issued ++ [broker sys.state.now sys.state.rest.issued] := rfl
      rw [hrest, hnone, List.nil_append]
    · rw [List.length_set]
      exact (List.getElem?_eq_some_iff.mp ht).1
    · intro l u hu
      rcases of_getElem?_set hu with ⟨rfl, rfl⟩ | ⟨hne, hu⟩
      · rw [if_pos rfl, Task.advance, issuances_append, hfirst, List.nil_append]
        rfl
      · rw [if_neg (Ne.symm hne)]
        exact hnobody u (List.mem_of_getElem? hu)
  · -- the task that got the first token still holds the lock
    exfalso
    obtain ⟨u, hu⟩ : ∃ u, sys.tasks[j]? = some u := ⟨_, List.getElem?_eq_getElem hissued.index⟩
    have humem := List.mem_of_getElem? hu
    have hissuances : issuances u.history = [response] := by
      rw [hissued.tasks j u hu, if_pos rfl]
    have hholds : (acquiredAt u.history).isSome :=
      hh.acquired humem (by rw [hissuances]; exact List.mem_cons_self)
    have huintime : sys.state.now < refreshDeadline u :=
      htime.1 u humem (by simp [hissuances]) (h.unstored u humem)
    have hsame : i = j :=
      h.locked.alone i j t u ht hu (acquired_of_split hsplit) hholds hintime huintime
    subst hsame
    obtain rfl : t = u := Option.some.inj (ht.symm.trans hu)
    rw [hfirst] at hissuances
    cases hissuances

/-- A call that stores nothing. -/
theorem Unstored.step {first : Option TokenText} (h : Unstored first sys) (hh : s.Honest epoch sys)
    (htime : RefreshesInTime sys (.step i)) (hlast : s.TokensLast epoch sys ev)
    (ht : sys.tasks[i]? = some t) (hp : t.prog = .call o k) (hset : storesCall o = false)
    (hc : Change (s.tokenMachine epoch broker) sys (.step i) (stepped epoch broker sys i t o k)) :
    Unstored first (stepped epoch broker sys i t o k) := by
  have hmem := List.mem_of_getElem? ht
  have ho := hh.kept.obeys.call ht hp
  have hshown := @shown_step s epoch broker sys i t o k ho hset
  have hdelete (key : String) : o ≠ .delete key := by
    rintro rfl
    exact h.not_released hh hlast hmem ho
  refine ⟨?_, ?_, ?_, ?_, h.locked.step ht ho hdelete, ?_⟩
  · intro u hu
    rcases List.mem_or_eq_of_mem_set hu with hu | rfl
    · exact h.unstored u hu
    · rw [Task.advance, List.any_append, h.unstored t hmem]
      simp [storesToken_eq_false hset]
  · rcases hshown with hnone | hsame
    · exact .inl hnone
    · rw [hsame]
      exact h.shown
  · intro u hu hlook
    have hgone : AuthService.shown sys = none := by
      rcases List.mem_or_eq_of_mem_set hu with hu | rfl
      · exact h.gone u hu hlook
      · rw [Task.advance, looks_append] at hlook
        rcases List.mem_append.mp hlook with hlook | hlook
        · exact h.gone t hmem hlook
        · obtain ⟨x, hx, hread⟩ := List.mem_filterMap.mp hlook
          rw [List.mem_singleton.mp hx] at hread
          exact (lookText_handle hread).symm
    rcases hshown with hnone | hsame
    · exact hnone
    · rw [hsame, hgone]
  · refine h.read.change hc ?_
    intro j u o' k' _ hu _ text htext
    have hread : text = AuthService.shown sys := lookText_handle htext
    rw [hread]
    exact ⟨h.shown, h.gone u (List.mem_of_getElem? hu)⟩
  · by_cases hasks : asksBroker o = true
    · have hbroker : o = .other .getAccessToken := by
        unfold asksBroker at hasks
        split at hasks
        · rfl
        · cases hasks
      subst hbroker
      exact .inr ⟨i, h.ask hh htime ht hp⟩
    · rw [Bool.not_eq_true] at hasks
      have hissued : (LockWorld.handle (tokenEnv epoch broker) o sys.state).2.rest.issued =
          sys.state.rest.issued := by
        cases o with
        | setNxEx key ttlSeconds =>
          obtain ⟨rfl, rfl, -⟩ := ho
          rw [token_handle_lock.2.1]
        | delete key => rfl
        | other b =>
          cases b with
          | getAccessToken => cases hasks
          | set payload ex => cases hset
          | _ => rfl
      rcases h.issued with hnone | ⟨j, response, hone⟩
      · exact .inl (hnone.step ht hasks hissued)
      · exact .inr ⟨j, response, hone.step ht hasks hissued⟩

/-! ## After a token is stored -/

/-- What a task that has no token has read since it took the lock. -/
def ReadSince (s : AuthService) (response : TokenResponse) (e : Instant) (h : TokenCalls) : Prop :=
  (∀ text ∈ looks h, text = some (.object (s.payloadOf response))) ∧
    ∀ now ∈ clockReads h, now < threshold e

/-- A token has been stored, and whoever may still ask the broker has read nothing else under
the lock. -/
structure Stored (s : AuthService) (epoch : Instant) (sys : TokenSys) (i : ℕ)
    (response : TokenResponse) (e : Instant) (lasts : ℕ) : Prop where
  issued : IssuedAt sys i response
  stored : ∃ t, sys.tasks[i]? = some t ∧ t.history.any storesToken = true
  expiry : s.expiresAt response.accessTokenTokenExpired = some e
  cached : sys.state.rest.cache = some (.object (s.payloadOf response), some lasts)
  lasting : e - 1000000 ≤ epoch + lasts
  settled : ∀ t ∈ sys.tasks, issuances t.history = [] →
    ∀ h₁ n h₂, t.history = h₁ ++ granted n :: h₂ →
      refreshDeadline t ≤ sys.state.now ∨ s.ReadSince response e h₂

end Step

/-- Text that was stored and has not expired is not missed. -/
theorem not_missed_of_readSince {response : TokenResponse} {e : Instant} {h : TokenCalls}
    (hexpiry : s.expiresAt response.accessTokenTokenExpired = some e)
    (htoken : response.accessToken ≠ "") (hread : s.ReadSince response e h) : ¬s.LookMissed h := by
  rintro ⟨text, htext, hmissed⟩
  rw [hread.1 text htext] at hmissed
  rcases hmissed with hnone | hinvalid | hnone | ⟨e', he', -, now, hnow, hlate⟩
  · simp [payloadOf, htoken] at hnone
  · simp [validateFingerprint, payloadOf] at hinvalid
  · have hsame : s.expiresAt response.accessTokenTokenExpired = none := hnone
    rw [hexpiry] at hsame
    cases hsame
  · have hsame : s.expiresAt response.accessTokenTokenExpired = some e' := he'
    obtain rfl : e = e' := Option.some.inj (hexpiry.symm.trans hsame)
    exact absurd (hread.2 now hnow) (not_lt.mpr hlate)

/-- What was stored shows until it expires. -/
theorem Stored.shown {i : ℕ} {response : TokenResponse} {e : Instant} {lasts : ℕ}
    (h : s.Stored epoch sys i response e lasts) (hlast : epoch + sys.state.now < threshold e) :
    shown sys = some (.object (s.payloadOf response)) := by
  have hlasting := h.lasting
  have hlive : sys.state.now < lasts := by
    have hbuffer : threshold e ≤ e - 1000000 := by
      rw [threshold, expiryBufferSeconds]
      linarith
    have hchain : epoch + (sys.state.now : ℤ) < epoch + lasts :=
      hlast.trans_le (hbuffer.trans hlasting)
    exact Int.ofNat_lt.mp (lt_of_add_lt_add_left hchain)
  rw [AuthService.shown, TokenStore.cached, h.cached]
  simp only
  rw [if_pos hlive]

section Step
variable {i : ℕ} {t : TokenTask} {o : LockOp TokenOp}
  {k : Except PyExc (LockAns TokenAns o) → TokenProgram Unit}

/-- What is stored lasts to a second before the expiry of the token. -/
theorem stored_lasts {e now : Instant} {n : ℕ} (hnow : now ≤ epoch + n) :
    e - 1000000 ≤ epoch + ((n + (max ((e - now).tdiv 1000000) 1).toNat * 1000000 : ℕ) : ℤ) := by
  have hseconds (a : ℤ) : a - 1000000 ≤ (max (a.tdiv 1000000) 1).toNat * 1000000 := by
    by_cases ha : 0 ≤ a
    · rw [Int.tdiv_eq_ediv_of_nonneg ha]
      omega
    · omega
  have hleft := hseconds (e - now)
  push_cast at hleft ⊢
  linarith

/-- The call that stores the token. -/
theorem Unstored.store {first : Option TokenText} (h : Unstored first sys) (hh : s.Honest epoch sys)
    (htime : RefreshesInTime sys (.step i)) {payload : TokenPayload} {ex : ℤ}
    {k : Except PyExc Unit → TokenProgram Unit} (ht : sys.tasks[i]? = some t)
    (hp : t.prog = .call (.other (.set payload ex)) k) :
    ∃ response e lasts,
      s.Stored epoch (stepped epoch broker sys i t (.other (.set payload ex)) k) i response e lasts := by
  have hmem := List.mem_of_getElem? ht
  have hcall := hh.kept.obeys.call (o := .other (.set payload ex)) ht hp
  obtain ⟨-, r, hr, rfl, e, hexpiry, now, hnow, hex⟩ := hcall
  have hpositive : ¬ex ≤ 0 := by omega
  have heffect : (LockWorld.handle (tokenEnv epoch broker) (.other (.set (s.payloadOf r) ex))
        sys.state).2.rest = { sys.state.rest with
          cache := some (.object (s.payloadOf r), some (sys.state.now + ex.toNat * 1000000)) } ∧
      (LockWorld.handle (tokenEnv epoch broker) (.other (.set (s.payloadOf r) ex))
        sys.state).1 = .ok () := by
    simp [LockWorld.handle, LockWorld.effect, tokenEnv, TokenStore.effect, hpositive]
  rcases h.issued with ⟨-, hnobody⟩ | ⟨j, response, hissued⟩
  · rw [hnobody t hmem] at hr
    cases hr
  · obtain ⟨rfl, rfl⟩ := mem_issuances hissued ht hr
    have hclock : now ≤ epoch + sys.state.now := by
      obtain ⟨x, hx, hread⟩ := List.mem_filterMap.mp hnow
      exact hh.clocked t hmem x hx now hread
    refine ⟨r, e, sys.state.now + ex.toNat * 1000000, hissued.step ht rfl ?_, ⟨_, List.getElem?_set_self hissued.index, ?_⟩, hexpiry,
      ?_, ?_, ?_⟩
    · rw [heffect.1]
    · rw [Task.advance, List.any_append, heffect.2, Bool.or_eq_true]
      exact .inr rfl
    · rw [heffect.1]
    · rw [hex]
      exact stored_lasts hclock
    · -- nobody else is in time
      intro u hu hnone h₁ n h₂ hsplit
      left
      rw [token_handle_now]
      by_contra hearly
      rcases List.mem_or_eq_of_mem_set hu with hu | rfl
      · obtain ⟨l, hl⟩ := List.getElem?_of_mem hu
        have hintime : sys.state.now < refreshDeadline t :=
          htime.1 t hmem (List.ne_nil_of_mem hr) (h.unstored t hmem)
        have hsame := h.locked.alone i l t u ht hl (hh.acquired hmem hr) (acquired_of_split hsplit)
          hintime (not_le.mp hearly)
        subst hsame
        obtain rfl : t = u := Option.some.inj (ht.symm.trans hl)
        rw [hnone] at hr
        cases hr
      · rw [Task.advance, issuances_append, List.append_eq_nil_iff] at hnone
        rw [hnone.1] at hr
        cases hr

/-- What a task has read since it took the lock, after one more call. -/
theorem Stored.settled_step {response : TokenResponse} {e : Instant} {lasts j : ℕ}
    (h : s.Stored epoch sys j response e lasts) (hlast : epoch + sys.state.now < threshold e)
    (ht : sys.tasks[i]? = some t) (hnone : issuances (t.advance sys.state.now o
      (LockWorld.handle (tokenEnv epoch broker) o sys.state).1 k).history = [])
    {h₁ h₂ : TokenCalls} {n : ℕ}
    (hsplit : (t.advance sys.state.now o
      (LockWorld.handle (tokenEnv epoch broker) o sys.state).1 k).history = h₁ ++ granted n :: h₂) :
    refreshDeadline (t.advance sys.state.now o
        (LockWorld.handle (tokenEnv epoch broker) o sys.state).1 k) ≤ sys.state.now ∨
      s.ReadSince response e h₂ := by
  rw [Task.advance, issuances_append, List.append_eq_nil_iff] at hnone
  rcases List.eq_nil_or_concat h₂ with rfl | ⟨h₃, x, rfl⟩
  · right
    constructor
    · intro text htext
      cases htext
    · intro now hnow
      cases hnow
  · have hconcat : t.history ++ [(sys.state.now,
        ⟨o, (LockWorld.handle (tokenEnv epoch broker) o sys.state).1⟩)] =
        (h₁ ++ granted n :: h₃) ++ [x] := by
      rw [Task.advance] at hsplit
      simpa using hsplit
    obtain ⟨hbefore, hx⟩ := List.append_inj' hconcat rfl
    have hx := (List.cons.inj hx).1
    have hacquired := acquired_of_split hbefore
    rcases h.settled t (List.mem_of_getElem? ht) hnone.1 h₁ n h₃ hbefore with hlate | hread
    · left
      refine le_of_eq_of_le (refreshDeadline_congr ?_) hlate
      exact acquiredAt_append hacquired _
    · right
      rw [List.concat_eq_append]
      constructor
      · intro text htext
        rw [looks_append] at htext
        rcases List.mem_append.mp htext with htext | htext
        · exact hread.1 text htext
        · obtain ⟨y, hy, hlook⟩ := List.mem_filterMap.mp htext
          rw [List.mem_singleton.mp hy, ← hx] at hlook
          have hshown : text = AuthService.shown sys := lookText_handle hlook
          rw [hshown, h.shown hlast]
      · intro now hnow
        rw [clockReads_append] at hnow
        rcases List.mem_append.mp hnow with hnow | hnow
        · exact hread.2 now hnow
        · obtain ⟨y, hy, hclock⟩ := List.mem_filterMap.mp hnow
          rw [List.mem_singleton.mp hy, ← hx] at hclock
          rw [clockRead_handle hclock]
          exact hlast

/-- A call once a token is stored. -/
theorem Stored.step {response : TokenResponse} {e : Instant} {lasts j : ℕ}
    (h : s.Stored epoch sys j response e lasts) (hh : s.Honest epoch sys)
    (htime : RefreshesInTime sys (.step i)) (hlast : s.TokensLast epoch sys (.step i))
    (hclean : CleansUpFirst sys (.step i)) (ht : sys.tasks[i]? = some t)
    (hp : t.prog = .call o k) :
    s.Stored epoch (stepped epoch broker sys i t o k) j response e lasts := by
  have hmem := List.mem_of_getElem? ht
  have ho := hh.kept.obeys.call ht hp
  obtain ⟨saver, hsaver, hsaved⟩ := h.stored
  obtain ⟨htoken, e', he', hearly⟩ := hlast response (by simp [h.issued.issued])
  obtain rfl : e = e' := Option.some.inj (h.expiry.symm.trans he')
  have hcallof : (t, o) ∈ nextCall sys (.step i) := by simp [nextCall, ht, hp]
  have hnostore : storesCall o = false := by
    by_contra hstores
    rw [Bool.not_eq_false] at hstores
    cases o with
    | setNxEx key ttlSeconds => cases hstores
    | delete key => cases hstores
    | other b =>
      cases b with
      | set payload ex =>
        obtain ⟨hunsaved, r, hr, -⟩ := ho
        obtain ⟨rfl, -⟩ := mem_issuances h.issued ht hr
        rw [Option.some.inj (hsaver.symm.trans ht), hunsaved] at hsaved
        cases hsaved
      | _ => cases hstores
  have hnoask : asksBroker o = false := by
    by_contra hasks
    rw [Bool.not_eq_false] at hasks
    have hintime := htime.2 (t, o) hcallof hasks
    cases o with
    | setNxEx key ttlSeconds => cases hasks
    | delete key => cases hasks
    | other b =>
      cases b with
      | getAccessToken =>
        obtain ⟨hnone, h₁, n, h₂, hsplit, hmissed⟩ := ho
        rcases h.settled t hmem hnone h₁ n h₂ hsplit with hlate | hread
        · exact absurd hintime (not_lt.mpr hlate)
        · exact not_missed_of_readSince h.expiry htoken hread hmissed
      | _ => cases hasks
  have hnoclean : cleansUp o = false := by
    by_contra hcleans
    rw [Bool.not_eq_false] at hcleans
    have hnobody := hclean (t, o) hcallof hcleans saver (List.mem_of_getElem? hsaver)
    rw [hsaved] at hnobody
    cases hnobody
  have hrest : (LockWorld.handle (tokenEnv epoch broker) o sys.state).2.rest = sys.state.rest := by
    refine token_handle_rest hnostore hnoask hnoclean ?_
    rintro key ttlSeconds rfl
    exact ⟨ho.1, ho.2.1⟩
  refine ⟨h.issued.step ht hnoask (by rw [hrest]), ?_, h.expiry, by rw [hrest]; exact h.cached,
    h.lasting, ?_⟩
  · by_cases hij : i = j
    · subst hij
      refine ⟨_, List.getElem?_set_self h.issued.index, ?_⟩
      rw [Option.some.inj (hsaver.symm.trans ht)] at hsaved
      rw [Task.advance, List.any_append, hsaved, Bool.true_or]
    · exact ⟨saver, by rw [List.getElem?_set_ne hij]; exact hsaver, hsaved⟩
  · intro u hu hnone h₁ n h₂ hsplit
    rw [token_handle_now]
    rcases List.mem_or_eq_of_mem_set hu with hu | rfl
    · exact h.settled u hu hnone h₁ n h₂ hsplit
    · exact h.settled_step hearly ht hnone hsplit

end Step

/-! ## Runs -/

theorem LockedInTime.carried (h : LockedInTime sys) (hc : Carried sys sys') : LockedInTime sys' := by
  have hnow := hc.now
  have hbefore (j : ℕ) (t : TokenTask) (ht : sys'.tasks[j]? = some t)
      (hin : (acquiredAt t.history).isSome) :
      ∃ u, sys.tasks[j]? = some u ∧ u.history = t.history ∧ refreshDeadline u = refreshDeadline t := by
    rcases hc.tasks j t ht with ⟨-, hnil⟩ | ⟨u, hu, hsame⟩
    · rw [hnil] at hin
      cases hin
    · exact ⟨u, hu, hsame, refreshDeadline_congr (by rw [hsame])⟩
  constructor
  · intro t ht hin htime
    obtain ⟨j, hj⟩ := List.getElem?_of_mem ht
    obtain ⟨u, hu, hsame, hdeadline⟩ := hbefore j t hj hin
    rw [hc.locks, ← hdeadline]
    exact h.owned u (List.mem_of_getElem? hu) (by rw [hsame]; exact hin) (by omega)
  · intro i j t u ht hu hint hinu htimet htimeu
    obtain ⟨t', ht', hsamet, hdeadlinet⟩ := hbefore i t ht hint
    obtain ⟨u', hu', hsameu, hdeadlineu⟩ := hbefore j u hu hinu
    exact h.alone i j t' u' ht' hu' (by rw [hsamet]; exact hint) (by rw [hsameu]; exact hinu)
      (by omega) (by omega)

theorem Unstored.carried {first : Option TokenText} (h : Unstored first sys)
    (hc : Change (s.tokenMachine epoch broker) sys ev sys') (hcarried : Carried sys sys')
    (hev : ∀ i, ev ≠ .step i) : Unstored first sys' := by
  have hshown : AuthService.shown sys' = none ∨ AuthService.shown sys' = AuthService.shown sys := by
    rw [AuthService.shown, AuthService.shown, hcarried.rest]
    exact TokenStore.cached_mono _ hcarried.now
  have hbefore (t : TokenTask) (ht : t ∈ sys'.tasks) :
      t.history = [] ∨ ∃ u ∈ sys.tasks, u.history = t.history := by
    obtain ⟨j, hj⟩ := List.getElem?_of_mem ht
    rcases hcarried.tasks j t hj with ⟨-, hnil⟩ | ⟨u, hu, hsame⟩
    · exact .inl hnil
    · exact .inr ⟨u, List.mem_of_getElem? hu, hsame⟩
  refine ⟨?_, ?_, ?_, ?_, h.locked.carried hcarried, ?_⟩
  · intro t ht
    rcases hbefore t ht with hnil | ⟨u, hu, hsame⟩
    · rw [hnil, List.any_nil]
    · rw [← hsame]
      exact h.unstored u hu
  · rcases hshown with hnone | hsame
    · exact .inl hnone
    · rw [hsame]
      exact h.shown
  · intro t ht hlook
    rcases hbefore t ht with hnil | ⟨u, hu, hsame⟩
    · rw [hnil] at hlook
      cases hlook
    · rw [← hsame] at hlook
      have hgone := h.gone u hu hlook
      rcases hshown with hnone | hkept
      · exact hnone
      · rw [hkept, hgone]
  · refine h.read.change hc ?_
    intro i t o k he
    exact absurd he (hev i)
  · rcases h.issued with hnone | ⟨i, response, hissued⟩
    · exact .inl (hnone.carried hcarried)
    · exact .inr ⟨i, response, hissued.carried hcarried⟩

theorem Stored.carried {i : ℕ} {response : TokenResponse} {e : Instant} {lasts : ℕ}
    (h : s.Stored epoch sys i response e lasts)
    (hc : Change (s.tokenMachine epoch broker) sys ev sys') (hcarried : Carried sys sys') :
    s.Stored epoch sys' i response e lasts := by
  obtain ⟨saver, hsaver, hsaved⟩ := h.stored
  refine ⟨h.issued.carried hcarried, ?_, h.expiry, by rw [hcarried.rest]; exact h.cached, h.lasting, ?_⟩
  · have hindex := (h.issued.carried hcarried).index
    have ht : sys'.tasks[i]? = some sys'.tasks[i] := List.getElem?_eq_getElem hindex
    obtain ⟨added, hadded⟩ := hc.history_at hsaver ht
    exact ⟨sys'.tasks[i], ht, by rw [← hadded, List.any_append, hsaved, Bool.true_or]⟩
  · intro t ht hnone h₁ n h₂ hsplit
    have hnow := hcarried.now
    obtain ⟨j, hj⟩ := List.getElem?_of_mem ht
    rcases hcarried.tasks j t hj with ⟨-, hnil⟩ | ⟨u, hu, hsame⟩
    · rw [hnil] at hsplit
      simp at hsplit
    · rw [← hsame] at hnone hsplit
      rcases h.settled u (List.mem_of_getElem? hu) hnone h₁ n h₂ hsplit with hlate | hread
      · left
        rw [← refreshDeadline_congr (t := u) (by rw [hsame])]
        omega
      · exact .inr hread

/-- The broker is asked at most once. -/
structure IssuedOnce (s : AuthService) (epoch : Instant) (first : Option TokenText) (sys : TokenSys) :
    Prop where
  honest : s.Honest epoch sys
  phase : Unstored first sys ∨ ∃ i response e lasts, s.Stored epoch sys i response e lasts

/-- The conditions of a run. -/
def Allowed (s : AuthService) (epoch : Instant) (sys : TokenSys) (ev : Event Unit ℕ) : Prop :=
  RefreshesInTime sys ev ∧ s.TokensLast epoch sys ev ∧ CleansUpFirst sys ev

theorem IssuedOnce.change {first : Option TokenText} (h : s.IssuedOnce epoch first sys)
    (hev : s.Allowed epoch sys ev) (hc : Change (s.tokenMachine epoch broker) sys ev sys') :
    s.IssuedOnce epoch first sys' := by
  refine ⟨h.honest.change hc, ?_⟩
  obtain ⟨htime, hlast, hclean⟩ := hev
  by_cases hstep : ∀ i, ev ≠ .step i
  · have hcarried := carried_of_change hc hstep
    rcases h.phase with hunstored | ⟨i, response, e, lasts, hstored⟩
    · exact .inl (hunstored.carried hc hcarried hstep)
    · exact .inr ⟨i, response, e, lasts, hstored.carried hc hcarried⟩
  · have hc' := hc
    cases hc' with
    | idle => exact h.phase
    | launched l state hl => exact absurd (fun i => by simp) hstep
    | stepped i t o k ht hp =>
      rcases h.phase with hunstored | ⟨j, response, e, lasts, hstored⟩
      · by_cases hstores : storesCall o = true
        · cases o with
          | setNxEx key ttlSeconds => cases hstores
          | delete key => cases hstores
          | other b =>
            cases b with
            | set payload ex =>
              obtain ⟨response, e, lasts, hstored⟩ := @Unstored.store s epoch broker _ _ _ _ hunstored h.honest htime _ _ _ ht hp
              exact .inr ⟨i, response, e, lasts, hstored⟩
            | _ => cases hstores
        · rw [Bool.not_eq_true] at hstores
          exact .inl (hunstored.step h.honest htime hlast ht hp hstores hc)
      · exact .inr ⟨j, response, e, lasts, hstored.step h.honest htime hlast hclean ht hp⟩
    | crashed i t ht => exact absurd (fun i => by simp) hstep
    | moved elapsed => exact absurd (fun i => by simp) hstep

theorem issuedOnce_start (locks : String → Option ℕ) (now tick : ℕ)
    (cache : Option (TokenText × Option ℕ)) :
    s.IssuedOnce epoch (TokenStore.cached ⟨cache, []⟩ now) (.start ⟨locks, now, tick, ⟨cache, []⟩⟩) where
  honest := ⟨⟨nofun, nofun⟩, nofun, nofun, nofun⟩
  phase := .inl ⟨nofun, .inr rfl, nofun, nofun, ⟨nofun, nofun⟩, .inl ⟨rfl, nofun⟩⟩

/-- However many calls that are not forced run together, from any lock, cache and time: the
broker issues at most one token, when it is issued and stored before the lock expires, is not
within the buffer before its expiry, and no unreadable text is removed after it was stored. -/
theorem getValidAccessToken_issues_once (s : AuthService) (epoch : Instant)
    (broker : ℕ → List TokenResponse → TokenResponse) (locks : String → Option ℕ) (now tick : ℕ)
    (cache : Option (TokenText × Option ℕ)) (es : List (Event Unit ℕ))
    (htime : Meets (s.tokenMachine epoch broker) RefreshesInTime
      (.start ⟨locks, now, tick, ⟨cache, []⟩⟩) es)
    (hlast : Meets (s.tokenMachine epoch broker) (s.TokensLast epoch)
      (.start ⟨locks, now, tick, ⟨cache, []⟩⟩) es)
    (hclean : Meets (s.tokenMachine epoch broker) CleansUpFirst
      (.start ⟨locks, now, tick, ⟨cache, []⟩⟩) es) :
    let sys := (s.tokenMachine epoch broker).run (.start ⟨locks, now, tick, ⟨cache, []⟩⟩) es
    sys.state.rest.issued.length ≤ 1 ∧
      ∀ (i j : ℕ) (t u : TokenTask), sys.tasks[i]? = some t → sys.tasks[j]? = some u →
        issuances t.history ≠ [] → issuances u.history ≠ [] → i = j := by
  intro sys
  have hmeets := htime.and (hlast.and hclean)
  have honce : s.IssuedOnce epoch (TokenStore.cached ⟨cache, []⟩ now) sys :=
    hmeets.invariant (fun _ _ _ h hev hc => h.change hev hc) (issuedOnce_start locks now tick cache)
  have hissued : NoneIssued sys ∨ ∃ i response, IssuedAt sys i response := by
    rcases honce.phase with hunstored | ⟨i, response, e, lasts, hstored⟩
    · exact hunstored.issued
    · exact .inr ⟨i, response, hstored.issued⟩
  rcases hissued with ⟨hnone, hnobody⟩ | ⟨i, response, hone⟩
  · refine ⟨by simp [hnone], ?_⟩
    intro i j t u ht hu hasked _
    exact absurd (hnobody t (List.mem_of_getElem? ht)) hasked
  · refine ⟨by simp [hone.issued], ?_⟩
    intro j l t u ht hu hasked hasked'
    obtain ⟨r, hr⟩ := List.exists_mem_of_ne_nil _ hasked
    obtain ⟨r', hr'⟩ := List.exists_mem_of_ne_nil _ hasked'
    rw [(mem_issuances hone ht hr).1, (mem_issuances hone hu hr').1]

/-- A service and the clock of its host, a day before the tokens of its broker expire. -/
def shared : AuthService where
  appkey := "PSkey"
  appsecret := "secret-1"
  sha256 _ := "9c69388972a9db18db4d6034a36aec856d564d97c7720b6e2dc1d637e8447156"
  strptime text := if text = "2026-07-02 09:00:00" then some 1782950400000000 else none

def sharedEpoch : Instant := 1782864000000000

def sharedBroker (_ : ℕ) (issued : List TokenResponse) : TokenResponse :=
  ⟨if issued.isEmpty then "token-1" else "token-2", some "2026-07-02 09:00:00"⟩

/-- Two calls that find an empty cache: one refreshes, the other waits. -/
def refreshAndWait : List (Event Unit ℕ) :=
  [.launch (), .launch (), .step 0, .step 1, .step 0, .step 1, .ambient 500000, .step 0, .step 0,
    .step 0, .step 0, .step 0, .ambient 1000000, .step 1, .step 1, .step 1]

theorem getValidAccessToken_issues_once_sample :
    let sys := (shared.tokenMachine sharedEpoch sharedBroker).run
      (.start ⟨fun _ => none, 0, 0, ⟨none, []⟩⟩) refreshAndWait
    sys.state.rest.issued.length ≤ 1 ∧
      ∀ (i j : ℕ) (t u : TokenTask), sys.tasks[i]? = some t → sys.tasks[j]? = some u →
        issuances t.history ≠ [] → issuances u.history ≠ [] → i = j :=
  getValidAccessToken_issues_once shared sharedEpoch sharedBroker (fun _ => none) 0 0 none
    refreshAndWait (by decide +kernel) (by decide +kernel) (by decide +kernel)

/-- Two calls that read unreadable text: the second removes what the first has stored meanwhile. -/
def lateCleanup : List (Event Unit ℕ) :=
  [.launch (), .launch (), .step 0, .step 1, .step 0, .step 0, .step 0, .step 0, .step 0, .step 0,
    .step 1, .step 0, .step 1, .step 1, .step 1]

/-- The broker issues twice although every refresh is in time and no token is about to expire. -/
theorem late_cleanup_issues_again :
    let w : LockWorld TokenStore := ⟨fun _ => none, 0, 0, ⟨some (.malformed, none), []⟩⟩
    let m := shared.tokenMachine sharedEpoch sharedBroker
    Meets m RefreshesInTime (.start w) lateCleanup ∧
      Meets m (shared.TokensLast sharedEpoch) (.start w) lateCleanup ∧
      (m.run (.start w) lateCleanup).state.rest.issued.length = 2 := by
  intro w m
  refine ⟨?_, ?_, ?_⟩
  · decide +kernel
  · decide +kernel
  · decide +kernel

end AuthService

end Autotrading
