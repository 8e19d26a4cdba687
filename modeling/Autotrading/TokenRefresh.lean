import Autotrading.TokenReturns

/-!
# The calls of a refresh

What a call that is not forced has learnt at each of its calls: it wants the lock, and later
the broker, because a look at the cache found no valid token, and it lets go of the lock
when it has stored a token, when the look under the lock found one, or when something failed.
-/
namespace Autotrading

open Prog

/-- The lock of the token was granted. -/
abbrev granted (n : ℕ) : TokenEntry :=
  (n, ⟨.setNxEx AuthService.tokenLockKey AuthService.lockTtlSeconds, .ok true⟩)

/-- The token that the broker answered. -/
def issuance : TokenEntry → Option TokenResponse
  | (_, ⟨.other .getAccessToken, r⟩) => r.toOption
  | _ => none

def issuances (h : TokenCalls) : List TokenResponse := h.filterMap issuance

theorem issuances_append (h₁ h₂ : TokenCalls) : issuances (h₁ ++ h₂) = issuances h₁ ++ issuances h₂ :=
  List.filterMap_append

theorem clockReads_append (h₁ h₂ : TokenCalls) :
    clockReads (h₁ ++ h₂) = clockReads h₁ ++ clockReads h₂ := List.filterMap_append

theorem looks_append (h₁ h₂ : TokenCalls) : looks (h₁ ++ h₂) = looks h₁ ++ looks h₂ :=
  List.filterMap_append

/-- The calls of a look at the cache neither issue nor store a token, nor take the lock. -/
theorem of_cacheCalls {added : TokenCalls} (hadded : ∀ x ∈ added, isCacheCall x.2.1 = true) :
    issuances added = [] ∧ added.any storesToken = false ∧ acquiredAt added = none := by
  have hplain : ∀ x : TokenEntry, isCacheCall x.2.1 = true →
      issuance x = none ∧ storesToken x = false ∧ acquisition x = none := by
    rintro ⟨n, o, r⟩ ho
    cases o with
    | setNxEx key ttlSeconds => cases ho
    | delete key => cases ho
    | other b =>
      cases b with
      | get => exact ⟨rfl, rfl, rfl⟩
      | delete => exact ⟨rfl, rfl, rfl⟩
      | now => exact ⟨rfl, rfl, rfl⟩
      | set payload ex => cases ho
      | getAccessToken => cases ho
      | sleep seconds => cases ho
  refine ⟨?_, ?_, ?_⟩
  · exact List.filterMap_eq_nil_iff.mpr fun x hx => (hplain x (hadded x hx)).1
  · exact List.any_eq_false.mpr fun x hx => by simp [(hplain x (hadded x hx)).2.1]
  · exact List.findSome?_eq_none_iff.mpr fun x hx => (hplain x (hadded x hx)).2.2

namespace AuthService

/-! ## Looks at the cache -/

/-- The expiry of a payload or of a token, as a time. -/
def expiresAt (s : AuthService) (text : Option String) : Option Instant := text.bind s.strptime

/-- The text gives no valid token. -/
def Missed (s : AuthService) (clock : List Instant) : Option TokenText → Prop
  | none => True
  | some .malformed => True
  | some (.unreadable _) => False
  | some (.object payload) =>
    payload.accessToken = none ∨ s.validateFingerprint payload = false ∨
      s.expiresAt payload.accessTokenTokenExpired = none ∨
      ∃ e, s.expiresAt payload.accessTokenTokenExpired = some e ∧ datetimeMin ≤ threshold e ∧
        ∃ now ∈ clock, threshold e ≤ now

/-- The text gives a valid token, or a look at it fails. -/
def Found (s : AuthService) (clock : List Instant) : Option TokenText → Prop
  | some (.unreadable _) => True
  | some (.object payload) =>
    payload.accessToken.isSome ∧ s.validateFingerprint payload = true ∧
      ∃ e, s.expiresAt payload.accessTokenTokenExpired = some e ∧
        (threshold e < datetimeMin ∨ ∃ now ∈ clock, now < threshold e)
  | _ => False

def LookMissed (s : AuthService) (h : TokenCalls) : Prop :=
  ∃ text ∈ looks h, s.Missed (clockReads h) text

def LookFound (s : AuthService) (h : TokenCalls) : Prop :=
  ∃ text ∈ looks h, s.Found (clockReads h) text

variable {s : AuthService} {h : TokenCalls} {Q : TokenCalls → LockOp TokenOp → Prop}

theorem missed_of_tokenless {clock : List Instant} {text : Option TokenText} (h : Tokenless text) :
    s.Missed clock text := by
  unfold Tokenless at h
  split at h
  · trivial
  · trivial
  · cases h
  · exact .inl h

theorem cacheCalls_append {added clock : TokenCalls} (hadded : ∀ x ∈ added, isCacheCall x.2.1 = true)
    (hclock : ∀ x ∈ clock, x.2.1 = .other .now) : ∀ x ∈ added ++ clock, isCacheCall x.2.1 = true := by
  intro x hx
  rcases List.mem_append.mp hx with hx | hx
  · exact hadded x hx
  · rw [hclock x hx]
    rfl

theorem missed_of_expired {payload : TokenPayload} {added clock : TokenCalls}
    (hexpiry : s.ExpiryOutcome payload clock (.ok true)) :
    s.Missed (clockReads (added ++ clock)) (some (.object payload)) := by
  rcases hexpiry with hnone | ⟨e, he, hmin, now, hnow, hlate⟩
  · exact .inr (.inr (.inl hnone))
  · have hread : now ∈ clockReads (added ++ clock) := by
      rw [clockReads_append]
      exact List.mem_append_right _ hnow
    exact .inr (.inr (.inr ⟨e, he, hmin, now, hread, hlate⟩))

theorem found_of_unexpired {payload : TokenPayload} {added clock : TokenCalls}
    (hexpiry : s.ExpiryOutcome payload clock (.ok false)) :
    ∃ e, s.expiresAt payload.accessTokenTokenExpired = some e ∧
      (threshold e < datetimeMin ∨ ∃ now ∈ clockReads (added ++ clock), now < threshold e) := by
  obtain ⟨m, now, rfl, text, e, htext, hparse, hnow⟩ := hexpiry
  refine ⟨e, by rw [expiresAt, htext, Option.bind_some, hparse], .inr ⟨now, ?_, hnow⟩⟩
  rw [clockReads_append]
  exact List.mem_append_right _ List.mem_cons_self

/-- A look that comes to no token missed it, any other found it or failed. -/
theorem along_validCachedToken_looks (hQ : ∀ h o, isCacheCall o = true → Q h o) :
    Along Q
      (fun h' r => ∃ added, h' = h ++ added ∧ (∀ x ∈ added, isCacheCall x.2.1 = true) ∧
        (r = .ok none → s.LookMissed added) ∧ (r ≠ .ok none → Failed added ∨ s.LookFound added))
      h s.validCachedToken := by
  unfold validCachedToken
  refine (along_getCachedTokenPayload hQ).bind ?_ ?_
  · rintro h₁ found - ⟨added, rfl, hcalls, hfound⟩
    cases found with
    | none =>
      obtain ⟨text, hlooks, htext⟩ := hfound
      rw [along_pure]
      refine ⟨added, rfl, hcalls, ?_, by simp⟩
      intro _
      exact ⟨text, by simp [hlooks], missed_of_tokenless htext⟩
    | some payload =>
      obtain ⟨htoken, n, rfl⟩ := hfound
      have hlook (added : TokenCalls) : some (.object payload) ∈
          looks ([(n, ⟨.other .get, .ok (some (.object payload))⟩)] ++ added) := by
        rw [looks_append]
        exact List.mem_append_left _ List.mem_cons_self
      by_cases hfingerprint : s.validateFingerprint payload = true
      · simp only [hfingerprint, if_true]
        refine (along_isExpiredOrExpiring hQ payload).bind ?_ ?_
        · rintro h₂ expired - ⟨added, rfl, hclock, hexpiry⟩
          rw [along_pure, List.append_assoc]
          refine ⟨_, rfl, cacheCalls_append hcalls hclock, ?_, ?_⟩
          · intro hnone
            cases expired with
            | true => exact ⟨_, hlook added, missed_of_expired hexpiry⟩
            | false =>
              have htaken : payload.accessToken = none := by simpa using hnone
              rw [htaken] at htoken
              cases htoken
          · intro hsome
            cases expired with
            | true => simp at hsome
            | false => exact .inr ⟨_, hlook added, htoken, hfingerprint, found_of_unexpired hexpiry⟩
        · rintro h₂ e - ⟨added, rfl, hclock, hexpiry⟩
          rw [List.append_assoc]
          refine ⟨_, rfl, cacheCalls_append hcalls hclock, by simp, ?_⟩
          intro _
          rcases hexpiry with hfailed | ⟨e, he, hmin⟩
          · exact .inl hfailed.append
          · exact .inr ⟨_, hlook added, htoken, hfingerprint, e, he, .inl hmin⟩
      · simp only [hfingerprint, Bool.false_eq_true, if_false, along_pure]
        refine ⟨_, rfl, hcalls, ?_, by simp⟩
        intro _
        rw [Bool.not_eq_true] at hfingerprint
        have hmissed (clock : List Instant) : s.Missed clock (some (.object payload)) :=
          .inr (.inl hfingerprint)
        exact ⟨_, by simpa using hlook [], hmissed _⟩
  · rintro h₁ e - ⟨added, rfl, hcalls, hfound⟩
    refine ⟨added, rfl, hcalls, by simp, ?_⟩
    intro _
    rcases hfound with hfailed | ⟨e', hlooks⟩
    · exact .inl hfailed
    · have hfound (clock : List Instant) : s.Found clock (some (.unreadable e')) := trivial
      exact .inr ⟨_, by rw [hlooks]; exact List.mem_cons_self, hfound _⟩

/-! ## The section -/

/-- Why a call lets go of the lock. -/
def Released (s : AuthService) (h : TokenCalls) : Prop :=
  Failed h ∨ h.any storesToken = true ∨
    (∃ response ∈ issuances h, s.expiresAt response.accessTokenTokenExpired = none) ∨
    ∃ h₁ n h₂, h = h₁ ++ granted n :: h₂ ∧ s.LookMissed h₁ ∧ s.LookFound h₂

/-- What a call has learnt before each of its calls. -/
def Refreshing (s : AuthService) (h : TokenCalls) : LockOp TokenOp → Prop
  | .setNxEx key ttlSeconds =>
    key = tokenLockKey ∧ ttlSeconds = lockTtlSeconds ∧ acquiredAt h = none ∧ s.LookMissed h
  | .delete _ => s.Released h
  | .other .getAccessToken =>
    issuances h = [] ∧ ∃ h₁ n h₂, h = h₁ ++ granted n :: h₂ ∧ s.LookMissed h₂
  | .other (.set payload ex) =>
    h.any storesToken = false ∧ ∃ response ∈ issuances h, payload = s.payloadOf response ∧
      ∃ e, s.expiresAt response.accessTokenTokenExpired = some e ∧
        ∃ now ∈ clockReads h, ex = max ((e - now).tdiv 1000000) 1
  | .other _ => True

theorem refreshing_of_isCacheCall (s : AuthService) (h : TokenCalls) (o : LockOp TokenOp) (ho : isCacheCall o = true) :
    s.Refreshing h o := by
  unfold isCacheCall at ho
  split at ho
  · trivial
  · trivial
  · trivial
  · cases ho

/-- Storing the token of a response. -/
theorem along_saveTokenPayload_released {response : TokenResponse} (hissued : response ∈ issuances h)
    (hstored : h.any storesToken = false) :
    Along s.Refreshing (fun h' _ => s.Released h') h (s.saveTokenPayload (s.payloadOf response)) := by
  unfold saveTokenPayload
  have hexpiry : (s.payloadOf response).accessTokenTokenExpired.map s.strptime =
      response.accessTokenTokenExpired.map s.strptime := rfl
  rw [hexpiry]
  cases htext : response.accessTokenTokenExpired with
  | none =>
    rw [Option.map_none, along_raise]
    exact .inr (.inr (.inl ⟨response, hissued, by rw [expiresAt, htext, Option.bind_none]⟩))
  | some text =>
    have hbind : s.expiresAt response.accessTokenTokenExpired = s.strptime text := by
      rw [expiresAt, htext, Option.bind_some]
    rw [Option.map_some]
    cases hparse : s.strptime text with
    | none =>
      rw [along_raise]
      exact .inr (.inr (.inl ⟨response, hissued, by rw [hbind, hparse]⟩))
    | some e =>
      refine (along_token trivial).bind ?_ ?_
      · rintro h₁ now - ⟨n, rfl⟩
        refine Along.perform (o := LockOp.other (TokenOp.set (s.payloadOf response) _)) ?_ fun m r => ?_
        · refine ⟨?_, response, ?_, rfl, e, by rw [hbind, hparse], now, ?_, rfl⟩
          · rw [List.any_append, hstored]
            rfl
          · rw [issuances_append]
            exact List.mem_append_left _ hissued
          · rw [clockReads_append]
            exact List.mem_append_right _ List.mem_cons_self
        · cases r with
          | ok _ =>
            right; left
            rw [List.any_append, Bool.or_eq_true]
            exact .inr rfl
          | error e => exact .inl failed_error.append
      · rintro h₁ e - ⟨n, rfl⟩
        exact .inl failed_error.append

/-- The section ends with a reason to let go of the lock. -/
theorem along_refreshUnderLock_released {n : ℕ} (hmissed : s.LookMissed h) (hissued : issuances h = [])
    (hstored : h.any storesToken = false) :
    Along s.Refreshing (fun h' _ => s.Released h') (h ++ [granted n]) (s.refreshUnderLock false) := by
  unfold refreshUnderLock
  have hlook := along_validCachedToken_looks (s := s) (h := h ++ [granted n])
    (refreshing_of_isCacheCall s)
  have hfound (added : TokenCalls) (hadded : Failed added ∨ s.LookFound added) :
      s.Released (h ++ [granted n] ++ added) := by
    rcases hadded with hfailed | hfound
    · exact .inl hfailed.append
    · exact .inr (.inr (.inr ⟨h, n, added, by simp, hmissed, hfound⟩))
  refine Along.bind (p := s.usableCachedToken false) hlook ?_ ?_
  · rintro h₁ cached - ⟨added, rfl, hcalls, hnone, hsome⟩
    cases cached with
    | some token =>
      rw [along_pure]
      exact hfound added (hsome (by simp))
    | none =>
      obtain ⟨hnoissue, hnostore, -⟩ := of_cacheCalls hcalls
      have hfirst : issuances (h ++ [granted n] ++ added) = [] := by
        rw [issuances_append, issuances_append, hissued, hnoissue]
        rfl
      refine (along_token (o := .getAccessToken) ?_).bind ?_ ?_
      · exact ⟨hfirst, h, n, added, by simp, hnone rfl⟩
      · rintro h₂ response - ⟨m, rfl⟩
        refine (along_saveTokenPayload_released ?_ ?_).bind ?_ ?_
        · rw [issuances_append]
          exact List.mem_append_right _ List.mem_cons_self
        · rw [List.any_append, List.any_append, List.any_append, hstored, hnostore]
          rfl
        · intro h₃ _ _ hreleased
          exact (along_pure _).mpr hreleased
        · intro h₃ e _ hreleased
          exact hreleased
      · rintro h₂ e - ⟨m, rfl⟩
        exact .inl failed_error.append
  · rintro h₁ e - ⟨added, rfl, hcalls, hnone, hsome⟩
    exact hfound added (hsome (by simp))

/-! ## The call -/

theorem safe_waitRounds (n : ℕ) : Safe s.Refreshing h (s.waitRounds n) := by
  induction n generalizing h with
  | zero => exact safe_raise _
  | succ n ih =>
    unfold waitRounds
    refine safe_perform_bind trivial fun m _ => ?_
    refine (along_getCachedTokenPayload (refreshing_of_isCacheCall s)).bind_safe ?_
    intro h₁ found _ _
    cases found with
    | none => exact ih
    | some payload =>
      simp only
      split
      · exact safe_pure _
      · refine (along_isExpiredOrExpiring (refreshing_of_isCacheCall s) payload).bind_safe ?_
        intro h₂ expired _ _
        split
        · exact ih
        · exact safe_pure _

/-- A call that is not forced. -/
theorem safe_getValidAccessToken : Safe s.Refreshing [] (s.getValidAccessToken false) := by
  unfold getValidAccessToken
  have hlook := along_validCachedToken_looks (s := s) (h := []) (refreshing_of_isCacheCall s)
  refine Along.bind_safe (p := s.usableCachedToken false) hlook ?_
  rintro h₁ cached - ⟨added, hadded, hcalls, hnone, -⟩
  obtain rfl : h₁ = added := hadded
  obtain ⟨hnoissue, hnostore, hnolock⟩ := of_cacheCalls hcalls
  cases cached with
  | some token => exact safe_pure _
  | none =>
    refine Safe.tryExcept ?_ ?_
    · unfold distributedLock
      have hacquire : Along s.Refreshing
          (fun h' r => r = .ok true → ∃ n, h' = h₁ ++ [granted n]) h₁
          (acquireLock tokenLockKey lockTtlSeconds) := by
        have hwants : s.Refreshing h₁ (.setNxEx tokenLockKey lockTtlSeconds) :=
          ⟨rfl, rfl, hnolock, hnone rfl⟩
        refine .perform hwants ?_
        rintro n r rfl
        exact ⟨n, rfl⟩
      refine hacquire.bind_safe ?_
      intro h₂ acquired _ hgranted
      cases acquired with
      | false => exact safe_raise _
      | true =>
        obtain ⟨n, rfl⟩ := hgranted rfl
        refine (along_refreshUnderLock_released (hnone rfl) hnoissue hnostore).attempt ?_
        intro h₃ r _ hreleased
        refine Safe.bind ?_ fun h₄ _ _ => safe_ofExcept r
        have hrelease : s.Refreshing h₃ (.delete tokenLockKey) := hreleased
        refine Safe.tryExcept (safe_perform hrelease) fun h₄ e _ => ?_
        split
        · exact safe_pure ()
        · exact safe_raise e
    · intro h₂ e _
      split
      · exact safe_waitRounds lockRetryCount
      · exact safe_raise e

end AuthService

end Autotrading
