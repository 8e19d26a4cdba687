import Autotrading.AuthService
import Autotrading.LockExclusion
import Mathlib.Data.List.TakeWhile

/-!
# Tokens returned from the cache

A token comes from the cache when the call has stored none itself. The look that found it
also tested it: its fingerprint, and its expiry against the clock read next. The rounds of
the wait return the token of other credentials without either.
-/
namespace Autotrading

open Prog

abbrev TokenEntry : Type := LockEntry TokenAns

abbrev TokenCalls : Type := LockCalls TokenAns

/-! ## What the calls read -/

/-- What a look at the cache answered. -/
def lookText : TokenEntry → Option (Option TokenText)
  | (_, ⟨.other .get, r⟩) => r.toOption
  | _ => none

def looks (h : TokenCalls) : List (Option TokenText) := h.filterMap lookText

def readText : Option TokenText → Option TokenPayload
  | some (.object payload) => some payload
  | _ => none

/-- The object that a look at the cache read. -/
def cacheRead (x : TokenEntry) : Option TokenPayload := (lookText x).bind readText

/-- What a look at the clock answered. -/
def clockRead : TokenEntry → Option Instant
  | (_, ⟨.other .now, r⟩) => r.toOption
  | _ => none

def clockReads (h : TokenCalls) : List Instant := h.filterMap clockRead

def isLookCall : LockOp TokenOp → Bool
  | .other .get => true
  | _ => false

def isSleepCall : LockOp TokenOp → Bool
  | .other (.sleep _) => true
  | _ => false

/-- A call that a look at the cache may make. -/
def isCacheCall : LockOp TokenOp → Bool
  | .other .get => true
  | .other .delete => true
  | .other .now => true
  | _ => false

/-- A call failed. -/
def Failed (h : TokenCalls) : Prop := ∃ x ∈ h, x.2.2.isOk = false

theorem failed_error {n : ℕ} {o : LockOp TokenOp} {e : PyExc} : Failed [(n, ⟨o, .error e⟩)] :=
  ⟨_, List.mem_cons_self, rfl⟩

theorem Failed.append {h added : TokenCalls} (hfailed : Failed added) : Failed (h ++ added) := by
  obtain ⟨x, hx, hfail⟩ := hfailed
  exact ⟨x, List.mem_append_right _ hx, hfail⟩

def storesToken : TokenEntry → Bool
  | (_, ⟨.other (.set _ _), .ok _⟩) => true
  | _ => false

/-- What the looks read once the call has begun to wait. -/
def waitReads (h : TokenCalls) : List TokenPayload :=
  (h.dropWhile fun x => !isSleepCall x.2.1).filterMap cacheRead

namespace AuthService

/-- A token of other credentials. -/
def Foreign (s : AuthService) (payload : TokenPayload) : Prop :=
  payload.accessToken.isSome ∧ s.validateFingerprint payload = false

/-- A look of the wait read a token of other credentials. -/
def WaitSeesForeign (s : AuthService) (h : TokenCalls) : Prop :=
  ∃ payload ∈ waitReads h, s.Foreign payload

/-- More than the buffer before the expiry of the payload. -/
def Unexpired (s : AuthService) (payload : TokenPayload) (now : Instant) : Prop :=
  ∃ text expiresAt, payload.accessTokenTokenExpired = some text ∧
    s.strptime text = some expiresAt ∧ now < expiresAt - expiryBufferSeconds * 1000000

/-- The payload holds the token, stored under the current credentials and not about to expire. -/
structure Fresh (s : AuthService) (payload : TokenPayload) (now : Instant) (token : String) :
    Prop where
  token : payload.accessToken = some token
  fingerprint : payload.fingerprint = some s.credentialFingerprint
  unexpired : s.Unexpired payload now

/-- The last look at the cache read the token, fresh by the clock read next. -/
def ReadFresh (s : AuthService) (h : TokenCalls) (token : String) : Prop :=
  ∃ before n payload m now after,
    h = before ++ (n, ⟨.other .get, .ok (some (.object payload))⟩) ::
      (m, ⟨.other .now, .ok now⟩) :: after ∧
    (∀ x ∈ after, isLookCall x.2.1 = false) ∧ s.Fresh payload now token

variable {s : AuthService} {h : TokenCalls} {token : String}

theorem cacheRead_eq_none {x : TokenEntry} (hx : isLookCall x.2.1 = false) : cacheRead x = none := by
  obtain ⟨n, o, r⟩ := x
  cases o with
  | setNxEx key ttlSeconds => rfl
  | delete key => rfl
  | other b =>
    cases b with
    | get => cases hx
    | _ => rfl

theorem filterMap_cacheRead_eq_nil {added : TokenCalls}
    (hadded : ∀ x ∈ added, isLookCall x.2.1 = false) : added.filterMap cacheRead = [] := by
  rw [List.filterMap_eq_nil_iff]
  intro x hx
  exact cacheRead_eq_none (hadded x hx)

theorem ReadFresh.append (hread : s.ReadFresh h token) {added : TokenCalls}
    (hadded : ∀ x ∈ added, isLookCall x.2.1 = false) : s.ReadFresh (h ++ added) token := by
  obtain ⟨before, n, payload, m, now, after, rfl, hafter, hfresh⟩ := hread
  refine ⟨before, n, payload, m, now, after ++ added, by simp, ?_, hfresh⟩
  intro x hx
  rcases List.mem_append.mp hx with hx | hx
  · exact hafter x hx
  · exact hadded x hx

theorem readFresh_of {payload : TokenPayload} {n m : ℕ} {now : Instant}
    (htoken : payload.accessToken = some token) (hvalid : s.validateFingerprint payload = true)
    (hnow : s.Unexpired payload now) :
    s.ReadFresh (h ++ [(n, ⟨.other .get, .ok (some (.object payload))⟩)] ++
      [(m, ⟨.other .now, .ok now⟩)]) token := by
  have hcurrent : payload.fingerprint = some s.credentialFingerprint := by
    simpa [validateFingerprint] using hvalid
  exact ⟨h, n, payload, m, now, [], by simp, by simp, htoken, hcurrent, hnow⟩

/-- What was read last was stored under the current credentials. -/
theorem ReadFresh.last (hread : s.ReadFresh h token) :
    ∃ payload, (h.filterMap cacheRead).getLast? = some payload ∧ ¬s.Foreign payload := by
  obtain ⟨before, n, payload, m, now, after, rfl, hafter, hfresh⟩ := hread
  refine ⟨payload, ?_, ?_⟩
  · have hlook : cacheRead (n, ⟨.other .get, .ok (some (.object payload))⟩) = some payload := rfl
    have hclock : cacheRead (m, ⟨.other .now, .ok now⟩) = none := rfl
    rw [List.filterMap_append, List.filterMap_cons_some hlook, List.filterMap_cons_none hclock,
      filterMap_cacheRead_eq_nil hafter]
    simp
  · intro hforeign
    have hother := hforeign.2
    simp [validateFingerprint, hfresh.fingerprint] at hother

/-! ## Waiting -/

/-- The call has not begun to wait. -/
def Unslept (h : TokenCalls) : Prop := ∀ x ∈ h, isSleepCall x.2.1 = false

theorem waitReads_of_unslept (hh : Unslept h) : waitReads h = [] := by
  have hnone : h.dropWhile (fun x => !isSleepCall x.2.1) = [] := by
    rw [List.dropWhile_eq_nil_iff]
    intro x hx
    simp [hh x hx]
  rw [waitReads, hnone, List.filterMap_nil]

theorem waitReads_sleep {x : TokenEntry} (hx : isSleepCall x.2.1 = true) :
    waitReads (h ++ [x]) = waitReads h := by
  have hread : cacheRead x = none := by
    refine cacheRead_eq_none ?_
    unfold isSleepCall at hx
    split at hx
    · next hcall => rw [hcall, isLookCall]; simp
    · cases hx
  unfold waitReads
  rw [List.dropWhile_append]
  split
  · next hempty =>
    rw [List.isEmpty_iff] at hempty
    simp [hx, hread, hempty]
  · simp [hread]

theorem waitReads_append {x : TokenEntry} (hx : isSleepCall x.2.1 = true) (added : TokenCalls) :
    waitReads (h ++ [x] ++ added) = waitReads h ++ added.filterMap cacheRead := by
  rw [← waitReads_sleep (h := h) hx]
  unfold waitReads
  rw [List.dropWhile_append]
  split
  · next hempty =>
    rw [List.isEmpty_iff, List.dropWhile_eq_nil_iff] at hempty
    have hsleep := hempty x (by simp)
    simp [hx] at hsleep
  · rw [List.filterMap_append]

/-! ## The calls -/

/-- The service is not waiting. -/
abbrev Awake (_ : TokenCalls) (o : LockOp TokenOp) : Prop := isSleepCall o = false

/-- The text has no token. -/
def Tokenless : Option TokenText → Prop
  | none => True
  | some .malformed => True
  | some (.unreadable _) => False
  | some (.object payload) => payload.accessToken = none

/-- What the calls of a look answered for what it came to. -/
def LookOutcome (added : TokenCalls) : Except PyExc (Option TokenPayload) → Prop
  | .ok (some payload) =>
    payload.accessToken.isSome ∧ ∃ n, added = [(n, ⟨.other .get, .ok (some (.object payload))⟩)]
  | .ok none => ∃ text, looks added = [text] ∧ Tokenless text
  | .error _ => Failed added ∨ ∃ e, looks added = [some (.unreadable e)]

section Calls
variable {Q : TokenCalls → LockOp TokenOp → Prop}

theorem along_token {o : TokenOp} (ho : Q h (.other o)) :
    Along Q (fun h' r => ∃ n, h' = h ++ [(n, ⟨.other o, r⟩)]) h o.perform :=
  .perform ho fun n _ => ⟨n, rfl⟩

/-- A look at the cache that finds a token made one call; otherwise it read none. -/
theorem along_getCachedTokenPayload (hQ : ∀ h o, isCacheCall o = true → Q h o) :
    Along Q
      (fun h' r => ∃ added, h' = h ++ added ∧ (∀ x ∈ added, isCacheCall x.2.1 = true) ∧
        LookOutcome added r) h getCachedTokenPayload := by
  unfold getCachedTokenPayload
  refine (along_token (hQ h _ rfl)).bind ?_ ?_
  · rintro h₁ text - ⟨n, rfl⟩
    cases text with
    | none =>
      rw [along_pure]
      exact ⟨_, rfl, by simp [isCacheCall], none, rfl, trivial⟩
    | some text =>
      cases text with
      | malformed =>
        refine (along_token (hQ _ _ rfl)).bind ?_ ?_
        · rintro h₂ _ - ⟨m, rfl⟩
          rw [along_pure, List.append_assoc]
          exact ⟨_, rfl, by simp [isCacheCall], some .malformed, rfl, trivial⟩
        · rintro h₂ e - ⟨m, rfl⟩
          rw [List.append_assoc]
          have hfailed : Failed ([(n, ⟨.other .get, .ok (some .malformed)⟩)] ++
              [(m, ⟨.other .delete, .error e⟩)]) := failed_error.append
          exact ⟨_, rfl, by simp [isCacheCall], .inl hfailed⟩
      | unreadable e =>
        rw [along_raise]
        exact ⟨_, rfl, by simp [isCacheCall], .inr ⟨e, rfl⟩⟩
      | object payload =>
        rw [along_pure]
        refine ⟨_, rfl, by simp [isCacheCall], ?_⟩
        by_cases htoken : payload.accessToken.isSome
        · simp only [htoken, if_true]
          exact ⟨htoken, n, rfl⟩
        · simp only [htoken, Bool.false_eq_true, if_false]
          rw [Bool.not_eq_true, Option.isSome_eq_false_iff, Option.isNone_iff_eq_none] at htoken
          have htokenless : Tokenless (some (.object payload)) := htoken
          exact ⟨_, rfl, htokenless⟩
  · rintro h₁ e - ⟨n, rfl⟩
    exact ⟨_, rfl, by simp [isCacheCall], .inl failed_error⟩

theorem tokenless_reads {added : TokenCalls} {text : Option TokenText} (hlooks : looks added = [text])
    (htext : Tokenless text) : ∀ payload ∈ added.filterMap cacheRead, payload.accessToken = none := by
  intro payload hpayload
  have hreads : added.filterMap cacheRead = (looks added).filterMap readText := by
    rw [looks, List.filterMap_filterMap]
    rfl
  rw [hreads, hlooks] at hpayload
  have hread : readText text = some payload := by simpa using hpayload
  unfold readText at hread
  split at hread
  · rw [← Option.some.inj hread]
    exact htext
  · cases hread

/-- What the calls of the test of the expiry answered for what it came to. -/
def ExpiryOutcome (s : AuthService) (payload : TokenPayload) (added : TokenCalls) :
    Except PyExc Bool → Prop
  | .ok false => ∃ m now, added = [(m, ⟨.other .now, .ok now⟩)] ∧ s.Unexpired payload now
  | .ok true => payload.accessTokenTokenExpired.bind s.strptime = none ∨
      ∃ expiresAt, payload.accessTokenTokenExpired.bind s.strptime = some expiresAt ∧
        datetimeMin ≤ threshold expiresAt ∧ ∃ now ∈ clockReads added, threshold expiresAt ≤ now
  | .error _ => Failed added ∨
      ∃ expiresAt, payload.accessTokenTokenExpired.bind s.strptime = some expiresAt ∧
        threshold expiresAt < datetimeMin

/-- The test of the expiry looks at the clock only. -/
theorem along_isExpiredOrExpiring (hQ : ∀ h o, isCacheCall o = true → Q h o)
    (payload : TokenPayload) :
    Along Q
      (fun h' r => ∃ added, h' = h ++ added ∧ (∀ x ∈ added, x.2.1 = .other .now) ∧
        s.ExpiryOutcome payload added r) h (s.isExpiredOrExpiring payload) := by
  unfold isExpiredOrExpiring
  cases htext : payload.accessTokenTokenExpired with
  | none => exact (along_pure true).mpr ⟨[], by simp, by simp, .inl (by simp [htext])⟩
  | some text =>
    rw [Option.map_some]
    cases hparse : s.strptime text with
    | none => exact (along_pure true).mpr ⟨[], by simp, by simp, .inl (by simp [htext, hparse])⟩
    | some expiresAt =>
      have hbind : payload.accessTokenTokenExpired.bind s.strptime = some expiresAt := by
        rw [htext, Option.bind_some, hparse]
      simp only
      split
      · next hmin =>
        rw [raise_bind, along_raise]
        exact ⟨[], by simp, by simp, .inr ⟨expiresAt, hbind, hmin⟩⟩
      · next hmin =>
        refine (along_token (hQ h _ rfl)).bind ?_ ?_
        · rintro h₁ now - ⟨m, rfl⟩
          rw [along_pure]
          refine ⟨_, rfl, by simp, ?_⟩
          by_cases hlate : threshold expiresAt ≤ now
          · rw [decide_eq_true hlate]
            exact .inr ⟨expiresAt, hbind, not_lt.mp hmin, now, by rw [clockReads]; exact List.mem_cons_self, hlate⟩
          · rw [decide_eq_false hlate]
            exact ⟨m, now, rfl, text, expiresAt, htext, hparse, not_le.mp hlate⟩
        · rintro h₁ e - ⟨m, rfl⟩
          exact ⟨_, rfl, by simp, .inl failed_error⟩

end Calls

theorem awake_of_isCacheCall (h : TokenCalls) (o : LockOp TokenOp) (ho : isCacheCall o = true) :
    Awake h o := by
  unfold isCacheCall at ho
  split at ho
  · rfl
  · rfl
  · rfl
  · cases ho

/-- A look that finds a valid token has just read it. -/
theorem along_validCachedToken :
    Along Awake (fun h' r => ∀ token, r = .ok (some token) → s.ReadFresh h' token) h
      s.validCachedToken := by
  unfold validCachedToken
  refine (along_getCachedTokenPayload awake_of_isCacheCall).bind ?_ (by simp)
  rintro h₁ found - ⟨added, rfl, -, hfound⟩
  cases found with
  | none => simp
  | some payload =>
    obtain ⟨htoken, n, rfl⟩ := hfound
    by_cases hfingerprint : s.validateFingerprint payload = true
    · simp only [hfingerprint, if_true]
      refine (along_isExpiredOrExpiring awake_of_isCacheCall payload).bind ?_ (by simp)
      rintro h₂ expired - ⟨added, rfl, -, hfresh⟩
      cases expired with
      | true => simp
      | false =>
        obtain ⟨m, now, rfl, hnow⟩ := hfresh
        rw [along_pure]
        intro token hok
        have htoken : payload.accessToken = some token := by simpa using hok
        exact readFresh_of htoken hfingerprint hnow
    · simp [hfingerprint]

theorem along_usableCachedToken (forceRefresh : Bool) :
    Along Awake (fun h' r => ∀ token, r = .ok (some token) → s.ReadFresh h' token) h
      (s.usableCachedToken forceRefresh) := by
  unfold usableCachedToken
  split
  · simp
  · exact along_validCachedToken

/-- The lock adds its own calls to those of its body. -/
theorem along_distributedLock {key : String} {ttlSeconds : ℕ} {body : TokenProgram String}
    {P : TokenCalls → String → Prop}
    (hrelease : ∀ h x token, x.2.1 = .delete key → P h token → P (h ++ [x]) token)
    (hbody : ∀ h, Along Awake (fun h' r => ∀ token, r = .ok token → P h' token) h body) :
    Along Awake (fun h' r => ∀ token, r = .ok token → P h' token) h
      (distributedLock key ttlSeconds body) := by
  unfold distributedLock
  have hacquire : Safe Awake h (acquireLock key ttlSeconds : TokenProgram Bool) := safe_perform rfl
  refine Along.bind hacquire ?_ (by simp)
  intro h₁ acquired _ _
  cases acquired with
  | false => simp
  | true =>
    refine (hbody h₁).attempt ?_
    intro h₂ r _ hr
    have hkept : Along Awake (fun h' _ => ∀ token, r = .ok token → P h' token) h₂
        (tryExcept (releaseLock key) fun e =>
          if e.isException then pure () else raise e : TokenProgram Unit) := by
      refine Along.catch ?_ ?_
      · have hcall : Awake h₂ (.delete key) := rfl
        refine .perform hcall ?_
        intro n _ token hok
        exact hrelease h₂ _ token rfl (hr token hok)
      · intro h₃ e _ hpost
        split
        · exact (along_pure ()).mpr hpost
        · exact (along_raise e).mpr hpost
    refine hkept.bind ?_ (by simp)
    intro h₃ _ _ hpost
    exact (along_ofExcept r).mpr hpost

/-- What a call returns without waiting it has read fresh, or stored itself. -/
def ReadOrStored (s : AuthService) (h : TokenCalls) (token : String) : Prop :=
  s.ReadFresh h token ∨ h.any storesToken = true

theorem along_saveTokenPayload (payload : TokenPayload) :
    Along Awake (fun h' r => r = .ok () → h'.any storesToken = true) h
      (s.saveTokenPayload payload) := by
  unfold saveTokenPayload
  split
  · simp
  · simp
  · refine (along_token rfl).bind ?_ (by simp)
    intro h₁ now _ _
    have hcall (ex : ℤ) : Awake h₁ (.other (.set payload ex)) := rfl
    refine .perform (hcall _) ?_
    intro n r hok
    rw [hok]
    simp [storesToken]

theorem along_refreshUnderLock (forceRefresh : Bool) :
    Along Awake (fun h' r => ∀ token, r = .ok token → s.ReadOrStored h' token) h
      (s.refreshUnderLock forceRefresh) := by
  unfold refreshUnderLock
  refine (along_usableCachedToken forceRefresh).bind ?_ (by simp)
  intro h₁ cached _ hread
  cases cached with
  | some token =>
    rw [along_pure]
    intro token' htoken
    obtain rfl := Except.ok.inj htoken
    exact .inl (hread token rfl)
  | none =>
    refine (along_token (o := .getAccessToken) rfl).bind ?_ (by simp)
    intro h₂ response _ _
    refine (along_saveTokenPayload _).bind ?_ (by simp)
    intro h₃ _ _ hstored
    rw [along_pure]
    intro token _
    exact .inr (hstored rfl)

/-- A look of the wait that finds a token of the current credentials. -/
theorem waitSeesForeign_look {added : TokenCalls} {m n : ℕ} {seconds : ℕ}
    {r : Except PyExc Unit} {payload : TokenPayload}
    (hadded : ∀ x ∈ added, isLookCall x.2.1 = false) :
    s.WaitSeesForeign (h ++ [(m, ⟨.other (.sleep seconds), r⟩)] ++
        [(n, ⟨.other .get, .ok (some (.object payload))⟩)] ++ added) ↔
      s.WaitSeesForeign h ∨ s.Foreign payload := by
  unfold WaitSeesForeign
  rw [List.append_assoc, waitReads_append rfl, List.filterMap_append,
    filterMap_cacheRead_eq_nil hadded, List.append_nil]
  have hlook : [((n, ⟨.other .get, .ok (some (.object payload))⟩) : TokenEntry)].filterMap
      cacheRead = [payload] := rfl
  rw [hlook]
  simp [or_and_right, exists_or]

/-- The rounds of the wait: what they return is fresh unless it was found under other
credentials. -/
theorem along_waitRounds (n : ℕ) (hh : ¬s.WaitSeesForeign h) :
    Along (fun _ _ => True)
      (fun h' r => ∀ token, r = .ok token → (s.ReadFresh h' token ↔ ¬s.WaitSeesForeign h')) h
      (s.waitRounds n) := by
  induction n generalizing h with
  | zero => simp [waitRounds]
  | succ n ih =>
    unfold waitRounds
    refine (along_token trivial).bind ?_ (by simp)
    rintro h₁ _ - ⟨m, rfl⟩
    refine (along_getCachedTokenPayload fun _ _ _ => trivial).bind ?_ (by simp)
    rintro h₂ found - ⟨added, rfl, -, hfound⟩
    cases found with
    | none =>
      refine ih ?_
      rintro ⟨payload, hpayload, hforeign⟩
      rw [waitReads_append rfl] at hpayload
      rcases List.mem_append.mp hpayload with hpayload | hpayload
      · exact hh ⟨payload, hpayload, hforeign⟩
      · obtain ⟨text, hlooks, htokenless⟩ := hfound
        have htoken := hforeign.1
        rw [tokenless_reads hlooks htokenless payload hpayload] at htoken
        cases htoken
    | some payload =>
      obtain ⟨htoken, n', rfl⟩ := hfound
      by_cases hfingerprint : s.validateFingerprint payload = true
      · simp only [hfingerprint, Bool.not_true, Bool.false_eq_true, if_false]
        have hcurrent : ¬s.Foreign payload := by simp [Foreign, hfingerprint]
        refine (along_isExpiredOrExpiring (fun _ _ _ => trivial) payload).bind ?_ (by simp)
        rintro h₃ expired - ⟨added, rfl, hclock, hfresh⟩
        have hadded (x) (hx : x ∈ added) : isLookCall x.2.1 = false := by rw [hclock x hx]; rfl
        have hsees : ¬s.WaitSeesForeign (h ++ [(m, ⟨.other (.sleep lockWaitSeconds), .ok ()⟩)] ++
            [(n', ⟨.other .get, .ok (some (.object payload))⟩)] ++ added) := by
          rw [waitSeesForeign_look hadded, not_or]
          exact ⟨hh, hcurrent⟩
        cases expired with
        | true => exact ih hsees
        | false =>
          simp only [Bool.false_eq_true, if_false, along_pure]
          intro token hok
          obtain ⟨m', now, rfl, hnow⟩ := hfresh
          have htoken : payload.accessToken = some token := by
            obtain ⟨found, hfound⟩ := Option.isSome_iff_exists.mp htoken
            rw [hfound] at hok ⊢
            exact congrArg some (Except.ok.inj hok)
          exact iff_of_true (readFresh_of htoken hfingerprint hnow) hsees
      · simp only [hfingerprint, Bool.not_false, if_true, along_pure]
        intro token _
        rw [Bool.not_eq_true] at hfingerprint
        have hforeign : s.Foreign payload := ⟨htoken, hfingerprint⟩
        refine iff_of_false ?_ (not_not.mpr ?_)
        · -- the token of other credentials was read last
          intro hread
          obtain ⟨last, hlast, hcurrent⟩ := hread.last
          have hlook : [((n', ⟨.other .get, .ok (some (.object payload))⟩) : TokenEntry)].filterMap
              cacheRead = [payload] := rfl
          rw [List.filterMap_append, hlook, List.getLast?_concat] at hlast
          rw [← Option.some.inj hlast] at hcurrent
          exact hcurrent hforeign
        · rw [← List.append_nil (_ ++ _), waitSeesForeign_look (by simp)]
          exact .inr hforeign

/-! ## The service -/

/-- A token that a call returns without having stored one was read fresh from the cache, exactly
when no look of the wait read a token of other credentials. -/
theorem along_getValidAccessToken_fresh (s : AuthService) (forceRefresh : Bool) :
    Along (fun _ _ => True)
      (fun h r => ∀ token, r = .ok token → h.any storesToken = false →
        (s.ReadFresh h token ↔ ¬s.WaitSeesForeign h)) [] (s.getValidAccessToken forceRefresh) := by
  -- before it waits a call sees no token of other credentials
  have hstart : Unslept [] := by simp [Unslept]
  have hstep (h : TokenCalls) (o : LockOp TokenOp) (n : ℕ) (r : Except PyExc (LockAns TokenAns o))
      (hh : Unslept h) (ho : Awake h o) : Unslept (h ++ [(n, ⟨o, r⟩)]) := by
    intro x hx
    rcases List.mem_append.mp hx with hx | hx
    · exact hh x hx
    · rw [List.mem_singleton.mp hx]
      exact ho
  have hsees (h : TokenCalls) (hh : Unslept h) : ¬s.WaitSeesForeign h := by
    rintro ⟨payload, hpayload, -⟩
    rw [waitReads_of_unslept hh] at hpayload
    cases hpayload
  unfold getValidAccessToken
  have hcached := along_usableCachedToken (s := s) (h := []) forceRefresh
  refine ((hcached.keeping hstep hstart).mono (fun _ _ _ => trivial) fun _ _ hr => hr).bind ?_ (by simp)
  rintro h₁ cached - ⟨hunslept, hread⟩
  cases cached with
  | some token =>
    rw [along_pure]
    intro token' htoken _
    obtain rfl := Except.ok.inj htoken
    exact iff_of_true (hread token rfl) (hsees h₁ hunslept)
  | none =>
    have hlocked : Along Awake (fun h' r => ∀ token, r = .ok token → s.ReadOrStored h' token) h₁
        (distributedLock tokenLockKey lockTtlSeconds (s.refreshUnderLock forceRefresh)) := by
      refine along_distributedLock ?_ fun h => along_refreshUnderLock forceRefresh
      rintro h x token hx (hread | hstored)
      · exact .inl (hread.append (by simp [hx, isLookCall]))
      · exact .inr (by simp [hstored])
    refine ((hlocked.keeping hstep hunslept).mono (fun _ _ _ => trivial) fun _ _ hr => hr).tryExcept ?_ ?_
    · rintro h₂ token - ⟨hunslept, hreturned⟩ token' htoken hnone
      obtain rfl := Except.ok.inj htoken
      rcases hreturned token rfl with hread | hstored
      · exact iff_of_true hread (hsees h₂ hunslept)
      · rw [hnone] at hstored
        cases hstored
    · rintro h₂ e - ⟨hunslept, -⟩
      split
      · exact (along_waitRounds lockRetryCount (hsees h₂ hunslept)).mono (fun _ _ hq => hq)
          fun _ _ hr token hok _ => hr token hok
      · simp

/-- A service whose credentials have changed. -/
def rotated : AuthService where
  appkey := "PSkey"
  appsecret := "secret-2"
  sha256 _ := "0f45895dcbea2cae30b4737cc7e3d52d3a74462b03179a5e24fa91e1d2d7cbea"
  strptime text := if text = "2026-06-30 09:00:00" then some 1782777600000000 else none

/-- The token that was stored under the credentials before. -/
def oldPayload : TokenPayload := ⟨some "old-token", some "0123456789abcdef", some "2026-06-30 09:00:00"⟩

/-- A day after that token expired another client holds the lock: the call waits for it, and
returns the token. -/
theorem other_credentials_returned :
    let w : LockWorld TokenStore :=
      ⟨fun _ => some 55000000, 0, 0, ⟨some (.object oldPayload, none), []⟩⟩
    let outcome := run (LockWorld.handle (tokenEnv 1782864000000000 fun _ _ => ⟨"new", none⟩))
      (rotated.getValidAccessToken false) w
    outcome.1 = .ok "old-token" ∧ outcome.2.rest = w.rest ∧
      ∀ now, ¬rotated.Fresh oldPayload now "old-token" := by
  intro w outcome
  have hother : rotated.validateFingerprint oldPayload = false := by decide +kernel
  refine ⟨?_, ?_, ?_⟩
  · rfl
  · rfl
  · intro now hfresh
    have hcurrent : rotated.validateFingerprint oldPayload = true := by
      rw [validateFingerprint, hfresh.fingerprint, decide_eq_true_iff]
    rw [hother] at hcurrent
    cases hcurrent

end AuthService

end Autotrading
