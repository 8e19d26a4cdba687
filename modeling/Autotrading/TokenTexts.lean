import Autotrading.JsonDump
import Autotrading.MachineSimulation
import Autotrading.OrderPublisher
import Autotrading.TokenRefresh
import Autotrading.TokenReturns

/-!
# The texts of the token cache

Redis keeps a token as the JSON text that `_save_token_payload` writes and
`_get_cached_token_payload` reads. Redis with the texts does for the service what Redis with the
payloads does.
-/
namespace Autotrading

open JsonText KISRealtimeClient Machine Prog

/-- How the interpreter reads a text: how far objects may be nested in it, and what `str` makes of
a value that is no text, where Python takes it for true. -/
structure TokenReader where
  nesting : ℕ
  nests : 0 < nesting
  str : Json → Option String

/-- What is written beside the token: the number of seconds has been read from a text itself. -/
structure TokenDetails where
  tokenType : String
  expiresIn : ℤ
  issuedAt : String
  short : (Nat.toDigits 10 expiresIn.natAbs).length ≤ maxStrDigits

namespace TokenPayload

/-- The members of the object that is written. -/
def members (payload : TokenPayload) (details : TokenDetails) : List (String × Json) :=
  [("access_token", OrderPublisher.text (payload.accessToken.getD "")),
    ("fingerprint", OrderPublisher.optional payload.fingerprint),
    ("token_type", OrderPublisher.text details.tokenType),
    ("expires_in", .int details.expiresIn),
    ("access_token_token_expired", OrderPublisher.optional payload.accessTokenTokenExpired),
    ("issued_at", OrderPublisher.text details.issuedAt)]

/-- `json.dumps(payload, ensure_ascii=False)`. -/
def write (payload : TokenPayload) (details : TokenDetails) : List Char :=
  dump (.obj ((payload.members details).map fun (key, value) => (codes key, value)))

/-- A payload as it is stored: its texts are not empty. -/
def Stored (payload : TokenPayload) : Prop :=
  payload.accessToken ≠ some "" ∧ payload.accessTokenTokenExpired ≠ some ""

end TokenPayload

namespace TokenReader

variable (reader : TokenReader)

/-- The text of code points, where they are characters. -/
def textOf? (units : List ℕ) : Option String :=
  if ∀ n ∈ units, n.isValidChar then some (String.ofList (units.map Char.ofNat)) else none

/-- `str(payload[key])`, where Python takes the value for true. -/
def shown (value : Json) : Option String :=
  match value with
  | .null => none
  | .str [] => none
  | .str units => (textOf? units).or (reader.str value)
  | value => reader.str value

/-- What `_get_cached_token_payload` makes of a text. -/
def read (text : List Char) : TokenText :=
  match loads reader.nesting text with
  | .error .decode => .malformed
  | .error fault => .unreadable (faultExc fault)
  | .ok (.obj members) => .object {
      accessToken := reader.shown (member members "access_token" .null)
      fingerprint :=
        match member members "fingerprint" .null with
        | .str units => textOf? units
        | _ => none
      accessTokenTokenExpired := reader.shown (member members "access_token_token_expired" .null) }
  | .ok value => .unreadable
      (.other "AttributeError" s!"'{typeName value}' object has no attribute 'get'")

end TokenReader

/-! ## Redis with the texts -/

/-- The text of the cache with the time it expires at, and what the broker has issued. -/
structure TokenTexts where
  cache : Option (List Char × Option ℕ)
  issued : List TokenResponse

namespace TokenTexts

/-- What is in the cache at a time; no text is as good as none. -/
def cached (r : TokenTexts) (now : ℕ) : Option (List Char) :=
  match r.cache with
  | none => none
  | some ([], _) => none
  | some (text, none) => some text
  | some (text, some expiry) => if now < expiry then some text else none

/-- The calls of the service on the texts. -/
def effect (reader : TokenReader) (details : ℕ → TokenTexts → TokenDetails) (epoch : Instant)
    (broker : ℕ → List TokenResponse → TokenResponse) :
    (o : TokenOp) → ℕ → TokenTexts → Except PyExc (TokenAns o) × TokenTexts
  | .get, now, r => (.ok ((r.cached now).map reader.read), r)
  | .delete, _, r => (.ok (), { r with cache := none })
  | .set payload ex, now, r =>
    if ex ≤ 0 then (.error (.other "ResponseError" "invalid expire time in 'set' command"), r)
    else (.ok (), { r with
      cache := some (payload.write (details now r), some (now + ex.toNat * 1000000)) })
  | .getAccessToken, now, r =>
    (.ok (broker now r.issued), { r with issued := r.issued ++ [broker now r.issued] })
  | .now, now, r => (.ok (epoch + now), r)
  | .sleep _, _, r => (.ok (), r)

/-- The payloads behind the texts. -/
def payloads (reader : TokenReader) (r : TokenTexts) : TokenStore where
  cache := r.cache.bind fun entry =>
    if entry.1 = [] then none else some (reader.read entry.1, entry.2)
  issued := r.issued

end TokenTexts

/-- Redis with the texts, and a broker, that do not fail. -/
def textEnv (reader : TokenReader) (details : ℕ → TokenTexts → TokenDetails) (epoch : Instant)
    (broker : ℕ → List TokenResponse → TokenResponse) : LockEnv TokenAns TokenTexts where
  fault _ _ := none
  other := TokenTexts.effect reader details epoch broker

/-- What other code asks the service for. -/
inductive TokenRequest
  | getValidAccessToken (forceRefresh : Bool)
  | refreshAccessToken
  | invalidateAccessToken

namespace AuthService

/-- `refresh_access_token`. -/
def refreshAccessToken (s : AuthService) : TokenProgram String := s.getValidAccessToken true

/-- `invalidate_access_token`. -/
def invalidateAccessToken : TokenProgram Unit := TokenOp.perform .delete

/-- A request as a task. -/
def request (s : AuthService) : TokenRequest → TokenProgram Unit
  | .getValidAccessToken forceRefresh => do
    let _ ← s.getValidAccessToken forceRefresh
    pure ()
  | .refreshAccessToken => do
    let _ ← s.refreshAccessToken
    pure ()
  | .invalidateAccessToken => invalidateAccessToken

end AuthService

/-! ## Round trips -/

section RoundTrip
variable {reader : TokenReader} {payload : TokenPayload} {details : TokenDetails}

theorem textOf?_codes (s : String) : TokenReader.textOf? (codes s) = some s := by
  have hvalid : ∀ n ∈ codes s, n.isValidChar := OrderPublisher.isText_codes s
  unfold TokenReader.textOf?
  rw [if_pos hvalid, codes, List.map_map]
  have hsame : s.toList.map (Char.ofNat ∘ Char.toNat) = s.toList :=
    List.map_id'' (fun c => Char.ofNat_toNat c) _
  rw [hsame, String.ofList_toList]

theorem codes_eq_iff {s t : String} : codes s = codes t ↔ s = t := by
  constructor
  · intro h
    have hsame := textOf?_codes s
    rw [h, textOf?_codes] at hsame
    exact (Option.some.inj hsame).symm
  · intro h
    rw [h]

/-- The members of a text are found under their names. -/
theorem member_codes (pairs : List (String × Json)) (key : String) (default : Json) :
    member (pairs.map fun (key, value) => (codes key, value)) key default =
      (pairs.reverse.lookup key).getD default := by
  rw [member, ← List.map_reverse]
  congr 1
  induction pairs.reverse with
  | nil => rfl
  | cons pair pairs ih =>
    obtain ⟨name, value⟩ := pair
    have hkey : (codes key == codes name) = (key == name) := by
      rw [Bool.eq_iff_iff, beq_iff_eq, beq_iff_eq]
      exact codes_eq_iff
    simp only [List.map_cons, List.lookup_cons, hkey, ih]

theorem shown_text {s : String} :
    reader.shown (OrderPublisher.text s) = if s = "" then none else some s := by
  have htext := textOf?_codes s
  have hempty : codes s = [] ↔ s = "" := codes_eq_iff (t := "")
  unfold OrderPublisher.text
  cases hunits : codes s with
  | nil =>
    rw [if_pos (hempty.mp hunits)]
    rfl
  | cons unit units =>
    have hne : s ≠ "" := fun heq => by
      rw [hempty.mpr heq] at hunits
      cases hunits
    rw [hunits] at htext
    rw [if_neg hne]
    show (TokenReader.textOf? (unit :: units)).or _ = _
    rw [htext, Option.some_or]

theorem shown_optional {s : Option String} (h : s ≠ some "") :
    reader.shown (OrderPublisher.optional s) = s := by
  cases s with
  | none => rfl
  | some s =>
    have hne : s ≠ "" := fun heq => h (congrArg some heq)
    show reader.shown (OrderPublisher.text s) = _
    rw [shown_text, if_neg hne]

theorem plain_write (depth : ℕ) : Plain (depth + 1)
    (.obj ((payload.members details).map fun (key, value) => (codes key, value))) := by
  have hall : ∀ pair ∈ payload.members details, Plain depth pair.2 := by
    simp [TokenPayload.members, OrderPublisher.plain_text, OrderPublisher.plain_optional,
      Plain.int depth details.short]
  constructor
  · intro member hmember
    obtain ⟨pair, -, rfl⟩ := List.mem_map.mp hmember
    exact OrderPublisher.isText_codes pair.1
  · intro member hmember
    obtain ⟨pair, hpair, rfl⟩ := List.mem_map.mp hmember
    exact hall pair hpair

/-- What is stored is read as it was written. -/
theorem read_write (h : payload.Stored) : reader.read (payload.write details) = .object payload := by
  obtain ⟨depth, hdepth⟩ : ∃ depth, reader.nesting = depth + 1 :=
    ⟨reader.nesting - 1, by have := reader.nests; omega⟩
  unfold TokenReader.read TokenPayload.write
  rw [hdepth, loads_dump (plain_write depth)]
  dsimp only
  rw [member_codes, member_codes, member_codes]
  have htoken : ((payload.members details).reverse.lookup "access_token").getD .null =
      OrderPublisher.text (payload.accessToken.getD "") := rfl
  have hfingerprint : ((payload.members details).reverse.lookup "fingerprint").getD .null =
      OrderPublisher.optional payload.fingerprint := rfl
  have hexpiry : ((payload.members details).reverse.lookup "access_token_token_expired").getD .null =
      OrderPublisher.optional payload.accessTokenTokenExpired := rfl
  rw [htoken, hfingerprint, hexpiry, shown_text, shown_optional h.2]
  obtain ⟨accessToken, fingerprint, accessTokenTokenExpired⟩ := payload
  have haccess : (if accessToken.getD "" = "" then none else some (accessToken.getD "")) =
      accessToken := by
    cases accessToken with
    | none => rfl
    | some token =>
      have hne : token ≠ "" := fun heq => h.1 (congrArg some heq)
      rw [Option.getD_some, if_neg hne]
  dsimp only
  rw [haccess]
  cases fingerprint with
  | none => rfl
  | some fingerprint =>
    show TokenText.object ⟨_, TokenReader.textOf? (codes fingerprint), _⟩ = _
    rw [textOf?_codes]

theorem write_ne_nil : payload.write details ≠ [] := by
  unfold TokenPayload.write TokenPayload.members
  simp [dump]

end RoundTrip

/-! ## The calls of the service -/

/-- What the service stores is stored as a payload is. -/
def TokenOp.Storable : TokenOp → Prop
  | .set payload _ => payload.Stored
  | _ => True

section Calls
variable {reader : TokenReader} {details : ℕ → TokenTexts → TokenDetails} {epoch : Instant}
  {broker : ℕ → List TokenResponse → TokenResponse} {s : AuthService} {h : TokenCalls}

/-- Redis with the texts behind Redis with the payloads. -/
theorem payloads_effect (o : TokenOp) (now : ℕ) (r : TokenTexts) (ho : o.Storable) :
    TokenStore.effect epoch broker o now (r.payloads reader) =
      ((TokenTexts.effect reader details epoch broker o now r).1,
        (TokenTexts.effect reader details epoch broker o now r).2.payloads reader) := by
  cases o with
  | get =>
    obtain ⟨cache, issued⟩ := r
    cases cache with
    | none => rfl
    | some entry =>
      obtain ⟨text, expiry⟩ := entry
      cases text with
      | nil => cases expiry <;> rfl
      | cons c text =>
        cases expiry with
        | none => rfl
        | some expiry =>
          by_cases hlive : now < expiry
          · simp [TokenStore.effect, TokenStore.cached, TokenTexts.effect, TokenTexts.cached,
              TokenTexts.payloads, hlive]
          · simp [TokenStore.effect, TokenStore.cached, TokenTexts.effect, TokenTexts.cached,
              TokenTexts.payloads, hlive]
  | delete => rfl
  | set payload ex =>
    by_cases hex : ex ≤ 0
    · simp [TokenStore.effect, TokenTexts.effect, hex]
    · simp [TokenStore.effect, TokenTexts.effect, hex, TokenTexts.payloads, write_ne_nil,
        read_write ho]
  | getAccessToken => rfl
  | now => rfl
  | sleep seconds => rfl

/-- The calls that keep to what can be stored. -/
abbrev Storing (_ : TokenCalls) (o : LockOp TokenOp) : Prop := o.Within TokenOp.Storable

theorem storing_of_isCacheCall (h : TokenCalls) (o : LockOp TokenOp) (ho : isCacheCall o = true) :
    Storing h o := by
  unfold isCacheCall at ho
  split at ho
  · trivial
  · trivial
  · trivial
  · cases ho

/-- What the service writes has texts in it: an expiry that is stored has been read. -/
theorem safe_saveTokenPayload (hempty : s.strptime "" = none) (response : TokenResponse) :
    Safe Storing h (s.saveTokenPayload (s.payloadOf response)) := by
  have htoken : (s.payloadOf response).accessToken ≠ some "" := by
    unfold AuthService.payloadOf
    dsimp only
    split_ifs with hnone
    · simp
    · simpa using hnone
  unfold AuthService.saveTokenPayload
  cases hexpiry : (s.payloadOf response).accessTokenTokenExpired.map s.strptime with
  | none => exact safe_raise _
  | some read =>
    cases read with
    | none => exact safe_raise _
    | some expiresAt =>
      have hstored : (s.payloadOf response).Stored := by
        refine ⟨htoken, fun hnone => ?_⟩
        rw [hnone, Option.map_some, hempty] at hexpiry
        cases hexpiry
      refine safe_perform_bind (o := LockOp.other TokenOp.now) trivial fun n now => ?_
      exact safe_perform (o := LockOp.other (TokenOp.set (s.payloadOf response) _)) hstored

theorem safe_usableCachedToken (forceRefresh : Bool) :
    Safe Storing h (s.usableCachedToken forceRefresh) := by
  unfold AuthService.usableCachedToken
  split_ifs
  · exact safe_pure none
  · exact (s.along_validCachedToken_looks storing_of_isCacheCall).safe

theorem safe_refreshUnderLock (hempty : s.strptime "" = none) (forceRefresh : Bool) :
    Safe Storing h (s.refreshUnderLock forceRefresh) := by
  unfold AuthService.refreshUnderLock
  refine (safe_usableCachedToken forceRefresh).bind fun h₁ cached _ => ?_
  cases cached with
  | some token => exact safe_pure token
  | none =>
    refine safe_perform_bind (o := LockOp.other TokenOp.getAccessToken) trivial fun n response => ?_
    exact (safe_saveTokenPayload hempty response).bind fun _ _ _ => safe_pure _

theorem safe_waitRounds (n : ℕ) : Safe Storing h (s.waitRounds n) := by
  induction n generalizing h with
  | zero => exact safe_raise _
  | succ n ih =>
    unfold AuthService.waitRounds
    refine safe_perform_bind (o := LockOp.other (TokenOp.sleep _)) trivial fun m _ => ?_
    refine (AuthService.along_getCachedTokenPayload storing_of_isCacheCall).bind_safe ?_
    intro h₁ found _ _
    cases found with
    | none => exact ih
    | some cached =>
      dsimp only
      split_ifs
      · exact safe_pure _
      · refine (AuthService.along_isExpiredOrExpiring storing_of_isCacheCall cached).bind_safe ?_
        intro h₂ expired _ _
        split_ifs
        · exact ih
        · exact safe_pure _

theorem safe_getValidAccessToken (hempty : s.strptime "" = none) (forceRefresh : Bool) :
    Safe Storing h (s.getValidAccessToken forceRefresh) := by
  unfold AuthService.getValidAccessToken
  refine (safe_usableCachedToken forceRefresh).bind fun h₁ cached _ => ?_
  cases cached with
  | some token => exact safe_pure token
  | none =>
    refine Safe.tryExcept ?_ fun h₂ e _ => ?_
    · unfold distributedLock
      refine safe_perform_bind (o := LockOp.setNxEx _ _) trivial fun n acquired => ?_
      split_ifs
      · exact safe_raise _
      · refine (safe_refreshUnderLock hempty forceRefresh).attempt fun h₃ r _ => ?_
        refine Safe.bind (Safe.tryExcept (safe_perform (o := LockOp.delete _) trivial) ?_) ?_
        · intro h₄ e _
          split_ifs
          · exact safe_pure ()
          · exact safe_raise e
        · intro h₄ _ _
          exact safe_ofExcept r
    · split_ifs
      · exact safe_waitRounds _
      · exact safe_raise e

theorem safe_request (hempty : s.strptime "" = none) (l : TokenRequest) :
    Safe Storing h (s.request l) := by
  cases l with
  | getValidAccessToken forceRefresh =>
    exact (safe_getValidAccessToken hempty forceRefresh).bind fun _ _ _ => safe_pure ()
  | refreshAccessToken =>
    exact (safe_getValidAccessToken hempty true).bind fun _ _ _ => safe_pure ()
  | invalidateAccessToken => exact safe_perform (o := LockOp.other TokenOp.delete) trivial

end Calls

/-- In every run of requests over Redis with the texts, the tasks make the calls and get the answers
that they have over Redis with the payloads. -/
theorem text_cache_refines (s : AuthService) (hempty : s.strptime "" = none) (reader : TokenReader)
    (details : ℕ → TokenTexts → TokenDetails) (epoch : Instant)
    (broker : ℕ → List TokenResponse → TokenResponse) (w : LockWorld TokenTexts)
    (es : List (Event TokenRequest ℕ)) :
    (lockMachine (tokenEnv epoch broker) s.request).run
        (.start (w.mapRest (TokenTexts.payloads reader))) es =
      ((lockMachine (textEnv reader details epoch broker) s.request).run (.start w) es).mapState
        (LockWorld.mapRest (TokenTexts.payloads reader)) := by
  have hsimulates : Simulates (LockOp.Within TokenOp.Storable)
      (LockWorld.mapRest (TokenTexts.payloads reader))
      (lockMachine (textEnv reader details epoch broker) s.request)
      (lockMachine (tokenEnv epoch broker) s.request) := by
    have hfault : (tokenEnv epoch broker).fault = (textEnv reader details epoch broker).fault := rfl
    have hother : ∀ (o : TokenOp) (now : ℕ) (r : TokenTexts), o.Storable →
        (tokenEnv epoch broker).other o now (r.payloads reader) =
          (((textEnv reader details epoch broker).other o now r).1,
            ((textEnv reader details epoch broker).other o now r).2.payloads reader) := by
      intro o now r ho
      exact payloads_effect o now r ho
    exact lockMachine_simulates hfault hother s.request
  refine hsimulates.run (fun l => safe_request hempty l) (s := .start w) ?_ es
  intro t ht
  cases ht

/-- A request over a text that is no JSON and a refresh beside it. The one deletes the text and
waits for the other, whose text is in the cache at the end. -/
theorem text_cache_refines_rotated :
    let reader : TokenReader := ⟨3, by decide, fun _ => none⟩
    let details : ℕ → TokenTexts → TokenDetails :=
      fun _ _ => ⟨"Bearer", 86400, "2026-06-29T10:00:00+09:00", by decide⟩
    let broker : ℕ → List TokenResponse → TokenResponse :=
      fun _ _ => ⟨"new-token", some "2026-06-30 09:00:00"⟩
    let w : LockWorld TokenTexts := ⟨fun _ => none, 0, 0, ⟨some ("\x7b".toList, none), []⟩⟩
    let es : List (Event TokenRequest ℕ) :=
      [.launch (.getValidAccessToken false), .launch .refreshAccessToken, .step 1, .step 0, .step 0,
        .step 1, .step 1, .step 1, .step 0, .step 1]
    let text := (lockMachine (textEnv reader details 1782694800000000 broker)
      AuthService.rotated.request).run
      (.start w) es
    (text.state.rest.cached 0).isSome = true ∧
      (lockMachine (tokenEnv 1782694800000000 broker) AuthService.rotated.request).run
        (.start (w.mapRest (TokenTexts.payloads reader))) es =
          text.mapState (LockWorld.mapRest (TokenTexts.payloads reader)) := by
  intro reader details broker w es text
  constructor
  · decide +kernel
  · exact text_cache_refines AuthService.rotated (by decide +kernel) reader details
      1782694800000000 broker w es

end Autotrading
