import Autotrading.KeyChain
import Autotrading.KisOrder

/-!
# The broker client for the balance

`KISAccount.get_balance` of `app/broker/kis/kis_account.py`. Positions and summaries
are of any type; an entry that the schema refuses is `none`. `get` sends a request to
the broker. The pause between two attempts is left out, and `fuel` bounds the pages.
-/
namespace Autotrading.KisAccount

open KeyChain (Follows RunsIntoCycle walk)
open KisOrder (httpRetryCount is2xx)

/-! ## Requests and answers -/

/-- `CTX_AREA_FK100` and `CTX_AREA_NK100`. -/
structure ContinuationKey where
  fk100 : String
  nk100 : String
  deriving DecidableEq

/-- The keys of the first request. -/
def ContinuationKey.first : ContinuationKey := ⟨"", ""⟩

/-- The parameters of a request that are no constants. -/
structure BalanceRequest where
  cano : String
  acntPrdtCd : String
  ctxArea : ContinuationKey

/-- A continuation key of a JSON answer; the type of one that is no text. -/
inductive CtxField
  | absent
  | text (s : String)
  | otherJson (typeName : String)

/-- The field `output1`. The entries of a text or an object that stands in its place are none that
the schema accepts. -/
inductive BalanceRows (ι : Type)
  | absent
  | rows (entries : List (Option ι))
  | notIterable (typeName : String)

/-- A JSON object answered to a balance request. -/
structure BalanceAnswer (ι β : Type) where
  rtCd : JsonField
  msgCd : JsonField
  msg1 : JsonField
  ctxAreaFk100 : CtxField
  ctxAreaNk100 : CtxField
  output1 : BalanceRows ι
  output2 : Option (List β)
  refusal : String

/-- `BalanceResponse`. -/
structure BalanceResponse (ι β : Type) where
  rtCd : String
  msgCd : String
  msg1 : String
  ctxAreaFk100 : String
  ctxAreaNk100 : String
  output1 : List ι
  output2 : List β

/-- What `get_balance` raises: a `KISAccountError` or another exception. -/
inductive AccountExc
  | kisAccount (e : KISError)
  | other (e : PyExc)

variable {σ ι β : Type}

/-- The text under a continuation key. -/
def CtxField.get : CtxField → Option String
  | text s => some s
  | _ => none

/-- What the schema makes of `data`, where `data["output1"]` holds `entries`. -/
def BalanceAnswer.accepted (data : BalanceAnswer ι β) (entries : List (Option ι)) :
    Option (BalanceResponse ι β) := do
  let rtCd ← data.rtCd.get
  let msgCd ← data.msgCd.get
  let msg1 ← data.msg1.get
  let fk100 ← data.ctxAreaFk100.get
  let nk100 ← data.ctxAreaNk100.get
  let items ← entries.mapM id
  let summaries ← data.output2
  pure ⟨rtCd, msgCd, msg1, fk100, nk100, items, summaries⟩

/-- `BalanceResponse(**data)`. -/
def BalanceAnswer.validate (data : BalanceAnswer ι β) (entries : List (Option ι)) :
    Except AccountExc (BalanceResponse ι β) :=
  match data.accepted entries with
  | some response => .ok response
  | none => .error (.other (.other "ValidationError" data.refusal))

/-- What `extend` appends of `data.get("output1", [])`. -/
def BalanceRows.entries : BalanceRows ι → Except AccountExc (List (Option ι))
  | absent => .ok []
  | rows entries => .ok entries
  | notIterable typeName =>
    .error (.other (.other "TypeError" s!"'{typeName}' object is not iterable"))

/-- `data.get(key, "").strip()`. -/
def CtxField.strip : CtxField → Except AccountExc String
  | absent => .ok ""
  | text s => .ok (String.ofList (Python.strip s))
  | otherJson typeName =>
    .error (.other (.other "AttributeError" s!"'{typeName}' object has no attribute 'strip'"))

/-! ## `get_balance` -/

/-- The `KISAccountError` of a network failure in the last attempt. -/
def networkError (e : String) : AccountExc :=
  .kisAccount ⟨some s!"계좌 잔고 조회 요청 실패: {e}", some 500, some "NETWORK_ERROR", some "ERROR",
    some "NETWORK_ERROR", some s!"계좌 잔고 조회 요청 실패: {e}", none⟩

/-- The `KISAccountError` of a status outside 2xx in the last attempt: the fields of
the body where it is an object. -/
def httpStatusError (statusCode : ℕ) (body : Body (BalanceAnswer ι β)) : AccountExc :=
  let msg1 := s!"계좌 잔고 조회 실패: HTTP {statusCode}"
  match body with
  | .object d =>
    let msgCd := d.msgCd.getD "BROKER_HTTP_ERROR"
    let msg1 := d.msg1.getD msg1
    .kisAccount ⟨msg1, some statusCode, msgCd, d.rtCd.getD "ERROR", msgCd, msg1,
      some ⟨d.msgCd.get, d.msg1.get⟩⟩
  | _ =>
    .kisAccount ⟨some msg1, some statusCode, some "BROKER_HTTP_ERROR", some "ERROR",
      some "BROKER_HTTP_ERROR", some msg1, some ⟨none, none⟩⟩

/-- The `KISAccountError` of an answer whose `rt_cd` is not `"0"`. -/
def rejected (data : BalanceAnswer ι β) : AccountExc :=
  .kisAccount ⟨data.msg1.getD "계좌 잔고 조회 실패", some 400, data.msgCd.get, data.rtCd.get,
    data.msgCd.get, data.msg1.get, none⟩

section Client
variable (get : BalanceRequest → σ → HttpReply (BalanceAnswer ι β) × σ)

/-- One attempt: the body of an answer with a status 2xx, or what is raised if it is the last. -/
def attempt (request : BalanceRequest) (s : σ) :
    Except AccountExc (Body (BalanceAnswer ι β)) × σ :=
  match get request s with
  | (.requestError e, s') => (.error (networkError e), s')
  | (.response statusCode body _, s') =>
    (if is2xx statusCode then .ok body else .error (httpStatusError statusCode body), s')

/-- The attempts at a page, of which `retries` follow a first one that fails. -/
def requestPage (request : BalanceRequest) :
    ℕ → σ → Except AccountExc (Body (BalanceAnswer ι β)) × σ
  | 0, s => attempt get request s
  | retries + 1, s =>
    match attempt get request s with
    | (.ok body, s') => (.ok body, s')
    | (.error _, s') => requestPage request retries s'

/-- Where to go on from the page of `current`: not behind empty keys, nor to the page itself. -/
def continuation (current next : ContinuationKey) : Option ContinuationKey :=
  if next.fk100 = "" ∧ next.nk100 = "" then none
  else if next = current then none
  else some next

/-- The entries of a page and where to go on from it. -/
def readPage (current : ContinuationKey) (data : BalanceAnswer ι β) :
    Except AccountExc (List (Option ι) × Option ContinuationKey) := do
  if data.rtCd.get ≠ some "0" then throw (rejected data)
  let entries ← data.output1.entries
  let nextFk100 ← data.ctxAreaFk100.strip
  let nextNk100 ← data.ctxAreaNk100.strip
  pure (entries, continuation current ⟨nextFk100, nextNk100⟩)

/-- The `while` loop from the page of `current` on, behind which `allOutput1` was read. -/
def readPages (cano acntPrdtCd : String) :
    ℕ → ContinuationKey → List (Option ι) → σ → Option (Except AccountExc (BalanceResponse ι β) × σ)
  | 0, _, _, _ => none
  | fuel + 1, current, allOutput1, s =>
    match requestPage get ⟨cano, acntPrdtCd, current⟩ (httpRetryCount - 1) s with
    | (.error e, s') => some (.error e, s')
    | (.ok body, s') =>
      match KisOrder.json body with
      | .error e => some (.error (.other e), s')
      | .ok data =>
        match readPage current data with
        | .error e => some (.error e, s')
        | .ok (entries, none) => some (data.validate (allOutput1 ++ entries), s')
        | .ok (entries, some next) =>
          readPages cano acntPrdtCd fuel next (allOutput1 ++ entries) s'

/-- `get_balance`. -/
def getBalance (cano acntPrdtCd : String) (fuel : ℕ) (s : σ) :
    Option (Except AccountExc (BalanceResponse ι β) × σ) :=
  readPages get cano acntPrdtCd fuel .first [] s

end Client

/-! ## Brokers that answer by the key -/

/-- A broker that answers by the key, and the keys that it is asked for. -/
def recorded (reply : ContinuationKey → HttpReply (BalanceAnswer ι β)) (request : BalanceRequest)
    (visited : List ContinuationKey) :
    HttpReply (BalanceAnswer ι β) × List ContinuationKey :=
  (reply request.ctxArea, visited ++ [request.ctxArea])

/-- The reply is a success with the page: a status 2xx and an object that the schema accepts. -/
def Shows (reply : HttpReply (BalanceAnswer ι β)) (page : BalanceResponse ι β) : Prop :=
  ∃ statusCode data statusText entries, reply = .response statusCode (.object data) statusText ∧
    is2xx statusCode = true ∧ data.output1 = .rows entries ∧ data.accepted entries = some page ∧
    page.rtCd = "0"

/-- The key that a page goes on with. -/
def nextKey (page : ContinuationKey → BalanceResponse ι β) (current : ContinuationKey) :
    Option ContinuationKey :=
  continuation current ⟨String.ofList (Python.strip (page current).ctxAreaFk100),
    String.ofList (Python.strip (page current).ctxAreaNk100)⟩

/-- The balance is returned, with the rows of every page that was visited once, in the order of
the visits. -/
def ReadsOnce (cano acntPrdtCd : String) (reply : ContinuationKey → HttpReply (BalanceAnswer ι β))
    (page : ContinuationKey → BalanceResponse ι β) : Prop :=
  ∃ fuel response visited,
    getBalance (recorded reply) cano acntPrdtCd fuel [] = some (.ok response, visited) ∧
    response.output1 = visited.eraseDups.flatMap fun key => (page key).output1

section Pages
variable {reply : ContinuationKey → HttpReply (BalanceAnswer ι β)}
  {page : ContinuationKey → BalanceResponse ι β} {cano acntPrdtCd : String}
  {current : ContinuationKey}

theorem mapM_id_eq_some {entries : List (Option ι)} {items : List ι} :
    entries.mapM id = some items ↔ entries = items.map some := by
  induction entries generalizing items with
  | nil => cases items <;> simp
  | cons entry entries ih =>
    cases entry with
    | none => cases items <;> simp
    | some item => cases items <;> simp [Option.bind_eq_some_iff, ih, and_comm]

/-- The schema accepts an object exactly if it finds every field. -/
theorem accepted_eq_some {data : BalanceAnswer ι β} {entries : List (Option ι)}
    {response : BalanceResponse ι β} :
    data.accepted entries = some response ↔
      data.rtCd.get = some response.rtCd ∧ data.msgCd.get = some response.msgCd ∧
        data.msg1.get = some response.msg1 ∧
        data.ctxAreaFk100.get = some response.ctxAreaFk100 ∧
        data.ctxAreaNk100.get = some response.ctxAreaNk100 ∧
        entries = response.output1.map some ∧ data.output2 = some response.output2 := by
  simp only [BalanceAnswer.accepted, Option.bind_eq_bind, Option.bind_eq_some_iff,
    mapM_id_eq_some]
  constructor
  · rintro ⟨_, hrt, _, hmsgCd, _, hmsg1, _, hfk, _, hnk, _, hitems, _, hsummaries, hresponse⟩
    obtain rfl := Option.some_inj.mp hresponse
    exact ⟨hrt, hmsgCd, hmsg1, hfk, hnk, hitems, hsummaries⟩
  · rintro ⟨hrt, hmsgCd, hmsg1, hfk, hnk, hitems, hsummaries⟩
    exact ⟨_, hrt, _, hmsgCd, _, hmsg1, _, hfk, _, hnk, _, hitems, _, hsummaries, rfl⟩

theorem strip_of_get {field : CtxField} {s : String} (h : field.get = some s) :
    field.strip = .ok (String.ofList (Python.strip s)) := by
  cases field with
  | text t =>
    rw [Option.some_inj.mp h]
    rfl
  | absent => cases h
  | otherJson typeName => cases h

/-- What the schema accepts, it accepts with the rows of other pages in front. -/
theorem validate_append {data : BalanceAnswer ι β} {entries : List (Option ι)}
    {response : BalanceResponse ι β} (h : data.accepted entries = some response)
    (items : List ι) :
    data.validate (items.map some ++ entries) =
      .ok { response with output1 := items ++ response.output1 } := by
  have haccepted : data.accepted (items.map some ++ entries) =
      some { response with output1 := items ++ response.output1 } := by
    simpa [accepted_eq_some] using h
  rw [BalanceAnswer.validate, haccepted]

/-- The first attempt at a page that is shown succeeds. -/
theorem requestPage_recorded (cano acntPrdtCd : String)
    (hshows : Shows (reply current) (page current)) (retries : ℕ)
    (visited : List ContinuationKey) :
    ∃ data entries, requestPage (recorded reply) ⟨cano, acntPrdtCd, current⟩ retries visited =
        (.ok (.object data), visited ++ [current]) ∧
      data.output1 = .rows entries ∧ data.accepted entries = some (page current) ∧
      (page current).rtCd = "0" := by
  obtain ⟨statusCode, data, statusText, entries, hreply, hstatus, hrows, haccepted, hok⟩ := hshows
  have hattempt : attempt (recorded reply) ⟨cano, acntPrdtCd, current⟩ visited =
      (.ok (.object data), visited ++ [current]) := by
    simp [attempt, recorded, hreply, hstatus]
  refine ⟨data, entries, ?_, hrows, haccepted, hok⟩
  cases retries with
  | zero => exact hattempt
  | succ retries => simp [requestPage, hattempt]

theorem eq_of_continuation {next key : ContinuationKey} (h : continuation current next = some key) :
    key = next := by
  unfold continuation at h
  split at h
  · cases h
  · split at h
    · cases h
    · exact (Option.some_inj.mp h).symm

/-- A page that is shown is read, and goes on with its key. -/
theorem readPage_shown {data : BalanceAnswer ι β} {entries : List (Option ι)}
    (hrows : data.output1 = .rows entries) (haccepted : data.accepted entries = some (page current))
    (hok : (page current).rtCd = "0") :
    readPage current data = .ok (entries, nextKey page current) := by
  obtain ⟨hrt, -, -, hfk, hnk, -, -⟩ := accepted_eq_some.mp haccepted
  simp [readPage, hrt, hok, hrows, BalanceRows.entries, strip_of_get hfk, strip_of_get hnk, nextKey,
    bind, Except.bind, pure, Except.pure]

/-- The loop visits the keys of the chain, and returns the last page with the rows of all. -/
theorem readPages_recorded (hshows : ∀ key, Shows (reply key) (page key)) (fuel : ℕ)
    (current : ContinuationKey) (items : List ι) (visited : List ContinuationKey) :
    readPages (recorded reply) cano acntPrdtCd fuel current (items.map some) visited =
      (walk (nextKey page) fuel current).map fun keys =>
        (.ok { page (keys.getLastD current) with
            output1 := items ++ keys.flatMap fun key => (page key).output1 },
          visited ++ keys) := by
  induction fuel generalizing current items visited with
  | zero => rfl
  | succ fuel ih =>
    obtain ⟨data, entries, hrequest, hrows, haccepted, hok⟩ :=
      requestPage_recorded cano acntPrdtCd (hshows current) (httpRetryCount - 1) visited
    have hread := readPage_shown hrows haccepted hok
    simp only [readPages, hrequest, KisOrder.json, hread]
    cases hnext : nextKey page current with
    | none =>
      rw [KeyChain.walk_last hnext]
      simp [validate_append haccepted]
    | some next =>
      have hentries := (accepted_eq_some.mp haccepted).2.2.2.2.2.1
      have hrest := ih next (items ++ (page current).output1) (visited ++ [current])
      rw [List.map_append, ← hentries] at hrest
      rw [KeyChain.walk_follows hnext]
      simp only [hrest, Option.map_map]
      cases hwalk : walk (nextKey page) fuel next with
      | none => rfl
      | some keys =>
        obtain ⟨rest, rfl⟩ := KeyChain.exists_cons_of_walk hwalk
        simp [List.getLast?_cons]

/-- With enough fuel `get_balance` returns what is on the chain of keys; on a chain that does not
end, it returns nothing. -/
theorem getBalance_recorded (cano acntPrdtCd : String)
    (hshows : ∀ key, Shows (reply key) (page key)) (fuel : ℕ) :
    getBalance (recorded reply) cano acntPrdtCd fuel [] =
      (walk (nextKey page) fuel .first).map fun keys =>
        (.ok { page (keys.getLastD .first) with
            output1 := keys.flatMap fun key => (page key).output1 }, keys) :=
  readPages_recorded hshows fuel .first [] []

theorem eraseDups_of_nodup {keys : List ContinuationKey} (h : keys.Nodup) :
    keys.eraseDups = keys := by
  induction keys with
  | nil => rfl
  | cons key keys ih =>
    obtain ⟨hnew, hrest⟩ := List.nodup_cons.mp h
    have hkept : keys.filter (fun other => !other == key) = keys := by
      refine List.filter_eq_self.mpr fun other hother => ?_
      have hne : other ≠ key := fun heq => hnew (heq ▸ hother)
      simpa using hne
    rw [List.eraseDups_cons, hkept, ih hrest]

/-- The balance is read exactly where the keys run into no cycle. -/
theorem readsOnce_iff (cano acntPrdtCd : String)
    (reply : ContinuationKey → HttpReply (BalanceAnswer ι β))
    (page : ContinuationKey → BalanceResponse ι β) (hshows : ∀ key, Shows (reply key) (page key))
    (hfinite : {key | Relation.ReflTransGen (Follows (nextKey page)) .first key}.Finite) :
    ReadsOnce cano acntPrdtCd reply page ↔ ¬ RunsIntoCycle (nextKey page) .first := by
  rw [← KeyChain.exists_walk_iff hfinite]
  constructor
  · rintro ⟨fuel, response, visited, hrun, -⟩
    rw [getBalance_recorded _ _ hshows, Option.map_eq_some_iff] at hrun
    obtain ⟨keys, hkeys, -⟩ := hrun
    exact ⟨fuel, keys, hkeys⟩
  · rintro ⟨fuel, keys, hkeys⟩
    have hrun := getBalance_recorded cano acntPrdtCd hshows fuel
    rw [hkeys, Option.map_some] at hrun
    refine ⟨fuel, _, keys, hrun, ?_⟩
    rw [eraseDups_of_nodup (KeyChain.nodup_walk hkeys)]

end Pages

/-! ## Two pages that name each other -/

section Samples

/-- The page of a key: `"A"` behind the first, `"B"` behind `"A"`, and `last` behind `"B"`. -/
def pageTo (last : String) (key : ContinuationKey) : BalanceResponse String Unit where
  rtCd := "0"
  msgCd := "MCA00000"
  msg1 := ""
  ctxAreaFk100 := if key.fk100 = "" then "A " else if key.fk100 = "A" then "B" else last
  ctxAreaNk100 := ""
  output1 := [key.fk100]
  output2 := []

def replyTo (last : String) (key : ContinuationKey) : HttpReply (BalanceAnswer String Unit) :=
  let page := pageTo last key
  .response 200 (.object ⟨.text page.rtCd, .text page.msgCd, .text page.msg1,
    .text page.ctxAreaFk100, .text page.ctxAreaNk100, .rows (page.output1.map some),
    some page.output2, ""⟩) "OK"

theorem shows_replyTo (last : String) (key : ContinuationKey) :
    Shows (replyTo last key) (pageTo last key) :=
  ⟨200, _, "OK", _, rfl, rfl, rfl,
    accepted_eq_some.mpr (by simp [JsonField.get, CtxField.get]), rfl⟩

theorem finite_pageTo (last : String) :
    {key | Relation.ReflTransGen (Follows (nextKey (pageTo last))) .first key}.Finite := by
  refine Set.Finite.subset (Set.toFinite
    {.first, ⟨"A", ""⟩, ⟨"B", ""⟩, ⟨String.ofList (Python.strip last), ""⟩}) fun key hreach => ?_
  obtain rfl | ⟨before, -, hstep⟩ := hreach.cases_tail
  · simp
  · rw [eq_of_continuation hstep, pageTo]
    by_cases hempty : before.fk100 = ""
    · simp only [hempty, if_true]
      exact .inr (.inl (by decide +kernel))
    · by_cases hA : before.fk100 = "A"
      · simp only [hA, if_true]
        exact .inr (.inr (.inl (by decide +kernel)))
      · simp only [hempty, hA, if_false]
        exact .inr (.inr (.inr rfl))

/-- Three pages in a row are read. -/
theorem readsOnce_iff_sample : ReadsOnce "12345678" "01" (replyTo "") (pageTo "") ↔
    ¬ RunsIntoCycle (nextKey (pageTo "")) .first :=
  readsOnce_iff "12345678" "01" (replyTo "") (pageTo "") (shows_replyTo "") (finite_pageTo "")

/-- Where the page of `"B"` names `"A"` again, every answer is a success, but the balance is not
returned with any fuel. -/
theorem twoPages_repeat :
    (∀ key, Shows (replyTo "A" key) (pageTo "A" key)) ∧
      {key | Relation.ReflTransGen (Follows (nextKey (pageTo "A"))) .first key}.Finite ∧
      ¬ ReadsOnce "12345678" "01" (replyTo "A") (pageTo "A") := by
  have hfirst : Follows (nextKey (pageTo "A")) .first ⟨"A", ""⟩ := by decide +kernel
  have hnext : Follows (nextKey (pageTo "A")) ⟨"A", ""⟩ ⟨"B", ""⟩ := by decide +kernel
  have hback : Follows (nextKey (pageTo "A")) ⟨"B", ""⟩ ⟨"A", ""⟩ := by decide +kernel
  refine ⟨shows_replyTo "A", finite_pageTo "A", ?_⟩
  rw [readsOnce_iff _ _ _ _ (shows_replyTo "A") (finite_pageTo "A"), not_not]
  exact ⟨⟨"A", ""⟩, .single hfirst, .tail (.single hnext) hback⟩

end Samples

end Autotrading.KisAccount
