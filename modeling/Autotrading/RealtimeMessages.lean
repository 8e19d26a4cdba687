import Autotrading.KisRealtime
import Autotrading.PythonDict

/-!
# Which messages the realtime client survives

`on_message` catches that a text is no JSON, and that a record has no valid fields. It returns for
a message exactly if the message is harmless; an exception ends the receive loop.
-/
namespace Autotrading.KISRealtimeClient

open JsonText (Json)

/-- The third of the four parts of a frame. -/
def countField (message : List Char) : Option (List Char) :=
  match splitMax '|' 3 message with
  | [_, _, count, _] => some count
  | _ => none

/-- A frame of four parts has a count that `int` reads. -/
def HarmlessFrame (message : List Char) : Prop :=
  ∀ count, countField message = some count → (Python.parseInt? count).isSome = true

/-- The value is an object; its header is one; and if it is no ping, its body is one, and behind
a return code `"0"` or `"1"` the output is one, with texts that can be formatted. A missing object
counts as one. -/
def HarmlessJson (python : Interpreter) (data : Json) : Prop :=
  ∃ members, data = .obj members ∧ ∃ header, member members "header" (.obj []) = .obj header ∧
    (isText (member header "tr_id" .null) pingpongTrId = true ∨
      ∃ body, member members "body" (.obj []) = .obj body ∧
        (isText (member body "rt_cd" .null) "0" = true ∨
            isText (member body "rt_cd" .null) "1" = true →
          ∃ output, member body "output" (.obj []) = .obj output ∧
            python.formats (member header "tr_id" .null) = true ∧
            python.formats (member output "msg1" (.str [])) = true))

/-- A frame is harmless by its count, any other text if it is no JSON or a harmless value. -/
def Harmless (python : Interpreter) (message : String) : Prop :=
  if isFrame message.toList = true then HarmlessFrame message.toList
  else
    JsonText.loads python.nesting message.toList = .error .decode ∨
      ∃ data, JsonText.loads python.nesting message.toList = .ok data ∧ HarmlessJson python data

/-! ## Frames -/

theorem length_record {allFields : List (List Char)} {start count : ℕ}
    (h : start + count ≤ allFields.length) :
    (((allFields.take (start + count)).drop start).map String.ofList).length = count := by
  simp only [List.length_map, List.length_drop, List.length_take]
  omega

/-- No record raises: each is cut out with as many fields as the class has. -/
theorem succeeds_priceRecords (allFields : List (List Char)) (count i : ℕ) :
    Succeeds (priceRecords allFields count i) := by
  induction count generalizing i with
  | zero => exact ⟨[], rfl⟩
  | succ count ih =>
    obtain ⟨prices, hprices⟩ := ih (i + 1)
    rw [priceRecords]
    split
    · exact ⟨[], rfl⟩
    · next hfields =>
      have hlength := length_record (not_lt.mp hfields)
      obtain ⟨price, hprice, -⟩ := KisRealtimePrice.exists_fromFields
        (le_of_eq (hlength.symm : KisRealtimePrice.modelFields.length = _))
      simp only [hprice, hprices]
      exact ⟨price :: prices, rfl⟩

/-- A frame is handled exactly if its count is one. -/
theorem succeeds_handleRealtimeData_iff (message : List Char) :
    Succeeds (handleRealtimeData message) ↔ HarmlessFrame message := by
  rw [handleRealtimeData, HarmlessFrame, countField]
  generalize splitMax '|' 3 message = parts
  obtain _ | ⟨encrypted, _ | ⟨trId, _ | ⟨count, _ | ⟨dataStr, _ | ⟨more, rest⟩⟩⟩⟩⟩ := parts
  case cons.cons.cons.cons.nil =>
    simp only [Option.some.injEq, forall_eq']
    cases hcount : Python.parseInt? count with
    | none => simp
    | some n =>
      by_cases hencrypted : encrypted = ['1']
      · simp [hencrypted]
      · simpa [hencrypted] using succeeds_priceRecords _ _ _
  all_goals simp

/-! ## JSON values -/

theorem bind_get_obj {γ : Type} {members : List (List ℕ × Json)} {default : Json} {key : String}
    {next : Json → Except PyExc γ} :
    (get (.obj members) key default >>= next) = next (member members key default) := rfl

/-- Only an object has a member to get. -/
theorem succeeds_bind_get {γ : Type} {value default : Json} {key : String}
    {next : Json → Except PyExc γ} :
    Succeeds (get value key default >>= next) ↔
      ∃ members, value = .obj members ∧ Succeeds (next (member members key default)) := by
  cases value <;> simp [get, bind, Except.bind]

theorem succeeds_bind_format {γ : Type} {python : Interpreter} {value : Json}
    {next : Unit → Except PyExc γ} :
    Succeeds (format python value >>= next) ↔
      python.formats value = true ∧ Succeeds (next ()) := by
  by_cases h : python.formats value = true <;> simp [format, h, bind, Except.bind]

/-- A value is handled exactly if it is harmless. -/
theorem succeeds_handleJson_iff (python : Interpreter) (data : Json) :
    Succeeds (handleJson python data) ↔ HarmlessJson python data := by
  unfold handleJson HarmlessJson
  rw [succeeds_bind_get]
  refine exists_congr fun members => and_congr_right fun hdata => ?_
  rw [succeeds_bind_get]
  refine exists_congr fun header => and_congr_right fun _ => ?_
  by_cases hping : isText (member header "tr_id" .null) pingpongTrId = true
  · rw [if_pos hping]
    exact iff_of_true ⟨true, rfl⟩ (.inl hping)
  rw [if_neg hping, hdata, bind_get_obj, or_iff_right hping, succeeds_bind_get]
  refine exists_congr fun body => and_congr_right fun hbody => ?_
  by_cases hcode : isText (member body "rt_cd" .null) "0" = true ∨
      isText (member body "rt_cd" .null) "1" = true
  · rw [if_pos (by simpa using hcode), hbody, bind_get_obj, succeeds_bind_get,
      forall_prop_of_true hcode]
    refine exists_congr fun output => and_congr_right fun _ => ?_
    rw [succeeds_bind_format, succeeds_bind_format]
    exact and_congr_right fun _ => and_iff_left ⟨false, rfl⟩
  · rw [if_neg (by simpa using hcode)]
    exact iff_of_true ⟨false, rfl⟩ fun h => absurd h hcode

/-! ## Messages -/

/-- `on_message` returns for a text exactly if it is harmless. -/
theorem succeeds_onMessage_iff (python : Interpreter) (message : String) :
    Succeeds (onMessage python true (.text message)) ↔ Harmless python message := by
  rw [onMessage, Harmless]
  by_cases hframe : isFrame message.toList = true
  · rw [if_pos hframe, if_pos hframe, ← succeeds_handleRealtimeData_iff]
    exact succeeds_bind_pure
  · rw [if_neg hframe, if_neg hframe]
    cases hloads : JsonText.loads python.nesting message.toList with
    | error fault => cases fault <;> simp
    | ok data =>
      simp only [reduceCtorEq, false_or, Except.ok.injEq, exists_eq_left']
      rw [← succeeds_handleJson_iff, ← and_true (Succeeds (handleJson python data))]
      -- a socket that is open sends every ping back
      refine succeeds_bind fun ping _ => iff_true_intro ?_
      cases ping <;> simp

/-- The receive loop gets through the texts of a connection exactly if they are harmless. -/
theorem succeeds_receive_iff (python : Interpreter) (messages : List String) :
    Succeeds (receive python (messages.map .text)) ↔
      ∀ message ∈ messages, Harmless python message := by
  rw [receive, succeeds_bind_pure]
  constructor
  · rintro ⟨sent, hsent⟩ message hmem
    obtain ⟨reply, -, hreply⟩ := exists_of_mapM_ok hsent (List.mem_map_of_mem hmem)
    exact (succeeds_onMessage_iff python message).mp ⟨reply, hreply⟩
  · intro hharmless
    refine exists_mapM_ok fun message hmem => ?_
    obtain ⟨s, hs, rfl⟩ := List.mem_map.mp hmem
    exact (succeeds_onMessage_iff python s).mpr (hharmless s hs)

/-- `on_message` returns for the harmless texts and for no other, and so the receive loop gets
through the texts of a connection exactly if all of them are harmless. -/
theorem survives_iff (python : Interpreter) :
    (∀ message, Succeeds (onMessage python true (.text message)) ↔ Harmless python message) ∧
      ∀ messages : List String, Succeeds (receive python (messages.map .text)) ↔
        ∀ message ∈ messages, Harmless python message :=
  ⟨succeeds_onMessage_iff python, succeeds_receive_iff python⟩

/-- An interpreter that nests a thousand arrays and objects, and formats every value. -/
def Interpreter.sample : Interpreter := ⟨1000, fun _ => true⟩

/-- A frame whose count is no number, and a JSON text that is no object, end the receive loop. -/
theorem malformed_raises :
    ¬ Succeeds (onMessage .sample true (.text "0|H0STCNT0|abc|005930^102219^70100")) ∧
      ¬ Succeeds (onMessage .sample true (.text "null")) := by
  constructor
  · rw [succeeds_onMessage_iff, Harmless, if_pos (by decide +kernel)]
    intro hharmless
    have hcount := hharmless ['a', 'b', 'c'] (by decide +kernel)
    exact absurd hcount (by decide +kernel)
  · have hloads : JsonText.loads Interpreter.sample.nesting "null".toList = .ok .null := rfl
    rw [succeeds_onMessage_iff, Harmless, if_neg (by decide +kernel), hloads]
    rintro (hdecode | ⟨data, hdata, members, hobject, -⟩)
    · cases hdecode
    · rw [← Except.ok.inj hdata] at hobject
      cases hobject

end Autotrading.KISRealtimeClient
