import AgencyOS.Python.Collections

/-!
What the Gemini client makes of a conversation.

The calls of a reply get ids from their positions in that reply, and a result is given the name that
the whole conversation has last given to its id.

* `LLMMessage`, `parseFunctionCalls`, `buildContents`: the messages, the calls of a reply, and the
  contents;
* `Turn`, `messages`: conversations in which every call of a reply has its result;
* `name_of_answer`: a result gets the name of the last call with its id;
* `Attached`, `attached_iff`: **results keep the names of their calls, and replies their texts, exactly
  when calls at one position have one name and replies with calls have no text**.
-/

namespace Llm

open Python

/-! ### Messages and replies -/

inductive MessageRole where
  | system | user | assistant | tool
  deriving DecidableEq, Repr

structure ToolCall where
  id : String
  name : String
  arguments : String
  deriving DecidableEq, Repr

/-- A message; no tool calls and an empty list of them are the same to the client. -/
structure LLMMessage where
  role : MessageRole
  content : String
  toolCallId : Option String
  toolCalls : List ToolCall
  deriving DecidableEq, Repr

/-- A function call in a reply. -/
structure FunctionCall (A : Type) where
  id : Option String
  name : String
  args : Option A

/-- The `json` module, without the limits of the interpreter. -/
structure JsonModule (A : Type) where
  dumps : A → String
  loads : String → Option A
  string : String → A

variable {A : Type} (json : JsonModule A)

/-- `_load_json`. -/
def loadJson (raw : String) : A := (json.loads raw).getD (json.string raw)

/-- An empty id is none. -/
def providerId (fn : FunctionCall A) : Option String := fn.id.filter (· ≠ "")

/-- The id of a call that the provider has given none. -/
def positionId (idx : ℕ) : String := "gemini_call_" ++ Nat.repr idx

/-- `_parse_function_calls`: the calls among the parts of the first candidate. -/
def parseFunctionCalls : List (List (Option (FunctionCall A))) → List ToolCall
  | [] => []
  | parts :: _ => parts.zipIdx.filterMap fun part => part.1.map fun fn =>
      { id := (providerId fn).getD (positionId part.2)
        name := fn.name
        arguments := (fn.args.map json.dumps).getD "" }

/-! ### Contents -/

inductive Part (A : Type) where
  | functionCall (name : String) (args : A)
  | functionResponse (name output : String)
  | text (content : String)

structure Content (A : Type) where
  role : String
  parts : List (Part A)

/-- `_role`. -/
def roleName : MessageRole → String
  | .system => "model"
  | .user => "user"
  | .assistant => "model"
  | .tool => "user"

/-- The names that the assistant messages give to ids. -/
def nameById (messages : List LLMMessage) : Dict String String :=
  .ofItems ((messages.filter fun m => m.role = .assistant).flatMap fun m =>
    m.toolCalls.map fun tc => (tc.id, tc.name))

/-- The content of one message: its calls if it has any, else the result that it is, else its text. -/
def content (names : Dict String String) (m : LLMMessage) : Content A :=
  if m.toolCalls ≠ [] then
    ⟨"model", m.toolCalls.map fun tc => .functionCall tc.name (loadJson json tc.arguments)⟩
  else
    match m.toolCallId.filter (· ≠ "") with
    | some id => ⟨"user", [.functionResponse (names.getD id id) m.content]⟩
    | none => ⟨roleName m.role, [.text m.content]⟩

/-- `_build_contents`. -/
def buildContents (messages : List LLMMessage) : List (Content A) :=
  (messages.filter fun m => m.role ≠ .system).map (content json (nameById messages))

/-! ### Conversations -/

/-- A reply, of which no call has an id from the provider. -/
structure Reply (A : Type) where
  text : String
  parts : List (Option (FunctionCall A))
  anonymous : ∀ fn, some fn ∈ parts → providerId fn = none

/-- The call at a position of a reply. -/
def Reply.callAt (r : Reply A) (idx : ℕ) : Option (FunctionCall A) := r.parts[idx]?.join

/-- The calls of a reply. -/
def Reply.calls (r : Reply A) : List ToolCall := parseFunctionCalls json [r.parts]

/-- A turn of a conversation: something said by the system or the user, or a reply with the results of
its calls, one for each call. -/
inductive Turn where
  | system (text : String)
  | user (text : String)
  | reply (r : Reply A) (answers : List (ToolCall × String))
      (answered : (answers.map Prod.fst).Perm (r.calls json))

namespace Turn

variable {json}

/-- The reply of a turn. -/
def reply? : Turn json → Option (Reply A)
  | reply r _ _ => some r
  | _ => none

/-- The calls of a turn with their results. -/
def answers : Turn json → List (ToolCall × String)
  | reply _ answers _ => answers
  | _ => []

/-- The messages of a turn. -/
def messages : Turn json → List LLMMessage
  | system text => [⟨.system, text, none, []⟩]
  | user text => [⟨.user, text, none, []⟩]
  | reply r answers _ => ⟨.assistant, r.text, none, r.calls json⟩
      :: answers.map fun answer => ⟨.tool, answer.2, some answer.1.id, []⟩

end Turn

/-- The messages of a conversation. -/
def messages {json : JsonModule A} (conversation : List (Turn json)) : List LLMMessage :=
  conversation.flatMap Turn.messages

/-- The results in the contents, each with its name. -/
def responses (contents : List (Content A)) : List (String × String) :=
  contents.flatMap fun c => c.parts.filterMap fun
    | .functionResponse name output => some (name, output)
    | _ => none

/-- The texts of the model in the contents. -/
def modelTexts (contents : List (Content A)) : List String :=
  (contents.filter fun c => c.role = "model").flatMap fun c => c.parts.filterMap fun
    | .text content => some content
    | _ => none

/-- What is promised of the contents: each result has the name of the call that it answers, and no text
of a reply is lost unless it is empty. -/
structure Attached {json : JsonModule A} (conversation : List (Turn json)) : Prop where
  named : responses (buildContents json (messages conversation))
    = conversation.flatMap fun turn => turn.answers.map fun answer => (answer.1.name, answer.2)
  kept : (modelTexts (buildContents json (messages conversation))).filter (· ≠ "")
    = (conversation.filterMap fun turn => turn.reply?.map Reply.text).filter (· ≠ "")

/-! ### Calls and their ids -/

/-- Positions have ids of their own. -/
lemma positionId_injective : Function.Injective positionId := by
  intro m n h
  have hlist : "gemini_call_".toList ++ Nat.toDigits 10 m = "gemini_call_".toList ++ Nat.toDigits 10 n := by
    rw [← Nat.toList_repr, ← Nat.toList_repr, ← String.toList_append, ← String.toList_append]
    exact congrArg String.toList h
  have hdigits := List.append_cancel_left hlist
  calc m = Nat.ofDigitChars 10 (Nat.toDigits 10 m) 0 := (Nat.ofDigitChars_toDigits (by decide) le_rfl).symm
    _ = Nat.ofDigitChars 10 (Nat.toDigits 10 n) 0 := by rw [hdigits]
    _ = n := Nat.ofDigitChars_toDigits (by decide) le_rfl

lemma positionId_ne_empty (idx : ℕ) : positionId idx ≠ "" := by
  intro h
  have hlist := congrArg String.toList h
  simp [positionId] at hlist

variable {json}

/-- The calls of a reply are those at its positions, with the ids of these. -/
lemma mem_calls {r : Reply A} {tc : ToolCall} : tc ∈ r.calls json
    ↔ ∃ idx fn, r.callAt idx = some fn ∧ tc = ⟨positionId idx, fn.name, (fn.args.map json.dumps).getD ""⟩ := by
  simp only [Reply.calls, parseFunctionCalls, List.mem_filterMap, Option.map_eq_some_iff, Prod.exists,
    List.mem_zipIdx_iff_getElem?]
  constructor
  · rintro ⟨part, idx, hpart, fn, rfl, rfl⟩
    have hnone := r.anonymous fn (List.mem_of_getElem? hpart)
    refine ⟨idx, fn, by rw [Reply.callAt, hpart, Option.join_some], ?_⟩
    rw [hnone, Option.getD_none]
  · rintro ⟨idx, fn, hfn, rfl⟩
    have hpart : r.parts[idx]? = some (some fn) := Option.join_eq_some_iff.mp hfn
    have hnone := r.anonymous fn (List.mem_of_getElem? hpart)
    refine ⟨some fn, idx, hpart, fn, rfl, ?_⟩
    rw [hnone, Option.getD_none]

/-- All calls of a conversation. -/
def allCalls (conversation : List (Turn json)) : List ToolCall :=
  conversation.flatMap fun turn => (turn.reply?.map (Reply.calls json)).getD []

lemma mem_allCalls {conversation : List (Turn json)} {tc : ToolCall} : tc ∈ allCalls conversation
    ↔ ∃ turn ∈ conversation, ∃ r, turn.reply? = some r ∧ tc ∈ r.calls json := by
  rw [allCalls, List.mem_flatMap]
  refine exists_congr fun turn => and_congr_right fun _ => ?_
  cases turn.reply? with
  | none => simp
  | some r => simp

/-- Every call has its result, and every result its call. -/
lemma map_fst_answers (turn : Turn json) :
    (turn.answers.map Prod.fst).Perm ((turn.reply?.map (Reply.calls json)).getD []) := by
  cases turn with
  | reply r answers answered => exact answered
  | system | user => exact List.Perm.refl []

/-- The calls of the assistant messages are the calls of the replies. -/
lemma nameById_messages (conversation : List (Turn json)) :
    nameById (messages conversation)
      = Dict.ofItems ((allCalls conversation).map fun tc => (tc.id, tc.name)) := by
  have hturn : ∀ turn : Turn json, ((turn.messages.filter fun m => m.role = .assistant).flatMap fun m =>
      m.toolCalls.map fun tc => (tc.id, tc.name))
        = ((turn.reply?.map (Reply.calls json)).getD []).map fun tc => (tc.id, tc.name) := by
    intro turn
    cases turn with
    | reply r answers answered => simp [Turn.messages, Turn.reply?, List.filter_map, Function.comp_def]
    | system | user => rfl
  rw [nameById, messages, allCalls, List.filter_flatMap, List.flatMap_assoc, List.map_flatMap]
  simp only [hturn]

/-! ### What the contents are made of -/

/-- The contents of a conversation are those of its turns. -/
lemma buildContents_messages (conversation : List (Turn json)) :
    buildContents json (messages conversation) = conversation.flatMap fun turn =>
      (turn.messages.filter fun m => m.role ≠ .system).map
        (content json (nameById (messages conversation))) := by
  rw [buildContents, messages, List.filter_flatMap, List.map_flatMap]

/-- The contents of a turn. -/
def Turn.contents (names : Dict String String) (turn : Turn json) : List (Content A) :=
  (turn.messages.filter fun m => m.role ≠ .system).map (content json names)

/-- The call of a result has an id. -/
lemma id_ne_empty (turn : Turn json) {answer : ToolCall × String} (h : answer ∈ turn.answers) :
    answer.1.id ≠ "" := by
  have hcall := (map_fst_answers turn).mem_iff.mp (List.mem_map_of_mem h)
  cases hr : turn.reply? with
  | none =>
      rw [hr] at hcall
      cases hcall
  | some r =>
      rw [hr] at hcall
      obtain ⟨idx, fn, -, heq⟩ := mem_calls.mp hcall
      rw [heq]
      exact positionId_ne_empty idx

/-- The content of a reply: its calls if it has any, else its text. -/
lemma content_reply (names : Dict String String) (text : String) (calls : List ToolCall) :
    content json names ⟨.assistant, text, none, calls⟩ = ⟨"model",
      if calls ≠ [] then calls.map fun tc => .functionCall tc.name (loadJson json tc.arguments)
      else [.text text]⟩ := by
  rw [content]
  split_ifs <;> rfl

/-- The content of a result. -/
lemma content_answer (names : Dict String String) {id : String} (h : id ≠ "") (output : String) :
    content json names ⟨.tool, output, some id, []⟩
      = ⟨"user", [.functionResponse (names.getD id id) output]⟩ := by
  simp [content, Option.filter, h]

/-- The contents of a reply with its results. -/
lemma contents_reply (names : Dict String String) (r : Reply A) (answers : List (ToolCall × String))
    (answered : (answers.map Prod.fst).Perm (r.calls json)) :
    (Turn.reply r answers answered).contents names
      = content json names ⟨.assistant, r.text, none, r.calls json⟩
        :: answers.map fun answer =>
          ⟨"user", [.functionResponse (names.getD answer.1.id answer.1.id) answer.2]⟩ := by
  have hanswer : ∀ answer ∈ answers, content json names ⟨.tool, answer.2, some answer.1.id, []⟩
      = ⟨"user", [.functionResponse (names.getD answer.1.id answer.1.id) answer.2]⟩ :=
    fun answer h => content_answer names (id_ne_empty (Turn.reply r answers answered) h) _
  rw [Turn.contents, Turn.messages, List.filter_eq_self.mpr, List.map_cons, List.map_map]
  · exact congrArg _ (List.map_congr_left hanswer)
  · intro m hm
    rcases List.mem_cons.mp hm with rfl | hm
    · rfl
    · obtain ⟨answer, -, rfl⟩ := List.mem_map.mp hm
      rfl

/-- A result gets the name of its id. -/
lemma responses_contents (names : Dict String String) (turn : Turn json) :
    responses (turn.contents names)
      = turn.answers.map fun answer => (names.getD answer.1.id answer.1.id, answer.2) := by
  cases turn with
  | system | user => rfl
  | reply r answers answered =>
      rw [contents_reply, content_reply, responses, List.flatMap_cons, List.flatMap_map]
      have hreply : (if r.calls json ≠ [] then (r.calls json).map fun tc =>
          (Part.functionCall tc.name (loadJson json tc.arguments) : Part A)
          else [.text r.text]).filterMap (fun
            | .functionResponse name output => some (name, output)
            | _ => none) = [] := by
        split_ifs
        · rw [List.filterMap_map]
          exact List.filterMap_eq_nil_iff.mpr fun _ _ => rfl
        · rfl
      rw [hreply, List.nil_append]
      rw [Turn.answers, List.map_eq_flatMap]
      rfl

/-- The texts of a turn that are kept: that of a reply without calls. -/
lemma modelTexts_contents (names : Dict String String) (turn : Turn json) :
    modelTexts (turn.contents names)
      = (turn.reply?.filter fun r => (r.calls json).isEmpty).toList.map Reply.text := by
  cases turn with
  | system | user => rfl
  | reply r answers answered =>
      rw [contents_reply, content_reply, modelTexts, List.filter_cons_of_pos rfl, List.flatMap_cons]
      have hanswers : (answers.map fun answer => (⟨"user", [.functionResponse
          (names.getD answer.1.id answer.1.id) answer.2]⟩ : Content A)).filter
            (fun c => c.role = "model") = [] := by
        rw [List.filter_map, List.filter_eq_nil_iff.mpr fun _ _ => by simp, List.map_nil]
      rw [hanswers, List.flatMap_nil, List.append_nil]
      cases hcalls : r.calls json with
      | nil => simp [Turn.reply?, Option.filter, hcalls]
      | cons tc tcs => simp [Turn.reply?, Option.filter, hcalls]

/-- **The name of a result is that which the conversation has last given to the id of its call.** -/
theorem name_of_answer (conversation : List (Turn json)) :
    responses (buildContents json (messages conversation)) = conversation.flatMap fun turn =>
      turn.answers.map fun answer =>
        ((nameById (messages conversation)).getD answer.1.id answer.1.id, answer.2) := by
  rw [buildContents_messages]
  have hturns : responses (conversation.flatMap fun turn =>
      turn.contents (nameById (messages conversation)))
        = conversation.flatMap fun turn => responses (turn.contents (nameById (messages conversation))) :=
    List.flatMap_assoc
  exact hturns.trans (by simp only [responses_contents])

/-- The texts that are kept are those of the replies without calls. -/
lemma modelTexts_buildContents (conversation : List (Turn json)) :
    modelTexts (buildContents json (messages conversation)) = conversation.flatMap fun turn =>
      (turn.reply?.filter fun r => (r.calls json).isEmpty).toList.map Reply.text := by
  rw [buildContents_messages]
  have hturns : modelTexts (conversation.flatMap fun turn =>
      turn.contents (nameById (messages conversation)))
        = conversation.flatMap fun turn => modelTexts (turn.contents (nameById (messages conversation))) := by
    rw [modelTexts, List.filter_flatMap, List.flatMap_assoc]
    rfl
  exact hturns.trans (by simp only [modelTexts_contents])

/-! ### When results stay attached -/

/-- Concatenations of pieces, each no longer than its counterpart, agree only piece by piece. -/
lemma flatMap_eq_iff {α β : Type} {f g : α → List β} {l : List α}
    (h : ∀ x ∈ l, (f x).length ≤ (g x).length) : l.flatMap f = l.flatMap g ↔ ∀ x ∈ l, f x = g x := by
  constructor
  · intro heq
    induction l with
    | nil => exact fun x hx => by cases hx
    | cons x l ih =>
        have hle : (l.flatMap f).length ≤ (l.flatMap g).length := by
          rw [List.length_flatMap, List.length_flatMap]
          exact List.sum_le_sum fun y hy => h y (List.mem_cons_of_mem x hy)
        rw [List.flatMap_cons, List.flatMap_cons] at heq
        have hlength := congrArg List.length heq
        rw [List.length_append, List.length_append] at hlength
        have hx := h x List.mem_cons_self
        obtain ⟨hfirst, hrest⟩ := List.append_inj heq (by omega)
        rintro y hy
        rcases List.mem_cons.mp hy with rfl | hy
        · exact hfirst
        · exact ih (fun y hy => h y (List.mem_cons_of_mem x hy)) hrest y hy
  · intro heq
    exact List.flatMap_congr heq

/-- Results have the names of their calls exactly when calls with one id have one name. -/
lemma named_iff (conversation : List (Turn json)) :
    (responses (buildContents json (messages conversation))
        = conversation.flatMap fun turn => turn.answers.map fun answer => (answer.1.name, answer.2))
      ↔ ∀ tc ∈ allCalls conversation, ∀ tc' ∈ allCalls conversation, tc.id = tc'.id →
          tc.name = tc'.name := by
  rw [name_of_answer, flatMap_eq_iff fun turn _ => by simp]
  have hlookup : ∀ tc ∈ allCalls conversation, ∃ last ∈ allCalls conversation, last.id = tc.id
      ∧ (nameById (messages conversation)).getD tc.id tc.id = last.name := by
    intro tc htc
    rw [nameById_messages, Dict.getD, Dict.lookup_ofItems]
    cases hfind : (((allCalls conversation).map fun tc => (tc.id, tc.name)).reverse.find? fun item =>
        item.1 = tc.id) with
    | none =>
        rw [List.find?_eq_none] at hfind
        have hmem := List.mem_reverse.mpr (List.mem_map_of_mem (f := fun tc => (tc.id, tc.name)) htc)
        exact absurd (hfind _ hmem) (by simp)
    | some item =>
        obtain ⟨last, hlast, heq⟩ := List.mem_map.mp (List.mem_reverse.mp (List.mem_of_find?_eq_some hfind))
        have hid : item.1 = tc.id := by simpa using List.find?_some hfind
        subst heq
        exact ⟨last, hlast, hid, rfl⟩
  have hanswers : ∀ turn ∈ conversation, ∀ answer ∈ turn.answers, answer.1 ∈ allCalls conversation := by
    intro turn hturn answer hanswer
    exact List.mem_flatMap.mpr
      ⟨turn, hturn, (map_fst_answers turn).mem_iff.mp (List.mem_map_of_mem hanswer)⟩
  constructor
  · intro heq tc htc
    -- every call has the name found for its id, which is the same for calls with one id
    have hname : ∀ tc ∈ allCalls conversation,
        (nameById (messages conversation)).getD tc.id tc.id = tc.name := by
      intro tc htc
      obtain ⟨turn, hturn, hcall⟩ := List.mem_flatMap.mp htc
      obtain ⟨answer, hanswer, rfl⟩ := List.mem_map.mp ((map_fst_answers turn).mem_iff.mpr hcall)
      exact congrArg Prod.fst (List.map_inj_left.mp (heq turn hturn) answer hanswer)
    intro tc' htc' hid
    calc tc.name = (nameById (messages conversation)).getD tc.id tc.id := (hname tc htc).symm
      _ = (nameById (messages conversation)).getD tc'.id tc'.id := by rw [hid]
      _ = tc'.name := hname tc' htc'
  · intro hagree turn hturn
    refine List.map_congr_left fun answer hanswer => ?_
    have hmem := hanswers turn hturn answer hanswer
    obtain ⟨last, hlast, hid, hfound⟩ := hlookup answer.1 hmem
    rw [hfound, hagree last hlast answer.1 hmem hid]

/-- The texts of replies are kept exactly when replies with calls have none. -/
lemma texts_kept_iff (conversation : List (Turn json)) :
    ((modelTexts (buildContents json (messages conversation))).filter (· ≠ "")
        = (conversation.filterMap fun turn => turn.reply?.map Reply.text).filter (· ≠ ""))
      ↔ ∀ turn ∈ conversation, ∀ r, turn.reply? = some r → r.calls json ≠ [] → r.text = "" := by
  have hreplies : conversation.filterMap (fun turn => turn.reply?.map Reply.text)
      = conversation.flatMap fun turn => turn.reply?.toList.map Reply.text := by
    rw [List.filterMap_eq_flatMap_toList]
    exact List.flatMap_congr fun turn _ => Option.toList_map
  rw [modelTexts_buildContents, hreplies, List.filter_flatMap, List.filter_flatMap, flatMap_eq_iff]
  · refine forall₂_congr fun turn _ => ?_
    cases turn.reply? with
    | none => simp
    | some r =>
        cases hcalls : r.calls json with
        | nil => simp [Option.filter, hcalls]
        | cons tc tcs => simp [Option.filter, hcalls]
  · intro turn _
    cases turn.reply? with
    | none => simp
    | some r =>
        cases hcalls : r.calls json with
        | nil => simp [Option.filter, hcalls]
        | cons tc tcs => simp [Option.filter, hcalls]

/-- **The contents of a conversation.**  Every result has the name of its call, and no text of a reply
is lost, exactly when the calls at one position of the replies have one name, and the replies with
calls have no text. -/
theorem attached_iff (conversation : List (Turn json)) : Attached conversation
    ↔ (∀ turn ∈ conversation, ∀ turn' ∈ conversation, ∀ r r', turn.reply? = some r →
        turn'.reply? = some r' → ∀ idx fn fn', r.callAt idx = some fn → r'.callAt idx = some fn' →
          fn.name = fn'.name)
      ∧ ∀ turn ∈ conversation, ∀ r, turn.reply? = some r → (∃ idx fn, r.callAt idx = some fn) →
          r.text = "" := by
  have hiff : Attached conversation ↔ _ ∧ _ := ⟨fun h => ⟨h.named, h.kept⟩, fun h => ⟨h.1, h.2⟩⟩
  rw [hiff, named_iff, texts_kept_iff]
  refine and_congr ⟨fun h => ?_, fun h => ?_⟩ (forall₂_congr fun turn _ => forall₂_congr fun r _ => ?_)
  · intro turn hturn turn' hturn' r r' hr hr' idx fn fn' hfn hfn'
    exact h _ (mem_allCalls.mpr ⟨turn, hturn, r, hr, mem_calls.mpr ⟨idx, fn, hfn, rfl⟩⟩)
      _ (mem_allCalls.mpr ⟨turn', hturn', r', hr', mem_calls.mpr ⟨idx, fn', hfn', rfl⟩⟩) rfl
  · intro tc htc tc' htc' hid
    obtain ⟨turn, hturn, r, hr, hcall⟩ := mem_allCalls.mp htc
    obtain ⟨turn', hturn', r', hr', hcall'⟩ := mem_allCalls.mp htc'
    obtain ⟨idx, fn, hfn, rfl⟩ := mem_calls.mp hcall
    obtain ⟨idx', fn', hfn', rfl⟩ := mem_calls.mp hcall'
    obtain rfl := positionId_injective hid
    exact h turn hturn turn' hturn' r r' hr hr' idx fn fn' hfn hfn'
  · refine imp_congr_left ?_
    constructor
    · intro hcalls
      obtain ⟨tc, htc⟩ := List.exists_mem_of_ne_nil _ hcalls
      obtain ⟨idx, fn, hfn, -⟩ := mem_calls.mp htc
      exact ⟨idx, fn, hfn⟩
    · rintro ⟨idx, fn, hfn⟩
      exact List.ne_nil_of_mem (mem_calls.mpr ⟨idx, fn, hfn, rfl⟩)

/-- A reply that is one call, with a text. -/
def callOf (text name : String) : Reply Unit :=
  ⟨text, [some ⟨none, name, none⟩], fun fn h => by
    obtain rfl := Option.some_injective _ (List.mem_singleton.mp h)
    rfl⟩

/-- The turn of a reply that is one call, with its result. -/
def callTurn (json : JsonModule Unit) (text name output : String) : Turn json :=
  .reply (callOf text name) [(⟨positionId 0, name, ""⟩, output)] (List.Perm.refl _)

/-- A search for leads and then one of the web: the result of the first is sent under the name of the
second. -/
theorem not_attached_twoSearches : ¬ ∀ (json : JsonModule Unit) (conversation : List (Turn json)),
    Attached conversation := by
  intro h
  have hattached := h ⟨fun _ => "", fun _ => none, fun _ => ()⟩
    [.user "Find plumbers", callTurn _ "" "lead_search" "0 leads", callTurn _ "" "web_search" "3 pages"]
  have hnames := (attached_iff _).mp hattached
  exact absurd (hnames.1 _ (List.mem_cons_of_mem _ List.mem_cons_self) _
    (List.mem_cons_of_mem _ (List.mem_cons_of_mem _ List.mem_cons_self)) _ _ rfl rfl 0 _ _ rfl rfl)
    (by decide)

end Llm
