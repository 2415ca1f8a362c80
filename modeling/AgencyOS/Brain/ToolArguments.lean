import AgencyOS.Brain.Model
import AgencyOS.Python.Json.RoundTrip

/-!
The arguments of a tool call, from the reply of a provider to the run of the tool.

OpenAI writes them as JSON text, Anthropic and Gemini as decoded objects.  Each client puts them
into a `ToolCall`, whose `arguments` are annotated as `str`, and `Brain._parse_arguments` reads them.
The limits of the interpreter need not be the same in the client and in the brain, which run at
different depths of the stack.

* `Reply`, `Reply.object`: what a provider answers with, and the object it asks for;
* `Reply.toolCallArguments`: what the client of each provider puts into the call;
* `parseRaw`: `_parse_arguments` of whatever is in the call;
* `arguments_survive`: the tool is run with the object exactly for the providers that are not
  Anthropic, as long as the object is within the limits of the interpreter.
-/

namespace Brain

open Python Python.Json

variable {F : Type} (fl : Floats F)

/-- A `dict` with the keys of a JSON object. -/
abbrev Dict (F : Type) : Type := List (Str × Value F)

/-- A decoded JSON object. -/
structure DecodedObject (F : Type) where
  members : Dict F
  proper : (Value.obj members).Proper

/-! ### The brain -/

def Failure.raised : Failure → Raised
  | .recursionError => ⟨.other, "maximum recursion depth exceeded"⟩
  | .valueError => ⟨.valueError, "Exceeds the limit for integer string conversion"⟩
  | .jsonDecodeError => ⟨.jsonDecodeError, ""⟩

/-- `json.loads`, and whether it answers with a `dict`. -/
def loadsDict (l : Limits) (raw : String) : Except Raised (Option (Dict F)) :=
  match loads fl l raw.toList with
  | .ok (.obj members) => .ok (some members)
  | .ok _ => .ok none
  | .error failure => .error (Failure.raised failure)

/-- A world in which JSON is read by `json.loads`. -/
def World.withJson (world : World (Dict F)) (l : Limits) : World (Dict F) :=
  { world with loads := loadsDict fl l, emptyArgs := [] }

/-- What `ToolCall.arguments` holds when the brain reads it: the annotation is not checked. -/
inductive RawArguments (F : Type) where
  | str (text : String)
  | dict (d : Dict F)

/-- `_parse_arguments` of a `str` or a `dict`: only an empty `dict` does not get to `json.loads`. -/
def parseRaw (world : World (Dict F)) : RawArguments F → Except Raised (Dict F)
  | .str text => parseArguments world text
  | .dict [] => .ok []
  | .dict (_ :: _) =>
      .error ⟨.typeError, "the JSON object must be str, bytes or bytearray, not dict"⟩

/-! ### The clients -/

/-- The arguments of a tool call in a reply, in the form of each provider: a text that denotes a JSON
object, or an object that is already decoded. -/
inductive Reply where
  | openai (text : String) (written : Dict F) (h : Denotes fl text.toList (.obj written))
  | anthropic (input : DecodedObject F)
  | gemini (args : DecodedObject F)

variable {fl}

/-- The object that the model asked for. -/
def Reply.object : Reply fl → Dict F
  | openai _ written _ => (OrderedDict.ofItems (dictsMembers written)).items
  | anthropic input => input.members
  | gemini args => args.members

/-- `OpenAIClient.chat`: `arguments=tc.function.arguments`. -/
def openaiArguments (text : String) : RawArguments F := .str text

/-- `AnthropicClient.chat`: `arguments=content.input`. -/
def anthropicArguments (input : Dict F) : RawArguments F := .dict input

variable (fl) in
/-- `_parse_function_calls`: `json.dumps(args) if args is not None else ""`. -/
def geminiArguments (l : Limits) : Option (Dict F) → Except Failure (RawArguments F)
  | some args => (dumps fl l (.obj args)).map fun text => .str (String.ofList text)
  | none => .ok (.str "")

/-- The arguments that the client of the provider puts into the `ToolCall`. -/
def Reply.toolCallArguments (l : Limits) : Reply fl → Except Failure (RawArguments F)
  | openai text _ _ => .ok (openaiArguments text)
  | anthropic input => .ok (anthropicArguments input.members)
  | gemini args => geminiArguments fl l (some args.members)

/-- The arguments get to the tool: the call holds a string, the brain reads it as the object of the
reply, and an authorized call runs the tool with that object. -/
def Reply.Survives (client brain : Limits) (world : World (Dict F)) (reply : Reply fl) : Prop :=
  ∃ text, reply.toolCallArguments client = .ok (.str text) ∧
    parseRaw (world.withJson fl brain) (.str text) = .ok reply.object ∧
    ∀ request step position state id name,
      (execute (world.withJson fl brain) request step position state ⟨id, name, text⟩).events
        = state.events ++ [.execute name reply.object]

/-- The provider sends or gets a text, and the object is within the limits wherever it is written or
read. -/
def Reply.Passes (client brain : Limits) : Reply fl → Prop
  | openai _ written _ => (Value.obj written).check brain = .ok ()
  | anthropic _ => False
  | gemini args =>
      (Value.obj args.members).check client = .ok () ∧ (Value.obj args.members).check brain = .ok ()

/-! ### Reading what was written -/

/-- An authorized call runs the tool with what its arguments were read as. -/
lemma events_execute {Args : Type} {world : World Args} {request : Request} {step position : ℕ}
    {state : State Args} {call : ToolCall} {arguments : Args}
    (h : parseArguments world call.arguments = .ok arguments) :
    (execute world request step position state call).events
      = state.events ++ [.execute call.name arguments] := by
  rw [execute, h]
  dsimp only
  cases world.runTool step position call.name arguments with
  | error raised => rfl
  | ok result =>
      dsimp only
      cases result.text with
      | error raised => rfl
      | ok text => rfl

/-- No text of an object is empty. -/
lemma ne_empty_of_denotes {text : String} {written : Dict F}
    (h : Denotes fl text.toList (.obj written)) : text ≠ "" := by
  rintro rfl
  obtain ⟨rest, hreads, -⟩ := h
  exact nomatch hreads.length_lt

/-- A text of an object is read as its dictionary exactly when the object is within the limits;
otherwise an error is raised, since it is no error of decoding. -/
lemma parseRaw_eq_ok_iff {text : String} {written : Dict F}
    (h : Denotes fl text.toList (.obj written)) (l : Limits) (world : World (Dict F)) :
    parseRaw (world.withJson fl l) (.str text)
        = .ok (OrderedDict.ofItems (dictsMembers written)).items
      ↔ (Value.obj written).check l = .ok () := by
  have hne := ne_empty_of_denotes h
  have hloads : (world.withJson fl l).loads text = loadsDict fl l text := rfl
  rw [parseRaw, parseArguments, if_neg hne, hloads, loadsDict, loads, h.parse]
  rcases hcheck : (Value.obj written).check l with failure | _
  · have hkind : (Failure.raised failure).kind ≠ .jsonDecodeError := by
      cases failure with
      | recursionError => decide
      | valueError => decide
      | jsonDecodeError => exact absurd hcheck ((Value.obj written).check_ne_jsonDecodeError l)
    constructor
    · intro heq
      change (if (Failure.raised failure).kind = .jsonDecodeError then _ else _) = _ at heq
      rw [if_neg hkind] at heq
      cases heq
    · intro heq
      cases heq
  · exact iff_of_true rfl rfl

lemma object_of_proper (d : DecodedObject F) :
    (OrderedDict.ofItems (dictsMembers d.members)).items = d.members := by
  rw [dictsMembers_of_proper d.members d.proper.2, OrderedDict.items_ofItems d.proper.1]

variable (fl) in
/-- What is written of a decoded object denotes it. -/
lemma denotes_render (d : DecodedObject F) :
    Denotes fl (String.ofList (render fl (.obj d.members) [])).toList (.obj d.members) := by
  refine ⟨[], ?_, rfl⟩
  rw [String.toList_ofList, (render_starts (.obj d.members) []).skipWhitespace]
  exact reads_render _ [] d.proper fun c cs heq => nomatch heq

/-- The object of a reply gets to the tool exactly when it passes: through Anthropic's client none
does. -/
theorem arguments_survive (client brain : Limits) (world : World (Dict F)) (reply : Reply fl) :
    reply.Survives client brain world ↔ reply.Passes client brain := by
  cases reply with
  | openai text written h =>
      constructor
      · rintro ⟨_, hcall, hparse, -⟩
        cases hcall
        exact (parseRaw_eq_ok_iff h brain world).1 hparse
      · intro hwithin
        have hparse := (parseRaw_eq_ok_iff h brain world).2 hwithin
        exact ⟨text, rfl, hparse, fun _ _ _ _ _ _ => events_execute hparse⟩
  | anthropic input =>
      constructor
      · rintro ⟨text, hcall, -⟩
        exact nomatch hcall
      · exact nofun
  | gemini args =>
      have hdumps : (Reply.gemini args : Reply fl).toolCallArguments client
          = ((Value.obj args.members).check client).map fun _ =>
              .str (String.ofList (render fl (.obj args.members) [])) := by
        rw [Reply.toolCallArguments, geminiArguments, dumps]
        cases (Value.obj args.members).check client <;> rfl
      have hobject : (Reply.gemini args : Reply fl).object
          = (OrderedDict.ofItems (dictsMembers args.members)).items :=
        (object_of_proper args).symm
      have hparse := parseRaw_eq_ok_iff (denotes_render fl args) brain world
      constructor
      · rintro ⟨text, hcall, hread, -⟩
        rw [hdumps] at hcall
        obtain ⟨_, hclient, htext⟩ := map_eq_ok.1 hcall
        cases htext
        rw [hobject] at hread
        exact ⟨hclient, hparse.1 hread⟩
      · rintro ⟨hclient, hbrain⟩
        have hread := hparse.2 hbrain
        refine ⟨_, by rw [hdumps, hclient]; rfl, by rw [hobject]; exact hread, ?_⟩
        intro request step position state id name
        rw [hobject]
        exact events_execute hread

section Example

/-- Floats where there is none but one. -/
def noFloats : Floats Unit where
  repr _ := .nan
  float _ := ()
  scan_repr _ _ _ _ h := nomatch h
  float_repr _ := rfl

/-- A world in which nothing answers. -/
def silent : World (Dict Unit) where
  repr := id
  loads _ := .ok none
  emptyArgs := []
  chat _ := .error ⟨.other, ""⟩
  runTool _ _ _ _ := .error ⟨.other, ""⟩
  durationMs _ _ := 0

/-- `{"query": "x"}`. -/
def query : DecodedObject Unit where
  members := [("query".toList.map Char.toNat, .str ("x".toList.map Char.toNat))]
  proper := ⟨by decide, by decide, (by decide : properStr ("x".toList.map Char.toNat)), trivial⟩

theorem anthropic_query_lost :
    ¬ (Reply.anthropic query : Reply noFloats).Survives unlimited unlimited silent := by
  rintro ⟨text, hcall, -⟩
  exact nomatch hcall

end Example

end Brain
