import AgencyOS.Python.Json.Compare
import AgencyOS.Python.Json.Compact

/-!
Paths, guards and templates of the builtin execution engine.

Definitions and inputs are JSON values.  What the interpreter can raise is `BuiltinExecutionError`, with
what its message says, or another exception of Python, by its class.  Numbers are compared through
`real`, and floats written through `fl`.

* `resolve`: a dotted path against the context;
* `Op`, `validateGuard`, `evaluateGuard`: guards;
* `renderTemplate`: the `{{ path ?? default }}` of a text.
-/

namespace Builtin

open Python Python.Json

variable {F : Type}

/-- The code points of a text. -/
def text (s : String) : Str := points s.toList

/-! ### Errors -/

/-- The part of a definition that an error names. -/
inductive Place where
  | guardPath | stepFrom | stepTo | stepKey | outputKey
  deriving DecidableEq, Repr

/-- What a `BuiltinExecutionError` says. -/
inductive BuiltinError (F : Type) where
  | stepLimit (limit : ℕ)
  | emptyPath (place : Place)
  | pathSegment (place : Place) (part : Str)
  | emptyKey (place : Place)
  | guardNotObject
  | guardOp
  | guardListValue (op : Str)
  | stepNotObject
  | unknownStepType (type : Value F)
  | keyNotString
  | setFields
  | copyFields
  | conditionGuard
  | thenNotList
  | elseNotList
  | depthLimit (limit : ℕ)
  | errorMessage
  | errorGuard
  | definitionNotObject
  | stepsNotList
  | resolveSegment (part : Str)
  | templateLength (limit : ℕ)
  | templatePath (path : Str)
  | notComparable (path : Str)
  | notContains (path : Str)
  | unsupportedOp (op : Value F)
  | copySource (path : Str)
  | raised (message : Value F)
  | resultSize (limit : ℕ)
  | outputKey (key : Str)

/-- What is raised. -/
inductive Exn (F : Type) where
  | builtin (e : BuiltinError F)
  | keyError
  | typeError
  | attributeError
  | recursionError
  | valueError

/-- `raise BuiltinExecutionError(..)`. -/
def fault {α : Type} (e : BuiltinError F) : Except (Exn F) α := .error (.builtin e)

/-! ### Members of objects -/

/-- `members.get(key)`. -/
def get (members : List (Str × Value F)) (key : String) : Value F :=
  (members.lookup (text key)).getD .null

/-- `key in members`. -/
def has (members : List (Str × Value F)) (key : String) : Bool := (members.lookup (text key)).isSome

/-- `value[key]`: of what is no object, a string is no index. -/
def item (value : Value F) (key : String) : Except (Exn F) (Value F) :=
  match value with
  | .obj members =>
      match members.lookup (text key) with
      | some v => .ok v
      | none => .error .keyError
  | _ => .error .typeError

/-! ### Paths -/

/-- `[A-Za-z0-9_]`. -/
def isKeyPoint (c : ℕ) : Bool :=
  (0x30 ≤ c && c ≤ 0x39) || (0x41 ≤ c && c ≤ 0x5a) || (0x61 ≤ c && c ≤ 0x7a) || c = 0x5f

/-- `_KEY_RE.fullmatch`. -/
def isKey (part : Str) : Bool := !part.isEmpty && part.all isKeyPoint

/-- `path.split(".")`. -/
def segments (path : Str) : List Str := path.splitOn 0x2e

/-- The first part of a path that is no key. -/
def badSegment? (path : Str) : Option Str := (segments path).find? fun part => !isKey part

def validatePath (path : Value F) (place : Place) : Except (Exn F) Unit :=
  match path with
  | .str path =>
      if path = [] then fault (.emptyPath place)
      else
        match badSegment? path with
        | some part => fault (.pathSegment place part)
        | none => .ok ()
  | _ => fault (.emptyPath place)

def validateKey (key : Value F) (place : Place) : Except (Exn F) Unit :=
  match key with
  | .str key => if key = [] then fault (.emptyKey place) else .ok ()
  | _ => fault (.emptyKey place)

/-- The rest of a path from a value on; `none` is `_MISSING`. -/
def resolveParts : List Str → Value F → Except (Exn F) (Option (Value F))
  | [], current => .ok (some current)
  | part :: parts, current =>
      if isKey part then
        match current with
        | .obj members =>
            match members.lookup part with
            | some v => resolveParts parts v
            | none => .ok none
        | _ => .ok none
      else fault (.resolveSegment part)

/-- `_resolve`. -/
def resolve (context : List (Str × Value F)) (path : Str) : Except (Exn F) (Option (Value F)) :=
  resolveParts (segments path) (.obj context)

/-! ### Guards -/

inductive Op where
  | eq | ne | gt | gte | lt | lte | isIn | notIn | contains | exists_ | missing
  deriving DecidableEq, Repr

def Op.name : Op → String
  | eq => "eq"
  | ne => "ne"
  | gt => "gt"
  | gte => "gte"
  | lt => "lt"
  | lte => "lte"
  | isIn => "in"
  | notIn => "not_in"
  | contains => "contains"
  | exists_ => "exists"
  | missing => "missing"

/-- `_GUARD_OPS`. -/
def guardOps : List Op := [.eq, .ne, .gt, .gte, .lt, .lte, .isIn, .notIn, .contains, .exists_, .missing]

def op? (name : Str) : Option Op := guardOps.find? fun op => text op.name = name

/-- `_COLLECTION_OPS`. -/
def Op.isCollection (op : Op) : Bool := op = .isIn || op = .notIn || op = .contains

/-- `_validate_guard`. -/
def validateGuard (guard : Value F) : Except (Exn F) Unit :=
  match guard with
  | .obj members => do
      validatePath (get members "path") .guardPath
      match get members "op" with
      | .str name =>
          match op? name with
          | some op =>
              match op.isCollection, get members "value" with
              | true, .arr _ => return ()
              | true, _ => fault (.guardListValue name)
              | false, _ => return ()
          | none => fault .guardOp
      | _ => fault .guardOp
  | _ => fault .guardNotObject

section Evaluate

variable (real : F → Number)

/-- `item in container`. -/
def isInside (item container : Value F) : Except (Exn F) Bool :=
  match container, item with
  | .arr items, item => .ok (member real item items)
  | .str s, .str t => .ok (decide (t <:+: s))
  | .str _, _ => .error .typeError
  | .obj members, .str k => .ok (members.lookup k).isSome
  | .obj _, .arr _ | .obj _, .obj _ => .error .typeError
  | .obj _, _ => .ok false
  | _, _ => .error .typeError

/-- `any(item in container for item in items)`. -/
def anyInside (container : Value F) : List (Value F) → Except (Exn F) Bool
  | [] => .ok false
  | item :: items => do
      if ← isInside real item container then
        return true
      anyInside container items

/-- `<`, `<=`, `>` and `>=`. -/
def ordered (path : Str) (actual expected : Value F) (test : Ordering → Bool) : Except (Exn F) Bool :=
  match actual.compare real expected with
  | some o => .ok (test o)
  | none => fault (.notComparable path)

/-- The operators on a value that is there. -/
def operate (path : Str) (op : Op) (actual expected : Value F) : Except (Exn F) Bool :=
  match op with
  | .eq => .ok (actual.eq real expected)
  | .ne => .ok (!actual.eq real expected)
  | .gt => ordered real path actual expected Ordering.isGT
  | .gte => ordered real path actual expected Ordering.isGE
  | .lt => ordered real path actual expected Ordering.isLT
  | .lte => ordered real path actual expected Ordering.isLE
  | .isIn => found
  | .notIn => do return !(← found)
  | .contains =>
      match actual, expected with
      | .str s, .str t => .ok (decide (t <:+: s))
      | .arr items, .str _ => .ok (member real expected items)
      | _, _ => fault (.notContains path)
  | .exists_ => .ok true
  | .missing => .ok false
where
  found : Except (Exn F) Bool :=
    match actual with
    | .arr items => anyInside real expected items
    | _ => isInside real actual expected

/-- `_evaluate_guard`. -/
def evaluateGuard (context : List (Str × Value F)) (guard : Value F) : Except (Exn F) Bool := do
  let path ← item guard "path"
  let op ← item guard "op"
  let expected ← match guard with
    | .obj members => pure (get members "value")
    | _ => .error .attributeError
  match path with
  | .str path =>
      let actual ← resolve context path
      match op with
      | .str name =>
          match op? name, actual with
          | some .exists_, actual => return actual.isSome
          | some .missing, actual => return actual.isNone
          | _, none => return false
          | some op, some actual => operate real path op actual expected
          | none, some _ => fault (.unsupportedOp (.str name))
      | .arr _ | .obj _ => .error .typeError
      | op => if actual.isSome then fault (.unsupportedOp op) else return false
  | _ => .error .attributeError

end Evaluate

end Builtin
