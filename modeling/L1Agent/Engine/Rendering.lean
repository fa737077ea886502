import L1Agent.Engine.Parameters

/-! # Rendering (`render`)

A placeholder is `${name}`.  A text that is one placeholder and nothing else becomes the value that
is bound, in its own type; within a longer text the value is inserted as text.

The placeholders of a template are found by a scan that goes on behind each of them, so a value
that looks like a placeholder is not replaced in its turn.  What rendering gives is the subject of
`Engine/Templates.lean`.
-/
namespace L1Agent
namespace Rendering
open Parameters

/-- The name of a placeholder that the text begins with. -/
def placeholder? : List Char → Option (List Char)
  | '$' :: '{' :: c :: rest =>
    if (c.isAlpha || c == '_') && (rest.dropWhile isWordChar).head? = some '}' then
      some (c :: rest.takeWhile isWordChar)
    else none
  | _ => none

/-- How many characters a placeholder has. -/
def width (name : List Char) : Nat := name.length + 3

/-- `PLACEHOLDER_RE.fullmatch(text)` -/
def whole? (text : List Char) : Option (List Char) :=
  (placeholder? text).filter fun name => text.length = width name

/-- `PLACEHOLDER_RE.findall(text)`, after `skip` characters of a placeholder. -/
def findAll : Nat → List Char → List String
  | _, [] => []
  | skip + 1, _ :: rest => findAll skip rest
  | 0, c :: rest =>
    match placeholder? (c :: rest) with
    | some name => String.ofList name :: findAll (width name - 1) rest
    | none => findAll 0 rest

mutual

/-- `placeholders_in`, as a list of the names. -/
def placeholdersIn : Json → List String
  | .str text => findAll 0 text.toList
  | .arr items => placeholdersInItems items
  | .obj fields => placeholdersInFields fields
  | _ => []

def placeholdersInItems : List Json → List String
  | [] => []
  | item :: items => placeholdersIn item ++ placeholdersInItems items

def placeholdersInFields : List (String × Json) → List String
  | [] => []
  | (_, value) :: fields => placeholdersIn value ++ placeholdersInFields fields

end

/-- `undeclared_placeholders` -/
def undeclaredPlaceholders (sop : SOP) : List String :=
  extraKeys (sop.steps.flatMap fun step => placeholdersIn step.parameters)
    (sop.parameters.map (·.name))

variable (builtins : Builtins) (values : List (String × Json))

/-- `_lookup` -/
def lookup (name : List Char) : Except Exn Json :=
  match values.lookup (String.ofList name) with
  | some value => .ok value
  | none => .error (.parameter
      s!"parameter '{String.ofList name}' is used but was not bound")

/-- `PLACEHOLDER_RE.sub(..)`, after `skip` characters of a placeholder. -/
def substitute : Nat → List Char → Except Exn (List Char)
  | _, [] => .ok []
  | skip + 1, _ :: rest => substitute skip rest
  | 0, c :: rest =>
    match placeholder? (c :: rest) with
    | some name => do
      let value ← lookup values name
      pure ((builtins.str value).toList ++ (← substitute (width name - 1) rest))
    | none => do pure (c :: (← substitute 0 rest))

mutual

/-- `render` -/
def render : Json → Except Exn Json
  | .str text =>
    match whole? text.toList with
    | some name => lookup values name
    | none => do pure (.str (String.ofList (← substitute builtins values 0 text.toList)))
  | .arr items => do pure (.arr (← renderItems items))
  | .obj fields => do pure (.obj (← renderFields fields))
  | v => .ok v

def renderItems : List Json → Except Exn (List Json)
  | [] => .ok []
  | item :: items => do
    let first ← render item
    pure (first :: (← renderItems items))

def renderFields : List (String × Json) → Except Exn (List (String × Json))
  | [] => .ok []
  | (key, value) :: fields => do
    let first ← render value
    pure ((key, first) :: (← renderFields fields))

end

/-- The engine that renders in this way. -/
def rendering (eng : Engine) : Engine :=
  { eng with render := fun parameters values => render eng.catalog.builtins values parameters }

example : render ⟨fun _ => "7", fun _ => none, fun _ => false⟩ [("depth", .int 7)]
    (.obj [("text", .str "\x24\x7bdepth\x7d"), ("note", .str "was \x24\x7bdepth\x7d")]) =
      .ok (.obj [("text", .int 7), ("note", .str "was 7")]) := by
  decide

end Rendering
end L1Agent
