import RegisterMachine.Host

/-!
Literals of the assembler: `T`, `F`, `d` and a double, `i` and an int32, `e` and the name of a
callback.
-/
set_option autoImplicit false

namespace RegisterMachine

/-- Why a text is no literal. -/
inductive LiteralError where
  | empty
  | double (text : String)
  | integer (text : String)
  | unknownCallback (name : String)
  | unknownKind (kind : Char)
deriving DecidableEq

def LiteralError.message : LiteralError → String
  | .empty => "empty literal"
  | .double text => s!"unable to parse double from '{text}'"
  | .integer text => s!"unable to parse integer from '{text}'"
  | .unknownCallback name => s!"unknown callback name '{name}'"
  | .unknownKind kind => s!"unknown literal kind '{kind}'"

/-- Read a literal. Without a registry no callback name is known. -/
def readLiteral (callbacks : Option Registry) : List Char → Except LiteralError Value
  | [] => .error .empty
  | ['T'] => .ok (.boolean true)
  | ['F'] => .ok (.boolean false)
  | 'd' :: text =>
    match Double.read? text with
    | some value => .ok (.double value)
    | none => .error (.double (String.ofList text))
  | 'i' :: text =>
    match Text.readInt32? text with
    | some value => .ok (.int32 value)
    | none => .error (.integer (String.ofList text))
  | 'e' :: name =>
    match callbacks.bind (·.lookup (String.ofList name)) with
    | some value => .ok value
    | none => .error (.unknownCallback (String.ofList name))
  | kind :: _ => .error (.unknownKind kind)

end RegisterMachine
