import ModularHost.Json.Basic
import ModularHost.Number.Shortest
import ModularHost.Json.Printer
import ModularHost.Text.Quoted
/-!
# What can be wrong with a document

Either its characters do not form a value, or the value is not of the wanted shape. A document is
read from its first character to its last, and the first thing wrong is the one reported.
-/

namespace ModularHost
namespace Json

/-- Why characters do not form a value. -/
inductive SyntaxError where
  | eofValue
  | eofString
  | eofList
  | eofObject
  | expectedValue
  | expectedIdent
  | expectedColon
  | expectedListCommaOrEnd
  | expectedObjectCommaOrEnd
  | keyMustBeString
  | trailingComma
  | trailingCharacters
  | invalidNumber
  | numberOutOfRange
  | invalidEscape
  | unpairedEscape
  | loneSurrogate
  | controlCharacter
  | recursionLimit
deriving DecidableEq, Repr

def SyntaxError.message : SyntaxError → String
  | .eofValue => "EOF while parsing a value"
  | .eofString => "EOF while parsing a string"
  | .eofList => "EOF while parsing a list"
  | .eofObject => "EOF while parsing an object"
  | .expectedValue => "expected value"
  | .expectedIdent => "expected ident"
  | .expectedColon => "expected `:`"
  | .expectedListCommaOrEnd => "expected `,` or `]`"
  | .expectedObjectCommaOrEnd => "expected `,` or `\x7d`"
  | .keyMustBeString => "key must be a string"
  | .trailingComma => "trailing comma"
  | .trailingCharacters => "trailing characters"
  | .invalidNumber => "invalid number"
  | .numberOutOfRange => "number out of range"
  | .invalidEscape => "invalid escape"
  | .unpairedEscape => "unexpected end of hex escape"
  | .loneSurrogate => "lone leading surrogate in hex escape"
  | .controlCharacter => "control character (\\u0000-\\u001F) found while parsing a string"
  | .recursionLimit => "recursion limit exceeded"

/-- What stands where something else was wanted. -/
inductive Found where
  | null
  | bool (value : Bool)
  | int (value : Int)
  | real (value : Number.Binary64)
  | str (value : String)
  | list
  | map
deriving DecidableEq, Repr

/-- What a value is, when it is not what was wanted. -/
def found : Json → Found
  | .null => .null
  | .bool b => .bool b
  | .int n => .int n
  | .real x => .real x
  | .str s => .str s
  | .arr _ => .list
  | .obj _ | .date _ => .map

/-- What is wrong with a document. -/
inductive Fault where
  | malformed (cause : SyntaxError)
  | invalidType (found : Found) (wanted : String)
  | invalidValue (found : Found) (wanted : String)
  | invalidLength (length : Nat) (wanted : String)
  | missingField (name : String)
  | duplicateField (name : String)
  | unknownVariant (name : String) (known : List String)
  | malformedUuid
  | notOneVariant
deriving DecidableEq, Repr

/-- The two kinds of document that trees are decoded from. -/
inductive Dialect where
  | json
  | toml
deriving DecidableEq, Repr

/-- How a dialect shows a number that is not whole: JSON as it writes it, TOML with the point always
at its place. -/
def Dialect.numberStyle : Dialect → Number.DecimalStyle
  | .json => Json.numberStyle
  | .toml => ⟨fun _ => true, false⟩

def Found.describe (d : Dialect) : Found → String
  | .null => "null"
  | .bool b => "boolean `" ++ (if b then "true" else "false") ++ "`"
  | .int n => "integer `" ++ String.ofList (printInt n) ++ "`"
  | .real x => "floating point `" ++ x.write d.numberStyle ++ "`"
  | .str s => "string " ++ Text.quote s
  | .list => "sequence"
  | .map => "map"

/-- Names between backticks: two with `or`, more as a list. -/
def showAlternatives : List String → String
  | [] => ""
  | [a] => "`" ++ a ++ "`"
  | [a, b] => "`" ++ a ++ "` or `" ++ b ++ "`"
  | names => "one of " ++ ", ".intercalate (names.map fun n => "`" ++ n ++ "`")

def Fault.message (d : Dialect) : Fault → String
  | .malformed e => e.message
  | .invalidType f w => "invalid type: " ++ f.describe d ++ ", expected " ++ w
  | .invalidValue f w => "invalid value: " ++ f.describe d ++ ", expected " ++ w
  | .invalidLength n w => "invalid length " ++ toString n ++ ", expected " ++ w
  | .missingField n => "missing field `" ++ n ++ "`"
  | .duplicateField n => "duplicate field `" ++ n ++ "`"
  | .unknownVariant n known => "unknown variant `" ++ n ++ "`, expected " ++ showAlternatives known
  | .malformedUuid => "UUID parsing failed"
  | .notOneVariant => "wanted one variant"

end Json
end ModularHost
