import Supervisor.Json.Printer
import Supervisor.Json.Mishap
import Supervisor.Text.Quoted
/-!
# Why data cannot be read from JSON

Either the text is at fault, or a value is not of the kind that is wanted.
-/
namespace Supervisor.Json

/-- What stands where something else is wanted. -/
inductive Found
  | null
  | bool (b : Bool)
  | number (n : Number)
  | string (s : String)
  | sequence
  | map
deriving DecidableEq, Repr

inductive ReadError
  | mishap (m : Mishap)
  | wrongType (found : Found) (wanted : String)
  | wrongValue (found : Found) (wanted : String)
  | missingField (name : String)
  | duplicateField (name : String)
  | unknownVariant (name : String) (known : List String)
  | wrongLength (n : Nat) (wanted : String)
  | refused (reason : String)
deriving DecidableEq, Repr

def Found.describe : Found → String
  | .null => "null"
  | .bool b => "boolean `" ++ (if b then "true" else "false") ++ "`"
  | .number (.whole z) => "integer `" ++ String.ofList (wholeChars z) ++ "`"
  | .number (.double x) => "floating point `" ++ String.ofList (doubleLayout.write x) ++ "`"
  | .string s => "string " ++ Text.quoted s
  | .sequence => "sequence"
  | .map => "map"

def ReadError.listVariants : List String → String
  | [] => "there are no variants"
  | [a] => "expected `" ++ a ++ "`"
  | [a, b] => "expected `" ++ a ++ "` or `" ++ b ++ "`"
  | names => "expected one of " ++ String.intercalate ", " (names.map fun n => "`" ++ n ++ "`")

def ReadError.message : ReadError → String
  | .mishap m => m.message
  | .wrongType found wanted => "invalid type: " ++ found.describe ++ ", expected " ++ wanted
  | .wrongValue found wanted => "invalid value: " ++ found.describe ++ ", expected " ++ wanted
  | .missingField name => "missing field `" ++ name ++ "`"
  | .duplicateField name => "duplicate field `" ++ name ++ "`"
  | .unknownVariant name known =>
    "unknown variant `" ++ name ++ "`, " ++ listVariants known
  | .wrongLength n wanted => "invalid length " ++ toString n ++ ", expected " ++ wanted
  | .refused reason => reason

end Supervisor.Json
