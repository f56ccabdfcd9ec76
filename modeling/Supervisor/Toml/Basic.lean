import Supervisor.Decimal.Binary64
import Supervisor.Table
/-!
# TOML values
-/
namespace Supervisor

inductive Toml
  | string (s : String)
  | whole (z : Int)
  /-- Nothing stands for infinities and for what is not a number. -/
  | double (x : Option Decimal.Binary64)
  | bool (b : Bool)
  /-- A date, a time of day or both, in normal form. -/
  | moment (text : String)
  | array (items : List Toml)
  | table (entries : List (String × Toml))
deriving Repr, Inhabited

end Supervisor
