import Mathlib

/-! # Names of variables and of columns

A statement that is embedded in a procedure names columns of its table and variables of the
procedure. What a name refers to that both of them declare is a matter of the language.
-/

namespace ClusterState.Data

/-- What happens to a name that is declared twice. -/
inductive VariableConflict where
  | error
  | useVariable
  | useColumn

inductive Reference where
  | variable (name : String)
  | column (name : String)
  deriving DecidableEq

inductive NameError where
  | ambiguous (name : String)
  | undefined (name : String)
  deriving DecidableEq

variable (conflict : VariableConflict) (declared columns : List String)

def resolve (name : String) : Except NameError Reference :=
  if name ∈ columns then
    if name ∈ declared then
      match conflict with
      | .error => .error (.ambiguous name)
      | .useVariable => .ok (.variable name)
      | .useColumn => .ok (.column name)
    else .ok (.column name)
  else if name ∈ declared then .ok (.variable name)
  else .error (.undefined name)

end ClusterState.Data
