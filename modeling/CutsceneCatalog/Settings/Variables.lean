/-!
# Environment variables

The variables of a process.  Setting one can fail, since an environment cannot hold every name and
value.  Assignments are made in order (`Variables.assignAll`): one that an environment cannot hold
ends them, and those before it stay.
-/

namespace CutsceneCatalog

/-- Environment variables, each name once. -/
abbrev Variables := List (String × String)

namespace Variables

/-- The value of a variable. -/
def get? (vars : Variables) (name : String) : Option String := vars.lookup name

/-- Sets a variable. -/
def set (vars : Variables) (name value : String) : Variables :=
  (name, value) :: vars.filter fun (key, _) => key != name

/-- Why an environment cannot hold a variable. -/
inductive Fault
  /-- The name or the value has a null character in it. -/
  | nullCharacter
  /-- The name has an equals sign in it. -/
  | illegalName
  | emptyName
deriving DecidableEq, Repr

/-- The wording of a fault. -/
def Fault.message : Fault → String
  | .nullCharacter => "embedded null byte"
  | .illegalName => "illegal environment variable name"
  | .emptyName => "[Errno 22] Invalid argument"

/-- Sets a variable, if an environment can hold it. -/
def assign (vars : Variables) (name value : String) : Except Fault Variables :=
  if name.toList.contains '\x00' || value.toList.contains '\x00' then .error .nullCharacter
  else if name.toList.contains '=' then .error .illegalName
  else if name = "" then .error .emptyName
  else .ok (vars.set name value)

/-- Sets variables in turn, up to the first that cannot be set; a name without a value is passed
over. -/
def assignAll (vars : Variables) : List (String × Option String) → Except Fault Unit × Variables
  | [] => (.ok (), vars)
  | (_, none) :: rest => assignAll vars rest
  | (name, some value) :: rest =>
      match vars.assign name value with
      | .ok vars => assignAll vars rest
      | .error fault => (.error fault, vars)

end Variables

end CutsceneCatalog
