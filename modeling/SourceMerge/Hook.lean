import SourceMerge.Text

/-!
# SourceMerge.Hook

Functions that the surrounding program offers to a configuration under the name
`module:function`.  A module is a tree of members; a dotted name walks down it,
and what it reaches must be something that can be called.
-/

namespace SourceMerge

/-- Why a call gives no result. -/
inductive HookFault where
  /-- The function does not take these arguments. -/
  | misused
  /-- The function itself gave up. -/
  | refused
  deriving DecidableEq

/-- A function on texts.  It may end without a text. -/
structure Hook where
  /-- Its name, with the module that it belongs to. -/
  name : Text
  call : List Text → Except HookFault (Option Text)

/-- What a name in a module stands for. -/
inductive Member where
  /-- A function; it has no members. -/
  | function (hook : Hook)
  /-- A group of members, which can be called as well. -/
  | group (name : Text) (members : List (Text × Member)) (hook : Hook)
  /-- A text. -/
  | constant (value : Text)

/-- A module and what its names stand for. -/
structure HookModule where
  name : Text
  members : List (Text × Member)

/-- Why a reference names no function. -/
inductive ReferenceFault where
  /-- The reference is not of the form `module:function`. -/
  | malformed (reference : Text)
  /-- A module name that begins with a point is relative to nothing. -/
  | relativeModule
  /-- There is no module of this name. -/
  | noModule (name : Text)
  /-- The module is no package, so that nothing lies below it. -/
  | noPackage (name parent : Text)
  /-- A module has no member of this name. -/
  | noModuleMember (module name : Text)
  /-- A group has no member of this name. -/
  | noGroupMember (group name : Text)
  /-- A function has no member of this name. -/
  | noFunctionMember (name : Text)
  /-- A text has no member of this name. -/
  | noTextMember (name : Text)
  /-- What the reference names cannot be called. -/
  | notCallable (reference : Text)

/-- The wording of the fault. -/
def ReferenceFault.message : ReferenceFault → Text
  | .malformed reference => "Expected 'module:function', got '" ++ reference ++ "'"
  | .relativeModule => "the module name is relative"
  | .noModule name => "No module named '" ++ name ++ "'"
  | .noPackage name parent =>
    "No module named '" ++ name ++ "'; '" ++ parent ++ "' is not a package"
  | .noModuleMember module name => "module '" ++ module ++ "' has no attribute '" ++ name ++ "'"
  | .noGroupMember group name => "type object '" ++ group ++ "' has no attribute '" ++ name ++ "'"
  | .noFunctionMember name => "'function' object has no attribute '" ++ name ++ "'"
  | .noTextMember name => "'str' object has no attribute '" ++ name ++ "'"
  | .notCallable reference => "'" ++ reference ++ "' is not callable"

namespace Hook

/-- The member that a dotted name reaches below a member. -/
def descend (here : Member) : List Text → Except ReferenceFault Member
  | [] => .ok here
  | name :: rest =>
    match here with
    | .function _ => .error (.noFunctionMember name)
    | .constant _ => .error (.noTextMember name)
    | .group group members _ =>
      match members.lookup name with
      | none => .error (.noGroupMember group name)
      | some member => descend member rest

/-- The function that a member can be called as. -/
def ofMember? : Member → Option Hook
  | .function hook => some hook
  | .group _ _ hook => some hook
  | .constant _ => none

/-- The first dotted beginning of a name that is no module. -/
def missingModule (modules : List HookModule) (name : Text) : ReferenceFault :=
  let parts := Text.splitOn '.' name
  let first := parts.headD []
  if modules.any (·.name == first) then
    .noPackage (Text.joinWith ['.'] (parts.take 2)) first
  else .noModule first

/-- The function that `module:function` names. -/
def find (modules : List HookModule) (reference : Text) : Except ReferenceFault Hook :=
  match Text.cutAt ':' reference with
  | (_, none) => .error (.malformed reference)
  | (moduleName, some path) =>
    if moduleName = [] ∨ path = [] then .error (.malformed reference)
    else if moduleName.head? = some '.' then .error .relativeModule
    else
      match modules.find? (·.name == moduleName) with
      | none => .error (missingModule modules moduleName)
      | some module =>
        let parts := Text.splitOn '.' path
        match module.members.lookup (parts.headD []) with
        | none => .error (.noModuleMember moduleName (parts.headD []))
        | some member =>
          match descend member parts.tail with
          | .error fault => .error fault
          | .ok member =>
            match ofMember? member with
            | none => .error (.notCallable reference)
            | some hook => .ok hook

end Hook

end SourceMerge
