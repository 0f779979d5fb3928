/-
# What can be wrong with a source

The causes for which a line is refused, and the failures of a run with the
place they are about. Every failure ends the run.

Key definitions: `Malformed`, `LineFault`, `SourceError`, `SourceError.message`.
-/
import AudioShader.Color
import AudioShader.Files.Tree
import AudioShader.Request.Argument

namespace AudioShader

/-- Why a directive line cannot be read. -/
inductive Malformed where
  | openComment
  | openText
  | openAngle
  | emptyPath
  | notOnePath
  | noRequestName
  | noMacroName
  | notMacroAndControl
  deriving DecidableEq

namespace Malformed

def message : Malformed → String
  | .openComment => "comment must close on the directive line"
  | .openText => "unterminated string"
  | .openAngle => "missing closing '>'"
  | .emptyPath => "empty path"
  | .notOnePath => "expected exactly one path"
  | .noRequestName => "missing request name"
  | .noMacroName => "missing macro name"
  | .notMacroAndControl => "expected <macro> <control>"

end Malformed

/-- A lookup root that an include may name. -/
inductive LookupRoot where
  | config
  | default
  deriving DecidableEq

namespace LookupRoot

def name : LookupRoot → String
  | .config => "config"
  | .default => "default"

end LookupRoot

/-- Why a line is refused. -/
inductive LineFault where
  | malformed (directive : String) (reason : Malformed)
  | unknownRequest (name : String)
  | argumentCount (request : String) (expected found : Nat)
  /-- The argument at `position`, counted from one, is no `expected`. -/
  | argumentType (request : String) (position : Nat) (expected : ArgType) (found : String)
  | signature (request : String) (code : Char)
  | color (fault : ColorFault)
  | unresolvedBind (name : String)
  | unknownExpansion (control : String)
  | includeCycle (path : Path)
  | includeDepth (limit : Nat)
  | missingRoot (root : LookupRoot) (target : String)
  deriving DecidableEq

namespace LineFault

/-- The name of the cause. -/
def label : LineFault → String
  | .malformed _ _ => "MalformedDirective"
  | .unknownRequest _ => "UnknownRequest"
  | .argumentCount _ _ _ => "ArgumentCount"
  | .argumentType _ _ _ _ => "ArgumentType"
  | .signature _ _ => "Signature"
  | .color _ => "InvalidColor"
  | .unresolvedBind _ => "UnresolvedBind"
  | .unknownExpansion _ => "UnknownExpansion"
  | .includeCycle _ => "IncludeCycle"
  | .includeDepth _ => "IncludeDepth"
  | .missingRoot _ _ => "MissingRoot"

def message : LineFault → String
  | .malformed directive reason => s!"malformed #{directive} directive: {reason.message}"
  | .unknownRequest name => s!"unknown request '{name}'"
  | .argumentCount request expected found =>
    s!"request '{request}' takes {expected} argument(s), found {found}"
  | .argumentType request position expected found =>
    s!"request '{request}' argument {position} must be a {expected.name}, found '{found}'"
  | .signature request code => s!"request '{request}' declares unknown signature code '{code}'"
  | .color fault => fault.message
  | .unresolvedBind name => s!"unresolved bind '@{name}' has no default"
  | .unknownExpansion control => s!"unknown expansion control '{control}'"
  | .includeCycle path => s!"include of {path.text} would recurse"
  | .includeDepth limit => s!"includes nested deeper than {limit} levels"
  | .missingRoot root target => s!"no {root.name} directory configured for include '{target}'"

/-- The fault of words that do not fit the signature of a request. -/
def ofCoerce (request : String) : CoerceFault → LineFault
  | .count expected found => .argumentCount request expected found
  | .signature code => .signature request code
  | .type index expected found => .argumentType request (index + 1) expected found

end LineFault

/-- A line of a file. -/
structure LineRef where
  file : Path
  line : Nat
  deriving DecidableEq

/-- The failure of a run. -/
inductive SourceError where
  | refused (place : LineRef) (fault : LineFault)
  /-- A handler refused its arguments for a reason. -/
  | rejected (place : LineRef) (request reason : String)
  | unreadable (path : Path) (fault : ReadFault)
  deriving DecidableEq

namespace SourceError

/-- The name of the failure: of its cause, if a line was refused. -/
def label : SourceError → String
  | .refused _ fault => fault.label
  | .rejected _ _ _ => "Config"
  | .unreadable _ _ => "Io"

/-- The line that a failure is about. -/
def place? : SourceError → Option LineRef
  | .refused place _ => some place
  | .rejected place _ _ => some place
  | .unreadable _ _ => none

def message : SourceError → String
  | .refused place fault => s!"{place.file.text}:{place.line}: {fault.message}"
  | .rejected place request reason =>
    s!"{place.file.text}:{place.line}: request '{request}' rejected: {reason}"
  | .unreadable path _ => s!"failed to read {path.text}"

/-- What a failure comes from, in words. -/
def causes : SourceError → List String
  | .refused _ _ => []
  | .rejected _ _ reason => [reason]
  | .unreadable _ fault => [fault.message]

end SourceError
end AudioShader
