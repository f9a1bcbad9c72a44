import CallAtlas.FileTree.Access
import CallAtlas.Glob.Matching

/-!
# Errors of an analysis

The causes for which an analysis has no result, and their wording.
-/

set_option autoImplicit false

namespace CallAtlas

/-- Why an analysis has no result. -/
inductive AnalysisError where
  /-- No file defines a function. -/
  | noFunctions (language : String) (files : Nat)
  /-- The path of a project leads to no folder, or its part leads out of it. -/
  | invalidPath (path : String)
  /-- A file cannot be read or written. -/
  | file (failure : FileFailure)
  /-- A document of settings is not valid. -/
  | settings
  /-- A pattern of files is not valid. -/
  | pattern (e : GlobError)
  deriving Repr, DecidableEq

namespace AnalysisError

/-- The wording of what lies behind an error, if anything does. -/
def cause? : AnalysisError → Option String
  | file failure => some failure.message
  | pattern e => some e.message
  | _ => none

/-- The wording of an error. -/
def message : AnalysisError → String
  | noFunctions language files =>
    "No functions found in " ++ toString files ++ " " ++ language ++ " file(s)"
  | invalidPath path => "Invalid project path: " ++ path
  | file failure => "IO error: " ++ failure.message
  | settings => "Config error"
  | pattern e => "Invalid exclude pattern: " ++ e.message

/-- The wording of an error with that of its cause. -/
def fullMessage (e : AnalysisError) : String :=
  match e.cause? with
  | some cause => e.message ++ ": " ++ cause
  | none => e.message

end AnalysisError

end CallAtlas
