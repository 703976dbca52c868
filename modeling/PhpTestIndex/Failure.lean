import PhpTestIndex.Php.Document

/-!
# Failures

Why a request cannot be answered, with the wording of each failure, the advice that goes with it and
the exit code of the program.
-/

namespace PhpTestIndex

/-- The exit code of the program. -/
inductive ExitCode
  | success
  | generalError
  | wrongUsage
  | notFound
  | parseError
  | ioError
  | configError
deriving DecidableEq, Repr

/-- The number of an exit code. -/
def ExitCode.number : ExitCode → Nat
  | success => 0
  | generalError => 1
  | wrongUsage => 2
  | notFound => 3
  | parseError => 4
  | ioError => 5
  | configError => 6

/-- Why a file cannot be turned into definitions. -/
inductive SourceFault
  | unavailable (language reason : String)
  | unreadable (error : Php.SyntaxError)
  | invalidEncoding
deriving DecidableEq, Repr

/-- What is said about a fault of a file. -/
def SourceFault.message : SourceFault → String
  | unavailable language reason =>
    "Failed to initialize " ++ language ++ " parser: " ++ reason
  | unreadable error =>
    "Failed to parse code at line " ++ toString error.line.toNat ++ ", column " ++
      toString error.column.toNat ++ ": " ++ error.reason
  | invalidEncoding => "Invalid UTF-8 in source file"

/-- Why a request cannot be answered. -/
inductive Failure
  | fileRead (path reason : String)
  | fileWrite (path reason : String)
  | parse (path : String) (fault : SourceFault)
  | walk (path reason : String)
  | config (reason : String)
  | general (message : String)
deriving DecidableEq, Repr

namespace Failure

/-- What is said about a failure. -/
def message : Failure → String
  | fileRead path reason => "Failed to read file '" ++ path ++ "': " ++ reason
  | fileWrite path reason => "Failed to write file '" ++ path ++ "': " ++ reason
  | parse path fault => "Failed to parse '" ++ path ++ "': " ++ fault.message
  | walk path reason => "Failed to walk '" ++ path ++ "': " ++ reason
  | config reason => "Invalid configuration: " ++ reason
  | general message => message

/-- The name of a failure for programs. -/
def code : Failure → String
  | fileRead _ _ => "FILE_READ_ERROR"
  | fileWrite _ _ => "FILE_WRITE_ERROR"
  | parse _ _ => "PARSE_ERROR"
  | walk _ _ => "WALK_ERROR"
  | config _ => "CONFIG_ERROR"
  | general _ => "GENERAL_ERROR"

/-- What may help. -/
def suggestions : Failure → List String
  | fileRead _ _ =>
    ["Check that the file exists and you have read permissions",
     "Ensure the file is saved as UTF-8"]
  | parse _ _ =>
    ["Check the file for unbalanced brackets or unterminated strings",
     "Files that do not parse are skipped during discovery"]
  | walk _ _ =>
    ["Check that the test root exists and is readable",
     "Adjust 'discovery.include' in .phptest/settings.toml"]
  | config _ => ["Run 'phptest init --force' to regenerate the configuration"]
  | _ => []

/-- The exit code for a failure. -/
def exitCode : Failure → ExitCode
  | parse _ _ => .parseError
  | fileRead _ _ => .ioError
  | fileWrite _ _ => .ioError
  | walk _ _ => .ioError
  | config _ => .configError
  | general _ => .generalError

/-- A fault of a file that is reported together with what was being done. -/
def ofContext (doing : String) (fault : SourceFault) : Failure :=
  general (doing ++ ": " ++ fault.message)

end Failure

end PhpTestIndex
