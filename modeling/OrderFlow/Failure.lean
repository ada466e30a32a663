import OrderFlow.Duration

/-!
# Failures of a connection

A `Failure` is the cause of a call on a connection going wrong.  Its `kind` and
its `text` are functions of the cause.  An attempt to deliver a batch that fails
carries the cause and the number of lines that went out before.
-/

namespace OrderFlow

namespace Failure

/-- The classes of failures. -/
inductive Kind where
  | notFound
  | permissionDenied
  | connectionRefused
  | connectionReset
  | connectionAborted
  | notConnected
  | brokenPipe
  | wouldBlock
  | timedOut
  | writeZero
  | interrupted
  | unexpectedEof
  | invalidInput
  | other
  deriving DecidableEq

/-- The text of a failure of which only the class is known. -/
def Kind.text : Kind → String
  | .notFound => "entity not found"
  | .permissionDenied => "permission denied"
  | .connectionRefused => "connection refused"
  | .connectionReset => "connection reset"
  | .connectionAborted => "connection aborted"
  | .notConnected => "not connected"
  | .brokenPipe => "broken pipe"
  | .wouldBlock => "operation would block"
  | .timedOut => "timed out"
  | .writeZero => "write zero"
  | .interrupted => "operation interrupted"
  | .unexpectedEof => "unexpected end of file"
  | .invalidInput => "invalid input parameter"
  | .other => "other error"

/-- The failures that the operating system reports. -/
inductive OsError where
  | noEntry
  | interrupted
  | wouldBlock
  | accessDenied
  | brokenPipe
  | aborted
  | reset
  | notConnected
  | timedOut
  | refused
  deriving DecidableEq

namespace OsError

/-- All failures that the operating system reports. -/
def all : List OsError :=
  [.noEntry, .interrupted, .wouldBlock, .accessDenied, .brokenPipe, .aborted, .reset,
    .notConnected, .timedOut, .refused]

/-- The number the operating system gives a failure. -/
def code : OsError → Nat
  | .noEntry => 2
  | .interrupted => 4
  | .wouldBlock => 11
  | .accessDenied => 13
  | .brokenPipe => 32
  | .aborted => 103
  | .reset => 104
  | .notConnected => 107
  | .timedOut => 110
  | .refused => 111

/-- The failure with a number. -/
def ofCode? (n : Nat) : Option OsError :=
  all.find? fun failure => failure.code == n

/-- The class of a failure. -/
def kind : OsError → Kind
  | .noEntry => .notFound
  | .interrupted => .interrupted
  | .wouldBlock => .wouldBlock
  | .accessDenied => .permissionDenied
  | .brokenPipe => .brokenPipe
  | .aborted => .connectionAborted
  | .reset => .connectionReset
  | .notConnected => .notConnected
  | .timedOut => .timedOut
  | .refused => .connectionRefused

/-- What the operating system says of a failure. -/
def description : OsError → String
  | .noEntry => "No such file or directory"
  | .interrupted => "Interrupted system call"
  | .wouldBlock => "Resource temporarily unavailable"
  | .accessDenied => "Permission denied"
  | .brokenPipe => "Broken pipe"
  | .aborted => "Software caused connection abort"
  | .reset => "Connection reset by peer"
  | .notConnected => "Transport endpoint is not connected"
  | .timedOut => "Connection timed out"
  | .refused => "Connection refused"

/-- The text of a failure, its number included. -/
def text (failure : OsError) : String :=
  failure.description ++ " (os error " ++ toString failure.code ++ ")"

end OsError

end Failure

/-- Why a call on a connection failed. -/
inductive Failure where
  /-- The operating system says so. -/
  | os (failure : Failure.OsError)
  /-- A failure of a class, perhaps with a text of its own. -/
  | ofKind (kind : Failure.Kind) (message : Option String)
  /-- The connection was not established in time. -/
  | connectTimeout (target : String) (limit : Duration)
  /-- The target has no port. -/
  | badAddress
  /-- What follows the last colon of the target is no port. -/
  | badPort
  /-- The host has a NUL character in it. -/
  | nulInHost
  deriving DecidableEq

namespace Failure

/-- The failure of a write that accepted nothing. -/
def writeZero : Failure := .ofKind .writeZero none

/-- The class of a failure. -/
def kind : Failure → Kind
  | .os failure => failure.kind
  | .ofKind kind _ => kind
  | .connectTimeout _ _ => .timedOut
  | .badAddress => .invalidInput
  | .badPort => .invalidInput
  | .nulInHost => .invalidInput

/-- The text of a failure. -/
def text : Failure → String
  | .os failure => failure.text
  | .ofKind kind none => kind.text
  | .ofKind _ (some message) => message
  | .connectTimeout target limit =>
      "connect to " ++ target ++ " timed out after " ++ limit.text
  | .badAddress => "invalid socket address"
  | .badPort => "invalid port value"
  | .nulInHost => "file name contained an unexpected NUL byte"

end Failure

/-- A delivery that failed: the lines fully written before, and the cause. -/
structure AttemptFailure where
  sent : Nat
  cause : Failure
  deriving DecidableEq

/-- The text of a failed delivery is that of its cause. -/
def AttemptFailure.text (failure : AttemptFailure) : String :=
  failure.cause.text

end OrderFlow
