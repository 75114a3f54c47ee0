import Mathlib.Data.Int.Notation
import KeyroCore.App

/-!
# The system URL opener
-/

namespace KeyroCore

inductive TargetOs where
  | macos
  | windows
  | other
  deriving DecidableEq

/-- What launching the opener process comes to: it does not start, or it exits with a code, which
a process killed by a signal does not have. -/
inductive LaunchOutcome where
  | launchError (text : String)
  | exited (code : Option ℤ)
  deriving DecidableEq

inductive PlatformError where
  | launchFailed (text : String)
  | launchExited (code : Option ℤ) (url : String)
  | unsupportedOs (url : String)
  deriving DecidableEq

/-- `Debug for Option<i32>`. -/
def debugCode : Option ℤ → String
  | none => "None"
  | some code => "Some(" ++ toString code ++ ")"

def PlatformError.display : PlatformError → String
  | .launchFailed text => "failed to launch URL opener: " ++ text
  | .launchExited code url =>
      "URL opener exited with code " ++ debugCode code ++ " for " ++ url
  | .unsupportedOs url => "URL opener is not supported on this OS for " ++ url

variable [UrlCrate]

def openUrlWithSystem (os : TargetOs) (outcome : LaunchOutcome) (url : SafeUrl) :
    Except PlatformError Unit :=
  match os with
  | .macos | .windows =>
    match outcome with
    | .launchError text => .error (.launchFailed text)
    | .exited code =>
      if code = some 0 then .ok () else .error (.launchExited code url.redactedForLog)
  | .other => .error (.unsupportedOs url.redactedForLog)

/-- `SystemUrlOpener::open_url`. -/
def systemUrlOpener (os : TargetOs) (outcome : LaunchOutcome) (url : SafeUrl) :
    Except OpenUrlError Unit :=
  (openUrlWithSystem os outcome url).mapError fun error => ⟨error.display⟩

end KeyroCore
