import AssistedShell.Home
import AssistedShell.Host
import AssistedShell.Settings.Basic
import AssistedShell.Settings.Toml

/-! The settings file and the directory in which it is looked for. -/

namespace AssistedShell

namespace Preferences

/-- The first number that a setting cannot have. -/
def wordBound : Nat := UInt64.size

/-- The first number of follow-up requests that cannot be set. -/
def attemptBound : Nat := UInt32.size

def text? : Toml.Value → Option String
  | .text t => some t
  | .number _ => none

def nat? (bound : Nat) : Toml.Value → Option Nat
  | .text _ => none
  | .number n => if 0 ≤ n ∧ n < bound then some n.toNat else none

/-- Enters one pair; none if the key is unknown or the value of another kind. -/
def enter (p : Preferences) (key : String) (v : Toml.Value) : Option Preferences :=
  match key with
  | "model" => (text? v).map fun t => { p with model := some t }
  | "base_url" => (text? v).map fun t => { p with baseUrl := some t }
  | "api_key_env" => (text? v).map fun t => { p with keyVariable := some t }
  | "system_prompt" => (text? v).map fun t => { p with instructions := some t }
  | "max_history_messages" => (nat? wordBound v).map fun n => { p with entryLimit := some n }
  | "max_message_bytes" => (nat? wordBound v).map fun n => { p with byteLimit := some n }
  | "max_followup_attempts" =>
    (nat? attemptBound v).map fun n => { p with followUpLimit := some n }
  | "preview_window_ms" => (nat? wordBound v).map fun n => { p with previewMs := some n }
  | "request_timeout_secs" => (nat? wordBound v).map fun n => { p with timeoutSecs := some n }
  | "history_file" => (text? v).map fun t => { p with historyFile := some t }
  | _ => none

/-- The preferences that a text states. -/
def ofText? (text : String) : Option Preferences := do
  (← Toml.read? text).foldlM (fun p (key, v) => p.enter key v) {}

end Preferences

/-- Why settings could not be loaded. -/
inductive SettingsFault where
  | homeUnknown
  | directory (written : String) (fault : Fault)
  | notADirectory (written : String)
  | file (fault : Fault)
  | unreadable
  deriving DecidableEq, Repr, Inhabited

namespace SettingsFault

def kind : SettingsFault → FaultKind
  | .homeUnknown => .notFound
  | .directory _ f | .file f => f.kind
  | .notADirectory _ => .invalidInput
  | .unreadable => .invalidData

def message : SettingsFault → String
  | .homeUnknown => Home.unknown
  | .directory written f => "GHSH_HOME " ++ written ++ ": " ++ f.message
  | .notADirectory written => "GHSH_HOME " ++ written ++ " is not a directory"
  | .file f => f.message
  | .unreadable => "the settings file cannot be read"

end SettingsFault

/-- Where the shell keeps its files. -/
structure Directories where
  /-- The directory of the settings file and the log. -/
  settings : String
  home : Option String
  deriving DecidableEq, Repr, Inhabited

namespace Directories

variable {σ : Type} (h : Host σ)

/-- The directories that the environment names. One named by `GHSH_HOME` must exist. -/
def discover (env : Environment) (s : σ) : Except SettingsFault Directories :=
  match (env.get? "GHSH_HOME").filter (· ≠ "") with
  | some written =>
    match h.canonical s written with
    | .error f => .error (.directory written f)
    | .ok path =>
      if h.isDirectory s path then .ok ⟨path, h.home? s env⟩ else .error (.notADirectory written)
  | none =>
    match h.home? s env with
    | none => .error .homeUnknown
    | some home => .ok ⟨joinPath home ".ghsh", some home⟩

/-- The path of a file in the home directory. -/
def dotfile (d : Directories) (name : String) : Option String := d.home.map (joinPath · name)

end Directories

namespace Settings

variable {σ : Type} (h : Host σ)

/-- The preferences in a directory's settings file. A missing file states none. -/
def readPreferences (directory : String) (s : σ) : Except SettingsFault Preferences :=
  match h.readText s (joinPath directory "config.toml") with
  | .ok text =>
    match Preferences.ofText? text with
    | some p => .ok p
    | none => .error .unreadable
  | .error f => if f.kind = .notFound then .ok {} else .error (.file f)

/-- Loads the settings. History is kept in the home directory unless the file says otherwise. -/
def load (env : Environment) (model : Option String) (s : σ) : Except SettingsFault Settings :=
  match Directories.discover h env s with
  | .error f => .error f
  | .ok dirs =>
    match readPreferences h dirs.settings s with
    | .error f => .error f
    | .ok p =>
      let p := { p with historyFile := p.historyFile <|> dirs.dotfile Home.historyFile }
      .ok (ofPreferences p model dirs.settings)

end Settings

end AssistedShell
