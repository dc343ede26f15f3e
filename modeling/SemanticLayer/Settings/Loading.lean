import SemanticLayer.Settings.FileTree
import SemanticLayer.Settings.Written

set_option autoImplicit false

/-!
Loading settings from files: the file that the environment names, else the one in the working
directory, else the one of the user, else the defaults.
-/
namespace SemanticLayer

inductive SettingsError where
  | notFound (path : String)
  | unreadable
  | malformed
  | missingVariable (name : String)
  | invalid (problem : InvalidSetting)
  deriving DecidableEq, Repr

def SettingsError.message : SettingsError → String
  | .notFound path => "Config file not found: " ++ path
  | .unreadable => "Failed to read config file"
  | .malformed => "Failed to parse config file"
  | .missingVariable name => "Missing environment variable: " ++ name
  | .invalid problem => "Invalid configuration: " ++ problem.message

/-- A reader of TOML documents. -/
class TomlReader where
  read : String → Option Document

variable [TomlReader]

def Settings.ofToml (text : String) : Except SettingsError Settings :=
  match (TomlReader.read text).bind Settings.read with
  | none => .error .malformed
  | some settings =>
    match settings.problem? with
    | some problem => .error (.invalid problem)
    | none => .ok settings

def Settings.ofFile (files : FileTree) (path : String) : Except SettingsError Settings :=
  match files.entry? path with
  | none => .error (.notFound path)
  | some .directory => .error .unreadable
  | some (.file text) => Settings.ofToml text

structure SettingsLocations where
  /-- The name of the program, which names its files. -/
  application : String
  files : FileTree
  /-- The path that the environment gives. -/
  givenPath : Option String
  /-- The directory of the user's configuration. -/
  userDirectory : String

def SettingsLocations.localPath (l : SettingsLocations) : String := l.application ++ ".toml"

def joinPath (directory name : String) : String :=
  if directory.isEmpty then name else directory ++ "/" ++ name

def SettingsLocations.userPath (l : SettingsLocations) : String :=
  joinPath (joinPath l.userDirectory l.application) "config.toml"

/-- The settings of the first place that has any. A given path has to lead to a file. -/
def Settings.load (l : SettingsLocations) : Except SettingsError Settings :=
  match l.givenPath with
  | some path => Settings.ofFile l.files path
  | none =>
    if (l.files.entry? l.localPath).isSome then Settings.ofFile l.files l.localPath
    else if (l.files.entry? l.userPath).isSome then Settings.ofFile l.files l.userPath
    else .ok {}

end SemanticLayer
