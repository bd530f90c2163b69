import LoxTools.Settings.Basic
import LoxTools.Tool.Error
import LoxTools.Tool.Wording

/-!
# Finding the settings

The settings come from one file. If a path is given, it is that file, and it must exist.
Otherwise three places are searched in turn, the working directory, the home directory and
the directory for configuration, and the first place where anything stands decides; where
nothing stands in any of them, the defaults hold. What decides need not be a regular file, but it
must be readable and well formed: a bad one is never passed over for a later place.
-/

namespace LoxTools

/-- Where settings can be. -/
structure SettingsPlaces where
  /-- the working directory -/
  working : FileSystem
  /-- the home directory -/
  home : FileSystem
  /-- the directory for configuration, if it is not the usual one below the home directory -/
  configuration : Option FileSystem

namespace Settings

/-- The name of the file in the working directory. -/
def fileName : String := "loxt.toml"

/-- The name of the file in a directory for configuration. -/
def nestedName : String := "loxt/" ++ fileName

/-- The name of the file in a home directory. -/
def homeName : String := ".config/" ++ nestedName

/-- The entries of the places searched, in order. -/
def candidates (places : SettingsPlaces) : List FileEntry :=
  [places.working.entry fileName,
   places.home.entry homeName,
   match places.configuration with
   | some configuration => configuration.entry nestedName
   | none => places.home.entry homeName]

/-- Whether anything stands at an entry. -/
def isPresent : FileEntry → Bool
  | .missing => false
  | _ => true

/-! ## Loading -/

variable [Wording]

/-- The settings of the content of a file. -/
def ofContent (content : Content) : Except ToolError Settings :=
  match decodeText content with
  | .error fault => .error (.unreadable fault)
  | .ok text =>
    match ofText? text with
    | some settings => .ok settings
    | none => .error (@ToolError.settingsMalformed (Wording.malformed text))

/-- The bytes of a text make the settings that the text makes; if it makes none, the reader explains
why. -/
theorem ofContent_toByteArray (text : String) :
    ofContent text.toByteArray =
      match ofText? text with
      | some settings => .ok settings
      | none => .error (@ToolError.settingsMalformed (Wording.malformed text)) := by
  rw [ofContent, decodeText_toByteArray]

/-- The settings at an entry; `absent` is for where nothing stands. -/
def ofEntry (absent : Except ToolError Settings) : FileEntry → Except ToolError Settings
  | .missing => absent
  | .directory => .error (.unreadable .isDirectory)
  | .file content => ofContent content
  | .device content => ofContent content

/-- The settings of the file at a path. -/
def loadFrom (files : FileSystem) (path : String) : Except ToolError Settings :=
  ofEntry (.error (.settingsNotFound path)) (files.entry path)

/-- The settings of the first place searched where anything stands. -/
def search (places : SettingsPlaces) : Except ToolError Settings :=
  ofEntry (.ok default) (((candidates places).find? isPresent).getD .missing)

/-- **The settings of a run**: of the file at the path given, or of the places searched. -/
def load (places : SettingsPlaces) : Option String → Except ToolError Settings
  | some path => loadFrom places.working path
  | none => search places

end Settings

end LoxTools
