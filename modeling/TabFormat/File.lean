import TabFormat.Config
import TabFormat.Tab.Json
import TabFormat.Tab.Toml

/-!
# Files

The contents of files are bytes. Tabs are read from files in JSON or in TOML, told apart by the
names of the files, and configurations are read from files in TOML.
-/

namespace TabFormat

/-- Why the text of a file cannot be had. -/
inductive ReadFault where
  /-- There is no such file. -/
  | missing
  /-- The file may not be read. -/
  | denied
  /-- A part of the path is not a directory. -/
  | notDirectory
  /-- The file is a directory. -/
  | directory
  /-- The bytes are not a text. -/
  | notText
  /-- Something else, in the words of the system. -/
  | other (reason : Text)
deriving DecidableEq, Repr

/-- The wording of the fault. -/
def ReadFault.message : ReadFault → Text
  | missing => "No such file or directory (os error 2)".toList
  | denied => "Permission denied (os error 13)".toList
  | notDirectory => "Not a directory (os error 20)".toList
  | directory => "Is a directory (os error 21)".toList
  | notText => "stream did not contain valid UTF-8".toList
  | other reason => reason

/-- The bytes of a file, or why they cannot be had. -/
abbrev Contents := Except ReadFault ByteArray

/-- The text of a file. -/
def Contents.text : Contents → Except ReadFault Text
  | .error e => .error e
  | .ok bytes =>
    match String.fromUTF8? bytes with
    | some s => .ok s.toList
    | none => .error .notText

/-- The last part of a path. -/
def fileName? (path : Text) : Option Text :=
  match ((path.splitOn '/').filter fun part => !part.isEmpty && part != ['.']).getLast? with
  | some ['.', '.'] => none
  | name => name

/-- The part of a file's name after the last dot. A dot at the start of the name does not count. -/
def extension? (path : Text) : Option Text := do
  let name ← fileName? path
  let back := name.reverse.takeWhile (· != '.')
  if back.length + 1 < name.length then some back.reverse else none

/-- The languages in which tabs are described. -/
inductive TabLanguage where
  /-- JSON. -/
  | json
  /-- TOML. -/
  | toml
deriving DecidableEq, Repr

/-- The language of a file: TOML if its extension says so in any case, and JSON otherwise. -/
def TabLanguage.ofPath (path : Text) : TabLanguage :=
  if (extension? path).any fun ext => Text.eqIgnoringCase ext "toml".toList then toml else json

example : TabLanguage.ofPath "a/b.TOML".toList = .toml ∧ TabLanguage.ofPath ".toml".toList = .json ∧
    TabLanguage.ofPath "toml".toList = .json := by decide

/-- Why no tabs can be read. -/
inductive TabsFailure where
  /-- There is no text. -/
  | unreadable (e : ReadFault)
  /-- The JSON text does not describe tabs. -/
  | json (e : JsonFailure)
  /-- The TOML text does not describe tabs. -/
  | toml (e : Toml.Failure)
deriving DecidableEq, Repr

/-- The wording of the failure. -/
def TabsFailure.message : TabsFailure → Text
  | unreadable e => "Failed to read records file: ".toList ++ e.message
  | json e => "Failed to parse records JSON: ".toList ++ e.message
  | toml e => "Failed to parse records TOML: ".toList ++ e.message

/-- The tabs that a text describes. -/
def Tab.readText (language : TabLanguage) (s : Text) : Except TabsFailure (List Tab) :=
  match language with
  | .json => (Tab.readJson s).mapError .json
  | .toml => (Tab.readToml s).mapError .toml

/-- The tabs in a file. -/
def Tab.readContents (path : Text) (contents : Contents) : Except TabsFailure (List Tab) :=
  match contents.text with
  | .error e => .error (.unreadable e)
  | .ok s => Tab.readText (.ofPath path) s

/-- Why no configuration can be read. -/
inductive ConfigFailure where
  /-- There is no text. -/
  | unreadable (e : ReadFault)
  /-- The text does not describe a configuration. -/
  | toml (e : Toml.Failure)
deriving DecidableEq, Repr

/-- The wording of the failure. -/
def ConfigFailure.message : ConfigFailure → Text
  | unreadable e => "Failed to read config file: ".toList ++ e.message
  | toml e => "Failed to parse config TOML: ".toList ++ e.message

/-- The configuration in a file. -/
def Config.readContents (contents : Contents) : Except ConfigFailure Config :=
  match contents.text with
  | .error e => .error (.unreadable e)
  | .ok s => (Config.readToml s).mapError .toml

end TabFormat
