import CallAdvice.Log
import CallAdvice.Toml.Document
import CallAdvice.Toml.Marker

/-! Configuration files: which warning categories are on, and which capabilities are pinned. A file
that is not there stands for the defaults; one that cannot be read, or does not have the right
shape, is an error. Other keys of the document are of no concern. How documents are read and what
the file system holds are parameters of loading; `Config.Reader.toml` is the one in use. -/
set_option autoImplicit false

namespace CallAdvice

/-- A configuration. -/
structure Config where
  warnings : Selection
  /-- Pinned values by the identifiers of capabilities. -/
  pins : NameMap Bool

namespace Config

/-- All warnings, and nothing pinned. -/
def default : Config := ⟨.all, .empty⟩

/-- The pinned value of an identifier. -/
def pin? (c : Config) (id : String) : Option Bool := c.pins.get? id

/-! ## From a document -/

/-- A way to read documents. -/
structure Reader where
  /-- The table that a text describes, if it is a document. -/
  table? : String → Option Toml.Table
  /-- A value in a table as it is handed to whoever takes any value, unless it is refused. -/
  handed? : Toml.Value → Option Toml.Value

/-- The reader in use. In what it hands over, marked tables have become dates and times. -/
def Reader.toml : Reader := ⟨Toml.parse?, Toml.Value.unmark?⟩

/-- The pinned values of a document's value, which must be a table of truth values. -/
def pinsOf? : Toml.Value → Option (NameMap Bool)
  | .table entries =>
    (entries.mapM fun (e : String × Toml.Value) => e.2.boolean?.map (e.1, ·)).map NameMap.ofList
  | _ => none

/-- The warning selection of a document's value. Any value that is handed over gives one. -/
def selectionOf? (reader : Reader) (v : Toml.Value) : Option Selection :=
  (reader.handed? v).map Selection.ofValue

/-- The configuration in a document's table. -/
def ofTable? (reader : Reader) (t : Toml.Table) : Option Config := do
  let warnings ← match t.lookup "warnings" with
    | none => some .all
    | some v => selectionOf? reader v
  let pins ← match t.lookup "capabilities" with
    | none => some .empty
    | some v => pinsOf? v
  some ⟨warnings, pins⟩

/-- The configuration in a text. -/
def ofText? (reader : Reader) (text : String) : Option Config :=
  (reader.table? text).bind (ofTable? reader)

/-! ## Files -/

/-- What a look at a path finds. -/
inductive File where
  | missing
  /-- Nothing, and something on the way there is no directory. -/
  | blocked
  /-- Nothing that can be told: a directory on the way may not be searched. -/
  | hidden
  | directory
  /-- A file that may not be read. -/
  | locked
  /-- A file with these bytes. -/
  | content (bytes : ByteArray)

/-- A file system: what stands at each path. -/
abbrev Files := String → File

/-- Whether a look at the path finds something. -/
def File.exists : File → Bool
  | .missing | .blocked | .hidden => false
  | .directory | .locked | .content _ => true

/-- Why a file could not be read as a text. -/
inductive ReadFault where
  /-- There is no such file. -/
  | noFile
  /-- The path leads through something that is no directory. -/
  | notDirectory
  /-- The file may not be read, or its directory may not be searched. -/
  | denied
  | isDirectory
  /-- The bytes are no text. -/
  | notText
  deriving DecidableEq

/-- The text of a fault. -/
def ReadFault.message : ReadFault → String
  | .noFile => "No such file or directory (os error 2)"
  | .notDirectory => "Not a directory (os error 20)"
  | .denied => "Permission denied (os error 13)"
  | .isDirectory => "Is a directory (os error 21)"
  | .notText => "stream did not contain valid UTF-8"

/-- Why there is no configuration, with the path of its file. -/
inductive LoadError where
  /-- The file could not be read. -/
  | unreadable (path : String) (fault : ReadFault)
  /-- The text is no document, or its warnings or pinned capabilities have the wrong shape. -/
  | invalid (path : String)
  deriving DecidableEq

/-- The text of a load error; what is wrong with an invalid file is not said. -/
def LoadError.message : LoadError → String
  | .unreadable path fault => "failed to read " ++ path ++ ": " ++ fault.message
  | .invalid path => "invalid config " ++ path

/-- The text of a file. -/
def readText : File → Except ReadFault String
  | .missing => .error .noFile
  | .blocked => .error .notDirectory
  | .hidden | .locked => .error .denied
  | .directory => .error .isDirectory
  | .content bytes =>
    match String.fromUTF8? bytes with
    | some text => .ok text
    | none => .error .notText

/-- Loads the configuration file at a path. -/
def loadFile (reader : Reader) (files : Files) (path : String) : Except LoadError Config :=
  match readText (files path) with
  | .error fault => .error (.unreadable path fault)
  | .ok text =>
    match ofText? reader text with
    | some config => .ok config
    | none => .error (.invalid path)

/-- A relative path beneath `base`; a separator comes between them unless `base` brings it. -/
def joinPath (base name : String) : String :=
  match base.toList.getLast? with
  | none => name
  | some c => if c = '/' then base ++ name else base ++ "/" ++ name

/-- The path of the configuration file of the project at `root`. -/
def path (root : String) : String := joinPath (joinPath root ".simplify") "config.toml"

/-- Loads the configuration of the project at `root`: the defaults if there is no file. -/
def load (reader : Reader) (files : Files) (root : String) : Except LoadError Config :=
  if (files (path root)).exists then loadFile reader files (path root) else .ok .default

/-- The log entries on loading the configuration file at a path. -/
def loadFileLog (reader : Reader) (files : Files) (path : String) : List Log.Entry :=
  match loadFile reader files path with
  | .ok config => [.configLoaded config.warnings config.pins.size]
  | .error _ => []

/-- The log entries on loading the configuration of the project at `root`. -/
def loadLog (reader : Reader) (files : Files) (root : String) : List Log.Entry :=
  if (files (path root)).exists then loadFileLog reader files (path root) else [.configDefaulted]

end Config

end CallAdvice
