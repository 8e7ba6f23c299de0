import StackTemplate.Document
import StackTemplate.Json.Printer
import StackTemplate.Toml.Reader

/-! The configuration file. It sets the options of document processing; what it
does not mention keeps its default, and what it mentions must be known. -/
namespace StackTemplate.Config

open Toml (Item Key Entries)

/-- What was decoded, or the place of the first mistake. -/
abbrev Decoding (α : Type) := Except Nat α

/-- Where an item is reported: its own place, or else that of its key. -/
def placeOf (key : Key) (item : Item) : Nat :=
  item.place?.getD key.place

/-- A path. -/
def decodePath (place : Nat) : Item → Decoding Text
  | .string _ text => .ok text
  | _ => .error place

/-- A count: an integer that is not negative. -/
def decodeCount (place : Nat) : Item → Decoding Nat
  | .integer _ value => if value < 0 then .error place else .ok value.toNat
  | _ => .error place

/-- A switch. -/
def decodeSwitch (place : Nat) : Item → Decoding Bool
  | .boolean _ value => .ok value
  | _ => .error place

/-- A field of a group of settings: its name and how its item changes the settings. -/
structure Field (σ : Type) where
  name : Text
  set : (place : Nat) → Item → σ → Decoding σ

/-- Sets the fields that entries name, in the order of the entries. -/
def decodeEntries (fields : List (Field σ)) : Entries → σ → Decoding σ
  | [], settings => .ok settings
  | (key, item) :: entries, settings =>
    match fields.find? (·.name = key.name) with
    | none => .error key.place
    | some field =>
      match field.set (placeOf key item) item settings with
      | .ok settings => decodeEntries fields entries settings
      | .error place => .error place

/-- Sets fields by their order. Items beyond the last field are not looked at. -/
def decodeItems (place : Nat) : List (Field σ) → List Item → σ → Decoding σ
  | field :: fields, item :: items, settings =>
    match field.set (item.place?.getD place) item settings with
    | .ok settings => decodeItems place fields items settings
    | .error place => .error place
  | _, _, settings => .ok settings

/-- Sets a group of settings from a table, or from a list in the order of its fields. -/
def decodeGroup (fields : List (Field σ)) (place : Nat) : Item → σ → Decoding σ
  | .table _ _ entries, settings => decodeEntries fields entries settings
  | .array _ items, settings => decodeItems place fields items settings
  | .tables elements, settings => decodeItems place fields elements settings
  | _, _ => .error place

/-- How inclusions are found and bounded. -/
def interpolationFields : List (Field Interpolation.Options) :=
  [{ name := "base_dir".toList
     set := fun place item options =>
       (decodePath place item).map fun path => { options with baseDir := some path } },
   { name := "include_limit".toList
     set := fun place item options =>
       (decodeCount place item).map fun limit => { options with includeLimit := limit } }]

/-- Which keys of a document get a form of their own. -/
def preprocessFields : List (Field Document.Options) :=
  [{ name := "tags_as_list".toList
     set := fun place item options =>
       (decodeSwitch place item).map fun value => { options with tagsAsList := value } },
   { name := "user_data_base64".toList
     set := fun place item options =>
       (decodeSwitch place item).map fun value => { options with userDataBase64 := value } }]

/-- The groups of settings in a configuration. -/
def groups : List (Field Document.Options) :=
  [{ name := "interpolation".toList
     set := fun place item options =>
       (decodeGroup interpolationFields place item options.interpolation).map fun interpolation =>
         { options with interpolation } },
   { name := "preprocess".toList
     set := fun place item options => decodeGroup preprocessFields place item options }]

/-- What the text of a configuration sets, or the line of its first mistake. -/
abbrev Reader := Text → Except Nat Document.Options

/-- Reads the text of a configuration. -/
def read : Reader := fun text =>
  match (Toml.parse text).bind fun entries => decodeEntries groups entries {} with
  | .ok options => .ok options
  | .error place => .error (Toml.lineAt text place)

/-- The options that the text of a configuration sets. -/
def parse (text : Text) : Except Error Document.Options :=
  (read text).mapError .malformedConfig

/-- The options as seen from the configuration's own directory: a relative base
directory starts from there. -/
def anchor (path : Text) (options : Document.Options) : Document.Options :=
  match options.interpolation.baseDir, Path.parent? path with
  | some base, some directory =>
    { options with
      interpolation := { options.interpolation with baseDir := some (Path.join directory base) } }
  | _, _ => options

/-- The options of the configuration at a path, from what reading the path answered. -/
def loadContent (reader : Reader) (path : Text) (content : Except Fault Text) : Run Document.Options :=
  match content with
  | .error fault => .fail (.unreadableConfig path fault)
  | .ok text =>
    match reader text with
    | .error line => .fail (.malformedConfig line)
    | .ok options => (Run.done (anchor path options)).after [] [.loadedConfig path]

/-- Loads a configuration file. -/
def load (reader : Reader) (files : Files) (path : Text) : Run Document.Options :=
  loadContent reader path (files path)

/-- The configuration file that is used if none is named. -/
def localPath : Text := "autostacker.toml".toList

/-- Loads the named configuration, or else the local one if there is one, or
else keeps every default. -/
def loadOrDefault (reader : Reader) (files : Files) (isFile : Text → Bool) :
    Option Text → Run Document.Options
  | some path => load reader files path
  | none => if isFile localPath then load reader files localPath else .done {}

/-- The options as JSON, grouped as in a configuration. -/
def toJson (options : Document.Options) : Json.Value :=
  let base := match options.interpolation.baseDir with
    | some path => Json.Value.string path
    | none => .null
  .object
    [("interpolation".toList, .object
      [("base_dir".toList, base),
       ("include_limit".toList, .number (.integer options.interpolation.includeLimit))]),
     ("preprocess".toList, .object
      [("tags_as_list".toList, .boolean options.tagsAsList),
       ("user_data_base64".toList, .boolean options.userDataBase64)])]

end StackTemplate.Config
