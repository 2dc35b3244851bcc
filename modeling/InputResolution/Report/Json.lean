import InputResolution.Source.Resolution

namespace InputResolution

/-! JSON documents, laid out with two blanks for each level. -/

inductive Json where
  | null
  | boolean (value : Bool)
  | string (text : Text)
  | array (items : List Json)
  | object (members : List (Text × Json))

namespace Json

def controlDigits (value : Nat) : Text :=
  (if value < 0x10 then ['0'] else []) ++ Nat.toDigits 16 value

def escape (c : Char) : Text :=
  if c = '"' then ['\\', '"']
  else if c = '\\' then ['\\', '\\']
  else if c = '\x08' then ['\\', 'b']
  else if c = '\x0c' then ['\\', 'f']
  else if c = '\n' then ['\\', 'n']
  else if c = '\r' then ['\\', 'r']
  else if c = '\t' then ['\\', 't']
  else if c.toNat < 0x20 then "\\u00".toList ++ controlDigits c.toNat
  else [c]

def quote (text : Text) : Text :=
  '"' :: text.flatMap escape ++ ['"']

def indentation (level : Nat) : Text :=
  List.replicate (2 * level) ' '

/-- Puts laid out parts between brackets, each on lines of its own; no parts
leave the brackets together. -/
def enclose (opening closing : Char) (level : Nat) (parts : List Text) : Text :=
  if parts.isEmpty then [opening, closing]
  else
    opening :: '\n' ::
      List.intercalate [',', '\n'] (parts.map (indentation (level + 1) ++ ·)) ++
      '\n' :: indentation level ++ [closing]

mutual

def layOut (level : Nat) : Json → Text
  | .null => "null".toList
  | .boolean value => if value then "true".toList else "false".toList
  | .string text => quote text
  | .array items => enclose '[' ']' level (layOutItems (level + 1) items)
  | .object members =>
      enclose '\x7b' '\x7d' level (layOutMembers (level + 1) members)

def layOutItems (level : Nat) : List Json → List Text
  | [] => []
  | item :: items => layOut level item :: layOutItems level items

def layOutMembers (level : Nat) : List (Text × Json) → List Text
  | [] => []
  | (name, value) :: members =>
      (quote name ++ ": ".toList ++ layOut level value) ::
        layOutMembers level members

end

def text (json : Json) : Text :=
  layOut 0 json

def strings (texts : List Text) : Json :=
  .array (texts.map .string)

def optional (text : Option Text) : Json :=
  (text.map .string).getD .null

def ofFields (fields : List (String × Json)) : Json :=
  .object (fields.map fun field => (field.1.toList, field.2))

end Json

def Mode.text : Mode → Text
  | .compiler => "compiler".toList
  | .standardJson => "standardJson".toList

def Remapping.toJson (remapping : Remapping) : Json :=
  .ofFields
    [("context", .string remapping.context),
      ("prefix", .string remapping.pattern),
      ("target", .string remapping.target)]

def SourceMap.toJson (sources : SourceMap) : Json :=
  .object (sources.entries.map fun entry => (entry.1, .string entry.2))

def Resolution.toJson (resolution : Resolution) : Json :=
  .ofFields
    [("mode", .string resolution.mode.text),
      ("add_stdin", .boolean resolution.readsStdin),
      ("paths", .strings resolution.paths),
      ("sources", resolution.sources.toJson),
      ("standard_json_input", .optional resolution.standardJson),
      ("allowed_directories", .strings resolution.allowedDirectories.toList),
      ("remapping_directories",
        .strings resolution.remappingDirectories.toList),
      ("allow_paths", .strings resolution.allowPaths),
      ("remappings", .array (resolution.remappings.map Remapping.toJson)),
      ("base_path", .optional resolution.basePath),
      ("include_paths", .strings resolution.includePaths)]

end InputResolution
