import InputResolution.Text.Lines

namespace InputResolution.Command

/-! What the host's tables tell of a process and of the user that runs it. -/

/-- The first value of a field in a table of lines
`name:<tab>value<tab>value`. -/
def statusField? (name table : Text) : Option Text :=
  (Text.lines table).findSome? fun line =>
    match Text.cut? ':' line with
    | some (field, values) =>
        if field = name then
          (Text.pieces (· == '\t') values).find? (! ·.isEmpty) else none
    | none => none

/-- The home of a user in a table of lines
`name:password:user:group:remark:home:shell`. -/
def accountHome? (user table : Text) : Option Text :=
  (Text.lines table).findSome? fun line =>
    let columns := Text.pieces (· == ':') line
    if columns[2]? = some user then columns[5]? else none

end InputResolution.Command
