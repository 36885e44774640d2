/-!
# Two layouts of one value

A value is shown either on one line or spread over lines, each part on a line of
its own, four blanks deeper than the whole and closed by a comma.  Both layouts
are built together, part by part.

## Main definitions

* `Text.Doc` — the two layouts of a value.
* `Doc.text`, `Doc.record`, `Doc.wrapped`, `Doc.table` — the shapes of values.
* `Doc.expanded` — the spread layout as one text.
-/

namespace JitSupport.Text

/-- The two layouts of a value. -/
structure Doc where
  /-- The value on one line. -/
  compact : String
  /-- The lines of the spread layout. -/
  lines : List String
  deriving DecidableEq, Repr

namespace Doc

/-- The spread layout as one text. -/
def expanded (d : Doc) : String := "\n".intercalate d.lines

/-- A value that reads the same in both layouts. -/
def text (s : String) : Doc := ⟨s, [s]⟩

@[simp] theorem compact_text (s : String) : (text s).compact = s := rfl

/-- Puts a label before the first line. -/
def labelled (label : String) (d : Doc) : Doc where
  compact := label ++ ": " ++ d.compact
  lines :=
    match d.lines with
    | [] => [label ++ ": "]
    | line :: rest => (label ++ ": " ++ line) :: rest

/-- Closes the last line with a comma. -/
def closeLast : List String → List String
  | [] => []
  | [line] => [line ++ ","]
  | line :: rest => line :: closeLast rest

/-- The lines of a part inside a whole: deeper by four blanks, and closed by a comma. -/
def part (d : Doc) : List String := (closeLast d.lines).map ("    " ++ ·)

/-- Encloses parts between an opening and a closing text.  On one line the parts are
separated by commas and set off from the ends by `gap`. -/
def enclosed (opening closing gap : String) (parts : List Doc) : Doc where
  compact := opening ++ gap ++ ", ".intercalate (parts.map compact) ++ gap ++ closing
  lines := opening :: parts.flatMap part ++ [closing]

/-- A value with named fields. -/
def record (name : String) (fields : List (String × Doc)) : Doc :=
  enclosed (name ++ " \x7b") "\x7d" " " (fields.map fun f => f.2.labelled f.1)

/-- A value that wraps another one. -/
def wrapped (name : String) (inner : Doc) : Doc := enclosed (name ++ "(") ")" "" [inner]

/-- Entries under their keys; no entries take no line of their own. -/
def table (entries : List (String × Doc)) : Doc :=
  if entries = [] then text "\x7b\x7d"
  else enclosed "\x7b" "\x7d" "" (entries.map fun e => e.2.labelled e.1)

end Doc

end JitSupport.Text
