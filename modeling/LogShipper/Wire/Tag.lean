import LogShipper.Wire.Name
import LogShipper.Wire.Value

/-!
# Tags

A tag is a key with a value. Of tags whose keys differ at most in ASCII case a line carries one:
it stands where the first of them stood and has its spelling, with the value of the last.
-/

namespace LogShipper.Wire

/-- A key with a value. -/
structure Tag where
  key : Text
  value : Text
deriving DecidableEq, Repr

namespace Tag

/-- The tag with its key made a name and its value trimmed, unless one of them is then empty. -/
def normal? (tag : Tag) : Option Tag :=
  let key := sanitizeName tag.key
  let value := tag.value.trim
  if key.isEmpty || value.isEmpty then none else some ⟨key, value⟩

/-- Adds a tag to tags with different keys: the value of the tag with its key, if there is one, is
replaced. -/
def put (tag : Tag) : List Tag → List Tag
  | [] => [tag]
  | t :: ts =>
    if Text.sameIgnoringCase t.key tag.key then { t with value := tag.value } :: ts
    else t :: put tag ts

/-- Merges the tags whose keys differ at most in ASCII case. -/
def merge (tags : List Tag) : List Tag :=
  (tags.filterMap normal?).foldl (fun merged tag => put tag merged) []

/-- The tag as it stands on a line, after a space. -/
def text (tag : Tag) : Text :=
  " t:" ++ sanitizeName tag.key ++ '=' :: escapeValue (foldNewlines tag.value)

@[simp] theorem merge_nil : merge [] = [] := rfl

end Tag

/-- The tags as they stand on a line, each after a space. -/
def tagsText (tags : List Tag) : Text := tags.flatMap Tag.text

end LogShipper.Wire
