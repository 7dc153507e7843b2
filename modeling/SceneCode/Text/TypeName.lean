import SceneCode.Text.Alphanumeric
import SceneCode.Text.Uppercase

/-!
# Type names from titles

A title becomes a part of an identifier: only its alphanumeric characters are kept, the first
one of each word in upper case. `"my star-icon"` becomes `"MyStarIcon"`.
-/

namespace SceneCode

/-- The name for the rest of a title, which starts a word if `wordStart` is set. -/
def typeNameChars (wordStart : Bool) : List Char → List Char
  | [] => []
  | c :: rest =>
    if isAlphanumeric c then (if wordStart then uppercase c else [c]) ++ typeNameChars false rest
    else typeNameChars true rest

/-- The name for a title: its words, capitalised, and nothing else. -/
def typeName (title : String) : String := String.ofList (typeNameChars true title.toList)

end SceneCode
