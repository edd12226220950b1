import ChipEight.Text.Quoted
import ChipEight.Text.Shortest

/-!
Values as a log shows them. A text stands for itself, but within a list or a
table it is put between quotation marks, so that it can be told from the values
around it.
-/

namespace ChipEight

/-- A value that a log can show. -/
inductive Value where
  | nothing
  | truth (holds : Bool)
  | integer (number : Int)
  | number (number : Float)
  | text (text : String)
  | list (items : List Value)
  | table (entries : List (String × Value))
  deriving Inhabited

namespace Value

open Text

mutual

def inner : Value → String
  | nothing => "None"
  | truth holds => if holds then "True" else "False"
  | integer i => toString i
  | number x => shortest x
  | text t => quoted t
  | list items => "[" ++ String.intercalate ", " (innerItems items) ++ "]"
  | table entries => "\x7b" ++ String.intercalate ", " (innerEntries entries) ++ "\x7d"

def innerItems : List Value → List String
  | [] => []
  | v :: rest => inner v :: innerItems rest

def innerEntries : List (String × Value) → List String
  | [] => []
  | (key, v) :: rest => (quoted key ++ ": " ++ inner v) :: innerEntries rest

end

def shown : Value → String
  | text t => t
  | v => v.inner

end Value

end ChipEight
