import Fieldbus.Json.Failure

/-!
# Paths

A path names a file by the directories on the way to it, with a stroke after each.  It starts at the
root when it begins with a stroke, otherwise at the working directory.  Empty parts do not count; a
single dot stays where it is and two dots go up.
-/

namespace Fieldbus.Files

/-- The most bytes that a path may have, and the most that one part may have. -/
def maxPathBytes : Nat := 4095

/-- The most bytes that one part of a path may have. -/
def maxPartBytes : Nat := 255

/-- The parts of a path between strokes, from the front; the last may be empty. -/
def splitParts : List Char → List (List Char)
  | [] => [[]]
  | c :: path =>
    if c = '/' then [] :: splitParts path
    else
      match splitParts path with
      | [] => [[c]]
      | part :: parts => (c :: part) :: parts

/-- The names on the way, one for each step. -/
def steps (path : List Char) : List String :=
  ((splitParts path).filter fun part => part ≠ []).map String.ofList

/-- Whether the path starts at the root. -/
def IsAbsolute (path : List Char) : Prop := path.head? = some '/'

/-- Whether the path ends with a stroke, so that it can only name a directory. -/
def EndsWithStroke (path : List Char) : Prop := path.getLast? = some '/'

instance (path : List Char) : Decidable (IsAbsolute path) := inferInstanceAs (Decidable (_ = _))

instance (path : List Char) : Decidable (EndsWithStroke path) := inferInstanceAs (Decidable (_ = _))

/-- A path written backwards, without the strokes and single dots at its end that do not change
what it names.  The root keeps its stroke, and a path of one dot its dot. -/
def trimEnd : List Char → List Char
  | '/' :: [] => ['/']
  | '/' :: rest => trimEnd rest
  | '.' :: '/' :: [] => ['/']
  | '.' :: '/' :: rest => trimEnd rest
  | path => path

theorem length_trimEnd_le (path : List Char) : (trimEnd path).length ≤ path.length := by
  fun_induction trimEnd path with
  | case1 => simp
  | case2 rest _ ih => exact Nat.le_succ_of_le ih
  | case3 => simp
  | case4 rest _ ih => exact Nat.le_succ_of_le (Nat.le_succ_of_le ih)
  | case5 => exact Nat.le_refl _

/-- The path of the directory that a path lies in, if it has one: all but its last name.  A path of
one name lies in the empty path. -/
def parent? (path : List Char) : Option (List Char) :=
  match trimEnd path.reverse with
  | [] => none
  | ['/'] => none
  | c :: rest => some (trimEnd ((c :: rest).dropWhile (· ≠ '/'))).reverse

/-- The last name of a path, unless it goes up or names nothing. -/
def fileName? (path : List Char) : Option String :=
  match trimEnd path.reverse with
  | [] | ['/'] | ['.'] => none
  | trimmed =>
    let name := (trimmed.takeWhile (· ≠ '/')).reverse
    if name = ['.', '.'] then none else some (String.ofList name)

end Fieldbus.Files
