/-!
# Module specifiers

A module specifier is a text of segments divided by `/`, such as `./lib/map` or `fbjs/lib/warning`.
`normalize` brings it into its normal form: repeated separators become one, `.` segments go away,
`..` takes back the segment before it, and an explicit leading `./` stays, so that the result still
reads as a relative specifier.

The work is done on lists of characters in two steps: `collapse` shortens the runs of separators,
and `tidy` folds the segments and writes the result.
-/

namespace Retarget

namespace Specifier

/-- The text between two separators. -/
abbrev Segment := List Char

/-- The segment `.`, which stands for the directory itself. -/
def here : Segment := ['.']

/-- The segment `..`, which stands for the directory above. -/
def up : Segment := ['.', '.']

/-! ## Separators -/

/-- Shortens every run of separators to a single one. -/
def collapse : List Char → List Char
  | [] => []
  | c :: cs => if c = '/' ∧ cs.head? = some '/' then collapse cs else c :: collapse cs

/-- The segments of a text, empty ones included; a text without separators is one segment. -/
def segments : List Char → List Segment
  | [] => [[]]
  | c :: cs =>
    if c = '/' then [] :: segments cs
    else
      match segments cs with
      | [] => [[c]]
      | seg :: rest => (c :: seg) :: rest

/-- Writes segments with one separator between neighbours. -/
def join : List Segment → List Char
  | [] => []
  | [seg] => seg
  | seg :: rest => seg ++ '/' :: join rest

/-! ## The leading and the trailing part -/

/-- An absolute specifier begins with a separator. -/
def isAbsolute (s : List Char) : Bool :=
  s.head? = some '/'

/-- An explicitly relative specifier begins with `./`. -/
def isExplicit (s : List Char) : Bool :=
  ['.', '/'].isPrefixOf s

/-- A directory specifier ends in a separator and is more than that separator. -/
def isDirectory (s : List Char) : Bool :=
  1 < s.length && s.getLast? = some '/'

/-- A text climbs when its first segment is `..`. -/
def climbs (s : List Char) : Bool :=
  s = ['.', '.'] || ['.', '.', '/'].isPrefixOf s

/-! ## Folding the segments -/

/-- Takes one segment onto the stack, whose top is the latest segment. Empty segments and `.` add
nothing. A `..` removes an ordinary top; on an empty stack or on another `..` it stays, unless the
specifier is absolute, since nothing lies above the root. -/
def push (absolute : Bool) (stack : List Segment) (seg : Segment) : List Segment :=
  if seg = [] ∨ seg = here then stack
  else if seg = up then
    match stack with
    | [] => if absolute then [] else [up]
    | top :: below =>
      if top = up then
        if absolute then top :: below else up :: top :: below
      else below
  else seg :: stack

/-- The segments that are left after folding, from first to last. -/
def fold (absolute : Bool) (segs : List Segment) : List Segment :=
  (segs.foldl (push absolute) []).reverse

/-! ## Writing the normal form -/

/-- Puts back what stood before the segments: the root's separator, or an explicit `./` unless the
text climbs. -/
def lead (absolute explicit : Bool) (body : List Char) : List Char :=
  if absolute then '/' :: body
  else if explicit && !climbs body then '.' :: '/' :: body
  else body

/-- Puts back the separator at the end of a directory specifier. -/
def close (directory : Bool) (out : List Char) : List Char :=
  if directory && out.getLast? != some '/' then out ++ ['/'] else out

/-- An empty specifier is written `.`. -/
def nonempty (out : List Char) : List Char :=
  if out = [] then here else out

/-- The normal form of a text whose runs of separators are taken as they stand. -/
def tidy (s : List Char) : List Char :=
  nonempty (close (isDirectory s)
    (lead (isAbsolute s) (isExplicit s) (join (fold (isAbsolute s) (segments s)))))

end Specifier

/-- The normal form of a module specifier. -/
def normalize (path : String) : String :=
  String.ofList (Specifier.tidy (Specifier.collapse path.toList))

end Retarget
