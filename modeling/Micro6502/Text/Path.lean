namespace Micro6502.Text.Path

/-- A relative path seen from a directory; the empty path gives the directory with a final `/`. -/
def join (base path : String) : String :=
  if path.startsWith "/" then path
  else if base.isEmpty ∨ base.endsWith "/" then base ++ path
  else base ++ "/" ++ path

/-- Leaves a part out if it is empty or a dot, and takes back the last one for two dots. -/
def reduce (rooted : Bool) (kept : List String) (part : String) : List String :=
  if part.isEmpty || part == "." then kept
  else if part == ".." then
    match kept with
    | [] => if rooted then [] else [part]
    | last :: rest => if last == ".." then part :: kept else rest
  else part :: kept

def normalize (path : String) : String :=
  let rooted := path.startsWith "/"
  let root :=
    if path.startsWith "//" ∧ ¬ path.startsWith "///" then "//" else if rooted then "/" else ""
  let parts := ((path.splitOn "/").foldl (reduce rooted) []).reverse
  let whole := root ++ "/".intercalate parts
  if whole.isEmpty then "." else whole

def tidy (path : String) : String :=
  let root :=
    if path.startsWith "//" ∧ ¬ path.startsWith "///" then "//"
    else if path.startsWith "/" then "/" else ""
  let parts := (path.splitOn "/").filter fun part => !(part.isEmpty || part == ".")
  let whole := root ++ "/".intercalate parts
  if whole.isEmpty then "." else whole

def parent (path : String) : String :=
  let head := (path.toList.reverse.dropWhile (· ≠ '/')).reverse
  if head.all (· = '/') then String.ofList head
  else String.ofList (head.reverse.dropWhile (· = '/')).reverse

def name (path : String) : String :=
  String.ofList (path.toList.reverse.takeWhile (· ≠ '/')).reverse

/-- The end of the last part from its last dot on; a dot at either end of the part does not
count. -/
def suffix (path : String) : String :=
  let cs := (name (tidy path)).toList
  let after := (cs.reverse.takeWhile (· ≠ '.')).reverse
  let before := cs.length - after.length - 1
  if after.length < cs.length ∧ 0 < before ∧ !after.isEmpty then String.ofList ('.' :: after)
  else ""

end Micro6502.Text.Path
