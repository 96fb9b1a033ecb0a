import BehaviorTree.Text.Digits

/-!
# Blanks, comments, strings and keys of TOML documents

Each reader here takes something off the front of a list of characters and returns what follows it.
A line ends with a line feed, with or without a carriage return in front.  Control characters other
than the tab may stand nowhere.
-/

namespace BehaviorTree.Toml

open BehaviorTree.Text

/-- Whether a character may stand in a comment or a string on one line. -/
def isInLine (c : Char) : Bool := c == '\t' || (0x20 ≤ c.toNat && c.toNat != 0x7F)

/-- Whether a character is a blank within a line. -/
def isBlank (c : Char) : Bool := c == ' ' || c == '\t'

/-- What follows blanks within a line. -/
def skipBlanks (cs : List Char) : List Char := cs.dropWhile isBlank

/-- What follows the end of a line, or the end of the text. -/
def lineEnd? : List Char → Option (List Char)
  | [] => some []
  | '\n' :: cs => some cs
  | '\r' :: '\n' :: cs => some cs
  | _ => none

/-- What follows a comment, if one is next. -/
def skipComment : List Char → List Char
  | '#' :: cs => cs.dropWhile isInLine
  | cs => cs

/-- What follows the rest of a line on which nothing but a comment may stand. -/
def restOfLine? (cs : List Char) : Option (List Char) := lineEnd? (skipComment (skipBlanks cs))

/-- What follows blanks, comments and ends of lines, where `comment` says whether a comment is being
skipped. -/
def skipLines (comment : Bool) : List Char → List Char
  | '\n' :: cs => skipLines false cs
  | '\r' :: '\n' :: cs => skipLines false cs
  | c :: cs =>
    if comment then (if isInLine c then skipLines true cs else c :: cs)
    else if c == '#' then skipLines true cs
    else if isBlank c then skipLines false cs
    else c :: cs
  | [] => []

/-! ## Strings -/

/-- The character of exactly `n` hexadecimal digits, and what follows them. -/
def codePoint? (n : Nat) (cs : List Char) : Option (Char × List Char) :=
  let digits := cs.take n
  if digits.length = n then
    (ofDigits? 16 digits).bind fun code =>
      if code.isValidChar then some (Char.ofNat code, cs.drop n) else none
  else none

/-- The character of an escape, and what follows it, given what follows the backslash. -/
def escape? : List Char → Option (Char × List Char)
  | 'b' :: cs => some ('\x08', cs)
  | 't' :: cs => some ('\t', cs)
  | 'n' :: cs => some ('\n', cs)
  | 'f' :: cs => some ('\x0c', cs)
  | 'r' :: cs => some ('\r', cs)
  | 'e' :: cs => some ('\x1b', cs)
  | '"' :: cs => some ('"', cs)
  | '\\' :: cs => some ('\\', cs)
  | 'x' :: cs => codePoint? 2 cs
  | 'u' :: cs => codePoint? 4 cs
  | 'U' :: cs => codePoint? 8 cs
  | _ => none

/-- A string and what follows it. -/
abbrev Taken := Option (List Char × List Char)

/-- The string with a character in front. -/
def Taken.cons (c : Char) (t : Taken) : Taken := t.map fun (s, rest) => (c :: s, rest)

/-- A string in double quotation marks, given what follows the opening one. -/
def basic? (cs : List Char) : Taken :=
  match cs with
  | [] => none
  | '"' :: rest => some ([], rest)
  | '\\' :: rest =>
    match escape? rest with
    | none => none
    | some (c, after) => if _h : after.length < rest.length + 1 then (basic? after).cons c else none
  | c :: rest => if isInLine c then (basic? rest).cons c else none
termination_by cs.length

/-- A string in single quotation marks, given what follows the opening one. -/
def literal? : List Char → Taken
  | [] => none
  | c :: cs =>
    if c == '\'' then some ([], cs)
    else if isInLine c then (literal? cs).cons c
    else none

/-- The end of a string over several lines, given what follows three quotation marks: up to two
more of them belong to the string. -/
def closing (quote : Char) (cs : List Char) : List Char × List Char :=
  let extra := (cs.take 2).takeWhile (· == quote)
  (extra, cs.drop extra.length)

/-- What follows a backslash at the end of a line together with all blanks and ends of lines behind
it, if what follows the backslash is the end of the line. -/
def continuation? (cs : List Char) : Option (List Char) :=
  match skipBlanks cs with
  | '\n' :: cs => some (skipBlankLines cs)
  | '\r' :: '\n' :: cs => some (skipBlankLines cs)
  | _ => none
where
  /-- What follows blanks and ends of lines. -/
  skipBlankLines : List Char → List Char
    | '\r' :: '\n' :: cs => skipBlankLines cs
    | c :: cs => if c == '\n' || isBlank c then skipBlankLines cs else c :: cs
    | [] => []

/-- A string in three double quotation marks, given what follows the opening ones. -/
def basicLines? (cs : List Char) : Taken :=
  match cs with
  | [] => none
  | '"' :: '"' :: '"' :: rest => some (closing '"' rest)
  | '\\' :: rest =>
    match continuation? rest with
    | some after => if _h : after.length < rest.length + 1 then basicLines? after else none
    | none =>
      match escape? rest with
      | none => none
      | some (c, after) =>
        if _h : after.length < rest.length + 1 then (basicLines? after).cons c else none
  | '\n' :: rest => (basicLines? rest).cons '\n'
  | '\r' :: '\n' :: rest => (basicLines? rest).cons '\n'
  | c :: rest => if isInLine c then (basicLines? rest).cons c else none
termination_by cs.length

/-- A string in three single quotation marks, given what follows the opening ones. -/
def literalLines? : List Char → Taken
  | [] => none
  | '\'' :: '\'' :: '\'' :: rest => some (closing '\'' rest)
  | '\n' :: rest => (literalLines? rest).cons '\n'
  | '\r' :: '\n' :: rest => (literalLines? rest).cons '\n'
  | c :: rest => if isInLine c then (literalLines? rest).cons c else none

/-- What follows an end of line right behind the opening of a string over several lines. -/
def dropFirstEnd : List Char → List Char
  | '\n' :: cs => cs
  | '\r' :: '\n' :: cs => cs
  | cs => cs

/-- A string of any form. -/
def string? : List Char → Taken
  | '"' :: '"' :: '"' :: cs => basicLines? (dropFirstEnd cs)
  | '"' :: cs => basic? cs
  | '\'' :: '\'' :: '\'' :: cs => literalLines? (dropFirstEnd cs)
  | '\'' :: cs => literal? cs
  | _ => none

/-! ## Keys -/

/-- Whether a character may stand in a key without quotation marks. -/
def isBare (c : Char) : Bool := c.isAlphanum || c == '_' || c == '-'

/-- A single key and what follows it. -/
def key? (cs : List Char) : Option (String × List Char) :=
  let taken := match cs with
    | '"' :: cs => basic? cs
    | '\'' :: cs => literal? cs
    | cs =>
      let name := cs.takeWhile isBare
      if name.isEmpty then none else some (name, cs.dropWhile isBare)
  taken.map fun (name, rest) => (String.ofList name, rest)

/-- Keys separated by points, at most `fuel` of them: those before the last, the last, and what
follows it and the blanks behind it. -/
def pathUpTo? : (fuel : Nat) → List Char → Option (List String × String × List Char)
  | 0, _ => none
  | fuel + 1, cs =>
    match key? (skipBlanks cs) with
    | none => none
    | some (key, rest) =>
      match skipBlanks rest with
      | '.' :: rest =>
        (pathUpTo? fuel rest).map fun (path, last, rest) => (key :: path, last, rest)
      | rest => some ([], key, rest)

/-- How deep values may nest, and how many keys a path may have. -/
def maxDepth : Nat := 80

/-- Keys separated by points, not too many of them; each but the last brings a point. -/
def path? (cs : List Char) : Option (List String × String × List Char) :=
  match pathUpTo? (cs.length + 1) cs with
  | some (path, last, rest) => if path.length < maxDepth then some (path, last, rest) else none
  | none => none

end BehaviorTree.Toml
