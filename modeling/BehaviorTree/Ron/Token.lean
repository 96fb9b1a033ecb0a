import BehaviorTree.Text.Identifier
import BehaviorTree.Text.Quoted

/-!
# Tokens of RON

RON is the notation in which graphs are saved: records with named fields, tuples, lists, maps,
options and enumeration variants.  A text is first cut into tokens; blanks and comments between
them are dropped.

* A `Token.ident` keeps whether it was written raw, as `r#name`: raw identifiers name fields and
  variants, but never the words that the notation itself knows.
* A `Token.number` is the longest run of characters that a number may consist of, as it stands.
  What it is worth depends on the type that is read, so `BehaviorTree.Ron.Number` converts it.
* `tokens?` fails on a text that no reader accepts, whatever the type: an unclosed string or
  comment, a character that begins no token, an identifier that runs into a point or sign.
-/

namespace BehaviorTree.Ron

open BehaviorTree.Text

inductive Token
  | ident (name : String) (raw : Bool)
  | number (text : String)
  /-- A string, quoted or raw. -/
  | text (s : String)
  /-- A character, byte or byte string, which no type of this library holds. -/
  | literal
  /-- A bracket, comma, colon, or one of the signs that open an attribute. -/
  | mark (c : Char)
  deriving DecidableEq

namespace Token

/-! ## Blanks and comments -/

/-- The characters that may stand between tokens. -/
def isBlank (c : Char) : Bool :=
  c == ' ' || c == '\t' || c == '\n' || c == '\r' || c == '\x0b' || c == '\x0c' ||
    c == '\u0085' || c == '\u200e' || c == '\u200f' || c == '\u2028' || c == '\u2029'

/-- Where between two tokens a reader is. -/
inductive Gap
  | blank
  /-- In a comment up to the end of the line. -/
  | line
  /-- In a bracketed comment, inside `depth` more of them. -/
  | block (depth : Nat)

/-- What is left behind blanks and comments; nothing if a bracketed comment is not closed. -/
def skipGap : Gap → List Char → Option (List Char)
  | .blank, '/' :: '/' :: cs => skipGap .line cs
  | .blank, '/' :: '*' :: cs => skipGap (.block 0) cs
  | .blank, c :: cs => if isBlank c then skipGap .blank cs else some (c :: cs)
  | .blank, [] => some []
  | .line, c :: cs => skipGap (if c == '\n' then .blank else .line) cs
  | .line, [] => some []
  | .block 0, '*' :: '/' :: cs => skipGap .blank cs
  | .block (depth + 1), '*' :: '/' :: cs => skipGap (.block depth) cs
  | .block depth, '/' :: '*' :: cs => skipGap (.block (depth + 1)) cs
  | .block depth, _ :: cs => skipGap (.block depth) cs
  | .block _, [] => none

/-! ## Single tokens -/

/-- Whether a character may stand in a raw identifier or, which is the same class, in a number. -/
def isRunChar (c : Char) : Bool := isIdentContinue c || c == '.' || c == '+' || c == '-'

def isNumberStart (c : Char) : Bool := c.isDigit || c == '+' || c == '-' || c == '.'

def isMark (c : Char) : Bool := "()[]\x7b\x7d,:#!".toList.contains c

/-- The text up to a quotation mark followed by `hashes` signs `#`, and what follows them. -/
def rawText? (hashes : Nat) : List Char → Option (List Char × List Char)
  | [] => none
  | c :: cs =>
    if c == '"' && (cs.take hashes) == List.replicate hashes '#' then some ([], cs.drop hashes)
    else (rawText? hashes cs).map fun (content, rest) => (c :: content, rest)

/-- A raw string, given what follows its `r`. -/
def rawString? (cs : List Char) : Option (List Char × List Char) :=
  let hashes := (cs.takeWhile (· == '#')).length
  match cs.drop hashes with
  | '"' :: rest => rawText? hashes rest
  | _ => none

/-- What follows a character between single quotation marks, given what follows the opening one.
An escape stands for one character, and a byte escape takes in no further bytes. -/
def afterQuoted? (cs : List Char) : Option (List Char) :=
  let rest := match cs with
    | '\\' :: cs => (unescape? 0 cs).map Prod.snd
    | _ :: cs => some cs
    | [] => none
  match rest with
  | some ('\'' :: rest) => some rest
  | _ => none

/-- What follows an escape in bytes, given what follows the backslash.  Two hexadecimal digits stand
for any byte, whether it belongs to a character or not. -/
def afterByteEscape? : List Char → Option (List Char)
  | 'x' :: cs => (hexByte? cs).map Prod.snd
  | cs => (unescape? 0 cs).map Prod.snd

/-- What follows a byte between single quotation marks, given what follows the opening one.  A byte
is an ASCII character or an escape other than that of a code point. -/
def afterByte? (cs : List Char) : Option (List Char) :=
  let rest := match cs with
    | '\\' :: 'u' :: _ => none
    | '\\' :: cs => afterByteEscape? cs
    | c :: cs => if c.toNat < 0x80 then some cs else none
    | [] => none
  match rest with
  | some ('\'' :: rest) => some rest
  | _ => none

/-- What follows bytes between double quotation marks, given what follows the opening one. -/
def afterBytes? (cs : List Char) : Option (List Char) :=
  match cs with
  | [] => none
  | '"' :: rest => some rest
  | '\\' :: rest =>
    match afterByteEscape? rest with
    | none => none
    | some after => if _h : after.length < rest.length + 1 then afterBytes? after else none
  | _ :: rest => afterBytes? rest
termination_by cs.length

/-- An identifier and what follows it, given its first character; it must not run into a
character that only a raw identifier may hold.  Only behind `Some` such a character may follow, as
the beginning of a number. -/
def ident? (c : Char) (cs : List Char) : Option (Token × List Char) :=
  let name := String.ofList (c :: cs.takeWhile isIdentContinue)
  let rest := cs.dropWhile isIdentContinue
  match rest with
  | d :: _ => if isRunChar d && name != "Some" then none else some (.ident name false, rest)
  | [] => some (.ident name false, [])

/-- A raw identifier and what follows it, given what follows its `r#`. -/
def rawIdent? (cs : List Char) : Option (Token × List Char) :=
  let name := cs.takeWhile isRunChar
  if name.isEmpty then none else some (.ident (String.ofList name) true, cs.dropWhile isRunChar)

/-- What follows a byte string, if the text behind a `b` is one. -/
def bytes? : List Char → Option (List Char)
  | '"' :: cs => afterBytes? cs
  | 'r' :: cs => (rawString? cs).map Prod.snd
  | _ => none

/-- The token that begins with a character, and what follows it. -/
def next? (c : Char) (cs : List Char) : Option (Token × List Char) :=
  if c == '"' then (unquote? cs).map fun (content, rest) => (.text (String.ofList content), rest)
  else if c == '\'' then (afterQuoted? cs).map fun rest => (.literal, rest)
  else if isMark c then some (.mark c, cs)
  else if isNumberStart c then
    some (.number (String.ofList (c :: cs.takeWhile isRunChar)), cs.dropWhile isRunChar)
  else
    match c, cs with
    | 'r', '"' :: _ | 'r', '#' :: '"' :: _ | 'r', '#' :: '#' :: _ =>
      (rawString? cs).map fun (content, rest) => (.text (String.ofList content), rest)
    | 'r', '#' :: rest => rawIdent? rest
    | 'b', '\'' :: rest => (afterByte? rest).map fun rest => (.literal, rest)
    | 'b', '"' :: _ | 'b', 'r' :: '"' :: _ | 'b', 'r' :: '#' :: _ =>
      (bytes? cs).map fun rest => (.literal, rest)
    | c, cs => if isIdentStart c || c == '_' then ident? c cs else none

def tokensUpTo? : (fuel : Nat) → List Char → Option (List Token)
  | 0, _ => none
  | fuel + 1, cs =>
    match skipGap .blank cs with
    | none => none
    | some [] => some []
    | some (c :: rest) =>
      match next? c rest with
      | none => none
      | some (t, rest) => (tokensUpTo? fuel rest).map (t :: ·)

/-- The tokens of a text.  Each takes at least one character. -/
def tokens? (s : String) : Option (List Token) := tokensUpTo? (s.toList.length + 1) s.toList

end Token

end BehaviorTree.Ron
