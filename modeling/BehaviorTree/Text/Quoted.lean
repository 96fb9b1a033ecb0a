import BehaviorTree.Text.Digits
import BehaviorTree.Text.Extend
import BehaviorTree.Text.Printable

/-!
# Quoted text

`quote` puts a text between quotation marks.  Line breaks, tabs, NUL, the backslash and both kinds
of quotation mark are escaped by a letter or by themselves; any other character that is not
printable, or that extends the one before, is written by its number in hexadecimal; everything else
stands for itself.

`unquote?` reads such text back, and with it every other way to escape a character: two hexadecimal
digits for a byte, where up to four bytes in a row make one character, and one to six hexadecimal
digits in braces for a code point.
-/

namespace BehaviorTree.Text

/-! ## Writing -/

/-- A character by its number. -/
def escapeNumber (c : Char) : List Char :=
  '\\' :: 'u' :: '{' :: Nat.toDigits 16 c.toNat ++ ['}']

/-- A character inside quotation marks. -/
def escape (c : Char) : List Char :=
  if c = '\x00' then ['\\', '0']
  else if c = '\t' then ['\\', 't']
  else if c = '\r' then ['\\', 'r']
  else if c = '\n' then ['\\', 'n']
  else if c = '\\' ∨ c = '"' ∨ c = '\'' then ['\\', c]
  else if isExtend c || !isPrintable c then escapeNumber c
  else [c]

/-- A text between quotation marks. -/
def quote (s : String) : String := String.ofList ('"' :: s.toList.flatMap escape ++ ['"'])

/-! ## Reading -/

/-- The character that a few bytes encode. -/
def ofUtf8? (bytes : List Nat) : Option Char :=
  match String.fromUTF8? (ByteArray.mk (bytes.map Nat.toUInt8).toArray) with
  | some s =>
    match s.toList with
    | [c] => some c
    | _ => none
  | none => none

/-- Two hexadecimal digits and what follows them. -/
def hexByte? : List Char → Option (Nat × List Char)
  | a :: b :: cs =>
    match digit? a, digit? b with
    | some x, some y => some (16 * x + y, cs)
    | _, _ => none
  | _ => none

/-- Goes on with a character begun by the bytes `begun`, if they are not yet one: up to `more` bytes
follow, each escaped by `\x`. -/
def byteEscape? : (more : Nat) → (begun : List Nat) → List Char → Option (Char × List Char)
  | more, begun, cs =>
    match ofUtf8? begun with
    | some c => some (c, cs)
    | none =>
      match more, cs with
      | more + 1, '\\' :: 'x' :: cs =>
        match hexByte? cs with
        | some (b, cs) => byteEscape? more (begun ++ [b]) cs
        | none => none
      | _, _ => none

/-- A code point in braces, behind its opening brace. -/
def codeEscape? (cs : List Char) : Option (Char × List Char) :=
  let digits := (cs.take 6).takeWhile (· != '}')
  match ofDigits? 16 digits, cs.drop digits.length with
  | some n, '}' :: rest =>
    if n.isValidChar then some (Char.ofNat n, rest) else none
  | _, _ => none

/-- The character that an escape stands for, and what follows it, given what follows the backslash.
A byte escape may take in up to `more` further ones. -/
def unescape? (more : Nat) : List Char → Option (Char × List Char)
  | '\'' :: cs => some ('\'', cs)
  | '"' :: cs => some ('"', cs)
  | '\\' :: cs => some ('\\', cs)
  | 'n' :: cs => some ('\n', cs)
  | 'r' :: cs => some ('\r', cs)
  | 't' :: cs => some ('\t', cs)
  | '0' :: cs => some ('\x00', cs)
  | 'x' :: cs =>
    match hexByte? cs with
    | some (b, cs) => byteEscape? more [b] cs
    | none => none
  | 'u' :: '{' :: cs => codeEscape? cs
  | _ => none

/-- Reads text up to its closing quotation mark, given what follows the opening one: the text and
what follows it. -/
def unquote? (cs : List Char) : Option (List Char × List Char) :=
  match cs with
  | [] => none
  | '"' :: rest => some ([], rest)
  | '\\' :: rest =>
    match unescape? 3 rest with
    | none => none
    | some (c, after) =>
      if _h : after.length < rest.length + 1 then
        (unquote? after).map fun (text, rest) => (c :: text, rest)
      else none
  | c :: rest => (unquote? rest).map fun (text, rest) => (c :: text, rest)
termination_by cs.length

end BehaviorTree.Text
