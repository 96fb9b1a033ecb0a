import BehaviorTree.Ron.Token

/-!
# Writing RON

A `Document` is a value as RON shows it, without any choice of spacing.  It is written in one of two
styles: `compact`, without a blank, and `pretty`, where every field and list element has a line of
its own, four blanks further in than the bracket, while tuples stay on one line.

Both styles give the text in `Piece`s.  A piece is a token or a blank; since no piece runs into the
next, the tokens of the text are the tokens among the pieces.
-/

namespace BehaviorTree.Ron

/-- A part of a written text. -/
inductive Piece
  | word (name : String)
  | number (digits : String)
  | text (s : String)
  /-- A bracket, comma or colon. -/
  | mark (c : Char)
  | blank (s : String)

namespace Piece

def render : Piece → String
  | word name => name
  | number digits => digits
  | text s => Text.quote s
  | mark c => String.singleton c
  | blank s => s

/-- The token that a piece is, unless it is a blank. -/
def token? : Piece → Option Token
  | word name => some (.ident name false)
  | number digits => some (.number digits)
  | text s => some (.text s)
  | mark c => some (.mark c)
  | blank _ => none

def renderAll (pieces : List Piece) : String := String.join (pieces.map render)

end Piece

/-- A value as RON shows it. -/
inductive Document
  /-- A word: a truth value, a variant without content, `None`. -/
  | word (name : String)
  | number (digits : String)
  | text (s : String)
  /-- A variant around one value. -/
  | wrapped (name : String) (content : Document)
  /-- A record or a variant with named fields; a record is written without its name. -/
  | record (name : Option String) (fields : List (String × Document))
  | list (items : List Document)
  | tuple (items : List Document)
  /-- A map with strings for keys. -/
  | map (entries : List (String × Document))

namespace Document

def bool (b : Bool) : Document := word (if b then "true" else "false")

def int (n : Int) : Document := number (toString n)

/-- A variant around one value, named `Some`, or the word `None`. -/
def option {α : Type} (content : α → Document) : Option α → Document
  | some a => wrapped "Some" (content a)
  | none => word "None"

/-- A number that is written as `text`, which is a word if it begins with a letter. -/
def float (text : String) : Document :=
  match text.toList with
  | c :: _ => if c.isAlpha then word text else number text
  | [] => number text

def namePieces : Option String → List Piece
  | some name => [.word name]
  | none => []

/-! ## Compact style -/

mutual

/-- The pieces of a value without blanks. -/
def compact : Document → List Piece
  | word name => [.word name]
  | number digits => [.number digits]
  | text s => [.text s]
  | wrapped name content => .word name :: .mark '(' :: compact content ++ [.mark ')']
  | record name fields => namePieces name ++ .mark '(' :: compactFields fields ++ [.mark ')']
  | list items => .mark '[' :: compactItems items ++ [.mark ']']
  | tuple items => .mark '(' :: compactItems items ++ [.mark ')']
  | map entries => .mark '\x7b' :: compactEntries entries ++ [.mark '\x7d']

def compactItems : List Document → List Piece
  | [] => []
  | [d] => compact d
  | d :: ds => compact d ++ .mark ',' :: compactItems ds

def compactFields : List (String × Document) → List Piece
  | [] => []
  | [(name, d)] => .word name :: .mark ':' :: compact d
  | (name, d) :: ds => .word name :: .mark ':' :: compact d ++ .mark ',' :: compactFields ds

def compactEntries : List (String × Document) → List Piece
  | [] => []
  | [(key, d)] => .text key :: .mark ':' :: compact d
  | (key, d) :: ds => .text key :: .mark ':' :: compact d ++ .mark ',' :: compactEntries ds

end

/-! ## Pretty style -/

/-- The beginning of a line at a level of indentation. -/
def indent (level : Nat) : Piece := .blank (String.ofList (List.replicate (4 * level) ' '))

/-- The end of a line behind a field or element. -/
def lineEnd : List Piece := [.mark ',', .blank "\n"]

/-- Brackets around lines, closed up when there are none. -/
def enclose (opening closing : Char) (level : Nat) (lines : List Piece) : List Piece :=
  if lines.isEmpty then [.mark opening, .mark closing]
  else .mark opening :: .blank "\n" :: lines ++ [indent level, .mark closing]

mutual

/-- The pieces of a value whose first line begins at a level of indentation. -/
def pretty (level : Nat) : Document → List Piece
  | word name => [.word name]
  | number digits => [.number digits]
  | text s => [.text s]
  | wrapped name content => .word name :: .mark '(' :: pretty level content ++ [.mark ')']
  | record name fields =>
    namePieces name ++ enclose '(' ')' level (prettyFields (level + 1) fields)
  | list items => enclose '[' ']' level (prettyItems (level + 1) items)
  | tuple items => .mark '(' :: prettyTuple level items ++ [.mark ')']
  | map entries => enclose '\x7b' '\x7d' level (prettyEntries (level + 1) entries)

def prettyItems (level : Nat) : List Document → List Piece
  | [] => []
  | d :: ds => indent level :: pretty level d ++ lineEnd ++ prettyItems level ds

/-- The components of a tuple on one line. -/
def prettyTuple (level : Nat) : List Document → List Piece
  | [] => []
  | [d] => pretty level d
  | d :: ds => pretty level d ++ .mark ',' :: .blank " " :: prettyTuple level ds

def prettyFields (level : Nat) : List (String × Document) → List Piece
  | [] => []
  | (name, d) :: ds =>
    indent level :: .word name :: .mark ':' :: .blank " " :: pretty level d ++ lineEnd ++
      prettyFields level ds

def prettyEntries (level : Nat) : List (String × Document) → List Piece
  | [] => []
  | (key, d) :: ds =>
    indent level :: .text key :: .mark ':' :: .blank " " :: pretty level d ++ lineEnd ++
      prettyEntries level ds

end

def renderCompact (d : Document) : String := Piece.renderAll d.compact

def renderPretty (d : Document) : String := Piece.renderAll (d.pretty 0)

end Document

end BehaviorTree.Ron
