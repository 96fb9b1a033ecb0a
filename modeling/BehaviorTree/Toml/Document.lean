import BehaviorTree.Toml.Scalar
import BehaviorTree.Toml.Text

/-!
# TOML documents

`parse?` reads a whole document: one header or one entry to a line.  Arrays and tables in braces may
run over several lines, hold comments, and end with a comma; they may nest eighty deep.  Within
braces a line may also end in front of an equals sign and behind it.
-/

namespace BehaviorTree.Toml

/-- What a reader of items has come to, and what follows. -/
abbrev Progress (σ : Type) := Option (σ × List Char)

/-- Items separated by commas up to a closing character, at most `fuel` of them, each handed to
`item` with what the items before it came to.  Blank lines and comments may stand around them, and a
comma may follow the last. -/
def itemsUpTo? {σ : Type} (close : Char) (item : σ → List Char → Progress σ) :
    (fuel : Nat) → σ → List Char → Progress σ
  | 0, _, _ => none
  | fuel + 1, acc, cs =>
    match skipLines false cs with
    | [] => none
    | c :: rest =>
      if c == close then some (acc, rest)
      else
        match item acc (c :: rest) with
        | none => none
        | some (acc, rest) =>
          match skipLines false rest with
          | ',' :: rest => itemsUpTo? close item fuel acc rest
          | d :: rest => if d == close then some (acc, rest) else none
          | [] => none

/-- An entry: its keys, and then its value behind the equals sign.  What may stand around the equals
sign is passed over by `skip`. -/
def entry? (skip : List Char → List Char) (value : List Char → Progress Value) (cs : List Char) :
    Option ((List String × String × Value) × List Char) :=
  match path? cs with
  | none => none
  | some (path, key, rest) =>
    match skip rest with
    | '=' :: rest => (value (skip rest)).map fun (v, rest) => ((path, key, v), rest)
    | _ => none

/-- A value at the beginning of a text, nested at most `depth` deep. -/
def value? : (depth : Nat) → List Char → Progress Value
  | depth, cs =>
    match cs with
    | '[' :: rest =>
      match depth with
      | 0 => none
      | depth + 1 =>
        let item (acc : List Value) (cs : List Char) : Progress (List Value) :=
          (value? depth cs).map fun (v, rest) => (acc ++ [v], rest)
        (itemsUpTo? ']' item (rest.length + 1) [] rest).map fun (vs, rest) => (.array vs, rest)
    | '\x7b' :: rest =>
      match depth with
      | 0 => none
      | depth + 1 =>
        let item (acc : Entries) (cs : List Char) : Progress Entries :=
          match entry? (skipLines false) (value? depth) cs with
          | some ((path, key, v), rest) =>
            (Entries.assign path key v .header acc).map fun acc => (acc, rest)
          | none => none
        (itemsUpTo? '\x7d' item (rest.length + 1) [] rest).map fun (es, rest) =>
          (.table .inline es, rest)
    | '"' :: _ | '\'' :: _ =>
      (string? cs).map fun (s, rest) => (.string (String.ofList s), rest)
    | cs =>
      let (scalar, rest) := Scalar.take cs
      (Scalar.read? scalar).map fun v => (v, rest)

/-- A document as far as it has been read: its entries, and the table that the latest header
opened, as the path and key of that header. -/
structure Progressing where
  /-- The entries of the document. -/
  entries : Entries
  /-- The keys of the latest header. -/
  current : List String

/-- One line that holds a header, given what follows its opening brackets. -/
def header? (ofArray : Bool) (doc : Progressing) (cs : List Char) : Progress Progressing :=
  match path? cs with
  | none => none
  | some (path, key, rest) =>
    let closed := match ofArray, rest with
      | true, ']' :: ']' :: rest => some rest
      | false, ']' :: rest => some rest
      | _, _ => none
    match closed.bind restOfLine? with
    | none => none
    | some rest =>
      let opened := if ofArray then Entries.openNext path key doc.entries
        else Entries.openTable path key doc.entries
      opened.map fun entries => (⟨entries, path ++ [key]⟩, rest)

/-- One line that holds an entry, which goes to the table of the latest header. -/
def line? (doc : Progressing) (cs : List Char) : Progress Progressing :=
  match entry? skipBlanks (value? maxDepth) cs with
  | none => none
  | some ((path, key, v), rest) =>
    match restOfLine? rest with
    | none => none
    | some rest =>
      (Entries.editAt false (Entries.assign path key v) doc.current .header doc.entries).map
        fun entries => ({ doc with entries }, rest)

/-- The lines of a document, at most `fuel` of them. -/
def linesUpTo? : (fuel : Nat) → Progressing → List Char → Option Entries
  | 0, _, _ => none
  | fuel + 1, doc, cs =>
    match skipLines false cs with
    | [] => some doc.entries
    | '[' :: '[' :: rest => (header? true doc rest).bind fun (doc, rest) => linesUpTo? fuel doc rest
    | '[' :: rest => (header? false doc rest).bind fun (doc, rest) => linesUpTo? fuel doc rest
    | cs => (line? doc cs).bind fun (doc, rest) => linesUpTo? fuel doc rest

/-- The entries of a document.  A byte order mark may stand at its beginning. -/
def parse? (source : String) : Option Entries :=
  let cs := match source.toList with
    | '\ufeff' :: cs => cs
    | cs => cs
  linesUpTo? (cs.length + 1) ⟨[], []⟩ cs

end BehaviorTree.Toml
