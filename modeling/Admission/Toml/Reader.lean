import Admission.Toml.Node
import Admission.Toml.Numeral
import Admission.Toml.Quotes

/-!
# Reading configuration texts

A text is a sequence of lines, each of them blank, a header, or a key with a value, and possibly
closed by a comment. Each reader gives what it read and the text that follows. Keys have fewer than
`depthLimit` parts and values are nested in fewer than `depthLimit` brackets, so both readers count
down from the limit; sequences are followed by a count that starts above the length of the text.
-/

namespace Admission.Toml

/-! ## Blanks and comments -/

/-- The text after the blanks that open it. -/
def skipSpaces (text : List Char) : List Char :=
  text.dropWhile isSpace

/-- The text after a comment, if it starts with one. -/
def skipComment : List Char → List Char
  | '#' :: rest => rest.dropWhile isPrintable
  | text => text

/-- What follows the end of a line, blanks and a comment before it aside. -/
def afterLine? (text : List Char) : Option (List Char) :=
  match skipComment (skipSpaces text) with
  | [] => some []
  | rest => afterBreak? rest

/-- The text after the blanks, line breaks and comments that open it, told whether it starts within
a comment. A character that no comment may hold ends the search. -/
def skipVoidFrom : Bool → List Char → List Char
  | _, [] => []
  | comment, c :: rest =>
    if c = '\n' ∨ opensBreak c rest then skipVoidFrom false rest
    else if comment then (if isPrintable c then skipVoidFrom true rest else c :: rest)
    else if isSpace c then skipVoidFrom false rest
    else if c = '#' then skipVoidFrom true rest
    else c :: rest

/-- The text after the blanks, line breaks and comments that open it. -/
def skipVoid (text : List Char) : List Char :=
  skipVoidFrom false text

/-! ## Keys -/

/-- The limit that the parts of a key and the nesting of values stay below. -/
def depthLimit : Nat := 80

/-- Whether a character may stand in a name without marks. -/
def isBare (c : Char) : Bool :=
  c.isAlphanum || c == '-' || c == '_'

/-- Reads a name without marks. -/
def readBare (text : List Char) : Option (List Char × List Char) :=
  let name := text.takeWhile isBare
  if name = [] then none else some (name, text.dropWhile isBare)

/-- Reads a name. -/
def readName (text : List Char) : Option (String × List Char) :=
  ((readLineText text).or (readBare text)).map fun (name, rest) => (String.ofList name, rest)

/-- Reads a key of at most so many parts, with the blanks around them. -/
def readKeyWithin : Nat → List Char → Option (Key × List Char)
  | 0, _ => none
  | parts + 1, text =>
    match readName (skipSpaces text) with
    | none => none
    | some (name, rest) => match skipSpaces rest with
      | '.' :: rest => (readKeyWithin parts rest).map fun (key, rest) =>
        ({ key with path := name :: key.path }, rest)
      | rest => some (⟨[], name⟩, rest)

/-- Reads a key. -/
def readKey (text : List Char) : Option (Key × List Char) :=
  readKeyWithin (depthLimit - 1) text

/-! ## Values -/

/-- What reads a value that opens a text. -/
abbrev NodeReader := List Char → Option (Node × List Char)

/-- Reads a value that holds no others. A date is tried before a number, and a number with a
fraction or power before a whole one. -/
def readScalar (text : List Char) : Option (Node × List Char) :=
  match text with
  | 't' :: 'r' :: 'u' :: 'e' :: rest => some (.boolean true, rest)
  | 'f' :: 'a' :: 'l' :: 's' :: 'e' :: rest => some (.boolean false, rest)
  | _ =>
    ((readText text).map fun (value, rest) => (.text (String.ofList value), rest)).or <|
    ((readMoment text).map fun (value, rest) => (.moment value, rest)).or <|
    ((readFloat text).map fun (value, rest) => (.float value, rest)).or <|
    (readInteger text).map fun (value, rest) => (.integer value, rest)

/-- Reads the items of a list up to and with the closing bracket; the last may have a comma. -/
def readItems (read : NodeReader) : Nat → List Char → Option (List Node × List Char)
  | 0, _ => none
  | fuel + 1, text =>
    match skipVoid text with
    | ']' :: rest => some ([], rest)
    | text => match read text with
      | none => none
      | some (item, rest) => match skipVoid rest with
        | ']' :: rest => some ([item], rest)
        | ',' :: rest => (readItems read fuel rest).map fun (items, rest) => (item :: items, rest)
        | _ => none

/-- Reads a key with its value. -/
def readEntry (read : NodeReader) (text : List Char) : Option ((Key × Node) × List Char) :=
  match readKey text with
  | some (key, '=' :: rest) =>
    (read (skipSpaces rest)).map fun (value, rest) => ((key, value), rest)
  | _ => none

/-- Reads the entries of a table in braces, of which there is at least one, up to and with the
closing brace, into a table. -/
def readEntries (read : NodeReader) : Nat → Table → List Char → Option (Table × List Char)
  | 0, _, _ => none
  | fuel + 1, t, text =>
    match readEntry read text with
    | none => none
    | some ((key, value), rest) => match t.put key value with
      | none => none
      | some t => match skipSpaces rest with
        | '}' :: rest => some (t, rest)
        | ',' :: rest => readEntries read fuel t rest
        | _ => none

/-- Reads a table after its opening brace. -/
def readBraced (read : NodeReader) (text : List Char) : Option (Table × List Char) :=
  match skipSpaces text with
  | '}' :: rest => some ([], rest)
  | _ => readEntries read (text.length + 1) [] text

/-- Reads a value with at most so many brackets and braces inside each other. -/
def readWithin : Nat → NodeReader
  | 0, text => readScalar text
  | depth + 1, text =>
    match text with
    | '[' :: rest =>
      (readItems (readWithin depth) (rest.length + 1) rest).map fun (items, rest) =>
        (.list items, rest)
    | '{' :: rest =>
      (readBraced (readWithin depth) rest).map fun (entries, rest) =>
        (.table .braced entries, rest)
    | text => readScalar text

/-- Reads a value. -/
def readValue : NodeReader :=
  readWithin (depthLimit - 1)

/-! ## Lines -/

/-- A text under way: the header that the next entries belong to, and all values so far. -/
structure Draft where
  header : List String
  root : Table

/-- Takes a header. -/
def readHeader (d : Draft) (text : List Char) : Option (Draft × List Char) :=
  match readKey text with
  | some (key, ']' :: rest) => (d.root.beginTable key).map fun root =>
    (⟨key.path ++ [key.name], root⟩, rest)
  | _ => none

/-- Takes a header with doubled brackets. -/
def readItemHeader (d : Draft) (text : List Char) : Option (Draft × List Char) :=
  match readKey text with
  | some (key, ']' :: ']' :: rest) => (d.root.beginItem key).map fun root =>
    (⟨key.path ++ [key.name], root⟩, rest)
  | _ => none

/-- Takes an entry. -/
def readPair (d : Draft) (text : List Char) : Option (Draft × List Char) :=
  match readEntry readValue text with
  | some ((key, value), rest) => (d.root.putBelow d.header key value).map fun root =>
    ({ d with root := root }, rest)
  | none => none

/-- Takes what a line holds besides blanks and a comment. -/
def readLine (d : Draft) (text : List Char) : Option (Draft × List Char) :=
  match skipSpaces text with
  | [] => some (d, [])
  | '#' :: rest => some (d, '#' :: rest)
  | '\n' :: rest => some (d, '\n' :: rest)
  | '\r' :: rest => some (d, '\r' :: rest)
  | '[' :: '[' :: rest => readItemHeader d rest
  | '[' :: rest => readHeader d rest
  | text => readPair d text

/-- Takes lines to the end of the text, followed by a count of lines. -/
def readLines : Nat → Draft → List Char → Option Draft
  | 0, _, _ => none
  | fuel + 1, d, text =>
    if text = [] then some d
    else match readLine d text with
      | none => none
      | some (d, rest) => match afterLine? rest with
        | none => none
        | some rest => readLines fuel d rest

/-- The text without a byte order mark before it. -/
def unmarked : List Char → List Char
  | '\uFEFF' :: rest => rest
  | text => text

/-- The table that a text builds, if it keeps to the grammar and to the limits of its steps. -/
def Table.ofText (text : String) : Option Table :=
  let lines := unmarked text.toList
  -- Every line but the last takes at least the character that ends it.
  (readLines (lines.length + 1) ⟨[], []⟩ lines).map Draft.root

end Admission.Toml
