/-!
# TOML documents

The part of TOML that settings can use: text, integers, empty lists and tables, in any of the ways
of writing them.  A document with any other value is not read, as no setting could take it.

A table may be written as a section under a header, key by key with dotted keys, or inline.  Tables
written in one way cannot be taken up again in another, except that a section may be opened in or
around the others.
-/

namespace Trainer51.Toml

/-- How a table came to be. -/
inductive Form where
  | inline
  | dotted
  /-- Under its own header. -/
  | header
  /-- Named only on the way to a header. -/
  | implicit
  deriving DecidableEq, Repr

inductive Value where
  | text (s : String)
  | integer (n : Int)
  | emptyList
  | table (form : Form) (entries : List (String × Value))

abbrev Entries := List (String × Value)

/-- What a reader makes of the start of a text, with the rest of it. -/
abbrev Reader (α : Type) := List Char → Option (α × List Char)

/-! ## Tables -/

def lookup (key : String) (es : Entries) : Option Value := (es.find? (·.1 == key)).map (·.2)

def replace (key : String) (v : Value) (es : Entries) : Entries :=
  es.map fun e => if e.1 == key then (key, v) else e

/-- Define a dotted key; it must be new and may only pass through tables of dotted keys. -/
def define (v : Value) : List String → Entries → Option Entries
  | [], _ => none
  | [key], es => if (lookup key es).isSome then none else some (es ++ [(key, v)])
  | key :: path, es =>
    match lookup key es with
    | none => (define v path []).map fun sub => es ++ [(key, .table .dotted sub)]
    | some (.table .dotted sub) =>
      (define v path sub).map fun sub => replace key (.table .dotted sub) es
    | some _ => none

/-- Open the section of a header; no other header may have opened it. -/
def openSection : List String → Entries → Option Entries
  | [], _ => none
  | [key], es =>
    match lookup key es with
    | none => some (es ++ [(key, .table .header [])])
    | some (.table .implicit sub) => some (replace key (.table .header sub) es)
    | some _ => none
  | key :: path, es =>
    match lookup key es with
    | none => (openSection path []).map fun sub => es ++ [(key, .table .implicit sub)]
    | some (.table .inline _) => none
    | some (.table form sub) =>
      (openSection path sub).map fun sub => replace key (.table form sub) es
    | some _ => none

/-- Change the entries of an open section. -/
def inSection (f : Entries → Option Entries) : List String → Entries → Option Entries
  | [], es => f es
  | key :: path, es =>
    match lookup key es with
    | some (.table form sub) =>
      (inSection f path sub).map fun sub => replace key (.table form sub) es
    | _ => none

/-! ## Blanks and comments -/

def isSpace (c : Char) : Bool := c == ' ' || c == '\t'

def skipSpaces (cs : List Char) : List Char := cs.dropWhile isSpace

/-- Characters that may stand in comments and in quotes: all but controls. -/
def isPlain (c : Char) : Bool := c == '\t' || (0x20 ≤ c.toNat && c.toNat != 0x7F)

def skipComment : List Char → List Char
  | '#' :: cs => cs.dropWhile isPlain
  | cs => cs

/-- What follows a line break. -/
def afterBreak? : List Char → Option (List Char)
  | '\n' :: cs => some cs
  | '\r' :: '\n' :: cs => some cs
  | _ => none

/-- What follows the line that has nothing left but blanks and a comment. -/
def endLine? (cs : List Char) : Option (List Char) :=
  match skipComment (skipSpaces cs) with
  | [] => some []
  | cs => afterBreak? cs

/-- Skip blanks, comments and line breaks. -/
def skipLines : (fuel : Nat) → List Char → List Char
  | 0, cs => cs
  | fuel + 1, cs =>
    let cs := skipComment (skipSpaces cs)
    match afterBreak? cs with
    | some cs => skipLines fuel cs
    | none => cs

/-! ## Text in quotes -/

def digitValue? (c : Char) : Option Nat :=
  if c.isDigit then some (c.toNat - 48)
  else if 'a' ≤ c ∧ c ≤ 'f' then some (c.toNat - 87)
  else if 'A' ≤ c ∧ c ≤ 'F' then some (c.toNat - 55)
  else none

/-- The number that digits in a base stand for.  More than 64 digits, zeros in front aside, are
beyond every number that is read here. -/
def number? (base : Nat) (ds : List Char) : Option Nat :=
  let ds := ds.dropWhile (· == '0')
  if 64 < ds.length then none
  else
    ds.foldl (fun n d =>
      match n, digitValue? d with
      | some n, some d => if d < base then some (n * base + d) else none
      | _, _ => none) (some 0)

/-- The character of a code written in hexadecimal. -/
def scalar? (ds : List Char) : Option Char :=
  match number? 16 ds with
  | some n => if n.isValidChar then some (Char.ofNat n) else none
  | none => none

def escape? : Char → Option Char
  | 'b' => some (Char.ofNat 8)
  | 't' => some '\t'
  | 'n' => some '\n'
  | 'f' => some (Char.ofNat 12)
  | 'r' => some '\r'
  | '"' => some '"'
  | '\\' => some '\\'
  | _ => none

/-- What a backslash and the characters after it stand for. -/
def readEscape : Reader Char
  | 'u' :: cs =>
    if (cs.take 4).length = 4 then (scalar? (cs.take 4)).map (·, cs.drop 4) else none
  | 'U' :: cs =>
    if (cs.take 8).length = 8 then (scalar? (cs.take 8)).map (·, cs.drop 8) else none
  | c :: cs => (escape? c).map (·, cs)
  | [] => none

/-- The rest of a line in double quotes, after the characters `read`, last first. -/
def readQuoted : (fuel : Nat) → (read : List Char) → Reader String
  | 0, _, _ => none
  | fuel + 1, read, cs =>
    match cs with
    | '"' :: cs => some (String.ofList read.reverse, cs)
    | '\\' :: cs =>
      match readEscape cs with
      | some (c, cs) => readQuoted fuel (c :: read) cs
      | none => none
    | c :: cs => if isPlain c then readQuoted fuel (c :: read) cs else none
    | [] => none

/-- The rest of a line in single quotes, which has no escapes. -/
def readLiteral (cs : List Char) : Option (String × List Char) :=
  match cs.dropWhile fun c => isPlain c && c != '\'' with
  | '\'' :: rest => some (String.ofList (cs.takeWhile fun c => isPlain c && c != '\''), rest)
  | _ => none

/-- Up to two quotes may stand before the three that close a text. -/
def closeQuotes (quote : Char) (read rest : List Char) : String × List Char :=
  let extra := (rest.take 2).takeWhile (· == quote)
  (String.ofList (read.reverse ++ extra), rest.drop extra.length)

/-- The rest of a text in three double quotes.  A backslash at the end of a line swallows the
break and the blanks after it. -/
def readQuotedLines : (fuel : Nat) → (read : List Char) → Reader String
  | 0, _, _ => none
  | fuel + 1, read, cs =>
    match cs with
    | '"' :: '"' :: '"' :: cs => some (closeQuotes '"' read cs)
    | '\\' :: cs =>
      match afterBreak? (skipSpaces cs) with
      | some cs => readQuotedLines fuel read (skipBreaks fuel cs)
      | none =>
        match readEscape cs with
        | some (c, cs) => readQuotedLines fuel (c :: read) cs
        | none => none
    | c :: rest =>
      match afterBreak? cs with
      | some cs => readQuotedLines fuel ('\n' :: read) cs
      | none => if isPlain c then readQuotedLines fuel (c :: read) rest else none
    | [] => none
where
  skipBreaks : Nat → List Char → List Char
    | 0, cs => cs
    | fuel + 1, cs =>
      match afterBreak? (skipSpaces cs) with
      | some cs => skipBreaks fuel cs
      | none => skipSpaces cs

/-- The rest of a text in three single quotes. -/
def readLiteralLines : (fuel : Nat) → (read : List Char) → Reader String
  | 0, _, _ => none
  | fuel + 1, read, cs =>
    match cs with
    | '\'' :: '\'' :: '\'' :: cs => some (closeQuotes '\'' read cs)
    | c :: rest =>
      match afterBreak? cs with
      | some cs => readLiteralLines fuel ('\n' :: read) cs
      | none => if isPlain c then readLiteralLines fuel (c :: read) rest else none
    | [] => none

/-- A line break right after the opening quotes does not count. -/
def skipFirstBreak (cs : List Char) : List Char := (afterBreak? cs).getD cs

/-! ## Keys and numbers -/

def isBareKey (c : Char) : Bool := c.isAlphanum || c == '_' || c == '-'

def readSimpleKey (fuel : Nat) (cs : List Char) : Option (String × List Char) :=
  match cs with
  | '"' :: rest => readQuoted fuel [] rest
  | '\'' :: rest => readLiteral rest
  | cs =>
    let key := cs.takeWhile isBareKey
    if key.isEmpty then none else some (String.ofList key, cs.dropWhile isBareKey)

/-- Keys have fewer parts than this, and inline tables nest less deeply. -/
def depthLimit : Nat := 80

/-- A key of at most `parts` parts, and the blanks after it. -/
def readParts (fuel : Nat) : (parts : Nat) → Reader (List String)
  | 0, _ => none
  | parts + 1, cs =>
    match readSimpleKey fuel (skipSpaces cs) with
    | none => none
    | some (part, cs) =>
      match skipSpaces cs with
      | '.' :: cs => (readParts fuel parts cs).map fun (parts, cs) => (part :: parts, cs)
      | cs => some ([part], cs)

/-- A key, part by part, and the blanks after it. -/
def readKey (fuel : Nat) : Reader (List String) := readParts fuel (depthLimit - 1)

/-- Underscores may stand between digits. -/
def separated (ds : List Char) : Bool :=
  ds.head? != some '_' && ds.getLast? != some '_'
    && !(ds.zip (ds.drop 1)).any fun (a, b) => a == '_' && b == '_'

/-- The digits of a number, underscores taken out. -/
def readDigits : Reader (List Char) := fun cs =>
  let run := cs.takeWhile fun c => c.isAlphanum || c == '_'
  let ds := run.filter (· != '_')
  if ds.isEmpty || !separated run then none else some (ds, cs.drop run.length)

/-- A decimal number has no zeros in front. -/
def readUnsigned (cs : List Char) : Option (Nat × List Char) :=
  match readDigits cs with
  | none => none
  | some (ds, rest) =>
    if ds.head? == some '0' && ds != ['0'] then none else (number? 10 ds).map (·, rest)

/-- A number in another base, which has no sign. -/
def readBased (base : Nat) (cs : List Char) : Option (Int × List Char) :=
  match readDigits cs with
  | none => none
  | some (ds, rest) => (number? base ds).map fun n => (Int.ofNat n, rest)

/-- An integer of 64 bits. -/
def readInteger (cs : List Char) : Option (Int × List Char) :=
  let read := match cs with
    | '0' :: 'x' :: cs => readBased 16 cs
    | '0' :: 'o' :: cs => readBased 8 cs
    | '0' :: 'b' :: cs => readBased 2 cs
    | '+' :: cs => (readUnsigned cs).map fun (n, cs) => (Int.ofNat n, cs)
    | '-' :: cs => (readUnsigned cs).map fun (n, cs) => (-Int.ofNat n, cs)
    | cs => (readUnsigned cs).map fun (n, cs) => (Int.ofNat n, cs)
  read.filter fun (n, _) => -0x8000000000000000 ≤ n && n < 0x8000000000000000

/-! ## Values -/

mutual

/-- A value; inline tables may nest `depth` deep. -/
def readValue : (fuel depth : Nat) → Reader Value
  | 0, _, _ => none
  | fuel + 1, depth, cs =>
    match cs with
    | '"' :: '"' :: '"' :: cs =>
      (readQuotedLines fuel [] (skipFirstBreak cs)).map fun (s, cs) => (.text s, cs)
    | '"' :: cs => (readQuoted fuel [] cs).map fun (s, cs) => (.text s, cs)
    | '\'' :: '\'' :: '\'' :: cs =>
      (readLiteralLines fuel [] (skipFirstBreak cs)).map fun (s, cs) => (.text s, cs)
    | '\'' :: cs => (readLiteral cs).map fun (s, cs) => (.text s, cs)
    | '[' :: cs =>
      match skipLines fuel cs with
      | ']' :: cs => some (.emptyList, cs)
      | _ => none
    | '\x7b' :: cs =>
      match depth, skipSpaces cs with
      | 0, _ => none
      | _ + 1, '\x7d' :: cs => some (.table .inline [], cs)
      | depth + 1, cs => readInline fuel depth [] cs
    | cs => (readInteger cs).map fun (n, cs) => (.integer n, cs)

/-- The rest of an inline table that has the entries `es` so far. -/
def readInline : (fuel depth : Nat) → Entries → Reader Value
  | 0, _, _, _ => none
  | fuel + 1, depth, es, cs =>
    match readEntry fuel depth es cs with
    | none => none
    | some (es, cs) =>
      match skipSpaces cs with
      | ',' :: cs => readInline fuel depth es cs
      | '\x7d' :: cs => some (.table .inline es, cs)
      | _ => none

/-- A key and its value, put into a table. -/
def readEntry : (fuel depth : Nat) → Entries → Reader Entries
  | 0, _, _, _ => none
  | fuel + 1, depth, es, cs =>
    match readKey fuel cs with
    | some (path, '=' :: cs) =>
      match readValue fuel depth (skipSpaces cs) with
      | some (v, cs) => (define v path es).map (·, cs)
      | none => none
    | _ => none

end

/-! ## Documents -/

/-- The rest of a document, read into the section at `path` of a table. -/
def readLines : (fuel : Nat) → (path : List String) → Entries → List Char → Option Entries
  | 0, _, _, _ => none
  | fuel + 1, path, es, cs =>
    match skipSpaces cs with
    | [] => some es
    | '[' :: cs =>
      match readKey fuel cs with
      | some (path, ']' :: cs) =>
        match endLine? cs, openSection path es with
        | some cs, some es => readLines fuel path es cs
        | _, _ => none
      | _ => none
    | cs =>
      match endLine? cs with
      | some cs => readLines fuel path es cs
      | none =>
        match readKey fuel cs with
        | some (key, '=' :: cs) =>
          match readValue fuel (depthLimit - 1) (skipSpaces cs) with
          | some (v, cs) =>
            match endLine? cs, inSection (define v key) path es with
            | some cs, some es => readLines fuel path es cs
            | _, _ => none
          | none => none
        | _ => none

/-- The table that a document describes; a byte order mark in front of it is skipped.  Readers do
not take more fuel than characters, but for a few calls that come before the character, so twice the
length is enough. -/
def read? (document : List Char) : Option Entries :=
  let cs := if document.head? == some (Char.ofNat 0xFEFF) then document.drop 1 else document
  readLines (2 * cs.length + 8) [] [] cs

end Trainer51.Toml
