import Marshal.Toml.Item

/-!
# Reading configuration documents

A document is a sequence of lines, each a header, a key with its item, or nothing, and a comment.
Every reader below takes text and gives what it read together with the text after it, or `none`.
-/

namespace Marshal.Toml

-- Powers with natural exponents are the core ones, whatever else is in scope.
attribute [local instance (2000)] instPowNat

def isGap (c : Char) : Bool := c == ' ' || c == '\t'

def skipGaps (text : List Char) : List Char := text.dropWhile isGap

def newline? : List Char → Option (List Char)
  | '\n' :: rest => some rest
  | '\r' :: '\n' :: rest => some rest
  | _ => none

def isRemark (c : Char) : Bool := c == '\t' || (0x20 ≤ c.toNat && c.toNat != 0x7F)

/-- The end of a line: gaps, at most one comment, and a line break or the end of the text. -/
def lineEnd? (text : List Char) : Option (List Char) :=
  let rest := match skipGaps text with
    | '#' :: remark => remark.dropWhile isRemark
    | rest => rest
  match rest with
  | [] => some []
  | _ => newline? rest

/-- The text after a character that has to come first. -/
def expect? (c : Char) : List Char → Option (List Char)
  | d :: rest => if c = d then some rest else none
  | [] => none

/-- The value of a digit in any base up to sixteen. -/
def digit? (base : Nat) (c : Char) : Option Nat :=
  let value :=
    if c.isDigit then c.toNat - '0'.toNat
    else if 'a' ≤ c && c ≤ 'f' then c.toNat - 'a'.toNat + 10
    else if 'A' ≤ c && c ≤ 'F' then c.toNat - 'A'.toNat + 10
    else base
  if value < base then some value else none

def codePoint? (digits : List Char) : Option Char := do
  let code ← digits.foldlM (fun code c => do return 16 * code + (← digit? 16 c)) 0
  if Nat.isValidChar code then some (Char.ofNat code) else none

/-- The character that an escape of one letter stands for. -/
def shortEscape? : Char → Option Char
  | 'b' => some '\x08'
  | 't' => some '\t'
  | 'n' => some '\n'
  | 'f' => some '\x0c'
  | 'r' => some '\r'
  | '"' => some '"'
  | '\\' => some '\\'
  | _ => none

def consRead (c : Char) (read : Option (List Char × List Char)) : Option (List Char × List Char) :=
  read.map fun (cs, rest) => (c :: cs, rest)

/-- Whether a character may stand for itself between quotes on one line. -/
def isPlain (c : Char) : Bool := c == '\t' || (0x20 ≤ c.toNat && c.toNat != 0x7F)

/-- A string with escapes, from after its opening quote to after its closing one. -/
def basicString : List Char → Option (List Char × List Char)
  | [] => none
  | '"' :: rest => some ([], rest)
  | '\\' :: 'u' :: a :: b :: c :: d :: rest =>
    match codePoint? [a, b, c, d] with
    | some x => consRead x (basicString rest)
    | none => none
  | '\\' :: 'U' :: a :: b :: c :: d :: e :: f :: g :: h :: rest =>
    match codePoint? [a, b, c, d, e, f, g, h] with
    | some x => consRead x (basicString rest)
    | none => none
  | '\\' :: c :: rest =>
    match shortEscape? c with
    | some x => consRead x (basicString rest)
    | none => none
  | c :: rest => if isPlain c then consRead c (basicString rest) else none

/-- A string without escapes, from after its opening quote to after its closing one. -/
def literalString : List Char → Option (List Char × List Char)
  | [] => none
  | '\'' :: rest => some ([], rest)
  | c :: rest => if isPlain c then consRead c (literalString rest) else none

/-- The end of a string over several lines, from after three closing quotes: up to two more quotes
in front of them belong to the string. -/
def closing (quote : Char) (rest : List Char) : Option (List Char × List Char) :=
  match rest with
  | a :: b :: after =>
    if a = quote then if b = quote then some ([quote, quote], after) else some ([quote], b :: after)
    else some ([], rest)
  | [a] => if a = quote then some ([quote], []) else some ([], rest)
  | [] => some ([], [])

/-- Where a reader of several lines is: in the text, or in the white space after a backslash, before
or after its line break. -/
inductive Continuation
  | inText
  | beforeBreak
  | afterBreak

/-- A string with escapes over several lines, from after its opening quotes. -/
def basicLines : Continuation → List Char → Option (List Char × List Char)
  | _, [] => none
  | .beforeBreak, '\r' :: '\n' :: rest => basicLines .afterBreak rest
  | .beforeBreak, c :: rest =>
    if isGap c then basicLines .beforeBreak rest
    else if c = '\n' then basicLines .afterBreak rest
    else none
  | .afterBreak, ' ' :: rest => basicLines .afterBreak rest
  | .afterBreak, '\t' :: rest => basicLines .afterBreak rest
  | .afterBreak, '\n' :: rest => basicLines .afterBreak rest
  | .afterBreak, '\r' :: '\n' :: rest => basicLines .afterBreak rest
  | _, '"' :: '"' :: '"' :: rest => closing '"' rest
  | _, '\\' :: 'u' :: a :: b :: c :: d :: rest =>
    match codePoint? [a, b, c, d] with
    | some x => consRead x (basicLines .inText rest)
    | none => none
  | _, '\\' :: 'U' :: a :: b :: c :: d :: e :: f :: g :: h :: rest =>
    match codePoint? [a, b, c, d, e, f, g, h] with
    | some x => consRead x (basicLines .inText rest)
    | none => none
  | _, '\\' :: '\r' :: '\n' :: rest => basicLines .afterBreak rest
  | _, '\\' :: c :: rest =>
    if isGap c then basicLines .beforeBreak rest
    else if c = '\n' then basicLines .afterBreak rest
    else
      match shortEscape? c with
      | some x => consRead x (basicLines .inText rest)
      | none => none
  | _, '\r' :: '\n' :: rest => consRead '\n' (basicLines .inText rest)
  | _, c :: rest => if c = '\n' || isPlain c then consRead c (basicLines .inText rest) else none

/-- A string without escapes over several lines, from after its opening quotes. -/
def literalLines : List Char → Option (List Char × List Char)
  | [] => none
  | '\'' :: '\'' :: '\'' :: rest => closing '\'' rest
  | '\r' :: '\n' :: rest => consRead '\n' (literalLines rest)
  | c :: rest => if c = '\n' || isPlain c then consRead c (literalLines rest) else none

/-- A line break right after opening quotes is not part of the string. -/
def dropFirstBreak (text : List Char) : List Char := (newline? text).getD text

def string? : List Char → Option (String × List Char)
  | '"' :: '"' :: '"' :: rest => do
    let (cs, rest) ← basicLines .inText (dropFirstBreak rest)
    return (String.ofList cs, rest)
  | '\'' :: '\'' :: '\'' :: rest => do
    let (cs, rest) ← literalLines (dropFirstBreak rest)
    return (String.ofList cs, rest)
  | '"' :: rest => do
    let (cs, rest) ← basicString rest
    return (String.ofList cs, rest)
  | '\'' :: rest => do
    let (cs, rest) ← literalString rest
    return (String.ofList cs, rest)
  | _ => none

def isBareKey (c : Char) : Bool := c.isAlphanum || c == '_' || c == '-'

/-- One part of a key: a word, or a string on one line. -/
def keyPart? (text : List Char) : Option (String × List Char) :=
  match text with
  | '"' :: rest => (basicString rest).map fun (cs, rest) => (String.ofList cs, rest)
  | '\'' :: rest => (literalString rest).map fun (cs, rest) => (String.ofList cs, rest)
  | _ =>
    match text.takeWhile isBareKey with
    | [] => none
    | word => some (String.ofList word, text.dropWhile isBareKey)

/-- A key: parts with points between them; `fuel` bounds their number. -/
def key? : Nat → List Char → Option (List String × List Char)
  | 0, _ => none
  | fuel + 1, text => do
    let (part, rest) ← keyPart? (skipGaps text)
    match skipGaps rest with
    | '.' :: rest => do
      let (parts, rest) ← key? fuel rest
      return (part :: parts, rest)
    | rest => return ([part], rest)

/-- The digits after the first; underscores stand between two digits. -/
def moreDigits (base number : Nat) : List Char → Nat × List Char
  | '_' :: c :: rest =>
    match digit? base c with
    | some d => moreDigits base (base * number + d) rest
    | none => (number, '_' :: c :: rest)
  | c :: rest =>
    match digit? base c with
    | some d => moreDigits base (base * number + d) rest
    | none => (number, c :: rest)
  | [] => (number, [])

/-- A number in a base, with at least one digit. -/
def digits? (base : Nat) : List Char → Option (Nat × List Char)
  | c :: rest => do
    let d ← digit? base c
    return moreDigits base d rest
  | [] => none

def decimal? : List Char → Option (Nat × List Char)
  | '0' :: rest => some (0, rest)
  | text => digits? 10 text

/-- A signed number of 64 bits: decimal with an optional sign, or in another base without one. -/
def integer? (text : List Char) : Option (Int × List Char) := do
  let (n, rest) ← match text with
    | '0' :: 'x' :: rest => (digits? 16 rest).map fun (n, rest) => (Int.ofNat n, rest)
    | '0' :: 'o' :: rest => (digits? 8 rest).map fun (n, rest) => (Int.ofNat n, rest)
    | '0' :: 'b' :: rest => (digits? 2 rest).map fun (n, rest) => (Int.ofNat n, rest)
    | '-' :: rest => (decimal? rest).map fun (n, rest) => (-Int.ofNat n, rest)
    | '+' :: rest => (decimal? rest).map fun (n, rest) => (Int.ofNat n, rest)
    | _ => (decimal? text).map fun (n, rest) => (Int.ofNat n, rest)
  if -(2 ^ (63 : Nat)) ≤ n ∧ n < 2 ^ (63 : Nat) then some (n, rest) else none

/-- Skips what may stand in an array without items: gaps, line breaks and comments. -/
def skipLines : Nat → List Char → List Char
  | 0, text => text
  | fuel + 1, text =>
    match skipGaps text with
    | '#' :: remark =>
      match newline? (remark.dropWhile isRemark) with
      | some rest => skipLines fuel rest
      | none => '#' :: remark
    | rest =>
      match newline? rest with
      | some rest => skipLines fuel rest
      | none => rest

mutual

/-- An item; `fuel` bounds the nesting of braces and the number of their entries. -/
def item? : Nat → List Char → Option (Item × List Char)
  | 0, _ => none
  | fuel + 1, text =>
    match text with
    | '"' :: _ | '\'' :: _ => (string? text).map fun (s, rest) => (.string s, rest)
    | '[' :: rest => (expect? ']' (skipLines (fuel + 1) rest)).map fun rest => (.emptyArray, rest)
    | '{' :: rest =>
      match skipGaps rest with
      | '}' :: rest => some (.table .inline [], rest)
      | _ => (entries? fuel [] rest).map fun (entries, rest) => (.table .inline entries, rest)
    | 't' :: 'r' :: 'u' :: 'e' :: rest => some (.boolean true, rest)
    | 'f' :: 'a' :: 'l' :: 's' :: 'e' :: rest => some (.boolean false, rest)
    | _ => (integer? text).map fun (n, rest) => (.integer n, rest)

/-- The entries of an inline table up to its closing brace; a dotted key in one would make a table
that no setting can hold. -/
def entries? : Nat → Table → List Char → Option (Table × List Char)
  | 0, _, _ => none
  | fuel + 1, entries, text => do
    let (key, rest) ← keyPart? (skipGaps text)
    let rest ← expect? '=' (skipGaps rest)
    let (item, rest) ← item? fuel (skipGaps rest)
    let entries ← match entries.get? key with
      | none => some (entries.put key item)
      | some _ => none
    match skipGaps rest with
    | ',' :: rest => entries? fuel entries rest
    | '}' :: rest => some (entries, rest)
    | _ => none

end

/-- Reads lines into the table; `current` is the path of the last header. -/
def lines? : Nat → List String → Table → List Char → Option Table
  | 0, _, _, _ => none
  | _, _, table, [] => some table
  | fuel + 1, current, table, text =>
    match skipGaps text with
    | '[' :: rest => do
      let (path, rest) ← key? rest.length rest
      let rest ← expect? ']' rest
      let last ← path.getLast?
      let table ← table.open? path.dropLast last
      lines? fuel path table (← lineEnd? rest)
    | c :: rest =>
      if c = '#' ∨ c = '\n' ∨ c = '\r' then do lines? fuel current table (← lineEnd? (c :: rest))
      else do
        let (path, rest) ← key? text.length text
        let rest ← expect? '=' rest
        let (item, rest) ← item? text.length (skipGaps rest)
        let last ← path.getLast?
        let table ← table.add? current path.dropLast last item
        lines? fuel current table (← lineEnd? rest)
    | [] => some table

/-- Reads a document; a byte-order mark in front of it does not count. -/
def parse? (document : String) : Option Table :=
  let text := match document.toList with
    | '\uFEFF' :: rest => rest
    | text => text
  lines? (text.length + 1) [] [] text

end Marshal.Toml
