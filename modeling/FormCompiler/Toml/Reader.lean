import FormCompiler.Json.Reader
import FormCompiler.Toml.Scalar

/-!
# Reading TOML documents

A document is a sequence of lines: headers, assignments, comments and empty lines. A text that
breaks the rules anywhere is no document.
-/

namespace FormCompiler.Toml

/-- A blank within a line. -/
def isGap (c : Char) : Bool := c = ' ' || c = '\t'

def skipGap (input : List Char) : List Char := input.dropWhile isGap

/-- A control character that no part of a document may hold. -/
def isForbidden (c : Char) : Bool := (c.toNat < 32 && c ≠ '\t') || c.toNat = 127

/-- What follows a line end. -/
def newLine? : List Char → Option (List Char)
  | '\n' :: rest => some rest
  | '\r' :: '\n' :: rest => some rest
  | _ => none

/-- What follows an optional comment, which runs to the line end. -/
def skipComment? : List Char → Option (List Char)
  | '#' :: rest =>
      let after := rest.dropWhile fun c => !isForbidden c
      if after.isEmpty || (newLine? after).isSome then some after else none
  | rest => some rest

/-- What follows the end of a line, where only blanks and a comment may stand before it. -/
def lineEnd? (input : List Char) : Option (List Char) := do
  let rest ← skipComment? (skipGap input)
  if rest.isEmpty then pure [] else newLine? rest

/-! ## Quoted texts -/

def codeChar? (width : Nat) (input : List Char) : Option (Char × List Char) := do
  let digits := input.take width
  if digits.length < width then none
  else
    let code ← digits.foldlM (fun value c => (Json.hexDigit? c).map (value * 16 + ·)) 0
    if code.isValidChar then pure (Char.ofNat code, input.drop width) else none

/-- The character of an escape after the backslash. -/
def escaped? : List Char → Option (Char × List Char)
  | 'b' :: rest => some (Char.ofNat 8, rest)
  | 't' :: rest => some ('\t', rest)
  | 'n' :: rest => some ('\n', rest)
  | 'f' :: rest => some (Char.ofNat 12, rest)
  | 'r' :: rest => some ('\r', rest)
  | '"' :: rest => some ('"', rest)
  | '\\' :: rest => some ('\\', rest)
  | 'u' :: rest => codeChar? 4 rest
  | 'U' :: rest => codeChar? 8 rest
  | _ => none

/-- A text with escapes after its opening quote. -/
def basicText? : Nat → List Char → Option (List Char × List Char)
  | 0, _ => none
  | _, [] => none
  | _, '"' :: rest => some ([], rest)
  | fuel + 1, '\\' :: rest => do
      let (c, rest) ← escaped? rest
      let (content, rest) ← basicText? fuel rest
      pure (c :: content, rest)
  | fuel + 1, c :: rest =>
      if isForbidden c then none
      else (basicText? fuel rest).map fun (content, rest) => (c :: content, rest)

/-- A text without escapes after its opening quote. -/
def literalText? (input : List Char) : Option (List Char × List Char) :=
  let content := input.takeWhile fun c => c ≠ '\'' && !isForbidden c
  match input.dropWhile fun c => c ≠ '\'' && !isForbidden c with
  | '\'' :: rest => some (content, rest)
  | _ => none

/-- The text after a line end and all further blanks and line ends. -/
def skipFoldedLines : Nat → List Char → List Char
  | 0, input => input
  | fuel + 1, input =>
      let rest := skipGap input
      match newLine? rest with
      | some after => skipFoldedLines fuel after
      | none => rest

/-- A text over several lines after its three opening quotes. At most two quotes may stand before
the three closing ones. -/
def longText? (quote : Char) : Nat → List Char → Option (List Char × List Char)
  | 0, _ => none
  | _, [] => none
  | fuel + 1, c :: rest =>
      if c = quote then
        let run := (c :: rest).takeWhile (· = quote)
        let after := (c :: rest).dropWhile (· = quote)
        if 3 ≤ run.length then
          let taken := min run.length 5
          some (List.replicate (taken - 3) quote, (c :: rest).drop taken)
        else (longText? quote fuel after).map fun (content, rest) => (run ++ content, rest)
      else if c = '\\' && quote = '"' then
        match newLine? (skipGap rest) with
        | some after => longText? quote fuel (skipFoldedLines (after.length + 1) after)
        | none => do
            let (escaped, rest) ← escaped? rest
            let (content, rest) ← longText? quote fuel rest
            pure (escaped :: content, rest)
      else
        match newLine? (c :: rest) with
        | some after =>
            (longText? quote fuel after).map fun (content, rest) => ('\n' :: content, rest)
        | none =>
            if isForbidden c then none
            else (longText? quote fuel rest).map fun (content, rest) => (c :: content, rest)

/-- A text over several lines; a line end directly after the opening quotes does not count. -/
def longTextOf? (quote : Char) (input : List Char) : Option (List Char × List Char) :=
  longText? quote (input.length + 1) ((newLine? input).getD input)

def quotedText? : List Char → Option (List Char × List Char)
  | '"' :: '"' :: '"' :: rest => longTextOf? '"' rest
  | '\'' :: '\'' :: '\'' :: rest => longTextOf? '\'' rest
  | '"' :: rest => basicText? (rest.length + 1) rest
  | '\'' :: rest => literalText? rest
  | _ => none

/-! ## Keys -/

def isKeyChar (c : Char) : Bool := c.isAlphanum || c = '_' || c = '-'

/-- One name of a key. -/
def keyName? : List Char → Option (String × List Char)
  | '"' :: rest =>
      (basicText? (rest.length + 1) rest).map fun (name, rest) => (String.ofList name, rest)
  | '\'' :: rest => (literalText? rest).map fun (name, rest) => (String.ofList name, rest)
  | input =>
      let name := input.takeWhile isKeyChar
      if name.isEmpty then none else some (String.ofList name, input.dropWhile isKeyChar)

/-- The names of a key, with dots between them, and what follows the key and its blanks. -/
def key? : Nat → List Char → Option (List String × List Char)
  | 0, _ => none
  | fuel + 1, input => do
      let (name, rest) ← keyName? (skipGap input)
      match skipGap rest with
      | '.' :: rest => do
          let (others, rest) ← key? fuel rest
          pure (name :: others, rest)
      | rest => pure ([name], rest)

/-! ## Values -/

/-- A value without quotes and brackets. A blank may stand between a date and a time. -/
def bareValue? (input : List Char) : Option (Item × List Char) :=
  let token := input.takeWhile isScalarChar
  let rest := input.dropWhile isScalarChar
  let longer :=
    match rest with
    | ' ' :: next :: _ => isDate token && next.isDigit
    | _ => false
  if longer then
    let time := rest.tail.takeWhile isScalarChar
    (scalar? (token ++ ' ' :: time)).map fun item => (item, rest.tail.dropWhile isScalarChar)
  else (scalar? token).map fun item => (item, rest)

/-- The text after blanks, line ends and comments. -/
def skipLines? : Nat → List Char → Option (List Char)
  | 0, _ => none
  | fuel + 1, input => do
      let rest ← skipComment? (skipGap input)
      match newLine? rest with
      | some after => skipLines? fuel after
      | none => pure rest

mutual

/-- A value, and what follows it. -/
def value? : Nat → List Char → Option (Item × List Char)
  | 0, _ => none
  | fuel + 1, input =>
      match input with
      | '[' :: rest => items? fuel [] rest
      | '\x7b' :: rest =>
          match skipGap rest with
          | '\x7d' :: rest => some (.table .inline [], rest)
          | rest => members? fuel [] rest
      | '"' :: _ =>
          (quotedText? input).map fun (content, rest) => (.text (String.ofList content), rest)
      | '\'' :: _ =>
          (quotedText? input).map fun (content, rest) => (.text (String.ofList content), rest)
      | input => bareValue? input

/-- The items of an array after those that were read. -/
def items? : Nat → List Item → List Char → Option (Item × List Char)
  | 0, _, _ => none
  | fuel + 1, before, input => do
      match ← skipLines? (input.length + 1) input with
      | ']' :: rest => pure (.array before, rest)
      | input => do
          let (item, rest) ← value? fuel input
          match ← skipLines? (rest.length + 1) rest with
          | ',' :: rest => items? fuel (before ++ [item]) rest
          | ']' :: rest => pure (.array (before ++ [item]), rest)
          | _ => none

/-- The members of a table between braces after those that were read. -/
def members? : Nat → Members → List Char → Option (Item × List Char)
  | 0, _, _ => none
  | fuel + 1, before, input => do
      let (key, rest) ← key? (input.length + 1) input
      let rest ← Text.after? ['='] rest
      let (item, rest) ← value? fuel (skipGap rest)
      let members ← assign key item before
      match skipGap rest with
      | ',' :: rest => members? fuel members rest
      | '\x7d' :: rest => pure (.table .inline members, rest)
      | _ => none

end

/-! ## Documents -/

/-- What has been read of a document: its root and the table that assignments go to. -/
structure Progress where
  root : Members
  current : List String

/-- What follows a header line, and the document with the table that it opens. -/
def header? (progress : Progress) (input : List Char) : Option (Progress × List Char) :=
  match input with
  | '[' :: rest => do
      let (key, rest) ← key? (rest.length + 1) rest
      let rest ← Text.after? [']', ']'] rest
      let root ← openElement key progress.root
      pure (⟨root, key⟩, ← lineEnd? rest)
  | rest => do
      let (key, rest) ← key? (rest.length + 1) rest
      let rest ← Text.after? [']'] rest
      let root ← openTable key progress.root
      pure (⟨root, key⟩, ← lineEnd? rest)

/-- What follows an assignment, and the document with it. -/
def assignment? (progress : Progress) (input : List Char) : Option (Progress × List Char) := do
  let (key, rest) ← key? (input.length + 1) input
  let rest ← Text.after? ['='] rest
  let (item, rest) ← value? (2 * rest.length + 2) (skipGap rest)
  let root ← atPath false (assign key item) progress.current progress.root
  pure ({ progress with root }, ← lineEnd? rest)

def lines? : Nat → Progress → List Char → Option Members
  | 0, _, _ => none
  | fuel + 1, progress, input =>
      match skipGap input with
      | [] => some progress.root
      | '[' :: rest =>
          (header? progress rest).bind fun (progress, rest) => lines? fuel progress rest
      | c :: rest =>
          if c = '#' || c = '\n' || c = '\r' then
            (lineEnd? (c :: rest)).bind fun rest => lines? fuel progress rest
          else
            (assignment? progress (c :: rest)).bind fun (progress, rest) =>
              lines? fuel progress rest

/-- The root table of a document; a byte order mark in front does not belong to it. -/
def read? (source : String) : Option Members :=
  let input := (Text.after? [Char.ofNat 0xFEFF] source.toList).getD source.toList
  lines? (input.length + 1) ⟨[], []⟩ input

def parse? (source : String) : Option Json :=
  (read? source).map fun root => .object (membersToJson root)

end FormCompiler.Toml
