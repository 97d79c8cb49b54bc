import WidgetDsl.Json.Reader

/-!
The words of TOML: keys, strings, numbers, dates and times. Each is read from the start of a text,
and what follows it is handed back.
-/

namespace WidgetDsl.Toml

def isBlank (c : Char) : Bool :=
  c == ' ' || c == '\t'

def isBlankOrNewline (c : Char) : Bool :=
  isBlank c || c == '\n'

def skipBlanks (cs : List Char) : List Char :=
  cs.dropWhile isBlank

/-- Control characters other than the tab have no place in a document, and a line end only where
lines may end. -/
def isIllegal (multiline : Bool) (c : Char) : Bool :=
  (c.toNat < 0x20 || c.toNat == 0x7f) && c != '\t' && !(multiline && c == '\n')

def normalizeNewlines : List Char → List Char
  | '\r' :: '\n' :: rest => '\n' :: normalizeNewlines rest
  | c :: rest => c :: normalizeNewlines rest
  | [] => []

def skipComment (cs : List Char) : Except FormatFault (List Char) :=
  match cs with
  | '#' :: rest =>
    if (rest.takeWhile (· != '\n')).any (isIllegal false) then .error .malformed
    else .ok (rest.dropWhile (· != '\n'))
  | _ => .ok cs

def skipLines : (fuel : Nat) → List Char → Except FormatFault (List Char)
  | 0, cs => .ok cs
  | fuel + 1, cs =>
    match cs.dropWhile isBlankOrNewline with
    | '#' :: rest => do
      let after ← skipComment ('#' :: rest)
      skipLines fuel after
    | after => .ok after

def isBareKey (c : Char) : Bool :=
  c.isAlphanum || c == '-' || c == '_'

def literalString (cs : List Char) : Except FormatFault (String × List Char) :=
  let body := cs.takeWhile (· != '\'')
  match cs.dropWhile (· != '\'') with
  | _ :: rest =>
    if body.any (isIllegal false) then .error .malformed else .ok (String.ofList body, rest)
  | [] => .error .malformed

def hexEscape (digits : Nat) (cs : List Char) : Except FormatFault (Char × List Char) :=
  let written := cs.take digits
  match written.mapM Json.hexValue? with
  | none => .error .malformed
  | some values =>
    let n := values.foldl (fun n d => n * 16 + d) 0
    if written.length = digits ∧ n.isValidChar then .ok (Char.ofNat n, cs.drop digits)
    else .error .malformed

def simpleEscape? (c : Char) : Option Char :=
  match c with
  | 'b' => some '\x08'
  | 't' => some '\t'
  | 'n' => some '\n'
  | 'f' => some '\x0c'
  | 'r' => some '\r'
  | '"' => some '"'
  | '\\' => some '\\'
  | _ => none

def lineContinuation (cs : List Char) : Except FormatFault (List Char) :=
  match skipBlanks cs with
  | '\n' :: rest => .ok (rest.dropWhile isBlankOrNewline)
  | [] => .ok []
  | _ => .error .malformed

def basicString (multiline : Bool) :
    (fuel : Nat) → (done : List Char) → List Char → Except FormatFault (List Char × List Char)
  | 0, _, _ => .error .malformed
  | fuel + 1, done, cs =>
    match cs with
    | [] => .error .malformed
    | '"' :: rest =>
      if !multiline then .ok (done.reverse, rest)
      else
        match rest with
        | '"' :: '"' :: after => .ok (done.reverse, after)
        | _ => basicString multiline fuel ('"' :: done) rest
    | '\\' :: 'u' :: rest => do
      let (c, after) ← hexEscape 4 rest
      basicString multiline fuel (c :: done) after
    | '\\' :: 'U' :: rest => do
      let (c, after) ← hexEscape 8 rest
      basicString multiline fuel (c :: done) after
    | '\\' :: letter :: rest =>
      match simpleEscape? letter with
      | some c => basicString multiline fuel (c :: done) rest
      | none =>
        if multiline && isBlankOrNewline letter then do
          let after ← lineContinuation (letter :: rest)
          basicString multiline fuel done after
        else .error .malformed
    | c :: rest =>
      if c == '\\' || isIllegal multiline c then .error .malformed
      else basicString multiline fuel (c :: done) rest

def literalLines : (done : List Char) → List Char → Except FormatFault (List Char × List Char)
  | done, '\'' :: '\'' :: '\'' :: rest => .ok (done.reverse, rest)
  | done, c :: rest =>
    if isIllegal true c then .error .malformed else literalLines (c :: done) rest
  | _, [] => .error .malformed

/-- One or two more quotes right after the closing three belong to the string. -/
def extraQuotes (quote : Char) (body rest : List Char) : String × List Char :=
  match rest with
  | a :: b :: more =>
    if a = quote then
      if b = quote then (String.ofList (body ++ [quote, quote]), more)
      else (String.ofList (body ++ [quote]), b :: more)
    else (String.ofList body, rest)
  | [a] => if a = quote then (String.ofList (body ++ [quote]), []) else (String.ofList body, rest)
  | [] => (String.ofList body, rest)

def dropFirstNewline (cs : List Char) : List Char :=
  match cs with
  | '\n' :: rest => rest
  | _ => cs

def string? (cs : List Char) : Option (Except FormatFault (String × List Char)) :=
  match cs with
  | '"' :: '"' :: '"' :: rest =>
    some do
      let (body, after) ← basicString true (cs.length + 1) [] (dropFirstNewline rest)
      .ok (extraQuotes '"' body after)
  | '"' :: rest =>
    some do
      let (body, after) ← basicString false (cs.length + 1) [] rest
      .ok (String.ofList body, after)
  | '\'' :: '\'' :: '\'' :: rest =>
    some do
      let (body, after) ← literalLines [] (dropFirstNewline rest)
      .ok (extraQuotes '\'' body after)
  | '\'' :: rest => some (literalString rest)
  | _ => none

def keyPart (cs : List Char) : Except FormatFault (String × List Char) :=
  match cs with
  | '"' :: rest => do
    let (body, after) ← basicString false (cs.length + 1) [] rest
    .ok (String.ofList body, after)
  | '\'' :: rest => literalString rest
  | _ =>
    let bare := cs.takeWhile isBareKey
    if bare.isEmpty then .error .malformed
    else .ok (String.ofList bare, cs.dropWhile isBareKey)

def digitRun (isDigit : Char → Bool) : List Char → List Char × List Char
  | '_' :: c :: rest =>
    if isDigit c then
      let (digits, after) := digitRun isDigit rest
      (c :: digits, after)
    else ([], '_' :: c :: rest)
  | c :: rest =>
    if isDigit c then
      let (digits, after) := digitRun isDigit rest
      (c :: digits, after)
    else ([], c :: rest)
  | [] => ([], [])

def digits (isDigit : Char → Bool) (cs : List Char) : List Char × List Char :=
  match cs with
  | c :: _ => if isDigit c then digitRun isDigit cs else ([], cs)
  | [] => ([], [])

def inBase (base : Nat) (c : Char) : Bool :=
  match Json.hexValue? c with
  | some n => n < base
  | none => false

def baseOf? (c : Char) : Option Nat :=
  match c with
  | 'x' => some 16
  | 'o' => some 8
  | 'b' => some 2
  | _ => none

def basedInteger? (cs : List Char) : Option (Value × List Char) :=
  match cs with
  | '0' :: mark :: rest => do
    let base ← baseOf? mark
    let (run, after) := digits (inBase base) rest
    if run.isEmpty then none
    else
      let n := run.foldl (fun n c => n * base + (Json.hexValue? c).getD 0) 0
      some (.int n, after)
  | _ => none

def fraction (cs : List Char) : List Char × List Char :=
  match cs with
  | '.' :: rest =>
    let (run, after) := digits Char.isDigit rest
    if run.isEmpty then ([], cs) else (run, after)
  | _ => ([], cs)

def exponent? (cs : List Char) : Option Int × List Char :=
  match cs with
  | mark :: rest =>
    if mark == 'e' || mark == 'E' then
      let (negative, body) :=
        match rest with
        | '-' :: more => (true, more)
        | '+' :: more => (false, more)
        | _ => (false, rest)
      let (run, after) := digits Char.isDigit body
      if run.isEmpty then (none, cs)
      else
        let size : Int := Json.digitsValue run
        (some (if negative then -size else size), after)
    else (none, cs)
  | [] => (none, cs)

def decimal? (cs : List Char) : Option (Except FormatFault (Value × List Char)) :=
  let (negative, body) :=
    match cs with
    | '-' :: rest => (true, rest)
    | '+' :: rest => (false, rest)
    | _ => (false, cs)
  let (whole, afterWhole) :=
    match body with
    | '0' :: rest => (['0'], rest)
    | _ => digits Char.isDigit body
  if whole.isEmpty then none
  else
    let (part, afterPart) := fraction afterWhole
    let (power, after) := exponent? afterPart
    if part.isEmpty ∧ power.isNone then
      if Value.integerDigits < whole.length then some (.error (.longInteger whole.length))
      else
        let size : Int := Json.digitsValue whole
        some (.ok (.int (if negative then -size else size), after))
    else
      let scale : Int := power.getD 0 - part.length
      some (.ok (.float (.ofDecimal negative (Json.digitsValue (whole ++ part)) scale), after))

def specialFloats : List (String × Value) :=
  [("inf", .float (.infinite false)), ("nan", .float .nan), ("-inf", .float (.infinite true)),
    ("+inf", .float (.infinite false)), ("-nan", .float .nan), ("+nan", .float .nan)]

def word? (words : List (String × Value)) (cs : List Char) : Option (Value × List Char) :=
  (words.find? fun entry => entry.1.toList.isPrefixOf cs).map fun entry =>
    (entry.2, cs.drop entry.1.length)

def fixedDigits (count least most : Nat) (cs : List Char) : Option (Nat × List Char) :=
  let run := cs.take count
  let n := Json.digitsValue run
  if run.length = count ∧ run.all Char.isDigit ∧ least ≤ n ∧ n ≤ most then some (n, cs.drop count)
  else none

def afterChar (c : Char) (cs : List Char) : Option (List Char) :=
  match cs with
  | first :: rest => if first = c then some rest else none
  | [] => none

def time? (cs : List Char) : Option (List Char) := do
  let (_, cs) ← fixedDigits 2 0 23 cs
  let (_, cs) ← fixedDigits 2 0 59 (← afterChar ':' cs)
  let (_, cs) ← fixedDigits 2 0 59 (← afterChar ':' cs)
  match cs with
  | '.' :: c :: rest => if c.isDigit then some (rest.dropWhile Char.isDigit) else some cs
  | _ => some cs

def afterOffset (cs : List Char) : List Char :=
  match cs with
  | 'Z' :: rest => rest
  | 'z' :: rest => rest
  | sign :: rest =>
    if sign == '+' || sign == '-' then
      let found := do
        let (_, hours) ← fixedDigits 2 0 23 rest
        let (_, after) ← fixedDigits 2 0 59 (← afterChar ':' hours)
        some after
      found.getD cs
    else cs
  | [] => []

def isLeapYear (year : Nat) : Bool :=
  year % 4 == 0 && (year % 100 != 0 || year % 400 == 0)

def monthDays (year month : Nat) : Nat :=
  if month = 2 then if isLeapYear year then 29 else 28
  else if month = 4 ∨ month = 6 ∨ month = 9 ∨ month = 11 then 30
  else 31

/-- A date, perhaps with a time; a date that no calendar has is a fault. -/
def date? (cs : List Char) : Option (Except FormatFault (List Char)) := do
  let (year, rest) ← fixedDigits 4 0 9999 cs
  let (month, rest) ← fixedDigits 2 1 12 (← afterChar '-' rest)
  let (day, rest) ← fixedDigits 2 1 31 (← afterChar '-' rest)
  if year = 0 ∨ monthDays year month < day then some (.error .malformed)
  else
    match rest with
    | gap :: more =>
      if gap == 'T' || gap == 't' || gap == ' ' then
        match time? more with
        | some after => some (.ok (afterOffset after))
        | none => some (.ok rest)
      else some (.ok rest)
    | [] => some (.ok rest)

def momentUpTo (cs after : List Char) : Value :=
  .moment (String.ofList (cs.take (cs.length - after.length)))

def scalar (cs : List Char) : Except FormatFault (Value × List Char) :=
  match word? [("true", .bool true), ("false", .bool false)] cs with
  | some found => .ok found
  | none =>
    match date? cs with
    | some result => result.map fun after => (momentUpTo cs after, after)
    | none =>
      match time? cs with
      | some after => .ok (momentUpTo cs after, after)
      | none =>
        match basedInteger? cs with
        | some found => .ok found
        | none =>
          match decimal? cs with
          | some result => result
          | none =>
            match word? specialFloats cs with
            | some found => .ok found
            | none => .error .malformed

end WidgetDsl.Toml
