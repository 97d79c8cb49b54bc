import WidgetDsl.Value

/-!
Reading JSON text. Besides the standard's numbers it knows `NaN` and the infinities; a number
without fraction and exponent is an integer; a repeated key keeps its first place and last value.
-/

namespace WidgetDsl.Json

inductive Fault where
  | format (fault : FormatFault)
  /-- A string with half of a surrogate pair, which is no text. What comes after it is not looked at. -/
  | halfPair
  deriving DecidableEq, Repr

def malformed {α : Type} : Except Fault α :=
  .error (.format .malformed)

def isSpace (c : Char) : Bool :=
  c == ' ' || c == '\t' || c == '\n' || c == '\r'

def skipSpace (cs : List Char) : List Char :=
  cs.dropWhile isSpace

def hexValue? (c : Char) : Option Nat :=
  if '0' ≤ c ∧ c ≤ '9' then some (c.toNat - '0'.toNat)
  else if 'a' ≤ c ∧ c ≤ 'f' then some (c.toNat - 'a'.toNat + 10)
  else if 'A' ≤ c ∧ c ≤ 'F' then some (c.toNat - 'A'.toNat + 10)
  else none

def hex4 : List Char → Option (Nat × List Char)
  | a :: b :: c :: d :: rest => do
    let a ← hexValue? a
    let b ← hexValue? b
    let c ← hexValue? c
    let d ← hexValue? d
    some (((a * 16 + b) * 16 + c) * 16 + d, rest)
  | _ => none

def simpleEscape? (c : Char) : Option Char :=
  match c with
  | '"' => some '"'
  | '\\' => some '\\'
  | '/' => some '/'
  | 'b' => some '\x08'
  | 'f' => some '\x0c'
  | 'n' => some '\n'
  | 'r' => some '\r'
  | 't' => some '\t'
  | _ => none

/-- The character of a `\u` escape after its letter; two escapes make one character where they are
the halves of a surrogate pair. -/
def unicodeEscape (cs : List Char) : Except Fault (Char × List Char) :=
  match hex4 cs with
  | none => malformed
  | some (code, rest) =>
    if 0xD800 ≤ code ∧ code < 0xDC00 then
      match rest with
      | '\\' :: 'u' :: more =>
        match hex4 more with
        | some (low, after) =>
          if 0xDC00 ≤ low ∧ low < 0xE000 then
            .ok (Char.ofNat (0x10000 + (code - 0xD800) * 0x400 + (low - 0xDC00)), after)
          else .error .halfPair
        | none => malformed
      | _ => .error .halfPair
    else if 0xDC00 ≤ code ∧ code < 0xE000 then .error .halfPair
    else .ok (Char.ofNat code, rest)

def stringBody : (fuel : Nat) → (done : List Char) → List Char → Except Fault (String × List Char)
  | 0, _, _ => malformed
  | fuel + 1, done, cs =>
    match cs with
    | '"' :: rest => .ok (String.ofList done.reverse, rest)
    | '\\' :: 'u' :: rest => do
      let (c, after) ← unicodeEscape rest
      stringBody fuel (c :: done) after
    | '\\' :: letter :: rest =>
      match simpleEscape? letter with
      | some c => stringBody fuel (c :: done) rest
      | none => malformed
    | c :: rest => if c.toNat < 0x20 then malformed else stringBody fuel (c :: done) rest
    | [] => malformed

def digitsValue (cs : List Char) : Nat :=
  cs.foldl (fun n c => n * 10 + (c.toNat - '0'.toNat)) 0

def fraction (cs : List Char) : List Char × List Char :=
  match cs with
  | '.' :: rest =>
    let digits := rest.takeWhile Char.isDigit
    if digits.isEmpty then ([], cs) else (digits, rest.dropWhile Char.isDigit)
  | _ => ([], cs)

def exponent? (cs : List Char) : Option Int × List Char :=
  match cs with
  | mark :: rest =>
    if mark == 'e' || mark == 'E' then
      let (negative, rest) :=
        match rest with
        | '-' :: more => (true, more)
        | '+' :: more => (false, more)
        | _ => (false, rest)
      let digits := rest.takeWhile Char.isDigit
      if digits.isEmpty then (none, cs)
      else
        let size : Int := digitsValue digits
        (some (if negative then -size else size), rest.dropWhile Char.isDigit)
    else (none, cs)
  | [] => (none, cs)

def number (cs : List Char) : Except Fault (Value × List Char) :=
  let (negative, body) :=
    match cs with
    | '-' :: rest => (true, rest)
    | _ => (false, cs)
  let run := body.takeWhile Char.isDigit
  let whole := if run.take 1 = ['0'] then ['0'] else run
  if whole.isEmpty then malformed
  else
    let afterWhole := body.drop whole.length
    let (part, afterPart) := fraction afterWhole
    let (power, rest) := exponent? afterPart
    if part.isEmpty ∧ power.isNone then
      if Value.integerDigits < whole.length then .error (.format (.longInteger whole.length))
      else
        let size : Int := digitsValue whole
        .ok (.int (if negative then -size else size), rest)
    else
      let scale : Int := power.getD 0 - part.length
      .ok (.float (Decimal.Binary64.ofDecimal negative (digitsValue (whole ++ part)) scale), rest)

def literals : List (String × Value) :=
  [("null", .null), ("true", .bool true), ("false", .bool false), ("NaN", .float .nan),
    ("Infinity", .float (.infinite false)), ("-Infinity", .float (.infinite true))]

def literal? (cs : List Char) : Option (Value × List Char) :=
  (literals.find? fun entry => entry.1.toList.isPrefixOf cs).map fun entry =>
    (entry.2, cs.drop entry.1.length)

mutual

/-- A value at the start of the text. Each step of the reader takes a character, so fuel beyond the
length of the text is never used up. -/
def value : (fuel : Nat) → List Char → Except Fault (Value × List Char)
  | 0, _ => malformed
  | fuel + 1, cs =>
    match cs with
    | '"' :: rest => do
      let (s, after) ← stringBody fuel [] rest
      .ok (.text s, after)
    | '[' :: rest =>
      match skipSpace rest with
      | ']' :: after => .ok (.list [], after)
      | inner => do
        let (items, after) ← elements fuel inner
        .ok (.list items, after)
    | '\x7b' :: rest =>
      match skipSpace rest with
      | '\x7d' :: after => .ok (.table [], after)
      | inner => do
        let (pairs, after) ← members fuel inner
        .ok (.table (Entries.ofList pairs), after)
    | _ =>
      match literal? cs with
      | some found => .ok found
      | none => number cs

def elements : (fuel : Nat) → List Char → Except Fault (List Value × List Char)
  | 0, _ => malformed
  | fuel + 1, cs => do
    let (item, rest) ← value fuel cs
    match skipSpace rest with
    | ',' :: more => do
      let (items, after) ← elements fuel (skipSpace more)
      .ok (item :: items, after)
    | ']' :: after => .ok ([item], after)
    | _ => malformed

def members : (fuel : Nat) → List Char → Except Fault (List (String × Value) × List Char)
  | 0, _ => malformed
  | fuel + 1, cs =>
    match cs with
    | '"' :: body => do
      let (key, rest) ← stringBody fuel [] body
      match skipSpace rest with
      | ':' :: more => do
        let (item, rest) ← value fuel (skipSpace more)
        match skipSpace rest with
        | ',' :: more => do
          let (pairs, after) ← members fuel (skipSpace more)
          .ok ((key, item) :: pairs, after)
        | '\x7d' :: after => .ok ([(key, item)], after)
        | _ => malformed
      | _ => malformed
    | _ => malformed

end

def parse (s : String) : Except Fault Value := do
  let cs := s.toList
  let (result, rest) ← value (cs.length + 1) (skipSpace cs)
  if (skipSpace rest).isEmpty then .ok result else malformed

end WidgetDsl.Json
