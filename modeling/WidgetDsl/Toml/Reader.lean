import WidgetDsl.Toml.Namespace
import WidgetDsl.Toml.Scan

/-!
Reading TOML documents, statement by statement.
-/

namespace WidgetDsl.Toml

def key : (fuel : Nat) → List Char → Except FormatFault (KeyPath × List Char)
  | 0, _ => .error .malformed
  | fuel + 1, cs => do
    let (first, rest) ← keyPart cs
    match skipBlanks rest with
    | '.' :: more => do
      let (others, after) ← key fuel (skipBlanks more)
      .ok (first :: others, after)
    | after => .ok ([first], after)

mutual

/-- A value at the start of the text. Each step of the reader takes a character, so fuel beyond the
length of the text is never used up. -/
def value : (fuel : Nat) → List Char → Except FormatFault (Value × List Char)
  | 0, _ => .error .malformed
  | fuel + 1, cs =>
    match string? cs with
    | some result => result.map fun found => (.text found.1, found.2)
    | none =>
      match cs with
      | '[' :: rest => do
        let inner ← skipLines rest.length rest
        let (items, after) ← elements fuel inner
        .ok (.list items, after)
      | '\x7b' :: rest =>
        match skipBlanks rest with
        | '\x7d' :: after => .ok (.table [], after)
        | inner => inlineTable fuel [] [] inner
      | _ => scalar cs

def elements : (fuel : Nat) → List Char → Except FormatFault (List Value × List Char)
  | 0, _ => .error .malformed
  | fuel + 1, cs =>
    match cs with
    | ']' :: after => .ok ([], after)
    | _ => do
      let (item, rest) ← value fuel cs
      match ← skipLines rest.length rest with
      | ']' :: after => .ok ([item], after)
      | ',' :: more => do
        let inner ← skipLines more.length more
        let (items, after) ← elements fuel inner
        .ok (item :: items, after)
      | _ => .error .malformed

def inlineTable : (fuel : Nat) → (frozen : List KeyPath) → (table : Entries Value) → List Char →
    Except FormatFault (Value × List Char)
  | 0, _, _, _ => .error .malformed
  | fuel + 1, frozen, table, cs => do
    let (path, rest) ← key cs.length cs
    match rest with
    | '=' :: more => do
      let (item, rest) ← value fuel (skipBlanks more)
      match addInline frozen table path item with
      | none => .error .malformed
      | some table =>
        match skipBlanks rest with
        | '\x7d' :: after => .ok (.table table, after)
        | ',' :: more =>
          let frozen := if Draft.isCompound item then path :: frozen else frozen
          inlineTable fuel frozen table (skipBlanks more)
        | _ => .error .malformed
    | _ => .error .malformed

end

def accepted (rest : List Char) : Option Draft → Except FormatFault (Draft × List Char)
  | some draft => .ok (draft, rest)
  | none => .error .malformed

def elementHeader (draft : Draft) (cs : List Char) : Except FormatFault (Draft × List Char) := do
  let (path, rest) ← key cs.length (skipBlanks cs)
  match rest with
  | ']' :: ']' :: after => accepted after (draft.openElement path)
  | _ => .error .malformed

def tableHeader (draft : Draft) (cs : List Char) : Except FormatFault (Draft × List Char) := do
  let (path, rest) ← key cs.length (skipBlanks cs)
  match rest with
  | ']' :: after => accepted after (draft.openTable path)
  | _ => .error .malformed

def keyValue (draft : Draft) (cs : List Char) : Except FormatFault (Draft × List Char) := do
  let (path, rest) ← key cs.length cs
  match rest with
  | '=' :: more => do
    let (item, after) ← value cs.length (skipBlanks more)
    accepted after (draft.addValue path item)
  | _ => .error .malformed

def statement (draft : Draft) (cs : List Char) : Except FormatFault (Draft × List Char) :=
  match cs with
  | '[' :: '[' :: rest => elementHeader draft rest
  | '[' :: rest => tableHeader draft rest
  | '#' :: _ => .ok (draft, cs)
  | '\n' :: _ => .ok (draft, cs)
  | [] => .ok (draft, cs)
  | _ => keyValue draft cs

def lines : (fuel : Nat) → Draft → List Char → Except FormatFault Draft
  | 0, draft, _ => .ok draft
  | fuel + 1, draft, cs => do
    let (draft, rest) ← statement draft (skipBlanks cs)
    match ← skipComment (skipBlanks rest) with
    | [] => .ok draft
    | '\n' :: more => lines fuel draft more
    | _ => .error .malformed

def parse (s : String) : Except FormatFault (Entries Value) := do
  let cs := normalizeNewlines s.toList
  let draft ← lines (cs.length + 1) .empty cs
  return draft.root

end WidgetDsl.Toml
