/-!
Cutting text at a separator and at a suffix.
-/

namespace WidgetDsl.Text

def segments (separator : Char) (s : String) : List String :=
  (s.toList.splitOn separator).map String.ofList

def beforeLast (separator : Char) (s : String) : String :=
  String.ofList ((s.toList.reverse.dropWhile (· != separator)).drop 1).reverse

def afterLast (separator : Char) (s : String) : String :=
  String.ofList (s.toList.reverse.takeWhile (· != separator)).reverse

def withoutSuffix? (suffix s : String) : Option String :=
  if suffix.toList.isSuffixOf s.toList then
    some (String.ofList (s.toList.take (s.toList.length - suffix.toList.length)))
  else none

def replaceChar (old new : Char) (s : String) : String :=
  String.ofList (s.toList.map fun c => if c = old then new else c)

def occursIn (part : List Char) : List Char → Bool
  | [] => part.isEmpty
  | c :: cs => part.isPrefixOf (c :: cs) || occursIn part cs

end WidgetDsl.Text
