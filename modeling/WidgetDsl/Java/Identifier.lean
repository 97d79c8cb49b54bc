import WidgetDsl.Text.WordChar
import WidgetDsl.Text.Segments

/-!
Java identifiers and qualified names.
-/

namespace WidgetDsl.Java

def isIdentifierStart (c : Char) : Bool :=
  c.isAlpha || c == '_' || c == '$'

def isIdentifierText : List Char → Bool
  | [] => false
  | first :: rest => isIdentifierStart first && rest.all fun c => Text.isWord c || c == '$'

/-- The shape of an identifier; keywords have it too. -/
def isIdentifier (s : String) : Bool :=
  isIdentifierText s.toList

theorem not_mem_of_isIdentifier {s : String} {c : Char} (identifier : isIdentifier s = true)
    (start : isIdentifierStart c = false) (word : Text.isWord c = false) : c ∉ s.toList := by
  have dollar : c ≠ '$' := by
    rintro rfl
    simp [isIdentifierStart] at start
  unfold isIdentifier at identifier
  cases chars : s.toList with
  | nil => simp
  | cons first rest =>
    rw [chars] at identifier
    obtain ⟨starts, continues⟩ := Bool.and_eq_true_iff.mp identifier
    rw [List.mem_cons, not_or]
    constructor
    · rintro rfl
      rw [start] at starts
      cases starts
    · intro member
      simpa [word, dollar] using List.all_eq_true.mp continues c member

def isQualifiedName (s : String) : Bool :=
  (Text.segments '.' s).all isIdentifier

def keywords : List String :=
  ["abstract", "assert", "boolean", "break", "byte", "case", "catch", "char", "class", "const",
    "continue", "default", "do", "double", "else", "enum", "extends", "final", "finally", "float",
    "for", "goto", "if", "implements", "import", "instanceof", "int", "interface", "long",
    "native", "new", "package", "private", "protected", "public", "return", "short", "static",
    "strictfp", "super", "switch", "synchronized", "this", "throw", "throws", "transient", "try",
    "void", "volatile", "while", "true", "false", "null", "var", "yield", "record"]

def isFreeIdentifier (s : String) : Bool :=
  isIdentifier s && !keywords.contains s

end WidgetDsl.Java
