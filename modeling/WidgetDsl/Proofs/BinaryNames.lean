import WidgetDsl.Hierarchy.ResolvedType

/-!
Binary names, read as references and put together again. What is cut off a name when it is read can be
put back, so references tell names apart, and a reference is spelled as its class is.
-/

namespace WidgetDsl

namespace Text

section Replacing

variable {old new : Char} {s t : String}

theorem replaceChar_append (s t : String) :
    replaceChar old new (s ++ t) = replaceChar old new s ++ replaceChar old new t := by
  simp [replaceChar]

theorem replaceChar_eq_self (same : old ∈ s.toList → old = new) : replaceChar old new s = s := by
  have each : ∀ c ∈ s.toList, (if c = old then new else c) = id c := by
    intro c member
    split
    · rename_i found
      subst found
      exact (same member).symm
    · rfl
  rw [replaceChar, List.map_congr_left each, List.map_id, String.ofList_toList]

theorem replaceChar_of_not_mem (absent : old ∉ s.toList) : replaceChar old new s = s :=
  replaceChar_eq_self fun member => absurd member absent

theorem replaceChar_self (c : Char) (s : String) : replaceChar c c s = s :=
  replaceChar_eq_self fun _ => rfl

theorem intercalate_splitOn (old new : Char) (cs : List Char) :
    [new].intercalate (cs.splitOn old) = cs.map fun c => if c = old then new else c := by
  induction cs with
  | nil => rfl
  | cons c rest ih =>
    obtain ⟨first, others, pieces⟩ := List.exists_cons_of_ne_nil (List.splitOn_ne_nil old rest)
    rw [pieces] at ih
    rw [List.splitOn_eq_splitOnP] at pieces ⊢
    rw [List.splitOnP_cons_eq_if_modifyHead, pieces, List.map_cons, ← ih]
    by_cases cut : c = old
    · simp [cut]
    · cases others <;> simp [cut]

theorem intercalate_segments {glue : String} (old new : Char) (single : glue.toList = [new])
    (s : String) : String.intercalate glue (segments old s) = replaceChar old new s := by
  have pieces : (segments old s).map String.toList = s.toList.splitOn old := by
    rw [segments, List.map_map]
    exact (List.map_congr_left fun _ _ => String.toList_ofList).trans (List.map_id _)
  apply String.toList_inj.mp
  rw [String.toList_intercalate, pieces, single, intercalate_splitOn, replaceChar,
    String.toList_ofList]

theorem segments_injective {separator : Char} (same : segments separator s = segments separator t) :
    s = t := by
  have joined (u : String) :
      String.intercalate (String.singleton separator) (segments separator u) = u := by
    rw [intercalate_segments separator separator (String.toList_singleton separator),
      replaceChar_self]
  rw [← joined s, same, joined t]

end Replacing

section Last

variable {separator : Char} {cs : List Char} {s t : String}

theorem passes_of_not_mem (absent : separator ∉ cs) : ∀ c ∈ cs, (c != separator) = true := by
  intro c member
  have other : c ≠ separator := fun found => absent (found ▸ member)
  simpa using other

theorem beforeLast_append (absent : separator ∉ t.toList) :
    beforeLast separator (s ++ t) = beforeLast separator s := by
  have passes := passes_of_not_mem (mt List.mem_reverse.mp absent)
  simp [beforeLast, List.dropWhile_append_of_pos passes]

theorem last_cases (separator : Char) (s : String) :
    (beforeLast separator s = "" ∧ afterLast separator s = s) ∨
      s = beforeLast separator s ++ String.singleton separator ++ afterLast separator s := by
  have parts := List.takeWhile_append_dropWhile (p := (· != separator)) (l := s.toList.reverse)
  have stop := List.head?_dropWhile_not (· != separator) s.toList.reverse
  cases found : s.toList.reverse.dropWhile (· != separator) with
  | nil =>
    rw [found, List.append_nil] at parts
    exact .inl ⟨by simp [beforeLast, found], by simp [afterLast, parts]⟩
  | cons c before =>
    obtain rfl : c = separator := by simpa [found] using stop
    have reversed := congrArg List.reverse parts
    refine .inr (String.toList_inj.mp ?_)
    simpa [beforeLast, afterLast, found] using reversed.symm

end Last

end Text

namespace Java

theorem stripArrays_append (cs : List Char) :
    (List.replicate (stripArrays cs).2 [']', '[']).flatten ++ (stripArrays cs).1 = cs := by
  induction cs using stripArrays.induct with
  | case1 rest element depth split ih =>
    simpa [stripArrays, List.replicate_succ] using ih
  | case2 name other => simp [stripArrays]

/-- Whether a name begins with an empty package. -/
def LeadingDot (name : String) : Prop :=
  name.toList.head? = some '.'

instance (name : String) : Decidable (LeadingDot name) :=
  inferInstanceAs (Decidable (_ = _))

theorem mem_primitives_of_isPrimitive {name : String} (primitive : isPrimitive name = true) :
    name ∈ primitives.map (·.1) := by
  obtain ⟨entry, listed, same⟩ := List.lookup_isSome_iff.mp primitive
  exact List.mem_map.mpr ⟨entry, listed, (beq_iff_eq.mp same).symm⟩

namespace TypeName

theorem toList_brackets (depth : Nat) :
    (brackets depth).toList = (List.replicate depth ['[', ']']).flatten := by
  rw [brackets, String.toList_join, List.flatMap_replicate]
  rfl

theorem not_mem_brackets {c : Char} (depth : Nat) (other : c ≠ '[' ∧ c ≠ ']') :
    c ∉ (brackets depth).toList := by
  simp [toList_brackets, other]

theorem element_append_brackets (name : String) :
    (elementOf name).1 ++ brackets (elementOf name).2 = name := by
  have reversed := congrArg List.reverse (stripArrays_append name.toList.reverse)
  apply String.toList_inj.mp
  rw [String.toList_append, toList_brackets]
  simpa [elementOf, List.reverse_flatten] using reversed

theorem leadingDot_of_elementOf {name : String} (dotted : LeadingDot (elementOf name).1) :
    LeadingDot name := by
  rw [LeadingDot, ← element_append_brackets name, String.toList_append, List.head?_append, dotted]
  rfl

theorem ofBinary_eq (name : String) : ofBinary name =
    ⟨Text.beforeLast '.' (elementOf name).1, Text.segments '$' (Text.afterLast '.' (elementOf name).1),
      (elementOf name).2⟩ := by
  -- names that are read on a path of their own have no package and no nesting to be split off
  have builtin (element : String) (listed : element ∈ "void" :: primitives.map (·.1)) :
      Text.beforeLast '.' element = "" ∧
        Text.segments '$' (Text.afterLast '.' element) = [element] := by
    revert element
    decide +kernel
  unfold ofBinary
  dsimp only
  split
  · rename_i known
    obtain ⟨package, names⟩ := builtin (elementOf name).1 (by
      rcases Bool.or_eq_true_iff.mp known with primitive | void
      · exact List.mem_cons_of_mem _ (mem_primitives_of_isPrimitive primitive)
      · simp [of_decide_eq_true void])
    rw [package, names]
  · rfl

/-- The name that a reference is read from, with a dot after the package if there is one, `$` between
nested names and brackets for each array level. -/
def binaryName (type : TypeName) : String :=
  let simple := String.intercalate "$" type.names
  (if type.package = "" then simple else type.package ++ "." ++ simple) ++ brackets type.arrayDepth

variable {name : String}

theorem package_append_simple {element : String} (plain : ¬ LeadingDot element) :
    (if Text.beforeLast '.' element = "" then Text.afterLast '.' element
      else Text.beforeLast '.' element ++ "." ++ Text.afterLast '.' element) = element := by
  rcases Text.last_cases '.' element with ⟨package, simple⟩ | parts
  · rw [if_pos package, simple]
  · by_cases package : Text.beforeLast '.' element = ""
    · -- an empty package could only be told from none by the dot that is lost
      rw [package] at parts
      refine absurd ?_ plain
      rw [LeadingDot, parts]
      simp
    · rw [if_neg package]
      exact parts.symm

theorem package_ofBinary (name : String) : (ofBinary name).package = Text.beforeLast '.' name := by
  have shorter := Text.beforeLast_append (s := (elementOf name).1)
    (not_mem_brackets (elementOf name).2 (c := '.') (by decide))
  rw [element_append_brackets] at shorter
  rw [ofBinary_eq, shorter]

theorem binaryName_ofBinary (plain : ¬ LeadingDot (elementOf name).1) :
    (ofBinary name).binaryName = name := by
  rw [ofBinary_eq, binaryName]
  dsimp only
  rw [Text.intercalate_segments '$' '$' rfl, Text.replaceChar_self, package_append_simple plain,
    element_append_brackets]

theorem ofBinary_injective {a b : String} (plain : ¬ LeadingDot a) (plainToo : ¬ LeadingDot b)
    (same : ofBinary a = ofBinary b) : a = b := by
  rw [← binaryName_ofBinary fun dotted => plain (leadingDot_of_elementOf dotted), same,
    binaryName_ofBinary fun dotted => plainToo (leadingDot_of_elementOf dotted)]

theorem canonical_eq_replaceChar {type : TypeName} (package : '$' ∉ type.package.toList)
    (simple : String.intercalate "." type.names =
      Text.replaceChar '$' '.' (String.intercalate "$" type.names)) :
    type.canonical = Text.replaceChar '$' '.' type.binaryName := by
  have levels : '$' ∉ (brackets type.arrayDepth).toList := not_mem_brackets _ (by decide)
  have dot : '$' ∉ ".".toList := by decide
  rw [canonical, binaryName, Text.replaceChar_append, Text.replaceChar_of_not_mem levels]
  split
  · rw [simple]
  · rw [Text.replaceChar_append, Text.replaceChar_append, Text.replaceChar_of_not_mem package,
      Text.replaceChar_of_not_mem dot, simple]

theorem canonical_ofBinary (plain : ¬ LeadingDot (elementOf name).1)
    (package : '$' ∉ (Text.beforeLast '.' name).toList) :
    (ofBinary name).canonical = Text.replaceChar '$' '.' name := by
  have simple : String.intercalate "." (ofBinary name).names =
      Text.replaceChar '$' '.' (String.intercalate "$" (ofBinary name).names) := by
    rw [ofBinary_eq, Text.intercalate_segments '$' '.' rfl, Text.intercalate_segments '$' '$' rfl,
      Text.replaceChar_self]
  rw [← package_ofBinary] at package
  rw [canonical_eq_replaceChar package simple, binaryName_ofBinary plain]

/-- Nothing of a name is lost when it is read, so no other name is read alike, and a reference is
spelled as its class is if no `$` is in what is taken for the package. -/
theorem ofBinary_lossless (name : String) (plain : ¬ LeadingDot (elementOf name).1) :
    (ofBinary name).binaryName = name ∧
      (∀ other, ¬ LeadingDot (elementOf other).1 → ofBinary other = ofBinary name →
        other = name) ∧
      ('$' ∉ (Text.beforeLast '.' name).toList →
        ∀ type : ResolvedType, type.name = name →
          (ofBinary name).canonical = type.canonicalName) := by
  refine ⟨binaryName_ofBinary plain, fun other plainToo same => ?_, fun package type named => ?_⟩
  · rw [← binaryName_ofBinary plainToo, same, binaryName_ofBinary plain]
  · rw [canonical_ofBinary plain package, ResolvedType.canonicalName, named]

def tableRows : ResolvedType :=
  ⟨"com.example.Table$$Row[][]", .arrayType, [], none, [], [], none⟩

theorem tableRows_read : ¬ LeadingDot (elementOf tableRows.name).1 ∧
    ofBinary tableRows.name = ⟨"com.example", ["Table", "", "Row"], 2⟩ ∧
    (ofBinary tableRows.name).binaryName = tableRows.name ∧
    ofBinary "com.example.Table.$Row[][]" ≠ ofBinary tableRows.name ∧
    (ofBinary tableRows.name).canonical = tableRows.canonicalName := by
  have plain : ¬ LeadingDot (elementOf tableRows.name).1 := by decide +kernel
  obtain ⟨again, apart, spelled⟩ := ofBinary_lossless tableRows.name plain
  refine ⟨plain, by decide +kernel, again, fun same => ?_, spelled (by decide +kernel) tableRows rfl⟩
  have equal := apart "com.example.Table.$Row[][]" (by decide +kernel) same
  revert equal
  decide +kernel

/-- A dot that a name begins with is lost. -/
example : ofBinary ".Row" = ofBinary "Row" := by decide +kernel

end TypeName

end Java

end WidgetDsl
