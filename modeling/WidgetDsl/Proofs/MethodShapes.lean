import WidgetDsl.Attribute.Name

/-!
The shapes of method names that attributes come from. Cutting off the beginning and the end of a
listener's name leaves the event that a greedy match of the shape takes.
-/

namespace WidgetDsl.AttributeName

section Cutting

variable {start ending front rest cs body : List Char}

theorem afterStart?_eq_some_iff : afterStart? start cs = some rest ↔ cs = start ++ rest := by
  unfold afterStart?
  split
  · rename_i starts
    obtain ⟨tail, rfl⟩ := List.isPrefixOf_iff_prefix.mp starts
    rw [List.drop_left, Option.some_inj, List.append_cancel_left_eq]
  · rename_i different
    refine iff_of_false nofun fun whole => different ?_
    exact List.isPrefixOf_iff_prefix.mpr ⟨rest, whole.symm⟩

theorem beforeEnd?_eq_some_iff : beforeEnd? ending cs = some front ↔ cs = front ++ ending := by
  unfold beforeEnd?
  split
  · rename_i ends
    obtain ⟨head, rfl⟩ := List.isSuffixOf_iff_suffix.mp ends
    rw [List.length_append, Nat.add_sub_cancel, List.take_left, Option.some_inj,
      List.append_cancel_right_eq]
  · rename_i different
    refine iff_of_false nofun fun whole => different ?_
    exact List.isSuffixOf_iff_suffix.mpr ⟨front, whole.symm⟩

theorem withoutFinalNewline_eq_iff (ended : body.getLast? ≠ some '\n') :
    withoutFinalNewline cs = body ↔ cs = body ∨ cs = body ++ ['\n'] := by
  unfold withoutFinalNewline
  cases found : beforeEnd? ['\n'] cs with
  | some front =>
    obtain rfl := beforeEnd?_eq_some_iff.mp found
    have other : front ++ ['\n'] ≠ body := by
      rintro rfl
      simp at ended
    simp [other]
  | none =>
    have other : cs ≠ body ++ ['\n'] := by
      intro whole
      rw [beforeEnd?_eq_some_iff.mpr whole] at found
      cases found
    simp [other]

end Cutting

/-- Whether a method is named as those that take a listener for an event. One line end may follow. -/
structure NamesListener (method event : String) : Prop where
  nonempty : event ≠ ""
  oneLine : '\n' ∉ event.toList
  shape : method = "setOn" ++ event ++ "Listener" ∨ method = "setOn" ++ event ++ "Listener\n"

/-- Whether a method is named as those that set a property, which begins in upper case there. -/
structure NamesProperty (method : String) (first : Char) (rest : String) : Prop where
  upper : Text.isUpper first = true
  shape : method = "set" ++ String.singleton first ++ rest

section Shapes

variable {method event other : String} {cs name : List Char}

theorem event?_eq_some_iff {event : List Char} : event? cs = some event ↔
    event ≠ [] ∧ '\n' ∉ event ∧ (cs = "setOn".toList ++ event ++ "Listener".toList ∨
      cs = "setOn".toList ++ event ++ "Listener".toList ++ ['\n']) := by
  have ended : ("setOn".toList ++ event ++ "Listener".toList).getLast? ≠ some '\n' := by
    rw [List.getLast?_append]
    exact nofun
  rw [← withoutFinalNewline_eq_iff ended]
  unfold event?
  simp only [Option.bind_eq_bind, Option.bind_eq_some_iff, afterStart?_eq_some_iff,
    beforeEnd?_eq_some_iff]
  constructor
  · rintro ⟨tail, starts, found, rfl, taken⟩
    split at taken
    · cases taken
    · rename_i fits
      cases taken
      obtain ⟨nonempty, oneLine⟩ : event ≠ [] ∧ '\n' ∉ event := by simpa using fits
      exact ⟨nonempty, oneLine, by rw [starts, List.append_assoc]⟩
  · rintro ⟨nonempty, oneLine, whole⟩
    refine ⟨event ++ "Listener".toList, by rw [whole, List.append_assoc], event, rfl, ?_⟩
    simp [nonempty, oneLine]

theorem event?_toList_eq_some_iff :
    event? method.toList = some event.toList ↔ NamesListener method event := by
  have line : "Listener\n".toList = "Listener".toList ++ ['\n'] := rfl
  have nonempty : event.toList ≠ [] ↔ event ≠ "" := by simp
  have shape : method.toList = "setOn".toList ++ event.toList ++ "Listener".toList ↔
      method = "setOn" ++ event ++ "Listener" := by
    rw [← String.toList_inj, String.toList_append, String.toList_append]
  have shapeAndLine :
      method.toList = "setOn".toList ++ event.toList ++ "Listener".toList ++ ['\n'] ↔
        method = "setOn" ++ event ++ "Listener\n" := by
    rw [← String.toList_inj, String.toList_append, String.toList_append, line,
      List.append_assoc _ _ ['\n']]
  rw [event?_eq_some_iff, nonempty, shape, shapeAndLine]
  constructor
  · rintro ⟨nonempty, oneLine, shape⟩
    exact ⟨nonempty, oneLine, shape⟩
  · intro named
    exact ⟨named.nonempty, named.oneLine, named.shape⟩

theorem event?_eq_none_iff : event? method.toList = none ↔ ∀ event, ¬ NamesListener method event := by
  rw [Option.eq_none_iff_forall_ne_some]
  constructor
  · intro absent event named
    exact absent event.toList (event?_toList_eq_some_iff.mpr named)
  · intro absent event found
    rw [← String.toList_ofList (l := event)] at found
    exact absent (String.ofList event) (event?_toList_eq_some_iff.mp found)

theorem NamesListener.unique (named : NamesListener method event)
    (namedToo : NamesListener method other) : event = other := by
  have found := event?_toList_eq_some_iff.mpr named
  rw [event?_toList_eq_some_iff.mpr namedToo] at found
  exact (String.toList_inj.mp (Option.some.inj found)).symm

theorem property?_eq_some_iff : property? method.toList = some name ↔
    ∃ first rest, NamesProperty method first rest ∧ name = Text.lower first ++ rest.toList := by
  have shape (first : Char) (rest : List Char) :
      afterStart? "set".toList method.toList = some (first :: rest) ↔
        method = "set" ++ String.singleton first ++ String.ofList rest := by
    rw [afterStart?_eq_some_iff, ← String.toList_inj]
    simp
  unfold property?
  constructor
  · intro found
    split at found
    · rename_i first rest starts
      split at found
      · rename_i upper
        cases found
        exact ⟨first, String.ofList rest, ⟨upper, (shape first rest).mp starts⟩, by simp⟩
      · cases found
    · cases found
  · rintro ⟨first, rest, named, rfl⟩
    have starts : afterStart? "set".toList method.toList = some (first :: rest.toList) := by
      rw [shape, String.ofList_toList]
      exact named.shape
    simp only [starts, named.upper, if_true]

end Shapes

section Greedy

/-- The longest beginning of a line, of a character at least, after which the rest is accepted. -/
def longest? (accepts : List Char → Bool) : List Char → Option (List Char)
  | [] => none
  | c :: rest =>
    if c = '\n' then none
    else
      match longest? accepts rest with
      | some more => some (c :: more)
      | none => if accepts rest then some [c] else none

def isEnding (cs : List Char) : Bool :=
  (afterStart? "Listener".toList cs).any fun rest => rest = [] || rest = ['\n']

/-- The event that is found when a name is matched from the left, `setOn` first, then as much of the
line as can be, and then the ending. -/
def greedyEvent? (cs : List Char) : Option (List Char) :=
  (afterStart? "setOn".toList cs).bind (longest? isEnding)

variable {accepts : List Char → Bool} {cs taken rest : List Char}

theorem longest?_splits (found : longest? accepts cs = some taken) :
    ∃ rest, cs = taken ++ rest ∧ taken ≠ [] ∧ '\n' ∉ taken ∧ accepts rest = true := by
  induction cs generalizing taken with
  | nil => cases found
  | cons c cs ih =>
    unfold longest? at found
    split at found
    · cases found
    rename_i notEnd
    split at found
    · rename_i more longer
      cases found
      obtain ⟨rest, rfl, -, oneLine, accepted⟩ := ih longer
      exact ⟨rest, rfl, nofun, by simp [oneLine, Ne.symm notEnd], accepted⟩
    · split at found
      · rename_i accepted
        cases found
        exact ⟨cs, rfl, nofun, by simp [Ne.symm notEnd], accepted⟩
      · cases found

theorem exists_longest? (nonempty : taken ≠ []) (oneLine : '\n' ∉ taken)
    (accepted : accepts rest = true) :
    ∃ longest, longest? accepts (taken ++ rest) = some longest ∧
      taken.length ≤ longest.length := by
  induction taken with
  | nil => exact absurd rfl nonempty
  | cons c more ih =>
    obtain ⟨notEnd, onLine⟩ := not_or.mp (mt List.mem_cons.mpr oneLine)
    rw [List.cons_append, longest?, if_neg (Ne.symm notEnd)]
    cases more with
    | nil =>
      rw [List.nil_append]
      cases longest? accepts rest with
      | some longest => exact ⟨c :: longest, rfl, by simp⟩
      | none => exact ⟨[c], if_pos accepted, Nat.le_refl 1⟩
    | cons d others =>
      obtain ⟨longest, found, asLong⟩ := ih nofun onLine
      rw [found]
      exact ⟨c :: longest, rfl, Nat.succ_le_succ asLong⟩

theorem isEnding_iff : isEnding cs = true ↔
    cs = "Listener".toList ∨ cs = "Listener".toList ++ ['\n'] := by
  simp only [isEnding, Option.any_eq_true, afterStart?_eq_some_iff, Bool.or_eq_true,
    decide_eq_true_eq]
  constructor
  · rintro ⟨rest, rfl, rfl | rfl⟩
    · exact .inl (List.append_nil _)
    · exact .inr rfl
  · rintro (rfl | rfl)
    · exact ⟨[], (List.append_nil _).symm, .inl rfl⟩
    · exact ⟨['\n'], rfl, .inr rfl⟩

theorem event?_eq_some_iff_exists_ending {event : List Char} : event? cs = some event ↔
    event ≠ [] ∧ '\n' ∉ event ∧
      ∃ rest, cs = "setOn".toList ++ (event ++ rest) ∧ isEnding rest = true := by
  simp only [event?_eq_some_iff, isEnding_iff, List.append_assoc]
  constructor
  · rintro ⟨nonempty, oneLine, whole | whole⟩
    · exact ⟨nonempty, oneLine, _, whole, .inl rfl⟩
    · exact ⟨nonempty, oneLine, _, whole, .inr rfl⟩
  · rintro ⟨nonempty, oneLine, rest, whole, rfl | rfl⟩
    · exact ⟨nonempty, oneLine, .inl whole⟩
    · exact ⟨nonempty, oneLine, .inr whole⟩

/-- As much of the line as can be is all that can be: the ending leaves no choice. -/
theorem event?_eq_greedyEvent? (cs : List Char) : event? cs = greedyEvent? cs := by
  have sound {event : List Char} (found : greedyEvent? cs = some event) : event? cs = some event := by
    obtain ⟨tail, starts, longest⟩ := Option.bind_eq_some_iff.mp found
    obtain ⟨rest, rfl, nonempty, oneLine, ends⟩ := longest?_splits longest
    rw [event?_eq_some_iff_exists_ending]
    exact ⟨nonempty, oneLine, rest, afterStart?_eq_some_iff.mp starts, ends⟩
  cases found : event? cs with
  | none =>
    cases greedy : greedyEvent? cs with
    | none => rfl
    | some event => rw [← found, sound greedy]
  | some event =>
    obtain ⟨nonempty, oneLine, rest, whole, ends⟩ := event?_eq_some_iff_exists_ending.mp found
    obtain ⟨longest, taken, -⟩ := exists_longest? nonempty oneLine ends
    have greedy : greedyEvent? cs = some longest :=
      Option.bind_eq_some_iff.mpr ⟨_, afterStart?_eq_some_iff.mpr whole, taken⟩
    rw [greedy, ← found, sound greedy]

end Greedy

section Names

variable {method event name : String}

theorem ofMethod?_of_namesListener (named : NamesListener method event) :
    ofMethod? method 1 = some ⟨"on" ++ event, true⟩ := by
  simp [ofMethod?, event?_toList_eq_some_iff.mpr named]

theorem not_namesListener (other : ∀ name, ofMethod? method 1 ≠ some ⟨name, true⟩) :
    ∀ event, ¬ NamesListener method event := by
  intro event named
  exact other ("on" ++ event) (ofMethod?_of_namesListener named)

theorem ofMethod?_of_not_namesListener (noListener : ∀ event, ¬ NamesListener method event) :
    ofMethod? method 1 =
      (property? method.toList).map fun name => ⟨String.ofList name, false⟩ := by
  simp [ofMethod?, event?_eq_none_iff.mpr noListener]

theorem ofMethod?_eq_listener_iff : ofMethod? method 1 = some ⟨name, true⟩ ↔
    ∃ event, NamesListener method event ∧ name = "on" ++ event := by
  constructor
  · intro derived
    by_cases listener : ∃ event, NamesListener method event
    · obtain ⟨event, named⟩ := listener
      rw [ofMethod?_of_namesListener named] at derived
      cases derived
      exact ⟨event, named, rfl⟩
    · rw [ofMethod?_of_not_namesListener (not_exists.mp listener)] at derived
      obtain ⟨property, -, same⟩ := Option.map_eq_some_iff.mp derived
      cases same
  · rintro ⟨event, named, rfl⟩
    exact ofMethod?_of_namesListener named

theorem ofMethod?_eq_property_iff : ofMethod? method 1 = some ⟨name, false⟩ ↔
    (∀ event, ¬ NamesListener method event) ∧
      ∃ first rest, NamesProperty method first rest ∧
        name = String.ofList (Text.lower first) ++ rest := by
  constructor
  · intro derived
    have noListener : ∀ event, ¬ NamesListener method event :=
      not_namesListener fun listener => by simp [derived]
    rw [ofMethod?_of_not_namesListener noListener] at derived
    obtain ⟨property, found, same⟩ := Option.map_eq_some_iff.mp derived
    obtain ⟨first, rest, named, rfl⟩ := property?_eq_some_iff.mp found
    cases same
    exact ⟨noListener, first, rest, named, by simp⟩
  · rintro ⟨noListener, first, rest, named, rfl⟩
    rw [ofMethod?_of_not_namesListener noListener,
      property?_eq_some_iff.mpr ⟨first, rest, named, rfl⟩]
    simp

theorem ofMethod?_eq_none_iff : ofMethod? method 1 = none ↔
    (∀ event, ¬ NamesListener method event) ∧
      ∀ first rest, ¬ NamesProperty method first rest := by
  constructor
  · intro derived
    have noListener : ∀ event, ¬ NamesListener method event :=
      not_namesListener fun listener => by simp [derived]
    refine ⟨noListener, fun first rest named => ?_⟩
    rw [ofMethod?_eq_property_iff.mpr ⟨noListener, first, rest, named, rfl⟩] at derived
    cases derived
  · rintro ⟨noListener, others⟩
    rw [ofMethod?_of_not_namesListener noListener, Option.map_eq_none_iff,
      Option.eq_none_iff_forall_ne_some]
    intro property found
    obtain ⟨first, rest, named, -⟩ := property?_eq_some_iff.mp found
    exact others first rest named

/-- A name that has the shape of a listener's is for the event in it, which is the only one. Another
one is for the property that follows `set`, whose first character is made lower case, or for nothing;
and no name is for anything with another number of parameters than one. -/
theorem derived_by_shape (method : String) :
    (∀ event other, NamesListener method event → NamesListener method other → event = other) ∧
      (∀ name, ofMethod? method 1 = some ⟨name, true⟩ ↔
        ∃ event, NamesListener method event ∧ name = "on" ++ event) ∧
      (∀ name, ofMethod? method 1 = some ⟨name, false⟩ ↔
        (∀ event, ¬ NamesListener method event) ∧
          ∃ first rest, NamesProperty method first rest ∧
            name = String.ofList (Text.lower first) ++ rest) ∧
      (ofMethod? method 1 = none ↔
        (∀ event, ¬ NamesListener method event) ∧
          ∀ first rest, ¬ NamesProperty method first rest) ∧
      ∀ parameters, parameters ≠ 1 → ofMethod? method parameters = none := by
  refine ⟨fun event other named namedToo => named.unique namedToo,
    fun name => ofMethod?_eq_listener_iff, fun name => ofMethod?_eq_property_iff,
    ofMethod?_eq_none_iff, fun parameters other => ?_⟩
  exact if_pos other

theorem listener_shaped :
    NamesListener "setOnListenerListener\n" "Listener" ∧
      ofMethod? "setOnListenerListener\n" 1 = some ⟨"onListener", true⟩ ∧
      ofMethod? "setOnListenerListener\n" 2 = none := by
  have named : NamesListener "setOnListenerListener\n" "Listener" :=
    ⟨by decide, by decide, .inr rfl⟩
  obtain ⟨-, listener, -, -, others⟩ := derived_by_shape "setOnListenerListener\n"
  exact ⟨named, (listener "onListener").mpr ⟨"Listener", named, rfl⟩, others 2 (by decide)⟩

/-- Without an event the name is that of a property, and a dotted capital I takes two characters. -/
example : ofMethod? "setOnListener" 1 = some ⟨"onListener", false⟩ ∧
    ofMethod? "setİd" 1 = some ⟨"i̇d", false⟩ := by
  decide +kernel

end Names

end WidgetDsl.AttributeName
