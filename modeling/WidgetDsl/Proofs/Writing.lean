import WidgetDsl.Proofs.Candidacy

/-!
What a run leaves in the store. Directories may be made on the way and a temporary file is there for a
while, but in the end one file is set, or else every file is what it was.
-/

namespace WidgetDsl

theorem Path.mem_toString {path : Path} {c : Char} (notSlash : c ≠ '/') (notDot : c ≠ '.') :
    c ∈ path.toString.toList ↔ c ∈ path.root.toList ∨ ∃ part ∈ path.parts, c ∈ part.toList := by
  have joined (parts : List String) : c ∈ (String.intercalate "/" parts).toList ↔
      ∃ part ∈ parts, c ∈ part.toList := by
    induction parts with
    | nil => simp
    | cons part rest ih =>
      cases rest with
      | nil => simp
      | cons second more =>
        have slash : c ∉ "/".toList := by simpa using notSlash
        rw [String.intercalate_cons_cons, String.toList_append, String.toList_append]
        simp only [List.mem_append, ih, slash, or_false, List.exists_mem_cons_iff]
  unfold toString
  split
  · rename_i relative
    simp [relative.1, relative.2, notDot]
  · rw [String.toList_append, List.mem_append, joined]

theorem Path.parts_eq {path : Path} (named : path.name ≠ "") :
    path.parts = path.parent.parts ++ [path.name] := by
  have some : path.parts ≠ [] := by
    intro none
    simp [name, none] at named
  have last : path.name = path.parts.getLast some := by
    simp [name, List.getLast?_eq_some_getLast some]
  rw [last, parent, List.dropLast_concat_getLast]

namespace Store

variable {store before middle after : Store} {location other directory : Location} {node : Node}
  {path : Path}

def file? (store : Store) (location : Location) : Option Content :=
  match store.node? location with
  | some (.file content) => some content
  | _ => none

theorem not_fixed (free : store.node? location ≠ some .directory) :
    (isAbove location || decide (location = ["/"])) = false := by
  by_contra fixed
  exact free (by simp_all [node?])

theorem node?_put (free : store.node? location ≠ some .directory) :
    (store.put location node).node? other =
      if other = location then some node else store.node? other := by
  have fresh := not_fixed free
  unfold node?
  by_cases same : other = location
  · subst same
    simp_all [lookup_put]
  · simp [lookup_put, same]

theorem node?_remove (free : store.node? location ≠ some .directory) :
    (store.remove location).node? other =
      if other = location then none else store.node? other := by
  have fresh := not_fixed free
  unfold node?
  by_cases same : other = location
  · subst same
    simp_all [lookup_remove]
  · simp [lookup_remove, same]

theorem node?_remove_put (absent : store.node? location = none) (content : Content)
    (other : Location) :
    ((store.put location (.file content)).remove location).node? other = store.node? other := by
  have free : store.node? location ≠ some .directory := by simp [absent]
  have filled : (store.put location (.file content)).node? location ≠ some .directory := by
    simp [node?_put free]
  rw [node?_remove filled, node?_put free]
  split
  · rename_i same
    rw [same, absent]
  · rfl

/-- The same files in two stores, and in the second all directories of the first. -/
structure Keeps (before after : Store) : Prop where
  files : ∀ location, after.file? location = before.file? location
  directories : ∀ location, before.node? location = some .directory →
    after.node? location = some .directory

namespace Keeps

theorem of_node?_eq (same : ∀ location, after.node? location = before.node? location) :
    before.Keeps after :=
  ⟨fun location => by simp [file?, same], fun location => by simp [same]⟩

theorem refl (store : Store) : store.Keeps store :=
  of_node?_eq fun _ => rfl

theorem trans (earlier : before.Keeps middle) (later : middle.Keeps after) : before.Keeps after :=
  ⟨fun location => (later.files location).trans (earlier.files location),
    fun location found => later.directories location (earlier.directories location found)⟩

theorem put_directory (absent : store.node? location = none) :
    store.Keeps (store.put location .directory) := by
  have free : store.node? location ≠ some .directory := by simp [absent]
  constructor
  · intro other
    unfold file?
    rw [node?_put free]
    by_cases same : other = location
    · simp [same, absent]
    · rw [if_neg same]
  · intro other found
    rw [node?_put free]
    split
    · rfl
    · exact found

end Keeps

theorem keeps_makeDirectories (store : Store) (location : Location) (parts : List String) :
    store.Keeps (store.makeDirectories location parts).2 := by
  induction parts generalizing store location with
  | nil => exact .refl store
  | cons part rest ih =>
    unfold makeDirectories
    split
    · exact .refl store
    · rename_i next walked
      split
      · exact ih store next
      · exact .refl store
      · rename_i absent
        exact (Keeps.put_directory absent).trans (ih _ next)

theorem walk_append_eq_ok (front : List String) {back : List String} {goal : Location} :
    store.walk location (front ++ back) = .ok goal ↔
      ∃ halfway, store.walk location front = .ok halfway ∧ store.walk halfway back = .ok goal := by
  induction front generalizing location with
  | nil => simp [walk]
  | cons part rest ih =>
    simp only [List.cons_append, walk]
    split
    · simp
    · simp
    · split
      · exact ih
      · split
        · simp
        · exact ih

theorem walk_mono {parts : List String} {goal : Location}
    (directories : ∀ location, before.node? location = some .directory →
      after.node? location = some .directory)
    (found : before.walk location parts = .ok goal) : after.walk location parts = .ok goal := by
  induction parts generalizing location with
  | nil => exact found
  | cons part rest ih =>
    unfold walk at found
    split at found
    · cases found
    · cases found
    · rename_i here
      simp only [walk, directories location here]
      split at found
      · rename_i up
        rw [if_pos up]
        exact ih found
      · rename_i down
        rw [if_neg down]
        split at found
        · cases found
        · rename_i short
          rw [if_neg short]
          exact ih found

theorem walk_of_makeDirectories {parts : List String}
    (start : store.node? location = some .directory)
    (made : store.makeDirectories location parts = (.ok directory, after)) :
    after.walk location parts = .ok directory ∧ after.node? directory = some .directory := by
  induction parts generalizing store location with
  | nil =>
    cases made
    exact ⟨rfl, start⟩
  | cons part rest ih =>
    -- what is on the way to the next directory stays there while the rest is made
    have step {next : Location} {grown : Store} (walked : store.walk location [part] = .ok next)
        (keeps : store.Keeps grown) (here : grown.node? next = some .directory)
        (later : grown.makeDirectories next rest = (.ok directory, after)) :
        after.walk location (part :: rest) = .ok directory ∧
          after.node? directory = some .directory := by
      obtain ⟨onwards, arrived⟩ := ih here later
      have stays := keeps.trans (keeps_makeDirectories grown next rest)
      rw [later] at stays
      exact ⟨(walk_append_eq_ok [part]).mpr
        ⟨next, walk_mono stays.directories walked, onwards⟩, arrived⟩
    unfold makeDirectories at made
    split at made
    · cases made
    · rename_i next walked
      split at made
      · rename_i here
        exact step walked (.refl store) here made
      · cases made
      · rename_i absent
        have here : (store.put next .directory).node? next = some .directory := by
          rw [node?_put (by simp [absent]), if_pos rfl]
        exact step walked (.put_directory absent) here made

def startOf (path : Path) : Location :=
  if path.root = "" then [] else ["/"]

theorem node?_startOf (store : Store) (path : Path) :
    store.node? (startOf path) = some .directory := by
  unfold startOf node?
  split <;> simp [isAbove]

structure Usable (path : Path) : Prop where
  noNull : '\x00' ∉ path.toString.toList
  short : path.toString.utf8ByteSize ≤ pathLimit

theorem locate_eq_ok : store.locate path = .ok location ↔
    Usable path ∧ store.walk (startOf path) path.parts = .ok location := by
  unfold locate startOf
  constructor
  · intro found
    split at found
    · cases found
    rename_i noNull
    split at found
    · cases found
    rename_i short
    exact ⟨⟨noNull, Nat.le_of_not_lt short⟩, found⟩
  · rintro ⟨usable, found⟩
    rw [if_neg usable.noNull, if_neg (Nat.not_lt.mpr usable.short)]
    exact found

theorem makeDirectory_cases (store : Store) (path : Path) :
    (∃ fault after, store.makeDirectory path = (.error fault, after) ∧ store.Keeps after) ∨
    ∃ directory after, store.makeDirectory path = (.ok directory, after) ∧ store.Keeps after ∧
      after.locate path = .ok directory ∧ after.node? directory = some .directory := by
  unfold makeDirectory
  split
  · exact .inl ⟨_, _, rfl, .refl store⟩
  rename_i noNull
  split
  · exact .inl ⟨_, _, rfl, .refl store⟩
  rename_i short
  have keeps := keeps_makeDirectories store (startOf path) path.parts
  match made : store.makeDirectories (startOf path) path.parts with
  | (.error fault, after) =>
    rw [made] at keeps
    exact .inl ⟨fault, after, rfl, keeps⟩
  | (.ok directory, after) =>
    rw [made] at keeps
    obtain ⟨walked, here⟩ := walk_of_makeDirectories (node?_startOf store path) made
    have located := locate_eq_ok.mpr ⟨⟨noNull, Nat.le_of_not_lt short⟩, walked⟩
    exact .inr ⟨directory, after, rfl, keeps, located, here⟩

/-- A file is set where the name of a path leads to in a directory, and nothing else is changed. -/
structure Places (before : Store) (directory : Location) (path : Path) (content : Content)
    (after : Store) : Prop where
  nodes : ∀ location, after.node? location =
    if location = directory ++ [path.name] then some (.file content) else before.node? location
  free : before.node? (directory ++ [path.name]) ≠ some .directory
  named : path.name ≠ ""
  downwards : path.name ≠ ".."
  noNull : '\x00' ∉ path.name.toList
  short : path.name.utf8ByteSize ≤ nameLimit
  pathShort : path.toString.utf8ByteSize ≤ pathLimit

theorem name_le_of_temporary {name temporary : String}
    (listed : temporary ∈ store.temporaryNames name) :
    name.utf8ByteSize ≤ temporary.utf8ByteSize := by
  obtain ⟨n, -, rfl⟩ := List.mem_map.mp listed
  simp only [String.utf8ByteSize_append]
  omega

/-- Whatever becomes of a replacement, its temporary file is gone again. -/
theorem replaceFile_cases (store : Store) (directory : Location) (path : Path) (data : ByteArray) :
    (∃ fault after, store.replaceFile directory path data = (.error fault, after) ∧
      ∀ location, after.node? location = store.node? location) ∨
    ∃ after, store.replaceFile directory path data = (.ok (), after) ∧
      store.Places directory path (.bytes data) after := by
  unfold replaceFile
  split
  · exact .inl ⟨_, _, rfl, fun _ => rfl⟩
  rename_i noNull
  split
  · exact .inl ⟨_, _, rfl, fun _ => rfl⟩
  rename_i temporaryName found
  have absent : store.node? (directory ++ [temporaryName]) = none := by
    simpa using List.find?_some found
  have free : store.node? (directory ++ [temporaryName]) ≠ some .directory := by simp [absent]
  dsimp only
  split
  · exact .inl ⟨_, _, rfl, fun _ => rfl⟩
  rename_i fits
  have short : path.name.utf8ByteSize ≤ nameLimit := by
    have longer := name_le_of_temporary (List.mem_of_find?_eq_some found)
    omega
  have cleared := node?_remove_put absent (.bytes (data.extract 0 fileLimit))
  split
  · exact .inl ⟨_, _, rfl, cleared⟩
  split
  · exact .inl ⟨_, _, rfl, cleared⟩
  rename_i pathShort
  split
  · exact .inl ⟨_, _, rfl, cleared⟩
  · exact .inl ⟨_, _, rfl, cleared⟩
  · exact .inl ⟨_, _, rfl, cleared⟩
  rename_i named downwards notDirectory
  have target : store.node? (directory ++ [path.name]) ≠ some .directory := by
    intro here
    have other : directory ++ [path.name] ≠ directory ++ [temporaryName] := by
      intro same
      rw [same, absent] at here
      cases here
    refine notDirectory ?_
    rw [node?_put free, if_neg other, here]
  refine .inr ⟨_, rfl, ?_, target, named, downwards, noNull, short, Nat.le_of_not_lt pathShort⟩
  intro location
  rw [node?_put (by rw [cleared]; exact target), cleared]

structure Sets (before : Store) (path : Path) (content : Content) (location : Location)
    (after : Store) : Prop where
  located : after.locate path = .ok location
  file : after.file? location = some content
  others : ∀ other, other ≠ location → after.file? other = before.file? other
  directories : ∀ other, before.node? other = some .directory → after.node? other = some .directory

theorem Places.sets {content : Content} (keeps : before.Keeps middle)
    (located : middle.locate path.parent = .ok directory)
    (here : middle.node? directory = some .directory)
    (places : middle.Places directory path content after) :
    before.Sets path content (directory ++ [path.name]) after := by
  have nodes := places.nodes
  have directories (location : Location) (found : middle.node? location = some .directory) :
      after.node? location = some .directory := by
    have other : location ≠ directory ++ [path.name] := fun same => places.free (same ▸ found)
    rw [nodes, if_neg other, found]
  obtain ⟨usable, walked⟩ := locate_eq_ok.mp located
  have parts := Path.parts_eq places.named
  refine ⟨locate_eq_ok.mpr ⟨⟨?_, places.pathShort⟩, ?_⟩, ?_, ?_, ?_⟩
  · intro null
    rw [Path.mem_toString (by decide) (by decide), parts] at null
    have parentPlain := usable.noNull
    rw [Path.mem_toString (by decide) (by decide)] at parentPlain
    simp only [List.mem_append, List.mem_singleton] at null
    rcases null with root | ⟨part, inside | rfl, null⟩
    · exact parentPlain (.inl root)
    · exact parentPlain (.inr ⟨part, inside, null⟩)
    · exact places.noNull null
  · rw [parts]
    refine (walk_append_eq_ok _).mpr ⟨directory, walk_mono directories walked, ?_⟩
    have notLong : ¬ nameLimit < path.name.utf8ByteSize := Nat.not_lt.mpr places.short
    simp only [walk, directories directory here, if_neg places.downwards, if_neg notLong]
  · simp [file?, nodes]
  · intro other different
    rw [← keeps.files other, file?, file?, nodes, if_neg different]
  · intro other found
    exact directories other (keeps.directories other found)

theorem writeText_cases (store : Store) (path : Path) (text : String) :
    (∃ fault after, store.writeText path text = (.error fault, after) ∧ store.Keeps after) ∨
    ∃ location after, store.writeText path text = (.ok (), after) ∧
      store.Sets path (.bytes text.toUTF8) location after := by
  unfold writeText
  rcases makeDirectory_cases store path.parent with ⟨fault, grown, made, keeps⟩ |
    ⟨directory, grown, made, keeps, located, here⟩
  · rw [made]
    exact .inl ⟨fault, grown, rfl, keeps⟩
  rw [made]
  dsimp only
  rcases replaceFile_cases grown directory path text.toUTF8 with ⟨fault, after, replaced, same⟩ |
    ⟨after, replaced, places⟩
  · exact .inl ⟨fault, after, replaced, keeps.trans (.of_node?_eq same)⟩
  · exact .inr ⟨_, after, replaced, places.sets keeps located here⟩

end Store

namespace Generator

variable {generator : Generator} {before : Store}

/-- How a run ends, with what it leaves in the store. -/
inductive Ends (generator : Generator) (before : Store) :
    Bool → Except Failure Draft × Store → Prop where
  | stopped (write : Bool) (failure : Failure) (cause : generator.draft before = .error failure) :
      Ends generator before write (.error failure, before)
  | shown (draft : Draft) (drafted : generator.draft before = .ok draft) :
      Ends generator before false (.ok draft, before)
  | unwritten (draft : Draft) (drafted : generator.draft before = .ok draft) (fault : FileFault)
      (after : Store)
      (cause : before.writeText generator.outputPath draft.source = (.error fault, after))
      (keeps : before.Keeps after) : Ends generator before true (.error (.file fault), after)
  | written (draft : Draft) (drafted : generator.draft before = .ok draft)
      (rendered : draft.unit.render = .ok draft.source) (location : Location) (after : Store)
      (sets : before.Sets generator.outputPath (.bytes draft.source.toUTF8) location after) :
      Ends generator before true (.ok draft, after)

theorem render_of_draft {draft : Draft} (drafted : generator.draft before = .ok draft) :
    draft.unit.render = .ok draft.source := by
  obtain ⟨scan, -, drafted⟩ := bind_eq_ok.mp drafted
  obtain ⟨analysis, -, drafted⟩ := bind_eq_ok.mp drafted
  obtain ⟨table, -, drafted⟩ := bind_eq_ok.mp drafted
  obtain ⟨source, rendered, drafted⟩ := bind_eq_ok.mp drafted
  cases drafted
  exact mapError_eq_ok.mp rendered

/-- A run sets the one file that its unit goes to, or it changes no file. -/
theorem run_ends (generator : Generator) (write : Bool) (before : Store) :
    generator.Ends before write (generator.run write before) := by
  cases drafted : generator.draft before with
  | error failure =>
    have same : generator.run write before = (.error failure, before) := by
      cases write <;> simp [run, generate, drafted]
    rw [same]
    exact .stopped write failure drafted
  | ok draft =>
    cases write with
    | false =>
      have same : generator.run false before = (.ok draft, before) := by simp [run, drafted]
      rw [same]
      exact .shown draft drafted
    | true =>
      rcases before.writeText_cases generator.outputPath draft.source with
        ⟨fault, after, failed, keeps⟩ | ⟨location, after, done, sets⟩
      · have same : generator.run true before = (.error (.file fault), after) := by
          simp [run, generate, drafted, failed]
        rw [same]
        exact .unwritten draft drafted fault after failed keeps
      · have same : generator.run true before = (.ok draft, after) := by
          simp [run, generate, drafted, done]
        rw [same]
        exact .written draft drafted (render_of_draft drafted) location after sets

end Generator

end WidgetDsl
