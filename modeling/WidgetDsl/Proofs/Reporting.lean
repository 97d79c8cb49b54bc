import WidgetDsl.CommandLine.Run
import WidgetDsl.Proofs.Completion

/-!
What users are told of files that are not as they should be. All that can be wrong in settings and in
archives is told, except for texts that are not UTF-8, for integers of too many digits, for what makes a
container hard to unpack and for a few things that stand where nothing of their kind was expected.
-/

namespace WidgetDsl

section Results

variable {ε σ α β : Type}

/-- Whether a result is good, or else bad, in the given sense. -/
def TurnsOut (good : α → Prop) (bad : ε → Prop) : Except ε α → Prop
  | .ok a => good a
  | .error e => bad e

namespace TurnsOut

variable {good : α → Prop} {bad : ε → Prop}

theorem bind {better : β → Prop} {result : Except ε α} {next : α → Except ε β}
    (first : TurnsOut good bad result) (rest : ∀ a, good a → TurnsOut better bad (next a)) :
    TurnsOut better bad (result >>= next) := by
  cases result with
  | ok a => exact rest a first
  | error e => exact first

theorem map {better : β → Prop} {result : Except ε α} {f : α → β} (first : TurnsOut good bad result)
    (rest : ∀ a, good a → better (f a)) : TurnsOut better bad (result.map f) := by
  cases result with
  | ok a => exact rest a first
  | error e => exact first

theorem foldlM {good : σ → Prop} {f : σ → α → Except ε σ} {as : List α}
    (step : ∀ s, good s → ∀ a ∈ as, TurnsOut good bad (f s a)) {s : σ} (start : good s) :
    TurnsOut good bad (as.foldlM f s) := by
  induction as generalizing s with
  | nil => exact start
  | cons a rest ih =>
    rw [List.foldlM_cons]
    exact (step s start a List.mem_cons_self).bind fun t reached =>
      ih (fun s held b member => step s held b (List.mem_cons_of_mem _ member)) reached

theorem of_ok {result : Except ε α} (turns : TurnsOut good bad result) {a : α}
    (ended : result = .ok a) : good a := by
  rw [ended] at turns
  exact turns

end TurnsOut

/-- Whether a user is left alone with a failure. A text that cannot be held is none: what is told of it
is not known. -/
def FailureKind.isUntold (kind : FailureKind) : Bool :=
  !kind.isReported && kind ≠ .halfText

def Untold (kindOf : ε → FailureKind) (result : Except ε α) (fault : ε) : Prop :=
  result = .error fault ∧ (kindOf fault).isUntold = true

namespace Untold

variable {kindOf : ε → FailureKind} {fault : ε}

theorem bind_iff {result : Except ε α} {next : α → Except ε β} :
    Untold kindOf (result >>= next) fault ↔
      Untold kindOf result fault ∨ ∃ a, result = .ok a ∧ Untold kindOf (next a) fault := by
  simp only [Untold, bind_eq_error]
  tauto

theorem mapM_iff {f : α → Except ε β} {as : List α} :
    Untold kindOf (as.mapM f) fault ↔ ∃ before a after, as = before ++ a :: after ∧
      (∀ b ∈ before, ∃ c, f b = .ok c) ∧ Untold kindOf (f a) fault := by
  simp only [Untold, mapM_eq_error]
  tauto

theorem mapError_iff {δ : Type} {f : δ → ε} {result : Except δ α} :
    Untold kindOf (result.mapError f) fault ↔ ∃ cause, result = .error cause ∧ f cause = fault ∧
      (kindOf fault).isUntold = true := by
  simp only [Untold, mapError_eq_error]
  tauto

theorem false_of_turnsOut {good : α → Prop} {result : Except ε α}
    (told : TurnsOut good (fun e => (kindOf e).isReported = true) result) :
    ¬ Untold kindOf result fault := by
  rintro ⟨rfl, untold⟩
  have told : (kindOf fault).isReported = true := told
  rw [FailureKind.isUntold, told] at untold
  cases untold

end Untold

end Results

namespace Archive

variable {store : Store} {path : Path} {fault : ReadFault}

def memberValue (path : String) (member : PackedMember) : Except ReadFault (Option Value) :=
  if memberName member.name = "" then .error .namelessMember
  else if (binaryName? (memberName member.name)).isNone then .ok none
  else (readMember path (memberName member.name) member.unpacked).map some

theorem memberEntries_cons (path : String) (done : Entries Value) (member : PackedMember)
    (rest : List PackedMember) : memberEntries path done (member :: rest) =
      memberValue path member >>= fun value =>
        memberEntries path (value.elim done (done.insert (memberName member.name))) rest := by
  simp only [memberEntries, memberValue]
  split
  · rfl
  split
  · rfl
  · cases readMember path (memberName member.name) member.unpacked <;> rfl

theorem memberEntries_eq_error_iff {path : String} {done : Entries Value}
    {members : List PackedMember} : memberEntries path done members = .error fault ↔
      members.mapM (memberValue path) = .error fault := by
  induction members generalizing done with
  | nil => exact ⟨nofun, nofun⟩
  | cons member rest ih =>
    simp [memberEntries_cons, List.mapM_cons, bind_eq_error, ih, pure, Except.pure]

def LongInteger (text : String) (fault : ReadFault) : Prop :=
  ∃ digits, Json.parse text = .error (.format (.longInteger digits)) ∧
    fault = .text (.longInteger digits)

/-- A member that was not thought of: one without a name, or a class that cannot be unpacked, though it
is not damaged, or has too long an integer. -/
inductive UnforeseenMember (member : PackedMember) : ReadFault → Prop
  | nameless (unnamed : memberName member.name = "") : UnforeseenMember member .namelessMember
  | packed (named : memberName member.name ≠ "")
      (isClass : (binaryName? (memberName member.name)).isSome = true) {fault : ContainerFault}
      (stuck : member.unpacked = .error fault) (undamaged : fault ≠ .unreadable)
      (nameDecodes : fault ≠ .undecodableName) : UnforeseenMember member (.container fault)
  | longInteger (named : memberName member.name ≠ "")
      (isClass : (binaryName? (memberName member.name)).isSome = true) {data : ByteArray}
      {text : String} {fault : ReadFault} (unpacked : member.unpacked = .ok data)
      (decoded : String.fromUTF8? data = some text) (long : LongInteger text fault) :
      UnforeseenMember member fault

/-- An archive that was not thought of: a bundle that is not UTF-8 or has too long an integer, or a
container that cannot be opened, though it is not damaged, or with a member that was not thought of
after others that pass. -/
inductive Unforeseen (store : Store) (path : Path) : ReadFault → Prop
  | nullInPath (found : store.read path = .error .nullCharacter) :
      Unforeseen store path (.text .nullInPath)
  | notUtf8 (bundle : zipSuffixes.contains path.lowerSuffix = false) {content : Content}
      (found : store.read path = .ok content) (undecoded : content.text? = none) :
      Unforeseen store path (.text .notUtf8)
  | longInteger (bundle : zipSuffixes.contains path.lowerSuffix = false) {content : Content}
      {text : String} {fault : ReadFault} (found : store.read path = .ok content)
      (decoded : content.text? = some text) (long : LongInteger text fault) :
      Unforeseen store path fault
  | opening (container : zipSuffixes.contains path.lowerSuffix = true) {content : Content}
      {fault : ContainerFault} (found : store.read path = .ok content)
      (closed : content.members = .error fault) (undamaged : fault ≠ .unreadable) :
      Unforeseen store path (.container fault)
  | member (container : zipSuffixes.contains path.lowerSuffix = true) {content : Content}
      {before after : List PackedMember} {member : PackedMember} {fault : ReadFault}
      (found : store.read path = .ok content)
      (opened : content.members = .ok (before ++ member :: after))
      (pass : ∀ other ∈ before, ∃ value, memberValue path.toString other = .ok value)
      (unforeseen : UnforeseenMember member fault) : Unforeseen store path fault

theorem untold_readText_iff {malformed : ReadFault} (told : malformed.kind.isReported = true)
    {text : String} :
    Untold ReadFault.kind (readText malformed text) fault ↔ LongInteger text fault := by
  constructor
  · rintro ⟨failed, untold⟩
    obtain ⟨cause, parsed, rfl⟩ := mapError_eq_error.mp failed
    match cause with
    | .format .malformed =>
      rw [FailureKind.isUntold, told] at untold
      cases untold
    | .format (.longInteger digits) => exact ⟨digits, parsed, rfl⟩
    | .halfPair => cases untold
  · rintro ⟨digits, long, rfl⟩
    exact ⟨mapError_eq_error.mpr ⟨_, long, rfl⟩, rfl⟩

theorem openingFault_untold_iff {path : String} {cause : ContainerFault} :
    openingFault path cause = fault ∧ fault.kind.isUntold = true ↔
      cause ≠ .unreadable ∧ fault = .container cause := by
  constructor
  · rintro ⟨rfl, untold⟩
    cases cause with
    | unreadable => cases untold
    | _ => exact ⟨nofun, rfl⟩
  · rintro ⟨undamaged, rfl⟩
    cases cause with
    | unreadable => exact absurd rfl undamaged
    | _ => exact ⟨rfl, rfl⟩

theorem memberFault_untold_iff {path name : String} {cause : ContainerFault} :
    memberFault path name cause = fault ∧ fault.kind.isUntold = true ↔
      cause ≠ .unreadable ∧ cause ≠ .undecodableName ∧ fault = .container cause := by
  constructor
  · rintro ⟨rfl, untold⟩
    cases cause with
    | unreadable => cases untold
    | undecodableName => cases untold
    | _ => exact ⟨nofun, nofun, rfl⟩
  · rintro ⟨undamaged, nameDecodes, rfl⟩
    cases cause with
    | unreadable => exact absurd rfl undamaged
    | undecodableName => exact absurd rfl nameDecodes
    | _ => exact ⟨rfl, rfl⟩

theorem untold_readMember_iff {path name : String} {unpacked : Except ContainerFault ByteArray} :
    Untold ReadFault.kind (readMember path name unpacked) fault ↔
      (∃ cause, unpacked = .error cause ∧ cause ≠ .unreadable ∧ cause ≠ .undecodableName ∧
        fault = .container cause) ∨
      ∃ data, unpacked = .ok data ∧ ∃ text, String.fromUTF8? data = some text ∧
        LongInteger text fault := by
  unfold readMember
  rw [Untold.bind_iff, Untold.mapError_iff]
  simp only [memberFault_untold_iff, mapError_eq_ok]
  refine or_congr_right (exists_congr fun data => and_congr_right fun _ => ?_)
  cases String.fromUTF8? data with
  | none =>
    constructor
    · rintro ⟨failed, untold⟩
      cases failed
      cases untold
    · rintro ⟨_, decodes, -⟩
      cases decodes
  | some text => simpa using untold_readText_iff rfl

theorem untold_memberValue_iff {path : String} {member : PackedMember} :
    Untold ReadFault.kind (memberValue path member) fault ↔ UnforeseenMember member fault := by
  unfold memberValue
  by_cases unnamed : memberName member.name = ""
  · rw [if_pos unnamed]
    constructor
    · rintro ⟨failed, -⟩
      cases failed
      exact .nameless unnamed
    · rintro (_ | ⟨named, -⟩ | ⟨named, -⟩)
      · exact ⟨rfl, rfl⟩
      · exact absurd unnamed named
      · exact absurd unnamed named
  rw [if_neg unnamed]
  cases isClass : (binaryName? (memberName member.name)).isSome with
  | false =>
    rw [if_pos (by simpa using isClass)]
    constructor
    · rintro ⟨failed, -⟩
      cases failed
    · rintro (named | ⟨-, isSome⟩ | ⟨-, isSome⟩)
      · exact absurd named unnamed
      · rw [isClass] at isSome
        cases isSome
      · rw [isClass] at isSome
        cases isSome
  | true =>
    have some : ¬ (binaryName? (memberName member.name)).isNone = true := by
      rw [← Option.not_isSome, isClass]
      exact Bool.false_ne_true
    have sameFault : Untold ReadFault.kind
        ((readMember path (memberName member.name) member.unpacked).map Option.some) fault ↔
        Untold ReadFault.kind (readMember path (memberName member.name) member.unpacked) fault := by
      rw [Untold, map_eq_error, Untold]
    rw [if_neg some, sameFault, untold_readMember_iff]
    constructor
    · rintro (⟨cause, stuck, undamaged, nameDecodes, rfl⟩ | ⟨data, unpacked, text, decoded, long⟩)
      · exact .packed unnamed isClass stuck undamaged nameDecodes
      · exact .longInteger unnamed isClass unpacked decoded long
    · rintro (named | ⟨-, -, stuck, undamaged, nameDecodes⟩ | ⟨-, -, unpacked, decoded, long⟩)
      · exact absurd named unnamed
      · exact .inl ⟨_, stuck, undamaged, nameDecodes, rfl⟩
      · exact .inr ⟨_, unpacked, _, decoded, long⟩

theorem bundleEntries_turnsOut (path : String) (value : Value) :
    TurnsOut (fun _ => True) (fun e => (ReadFault.kind e).isReported = true)
      (bundleEntries path value) := by
  unfold bundleEntries
  repeat' split
  all_goals first | exact trivial | rfl

theorem untold_readBundle_iff (bundle : zipSuffixes.contains path.lowerSuffix = false) :
    Untold ReadFault.kind (readBundle store path) fault ↔ Unforeseen store path fault := by
  have text (text : String) : Untold ReadFault.kind
      (readText (.archive path.toString .invalidJson) text >>= bundleEntries path.toString) fault ↔
      LongInteger text fault := by
    rw [Untold.bind_iff, untold_readText_iff rfl]
    simp [Untold.false_of_turnsOut (bundleEntries_turnsOut _ _)]
  constructor
  · intro ends
    unfold readBundle at ends
    split at ends
    · rename_i found
      cases ends.1
      exact .nullInPath found
    · cases ends.1
      cases ends.2
    rename_i content found
    split at ends
    · rename_i undecoded
      cases ends.1
      exact .notUtf8 bundle found undecoded
    · rename_i decoded
      exact .longInteger bundle found decoded ((text _).mp ends)
  · rintro (found | ⟨-, found, undecoded⟩ | ⟨-, found, decoded, long⟩ | ⟨container⟩ | ⟨container⟩)
    · exact ⟨by simp [readBundle, found], rfl⟩
    · exact ⟨by simp [readBundle, found, undecoded], rfl⟩
    · simpa [readBundle, found, decoded] using (text _).mpr long
    · rw [bundle] at container
      cases container
    · rw [bundle] at container
      cases container

theorem untold_readContainer_iff (container : zipSuffixes.contains path.lowerSuffix = true) :
    Untold ReadFault.kind (readContainer store path) fault ↔ Unforeseen store path fault := by
  have entries {members : List PackedMember} : Untold ReadFault.kind
      (memberEntries path.toString [] members) fault ↔ ∃ before member after,
        members = before ++ member :: after ∧
        (∀ other ∈ before, ∃ value, memberValue path.toString other = .ok value) ∧
        UnforeseenMember member fault := by
    rw [Untold, memberEntries_eq_error_iff]
    exact Untold.mapM_iff.trans (by simp only [untold_memberValue_iff])
  have opens {content : Content} : Untold ReadFault.kind
      (content.members.mapError (openingFault path.toString)) fault ↔
      ∃ cause, content.members = .error cause ∧ cause ≠ .unreadable ∧ fault = .container cause := by
    rw [Untold.mapError_iff]
    simp only [openingFault_untold_iff]
  constructor
  · intro ends
    unfold readContainer at ends
    split at ends
    · rename_i found
      cases ends.1
      exact .nullInPath found
    · cases ends.1
      cases ends.2
    · rename_i content found
      rcases Untold.bind_iff.mp ends with stuck | ⟨members, opened, ends⟩
      · obtain ⟨cause, closed, undamaged, rfl⟩ := opens.mp stuck
        exact .opening container found closed undamaged
      · obtain ⟨before, member, after, rfl, pass, unforeseen⟩ := entries.mp ends
        exact .member container found (mapError_eq_ok.mp opened) pass unforeseen
  · rintro (found | ⟨bundle⟩ | ⟨bundle⟩ | ⟨-, found, closed, undamaged⟩ |
      ⟨-, found, opened, pass, unforeseen⟩)
    · exact ⟨by simp [readContainer, found], rfl⟩
    · rw [container] at bundle
      cases bundle
    · rw [container] at bundle
      cases bundle
    · rw [readContainer, found]
      exact Untold.bind_iff.mpr (.inl (opens.mpr ⟨_, closed, undamaged, rfl⟩))
    · rw [readContainer, found]
      refine Untold.bind_iff.mpr (.inr ⟨_, mapError_eq_ok.mpr opened, ?_⟩)
      exact entries.mpr ⟨_, _, _, rfl, pass, unforeseen⟩

/-- All that can be wrong with an archive is told, unless it was not thought of. -/
theorem untold_read_iff :
    Untold ReadFault.kind (read store path) fault ↔ Unforeseen store path fault := by
  have told (path : String) (entry : String × Value) :
      TurnsOut (fun _ => True) (fun e => (ReadFault.kind e).isReported = true)
        (readEntry path entry) := by
    unfold readEntry
    split
    · exact trivial
    · rfl
  have entries (given : Entries Value) :
      ¬ Untold ReadFault.kind (given.mapM (readEntry path.toString)) fault := by
    rw [Untold.mapM_iff]
    rintro ⟨-, entry, -, -, -, untold⟩
    exact Untold.false_of_turnsOut (told _ entry) untold
  -- once all values are there, whatever is wrong with them is told
  have rest (given : Entries Value) : ¬ Untold ReadFault.kind (do
      let entries ← given.mapM (readEntry path.toString)
      return ({ path := path.toString, entries } : Archive)) fault := by
    rw [Untold.bind_iff]
    rintro (untold | ⟨_, -, made, -⟩)
    · exact entries given untold
    · cases made
  unfold read
  dsimp only
  split
  · rename_i container
    rw [Untold.bind_iff, ← untold_readContainer_iff container]
    simp only [rest, and_false, exists_false, or_false]
  · rename_i bundle
    rw [Untold.bind_iff, ← untold_readBundle_iff (Bool.eq_false_iff.mpr bundle)]
    simp only [rest, and_false, exists_false, or_false]

end Archive

namespace Scan

def Unforeseen (store : Store) (paths : List Path) (fault : ReadFault) : Prop :=
  ∃ before path after, paths = before ++ path :: after ∧
    (∀ other ∈ before, ∃ archive, Archive.read store other = .ok archive) ∧
    Archive.Unforeseen store path fault

theorem untold_read_iff {store : Store} {archives dependencies : List Path} {fault : ReadFault} :
    Untold ReadFault.kind (read store archives dependencies) fault ↔
      Unforeseen store (archives ++ dependencies) fault := by
  have together : read store archives dependencies = .error fault ↔
      (archives ++ dependencies).mapM (Archive.read store) = .error fault := by
    simp [read, List.mapM_append, bind_eq_error, pure, Except.pure]
  rw [Untold, together]
  exact Untold.mapM_iff.trans (by simp only [Archive.untold_read_iff, Unforeseen])

end Scan

def Value.isTextual : Value → Bool
  | .null | .text _ => true
  | _ => false

namespace Settings

def checked (settings : Settings) : List Value :=
  [settings.root, settings.package, settings.className, settings.superclass, settings.runtimePackage,
    settings.runtimeClass, settings.dslClass, settings.nullableAnnotation, settings.nonNullAnnotation]

def isTextual (settings : Settings) : Bool :=
  settings.checked.all Value.isTextual && !(settings.dependencies matches .vacuous _)

end Settings

def ConfigFault.IsTold (fault : ConfigFault) : Prop :=
  fault.kind.isReported = true

def Setting.Keeps : Setting → Prop
  | .plain set => ∀ settings value, settings.isTextual = true → value.isTextual = true →
      (set settings value).isTextual = true
  | .path set => ∀ settings path, settings.isTextual = true → (set settings path).isTextual = true
  | .paths set => ∀ settings paths, settings.isTextual = true →
      (set settings (.paths paths)).isTextual = true
  | .table set => ∀ settings table, settings.isTextual = true → (set settings table).isTextual = true

namespace Settings

theorem keeps_of_mem {entry : String × Setting} (listed : entry ∈ all) : entry.2.Keeps := by
  simp only [all, List.mem_cons, List.not_mem_nil, or_false] at listed
  -- each setting is a field of its own, so the others stay as they are
  rcases listed with rfl | rfl | rfl | rfl | rfl | rfl | rfl | rfl | rfl | rfl | rfl | rfl | rfl |
    rfl | rfl
  all_goals simp +contextual [Setting.Keeps, isTextual, checked]

theorem keeps_of_lookup {key : String} {setting : Setting} (found : all.lookup key = some setting) :
    setting.Keeps :=
  keeps_of_mem (Entries.mem_of_get? found)

theorem keeps_of_ofName? {name : String} {setting : Setting} (found : ofName? name = some setting) :
    setting.Keeps := by
  obtain ⟨entry, listed, rfl⟩ := Option.map_eq_some_iff.mp found
  exact keeps_of_mem (List.mem_of_find?_eq_some listed)

theorem readOne_turnsOut {file key : String} {base : Path} {settings : Settings} {value : Value}
    (textual : settings.isTextual = true) :
    TurnsOut (·.isTextual = true) ConfigFault.IsTold (readOne file base settings key value) := by
  unfold readOne
  split
  · rfl
  · rename_i found
    split
    · exact keeps_of_lookup found _ _ textual rfl
    · rfl
  · rename_i found
    split
    · exact keeps_of_lookup found _ _ textual
    · rfl
  · rename_i found
    split
    · exact keeps_of_lookup found _ _ textual
    · rfl
  · rename_i found
    split
    · exact keeps_of_lookup found _ _ textual
    · rfl

theorem ofEntries_turnsOut (file : String) (base : Path) (entries : Entries Value) :
    TurnsOut (·.isTextual = true) ConfigFault.IsTold (ofEntries file base entries) := by
  unfold ofEntries
  split
  · exact TurnsOut.foldlM (fun _ textual _ _ => readOne_turnsOut textual) (by decide)
  · rfl

end Settings

/-- A value that is meant for what it is given for, if anything goes by that name. -/
inductive GivenSetting.Fits (name : String) : GivenSetting → Prop
  | unknown (given : GivenSetting) (none : Settings.ofName? name = none) : Fits name given
  | nothing : Fits name (.plain .null)
  | text (s : String) (names : ∃ set, Settings.ofName? name = some (.plain set)) :
      Fits name (.plain (.text s))
  | path (path : Path) (leads : ∃ set, Settings.ofName? name = some (.path set)) :
      Fits name (.path path)
  | paths (paths : List Path) (lists : ∃ set, Settings.ofName? name = some (.paths set)) :
      Fits name (.paths paths)
  | table (entries : Entries Value) (holds : ∃ set, Settings.ofName? name = some (.table set)) :
      Fits name (.plain (.table entries))

namespace Settings

theorem giveOne_turnsOut {settings : Settings} {name : String} {given : GivenSetting}
    (textual : settings.isTextual = true) (fits : given.Fits name) :
    TurnsOut (·.isTextual = true) ConfigFault.IsTold (giveOne settings name given) := by
  cases fits with
  | unknown given none =>
    rw [giveOne, none]
    rfl
  | nothing =>
    cases found : ofName? name with
    | none =>
      rw [giveOne, found]
      rfl
    | some setting =>
      rw [giveOne, found]
      exact textual
  | text s names =>
    obtain ⟨set, found⟩ := names
    rw [giveOne, found]
    exact keeps_of_ofName? found _ _ textual rfl
  | path path leads =>
    obtain ⟨set, found⟩ := leads
    rw [giveOne, found]
    exact keeps_of_ofName? found _ _ textual
  | paths paths lists =>
    obtain ⟨set, found⟩ := lists
    rw [giveOne, found]
    cases paths with
    | nil => exact textual
    | cons path rest => exact keeps_of_ofName? found _ _ textual
  | table entries holds =>
    obtain ⟨set, found⟩ := holds
    rw [giveOne, found]
    exact keeps_of_ofName? found _ _ textual

theorem give_turnsOut {settings : Settings} {given : Entries GivenSetting}
    (textual : settings.isTextual = true) (fits : ∀ entry ∈ given, entry.2.Fits entry.1) :
    TurnsOut (·.isTextual = true) ConfigFault.IsTold (settings.give given) :=
  TurnsOut.foldlM (fun _ textual entry listed => giveOne_turnsOut textual (fits entry listed)) textual

section

variable {shape : String → Bool} {label default : String} {value : Value}

theorem name_turnsOut (textual : value.isTextual = true) :
    TurnsOut (fun _ => True) ConfigFault.IsTold (name shape label value) := by
  cases value with
  | text s =>
    simp only [name]
    split
    · exact trivial
    · rfl
  | null => rfl
  | _ => cases textual

theorem nameOr_turnsOut (textual : value.isTextual = true) :
    TurnsOut (fun _ => True) ConfigFault.IsTold (nameOr shape label default value) := by
  unfold nameOr
  split
  · exact name_turnsOut rfl
  · exact name_turnsOut textual

theorem name?_turnsOut (textual : value.isTextual = true) :
    TurnsOut (fun _ => True) ConfigFault.IsTold (name? shape label value) := by
  cases value with
  | text s =>
    have named : TurnsOut (fun _ => True) ConfigFault.IsTold (name shape label (.text s)) :=
      name_turnsOut rfl
    exact named.map fun _ _ => trivial
  | null => exact trivial
  | _ => cases textual

end

theorem archivesOf_turnsOut (paths : PathsSetting) :
    TurnsOut (fun _ => True) ConfigFault.IsTold (archivesOf paths) := by
  unfold archivesOf
  split
  · exact trivial
  · rfl

theorem table_turnsOut (overrides : Option GivenTable) :
    TurnsOut (fun _ => True) ConfigFault.IsTold (table overrides) := by
  unfold table
  split
  · exact trivial
  · exact trivial
  · rfl

theorem dependenciesOf_turnsOut {paths : PathsSetting} (listed : ∀ value, paths ≠ .vacuous value) :
    TurnsOut (fun _ => True) ConfigFault.IsTold (dependenciesOf paths) := by
  cases paths with
  | vacuous value => exact absurd rfl (listed value)
  | _ => exact trivial

/-- A user is told why no configuration can be made of texts. -/
theorem toConfig_turnsOut {settings : Settings} (textual : settings.isTextual = true) :
    TurnsOut (fun _ => True) ConfigFault.IsTold settings.toConfig := by
  obtain ⟨checked, listed⟩ := Bool.and_eq_true_iff.mp textual
  have names : ∀ value ∈ settings.checked, value.isTextual = true := List.all_eq_true.mp checked
  have dependencies : ∀ value, settings.dependencies ≠ .vacuous value := by
    intro value vacuous
    simp [vacuous] at listed
  simp only [Settings.checked, List.forall_mem_cons] at names
  obtain ⟨root, package, className, superclass, runtimePackage, runtimeClass, dslClass,
    nullableAnnotation, nonNullAnnotation, -⟩ := names
  unfold toConfig
  dsimp only
  split
  -- the checks in their order, none of which needs what another one has found
  · refine (archivesOf_turnsOut settings.archives).bind fun _ _ => ?_
    refine (name_turnsOut root).bind fun _ _ => ?_
    refine (name_turnsOut package).bind fun _ _ => ?_
    refine (nameOr_turnsOut runtimePackage).bind fun _ _ => ?_
    refine (nameOr_turnsOut nullableAnnotation).bind fun _ _ => ?_
    refine (nameOr_turnsOut nonNullAnnotation).bind fun _ _ => ?_
    refine (name_turnsOut className).bind fun _ _ => ?_
    refine (nameOr_turnsOut runtimeClass).bind fun _ _ => ?_
    refine (nameOr_turnsOut dslClass).bind fun _ _ => ?_
    refine (name?_turnsOut superclass).bind fun _ _ => ?_
    refine (table_turnsOut settings.overrides).bind fun _ _ => ?_
    exact (dependenciesOf_turnsOut dependencies).bind fun _ _ => trivial
  · rfl

end Settings

namespace Config

variable {store : Store} {path start : Path} {fault : ConfigFault}

/-- A file of which no table can be read, in a way that was not thought of. -/
inductive UnforeseenText (store : Store) (path : Path) : ConfigFault → Prop
  | nullInPath (found : store.read path = .error .nullCharacter) :
      UnforeseenText store path (.text .nullInPath)
  | notUtf8 {content : Content} (found : store.read path = .ok content)
      (undecoded : content.text? = none) : UnforeseenText store path (.text .notUtf8)
  | longInteger {content : Content} {text : String} {digits : Nat}
      (found : store.read path = .ok content) (decoded : content.text? = some text)
      (long : Toml.parse text = .error (.longInteger digits)) :
      UnforeseenText store path (.text (.longInteger digits))

/-- A file of settings that was not thought of: also one of a project in which something else stands
where the table of all sections should. -/
inductive Unforeseen (store : Store) (path : Path) : ConfigFault → Prop
  | text {fault : ConfigFault} (unforeseen : UnforeseenText store path fault) :
      Unforeseen store path fault
  | noSections (project : path.name = projectFile) {entries : Entries Value}
      (read : readToml store path = .ok entries)
      (other : ∀ sections, sectionsOf entries ≠ .table sections) : Unforeseen store path .noSections

def searched (store : Store) (start : Path) : Path :=
  if store.find start matches .ok .directory then start else start.parent

def settingsIn (directory : Path) : Path :=
  directory.join (.ofString settingsFile)

def projectIn (directory : Path) : Path :=
  directory.join (.ofString projectFile)

/-- A search in a directory that ends in a way that was not thought of: at a path that is too long, or
with the file of a project where there is none of settings. -/
inductive UnforeseenIn (store : Store) (directory : Path) : ConfigFault → Prop
  | settings (long : store.find (settingsIn directory) = .error .nameTooLong) :
      UnforeseenIn store directory (.file .nameTooLong)
  | project (absent : store.status (settingsIn directory) = .ok none)
      (long : store.find (projectIn directory) = .error .nameTooLong) :
      UnforeseenIn store directory (.file .nameTooLong)
  | text (absent : store.status (settingsIn directory) = .ok none) {node : Node}
      (present : store.status (projectIn directory) = .ok (some node)) {fault : ConfigFault}
      (unforeseen : UnforeseenText store (projectIn directory) fault) :
      UnforeseenIn store directory fault
  | notSearchable (absent : store.status (settingsIn directory) = .ok none) {node : Node}
      (present : store.status (projectIn directory) = .ok (some node)) {entries : Entries Value}
      (read : readToml store (projectIn directory) = .ok entries)
      (unsearchable : mentionsSection (sectionsOf entries) = .error .notSearchable) :
      UnforeseenIn store directory .notSearchable

inductive UnforeseenSearch (store : Store) (start : Path) : ConfigFault → Prop
  | start (long : store.find start = .error .nameTooLong) :
      UnforeseenSearch store start (.file .nameTooLong)
  | directory (begins : store.find start ≠ .error .nameTooLong) {fault : ConfigFault}
      (unforeseen : UnforeseenIn store (searched store start) fault) :
      UnforeseenSearch store start fault

theorem untold_readToml_iff :
    Untold ConfigFault.kind (readToml store path) fault ↔ UnforeseenText store path fault := by
  constructor
  · rintro ⟨failed, untold⟩
    unfold readToml at failed
    split at failed
    · rename_i found
      cases failed
      exact .nullInPath found
    · cases failed
      cases untold
    rename_i content found
    split at failed
    · rename_i undecoded
      cases failed
      exact .notUtf8 found undecoded
    rename_i text decoded
    split at failed
    · cases failed
    · cases failed
      cases untold
    · rename_i digits long
      cases failed
      exact .longInteger found decoded long
  · rintro (found | ⟨found, undecoded⟩ | ⟨found, decoded, long⟩)
    · exact ⟨by simp [readToml, found], rfl⟩
    · exact ⟨by simp [readToml, found, undecoded], rfl⟩
    · exact ⟨by simp [readToml, found, decoded, long], rfl⟩

theorem untold_projectSection_iff {entries : Entries Value} :
    Untold ConfigFault.kind (projectSection path entries) fault ↔
      (∀ sections, sectionsOf entries ≠ .table sections) ∧ fault = .noSections := by
  constructor
  · rintro ⟨failed, untold⟩
    unfold projectSection at failed
    split at failed
    · split at failed
      · cases failed
      · cases failed
      · cases failed
        cases untold
    · rename_i other
      cases failed
      exact ⟨other, rfl⟩
  · rintro ⟨other, rfl⟩
    refine ⟨?_, rfl⟩
    unfold projectSection
    split
    · rename_i sections same
      exact absurd same (other sections)
    · rfl

theorem untold_fileSettings_iff :
    Untold ConfigFault.kind (fileSettings store path) fault ↔ Unforeseen store path fault := by
  have rest (entries : Entries Value) : ¬ Untold ConfigFault.kind
      (Settings.ofEntries path.toString path.parent entries) fault :=
    Untold.false_of_turnsOut (Settings.ofEntries_turnsOut _ _ _)
  unfold fileSettings
  dsimp only
  rw [Untold.bind_iff, untold_readToml_iff]
  constructor
  · rintro (unforeseen | ⟨entries, read, untold⟩)
    · exact .text unforeseen
    · split at untold
      · rename_i project
        rcases Untold.bind_iff.mp untold with misplaced | ⟨found, -, untold⟩
        · obtain ⟨other, rfl⟩ := untold_projectSection_iff.mp misplaced
          exact .noSections project read other
        · exact absurd untold (rest found)
      · rw [Untold.bind_iff] at untold
        rcases untold with ⟨made, -⟩ | ⟨found, -, untold⟩
        · cases made
        · exact absurd untold (rest found)
  · rintro (unforeseen | ⟨project, read, other⟩)
    · exact .inl unforeseen
    · refine .inr ⟨_, read, ?_⟩
      rw [if_pos project, Untold.bind_iff]
      exact .inl (untold_projectSection_iff.mpr ⟨other, rfl⟩)

theorem isTextual_of_fileSettings {settings : Settings}
    (made : fileSettings store path = .ok settings) : settings.isTextual = true := by
  obtain ⟨entries, -, made⟩ := bind_eq_ok.mp made
  dsimp only at made
  split at made
  · obtain ⟨found, -, made⟩ := bind_eq_ok.mp made
    exact (Settings.ofEntries_turnsOut _ _ found).of_ok made
  · obtain ⟨found, -, made⟩ := bind_eq_ok.mp made
    exact (Settings.ofEntries_turnsOut _ _ found).of_ok made

theorem status_eq_ok_iff {node : Option Node} :
    status store path = .ok node ↔ store.status path = .ok node :=
  mapError_eq_ok

theorem untold_status_iff : Untold ConfigFault.kind (status store path) fault ↔
    store.find path = .error .nameTooLong ∧ fault = .file .nameTooLong := by
  constructor
  · rintro ⟨failed, -⟩
    obtain ⟨cause, stopped, rfl⟩ := mapError_eq_error.mp failed
    unfold Store.status at stopped
    split at stopped
    · cases stopped
    · rename_i long
      cases stopped
      exact ⟨long, rfl⟩
    · cases stopped
  · rintro ⟨long, rfl⟩
    exact ⟨by simp [status, Store.status, long, Except.mapError], rfl⟩

theorem exists_status_iff :
    (∃ node, status store path = .ok node) ↔ store.find path ≠ .error .nameTooLong := by
  constructor
  · rintro ⟨node, begins⟩ long
    cases begins.symm.trans (untold_status_iff.mpr ⟨long, rfl⟩).1
  · intro short
    cases ended : status store path with
    | ok node => exact ⟨node, rfl⟩
    | error fault =>
      obtain ⟨cause, -, rfl⟩ := mapError_eq_error.mp ended
      have untold : Untold ConfigFault.kind (status store path) (.file cause) :=
        ⟨ended, by cases cause <;> rfl⟩
      exact absurd (untold_status_iff.mp untold).1 short

def searchIn (store : Store) (directory : Path) : Except ConfigFault (Option Path) := do
  if (← status store (settingsIn directory)).isSome then return some (settingsIn directory)
  else if (← status store (projectIn directory)).isSome then
    let entries ← readToml store (projectIn directory)
    if ← mentionsSection (sectionsOf entries) then return some (projectIn directory)
    else return none
  else return none

theorem findFile_eq (store : Store) (start : Path) :
    findFile store start = status store start >>= fun _ => searchIn store (searched store start) := by
  unfold findFile searched
  cases found : store.find start with
  | ok node =>
    have begins : status store start = .ok (some node) := by
      simp [status, Store.status, found, Except.mapError]
    rw [begins]
    cases node <;> rfl
  | error cause =>
    cases begun : status store start with
    | error fault => rfl
    | ok node =>
      have nothing : node = none := by
        have ended := status_eq_ok_iff.mp begun
        unfold Store.status at ended
        rw [found] at ended
        cases cause <;> cases ended <;> rfl
      rw [nothing]
      rfl

theorem untold_mentionsSection_iff {value : Value} :
    Untold ConfigFault.kind (mentionsSection value) fault ↔
      mentionsSection value = .error .notSearchable ∧ fault = .notSearchable := by
  constructor
  · rintro ⟨failed, -⟩
    cases value <;> cases failed <;> exact ⟨rfl, rfl⟩
  · rintro ⟨failed, rfl⟩
    exact ⟨failed, rfl⟩

theorem untold_searchIn_iff {directory : Path} :
    Untold ConfigFault.kind (searchIn store directory) fault ↔ UnforeseenIn store directory fault := by
  unfold searchIn
  rw [Untold.bind_iff, untold_status_iff]
  constructor
  · rintro (⟨long, rfl⟩ | ⟨settings, found, untold⟩)
    · exact .settings long
    cases settings with
    | some node => cases untold.1
    | none =>
      have absent := status_eq_ok_iff.mp found
      simp only [Option.isSome_none, Bool.false_eq_true, if_false] at untold
      rw [Untold.bind_iff, untold_status_iff] at untold
      rcases untold with ⟨long, rfl⟩ | ⟨project, present, untold⟩
      · exact .project absent long
      cases project with
      | none => cases untold.1
      | some node =>
        have present := status_eq_ok_iff.mp present
        simp only [Option.isSome_some, if_true] at untold
        rw [Untold.bind_iff, untold_readToml_iff] at untold
        rcases untold with unforeseen | ⟨entries, read, untold⟩
        · exact .text absent present unforeseen
        rw [Untold.bind_iff, untold_mentionsSection_iff] at untold
        rcases untold with ⟨unsearchable, rfl⟩ | ⟨mentions, -, untold⟩
        · exact .notSearchable absent present read unsearchable
        · split at untold <;> cases untold.1
  · rintro (long | ⟨absent, long⟩ | ⟨absent, present, unforeseen⟩ |
      ⟨absent, present, read, unsearchable⟩)
    · exact .inl ⟨long, rfl⟩
    · refine .inr ⟨none, status_eq_ok_iff.mpr absent, ?_⟩
      exact Untold.bind_iff.mpr (.inl (untold_status_iff.mpr ⟨long, rfl⟩))
    · refine .inr ⟨none, status_eq_ok_iff.mpr absent, ?_⟩
      refine Untold.bind_iff.mpr (.inr ⟨_, status_eq_ok_iff.mpr present, ?_⟩)
      exact Untold.bind_iff.mpr (.inl (untold_readToml_iff.mpr unforeseen))
    · refine .inr ⟨none, status_eq_ok_iff.mpr absent, ?_⟩
      refine Untold.bind_iff.mpr (.inr ⟨_, status_eq_ok_iff.mpr present, ?_⟩)
      refine Untold.bind_iff.mpr (.inr ⟨_, read, ?_⟩)
      exact Untold.bind_iff.mpr (.inl (untold_mentionsSection_iff.mpr ⟨unsearchable, rfl⟩))

theorem untold_findFile_iff :
    Untold ConfigFault.kind (findFile store start) fault ↔ UnforeseenSearch store start fault := by
  rw [findFile_eq, Untold.bind_iff, untold_status_iff]
  simp only [untold_searchIn_iff]
  constructor
  · rintro (⟨long, rfl⟩ | ⟨node, begins, unforeseen⟩)
    · exact .start long
    · exact .directory (exists_status_iff.mp ⟨node, begins⟩) unforeseen
  · rintro (long | ⟨begins, unforeseen⟩)
    · exact .inl ⟨long, rfl⟩
    · obtain ⟨node, found⟩ := exists_status_iff.mpr begins
      exact .inr ⟨node, found, unforeseen⟩

/-- With settings given that are meant for what they are given for, only the file can stop a
configuration from being made without a word. -/
theorem untold_load_iff {path : Option Path} {given : Entries GivenSetting}
    (fits : ∀ entry ∈ given, entry.2.Fits entry.1) :
    Untold ConfigFault.kind (load store path given) fault ↔
      ∃ file, path = some file ∧ Unforeseen store file fault := by
  have rest {settings : Settings} (textual : settings.isTextual = true) :
      ¬ Untold ConfigFault.kind (settings.give given >>= Settings.toConfig) fault :=
    Untold.false_of_turnsOut
      ((Settings.give_turnsOut textual fits).bind fun _ textual => Settings.toConfig_turnsOut textual)
  cases path with
  | none =>
    have empty : Settings.empty.isTextual = true := by decide
    refine ⟨fun untold => absurd untold (rest empty), ?_⟩
    rintro ⟨file, named, -⟩
    cases named
  | some file =>
    unfold load
    dsimp only
    rw [Untold.bind_iff, untold_fileSettings_iff]
    constructor
    · rintro (unforeseen | ⟨settings, made, untold⟩)
      · exact ⟨file, rfl, unforeseen⟩
      · exact absurd untold (rest (isTextual_of_fileSettings made))
    · rintro ⟨_, same, unforeseen⟩
      cases same
      exact .inl unforeseen

end Config

namespace CommandLine

variable {store : Store} {command : Command} {arguments : Arguments}

theorem givenSettings_fit (command : Command) (arguments : Arguments) :
    ∀ entry ∈ givenSettings command arguments, entry.2.Fits entry.1 := by
  have text {name : String} (names : ∃ set, Settings.ofName? name = some (.plain set))
      (value : Option String) : (GivenSetting.plain (.ofOption value)).Fits name := by
    cases value with
    | none => exact .nothing
    | some s => exact .text s names
  have output : (((arguments.value? "output").elim (.plain (.ofOption none)) fun path =>
      .path (.ofString path)) : GivenSetting).Fits "output_dir" := by
    cases arguments.value? "output" with
    | none => exact .nothing
    | some path => exact .path _ ⟨_, rfl⟩
  intro entry listed
  simp only [givenSettings, List.mem_cons, List.not_mem_nil, or_false] at listed
  rcases listed with rfl | rfl | rfl | rfl | rfl | rfl | rfl
  · exact .paths _ ⟨_, rfl⟩
  · exact .paths _ ⟨_, rfl⟩
  · exact text ⟨_, rfl⟩ _
  · exact text ⟨_, rfl⟩ _
  · exact text ⟨_, rfl⟩ _
  · exact output
  · exact text ⟨_, rfl⟩ _

inductive UnforeseenSettings (store : Store) (arguments : Arguments) : ConfigFault → Prop
  | named {path : String} (named : arguments.value? "config" = some path) {fault : ConfigFault}
      (unforeseen : Config.Unforeseen store (.ofString path) fault) :
      UnforeseenSettings store arguments fault
  | search (unnamed : arguments.value? "config" = none) {fault : ConfigFault}
      (unforeseen : Config.UnforeseenSearch store workingDirectory fault) :
      UnforeseenSettings store arguments fault
  | found (unnamed : arguments.value? "config" = none) {file : Path}
      (found : Config.findFile store workingDirectory = .ok (some file)) {fault : ConfigFault}
      (unforeseen : Config.Unforeseen store file fault) : UnforeseenSettings store arguments fault

theorem untold_loadConfig_iff {fault : ConfigFault} :
    Untold ConfigFault.kind (loadConfig store command arguments) fault ↔
      UnforeseenSettings store arguments fault := by
  have load (path : Option Path) :
      Untold ConfigFault.kind (Config.load store path (givenSettings command arguments)) fault ↔
        ∃ file, path = some file ∧ Config.Unforeseen store file fault :=
    Config.untold_load_iff (givenSettings_fit command arguments)
  unfold loadConfig
  dsimp only
  cases named : arguments.value? "config" with
  | some path =>
    simp only [pure_bind, load]
    constructor
    · rintro ⟨file, same, unforeseen⟩
      cases same
      exact .named named unforeseen
    · rintro (⟨namedToo, unforeseen⟩ | ⟨unnamed, -⟩ | ⟨unnamed, -, -⟩)
      · cases named.symm.trans namedToo
        exact ⟨_, rfl, unforeseen⟩
      · cases named.symm.trans unnamed
      · cases named.symm.trans unnamed
  | none =>
    rw [Untold.bind_iff, Config.untold_findFile_iff]
    simp only [load]
    constructor
    · rintro (unforeseen | ⟨path, found, file, rfl, unforeseen⟩)
      · exact .search named unforeseen
      · exact .found named found unforeseen
    · rintro (⟨namedToo, -⟩ | ⟨-, unforeseen⟩ | ⟨-, found, unforeseen⟩)
      · cases named.symm.trans namedToo
      · exact .inl unforeseen
      · exact .inr ⟨_, found, _, rfl, unforeseen⟩

theorem isUntold_of_config {fault : ConfigFault} (unreported : fault.kind.isReported = false) :
    fault.kind.isUntold = true := by
  rw [FailureKind.isUntold, unreported]
  cases fault with
  | text fault => cases fault <;> rfl
  | file fault => cases fault <;> rfl
  | _ => rfl

theorem isUntold_of_read {fault : ReadFault} (unreported : fault.kind.isReported = false) :
    fault.kind.isUntold = true ∨ fault = .halfPair := by
  cases fault with
  | halfPair => exact .inr rfl
  | namelessMember => exact .inl rfl
  | archive path cause => cases unreported
  | text fault => cases fault <;> exact .inl rfl
  | container fault =>
    cases fault with
    | unreadable => cases unreported
    | _ => exact .inl rfl

theorem failed_of_isReported {failure : Failure} (reported : failure.kind.isReported = true) :
    failed store failure = ⟨errorItems failure.message, .exit 1, store⟩ :=
  if_pos reported

theorem runCommand_of_loadConfig (modules : Modules) (works : command ≠ .version) {fault : ConfigFault}
    (failing : loadConfig store command arguments = .error fault) :
    runCommand modules store command arguments = failed store (.config fault) := by
  have stops : loadGenerator modules store command arguments = .error (.config fault) := by
    rw [loadGenerator, failing]
    rfl
  cases command with
  | version => exact absurd rfl works
  | generate => simp [runCommand, stops]
  | inspect => simp [runCommand, stops]

theorem runCommand_of_scan {modules : Modules} (works : command ≠ .version) {generator : Generator}
    (loaded : loadGenerator modules store command arguments = .ok generator) {failure : Failure}
    (failing : generator.scan store = .error failure) :
    runCommand modules store command arguments = failed store failure := by
  have drafts : generator.draft store = .error failure := by
    rw [Generator.draft, failing]
    rfl
  have analyzes : generator.analyze store = .error failure := by
    rw [Generator.analyze, failing]
    rfl
  cases command with
  | version => exact absurd rfl works
  | generate =>
    have stops (write : Bool) : generator.run write store = (.error failure, store) := by
      cases write <;> simp [Generator.run, Generator.generate, drafts]
    simp [runCommand, loaded, generate, stops]
  | inspect => simp [runCommand, loaded, inspect, analyzes]

def generating : List String :=
  ["generate", "--archive", "lib.json", "--root", "com.example.Widget", "--package",
    "com.example.dsl", "--class-name", "DSL"]

def bundled (data : ByteArray) : Store :=
  [(["lib.json"], .file (.bytes data))]

example : (run [] generating (bundled "\x7b".toUTF8) matches ⟨[_], .exit 1, _⟩) = true := by
  decide +kernel

end CommandLine

end WidgetDsl
