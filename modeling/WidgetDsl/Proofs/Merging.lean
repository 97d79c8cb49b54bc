import WidgetDsl.Proofs.Completion

/-!
Tables of overrides put together. The overrides of one class are joined key by key and tables class by
class, both by one operation on entries, which has the laws that both of them need. A table that has
been checked stays one that checking lets through.
-/

namespace WidgetDsl

namespace Entries

variable {α : Type} {a b c : Entries α} {join : Option α → α → α} {name : String}

/-- All of `added` inserted, each value joined with what is under its name by then. -/
def combine (join : Option α → α → α) (entries added : Entries α) : Entries α :=
  added.foldl (fun result entry => result.insert entry.1 (join (result.get? entry.1) entry.2)) entries

theorem combine_cons (join : Option α → α → α) (entries : Entries α) (key : String) (value : α)
    (rest : Entries α) : combine join entries ((key, value) :: rest) =
      combine join (entries.insert key (join (entries.get? key) value)) rest := rfl

theorem get?_cons (key : String) (value : α) (rest : Entries α) (name : String) :
    get? ((key, value) :: rest) name = if name = key then some value else get? rest name := by
  by_cases same : name = key
  · simp [get?, same]
  · simp [get?, List.lookup_cons, same, beq_false_of_ne same]

theorem keys_cons (key : String) (value : α) (rest : Entries α) :
    keys ((key, value) :: rest) = key :: keys rest := rfl

theorem get?_eq_none_iff : a.get? name = none ↔ name ∉ a.keys := by
  induction a with
  | nil => simp [get?, keys]
  | cons entry rest ih =>
    obtain ⟨key, value⟩ := entry
    rw [get?_cons, keys_cons, List.mem_cons, not_or, ← ih]
    split <;> simp [*]

theorem get?_combine (distinct : b.keys.Nodup) (name : String) : (combine join a b).get? name =
    ((b.get? name).map (join (a.get? name))).or (a.get? name) := by
  induction b generalizing a with
  | nil => simp [combine, get?]
  | cons entry rest ih =>
    obtain ⟨key, value⟩ := entry
    obtain ⟨fresh, distinct⟩ := List.nodup_cons.mp distinct
    rw [combine_cons, ih distinct, get?_insert, get?_cons]
    by_cases same : name = key
    · subst same
      simp [get?_eq_none_iff.mpr fresh]
    · simp [same]

theorem keys_combine (distinct : b.keys.Nodup) :
    (combine join a b).keys = a.keys ++ b.keys.filter (· ∉ a.keys) := by
  induction b generalizing a with
  | nil => simp [combine, keys]
  | cons entry rest ih =>
    obtain ⟨key, value⟩ := entry
    obtain ⟨fresh, distinct⟩ := List.nodup_cons.mp distinct
    have others : (keys rest).filter (· ∉ a.keys ++ [key]) = (keys rest).filter (· ∉ a.keys) := by
      refine List.filter_congr fun other member => ?_
      have different : other ≠ key := fun same => fresh (same ▸ member)
      simp [different]
    rw [combine_cons, ih distinct, keys_insert, keys_cons, List.filter_cons]
    by_cases known : key ∈ a.keys
    · simp [known]
    · simp only [known, if_false, not_false_eq_true, decide_true, if_true, others]
      simp

theorem nodup_combine (first : a.keys.Nodup) (second : b.keys.Nodup) :
    (combine join a b).keys.Nodup := by
  rw [keys_combine second, List.nodup_append]
  refine ⟨first, second.filter _, fun name known other new same => ?_⟩
  simpa [← same, known] using (List.mem_filter.mp new).2

theorem eq_of_get?_eq (distinct : a.keys.Nodup) (same : a.keys = b.keys)
    (found : ∀ name, a.get? name = b.get? name) : a = b := by
  induction a generalizing b with
  | nil =>
    cases b with
    | nil => rfl
    | cons => simp [keys] at same
  | cons entry rest ih =>
    cases b with
    | nil => simp [keys] at same
    | cons other rest' =>
      obtain ⟨key, value⟩ := entry
      obtain ⟨key', value'⟩ := other
      rw [keys_cons, keys_cons, List.cons.injEq] at same
      obtain ⟨rfl, same⟩ := same
      obtain ⟨fresh, distinct⟩ := List.nodup_cons.mp distinct
      have here : value = value' := by simpa [get?_cons] using found key
      refine List.cons_eq_cons.mpr ⟨by rw [here], ih distinct same fun name => ?_⟩
      by_cases first : name = key
      · have absent : key ∉ keys rest' := same ▸ fresh
        rw [first, get?_eq_none_iff.mpr fresh, get?_eq_none_iff.mpr absent]
      · simpa [get?_cons, first] using found name

theorem mem_iff_get? {value : α} (distinct : a.keys.Nodup) :
    (name, value) ∈ a ↔ a.get? name = some value := by
  refine ⟨fun member => ?_, mem_of_get?⟩
  induction a with
  | nil => cases member
  | cons entry rest ih =>
    obtain ⟨key, first⟩ := entry
    obtain ⟨fresh, distinct⟩ := List.nodup_cons.mp distinct
    rw [get?_cons]
    rcases List.mem_cons.mp member with same | later
    · cases same
      simp
    · have listed : name ∈ keys rest := List.mem_map.mpr ⟨_, later, rfl⟩
      have different : name ≠ key := fun same => fresh (same ▸ listed)
      rw [if_neg different, ih distinct later]

theorem combine_assoc (first : a.keys.Nodup) (second : b.keys.Nodup) (third : c.keys.Nodup)
    (fresh : ∀ name value, c.get? name = some value →
      join (a.get? name) (join none value) = join (a.get? name) value)
    (twice : ∀ name between value, b.get? name = some between → c.get? name = some value →
      join (some (join (a.get? name) between)) value =
        join (a.get? name) (join (some between) value)) :
    combine join (combine join a b) c = combine join a (combine join b c) := by
  have later : (combine join b c).keys.Nodup := nodup_combine second third
  refine eq_of_get?_eq (nodup_combine (nodup_combine first second) third) ?_ fun name => ?_
  · -- a name of the third that neither of the others has comes last on both sides
    have left : c.keys.filter (· ∉ a.keys ++ b.keys.filter (· ∉ a.keys)) =
        (c.keys.filter (· ∉ b.keys)).filter (· ∉ a.keys) := by
      rw [List.filter_filter]
      refine List.filter_congr fun name _ => ?_
      by_cases inFirst : name ∈ a.keys <;> simp [inFirst]
    rw [keys_combine third, keys_combine second, keys_combine later, keys_combine third, left,
      List.filter_append, List.append_assoc]
  · rw [get?_combine third, get?_combine second, get?_combine later, get?_combine third]
    cases last : c.get? name with
    | none => simp
    | some value =>
      cases between : b.get? name with
      | none => simp [fresh name value last]
      | some between' => simp [twice name between' value between last]

theorem nil_combine (distinct : b.keys.Nodup)
    (alone : ∀ name value, b.get? name = some value → join none value = value) :
    combine join [] b = b := by
  refine eq_of_get?_eq (nodup_combine List.nodup_nil distinct) ?_ fun name => ?_
  · rw [keys_combine distinct]
    simp [keys]
  · rw [get?_combine distinct]
    cases found : b.get? name with
    | none => simp [get?]
    | some value => simp [get?, alone name value found]

theorem combine_self (distinct : a.keys.Nodup)
    (again : ∀ name value, a.get? name = some value → join (some value) value = value) :
    combine join a a = a := by
  refine eq_of_get?_eq (nodup_combine distinct distinct) ?_ fun name => ?_
  · have known : a.keys.filter (· ∉ a.keys) = [] := by simp
    rw [keys_combine distinct, known, List.append_nil]
  · rw [get?_combine distinct]
    cases found : a.get? name with
    | none => simp
    | some value => simp [again name value found]

def newer : Option α → α → α := fun _ value => value

theorem update_eq_combine (a b : Entries α) : update a b = combine newer a b := rfl

theorem get?_update (distinct : b.keys.Nodup) (name : String) :
    (update a b).get? name = (b.get? name).or (a.get? name) := by
  rw [update_eq_combine, get?_combine distinct]
  cases b.get? name <;> rfl

theorem nodup_update (first : a.keys.Nodup) (second : b.keys.Nodup) : (update a b).keys.Nodup := by
  rw [update_eq_combine]
  exact nodup_combine first second

theorem update_assoc (first : a.keys.Nodup) (second : b.keys.Nodup) (third : c.keys.Nodup) :
    update (update a b) c = update a (update b c) := by
  simp only [update_eq_combine]
  exact combine_assoc first second third (fun _ _ _ => rfl) fun _ _ _ _ _ => rfl

theorem nil_update (distinct : b.keys.Nodup) : update [] b = b := by
  rw [update_eq_combine]
  exact nil_combine distinct fun _ _ _ => rfl

theorem update_self (distinct : a.keys.Nodup) : update a a = a := by
  rw [update_eq_combine]
  exact combine_self distinct fun _ _ _ => rfl

theorem keys_map {β : Type} (f : α → β) (a : Entries α) :
    keys (a.map fun entry => (entry.1, f entry.2)) = a.keys := by
  simp [keys, Function.comp_def]

theorem keys_of_mapM {ε β : Type} {check : String → α → Except ε β} {checked : Entries β}
    (result : a.mapM (fun (name, value) => (check name value).map (name, ·)) = .ok checked) :
    checked.keys = a.keys := by
  induction a generalizing checked with
  | nil =>
    cases result
    rfl
  | cons entry rest ih =>
    obtain ⟨key, value⟩ := entry
    rw [List.mapM_cons] at result
    obtain ⟨first, here, result⟩ := bind_eq_ok.mp result
    obtain ⟨others, later, result⟩ := bind_eq_ok.mp result
    obtain ⟨passed, -, rfl⟩ := map_eq_ok.mp here
    cases result
    rw [keys_cons, keys_cons, ih later]

end Entries

namespace Override

def toGiven : Override → Given
  | .default => .plain .null
  | .excluded => .plain (.bool false)
  | .text s => .plain (.text s)
  | .code block => .code block
  | .computed result => .computed result

/-- Whether an override can stand under a key: an alias is an identifier, or leaves the class out. -/
def Suits (key : String) (override : Override) : Prop :=
  key = aliasKey → override = .excluded ∨ ∃ s, override = .text s ∧ Java.isIdentifier s = true

variable {className key : String} {given : Given} {override : Override}

theorem suits_of_ofGiven (checked : ofGiven className key given = .ok override) :
    Suits key override := by
  intro same
  unfold ofGiven at checked
  rw [if_pos same] at checked
  split at checked
  · exact .inl (Except.ok.inj checked).symm
  · rename_i s
    split at checked
    · rename_i identifier
      exact .inr ⟨s, (Except.ok.inj checked).symm, identifier⟩
    · cases checked
  · cases checked

theorem ofGiven_toGiven (suits : Suits key override) :
    ofGiven className key override.toGiven = .ok override := by
  unfold ofGiven
  split
  · rename_i same
    rcases suits same with rfl | ⟨s, rfl, identifier⟩
    · rfl
    · simp [toGiven, identifier]
  · cases override <;> rfl

end Override

namespace OverrideTable

open Entries

variable {a b c table : OverrideTable} {name key : String}

/-- A table that checking lets through, where every class and every key is given once. -/
def Checked (table : OverrideTable) : Prop :=
  ∃ classes : Entries GivenEntry, classes.keys.Nodup ∧
    (∀ name overrides, (name, GivenEntry.table overrides) ∈ classes → overrides.keys.Nodup) ∧
    ofGiven classes = .ok table

structure Suitable (overrides : Entries Override) : Prop where
  distinct : overrides.keys.Nodup
  suits : ∀ entry ∈ overrides, entry.2.Suits entry.1

def toGiven (table : OverrideTable) : Entries GivenEntry :=
  table.classes.map fun entry =>
    (entry.1, .table (entry.2.map fun item => (item.1, item.2.toGiven)))

/-- All overrides of both tables, checked again as a whole. -/
def mergeChecked (a b : OverrideTable) : Except OverrideFault OverrideTable :=
  ofGiven (a.merge b).toGiven

theorem suitable_of_checkEntry {overrides : Entries Given} {checked : Entries Override}
    (distinct : overrides.keys.Nodup)
    (passed : checkEntry name (.table overrides) = .ok checked) : Suitable checked where
  distinct := keys_of_mapM passed ▸ distinct
  suits entry member := by
    obtain ⟨item, -, answer⟩ := (mem_of_mapM_eq_ok passed).mp member
    obtain ⟨override, allowed, rfl⟩ := map_eq_ok.mp answer
    exact Override.suits_of_ofGiven allowed

theorem checkEntry_toGiven {overrides : Entries Override} (suitable : Suitable overrides) :
    checkEntry name (.table (overrides.map fun item => (item.1, item.2.toGiven))) =
      .ok overrides := by
  refine mapM_eq_ok.mpr ?_
  rw [List.map_map]
  refine List.map_congr_left fun item member => ?_
  exact map_eq_ok.mpr ⟨item.2, Override.ofGiven_toGiven (suitable.suits item member), rfl⟩

theorem ofGiven_toGiven (suitable : ∀ entry ∈ table.classes, Suitable entry.2) :
    ofGiven table.toGiven = .ok table := by
  refine map_eq_ok.mpr ⟨table.classes, mapM_eq_ok.mpr ?_, rfl⟩
  rw [toGiven, List.map_map]
  refine List.map_congr_left fun entry member => ?_
  exact map_eq_ok.mpr ⟨entry.2, checkEntry_toGiven (suitable entry member), rfl⟩

theorem checked_iff : table.Checked ↔
    table.classes.keys.Nodup ∧ ∀ entry ∈ table.classes, Suitable entry.2 := by
  constructor
  · rintro ⟨classes, distinct, each, passed⟩
    obtain ⟨checked, all, rfl⟩ := map_eq_ok.mp passed
    refine ⟨keys_of_mapM all ▸ distinct, fun entry member => ?_⟩
    obtain ⟨⟨name, given⟩, listed, answer⟩ := (mem_of_mapM_eq_ok all).mp member
    obtain ⟨overrides, allowed, rfl⟩ := map_eq_ok.mp answer
    cases given with
    | table items => exact suitable_of_checkEntry (each name items listed) allowed
    | other => cases allowed
  · rintro ⟨distinct, suitable⟩
    refine ⟨table.toGiven, ?_, fun name overrides member => ?_, ofGiven_toGiven suitable⟩
    · rw [toGiven, keys_map fun overrides : Entries Override =>
        GivenEntry.table (overrides.map fun item => (item.1, item.2.toGiven))]
      exact distinct
    · obtain ⟨entry, listed, same⟩ := List.mem_map.mp member
      cases same
      exact (keys_map _ entry.2).symm ▸ (suitable entry listed).distinct

theorem Suitable.update {first second : Entries Override} (suitable : Suitable first)
    (suitableToo : Suitable second) : Suitable (first.update second) where
  distinct := nodup_update suitable.distinct suitableToo.distinct
  suits entry member := by
    have found := (mem_iff_get? (nodup_update suitable.distinct suitableToo.distinct)).mp member
    rw [get?_update suitableToo.distinct, Option.or_eq_some_iff] at found
    rcases found with newer | ⟨-, older⟩
    · exact suitableToo.suits entry (mem_of_get? newer)
    · exact suitable.suits entry (mem_of_get? older)

def joinClass (first : Option (Entries Override)) (second : Entries Override) : Entries Override :=
  (first.getD []).update second

theorem merge_eq (a b : OverrideTable) : a.merge b = ⟨combine joinClass a.classes b.classes⟩ := rfl

namespace Checked

theorem distinct (checked : table.Checked) : table.classes.keys.Nodup :=
  (checked_iff.mp checked).1

theorem suitable (checked : table.Checked) {overrides : Entries Override}
    (found : table.classes.get? name = some overrides) : Suitable overrides :=
  (checked_iff.mp checked).2 (name, overrides) (mem_of_get? found)

theorem suitable_ofClass (checked : table.Checked) (name : String) :
    Suitable (table.ofClass name) := by
  rw [ofClass]
  cases found : table.classes.get? name with
  | none => exact ⟨List.nodup_nil, nofun⟩
  | some overrides => exact checked.suitable found

theorem merge (first : a.Checked) (second : b.Checked) : (a.merge b).Checked := by
  have distinct : (combine joinClass a.classes b.classes).keys.Nodup :=
    nodup_combine first.distinct second.distinct
  refine checked_iff.mpr ⟨distinct, fun entry member => ?_⟩
  have found := (mem_iff_get? distinct).mp member
  rw [get?_combine second.distinct, Option.or_eq_some_iff, Option.map_eq_some_iff] at found
  rcases found with ⟨overrides, newer, same⟩ | ⟨-, older⟩
  · rw [← same]
    exact (first.suitable_ofClass entry.1).update (second.suitable newer)
  · exact first.suitable older

end Checked

theorem ofClass_merge (second : b.Checked) (name : String) :
    (a.merge b).ofClass name = (a.ofClass name).update (b.ofClass name) := by
  rw [ofClass, merge_eq, get?_combine second.distinct, ofClass, ofClass]
  cases b.classes.get? name with
  | none => simp [Entries.update]
  | some overrides => rfl

theorem get?_merge (second : b.Checked) (name key : String) : ((a.merge b).ofClass name).get? key =
    ((b.ofClass name).get? key).or ((a.ofClass name).get? key) := by
  rw [ofClass_merge second, get?_update (second.suitable_ofClass name).distinct]

theorem contains_merge (second : b.Checked) (name : String) :
    (a.merge b).classes.contains name = (a.classes.contains name || b.classes.contains name) := by
  simp only [contains, merge_eq, get?_combine second.distinct, Option.isSome_or, Option.isSome_map,
    Bool.or_comm]

theorem merge_assoc (first : a.Checked) (second : b.Checked) (third : c.Checked) :
    (a.merge b).merge c = a.merge (b.merge c) := by
  simp only [merge_eq, mk.injEq]
  refine combine_assoc first.distinct second.distinct third.distinct ?_ ?_
  · intro name overrides found
    rw [joinClass, joinClass, joinClass, Option.getD_none,
      nil_update (third.suitable found).distinct]
  · intro name between overrides found foundToo
    exact update_assoc (first.suitable_ofClass name).distinct (second.suitable found).distinct
      (third.suitable foundToo).distinct

theorem empty_merge (checked : table.Checked) : empty.merge table = table := by
  rw [merge_eq]
  exact congrArg mk (nil_combine checked.distinct fun name overrides found =>
    nil_update (checked.suitable found).distinct)

theorem merge_self (checked : table.Checked) : table.merge table = table := by
  rw [merge_eq]
  exact congrArg mk (combine_self checked.distinct fun name overrides found =>
    update_self (checked.suitable found).distinct)

/-- Where the second table has every key of the first that matches a candidate, the first does not
count. -/
theorem lookup_merge (second : b.Checked) {candidate : Candidate}
    (covered : ∀ key ∈ candidateKeys candidate,
      (a.ofClass candidate.declaring.canonicalName).contains key = true →
        (b.ofClass candidate.declaring.canonicalName).contains key = true) :
    (a.merge b).lookup candidate = b.lookup candidate := by
  have same : ∀ key ∈ candidateKeys candidate,
      ((a.merge b).ofClass candidate.declaring.canonicalName).get? key =
        (b.ofClass candidate.declaring.canonicalName).get? key := by
    intro key member
    rw [get?_merge second]
    cases newer : (b.ofClass candidate.declaring.canonicalName).get? key with
    | some override => rfl
    | none =>
      have absent := covered key member
      rw [contains, contains, newer] at absent
      simpa using absent
  rw [lookup, lookup, ← List.head?_filterMap, ← List.head?_filterMap, List.filterMap_congr same]

/-- Checked tables merge key by key, and where both have a key under a class the second table's
override stands. The merged table passes the check again as it is; in which order tables are merged
makes no difference, and neither the empty table nor the same table again adds anything. Where the
second table has every matching key of the first, only the second counts. -/
theorem merge_laws (a b c : OverrideTable) (first : a.Checked) (second : b.Checked)
    (third : c.Checked) :
    mergeChecked a b = .ok (a.merge b) ∧ (a.merge b).Checked ∧
    (∀ name, (a.merge b).classes.contains name =
      (a.classes.contains name || b.classes.contains name)) ∧
    (∀ name key, ((a.merge b).ofClass name).get? key =
      ((b.ofClass name).get? key).or ((a.ofClass name).get? key)) ∧
    (a.merge b).merge c = a.merge (b.merge c) ∧
    a.merge .empty = a ∧ OverrideTable.empty.merge a = a ∧ a.merge a = a ∧
    ∀ candidate : Candidate,
      (∀ key ∈ candidateKeys candidate,
        (a.ofClass candidate.declaring.canonicalName).contains key = true →
          (b.ofClass candidate.declaring.canonicalName).contains key = true) →
      (a.merge b).lookup candidate = b.lookup candidate :=
  ⟨ofGiven_toGiven (checked_iff.mp (first.merge second)).2, first.merge second,
    contains_merge second, get?_merge second, merge_assoc first second third, rfl, empty_merge first,
    merge_self first, fun _ => lookup_merge second⟩

end OverrideTable

/-! Overrides for the panel, others that leave out its listener, and some that leave out the panel. -/

namespace Sample

open OverrideTable

def panelOverrides : OverrideTable :=
  ⟨[(panelDecl.name,
    [("setOnClickListener", .text "// by hand"), (aliasKey, .text "Board"), ("setTag", .default)])]⟩

def unheard : OverrideTable :=
  ⟨[(buttonDecl.name, []), (panelDecl.name, [("setOnClickListener", .excluded)])]⟩

def withoutPanel : OverrideTable :=
  ⟨[(panelDecl.name, [(aliasKey, .excluded)])]⟩

theorem tables_checked : panelOverrides.Checked ∧ unheard.Checked ∧ withoutPanel.Checked := by
  have board : Java.isIdentifier "Board" = true := by decide +kernel
  refine ⟨checked_iff.mpr ⟨by decide, ?_⟩, checked_iff.mpr ⟨by decide, ?_⟩,
    checked_iff.mpr ⟨by decide, ?_⟩⟩
  · simp only [panelOverrides, List.forall_mem_singleton]
    exact ⟨by decide, by simp [Override.Suits, aliasKey, board]⟩
  · simp only [unheard, List.forall_mem_cons]
    exact ⟨⟨List.nodup_nil, nofun⟩, ⟨by decide, by simp [Override.Suits, aliasKey]⟩, nofun⟩
  · simp only [withoutPanel, List.forall_mem_singleton]
    exact ⟨by decide, by simp [Override.Suits]⟩

theorem panel_merged : panelOverrides.Checked ∧ unheard.Checked ∧ withoutPanel.Checked ∧
    mergeChecked panelOverrides unheard = .ok (panelOverrides.merge unheard) ∧
    (panelOverrides.merge unheard).merge withoutPanel =
      panelOverrides.merge (unheard.merge withoutPanel) ∧
    ((panelOverrides.merge unheard).ofClass panelDecl.name).get? aliasKey = some (.text "Board") ∧
    (panelOverrides.merge unheard).lookup panelListener = some .excluded := by
  obtain ⟨first, second, third⟩ := tables_checked
  obtain ⟨passes, -, -, found, assoc, -, -, -, looked⟩ :=
    merge_laws panelOverrides unheard withoutPanel first second third
  refine ⟨first, second, third, passes, assoc, ?_, ?_⟩
  · rw [found]
    rfl
  · rw [looked panelListener (by decide +kernel)]
    rfl

end Sample

end WidgetDsl
