import Playhead.Proofs.Settings.Sources

/-!
# Merging with the standard library

What the standard library assigns at a section and a key in it is found there, and all that is found
elsewhere stays (`Raw.given_assign`). Its variables are those that are named for settings, so that
it can be relied on (`Library.standard_documented`).
-/

namespace Playhead

/-! ## Names of two parts -/

namespace PathStep

theorem ofName?_point {word rest : List Char} (hword : word ≠ [])
    (hbare : word.all Toml.isBareKey = true) (htake : rest.takeWhile Toml.isBareKey = [])
    (hdrop : rest.dropWhile Toml.isBareKey = rest) :
    ofName? ('.' :: (word ++ rest)) =
      (ofName? rest).map (.key (String.ofList word) :: ·) := by
  rw [List.all_eq_true] at hbare
  rw [ofName?, List.takeWhile_append_of_pos hbare, List.dropWhile_append_of_pos hbare, htake,
    hdrop, List.append_nil, if_neg]
  rw [List.isEmpty_iff]
  exact hword

/-- A section and a key, with a point between them, are a path. -/
theorem path_append {sectionName key : List Char} (hsection : sectionName ≠ []) (hkey : key ≠ [])
    (hbareSection : sectionName.all Toml.isBareKey = true)
    (hbareKey : key.all Toml.isBareKey = true) :
    path (sectionName ++ '.' :: key) =
      [.key (String.ofList sectionName), .key (String.ofList key)] := by
  have hlast : ofName? ('.' :: (key ++ [])) = some [.key (String.ofList key)] := by
    rw [ofName?_point hkey hbareKey rfl rfl, ofName?]
    rfl
  rw [List.append_nil] at hlast
  rw [path, ofName?_point hsection hbareSection rfl rfl, hlast]
  rfl

/-- The path of a setting leads to its section and its key. -/
theorem path_setting (x : Setting) :
    path x.path.toList = [.key x.sectionName, .key x.key] := by
  rw [Setting.path, String.toList_ofList,
    path_append x.sectionName_ne x.key_ne x.sectionName_bare x.key_bare, String.ofList_toList,
    String.ofList_toList]

end PathStep

namespace Raw

/-! ## Assignments -/

theorem lookup_put (key other : String) (v : Raw) (es : List (String × Raw)) :
    lookup other (put key v es) = if other = key then some v else lookup other es := by
  induction es with
  | nil => simp only [put, lookup, eq_comm]
  | cons e rest ih =>
    obtain ⟨k, w⟩ := e
    rw [put]
    by_cases hk : k = key
    · subst hk
      rw [if_pos rfl, lookup, lookup]
      by_cases hother : other = k
      · rw [if_pos hother, if_pos hother.symm]
      · rw [if_neg hother, if_neg (Ne.symm hother), if_neg (Ne.symm hother)]
    · rw [if_neg hk, lookup, lookup, ih]
      by_cases hother : other = key
      · rw [if_pos hother, if_pos hother, if_neg fun h => hk (h.trans hother)]
      · rw [if_neg hother, if_neg hother]

def isTable : Raw → Bool
  | table _ => true
  | _ => false

/-- Values that are no tables are not merged, but replace what is there. -/
theorem mergeOnto_of_not_isTable {v : Raw} (hv : v.isTable = false) (below : Option Raw) :
    v.mergeOnto below = v := by
  cases v with
  | table es => cases hv
  | _ => rfl

theorem entries_assign_key (v : Raw) (name : String) (rest : List PathStep) (below : Option Raw) :
    (v.assign (.key name :: rest) below).entries =
      put name (v.assign rest (lookup name ((below.map entries).getD [])))
        ((below.map entries).getD []) := by
  rw [assign]
  rfl

theorem lookup_getD_entries (key : String) (below : Option Raw) :
    lookup key ((below.map entries).getD []) = below.bind fun s => lookup key s.entries := by
  cases below <;> rfl

/-- What is configured at a key of a section. -/
def given (c : Raw) (sectionName key : String) : Option Raw :=
  (lookup sectionName c.entries).bind fun s => lookup key s.entries

/-- A value that is assigned at a key of a section is there, and everything else is as before. -/
theorem given_assign {v : Raw} (hv : v.isTable = false) (sectionName key : String) (c : Raw)
    (sectionName' key' : String) :
    (v.assign [.key sectionName, .key key] (some c)).given sectionName' key' =
      if sectionName' = sectionName ∧ key' = key then some v
      else c.given sectionName' key' := by
  rw [given, entries_assign_key, lookup_put]
  by_cases hsection : sectionName' = sectionName
  · subst hsection
    rw [if_pos rfl, Option.bind_some, entries_assign_key, lookup_put, assign,
      mergeOnto_of_not_isTable hv, lookup_getD_entries, lookup_getD_entries, Option.bind_some,
      ← given]
    by_cases hkey : key' = key
    · rw [if_pos hkey, if_pos ⟨rfl, hkey⟩]
    · rw [if_neg hkey, if_neg fun h => hkey h.2]
  · rw [if_neg hsection, if_neg fun h => hsection h.1, lookup_getD_entries, Option.bind_some, given]

/-! ## Variables -/

/-- Variables do not write tables. -/
theorem isTable_ofVariable (value : String) : (ofVariable value).isTable = false := by
  unfold ofVariable
  dsimp only
  split
  · rfl
  · split
    · rfl
    · split
      · rfl
      · split <;> rfl

/-- The double underscore behind a word without underscores divides a name. -/
theorem dotted_append {word : List Char} (hword : '_' ∉ word) (rest : List Char) :
    dotted (word ++ '_' :: '_' :: rest) = word ++ '.' :: dotted rest := by
  induction word with
  | nil => rw [List.nil_append, List.nil_append, dotted]
  | cons c r ih =>
    rw [List.mem_cons, not_or] at hword
    rw [List.cons_append, List.cons_append, ← ih hword.2, dotted]
    rintro r' rfl
    exact absurd rfl hword.1

theorem settingKey?_of_mark {name : String} {rest : List Char}
    (h : Surroundings.lowerName name = "playsim__".toList ++ rest) :
    settingKey? name = some (String.ofList (dotted rest)) := by
  have hmark : ∀ mark : List Char,
      (if mark.isPrefixOf (mark ++ rest) then
        some (String.ofList (dotted ((mark ++ rest).drop mark.length))) else none) =
      some (String.ofList (dotted rest)) := by
    intro mark
    rw [List.drop_left, if_pos (List.isPrefixOf_iff_prefix.mpr (List.prefix_append mark rest))]
  rw [settingKey?, ← Surroundings.lowerName, h]
  exact hmark _

/-- The variable that is named for a setting stands for the setting's path. -/
theorem settingKey?_of_lowerName {name : String} {x : Setting}
    (h : Surroundings.lowerName name = x.variableName) : settingKey? name = some x.path := by
  rw [settingKey?_of_mark h, dotted_append x.sectionName_words, x.dotted_key, Setting.path]

theorem isSettingName_of_settingKey? {name key : String} (h : settingKey? name = some key) :
    Surroundings.isSettingName name = true := by
  by_contra hname
  have hnone : settingKey? name = none := if_neg hname
  rw [hnone] at h
  cases h

theorem mem_ofEnvironment {environment : List (String × String)} {key : String} {v : Raw} :
    (key, v) ∈ ofEnvironment environment ↔
      ∃ name value, (name, value) ∈ environment ∧ settingKey? name = some key ∧
        v = ofVariable value := by
  simp only [ofEnvironment, List.mem_filterMap, Prod.exists, Option.map_eq_some_iff,
    Prod.mk.injEq]
  constructor
  · rintro ⟨name, value, hmem, key', hkey, rfl, rfl⟩
    exact ⟨name, value, hmem, hkey, rfl⟩
  · rintro ⟨name, value, hmem, hkey, rfl⟩
    exact ⟨name, value, hmem, key, hkey, rfl, rfl⟩

/-! ## Settings -/

/-- The value of a variable that is assigned at the path of a setting is there, and all other
settings are as before. -/
theorem given_assign_path (c : Raw) (x : Setting) (value : String) (y : Setting) :
    ((ofVariable value).assign (PathStep.path x.path.toList) (some c)).given y.sectionName y.key =
      if y = x then some (ofVariable value) else c.given y.sectionName y.key := by
  rw [PathStep.path_setting, given_assign (isTable_ofVariable value)]
  refine if_congr ⟨fun h => Setting.key_injective h.2, ?_⟩ rfl rfl
  rintro rfl
  exact ⟨rfl, rfl⟩

/-- A section that is not as it was before an assignment at the path of a setting is a table. -/
theorem lookup_assign_path (c v : Raw) (x : Setting) (sectionName : String) :
    (∃ es, lookup sectionName (v.assign (PathStep.path x.path.toList) (some c)).entries =
      some (table es)) ∨
    lookup sectionName (v.assign (PathStep.path x.path.toList) (some c)).entries =
      lookup sectionName c.entries := by
  rw [PathStep.path_setting, entries_assign_key, lookup_put]
  by_cases hsection : sectionName = x.sectionName
  · rw [if_pos hsection, assign]
    exact .inl ⟨_, rfl⟩
  · rw [if_neg hsection]
    exact .inr rfl

end Raw

namespace Surroundings.NamesSettings

variable {environment : List (String × String)}

/-- Where only settings are named, a key comes from the variable that is named for its setting. -/
theorem settingKey?_eq_some_iff (h : NamesSettings environment) {v : String × String}
    (hv : v ∈ environment) {key : String} :
    Raw.settingKey? v.1 = some key ↔
      ∃ x : Setting, lowerName v.1 = x.variableName ∧ key = x.path := by
  constructor
  · intro hkey
    obtain ⟨x, hx⟩ := h.known v hv (Raw.isSettingName_of_settingKey? hkey)
    rw [Raw.settingKey?_of_lowerName hx] at hkey
    cases hkey
    exact ⟨x, hx, rfl⟩
  · rintro ⟨x, hx, rfl⟩
    exact Raw.settingKey?_of_lowerName hx

theorem mem_ofEnvironment (h : NamesSettings environment) {key : String} {v : Raw} :
    (key, v) ∈ Raw.ofEnvironment environment ↔
      ∃ (x : Setting) (value : String),
        valueFor? environment x = some value ∧ key = x.path ∧ v = .ofVariable value := by
  rw [Raw.mem_ofEnvironment]
  constructor
  · rintro ⟨name, value, hmem, hkey, hv⟩
    obtain ⟨x, hx, hpath⟩ := (h.settingKey?_eq_some_iff hmem).mp hkey
    exact ⟨x, value, h.valueFor?_eq_some_iff.mpr ⟨name, hmem, hx⟩, hpath, hv⟩
  · rintro ⟨x, value, hvalue, hpath, hv⟩
    obtain ⟨name, hmem, hx⟩ := h.valueFor?_eq_some_iff.mp hvalue
    exact ⟨name, value, hmem, (h.settingKey?_eq_some_iff hmem).mpr ⟨x, hx, hpath⟩, hv⟩

theorem nodup_ofEnvironment (h : NamesSettings environment) :
    ((Raw.ofEnvironment environment).map Prod.fst).Nodup := by
  rw [Raw.ofEnvironment, List.map_filterMap, List.Nodup, List.pairwise_filterMap]
  refine h.distinct.imp_of_mem fun {u v} hu hv hne key hkey key' hkey' hsame => ?_
  simp only [Option.map_map, Option.map_eq_some_iff, Function.comp_apply] at hkey hkey'
  obtain ⟨_, hu', rfl⟩ := hkey
  obtain ⟨_, hv', rfl⟩ := hkey'
  obtain ⟨x, hx, rfl⟩ := (h.settingKey?_eq_some_iff hu).mp hu'
  obtain ⟨y, hy, rfl⟩ := (h.settingKey?_eq_some_iff hv).mp hv'
  cases Setting.path_injective hsame
  exact hne (isSettingName_of_lowerName hx) (hx.trans hy.symm)

end Surroundings.NamesSettings

/-! ## The standard library -/

namespace Library

theorem isTable_standard {v : Raw} (h : v.isTable = true) : standard.IsTable v := by
  cases v with
  | table es => rfl
  | _ => cases h

theorem tableOrAbsent_standard {c : Raw} {sectionName : String}
    (h : ∀ s ∈ Raw.lookup sectionName c.entries, s.isTable = true) :
    standard.TableOrAbsent c sectionName :=
  fun s hs => isTable_standard (h s hs)

theorem tableOrAbsent_standard_assign {c : Raw} {sectionName : String}
    (h : standard.TableOrAbsent c sectionName) (x : Setting) (v : Raw) :
    standard.TableOrAbsent (standard.assign c x.path v) sectionName := by
  intro s hs
  rcases Raw.lookup_assign_path c v x sectionName with ⟨es, htable⟩ | hkeep
  · cases htable.symm.trans hs
    exact isTable_standard rfl
  · exact h s (hkeep.symm.trans hs)

/-- The standard library can be relied on. -/
theorem standard_documented : standard.Documented Raw.ofVariable where
  mem_ofEnvironment h := h.mem_ofEnvironment
  nodup_ofEnvironment h := h.nodup_ofEnvironment
  given_assign := Raw.given_assign_path
  tableOrAbsent_assign _ x value _ h := tableOrAbsent_standard_assign h x (.ofVariable value)

end Library

end Playhead
