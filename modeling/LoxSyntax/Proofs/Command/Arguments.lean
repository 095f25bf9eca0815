import LoxSyntax.Command.Settings
import LoxSyntax.Proofs.Text.Split

/-!
Command lines of paths and options. An option is written together with its value or before it, and
however it is written its value is what is set; options of different kinds do not affect each other.
-/

namespace LoxSyntax.Command

open Text

/-- One item of a command line. -/
inductive Item
  | path (text : String)
  | option (setting : Setting) (value : String)
  deriving DecidableEq

def Item.request : Item → Request
  | .path text => .path text
  | .option setting value => .set setting value

def pathsOf (items : List Item) : List String :=
  items.filterMap fun
    | .path text => some text
    | .option _ _ => none

/-- The values that are given to one setting, in order. -/
def valuesOf (setting : Setting) (items : List Item) : List String :=
  items.filterMap fun
    | .path _ => none
    | .option other value => if other = setting then some value else none

/-- An argument does not look like an option: it begins without a hyphen, or is only that. -/
def Plain (argument : String) : Prop :=
  argument.toList.head? ≠ some '-' ∨ argument = "-"

/-- Items are written as arguments. No path is empty, and behind two hyphens all are paths. -/
inductive Spelled : List Item → List String → Prop
  | nothing : Spelled [] []
  | path {text items arguments} (hplain : Plain text) (hne : text ≠ "")
      (h : Spelled items arguments) : Spelled (.path text :: items) (text :: arguments)
  | joined {setting value items arguments} (h : Spelled items arguments) :
      Spelled (.option setting value :: items)
        (("--" ++ setting.word ++ "=" ++ value) :: arguments)
  | apart {setting value items arguments} (hplain : Plain value) (h : Spelled items arguments) :
      Spelled (.option setting value :: items) (("--" ++ setting.word) :: value :: arguments)
  | pathsOnly {texts} (hne : "" ∉ texts) : Spelled (texts.map .path) ("--" :: texts)

section Reading

variable {usage : Usage} {setting : Setting} {argument value word : String} {items : List Item}
  {arguments : List String} {settings : List Setting}

theorem lettersOf?_plain (h : Plain argument) : lettersOf? argument = none := by
  rw [lettersOf?]
  cases h with
  | inl hhead =>
      split
      · rfl
      · next htext => exact absurd (by rw [htext]; rfl) hhead
      · rfl
  | inr heq =>
      subst heq
      rfl

theorem wordOf?_plain (h : Plain argument) : wordOf? argument = none := by
  rw [wordOf?]
  cases h with
  | inl hhead =>
      split
      · next htext => exact absurd (by rw [htext]; rfl) hhead
      · rfl
  | inr heq =>
      subst heq
      rfl

theorem ne_ends_of_plain (h : Plain argument) : argument ≠ "--" := by
  intro heq
  subst heq
  cases h with
  | inl hhead => exact hhead (by decide)
  | inr heq => exact absurd heq (by decide)

theorem isValue_plain (h : Plain argument) : isValue argument = true := by
  simp [isValue, wordOf?_plain h, lettersOf?_plain h, ne_ends_of_plain h]

theorem readArgument_plain (h : Plain argument) :
    readArgument usage argument = .asks (.path argument) := by
  rw [readArgument, if_neg (ne_ends_of_plain h), wordOf?_plain h, lettersOf?_plain h]

theorem exists_word (setting : Setting) :
    ∃ c cs, setting.word.toList = c :: cs ∧ '=' ∉ c :: cs := by
  cases setting with
  | baseName => exact ⟨'b', _, rfl, by decide⟩
  | addImport => exact ⟨'i', _, rfl, by decide⟩
  | mapType => exact ⟨'t', _, rfl, by decide⟩

theorem wordOf?_word (setting : Setting) :
    wordOf? ("--" ++ setting.word) = some (setting.word, none) := by
  cases setting with
  | baseName | addImport | mapType => rfl

theorem wordOf?_joined (setting : Setting) (value : String) :
    wordOf? ("--" ++ setting.word ++ "=" ++ value) = some (setting.word, some value) := by
  obtain ⟨c, cs, hword, hnone⟩ := exists_word setting
  have hhyphens : "--".toList = ['-', '-'] := rfl
  have hequals : "=".toList = ['='] := rfl
  have htext : ("--" ++ setting.word ++ "=" ++ value).toList =
      '-' :: '-' :: c :: (cs ++ '=' :: value.toList) := by
    simp [String.toList_append, hword, hhyphens, hequals]
  have hstop : ∀ x ∈ c :: cs, decide (x ≠ '=') = true := by
    intro x hx
    exact decide_eq_true fun heq => hnone (heq ▸ hx)
  have hback : ('=' :: value.toList).head?.any (fun x => decide (x ≠ '=')) = false := rfl
  have hread := takeWhile_append_of_stop hstop hback
  rw [List.cons_append] at hread
  simp only [wordOf?, htext, hread.1, hread.2]
  rw [← hword, String.ofList_toList, String.ofList_toList]

/-- The words of settings are told apart from each other and from those of switches. -/
theorem find?_settings (h : setting ∈ settings) :
    settings.find? (·.word = setting.word) = some setting := by
  have hword : ∀ a b : Setting, a.word = b.word → a = b := by
    intro a b
    cases a with
    | baseName | addImport | mapType =>
        cases b with
        | baseName | addImport | mapType => decide
  cases hfound : settings.find? (·.word = setting.word) with
  | none => exact absurd (decide_eq_true rfl) (List.find?_eq_none.1 hfound setting h)
  | some other =>
      have hsame := List.find?_some hfound
      rw [hword other setting (of_decide_eq_true hsame)]

theorem find?_switches (switches : List Switch) (setting : Setting) :
    switches.find? (·.word? = some setting.word) = none := by
  rw [List.find?_eq_none]
  intro switch _
  cases switch with
  | verbose | quiet | help | version =>
      cases setting with
      | baseName | addImport | mapType => decide

theorem readArgument_joined (h : setting ∈ usage.settings) :
    readArgument usage ("--" ++ setting.word ++ "=" ++ value) = .asks (.set setting value) := by
  have hne : "--" ++ setting.word ++ "=" ++ value ≠ "--" := by
    intro heq
    have hnone := wordOf?_joined setting value
    rw [heq] at hnone
    cases hnone
  simp only [readArgument, if_neg hne, wordOf?_joined, find?_switches, find?_settings h]

theorem readArgument_apart (h : setting ∈ usage.settings) :
    readArgument usage ("--" ++ setting.word) = .names setting := by
  have hne : "--" ++ setting.word ≠ "--" := by
    intro heq
    have hnone := wordOf?_word setting
    rw [heq] at hnone
    cases hnone
  simp only [readArgument, if_neg hne, wordOf?_word, find?_switches, find?_settings h]

/-- However items are written, they are read as what they are. -/
theorem requests_of_spelled (hsettings : ∀ setting, setting ∈ usage.settings)
    (h : Spelled items arguments) : requests usage arguments = items.map Item.request := by
  rw [requests]
  induction h with
  | nothing => rfl
  | path hplain _ _ ih =>
      rw [requestsAfter, readArgument_plain hplain]
      exact congrArg (_ :: ·) ih
  | joined _ ih =>
      rw [requestsAfter, readArgument_joined (hsettings _)]
      exact congrArg (_ :: ·) ih
  | apart hplain _ ih =>
      rw [requestsAfter, readArgument_apart (hsettings _)]
      dsimp only
      rw [requestsAfter, if_pos (isValue_plain hplain)]
      exact congrArg (_ :: ·) ih
  | pathsOnly _ =>
      rw [List.map_map]
      rfl

end Reading

/-- Items can be taken one after another: the base name is not given twice, and the paths are
neither too many nor empty. -/
structure Fits (usage : Usage) (settings : Settings) (items : List Item) : Prop where
  baseOnce : (settings.baseName.toList ++ valuesOf .baseName items).length ≤ 1
  paths : (settings.paths ++ pathsOf items).length ≤ usage.mostPaths
  nonempty : "" ∉ pathsOf items

/-- Settings with what items set besides. -/
def Settings.with (settings : Settings) (items : List Item) : Settings :=
  { settings with
    baseName := settings.baseName.or (valuesOf .baseName items).head?
    imports := settings.imports ++ valuesOf .addImport items
    typeMappings :=
      settings.typeMappings ++ (valuesOf .mapType items).filterMap Settings.typeMapping?
    paths := settings.paths ++ pathsOf items }

/-- Every value that maps types has the form of a mapping. -/
def AllMapped (items : List Item) : Prop :=
  ∀ value ∈ valuesOf .mapType items, (Settings.typeMapping? value).isSome = true

section Taking

variable {usage : Usage} {settings : Settings} {item : Item} {items : List Item}
  {text value : String} {setting other : Setting}

@[simp] theorem pathsOf_nil : pathsOf [] = [] := rfl

@[simp] theorem pathsOf_path : pathsOf (.path text :: items) = text :: pathsOf items := rfl

@[simp] theorem pathsOf_option : pathsOf (.option setting value :: items) = pathsOf items := rfl

@[simp] theorem valuesOf_nil : valuesOf setting [] = [] := rfl

@[simp] theorem valuesOf_path :
    valuesOf setting (.path text :: items) = valuesOf setting items := rfl

@[simp] theorem valuesOf_option :
    valuesOf setting (.option other value :: items) =
      if other = setting then value :: valuesOf setting items else valuesOf setting items := by
  rw [valuesOf, List.filterMap_cons]
  split
  · next hnone => rw [if_neg (by simpa using hnone)]; rfl
  · next hsome =>
      obtain ⟨hother, rfl⟩ : other = setting ∧ value = _ := by simpa using hsome
      rw [if_pos hother]
      rfl

theorem with_nil (settings : Settings) : settings.with [] = settings := by
  simp [Settings.with]

theorem with_cons (settings : Settings) (item : Item) (items : List Item) :
    (settings.with [item]).with items = settings.with (item :: items) := by
  cases item with
  | path text => simp [Settings.with]
  | option setting value =>
      cases setting with
      | baseName | addImport => simp [Settings.with]
      | mapType => simp [Settings.with, ← List.filterMap_append]

theorem Fits.rest (h : Fits usage settings (item :: items)) :
    Fits usage (settings.with [item]) items := by
  obtain ⟨hbase, hpaths, hnonempty⟩ := h
  cases item with
  | path text =>
      constructor
      · simpa [Settings.with] using hbase
      · simpa [Settings.with] using hpaths
      · exact fun hmem => hnonempty (List.mem_cons_of_mem _ hmem)
  | option setting value =>
      refine ⟨?_, by simpa [Settings.with] using hpaths, hnonempty⟩
      cases setting with
      | baseName =>
          cases hname : settings.baseName with
          | none => simpa [Settings.with, hname] using hbase
          | some name => simp [hname] at hbase
      | addImport | mapType => simpa [Settings.with] using hbase

/-- A step takes an item, if it is no malformed mapping. -/
theorem Fits.take (h : Fits usage settings (item :: items)) (hmapped : AllMapped [item]) :
    Settings.take usage settings item.request = .ok (settings.with [item]) := by
  obtain ⟨hbase, hpaths, hnonempty⟩ := h
  cases item with
  | path text =>
      have hroom : ¬ usage.mostPaths ≤ settings.paths.length := by
        intro hle
        rw [List.length_append, pathsOf_path, List.length_cons] at hpaths
        omega
      have htext : text ≠ "" := fun heq => hnonempty (heq ▸ List.mem_cons_self)
      rw [Item.request, Settings.take, if_neg hroom, if_neg htext]
      simp [Settings.with]
  | option setting value =>
      cases setting with
      | baseName =>
          cases hname : settings.baseName with
          | none => simp [Item.request, Settings.take, Settings.set, Settings.with, hname]
          | some name => simp [hname] at hbase
      | addImport => simp [Item.request, Settings.take, Settings.set, Settings.with]
      | mapType =>
          obtain ⟨mapping, hmapping⟩ := Option.isSome_iff_exists.1 (hmapped value (by simp))
          simp [Item.request, Settings.take, Settings.set, Settings.with, hmapping]

theorem take_of_malformed (h : ¬ AllMapped [item]) :
    Settings.take usage settings item.request = .error (.misuse .invalidValue) := by
  cases item with
  | path text => exact absurd nofun h
  | option setting value =>
      cases setting with
      | baseName | addImport => exact absurd nofun h
      | mapType =>
          cases hmapping : Settings.typeMapping? value with
          | none => simp only [Item.request, Settings.take, Settings.set, hmapping]
          | some mapping => exact absurd (by simp [AllMapped, hmapping]) h

theorem allMapped_cons :
    AllMapped (item :: items) ↔ AllMapped [item] ∧ AllMapped items := by
  cases item with
  | path text => simp [AllMapped]
  | option setting value =>
      cases setting with
      | baseName | addImport | mapType => simp [AllMapped]

/-- All items are taken, whatever their order, if no mapping is malformed. -/
theorem takeAll_items (h : Fits usage settings items) (hmapped : AllMapped items) :
    Settings.takeAll usage settings (items.map Item.request) = .ok (settings.with items) := by
  induction items generalizing settings with
  | nil => rw [with_nil]; rfl
  | cons item items ih =>
      rw [allMapped_cons] at hmapped
      rw [List.map_cons, Settings.takeAll, h.take hmapped.1, ← with_cons settings item items]
      exact ih h.rest hmapped.2

theorem takeAll_of_malformed (h : Fits usage settings items) (hmapped : ¬ AllMapped items) :
    Settings.takeAll usage settings (items.map Item.request) =
      .error (.misuse .invalidValue) := by
  induction items generalizing settings with
  | nil => exact absurd nofun hmapped
  | cons item items ih =>
      rw [allMapped_cons, not_and] at hmapped
      rw [List.map_cons, Settings.takeAll]
      by_cases hitem : AllMapped [item]
      · rw [h.take hitem]
        exact ih h.rest (hmapped hitem)
      · rw [take_of_malformed hitem]

theorem Spelled.nonempty {arguments : List String} (h : Spelled items arguments) :
    "" ∉ pathsOf items := by
  induction h with
  | nothing => exact List.not_mem_nil
  | path _ hne _ ih => simpa [hne.symm] using ih
  | joined _ ih | apart _ _ ih => exact ih
  | @pathsOnly texts hne =>
      have hpaths : pathsOf (texts.map .path) = texts := by
        rw [pathsOf, List.filterMap_map]
        exact List.filterMap_some
      rw [hpaths]
      exact hne

/-- What a command line of items sets, if it has all the paths that are needed. -/
theorem read_of_spelled {arguments : List String} (hspelled : Spelled items arguments)
    (hsettings : ∀ setting, setting ∈ usage.settings) (h : Fits usage .unset items)
    (hleast : usage.leastPaths ≤ (pathsOf items).length) :
    (AllMapped items → Settings.read usage arguments = .ok (Settings.unset.with items)) ∧
      (¬ AllMapped items → Settings.read usage arguments = .error (.misuse .invalidValue)) := by
  rw [Settings.read, requests_of_spelled hsettings hspelled]
  constructor
  · intro hmapped
    have henough : ¬ (Settings.unset.with items).paths.length < usage.leastPaths :=
      Nat.not_lt.2 hleast
    rw [takeAll_items h hmapped]
    dsimp only
    rw [if_neg (fun hboth => Nat.lt_irrefl 0 hboth.1), if_neg henough]
  · intro hmapped
    rw [takeAll_of_malformed h hmapped]

end Taking

end LoxSyntax.Command
