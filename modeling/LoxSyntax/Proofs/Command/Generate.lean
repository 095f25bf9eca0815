import LoxSyntax.Command.Generate
import LoxSyntax.Proofs.Command.Arguments
import LoxSyntax.Proofs.Schema.TypeMap

/-!
Generating code from a command line. The program does what the library does with the configuration
that the options ask for, which is one configuration whatever their order.
-/

namespace LoxSyntax.Command.Generate

open Files Schema Source Text

/-- A value maps one type to another. They stand on the two sides of its first equals sign, perhaps
with blanks around them. -/
structure Maps (value source target : String) : Prop where
  sides : ∃ before after, value.toList = before ++ '=' :: after ∧ '=' ∉ before ∧
    Trimmed before source.toList ∧ Trimmed after target.toList
  source : source ≠ ""
  target : target ≠ ""

def MapsFrom (source value : String) : Prop :=
  ∃ target, Maps value source target

section Mapping

variable {value source target : String} {values : List String} {map : TypeMap}

theorem typeMapping?_eq_some_iff :
    Settings.typeMapping? value = some (source, target) ↔ Maps value source target := by
  have hnil : ∀ text : String, text.toList = [] ↔ text = "" := fun _ => String.toList_eq_nil_iff
  rw [Settings.typeMapping?]
  cases hsplit : splitAt? (· == '=') value.toList with
  | none =>
      constructor
      · nofun
      · intro h
        obtain ⟨⟨before, after, hvalue, hbefore, -, -⟩, -, -⟩ := h
        rw [splitAt?_beq_eq_some_iff.2 ⟨hvalue, hbefore⟩] at hsplit
        cases hsplit
  | some sides =>
      obtain ⟨before, after⟩ := sides
      obtain ⟨hvalue, hbefore⟩ := splitAt?_beq_eq_some_iff.1 hsplit
      dsimp only
      constructor
      · intro h
        split at h
        · cases h
        · next hne =>
            cases h
            rw [not_or] at hne
            refine ⟨⟨before, after, hvalue, hbefore, ?_, ?_⟩, ?_, ?_⟩
            · rw [String.toList_ofList]
              exact trimmed_trim before
            · rw [String.toList_ofList]
              exact trimmed_trim after
            · rw [Ne, ← hnil, String.toList_ofList]
              exact hne.1
            · rw [Ne, ← hnil, String.toList_ofList]
              exact hne.2
      · intro h
        obtain ⟨⟨left, right, hleft, hnone, hsource, htarget⟩, hsourceNe, htargetNe⟩ := h
        have hsame := splitAt?_beq_eq_some_iff.2 ⟨hleft, hnone⟩
        rw [hsplit] at hsame
        cases hsame
        have hne : ¬ (source.toList = [] ∨ target.toList = []) :=
          not_or.2 ⟨mt (hnil source).1 hsourceNe, mt (hnil target).1 htargetNe⟩
        rw [trim_eq_iff.2 hsource, trim_eq_iff.2 htarget, if_neg hne, String.ofList_toList,
          String.ofList_toList]

theorem mapsFrom_iff :
    MapsFrom source value ↔ (Settings.typeMapping? value).map Prod.fst = some source := by
  rw [Option.map_eq_some_iff]
  constructor
  · intro h
    obtain ⟨target, hmaps⟩ := h
    exact ⟨(source, target), typeMapping?_eq_some_iff.2 hmaps, rfl⟩
  · intro h
    obtain ⟨⟨source, target⟩, hmapping, rfl⟩ := h
    exact ⟨target, typeMapping?_eq_some_iff.1 hmapping⟩

instance (source : String) : DecidablePred (MapsFrom source) :=
  fun _ => decidable_of_iff _ mapsFrom_iff.symm

theorem insertAll_concat (map : TypeMap) (pairs : List (String × String)) (pair : String × String) :
    map.insertAll (pairs ++ [pair]) = (map.insertAll pairs).insert pair.1 pair.2 := by
  simp only [TypeMap.insertAll, List.foldl_append, List.foldl_cons, List.foldl_nil]

/-- Of the values that map a type the last one counts. -/
theorem get?_insertAll (map : TypeMap) (source : String)
    (hvalues : ∀ value ∈ values, (Settings.typeMapping? value).isSome = true) :
    (∀ value target, (values.filter (MapsFrom source)).getLast? = some value →
      Maps value source target →
        (map.insertAll (values.filterMap Settings.typeMapping?)).get? source = some target) ∧
      (values.filter (MapsFrom source) = [] →
        (map.insertAll (values.filterMap Settings.typeMapping?)).get? source =
          map.get? source) := by
  induction values using List.reverseRecOn with
  | nil => exact ⟨nofun, fun _ => rfl⟩
  | append_singleton values last ih =>
      have hmem : last ∈ values ++ [last] := List.mem_append_right _ (List.mem_singleton_self _)
      obtain ⟨⟨left, right⟩, hlast⟩ := Option.isSome_iff_exists.1 (hvalues last hmem)
      obtain ⟨hmapped, hunmapped⟩ := ih fun value h => hvalues value (List.mem_append_left _ h)
      have hpairs : (values ++ [last]).filterMap Settings.typeMapping? =
          values.filterMap Settings.typeMapping? ++ [(left, right)] := by
        rw [List.filterMap_append, List.filterMap_cons_some hlast, List.filterMap_nil]
      have hfrom : MapsFrom source last ↔ left = source := by
        rw [mapsFrom_iff, hlast]
        exact Option.some_inj
      rw [hpairs, insertAll_concat, TypeMap.get?_insert, List.filter_append]
      by_cases hsource : left = source
      · subst hsource
        have hkept : [last].filter (MapsFrom left) = [last] :=
          List.filter_cons_of_pos (decide_eq_true (hfrom.2 rfl))
        rw [hkept, if_pos rfl]
        constructor
        · intro value target hvalue hmaps
          rw [List.getLast?_concat] at hvalue
          cases hvalue
          rw [typeMapping?_eq_some_iff.2 hmaps] at hlast
          cases hlast
          rfl
        · intro hnil
          exact absurd hnil (List.append_ne_nil_of_right_ne_nil _ (List.cons_ne_nil _ _))
      · have hkept : [last].filter (MapsFrom source) = [] :=
          List.filter_cons_of_neg fun h => hsource (hfrom.1 (of_decide_eq_true h))
        rw [hkept, List.append_nil, if_neg (Ne.symm hsource)]
        exact ⟨hmapped, hunmapped⟩

end Mapping

/-- A configuration is what the options of a command line ask for: the standard one but for what
they give. Of the mappings of one type the last one counts. -/
structure AskedFor (items : List Item) (config : Config) : Prop where
  baseName : config.baseName =
    (valuesOf .baseName items).head?.getD Config.standard.baseName
  imports : config.imports =
    if valuesOf .addImport items = [] then Config.standard.imports else valuesOf .addImport items
  mapped : ∀ source value target,
    ((valuesOf .mapType items).filter (MapsFrom source)).getLast? = some value →
      Maps value source target → config.typeMap.get? source = some target
  unmapped : ∀ source, (valuesOf .mapType items).filter (MapsFrom source) = [] →
    config.typeMap.get? source = Config.standard.typeMap.get? source
  derives : config.derives = Config.standard.derives

/-- The outcome of a run is that of generating code in the library. -/
structure AgreesWith (result : Except Failure Path × FileSystem) (outcome : Outcome) : Prop where
  files : outcome.files = result.2
  written : ∀ path, result.1 = .ok path → outcome.status = 0 ∧ outcome.stdout = path.text ++ "\n"
  failed : ∀ failure, result.1 = .error failure → outcome.status = 1 ∧ outcome.stdout = ""

/-- The outcome of a run is that of generating code as the options ask, or a complaint about one
that is malformed. -/
structure DoesAsAsked (refused : Refusals) (files : FileSystem) (items : List Item)
    (grammar folder : Path) (outcome : Outcome) : Prop where
  wellFormed : (∀ value ∈ valuesOf .mapType items, ∃ source target, Maps value source target) →
    ∃ config, (∀ other, AskedFor items other ↔ other = config) ∧
      AgreesWith (files.generateUnder refused grammar folder config) outcome
  malformed : ∀ value ∈ valuesOf .mapType items,
    (∀ source target, ¬ Maps value source target) →
      outcome.status = 64 ∧ outcome.stdout = "" ∧ outcome.files = files

/-- Items in another order. Paths, imports and mappings of one type stay in order among
themselves. -/
structure Reordered (items others : List Item) : Prop where
  perm : items.Perm others
  paths : pathsOf items = pathsOf others
  imports : valuesOf .addImport items = valuesOf .addImport others
  mappings : ∀ source, (valuesOf .mapType items).filter (MapsFrom source) =
    (valuesOf .mapType others).filter (MapsFrom source)

section Asking

variable {items others : List Item} {config other : Config} {arguments otherArguments : List String}
  {grammar folder : String}

theorem allMapped_iff : AllMapped items ↔
    ∀ value ∈ valuesOf .mapType items, ∃ source target, Maps value source target := by
  refine forall₂_congr fun value _ => ?_
  rw [Option.isSome_iff_exists]
  constructor
  · intro h
    obtain ⟨⟨source, target⟩, hmapping⟩ := h
    exact ⟨source, target, typeMapping?_eq_some_iff.1 hmapping⟩
  · intro h
    obtain ⟨source, target, hmaps⟩ := h
    exact ⟨(source, target), typeMapping?_eq_some_iff.2 hmaps⟩

theorem askedFor_configOf (h : AllMapped items) :
    AskedFor items (configOf (Settings.unset.with items)) where
  baseName := rfl
  imports := by
    cases hvalues : valuesOf .addImport items with
    | nil => simp [configOf, Settings.with, Settings.unset, hvalues]
    | cons value values => simp [configOf, Settings.with, Settings.unset, hvalues]
  mapped := (fun source => (get?_insertAll _ source h).1)
  unmapped := (fun source => (get?_insertAll _ source h).2)
  derives := rfl

/-- The options ask for one configuration only. -/
theorem AskedFor.unique (h : AskedFor items config) (hother : AskedFor items other) :
    config = other := by
  have hmaps : config.typeMap = other.typeMap := by
    apply TypeMap.eq_of_get?
    intro source
    cases hlast : ((valuesOf .mapType items).filter (MapsFrom source)).getLast? with
    | none =>
        have hnil := List.getLast?_eq_none_iff.1 hlast
        rw [h.unmapped source hnil, hother.unmapped source hnil]
    | some value =>
        have hmem := List.mem_of_getLast? hlast
        obtain ⟨target, hmaps⟩ := of_decide_eq_true (List.mem_filter.1 hmem).2
        rw [h.mapped source value target hlast hmaps, hother.mapped source value target hlast hmaps]
  obtain ⟨baseName, imports, typeMap, derives⟩ := config
  obtain ⟨otherName, otherImports, otherMap, otherDerives⟩ := other
  obtain rfl : baseName = otherName := h.baseName.trans hother.baseName.symm
  obtain rfl : imports = otherImports := h.imports.trans hother.imports.symm
  obtain rfl : derives = otherDerives := h.derives.trans hother.derives.symm
  obtain rfl : typeMap = otherMap := hmaps
  rfl

theorem askedFor_iff (h : AllMapped items) :
    AskedFor items config ↔ config = configOf (Settings.unset.with items) := by
  constructor
  · intro hasked
    exact hasked.unique (askedFor_configOf h)
  · intro heq
    subst heq
    exact askedFor_configOf h

theorem agreesWith_generate (refused : Refusals) (files : FileSystem) (grammar folder : Path)
    (config : Config) :
    AgreesWith (files.generateUnder refused grammar folder config)
      (generate refused files grammar folder config) := by
  rw [generate]
  obtain ⟨result, after⟩ := files.generateUnder refused grammar folder config
  cases result with
  | error failure => exact ⟨rfl, nofun, fun _ _ => ⟨rfl, rfl⟩⟩
  | ok path =>
      refine ⟨rfl, fun written h => ?_, nofun⟩
      cases h
      exact ⟨rfl, rfl⟩

theorem fits_of_spelled (hspelled : Spelled items arguments)
    (hpaths : pathsOf items = [grammar, folder])
    (hbase : (valuesOf .baseName items).length ≤ 1) : Fits usage .unset items where
  baseOnce := hbase
  paths := by rw [hpaths]; exact Nat.le_refl 2
  nonempty := hspelled.nonempty

/-- What a run does is decided by what its items set. -/
theorem runUnder_of_spelled (hspelled : Spelled items arguments)
    (hpaths : pathsOf items = [grammar, folder])
    (hbase : (valuesOf .baseName items).length ≤ 1) (refused : Refusals) (files : FileSystem) :
    (AllMapped items → runUnder refused files arguments =
      generate refused files ⟨grammar⟩ ⟨folder⟩ (configOf (Settings.unset.with items))) ∧
    (¬ AllMapped items → runUnder refused files arguments =
      (Stop.misuse .invalidValue).outcome summary files) := by
  have hsettings : ∀ setting, setting ∈ usage.settings := by
    intro setting
    cases setting with
    | baseName | addImport | mapType => decide
  have hleast : usage.leastPaths ≤ (pathsOf items).length := by
    rw [hpaths]
    exact Nat.le_refl 2
  obtain ⟨hok, herror⟩ :=
    read_of_spelled hspelled hsettings (fits_of_spelled hspelled hpaths hbase) hleast
  constructor
  · intro hmapped
    have htwo : (Settings.unset.with items).paths = [grammar, folder] := hpaths
    simp only [runUnder, hok hmapped, htwo]
  · intro hmapped
    rw [runUnder, herror hmapped]

theorem valuesOf_perm (h : items.Perm others) (setting : Setting) :
    (valuesOf setting items).Perm (valuesOf setting others) :=
  h.filterMap _

namespace Reordered

theorem allMapped_iff (h : Reordered items others) : AllMapped items ↔ AllMapped others := by
  refine forall_congr' fun value => ?_
  rw [(valuesOf_perm h.perm .mapType).mem_iff]

theorem baseName (h : Reordered items others) (hbase : (valuesOf .baseName items).length ≤ 1) :
    valuesOf .baseName items = valuesOf .baseName others := by
  have hperm := valuesOf_perm h.perm .baseName
  cases hvalues : valuesOf .baseName items with
  | nil => rw [hvalues] at hperm; exact hperm.nil_eq
  | cons value values =>
      rw [hvalues, List.length_cons] at hbase
      obtain rfl : values = [] := List.length_eq_zero_iff.1 (by omega)
      rw [hvalues] at hperm
      exact hperm.singleton_eq

/-- The order of the options does not matter to what they ask for. -/
theorem askedFor (h : Reordered items others) (hbase : (valuesOf .baseName items).length ≤ 1)
    (hasked : AskedFor items config) : AskedFor others config := by
  obtain ⟨hname, himports, hmapped, hunmapped, hderives⟩ := hasked
  constructor
  · rw [hname, h.baseName hbase]
  · rw [himports, h.imports]
  · intro source value target hvalue
    rw [← h.mappings] at hvalue
    exact hmapped source value target hvalue
  · intro source hnil
    rw [← h.mappings] at hnil
    exact hunmapped source hnil
  · exact hderives

end Reordered

/-- On a command line with two paths and at most one base name the program does as it is asked, and
options in another order ask for the same. -/
theorem doesAsAsked_runUnder (hspelled : Spelled items arguments)
    (hpaths : pathsOf items = [grammar, folder])
    (hbase : (valuesOf .baseName items).length ≤ 1) (refused : Refusals) (files : FileSystem) :
    DoesAsAsked refused files items ⟨grammar⟩ ⟨folder⟩ (runUnder refused files arguments) ∧
      ∀ others otherArguments, Spelled others otherArguments → Reordered items others →
        runUnder refused files otherArguments = runUnder refused files arguments := by
  obtain ⟨hwell, hmal⟩ := runUnder_of_spelled hspelled hpaths hbase refused files
  constructor
  · constructor
    case wellFormed =>
      intro hvalues
      have hmapped := allMapped_iff.2 hvalues
      rw [hwell hmapped]
      exact ⟨_, fun other => askedFor_iff hmapped, agreesWith_generate refused files _ _ _⟩
    case malformed =>
      intro value hvalue hnone
      have hmapped : ¬ AllMapped items := by
        intro hall
        obtain ⟨source, target, hmaps⟩ := allMapped_iff.1 hall value hvalue
        exact hnone source target hmaps
      rw [hmal hmapped]
      exact ⟨rfl, rfl, rfl⟩
  · intro others otherArguments hother hreordered
    have hotherBase : (valuesOf .baseName others).length ≤ 1 := by
      rw [← hreordered.baseName hbase]
      exact hbase
    obtain ⟨hotherWell, hotherMal⟩ := runUnder_of_spelled hother
      (hreordered.paths.symm.trans hpaths) hotherBase refused files
    by_cases hmapped : AllMapped items
    · have hsame : configOf (Settings.unset.with items) = configOf (Settings.unset.with others) :=
        (hreordered.askedFor hbase (askedFor_configOf hmapped)).unique
          (askedFor_configOf (hreordered.allMapped_iff.1 hmapped))
      rw [hwell hmapped, hotherWell (hreordered.allMapped_iff.1 hmapped), hsame]
    · rw [hmal hmapped, hotherMal (mt hreordered.allMapped_iff.2 hmapped)]

end Asking

/-- A mapping is cut at its first equals sign, and a later one of the same type counts. -/
theorem doesAsAsked_of_mappings :
    let files : FileSystem := ⟨[(["g"], .file (Utf8.encode "A : Object x".toList))], []⟩
    let items : List Item := [.option .mapType "Object = u8", .path "g",
      .option .baseName "Stmt", .path "out",
      .option .mapType "Object=Box<dyn Iterator<Item=u8>>"]
    let arguments := ["--type-map=Object = u8", "g", "--base-name", "Stmt", "out", "--type-map",
      "Object=Box<dyn Iterator<Item=u8>>"]
    Spelled items arguments ∧ pathsOf items = ["g", "out"] ∧
      (valuesOf .baseName items).length ≤ 1 ∧
      DoesAsAsked .none files items ⟨"g"⟩ ⟨"out"⟩ (runUnder .none files arguments) ∧
      (runUnder .none files arguments).stdout = "out/stmt.rs\n" := by
  intro files items arguments
  have hspelled : Spelled items arguments := by
    have hlast : Spelled [.option .mapType "Object=Box<dyn Iterator<Item=u8>>"]
        ["--type-map", "Object=Box<dyn Iterator<Item=u8>>"] := .apart (.inl (by decide)) .nothing
    have hname : Spelled [.option .baseName "Stmt", .path "out",
        .option .mapType "Object=Box<dyn Iterator<Item=u8>>"] ["--base-name", "Stmt", "out",
        "--type-map", "Object=Box<dyn Iterator<Item=u8>>"] :=
      .apart (.inl (by decide)) (.path (.inl (by decide)) (by decide) hlast)
    exact .joined (.path (.inl (by decide)) (by decide) hname)
  exact ⟨hspelled, rfl, by decide, (doesAsAsked_runUnder hspelled rfl (by decide) .none files).1,
    by decide +kernel⟩

end LoxSyntax.Command.Generate
