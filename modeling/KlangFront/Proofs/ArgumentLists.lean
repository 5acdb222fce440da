import KlangFront.Command.Arguments
import Mathlib.Data.List.Basic
import Mathlib.Data.List.Induction

/-!
# What a list of arguments asks for

`LexRequest.asked` reads a list of arguments as a whole: its first path, the last color
mode, and whether one of them hides the locations. `ArgumentError.Rejects` says what is
wrong with an argument behind given ones. As long as nothing is wrong, the arguments
taken one by one ask for what the list asks for (`LexRequest.foldlM_of_fine`), and the
first wrong one decides the error (`LexRequest.foldlM_of_rejects`). So the order of right
arguments matters for the color modes only, and a repeated flag says nothing new:
`LexArguments.parse_spec`.
-/

namespace KlangFront

-- ---------------------------------------------------------------------------
-- Arguments alone
-- ---------------------------------------------------------------------------

/-- An argument that does not start with a hyphen. -/
def Argument.isPath (argument : String) : Bool := argument.toList.head? ≠ some '-'

/-- An argument that starts like one that sets the color mode. -/
def Argument.isColor (argument : String) : Bool := "--color=".toList.isPrefixOf argument.toList

/-- The color mode that an argument sets. -/
def ColorMode.ofFlag? (argument : String) : Option ColorMode :=
  [auto, always, never].find? fun mode => "--color=" ++ mode.name = argument

/-- A right argument other than a path. -/
def Argument.IsFlag (argument : String) : Prop :=
  argument = "--no-locations" ∨ ∃ mode : ColorMode, argument = "--color=" ++ mode.name

/-- What an argument is, with the text that makes it so. -/
inductive Argument.Reads (argument : String) : Argument → Prop
  | color {mode : String} (htext : argument = "--color=" ++ mode) : Reads argument (.color mode)
  | hideLocations (htext : argument = "--no-locations") : Reads argument .hideLocations
  | unknownOption (hpath : isPath argument = false) (hlocations : argument ≠ "--no-locations")
      (hcolor : isColor argument = false) : Reads argument .unknownOption
  | path (hpath : isPath argument) : Reads argument .path

variable {argument mode : String}

theorem ColorMode.ofFlag?_eq_some_iff {color : ColorMode} :
    ofFlag? argument = some color ↔ argument = "--color=" ++ color.name := by
  constructor
  · intro h
    simpa [eq_comm] using List.find?_some h
  · rintro rfl
    cases color <;> decide

instance (argument : String) : Decidable (Argument.IsFlag argument) :=
  decidable_of_iff (argument = "--no-locations" ∨ (ColorMode.ofFlag? argument).isSome) <| by
    simp only [Argument.IsFlag, Option.isSome_iff_exists, ColorMode.ofFlag?_eq_some_iff]

theorem ColorMode.ofName?_eq_none_iff : ofName? mode = none ↔ ∀ color, name color ≠ mode := by
  simp only [Option.eq_none_iff_forall_ne_some, ne_eq, ofName?_eq_some_iff]

namespace Argument

theorem isColor_iff : isColor argument ↔ ∃ mode, argument = "--color=" ++ mode := by
  rw [isColor, List.isPrefixOf_iff_prefix]
  constructor
  · rintro ⟨rest, h⟩
    exact ⟨String.ofList rest, String.toList_inj.mp (by simp [← h])⟩
  · rintro ⟨mode, rfl⟩
    exact ⟨mode.toList, by simp⟩

@[simp] theorem isColor_append (mode : String) : isColor ("--color=" ++ mode) :=
  isColor_iff.mpr ⟨mode, rfl⟩

@[simp] theorem isPath_color (mode : String) : isPath ("--color=" ++ mode) = false := by
  simp [isPath]

theorem isPath_of_isColor (h : isColor argument) : isPath argument = false := by
  obtain ⟨mode, rfl⟩ := isColor_iff.mp h
  exact isPath_color mode

theorem isColor_of_isPath (h : isPath argument) : isColor argument = false := by
  rw [Bool.eq_false_iff]
  intro hcolor
  rw [isPath_of_isColor hcolor] at h
  cases h

theorem ne_hideLocations_of_isColor (h : isColor argument) : argument ≠ "--no-locations" := by
  rintro rfl
  exact absurd h (by decide)

theorem ne_hideLocations_of_isPath (h : isPath argument) : argument ≠ "--no-locations" := by
  rintro rfl
  exact absurd h (by decide)

theorem ofFlag?_eq_none (h : isColor argument = false) : ColorMode.ofFlag? argument = none := by
  rw [Option.eq_none_iff_forall_ne_some]
  intro color hflag
  rw [ColorMode.ofFlag?_eq_some_iff.mp hflag, isColor_append] at h
  cases h

theorem IsFlag.isPath_eq_false (h : IsFlag argument) : isPath argument = false := by
  rcases h with rfl | ⟨mode, rfl⟩
  · decide
  · exact isPath_color mode.name

theorem isPrefixOf?_eq_none_iff :
    "--color=".toList.isPrefixOf? argument.toList = none ↔ isColor argument = false := by
  rw [Bool.eq_false_iff, Option.eq_none_iff_forall_ne_some, isColor, ne_eq,
    List.isPrefixOf_iff_prefix]
  simp only [ne_eq, List.isPrefixOf?_eq_some_iff_append_eq]
  exact not_exists.symm

theorem reads_of (argument : String) : Reads argument (of argument) := by
  unfold of
  split
  · next mode h =>
    rw [List.isPrefixOf?_eq_some_iff_append_eq] at h
    exact .color (String.toList_inj.mp (by simp [← h]))
  · next h =>
    have hcolor := isPrefixOf?_eq_none_iff.mp h
    split
    · next hlocations => exact .hideLocations hlocations
    · next hlocations =>
      split
      · next hhyphen => exact .unknownOption (by simp [isPath, hhyphen]) hlocations hcolor
      · next hhyphen => exact .path (by simpa [isPath] using hhyphen)

theorem Reads.of_eq {kind : Argument} (h : Reads argument kind) : Argument.of argument = kind := by
  cases h with
  | @color mode htext =>
    have hrest : "--color=".toList.isPrefixOf? argument.toList = some mode.toList :=
      List.isPrefixOf?_eq_some_iff_append_eq.mpr (by simp [htext])
    simp only [Argument.of, hrest, String.ofList_toList]
  | hideLocations htext =>
    subst htext
    decide
  | unknownOption hpath hlocations hcolor =>
    have hhyphen : argument.toList.head? = some '-' := by simpa [isPath] using hpath
    simp only [Argument.of, isPrefixOf?_eq_none_iff.mpr hcolor, if_neg hlocations, if_pos hhyphen]
  | path hpath =>
    have hhyphen : argument.toList.head? ≠ some '-' := by simpa [isPath] using hpath
    simp only [Argument.of, isPrefixOf?_eq_none_iff.mpr (isColor_of_isPath hpath),
      if_neg (ne_hideLocations_of_isPath hpath), if_neg hhyphen]

end Argument

-- ---------------------------------------------------------------------------
-- What a list asks for
-- ---------------------------------------------------------------------------

/-- The last color mode that the arguments set, and the automatic one if they set none. -/
def ColorMode.last (arguments : List String) : ColorMode :=
  (arguments.filterMap ofFlag?).getLast?.getD auto

/-- What arguments ask for if nothing is wrong with them. -/
def LexRequest.asked (arguments : List String) : LexRequest where
  path := (arguments.filter Argument.isPath).head?
  color := .last arguments
  locations := "--no-locations" ∉ arguments

/-- What is wrong with an argument that comes behind others. -/
inductive ArgumentError.Rejects (before : List String) (argument : String) : ArgumentError → Prop
  | colorMode {mode : String} (htext : argument = "--color=" ++ mode)
      (hmode : ∀ color : ColorMode, color.name ≠ mode) :
      Rejects before argument (.invalidColorMode mode)
  | unknownOption (hpath : Argument.isPath argument = false)
      (hlocations : argument ≠ "--no-locations") (hcolor : Argument.isColor argument = false) :
      Rejects before argument (.unknownOption argument)
  | secondPath (hpath : Argument.isPath argument) (hbefore : before.any Argument.isPath) :
      Rejects before argument (.secondPath argument)

namespace LexRequest

open ArgumentError (Rejects)

variable {before arguments : List String} {error : ArgumentError}

theorem asked_concat (before : List String) (argument : String) :
    asked (before ++ [argument]) =
      ⟨(asked before).path.or (if Argument.isPath argument then some argument else none),
        (ColorMode.ofFlag? argument).getD (asked before).color,
        (asked before).locations && argument ≠ "--no-locations"⟩ := by
  have hpath : ((before ++ [argument]).filter Argument.isPath).head?
      = (asked before).path.or (if Argument.isPath argument then some argument else none) := by
    cases h : Argument.isPath argument <;> simp [asked, h]
  have hcolor : ColorMode.last (before ++ [argument])
      = (ColorMode.ofFlag? argument).getD (.last before) := by
    unfold ColorMode.last
    cases h : ColorMode.ofFlag? argument <;> simp [List.filterMap_append, h]
  have hlocations : decide ("--no-locations" ∉ before ++ [argument])
      = ((asked before).locations && argument ≠ "--no-locations") := by
    simp [asked, eq_comm]
  rw [asked, hpath, hcolor, hlocations]
  rfl

theorem isNone_path_asked (before : List String) :
    (asked before).path.isNone = !before.any Argument.isPath := by
  rw [Bool.eq_iff_iff]
  simp [asked]

theorem add_of_rejects (h : Rejects before argument error) :
    (asked before).add argument = .error error := by
  cases h with
  | colorMode htext hmode =>
    simp only [add, (Argument.Reads.color htext).of_eq, ColorMode.ofName?_eq_none_iff.mpr hmode]
  | unknownOption hpath hlocations hcolor =>
    simp only [add, (Argument.Reads.unknownOption hpath hlocations hcolor).of_eq]
  | secondPath hpath hbefore =>
    simp [add, (Argument.Reads.path hpath).of_eq, isNone_path_asked, hbefore]

theorem not_rejects_of_isFlag (h : Argument.IsFlag argument) : ¬ Rejects before argument error := by
  intro hrejects
  cases hrejects with
  | colorMode htext hmode =>
    rcases h with rfl | ⟨color, rfl⟩
    · exact Argument.ne_hideLocations_of_isColor (Argument.isColor_iff.mpr ⟨_, htext⟩) rfl
    · exact hmode color (by simpa using htext)
  | unknownOption hpath hlocations hcolor =>
    rcases h with rfl | ⟨color, rfl⟩
    · exact hlocations rfl
    · simp at hcolor
  | secondPath hpath =>
    rw [h.isPath_eq_false] at hpath
    cases hpath

theorem any_isPath_of_rejects (h : Rejects before argument error)
    (hpath : Argument.isPath argument) : before.any Argument.isPath := by
  cases h with
  | colorMode htext =>
    rw [Argument.isPath_of_isColor (Argument.isColor_iff.mpr ⟨_, htext⟩)] at hpath
    cases hpath
  | unknownOption hother =>
    rw [hother] at hpath
    cases hpath
  | secondPath _ hbefore => exact hbefore

/-- Nothing is wrong with a flag, nor with the first path. -/
theorem not_rejects_iff : (∀ error, ¬ Rejects before argument error) ↔
    Argument.IsFlag argument ∨
      Argument.isPath argument ∧ before.any Argument.isPath = false := by
  constructor
  · intro h
    have hreads := Argument.reads_of argument
    generalize Argument.of argument = kind at hreads
    cases hreads with
    | @color mode htext =>
      cases hmode : ColorMode.ofName? mode with
      | none => exact absurd (.colorMode htext (ColorMode.ofName?_eq_none_iff.mp hmode)) (h _)
      | some color =>
        exact .inl (.inr ⟨color, by rw [htext, ColorMode.ofName?_eq_some_iff.mp hmode]⟩)
    | hideLocations htext => exact .inl (.inl htext)
    | unknownOption hpath hlocations hcolor =>
      exact absurd (.unknownOption hpath hlocations hcolor) (h _)
    | path hpath =>
      refine .inr ⟨hpath, ?_⟩
      rw [Bool.eq_false_iff]
      exact fun hbefore => h _ (.secondPath hpath hbefore)
  · rintro (hflag | ⟨hpath, hbefore⟩) error hrejects
    · exact not_rejects_of_isFlag hflag hrejects
    · rw [any_isPath_of_rejects hrejects hpath] at hbefore
      cases hbefore

/-- An argument with nothing wrong is added to what the arguments before it ask for. -/
theorem add_of_not_rejects (h : ∀ error, ¬ Rejects before argument error) :
    (asked before).add argument = .ok (asked (before ++ [argument])) := by
  rw [asked_concat]
  rcases not_rejects_iff.mp h with (rfl | ⟨color, rfl⟩) | ⟨hpath, hbefore⟩
  · have hcolor : Argument.isColor "--no-locations" = false := by decide
    have hpath : Argument.isPath "--no-locations" = false := by decide
    simp [add, (Argument.Reads.hideLocations rfl).of_eq, Argument.ofFlag?_eq_none hcolor, hpath]
  · have hcolor := Argument.isColor_append color.name
    simp [add, (Argument.Reads.color rfl).of_eq, ColorMode.ofName?_eq_some_iff.mpr rfl,
      ColorMode.ofFlag?_eq_some_iff.mpr rfl, Argument.ne_hideLocations_of_isColor hcolor]
  · have hnone : (asked before).path = none := by
      simpa [hbefore] using isNone_path_asked before
    simp [add, (Argument.Reads.path hpath).of_eq, hnone, hpath,
      Argument.ofFlag?_eq_none (Argument.isColor_of_isPath hpath),
      Argument.ne_hideLocations_of_isPath hpath]

-- ---------------------------------------------------------------------------
-- One argument after another
-- ---------------------------------------------------------------------------

/-- A list of arguments with nothing wrong in it. -/
def Fine (arguments : List String) : Prop :=
  ∀ before argument after, arguments = before ++ argument :: after →
    ∀ error, ¬ Rejects before argument error

theorem foldlM_of_fine (h : Fine arguments) :
    arguments.foldlM add start = .ok (asked arguments) := by
  induction arguments using List.reverseRecOn with
  | nil => rfl
  | append_singleton before argument ih =>
    have hbefore : before.foldlM add start = .ok (asked before) := by
      refine ih fun earlier other later hsplit => h earlier other (later ++ [argument]) ?_
      rw [hsplit, List.append_assoc, List.cons_append]
    rw [List.foldlM_append, hbefore]
    change [argument].foldlM add (asked before) = _
    rw [List.foldlM_cons, add_of_not_rejects (h before argument [] rfl)]
    rfl

/-- The first argument with something wrong decides the error, whatever comes behind it. -/
theorem foldlM_of_rejects (h : Fine before) (hargument : Rejects before argument error)
    (after : List String) :
    (before ++ argument :: after).foldlM add start = .error error := by
  rw [List.foldlM_append, foldlM_of_fine h]
  change (argument :: after).foldlM add (asked before) = _
  rw [List.foldlM_cons, add_of_rejects hargument]
  rfl

theorem Fine.concat (h : Fine before) (hargument : ∀ error, ¬ Rejects before argument error) :
    Fine (before ++ [argument]) := by
  intro earlier other later hsplit
  rcases List.eq_nil_or_concat later with rfl | ⟨later, last, rfl⟩
  · obtain ⟨rfl, hlast⟩ := List.append_inj' hsplit rfl
    obtain rfl : argument = other := by simpa using hlast
    exact hargument
  · rw [List.concat_eq_append, ← List.cons_append, ← List.append_assoc] at hsplit
    exact h earlier other later (List.append_inj' hsplit rfl).1

theorem fine_or_rejects (arguments : List String) : Fine arguments ∨
    ∃ before argument after error, arguments = before ++ argument :: after ∧ Fine before ∧
      Rejects before argument error := by
  induction arguments using List.reverseRecOn with
  | nil => exact .inl fun before argument after hsplit => by simp at hsplit
  | append_singleton before argument ih =>
    rcases ih with hfine | ⟨earlier, other, later, error, rfl, hfine, hother⟩
    · by_cases hargument : ∀ error, ¬ Rejects before argument error
      · exact .inl (hfine.concat hargument)
      · obtain ⟨error, hargument⟩ := not_forall_not.mp hargument
        exact .inr ⟨before, argument, [], error, rfl, hfine, hargument⟩
    · exact .inr ⟨earlier, other, later ++ [argument], error, by simp, hfine, hother⟩

/-- The arguments are flags and paths, and a second path would be one too many. -/
theorem fine_iff : Fine arguments ↔
    (∀ argument ∈ arguments, Argument.isPath argument ∨ Argument.IsFlag argument) ∧
      (arguments.filter Argument.isPath).length ≤ 1 := by
  constructor
  · intro h
    constructor
    · intro argument hargument
      obtain ⟨before, after, hsplit⟩ := List.append_of_mem hargument
      rcases not_rejects_iff.mp (h before argument after hsplit) with hflag | ⟨hpath, -⟩
      · exact .inr hflag
      · exact .inl hpath
    · cases hpaths : arguments.filter Argument.isPath with
      | nil => simp
      | cons first others =>
        cases others with
        | nil => simp
        | cons second others =>
          obtain ⟨front, rest, rfl, -, hfirst, hrest⟩ := List.filter_eq_cons_iff.mp hpaths
          obtain ⟨middle, last, rfl, -, hsecond, -⟩ := List.filter_eq_cons_iff.mp hrest
          have hbefore : (front ++ first :: middle).any Argument.isPath := by simp [hfirst]
          exact absurd (.secondPath hsecond hbefore)
            (h (front ++ first :: middle) second last (by simp) _)
  · rintro ⟨hright, hpaths⟩ before argument after rfl
    refine not_rejects_iff.mpr ((hright argument (by simp)).symm.imp id fun hpath => ⟨hpath, ?_⟩)
    simp only [List.filter_append, List.filter_cons_of_pos hpath, List.length_append,
      List.length_cons] at hpaths
    have hnone : before.filter Argument.isPath = [] :=
      List.eq_nil_of_length_eq_zero (by omega)
    simpa using hnone

/-- A flag behind itself adds nothing, and a wrong one is wrong the first time. -/
theorem add_add (h : Argument.isPath argument = false) (request : LexRequest) :
    (request.add argument >>= fun next => next.add argument) = request.add argument := by
  unfold add
  have hreads := Argument.reads_of argument
  generalize Argument.of argument = kind at hreads
  cases hreads with
  | @color mode htext =>
    simp only
    cases ColorMode.ofName? mode with
    | none => rfl
    | some color => rfl
  | hideLocations htext => rfl
  | unknownOption => rfl
  | path hpath =>
    rw [h] at hpath
    cases hpath

theorem foldlM_repeat (h : Argument.isPath argument = false) (before after : List String) :
    (before ++ argument :: argument :: after).foldlM add start
      = (before ++ argument :: after).foldlM add start := by
  rw [List.foldlM_append, List.foldlM_append]
  congr
  funext request
  simp only [List.foldlM_cons]
  rw [← bind_assoc, add_add h]

end LexRequest

-- ---------------------------------------------------------------------------
-- Whole lists
-- ---------------------------------------------------------------------------

namespace LexArguments

open ArgumentError (Rejects)
open LexRequest (Fine asked)

variable {before arguments : List String} {request : LexArguments} {error : ArgumentError}

theorem parse_of_fine (h : Fine arguments) :
    parse arguments = match (arguments.filter Argument.isPath).head? with
      | some path => .ok ⟨path, .last arguments, "--no-locations" ∉ arguments⟩
      | none => .error .missingPath := by
  rw [parse, LexRequest.foldlM_of_fine h]
  rfl

theorem parse_of_rejects (h : Fine before) (hargument : Rejects before argument error)
    (after : List String) : parse (before ++ argument :: after) = .error error := by
  rw [parse, LexRequest.foldlM_of_rejects h hargument]
  rfl

theorem parse_eq_ok_iff : parse arguments = .ok request ↔
    (∀ argument ∈ arguments, Argument.isPath argument ∨ Argument.IsFlag argument) ∧
      arguments.filter Argument.isPath = [request.path] ∧
      request.color = .last arguments ∧
      (request.locations = false ↔ "--no-locations" ∈ arguments) := by
  constructor
  · intro h
    rcases LexRequest.fine_or_rejects arguments with hfine |
      ⟨before, argument, after, error, rfl, hfine, hargument⟩
    · obtain ⟨hright, hpaths⟩ := LexRequest.fine_iff.mp hfine
      rw [parse_of_fine hfine] at h
      cases hfilter : arguments.filter Argument.isPath with
      | nil => simp [hfilter] at h
      | cons path others =>
        rw [hfilter] at h hpaths
        cases h
        obtain rfl : others = [] := by simpa using hpaths
        exact ⟨hright, rfl, rfl, by simp⟩
    · rw [parse_of_rejects hfine hargument] at h
      cases h
  · rintro ⟨hright, hpaths, hcolor, hlocations⟩
    have hfine : Fine arguments := LexRequest.fine_iff.mpr ⟨hright, by simp [hpaths]⟩
    have hshown : decide ("--no-locations" ∉ arguments) = request.locations := by
      rw [Bool.eq_iff_iff, decide_eq_true_iff, ← hlocations, Bool.not_eq_false]
    rw [parse_of_fine hfine, hpaths, List.head?_cons, ← hcolor, hshown]

theorem parse_eq_error_iff : parse arguments = .error error ↔
    (∃ before argument after, arguments = before ++ argument :: after ∧ Fine before ∧
      Rejects before argument error) ∨
    Fine arguments ∧ arguments.filter Argument.isPath = [] ∧ error = .missingPath := by
  constructor
  · intro h
    rcases LexRequest.fine_or_rejects arguments with hfine |
      ⟨before, argument, after, error', rfl, hfine, hargument⟩
    · rw [parse_of_fine hfine] at h
      cases hfilter : arguments.filter Argument.isPath with
      | nil =>
        rw [hfilter] at h
        cases h
        exact .inr ⟨hfine, rfl, rfl⟩
      | cons path others => simp [hfilter] at h
    · rw [parse_of_rejects hfine hargument] at h
      cases h
      exact .inl ⟨before, argument, after, rfl, hfine, hargument⟩
  · rintro (⟨before, argument, after, rfl, hfine, hargument⟩ | ⟨hfine, hpaths, rfl⟩)
    · exact parse_of_rejects hfine hargument after
    · rw [parse_of_fine hfine, hpaths]
      rfl

end LexArguments

theorem ColorMode.last_filter (arguments : List String) :
    last (arguments.filter Argument.isColor) = last arguments := by
  have hflags : (arguments.filter Argument.isColor).filterMap ofFlag?
      = arguments.filterMap ofFlag? := by
    rw [List.filterMap_filter]
    congr
    funext argument
    cases h : Argument.isColor argument with
    | true => simp
    | false => simp [Argument.ofFlag?_eq_none h]
  rw [last, hflags, last]

theorem LexArguments.parse_eq_ok_of_perm {arguments others : List String} {request : LexArguments}
    (hperm : arguments.Perm others)
    (hcolors : arguments.filter Argument.isColor = others.filter Argument.isColor)
    (h : parse arguments = .ok request) : parse others = .ok request := by
  obtain ⟨hright, hpaths, hcolor, hlocations⟩ := parse_eq_ok_iff.mp h
  refine parse_eq_ok_iff.mpr ⟨fun argument hmem => hright argument (hperm.mem_iff.mpr hmem), ?_,
    ?_, hlocations.trans hperm.mem_iff⟩
  · have hothers := hperm.symm.filter Argument.isPath
    rw [hpaths] at hothers
    exact hothers.eq_singleton
  · rw [hcolor, ← ColorMode.last_filter, hcolors, ColorMode.last_filter]

/-- Arguments are right if one of them is a path and the others are flags, and then they ask
for this path, the last color mode, and locations unless one of them hides these. Otherwise
the first wrong one decides the error, and a missing path is one if nothing else is. The
order of the other arguments than color modes does not matter, nor does a repeated flag. -/
theorem LexArguments.parse_spec (arguments : List String) :
    (∀ request, parse arguments = .ok request ↔
      (∀ argument ∈ arguments, Argument.isPath argument ∨ Argument.IsFlag argument) ∧
        arguments.filter Argument.isPath = [request.path] ∧
        request.color = .last arguments ∧
        (request.locations = false ↔ "--no-locations" ∈ arguments)) ∧
    (∀ error, parse arguments = .error error ↔
      (∃ before argument after, arguments = before ++ argument :: after ∧
        LexRequest.Fine before ∧ ArgumentError.Rejects before argument error) ∨
      LexRequest.Fine arguments ∧ arguments.filter Argument.isPath = [] ∧
        error = .missingPath) ∧
    (∀ others, arguments.Perm others →
      arguments.filter Argument.isColor = others.filter Argument.isColor →
        ∀ request, parse arguments = .ok request ↔ parse others = .ok request) ∧
    ∀ before flag after, arguments = before ++ flag :: after → Argument.isPath flag = false →
      parse (before ++ flag :: flag :: after) = parse arguments := by
  refine ⟨fun request => parse_eq_ok_iff, fun error => parse_eq_error_iff, ?_, ?_⟩
  · intro others hperm hcolors request
    exact ⟨parse_eq_ok_of_perm hperm hcolors, parse_eq_ok_of_perm hperm.symm hcolors.symm⟩
  · rintro before flag after rfl hflag
    rw [parse, LexRequest.foldlM_repeat hflag, parse]

/-- A right list, the same one in another order and with a repeated flag, and a list whose
third argument is wrong, as are those behind it. -/
theorem LexArguments.parse_spec_mixed :
    let arguments := ["--color=never", "a.k", "--no-locations", "--color=always"]
    let wrong := ["--color=auto", "", "b.k", "-", "--color="]
    parse arguments = .ok ⟨"a.k", .always, false⟩ ∧
      parse ["--no-locations", "--color=never", "--color=always", "a.k"]
        = .ok ⟨"a.k", .always, false⟩ ∧
      parse ["--color=never", "a.k", "--no-locations", "--no-locations", "--color=always"]
        = .ok ⟨"a.k", .always, false⟩ ∧
      (parse wrong).mapError ArgumentError.message = .error "unexpected argument 'b.k'" := by
  intro arguments wrong
  obtain ⟨hok, -, hperm, hrepeat⟩ := parse_spec arguments
  have hparse : parse arguments = .ok ⟨"a.k", .always, false⟩ :=
    (hok _).mpr ⟨by decide, by decide, by decide, by decide⟩
  refine ⟨hparse, ?_, ?_, ?_⟩
  · exact (hperm _ (by decide) (by decide) _).mp hparse
  · exact (hrepeat ["--color=never", "a.k"] "--no-locations" ["--color=always"] rfl
      (by decide)).trans hparse
  · have hwrong := (parse_spec wrong).2.1 (.secondPath "b.k")
    have hfine : LexRequest.Fine ["--color=auto", ""] :=
      LexRequest.fine_iff.mpr ⟨by decide, by decide⟩
    rw [hwrong.mpr (.inl ⟨["--color=auto", ""], "b.k", ["-", "--color="], rfl, hfine,
      .secondPath (by decide) (by decide)⟩)]
    rfl

end KlangFront
