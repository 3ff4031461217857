import Mathlib.Data.List.Basic
import RegisterMachine.CommandLine.Options

/-!
What a command line asks for, wherever its flags stand.

The argument behind `--image` or `--load` is taken as a path, whatever it looks like. The other
arguments are the words of the command line, each with the path that it takes. The options follow
from which flags are among the words, from the last path of each flag that takes one, and from the
order of the positional words.

While scanning, the first positional word is taken for the program's text unless an image has been
named. The program's text together with the arguments put aside are at every moment the positional
words so far, in their order, so a word in front of `--load` ends up where it would behind it.
-/
set_option autoImplicit false

namespace RegisterMachine.CommandLine

/-! ## The words of a command line -/

/-- The flags that take the argument behind them as a path. -/
def pathFlags : List String :=
  ["--image", "--load"]

def flags : List String :=
  ["--disasm", "--stats", "--trace"] ++ pathFlags

/-- Whether the argument at a position is taken as a path. One that is taken takes none itself. -/
def taken (arguments : List String) : Nat → Bool
  | 0 => false
  | position + 1 => !taken arguments position && arguments[position]?.any (· ∈ pathFlags)

/-- An argument that is not taken as a path, with the path that it takes. -/
structure Word where
  text : String
  path : Option String
deriving DecidableEq

def wordAt? (arguments : List String) (position : Nat) : Option Word :=
  if taken arguments position then none
  else arguments[position]?.map fun text =>
    ⟨text, if text ∈ pathFlags then arguments[position + 1]? else none⟩

def words (arguments : List String) : List Word :=
  (List.range arguments.length).filterMap (wordAt? arguments)

section Cut

variable {front back : List String}

/-- Whether an argument is taken depends on nothing in front of one that is not. -/
theorem taken_append (free : taken (front ++ back) front.length = false) (position : Nat) :
    taken (front ++ back) (front.length + position) = taken back position := by
  induction position with
  | zero => simpa [taken] using free
  | succ position ih =>
      simp [taken, ih, List.getElem?_append_right (Nat.le_add_right _ _)]

theorem wordAt?_append (free : taken (front ++ back) front.length = false) (position : Nat) :
    wordAt? (front ++ back) (front.length + position) = wordAt? back position := by
  simp [wordAt?, taken_append free, Nat.add_assoc,
    List.getElem?_append_right (Nat.le_add_right _ _)]

theorem words_append (free : taken (front ++ back) front.length = false) :
    words (front ++ back) =
      (List.range front.length).filterMap (wordAt? (front ++ back)) ++ words back := by
  rw [words, List.length_append, List.range_add, List.filterMap_append, List.filterMap_map]
  congr 2
  funext position
  exact wordAt?_append free position

end Cut

theorem words_cons {argument : String} {rest : List String} (pathless : argument ∉ pathFlags) :
    words (argument :: rest) = ⟨argument, none⟩ :: words rest := by
  have free : taken ([argument] ++ rest) 1 = false := by simp [taken, pathless]
  simpa [wordAt?, taken, pathless] using words_append free

theorem words_cons_cons {flag path : String} {rest : List String} (takes : flag ∈ pathFlags) :
    words (flag :: path :: rest) = ⟨flag, some path⟩ :: words rest := by
  have free : taken ([flag, path] ++ rest) 2 = false := by simp [taken, takes]
  simpa [List.range_succ, wordAt?, taken, takes] using words_append free

theorem words_singleton (argument : String) : words [argument] = [⟨argument, none⟩] := by
  simp [words, wordAt?, taken]

/-! ## What the words say -/

def Given (words : List Word) (flag : String) : Prop :=
  ∃ word ∈ words, word.text = flag

/-- The paths that the words of a flag take, in order. -/
def paths (words : List Word) (flag : String) : List String :=
  words.filterMap fun word => if word.text = flag then word.path else none

def Dashed (text : String) : Prop :=
  "--".toList <+: text.toList

instance : DecidablePred Dashed :=
  fun text => inferInstanceAs (Decidable ("--".toList <+: text.toList))

/-- The words that do not begin with two dashes, in order. -/
def positionals (words : List Word) : List String :=
  (words.map Word.text).filter fun text => ¬ Dashed text

/-- What can be wrong with a word. -/
inductive Word.Faulty : Word → UsageError → Prop where
  | image : Faulty ⟨"--image", none⟩ .imageWithoutPath
  | load : Faulty ⟨"--load", none⟩ .loadWithoutPath
  | unknown {text : String} {path : Option String} :
      Dashed text → text ∉ flags → Faulty ⟨text, path⟩ (.unknownFlag text)

def Word.Sound (word : Word) : Prop :=
  ∀ error, ¬ word.Faulty error

/-- What can be wrong with a command line. -/
inductive Flawed (words : List Word) : UsageError → Prop where
  | word {word : Word} {error : UsageError} : word ∈ words → word.Faulty error → Flawed words error
  | program : ¬ Given words "--load" → positionals words = [] → Flawed words .noProgram

/-- The options are what the words ask for. -/
structure Requested (words : List Word) (options : Options) : Prop where
  listing : options.listing = true ↔ Given words "--disasm"
  counts : options.counts = true ↔ Given words "--stats"
  trace : options.trace = true ↔ Given words "--trace"
  imageOut : options.imageOut = (paths words "--image").getLast?
  image : Given words "--load" → ∃ path, (paths words "--load").getLast? = some path ∧
    options.program = .image path ∧ options.args = positionals words
  source : ¬ Given words "--load" → ∃ text, options.program = .source text ∧
    positionals words = text :: options.args

/-- The same words in another order, which leaves the positional words in theirs and the last path
of each flag the last one. -/
structure Rearranged (words others : List Word) : Prop where
  perm : words.Perm others
  positionals : positionals words = positionals others
  lastPath : ∀ flag ∈ pathFlags, (paths words flag).getLast? = (paths others flag).getLast?

theorem paths_append (first second : List Word) (flag : String) :
    paths (first ++ second) flag = paths first flag ++ paths second flag :=
  List.filterMap_append

theorem positionals_append (first second : List Word) :
    positionals (first ++ second) = positionals first ++ positionals second := by
  simp [positionals]

@[simp] theorem paths_singleton (word : Word) (flag : String) :
    paths [word] flag = (if word.text = flag then word.path else none).toList := by
  cases found : (if word.text = flag then word.path else none) with
  | none => simp [paths, found]
  | some path => simp [paths, found]

@[simp] theorem positionals_singleton (word : Word) :
    positionals [word] = if Dashed word.text then [] else [word.text] := by
  by_cases dashed : Dashed word.text
  · simp [positionals, dashed]
  · simp [positionals, dashed]

section Words

variable {words others : List Word} {options : Options} {error : UsageError}

theorem dashed_of_mem_flags {flag : String} (known : flag ∈ flags) : Dashed flag := by
  have dashed : ∀ flag ∈ flags, Dashed flag := by decide
  exact dashed flag known

/-- A known flag has a fault only if it lacks a path. -/
theorem Word.sound_of_known {word : Word} (known : word.text ∈ flags)
    (complete : word.text ∈ pathFlags → word.path ≠ none) : word.Sound := by
  intro error faulty
  cases faulty with
  | image => exact complete (by decide) rfl
  | load => exact complete (by decide) rfl
  | unknown _ unknown => exact unknown known

theorem Word.sound_of_positional {text : String} {path : Option String}
    (plain : ¬ Dashed text) : Word.Sound ⟨text, path⟩ := by
  intro error faulty
  cases faulty with
  | image => exact plain (by decide)
  | load => exact plain (by decide)
  | unknown dashed => exact plain dashed

theorem any_text_iff_given {flag : String} :
    (words.any (·.text = flag)) = true ↔ Given words flag := by
  simp [Given]

theorem Given.of_mem_paths {flag path : String} (member : path ∈ paths words flag) :
    Given words flag := by
  obtain ⟨word, listed, found⟩ := List.mem_filterMap.mp member
  split at found
  · rename_i same
    exact ⟨word, listed, same⟩
  · cases found

/-- Where every word is sound, `--load` is given together with a path. -/
theorem not_given_load_iff (sound : ∀ word ∈ words, word.Sound) :
    ¬ Given words "--load" ↔ (paths words "--load").getLast? = none := by
  rw [List.getLast?_eq_none_iff]
  constructor
  · intro absent
    refine List.eq_nil_iff_forall_not_mem.mpr fun path member => absent ?_
    exact .of_mem_paths member
  · rintro pathless ⟨⟨_, path⟩, listed, rfl⟩
    cases path with
    | none => exact sound _ listed _ .load
    | some path =>
        have member : path ∈ paths words "--load" :=
          List.mem_filterMap.mpr ⟨_, listed, if_pos rfl⟩
        simp [pathless] at member

theorem Requested.unique {also : Options} (asked : Requested words options)
    (again : Requested words also) : options = also := by
  have listing := Bool.eq_iff_iff.mpr (asked.listing.trans again.listing.symm)
  have counts := Bool.eq_iff_iff.mpr (asked.counts.trans again.counts.symm)
  have trace := Bool.eq_iff_iff.mpr (asked.trace.trans again.trace.symm)
  have imageOut := asked.imageOut.trans again.imageOut.symm
  obtain ⟨program, args⟩ : options.program = also.program ∧ options.args = also.args := by
    by_cases given : Given words "--load"
    · obtain ⟨path, last, program, args⟩ := asked.image given
      obtain ⟨path', last', program', args'⟩ := again.image given
      cases last.symm.trans last'
      exact ⟨program.trans program'.symm, args.trans args'.symm⟩
    · obtain ⟨text, program, args⟩ := asked.source given
      obtain ⟨text', program', args'⟩ := again.source given
      obtain ⟨rfl, args⟩ := List.cons_eq_cons.mp (args.symm.trans args')
      exact ⟨program.trans program'.symm, args⟩
  cases options
  cases also
  simp only [Options.mk.injEq]
  exact ⟨listing, counts, trace, imageOut, program, args⟩

namespace Rearranged

theorem symm (moved : Rearranged words others) : Rearranged others words :=
  ⟨moved.perm.symm, moved.positionals.symm, fun flag takes => (moved.lastPath flag takes).symm⟩

theorem given_iff (moved : Rearranged words others) (flag : String) :
    Given words flag ↔ Given others flag := by
  simp only [Given, moved.perm.mem_iff]

theorem flawed (moved : Rearranged words others) (flawed : Flawed words error) :
    Flawed others error := by
  cases flawed with
  | word listed faulty => exact .word (moved.perm.mem_iff.mp listed) faulty
  | program absent none =>
      exact .program ((moved.given_iff _).not.mp absent) (moved.positionals ▸ none)

theorem requested (moved : Rearranged words others) (asked : Requested words options) :
    Requested others options where
  listing := asked.listing.trans (moved.given_iff _)
  counts := asked.counts.trans (moved.given_iff _)
  trace := asked.trace.trans (moved.given_iff _)
  imageOut := asked.imageOut.trans (moved.lastPath _ (by decide))
  image given := by
    rw [← moved.lastPath _ (by decide), ← moved.positionals]
    exact asked.image ((moved.given_iff _).mpr given)
  source absent := by
    rw [← moved.positionals]
    exact asked.source ((moved.given_iff _).not.mpr absent)

end Rearranged

end Words

/-! ## Scanning word by word -/

namespace Scan

variable {scan next found : Scan}

/-- All positional arguments found so far, in their order. -/
def positionals (scan : Scan) : List String :=
  scan.source.toList ++ scan.args

/-- Nothing is put aside as an argument before there is a program. -/
def Ordered (scan : Scan) : Prop :=
  scan.load = none → scan.source = none → scan.args = []

theorem ordered_empty : empty.Ordered :=
  fun _ _ => rfl

/-- A positional argument changes nothing but the positional arguments. -/
theorem positional_frame (scan : Scan) (text : String) :
    ∃ source args, scan.positional text = { scan with source := source, args := args } := by
  unfold Scan.positional
  split
  · exact ⟨_, _, rfl⟩
  · exact ⟨_, _, rfl⟩

theorem Ordered.positional (scan : Scan) (text : String) : (scan.positional text).Ordered := by
  unfold Scan.positional
  split
  · intro _ absent
    cases absent
  · rename_i program
    intro unloaded absent
    exact absurd ⟨unloaded, absent⟩ program

theorem Ordered.positionals_positional (ordered : scan.Ordered) (text : String) :
    (scan.positional text).positionals = scan.positionals ++ [text] := by
  unfold Scan.positional
  split
  · rename_i nothing
    simp [positionals, nothing.2, ordered nothing.1 nothing.2]
  · simp [positionals]

/-- What is found beyond `scan` is what the words say. -/
structure Adds (scan : Scan) (words : List Word) (found : Scan) : Prop where
  listing : found.listing = (scan.listing || words.any (·.text = "--disasm"))
  counts : found.counts = (scan.counts || words.any (·.text = "--stats"))
  trace : found.trace = (scan.trace || words.any (·.text = "--trace"))
  imageOut : found.imageOut = (paths words "--image").getLast?.or scan.imageOut
  load : found.load = (paths words "--load").getLast?.or scan.load
  positionals : found.positionals = scan.positionals ++ CommandLine.positionals words

namespace Adds

variable {first second : List Word}

theorem nil (scan : Scan) : scan.Adds [] scan := by
  constructor <;> simp [paths, CommandLine.positionals]

theorem append (left : scan.Adds first next) (right : next.Adds second found) :
    scan.Adds (first ++ second) found where
  listing := by rw [right.listing, left.listing, List.any_append, Bool.or_assoc]
  counts := by rw [right.counts, left.counts, List.any_append, Bool.or_assoc]
  trace := by rw [right.trace, left.trace, List.any_append, Bool.or_assoc]
  imageOut := by
    rw [right.imageOut, left.imageOut, paths_append, List.getLast?_append, Option.or_assoc]
  load := by rw [right.load, left.load, paths_append, List.getLast?_append, Option.or_assoc]
  positionals := by
    rw [right.positionals, left.positionals, positionals_append, List.append_assoc]

theorem load_empty (added : empty.Adds first found) :
    found.load = (paths first "--load").getLast? :=
  added.load.trans Option.or_none

theorem positionals_empty (added : empty.Adds first found) :
    found.positionals = CommandLine.positionals first :=
  added.positionals

theorem positional (ordered : scan.Ordered) {text : String} (plain : ¬ Dashed text) :
    scan.Adds [⟨text, none⟩] (scan.positional text) := by
  have other : ∀ flag ∈ flags, text ≠ flag := by
    rintro flag known rfl
    exact plain (dashed_of_mem_flags known)
  have found := ordered.positionals_positional text
  obtain ⟨source, args, framed⟩ := scan.positional_frame text
  rw [framed] at found ⊢
  refine ⟨?_, ?_, ?_, ?_, ?_, ?_⟩
  · simp [other "--disasm" (by decide)]
  · simp [other "--stats" (by decide)]
  · simp [other "--trace" (by decide)]
  · simp
  · simp
  · rw [found, positionals_singleton, if_neg plain]

end Adds

/-- Scanning goes through all words, or it ends at a faulty one. -/
inductive Reads (scan : Scan) (words : List Word) : Except UsageError Scan → Prop where
  | sound {found : Scan} : (∀ word ∈ words, word.Sound) → scan.Adds words found → found.Ordered →
      Reads scan words (.ok found)
  | faulty {word : Word} {error : UsageError} :
      word ∈ words → word.Faulty error → Reads scan words (.error error)

namespace Reads

variable {rest : List String} {result : Except UsageError Scan}

theorem cons {word : Word} {words : List Word} (sound : word.Sound)
    (added : scan.Adds [word] next) (reads : next.Reads words result) :
    scan.Reads (word :: words) result := by
  cases reads with
  | faulty listed faulty => exact .faulty (.tail _ listed) faulty
  | sound others more ordered =>
      exact .sound (List.forall_mem_cons.mpr ⟨sound, others⟩) (added.append more) ordered

theorem switch {flag : String} (known : flag ∈ flags) (pathless : flag ∉ pathFlags)
    (added : scan.Adds [⟨flag, none⟩] next) (reads : next.Reads (words rest) result) :
    scan.Reads (words (flag :: rest)) result := by
  rw [words_cons pathless]
  exact reads.cons (Word.sound_of_known known fun takes => absurd takes pathless) added

theorem path {flag path : String} (takes : flag ∈ pathFlags)
    (added : scan.Adds [⟨flag, some path⟩] next) (reads : next.Reads (words rest) result) :
    scan.Reads (words (flag :: path :: rest)) result := by
  rw [words_cons_cons takes]
  refine reads.cons (Word.sound_of_known ?_ fun _ => Option.some_ne_none path) added
  exact List.mem_append_right _ takes

theorem positional (ordered : scan.Ordered) {text : String} (plain : ¬ Dashed text)
    (reads : (scan.positional text).Reads (words rest) result) :
    scan.Reads (words (text :: rest)) result := by
  have pathless : text ∉ pathFlags := fun takes =>
    plain (dashed_of_mem_flags (List.mem_append_right _ takes))
  rw [words_cons pathless]
  exact reads.cons (Word.sound_of_positional plain) (.positional ordered plain)

end Reads

theorem reads_arguments (ordered : scan.Ordered) (arguments : List String) :
    scan.Reads (words arguments) (scan.arguments arguments) := by
  fun_induction Scan.arguments scan arguments with
  | case1 scan => exact .sound (fun _ member => nomatch member) (.nil scan) ordered
  | case2 scan rest ih =>
      refine (ih ordered).switch (by decide) (by decide) ?_
      constructor <;> simp [positionals, Dashed]
  | case3 scan rest ih =>
      refine (ih ordered).switch (by decide) (by decide) ?_
      constructor <;> simp [positionals, Dashed]
  | case4 scan rest ih =>
      refine (ih ordered).switch (by decide) (by decide) ?_
      constructor <;> simp [positionals, Dashed]
  | case5 scan =>
      rw [words_singleton]
      exact .faulty (.head _) .image
  | case6 scan path rest ih =>
      refine (ih ordered).path (by decide) ?_
      constructor <;> simp [positionals, Dashed]
  | case7 scan =>
      rw [words_singleton]
      exact .faulty (.head _) .load
  | case8 scan path rest ih =>
      -- With an image named, further positional arguments need no text in front of them.
      refine (ih fun unloaded => nomatch unloaded).path (by decide) ?_
      constructor <;> simp [positionals, Dashed]
  | case9 scan argument rest _ _ _ _ _ _ _ dashed =>
      -- Whether anything follows decides which patterns `--image` and `--load` have missed.
      have unknown : argument ∉ flags := by
        cases rest <;> simp_all [flags, pathFlags]
      rw [words_cons fun takes => unknown (List.mem_append_right _ takes)]
      exact .faulty (.head _) (.unknown (List.isPrefixOf_iff_prefix.mp dashed) unknown)
  | case10 scan argument rest _ _ _ _ _ _ _ unprefixed ih =>
      refine .positional ordered ?_ (ih (.positional scan argument))
      exact fun dashed => unprefixed (List.isPrefixOf_iff_prefix.mpr dashed)

/-! ## The program -/

theorem program_eq_ok {program : Program} {args : List String}
    (found : scan.program = .ok (program, args)) :
    (∃ path, scan.load = some path ∧ program = .image path ∧ args = scan.positionals) ∨
    scan.load = none ∧ ∃ text, program = .source text ∧ scan.positionals = text :: args := by
  unfold Scan.program at found
  split at found
  · rename_i path text loaded taken
    cases found
    exact .inl ⟨path, loaded, rfl, by simp [positionals, taken]⟩
  · rename_i path loaded untaken
    cases found
    exact .inl ⟨path, loaded, rfl, by simp [positionals, untaken]⟩
  · rename_i text unloaded taken
    cases found
    exact .inr ⟨unloaded, text, rfl, by simp [positionals, taken]⟩
  · cases found

theorem Ordered.program_eq_error {error : UsageError} (ordered : scan.Ordered)
    (failed : scan.program = .error error) :
    error = .noProgram ∧ scan.load = none ∧ scan.positionals = [] := by
  unfold Scan.program at failed
  split at failed
  · cases failed
  · cases failed
  · cases failed
  · rename_i unloaded untaken
    cases failed
    exact ⟨rfl, unloaded, by simp [positionals, untaken, ordered unloaded untaken]⟩

end Scan

/-! ## The options -/

section Sound

variable {words : List Word} {found : Scan}
variable (sound : ∀ word ∈ words, word.Sound) (added : Scan.empty.Adds words found)
include sound added

theorem flawed_of_program {error : UsageError} (ordered : found.Ordered)
    (failed : found.program = .error error) : Flawed words error := by
  obtain ⟨rfl, unloaded, nothing⟩ := ordered.program_eq_error failed
  refine .program ((not_given_load_iff sound).mpr ?_) ?_
  · rw [← added.load_empty, unloaded]
  · rw [← added.positionals_empty, nothing]

theorem not_flawed_of_program {program : Program} {args : List String}
    (success : found.program = .ok (program, args)) (error : UsageError) :
    ¬ Flawed words error := by
  intro flawed
  cases flawed with
  | word listed faulty => exact sound _ listed _ faulty
  | program absent nothing =>
      have unloaded := (not_given_load_iff sound).mp absent
      rw [← added.load_empty] at unloaded
      rw [← added.positionals_empty] at nothing
      rcases Scan.program_eq_ok success with ⟨path, loaded, -⟩ | ⟨-, text, -, first⟩
      · simp [unloaded] at loaded
      · simp [nothing] at first

theorem requested_of_program {program : Program} {args : List String}
    (success : found.program = .ok (program, args)) :
    Requested words
      ⟨found.listing, found.counts, found.trace, found.imageOut, program, args⟩ := by
  refine ⟨?_, ?_, ?_, ?_, ?_, ?_⟩
  · exact added.listing ▸ any_text_iff_given
  · exact added.counts ▸ any_text_iff_given
  · exact added.trace ▸ any_text_iff_given
  · exact added.imageOut.trans Option.or_none
  · intro given
    rcases Scan.program_eq_ok success with ⟨path, loaded, program, args⟩ | ⟨unloaded, -⟩
    · exact ⟨path, added.load_empty ▸ loaded, program, added.positionals_empty ▸ args⟩
    · rw [added.load_empty] at unloaded
      exact absurd given ((not_given_load_iff sound).mpr unloaded)
  · intro absent
    rcases Scan.program_eq_ok success with ⟨path, loaded, -⟩ | ⟨-, source⟩
    · rw [added.load_empty, (not_given_load_iff sound).mp absent] at loaded
      cases loaded
    · exact added.positionals_empty ▸ source

end Sound

theorem parseOptions_outcome (arguments : List String) :
    (∃ error, parseOptions arguments = .error error ∧ Flawed (words arguments) error) ∨
    ∃ options, parseOptions arguments = .ok options ∧ Requested (words arguments) options ∧
      ∀ error, ¬ Flawed (words arguments) error := by
  -- The arguments matter only through their words and what scanning them gives.
  have reads := Scan.reads_arguments Scan.ordered_empty arguments
  unfold parseOptions
  generalize words arguments = words at reads ⊢
  generalize Scan.empty.arguments arguments = result at reads ⊢
  cases reads with
  | faulty listed faulty => exact .inl ⟨_, rfl, .word listed faulty⟩
  | @sound found sound added ordered =>
      simp only [bind, Except.bind]
      cases outcome : found.program with
      | error error => exact .inl ⟨error, rfl, flawed_of_program sound added ordered outcome⟩
      | ok program =>
          refine .inr ⟨_, rfl, requested_of_program sound added outcome, ?_⟩
          exact not_flawed_of_program sound added outcome

theorem parseOptions_eq_error {arguments : List String} {error : UsageError}
    (failed : parseOptions arguments = .error error) : Flawed (words arguments) error := by
  rcases parseOptions_outcome arguments with ⟨other, same, flawed⟩ | ⟨options, success, -⟩
  · cases failed.symm.trans same
    exact flawed
  · cases failed.symm.trans success

theorem parseOptions_eq_ok_iff {arguments : List String} {options : Options} :
    parseOptions arguments = .ok options ↔
      (∀ error, ¬ Flawed (words arguments) error) ∧ Requested (words arguments) options := by
  rcases parseOptions_outcome arguments with
    ⟨error, failed, flawed⟩ | ⟨found, success, requested, unflawed⟩
  · constructor
    · intro success
      cases failed.symm.trans success
    · rintro ⟨unflawed, -⟩
      exact absurd flawed (unflawed error)
  · constructor
    · intro same
      cases success.symm.trans same
      exact ⟨unflawed, requested⟩
    · rintro ⟨-, asked⟩
      rw [success, requested.unique asked]

theorem Rearranged.parseOptions_eq_ok {arguments others : List String} {options : Options}
    (moved : Rearranged (words arguments) (words others))
    (success : parseOptions arguments = .ok options) : parseOptions others = .ok options := by
  obtain ⟨unflawed, asked⟩ := parseOptions_eq_ok_iff.mp success
  refine parseOptions_eq_ok_iff.mpr ⟨?_, moved.requested asked⟩
  exact fun error flawed => unflawed error (moved.symm.flawed flawed)

/-- Wherever flags stand, a command line fails exactly if something is wrong with one of its words
or it names no program, and the error says what. Otherwise the options are what the words ask for
and nothing else. So they stay the same when flags change their places among the words. -/
theorem options_independent_of_placement (arguments : List String) :
    ((∃ error, parseOptions arguments = .error error) ↔
      ∃ error, Flawed (words arguments) error) ∧
    (∀ error, parseOptions arguments = .error error → Flawed (words arguments) error) ∧
    (∀ options, parseOptions arguments = .ok options ↔
      (∀ error, ¬ Flawed (words arguments) error) ∧ Requested (words arguments) options) ∧
    ∀ others, Rearranged (words arguments) (words others) → ∀ options,
      parseOptions arguments = .ok options ↔ parseOptions others = .ok options := by
  refine ⟨⟨?_, ?_⟩, fun _ => parseOptions_eq_error, fun _ => parseOptions_eq_ok_iff, ?_⟩
  · rintro ⟨error, failed⟩
    exact ⟨error, parseOptions_eq_error failed⟩
  · rintro ⟨error, flawed⟩
    rcases parseOptions_outcome arguments with ⟨reported, failed, -⟩ | ⟨-, -, -, unflawed⟩
    · exact ⟨reported, failed⟩
    · exact absurd flawed (unflawed error)
  · intro others moved options
    exact ⟨moved.parseOptions_eq_ok, moved.symm.parseOptions_eq_ok⟩

/-- Paths that look like flags, and a positional word in front of `--load`. -/
def crossed : List String :=
  ["i7", "--image", "--load", "--stats", "--load", "a", "i8", "--image", "--trace", "-x"]

/-- The same with all flags in front. -/
def uncrossed : List String :=
  ["--load", "a", "--image", "--load", "--image", "--trace", "--stats", "i7", "i8", "-x"]

def crossedOptions : Options :=
  ⟨false, true, false, some "--trace", .image "a", ["i7", "i8", "-x"]⟩

theorem options_independent_of_placement_crossed :
    (∀ error, ¬ Flawed (words crossed) error) ∧ Requested (words crossed) crossedOptions ∧
      Rearranged (words crossed) (words uncrossed) ∧
      parseOptions uncrossed = .ok crossedOptions ∧
      parseOptions (crossed ++ ["--load"]) = .error .loadWithoutPath ∧
      Flawed (words (crossed ++ ["--load"])) .loadWithoutPath := by
  obtain ⟨-, -, exactly, rearranged⟩ := options_independent_of_placement crossed
  have success : parseOptions crossed = .ok crossedOptions := by decide
  obtain ⟨unflawed, requested⟩ := (exactly crossedOptions).mp success
  have moved : Rearranged (words crossed) (words uncrossed) :=
    ⟨by decide, by decide, by decide⟩
  have failed : parseOptions (crossed ++ ["--load"]) = .error .loadWithoutPath := by decide
  refine ⟨unflawed, requested, moved, (rearranged _ moved _).mp success, failed, ?_⟩
  exact (options_independent_of_placement (crossed ++ ["--load"])).2.1 _ failed

end RegisterMachine.CommandLine
