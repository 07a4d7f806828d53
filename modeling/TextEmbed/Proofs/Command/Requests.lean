import TextEmbed.Proofs.Command.Reading
import TextEmbed.Proofs.Utf8.Lossy

/-!
# Command lines that ask for the same

What is asked for can be put on a command line in many ways. Flags, options and files stand in any
order, as long as the files stay in theirs; letters of flags stand alone or in front of the letters
of another argument; each option has its value in any spelling; and the files at the end may stand
behind `--`. All of these command lines are accepted, and all of them mean the same.

This is so for every library that follows the rules. A rule is about one occurrence, and says what
it adds to what is found behind it. So what is found on a command line is built up from its end, one
occurrence after the other, and what carries this is that the occurrences behind are found as often,
and in the order, in which they stand there.

## Main definitions

* `Command.Item.Written`, `Command.Wording`: the arguments that some occurrences are written as;
* `Command.Matches.IsOf`: what is found of some occurrences, however they are written;
* `Command.Request`: what can be asked for, and `Command.Request.IsMadeOf`: the occurrences that
  ask for it.

## Main results

* `Command.Matches.IsOf.add`: one occurrence more can be found in front;
* `Command.Library.Rules.find_of_wording`: what is found on a command line is what it is made of;
* `Command.Options.read_of_wording`: every wording of a request is accepted and means the request.
-/

namespace TextEmbed.Command

/-! ## Wordings -/

/-- The arguments that flags, or an option behind flags, are written as. -/
inductive Item.Written : List Item → List (List UInt8) → Prop
  | long (flag : Flag) : Written [.flag flag] [flag.long]
  | short (flag : Flag) : Written [.flag flag] [flag.short]
  | value {option : ValueOption} {value : List UInt8} {words : List (List UInt8)}
      (h : option.Spelled value words) : Written [.value option value] words
  /-- The letter of a flag can be put in front of the letters of an argument. -/
  | cluster (flag : Flag) {items : List Item} {letter : UInt8} {letters : List UInt8}
      {next : List (List UInt8)} (hletter : letter ≠ Shape.dash)
      (h : Written items ((Shape.dash :: letter :: letters) :: next)) :
      Written (.flag flag :: items)
        ((Shape.dash :: flag.letter.toUInt8 :: letter :: letters) :: next)

/-- The command lines that are made of given items. -/
inductive Wording : List Item → List (List UInt8) → Prop
  | nil : Wording [] []
  | options {first items : List Item} {words arguments : List (List UInt8)}
      (hfirst : Item.Written first words) (h : Wording items arguments) :
      Wording (first ++ items) (words ++ arguments)
  /-- A file in front of the two dashes must not look like an option. -/
  | file {path : List UInt8} {items : List Item} {arguments : List (List UInt8)}
      (hplain : Shape.IsPlain path) (h : Wording items arguments) :
      Wording (.file path :: items) (path :: arguments)
  /-- Behind two dashes there is nothing but files. -/
  | separated (paths : List (List UInt8)) :
      Wording (paths.map .file) (Shape.twoDashes :: paths)

/-! ## What is found -/

namespace Item

/-- The value that an item gives an option. -/
def valueOf? (option : ValueOption) : Item → Option (List UInt8)
  | value given bytes => if given = option then some bytes else none
  | _ => none

theorem valueOf?_value (option : ValueOption) (bytes : List UInt8) :
    valueOf? option (.value option bytes) = some bytes :=
  if_pos rfl

theorem valueOf?_of_ne {option other : ValueOption} (h : other ≠ option) (bytes : List UInt8) :
    valueOf? other (.value option bytes) = none :=
  if_neg h.symm

/-- The file that an item names. -/
def file? : Item → Option Path
  | file path => some ⟨path⟩
  | _ => none

/-- Items that can stand on one command line. -/
structure AreCompatible (items : List Item) : Prop where
  /-- A flag is counted, or switches something on, once. -/
  flags : ∀ flag, .flag flag ∈ items →
    flag.action = .count ∨ (flag.action = .switchOn ∧ items.count (.flag flag) ≤ 1)
  /-- No option has two values. -/
  values : ∀ option, (items.filterMap (valueOf? option)).length ≤ 1
  accepted : ∀ option value, .value option value ∈ items → option.kind.Accepts value
  files : ∀ path, .file path ∈ items → ValueKind.path.Accepts path

/-- Fewer items are compatible as well. -/
theorem AreCompatible.of_sublist {items fewer : List Item} (h : AreCompatible items)
    (hfewer : fewer.Sublist items) : AreCompatible fewer where
  flags flag hflag := by
    apply (h.flags flag (hfewer.subset hflag)).imp_right
    rintro ⟨haction, hcount⟩
    exact ⟨haction, (hfewer.count_le (.flag flag)).trans hcount⟩
  values option := (hfewer.filterMap (valueOf? option)).length_le.trans (h.values option)
  accepted option value hvalue := h.accepted option value (hfewer.subset hvalue)
  files path hpath := h.files path (hfewer.subset hpath)

theorem AreCompatible.tail {item : Item} {items : List Item} (h : AreCompatible (item :: items)) :
    AreCompatible items :=
  h.of_sublist (List.sublist_cons_self item items)

end Item

namespace Matches

/-- What is found of some items: how often each flag is among them, the values of the options, and
the files. -/
structure IsOf (found : Matches) (items : List Item) : Prop where
  count : ∀ flag, found.count flag = min maxCount (items.count (.flag flag))
  values : ∀ option, (found.value? option).toList = items.filterMap (Item.valueOf? option)
  files : found.files = items.filterMap Item.file?

variable {found : Matches} {item : Item} {items : List Item}

/-- An item is admitted in front of items that it is compatible with. -/
theorem IsOf.admits (hfound : found.IsOf items) (h : Item.AreCompatible (item :: items)) :
    found.Admits item := by
  cases item with
  | flag flag =>
    rcases h.flags flag List.mem_cons_self with hcount | ⟨hswitch, hcount⟩
    · simp [Admits, hcount]
    -- this is the one time that it may be given
    · rw [List.count_cons_self] at hcount
      have hnone : items.count (.flag flag) = 0 := by omega
      simp [Admits, hswitch, hfound.count flag, hnone]
  | value option value =>
    refine ⟨?_, h.accepted option value List.mem_cons_self⟩
    have hvalues := h.values option
    rw [List.filterMap_cons_some (Item.valueOf?_value option value),
      ← hfound.values option] at hvalues
    cases hgiven : found.value? option with
    | none => rfl
    | some given => simp [hgiven] at hvalues
  | file path => exact h.files path List.mem_cons_self

/-- One item more is found in front of items that it is compatible with. -/
theorem IsOf.add (hfound : found.IsOf items) (h : Item.AreCompatible (item :: items)) :
    (found.add item).IsOf (item :: items) := by
  have hadmits := hfound.admits h
  cases item with
  | flag flag =>
    refine { count := ?_, values := hfound.values, files := hfound.files }
    intro other
    show (if other = flag then _ else _) = _
    by_cases hother : other = flag
    · rw [if_pos hother, hother, List.count_cons_self, hfound.count flag]
      omega
    · have hne : Item.flag flag ≠ .flag other := by simpa using Ne.symm hother
      rw [if_neg hother, List.count_cons_of_ne hne, hfound.count other]
  | value option value =>
    refine { count := ?_, values := ?_, files := hfound.files }
    · intro flag
      rw [List.count_cons_of_ne (by simp)]
      exact hfound.count flag
    · intro other
      show (if other = option then some value else found.value? other).toList = _
      by_cases hother : other = option
      -- there is nothing behind that its new value could replace
      · have hnone : items.filterMap (Item.valueOf? option) = [] := by
          rw [← hfound.values option, hadmits.1]
          rfl
        rw [if_pos hother, hother, List.filterMap_cons_some (Item.valueOf?_value option value),
          hnone]
        rfl
      · rw [if_neg hother, List.filterMap_cons_none (Item.valueOf?_of_ne hother value)]
        exact hfound.values other
  | file path =>
    refine { count := ?_, values := hfound.values, files := ?_ }
    · intro flag
      rw [List.count_cons_of_ne (by simp)]
      exact hfound.count flag
    · show Path.mk path :: found.files = _
      rw [hfound.files]
      rfl

/-- Behind two dashes, nothing but files is found. -/
theorem isOf_files (paths : List (List UInt8)) :
    ({ files := paths.map Path.mk } : Matches).IsOf (paths.map .file) where
  count flag := by
    have hnone : (paths.map Item.file).count (.flag flag) = 0 := List.count_eq_zero.mpr (by simp)
    simp [hnone]
  values option := by
    symm
    apply List.filterMap_eq_nil_iff.mpr
    simp [Item.valueOf?]
  files := by
    rw [List.filterMap_map]
    show paths.map Path.mk = paths.filterMap (some ∘ Path.mk)
    rw [List.filterMap_eq_map]

end Matches

namespace Library.Rules

variable {library : Library} {found : Matches} {items : List Item}

/-- What is written in front of a command line is found in front of what is found on it. -/
theorem find_of_written (hrules : library.Rules) {later : List Item}
    {words rest : List (List UInt8)} (hwords : Item.Written items words)
    (h : Item.AreCompatible (items ++ later)) (hrest : library.find rest = .ok found)
    (hfound : found.IsOf later) :
    ∃ more, library.find (words ++ rest) = .ok more ∧ more.IsOf (items ++ later) := by
  induction hwords with
  | long flag => exact ⟨_, hrules.longFlag hrest (hfound.admits h), hfound.add h⟩
  | short flag => exact ⟨_, hrules.shortFlag hrest (hfound.admits h), hfound.add h⟩
  | value hspelled =>
    exact ⟨_, hrules.find_spelled hspelled hrest (hfound.admits h), hfound.add h⟩
  -- the letters behind are an argument of their own, if they get a dash
  | cluster flag hletter hwritten ih =>
    obtain ⟨more, hmore, hisOf⟩ := ih h.tail
    exact ⟨_, hrules.cluster hletter hmore (hisOf.admits h), hisOf.add h⟩

/-- Whatever a command line looks like, what is found on it is what it is made of. -/
theorem find_of_wording (hrules : library.Rules) {arguments : List (List UInt8)}
    (hwording : Wording items arguments) (h : Item.AreCompatible items) :
    ∃ found, library.find arguments = .ok found ∧ found.IsOf items := by
  -- by induction on the wording, which goes from the end of the command line to its start
  induction hwording with
  | nil => exact ⟨_, hrules.nil, Matches.isOf_files []⟩
  | @options first items words arguments hfirst hrest ih =>
    have hlater : Item.AreCompatible items := h.of_sublist (List.sublist_append_right first items)
    obtain ⟨found, hfind, hfound⟩ := ih hlater
    exact hrules.find_of_written hfirst h hfind hfound
  | file hplain hrest ih =>
    obtain ⟨found, hfind, hfound⟩ := ih h.tail
    exact ⟨_, hrules.file hplain hfind (hfound.admits h), hfound.add h⟩
  | separated paths =>
    refine ⟨_, hrules.separated ?_, Matches.isOf_files paths⟩
    intro path hpath
    exact h.files path (List.mem_map_of_mem hpath)

end Library.Rules

/-! ## Requests -/

/-- What can be asked for: there are files, and no path is empty. More diagnostics can be asked for
more often than it counts. -/
structure Request where
  stripComments : Bool := false
  lead : Option (List Char) := none
  pointerType : Option (List Char) := none
  output : Option Path := none
  verbosity : Nat := 0
  files : List Path
  files_ne_nil : files ≠ []
  file_ne_nil : ∀ path ∈ files, path.bytes ≠ []
  output_ne_nil : ∀ path ∈ output, path.bytes ≠ []

namespace Request

variable {request : Request} {items : List Item}

/-- The value that an option has, as it stands on a command line. -/
def given (request : Request) : ValueOption → Option (List UInt8)
  | .lead => request.lead.map Utf8.encode
  | .pointerType => request.pointerType.map Utf8.encode
  | .output => request.output.map Path.bytes

/-- The items that ask for a request, in any order: each of its values once, a flag for every time
that more diagnostics are asked for, and its files in theirs. -/
structure IsMadeOf (request : Request) (items : List Item) : Prop where
  strips : items.count (.flag .stripComments) = request.stripComments.toNat
  verbosity : items.count (.flag .verbose) = request.verbosity
  values : ∀ option, items.filterMap (Item.valueOf? option) = (request.given option).toList
  files : items.filterMap Item.file? = request.files
  noHelp : .flag .help ∉ items
  noVersion : .flag .version ∉ items

/-- The values that are asked for can be given. -/
theorem accepts_of_given {option : ValueOption} {value : List UInt8}
    (h : request.given option = some value) : option.kind.Accepts value := by
  cases option with
  | lead =>
    obtain ⟨text, -, rfl⟩ := Option.map_eq_some_iff.mp h
    exact ⟨text, rfl⟩
  | pointerType =>
    obtain ⟨text, -, rfl⟩ := Option.map_eq_some_iff.mp h
    exact ⟨text, rfl⟩
  | output =>
    obtain ⟨path, hpath, rfl⟩ := Option.map_eq_some_iff.mp h
    exact request.output_ne_nil path hpath

/-- The items of a request can stand on one command line. -/
theorem IsMadeOf.areCompatible (h : request.IsMadeOf items) : Item.AreCompatible items where
  flags flag hflag := by
    cases flag with
    | stripComments =>
      refine .inr ⟨rfl, ?_⟩
      rw [h.strips]
      exact request.stripComments.toNat_le
    | verbose => exact .inl rfl
    | help => exact absurd hflag h.noHelp
    | version => exact absurd hflag h.noVersion
  values option := by
    rw [h.values option]
    cases request.given option <;> simp
  accepted option value hvalue := by
    apply request.accepts_of_given
    rw [← Option.mem_toList, ← h.values option]
    exact List.mem_filterMap.mpr ⟨_, hvalue, Item.valueOf?_value option value⟩
  files path hpath := by
    apply request.file_ne_nil ⟨path⟩
    rw [← h.files]
    exact List.mem_filterMap.mpr ⟨_, hpath, rfl⟩

/-- What is found of the items of a request is the request. -/
theorem IsMadeOf.ofMatches_eq (h : request.IsMadeOf items) {found : Matches}
    (hfound : found.IsOf items) :
    Options.ofMatches found.withDefaults =
      { settings :=
          { stripComments := request.stripComments
            lead := request.lead.getD ['_']
            pointerType := request.pointerType.getD "GLchar*".toList }
        output := request.output
        verbosity := min request.verbosity 255
        files := request.files } := by
  have hvalue : ∀ option, found.value? option = request.given option := by
    intro option
    have hvalues := (hfound.values option).trans (h.values option)
    ext value
    rw [← Option.mem_toList, hvalues, Option.mem_toList]
  have hstrips : (found.count .stripComments != 0) = request.stripComments := by
    rw [hfound.count, h.strips]
    cases request.stripComments <;> rfl
  have hverbosity : found.count .verbose = min request.verbosity 255 := by
    rw [hfound.count, h.verbosity, min_comm]
    rfl
  have hlead : found.withDefaults.text .lead = request.lead.getD ['_'] := by
    simp only [Matches.text, Matches.withDefaults, hvalue, given]
    cases request.lead <;> exact Utf8.lossy_encode _
  have hpointerType :
      found.withDefaults.text .pointerType = request.pointerType.getD "GLchar*".toList := by
    simp only [Matches.text, Matches.withDefaults, hvalue, given]
    cases request.pointerType <;> exact Utf8.lossy_encode _
  have houtput : (found.withDefaults.value? .output).map Path.mk = request.output := by
    simp only [Matches.withDefaults, hvalue, given]
    cases request.output <;> rfl
  have hfiles : found.withDefaults.files = request.files := hfound.files.trans h.files
  rw [Options.ofMatches, hlead, hpointerType, houtput, hfiles]
  show Options.mk ⟨found.count .stripComments != 0, _, _⟩ _ (found.count .verbose) _ = _
  rw [hstrips, hverbosity]

end Request

/-- With every library that follows the rules, a command line is accepted, whatever it asks for and
in whatever way, and means just that: the values that are given, defaults for the others, a
verbosity up to the greatest one, and the files in order. -/
theorem Options.read_of_wording {library : Library} (hrules : library.Rules) {request : Request}
    {items : List Item} {arguments : List (List UInt8)} (hitems : request.IsMadeOf items)
    (hwording : Wording items arguments) :
    Options.read library arguments = .ok
      { settings :=
          { stripComments := request.stripComments
            lead := request.lead.getD ['_']
            pointerType := request.pointerType.getD "GLchar*".toList }
        output := request.output
        verbosity := min request.verbosity 255
        files := request.files } := by
  obtain ⟨found, hfind, hfound⟩ := hrules.find_of_wording hwording hitems.areCompatible
  have hfiles : found.files ≠ [] := by
    rw [hfound.files, hitems.files]
    exact request.files_ne_nil
  rw [hrules.read_eq_ok hfind hfiles, hitems.ofMatches_eq hfound]

/-- A cluster that ends in an option, a dash as its value, and a file that looks like an option. -/
theorem Options.read_of_wording_interleaved :
    let arguments := ["-vcp", "-", "b", "--output=o", "--verbose", "--", "-x"].map
      fun argument => Utf8.encode argument.toList
    Library.clap.Rules ∧
      Options.read .clap arguments = .ok
        { settings := { stripComments := true, lead := ['-'] }
          output := some (Path.ofText ['o'])
          verbosity := 2
          files := [Path.ofText ['b'], Path.ofText ['-', 'x']] } := by
  intro arguments
  let request : Request :=
    { stripComments := true
      lead := some ['-']
      output := some (Path.ofText ['o'])
      verbosity := 2
      files := [Path.ofText ['b'], Path.ofText ['-', 'x']]
      files_ne_nil := by decide
      file_ne_nil := by decide
      output_ne_nil := by decide }
  let b := Utf8.encode ['b']
  let o := Utf8.encode ['o']
  let x := Utf8.encode ['-', 'x']
  let items : List Item :=
    [.flag .verbose, .flag .stripComments, .value .lead [Shape.dash], .file b, .value .output o,
      .flag .verbose, .file x]
  have hitems : request.IsMadeOf items :=
    { strips := by decide
      verbosity := by decide
      values := by rintro (_ | _ | _) <;> decide
      files := by decide
      noHelp := by decide
      noVersion := by decide }
  have hlead : Item.Written [.value .lead [Shape.dash]] [ValueOption.lead.short, [Shape.dash]] :=
    .value (.short (.inl rfl))
  have hcluster : Item.Written [.flag .verbose, .flag .stripComments, .value .lead [Shape.dash]]
      [Utf8.encode "-vcp".toList, [Shape.dash]] :=
    .cluster .verbose (by decide) (.cluster .stripComments (by decide) hlead)
  have hbehind : Wording [.flag .verbose, .file x] [Flag.verbose.long, Shape.twoDashes, x] :=
    .options (.long .verbose) (.separated [x])
  have hplain : Shape.IsPlain b := by decide
  have hwording : Wording items arguments :=
    .options hcluster (.file hplain (.options (.value .longEquals) hbehind))
  exact ⟨Library.rules_clap, Options.read_of_wording Library.rules_clap hitems hwording⟩

end TextEmbed.Command
