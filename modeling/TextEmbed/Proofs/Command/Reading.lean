import TextEmbed.Proofs.Command.Arguments
import TextEmbed.Proofs.Command.Rules
import TextEmbed.Proofs.Utf8.Validity

/-!
# Reading follows the rules

Reading goes from left to right and keeps what it has found, and what is still to check. The rules
speak of what an occurrence adds in front of others. So the two are compared from behind: if an
occurrence can be added to what is found in the end then it could have been there from the start,
and reading would have gone the same way with it.

What is still to check makes no difference to that. Reading may have found something already, or may
still have to check it.

## Main definitions

* `Command.Matches.take`: reading takes an occurrence into account;
* `Command.Reading.Carries`: what reading goes on to do is known with an occurrence in front.

## Main results

* `Command.Matches.take_eq_ok_iff`: an occurrence is taken into account exactly if it is admitted;
* `Command.Matches.take_add`: an occurrence added in front doesn't get in the way of another;
* `Command.Reading.arguments_add`: what reading comes to with an occurrence in front;
* `Command.Library.rules_clap`: reading follows the rules;
* `Command.Options.ofArguments_spelled_output`: an output named in front changes nothing else.
-/

namespace TextEmbed.Command

/-- The check of a value lets through what a parameter accepts. -/
theorem ValueKind.check_eq_ok_iff {kind : ValueKind} {parameter : Parameter} {value : List UInt8} :
    kind.check parameter value = .ok () ↔ kind.Accepts value := by
  cases kind with
  | text =>
    cases hdecode : Utf8.decode value with
    | ok text =>
      have hvalue := Utf8.decode_eq_ok_iff.mp hdecode
      simp only [check, hdecode, Accepts, true_iff]
      exact ⟨text, hvalue⟩
    | error e =>
      simp only [check, hdecode, Accepts, reduceCtorEq, false_iff]
      rintro ⟨text, rfl⟩
      simp [Utf8.decode_encode] at hdecode
  | path => simp [check, Accepts]

/-! ## Occurrences behind others -/

namespace Matches

variable {found next : Matches}

theorem countFlag_comm (found : Matches) (first second : Flag) :
    (found.countFlag first).countFlag second = (found.countFlag second).countFlag first := by
  by_cases h : first = second
  · rw [h]
  -- different flags are counted apart from each other
  · ext other
    · simp only [countFlag]
      grind
    · rfl
    · rfl

theorem setValue_comm {first second : ValueOption} (h : first ≠ second)
    (value late : List UInt8) (found : Matches) :
    (found.setValue first value).setValue second late =
      (found.setValue second late).setValue first value := by
  ext other
  · rfl
  · simp only [setValue]
    grind
  · rfl

/-- What an occurrence adds that stands behind others. -/
def addLast (item : Item) (found : Matches) : Matches :=
  match item with
  | .flag flag => found.countFlag flag
  | .value option value => found.setValue option value
  | .file path => { found with files := found.files ++ [⟨path⟩] }

/-- Takes an occurrence into account. -/
def take (found : Matches) : Item → Except Refusal Matches
  | .flag flag => found.raise flag
  | .value option value => found.assign option value
  | .file path => found.addFile path

/-- An occurrence is taken into account exactly if it is admitted. -/
theorem take_eq_ok_iff {item : Item} :
    found.take item = .ok next ↔ found.Admits item ∧ found.addLast item = next := by
  cases item with
  | flag flag =>
    simp only [take, raise, Admits, addLast]
    cases flag.action with
    | switchOn => by_cases hcount : found.count flag = 0 <;> simp [hcount]
    | count => simp
    | help => simp
    | version => simp
  | value option value =>
    have hcheck := @ValueKind.check_eq_ok_iff option.kind (.value option) value
    simp only [take, assign, Admits, addLast, ← hcheck]
    cases found.value? option with
    | some given => simp
    | none => cases option.kind.check (.value option) value <;> simp [Except.map]
  | file path =>
    have hcheck := @ValueKind.check_eq_ok_iff .path .files path
    simp only [take, addFile, Admits, addLast, ← hcheck]
    cases ValueKind.path.check .files path <;> simp [Except.map]

/-- What is admitted in front of some occurrences is admitted in front of fewer. -/
theorem Admits.of_addLast {early late : Item} (h : (found.addLast late).Admits early) :
    found.Admits early := by
  cases early with
  | flag flag =>
    cases late with
    -- another flag behind never makes a flag count less often
    | flag other =>
      simp only [Admits, addLast, countFlag] at h ⊢
      cases haction : flag.action <;> grind [maxCount]
    | value option value => exact h
    | file path => exact h
  | value option value =>
    cases late with
    | flag flag => exact h
    | value other late =>
      simp only [Admits, addLast, setValue] at h ⊢
      grind
    | file path => exact h
  | file path => exact h

/-- An occurrence in front of another makes no difference to whether that is admitted. -/
theorem Admits.add {early late : Item} (hlate : found.Admits late)
    (hearly : (found.addLast late).Admits early) : (found.add early).Admits late := by
  cases early with
  | flag flag =>
    cases late with
    -- if it is the same flag then it doesn't switch anything on, or `hearly` would fail
    | flag other =>
      simp only [Admits, addLast, Matches.add, countFlag] at hlate hearly ⊢
      cases haction : flag.action <;> cases hother : other.action <;> grind [maxCount]
    | value option value => exact hlate
    | file path => exact hlate
  | value option value =>
    cases late with
    | flag flag => exact hlate
    | value other late =>
      simp only [Admits, addLast, Matches.add, setValue] at hlate hearly ⊢
      grind
    | file path => exact hlate
  | file path => cases late <;> exact hlate

/-- It makes no difference which of two occurrences is added first. -/
theorem addLast_add {early late : Item} (hearly : (found.addLast late).Admits early) :
    (found.add early).addLast late = (found.addLast late).add early := by
  cases early with
  | flag flag =>
    cases late with
    | flag other => exact countFlag_comm found flag other
    | value option value => rfl
    | file path => rfl
  | value option value =>
    cases late with
    | flag flag => rfl
    | value other late =>
      -- an option that has a value already admits no other
      have hne : option ≠ other := by
        rintro rfl
        simp [Admits, addLast, setValue] at hearly
      exact setValue_comm hne value late found
    | file path => rfl
  | file path => cases late <;> rfl

/-- If an occurrence can be added in front of what another one leads to, then it can be added before
that one is taken into account, and comes to the same. -/
theorem take_add (late : Item) {early : Item} (h : found.take late = .ok next)
    (hadmits : next.Admits early) :
    found.Admits early ∧ (found.add early).take late = .ok (next.add early) := by
  obtain ⟨hlate, rfl⟩ := take_eq_ok_iff.mp h
  refine ⟨hadmits.of_addLast, take_eq_ok_iff.mpr ⟨hlate.add hadmits, ?_⟩⟩
  exact addLast_add hadmits

theorem raise_add {flag : Flag} {item : Item} (h : found.raise flag = .ok next)
    (hadmits : next.Admits item) :
    found.Admits item ∧ (found.add item).raise flag = .ok (next.add item) :=
  take_add (.flag flag) h hadmits

theorem assign_add {option : ValueOption} {value : List UInt8} {item : Item}
    (h : found.assign option value = .ok next) (hadmits : next.Admits item) :
    found.Admits item ∧ (found.add item).assign option value = .ok (next.add item) :=
  take_add (.value option value) h hadmits

theorem addFile_add {path : List UInt8} {item : Item} (h : found.addFile path = .ok next)
    (hadmits : next.Admits item) :
    found.Admits item ∧ (found.add item).addFile path = .ok (next.add item) :=
  take_add (.file path) h hadmits

/-- What is admitted somewhere is admitted at the very front. -/
theorem Admits.nil {item : Item} (h : found.Admits item) :
    ({} : Matches).take item = .ok (({} : Matches).add item) := by
  apply take_eq_ok_iff.mpr
  cases item with
  | flag flag =>
    refine ⟨?_, rfl⟩
    simp only [Admits] at h ⊢
    cases haction : flag.action <;> simp_all
  | value option value => exact ⟨⟨rfl, h.2⟩, rfl⟩
  | file path => exact ⟨h, rfl⟩

end Matches

/-! ## What arguments look like -/

namespace Shape

theorem ofArgument_eq_plain_iff {argument : List UInt8} :
    ofArgument argument = .plain ↔ IsPlain argument := by
  unfold IsPlain
  fun_cases ofArgument argument with
  | case1 => simp
  | case2 first => simpa using em (first = dash)
  | case3 first second rest hfirst => simp [hfirst]
  | case4 first second rest hfirst hsecond => simpa using hfirst
  | case5 first second hfirst hsecond => simpa using hfirst
  | case6 first second rest hfirst hsecond hrest => simpa using hfirst

/-- A dash and a letter, with anything behind. -/
theorem ofArgument_cluster {letter : UInt8} (h : letter ≠ dash) (letters : List UInt8) :
    ofArgument (dash :: letter :: letters) = .dashed (.cluster (letter :: letters)) := by
  rw [ofArgument, if_neg (not_not.mpr rfl), if_pos h]

end Shape

namespace Flag

theorem ofArgument_long (flag : Flag) :
    Shape.ofArgument flag.long = .dashed (.long (Utf8.encode flag.word.toList) none) := by
  cases flag <;> rfl

theorem letter_ne_dash (flag : Flag) : flag.letter.toUInt8 ≠ Shape.dash := by
  cases flag <;> decide

theorem ofLetter?_letter (flag : Flag) : ofLetter? flag.letter.toUInt8 = some flag := by
  cases flag <;> decide

theorem ofWord?_word (flag : Flag) : ofWord? (Utf8.encode flag.word.toList) = some flag := by
  cases flag <;> decide

end Flag

namespace ValueOption

theorem ofArgument_short (option : ValueOption) (rest : List UInt8) :
    Shape.ofArgument (option.short ++ rest) =
      .dashed (.cluster (option.letter.toUInt8 :: rest)) := by
  cases option <;> rfl

theorem ofArgument_long (option : ValueOption) :
    Shape.ofArgument option.long = .dashed (.long (Utf8.encode option.word.toList) none) := by
  cases option <;> rfl

theorem ofArgument_longEquals (option : ValueOption) (value : List UInt8) :
    Shape.ofArgument (option.long ++ Shape.equals :: value) =
      .dashed (.long (Utf8.encode option.word.toList) (some value)) := by
  cases option <;> rfl

theorem ofLetter?_letter (option : ValueOption) :
    Flag.ofLetter? option.letter.toUInt8 = none ∧
      ofLetter? option.letter.toUInt8 = some option := by
  cases option <;> decide

theorem ofWord?_word (option : ValueOption) :
    Flag.ofWord? (Utf8.encode option.word.toList) = none ∧
      ofWord? (Utf8.encode option.word.toList) = some option := by
  cases option <;> decide

end ValueOption

/-! ## Reading with an occurrence in front -/

namespace Progress

/-- What is found. -/
def found : Progress → Matches
  | done found => found
  | wants _ found => found

/-- The same progress, with an occurrence in front. -/
def add (item : Item) : Progress → Progress
  | done found => done (found.add item)
  | wants option found => wants option (found.add item)

end Progress

namespace Reading

/-- An occurrence can be added in front of what reading has found and has still to check, and `Next`
holds of every reading that comes to the same with the occurrence in front. -/
def Carries (reading : Reading) (item : Item) (Next : Reading → Prop) : Prop :=
  ∃ found, reading.checked = .ok found ∧ found.Admits item ∧
    ∀ other : Reading, other.checked = .ok (found.add item) → Next other

variable {reading : Reading} {item : Item}

theorem cluster_add {letters : List UInt8} {progress : Progress}
    (h : reading.cluster letters = .ok progress) (hadmits : progress.found.Admits item) :
    reading.Carries item fun other => other.cluster letters = .ok (progress.add item) := by
  -- what is admitted in the end is admitted before each of the letters, from the last one on
  induction letters generalizing reading with
  | nil =>
    obtain ⟨found, hchecked, rfl⟩ := exists_of_map_eq_ok h
    refine ⟨found, hchecked, hadmits, ?_⟩
    intro other hother
    rw [cluster, hother]
    rfl
  | cons letter rest ih =>
    simp only [cluster] at h ⊢
    split at h
    next flag hflag =>
      obtain ⟨found, hchecked, h⟩ := exists_of_bind_eq_ok h
      obtain ⟨raised, hraise, h⟩ := exists_of_bind_eq_ok h
      obtain ⟨next, hnext, hnextAdmits, hrest⟩ := ih h
      obtain rfl : raised = next := Except.ok.inj hnext
      obtain ⟨hfound, hadd⟩ := Matches.raise_add hraise hnextAdmits
      refine ⟨found, hchecked, hfound, ?_⟩
      intro other hother
      rw [bind_of_eq_ok hother, bind_of_eq_ok hadd]
      exact hrest _ rfl
    next option hflag hoption =>
      obtain ⟨found, hchecked, h⟩ := exists_of_bind_eq_ok h
      refine ⟨found, hchecked, ?_⟩
      split at h
      next hend =>
        obtain rfl := Except.ok.inj h
        refine ⟨hadmits, ?_⟩
        intro other hother
        rw [bind_of_eq_ok hother, if_pos hend]
        rfl
      next hmore =>
        obtain ⟨assigned, hassign, h⟩ := exists_of_bind_eq_ok h
        obtain rfl := Except.ok.inj h
        obtain ⟨hfound, hadd⟩ := Matches.assign_add hassign hadmits
        refine ⟨hfound, ?_⟩
        intro other hother
        rw [bind_of_eq_ok hother, if_neg hmore, bind_of_eq_ok hadd]
        rfl
    next => cases h

theorem long_add {word : List UInt8} {value : Option (List UInt8)} {progress : Progress}
    (h : reading.long word value = .ok progress) (hadmits : progress.found.Admits item) :
    reading.Carries item fun other => other.long word value = .ok (progress.add item) := by
  simp only [long] at h ⊢
  split at h
  next flag hflag =>
    obtain ⟨found, hchecked, h⟩ := exists_of_bind_eq_ok h
    obtain ⟨raised, hraise, h⟩ := exists_of_bind_eq_ok h
    obtain rfl := Except.ok.inj h
    obtain ⟨hfound, hadd⟩ := Matches.raise_add hraise hadmits
    refine ⟨found, hchecked, hfound, ?_⟩
    intro other hother
    rw [bind_of_eq_ok hother, bind_of_eq_ok hadd]
    rfl
  next => cases h
  next option hflag hoption =>
    obtain ⟨found, hchecked, rfl⟩ := exists_of_map_eq_ok h
    refine ⟨found, hchecked, hadmits, ?_⟩
    intro other hother
    rw [hother]
    rfl
  next option value hflag hoption =>
    obtain ⟨found, hchecked, h⟩ := exists_of_bind_eq_ok h
    obtain ⟨assigned, hassign, h⟩ := exists_of_bind_eq_ok h
    obtain rfl := Except.ok.inj h
    obtain ⟨hfound, hadd⟩ := Matches.assign_add hassign hadmits
    refine ⟨found, hchecked, hfound, ?_⟩
    intro other hother
    rw [bind_of_eq_ok hother, bind_of_eq_ok hadd]
    rfl
  next => cases h

theorem dashed_add {argument : Dashed} {progress : Progress}
    (h : reading.dashed argument = .ok progress) (hadmits : progress.found.Admits item) :
    reading.Carries item fun other => other.dashed argument = .ok (progress.add item) := by
  cases argument with
  | long word value => exact long_add h hadmits
  | cluster letters => exact cluster_add h hadmits

/-- Whether it is checked together with others or not, a file is checked behind them. -/
theorem checked_of_file {path : List UInt8} {next : Reading} (h : reading.file path = .ok next) :
    next.checked = reading.checked >>= (·.addFile path) := by
  unfold file at h
  split at h
  next paths hpaths =>
    obtain rfl := Except.ok.inj h
    show (path :: paths).reverse.foldlM Matches.addFile reading.found = _
    rw [checked, hpaths, List.reverse_cons, List.foldlM_append]
    simp [Matches.settle]
  next =>
    obtain ⟨found, hchecked, rfl⟩ := exists_of_map_eq_ok h
    rw [hchecked]
    show [path].foldlM Matches.addFile found = found.addFile path
    simp

/-- Where everything is right that is still to check, a file can follow. -/
theorem exists_file_eq_ok {found : Matches} (h : reading.checked = .ok found) (path : List UInt8) :
    ∃ next, reading.file path = .ok next := by
  unfold file
  split
  next => exact ⟨_, rfl⟩
  next => exact ⟨_, by rw [h]; rfl⟩

theorem file_add {path : List UInt8} {next : Reading} {later : Matches}
    (h : reading.file path = .ok next) (hlater : next.checked = .ok later)
    (hadmits : later.Admits item) :
    reading.Carries item fun other =>
      ∃ otherNext, other.file path = .ok otherNext ∧ otherNext.checked = .ok (later.add item) := by
  -- whether files are checked one by one or together, this one is the last of them
  rw [checked_of_file h] at hlater
  obtain ⟨found, hchecked, hfile⟩ := exists_of_bind_eq_ok hlater
  obtain ⟨hfound, hadd⟩ := Matches.addFile_add hfile hadmits
  refine ⟨found, hchecked, hfound, ?_⟩
  intro other hother
  obtain ⟨otherNext, hotherNext⟩ := exists_file_eq_ok hother path
  refine ⟨otherNext, hotherNext, ?_⟩
  rw [checked_of_file hotherNext, bind_of_eq_ok hother, hadd]

theorem operands_add {others : List (List UInt8)} {last : Matches}
    (h : reading.operands others = .ok last) (hadmits : last.Admits item) :
    reading.Carries item fun other => other.operands others = .ok (last.add item) := by
  induction others generalizing reading with
  | nil => exact ⟨last, h, hadmits, fun other hother => hother⟩
  | cons path others ih =>
    unfold operands at h
    rw [List.foldlM_cons, bind_assoc] at h
    obtain ⟨next, hfile, h⟩ := exists_of_bind_eq_ok h
    obtain ⟨later, hlater, hlaterAdmits, hothers⟩ := ih h
    obtain ⟨found, hchecked, hfound, hnext⟩ := file_add hfile hlater hlaterAdmits
    refine ⟨found, hchecked, hfound, ?_⟩
    intro other hother
    obtain ⟨otherNext, hotherFile, hotherChecked⟩ := hnext other hother
    rw [operands, List.foldlM_cons, bind_assoc, bind_of_eq_ok hotherFile]
    exact hothers otherNext hotherChecked

/-- If an occurrence can be added in front of what is found in the end then it can be added where
reading stands, and comes to the same in the end. -/
theorem arguments_add {others : List (List UInt8)} {last : Matches}
    (h : reading.arguments others = .ok last) (hadmits : last.Admits item) :
    reading.Carries item fun other => other.arguments others = .ok (last.add item) := by
  -- each case goes from the end of the command line back to where reading stands
  fun_induction Reading.arguments reading others with
  | case1 reading => exact ⟨last, h, hadmits, fun other hother => hother⟩
  | case2 reading argument others hseparator =>
    obtain ⟨found, hchecked, hfound, hothers⟩ := operands_add h hadmits
    refine ⟨found, hchecked, hfound, ?_⟩
    intro other hother
    rw [Reading.arguments, hseparator]
    exact hothers other hother
  | case3 reading argument others hplain ih =>
    obtain ⟨next, hfile, h⟩ := exists_of_bind_eq_ok h
    obtain ⟨later, hlater, hlaterAdmits, hothers⟩ := ih next h
    obtain ⟨found, hchecked, hfound, hnext⟩ := file_add hfile hlater hlaterAdmits
    refine ⟨found, hchecked, hfound, ?_⟩
    intro other hother
    obtain ⟨otherNext, hotherFile, hotherChecked⟩ := hnext other hother
    rw [Reading.arguments, hplain]
    show other.file argument >>= _ = _
    rw [bind_of_eq_ok hotherFile]
    exact hothers otherNext hotherChecked
  | case4 reading argument others dashed hdashed refusal hrefusal => cases h
  | case5 reading argument dashed hdashed done others hdone ih =>
    obtain ⟨later, hlater, hlaterAdmits, hothers⟩ := ih h
    obtain rfl : done = later := Except.ok.inj hlater
    obtain ⟨found, hchecked, hfound, hadd⟩ := dashed_add hdone hlaterAdmits
    refine ⟨found, hchecked, hfound, ?_⟩
    intro other hother
    rw [Reading.arguments, hdashed]
    simp only [hadd other hother]
    exact hothers _ rfl
  -- the value of an option is missing at the end of the command line
  | case6 reading argument dashed hdashed option wants hwants => cases h
  | case7 reading argument dashed hdashed option wants value others hwants hplain ih =>
    obtain ⟨later, hlater, hlaterAdmits, hothers⟩ := ih h
    obtain ⟨hwantsAdmits, hassign⟩ := Matches.assign_add hlater hlaterAdmits
    obtain ⟨found, hchecked, hfound, hadd⟩ := dashed_add hwants hwantsAdmits
    refine ⟨found, hchecked, hfound, ?_⟩
    intro other hother
    rw [Reading.arguments, hdashed]
    simp only [hadd other hother, Progress.add, hplain, if_true]
    exact hothers _ hassign
  -- it is missing in front of another option
  | case8 reading argument dashed hdashed option wants value others hwants hdash ih =>
    obtain ⟨later, hlater, -⟩ := ih h
    cases hlater

/-- An occurrence that has been found, and perhaps is still to check, adds to what is found behind
it. -/
theorem arguments_of_front {others : List (List UInt8)} {found : Matches}
    (h : ({} : Reading).arguments others = .ok found) (hadmits : found.Admits item)
    (hfront : reading.checked = .ok (({} : Matches).add item)) :
    reading.arguments others = .ok (found.add item) := by
  obtain ⟨start, hstart, -, hothers⟩ := arguments_add h hadmits
  obtain rfl : {} = start := Except.ok.inj hstart
  exact hothers reading hfront

/-! ## Reading an occurrence -/

/-- The letter of a flag in front of other letters. -/
theorem cluster_flag {flag : Flag} {raised : Matches}
    (h : ({} : Matches).raise flag = .ok raised) (letters : List UInt8) :
    ({} : Reading).cluster (flag.letter.toUInt8 :: letters) =
      ({ found := raised } : Reading).cluster letters := by
  have hchecked : ({} : Reading).checked = .ok {} := rfl
  simp only [cluster, flag.ofLetter?_letter]
  rw [bind_of_eq_ok hchecked, bind_of_eq_ok h]

/-- The letter of an option with all that follows in the same argument. -/
theorem cluster_letter (option : ValueOption) (rest : List UInt8) :
    ({} : Reading).cluster (option.letter.toUInt8 :: rest) =
      if rest = [] then .ok (.wants option {})
      else (({} : Matches).assign option (valueBehindLetter rest)).map .done := by
  obtain ⟨hflag, hoption⟩ := option.ofLetter?_letter
  have hchecked : ({} : Reading).checked = .ok {} := rfl
  simp only [cluster, hflag, hoption]
  rw [bind_of_eq_ok hchecked]
  rfl

/-- The word of an option, with or without a value attached to it. -/
theorem long_word (option : ValueOption) :
    ({} : Reading).long (Utf8.encode option.word.toList) none = .ok (.wants option {}) ∧
      ∀ value, ({} : Reading).long (Utf8.encode option.word.toList) (some value) =
        (({} : Matches).assign option value).map .done := by
  obtain ⟨hflag, hoption⟩ := option.ofWord?_word
  simp only [long, hflag, hoption]
  exact ⟨rfl, fun value => rfl⟩

variable {rest : List (List UInt8)} {found : Matches}

theorem arguments_longFlag {flag : Flag} (hrest : ({} : Reading).arguments rest = .ok found)
    (h : found.Admits (.flag flag)) :
    ({} : Reading).arguments (flag.long :: rest) = .ok (found.add (.flag flag)) := by
  have hraise : ({} : Matches).raise flag = .ok (({} : Matches).add (.flag flag)) := h.nil
  have hlong : ({} : Reading).long (Utf8.encode flag.word.toList) none =
      .ok (.done (({} : Matches).add (.flag flag))) := by
    simp only [long, flag.ofWord?_word]
    show ({} : Matches).raise flag >>= _ = _
    rw [bind_of_eq_ok hraise]
    rfl
  rw [arguments, flag.ofArgument_long]
  simp only [dashed, hlong]
  exact arguments_of_front hrest h rfl

theorem arguments_shortFlag {flag : Flag} (hrest : ({} : Reading).arguments rest = .ok found)
    (h : found.Admits (.flag flag)) :
    ({} : Reading).arguments (flag.short :: rest) = .ok (found.add (.flag flag)) := by
  have hcluster : ({} : Reading).cluster [flag.letter.toUInt8] =
      .ok (.done (({} : Matches).add (.flag flag))) := cluster_flag h.nil []
  rw [arguments, Flag.short, Shape.ofArgument_cluster flag.letter_ne_dash]
  simp only [dashed, hcluster]
  exact arguments_of_front hrest h rfl

theorem arguments_cluster {flag : Flag} {letter : UInt8} {letters : List UInt8}
    (hletter : letter ≠ Shape.dash)
    (hrest : ({} : Reading).arguments ((Shape.dash :: letter :: letters) :: rest) = .ok found)
    (h : found.Admits (.flag flag)) :
    ({} : Reading).arguments ((Shape.dash :: flag.letter.toUInt8 :: letter :: letters) :: rest) =
      .ok (found.add (.flag flag)) := by
  have hfront : ({ found := ({} : Matches).add (.flag flag) } : Reading).arguments
      ((Shape.dash :: letter :: letters) :: rest) = .ok (found.add (.flag flag)) :=
    arguments_of_front hrest h rfl
  rw [arguments, Shape.ofArgument_cluster flag.letter_ne_dash]
  rw [arguments, Shape.ofArgument_cluster hletter] at hfront
  simp only [dashed, cluster_flag h.nil] at hfront ⊢
  exact hfront

/-- A value that is an argument of its own is checked when the next argument comes. -/
theorem arguments_wants {argument value : List UInt8} {shape : Dashed} {option : ValueOption}
    (hshape : Shape.ofArgument argument = .dashed shape)
    (hdashed : ({} : Reading).dashed shape = .ok (.wants option {})) (hplain : Shape.IsPlain value)
    (hrest : ({} : Reading).arguments rest = .ok found) (h : found.Admits (.value option value)) :
    ({} : Reading).arguments (argument :: value :: rest) =
      .ok (found.add (.value option value)) := by
  rw [arguments, hshape]
  simp only [hdashed, Shape.ofArgument_eq_plain_iff.mpr hplain, if_true]
  exact arguments_of_front hrest h h.nil

/-- A value that is attached is checked at once. -/
theorem arguments_attached {argument value : List UInt8} {shape : Dashed} {option : ValueOption}
    (hshape : Shape.ofArgument argument = .dashed shape)
    (hdashed : ({} : Reading).dashed shape = (({} : Matches).assign option value).map .done)
    (hrest : ({} : Reading).arguments rest = .ok found) (h : found.Admits (.value option value)) :
    ({} : Reading).arguments (argument :: rest) = .ok (found.add (.value option value)) := by
  have hassign : ({} : Matches).assign option value =
      .ok (({} : Matches).add (.value option value)) := h.nil
  rw [hassign] at hdashed
  rw [arguments, hshape]
  simp only [hdashed, Except.map]
  exact arguments_of_front hrest h rfl

theorem arguments_file {path : List UInt8} (hplain : Shape.IsPlain path)
    (hrest : ({} : Reading).arguments rest = .ok found) (h : found.Admits (.file path)) :
    ({} : Reading).arguments (path :: rest) = .ok (found.add (.file path)) := by
  have hfile : ({} : Reading).file path = .ok { pending := .files [path] } := rfl
  have hchecked : ({ pending := .files [path] } : Reading).checked =
      .ok (({} : Matches).add (.file path)) :=
    (checked_of_file hfile).trans h.nil
  rw [arguments, Shape.ofArgument_eq_plain_iff.mpr hplain]
  show ({} : Reading).file path >>= _ = _
  rw [bind_of_eq_ok hfile]
  exact arguments_of_front hrest h hchecked

/-- Behind two dashes, files are checked one after the other. -/
theorem operands_eq_ok {reading : Reading} {found : Matches} (h : reading.checked = .ok found)
    {paths : List (List UInt8)} (hpaths : ∀ path ∈ paths, ValueKind.path.Accepts path) :
    reading.operands paths = .ok { found with files := found.files ++ paths.map Path.mk } := by
  induction paths generalizing reading found with
  | nil =>
    show reading.checked = _
    rw [h, List.map_nil, List.append_nil]
  | cons path paths ih =>
    obtain ⟨next, hnext⟩ := exists_file_eq_ok h path
    have hpath : found.Admits (.file path) := hpaths path List.mem_cons_self
    have hadd : found.addFile path = .ok { found with files := found.files ++ [⟨path⟩] } :=
      Matches.take_eq_ok_iff.mpr ⟨hpath, rfl⟩
    have hchecked : next.checked = .ok { found with files := found.files ++ [⟨path⟩] } := by
      rw [checked_of_file hnext, bind_of_eq_ok h, hadd]
    have hrest := ih hchecked fun other hother => hpaths other (List.mem_cons_of_mem path hother)
    rw [operands, List.foldlM_cons, bind_assoc, bind_of_eq_ok hnext]
    show next.operands paths = _
    rw [hrest, List.map_cons, List.append_assoc, List.singleton_append]

end Reading

/-! ## Rules -/

/-- Reading follows the rules. -/
theorem Library.rules_clap : Library.clap.Rules where
  nil := rfl
  longFlag := Reading.arguments_longFlag
  shortFlag := Reading.arguments_shortFlag
  cluster := Reading.arguments_cluster
  longValue {option _ _ _} hvalue hrest h :=
    Reading.arguments_wants option.ofArgument_long (Reading.long_word option).1 hvalue hrest h
  shortValue {option _ _ _} hvalue hrest h :=
    Reading.arguments_wants (option.ofArgument_short []) (Reading.cluster_letter option [])
      hvalue hrest h
  longEquals {option value _ _} hrest h :=
    Reading.arguments_attached (option.ofArgument_longEquals value)
      ((Reading.long_word option).2 value) hrest h
  shortEquals {option value _ _} hrest h :=
    Reading.arguments_attached (option.ofArgument_short _)
      (Reading.cluster_letter option (Shape.equals :: value)) hrest h
  shortAttached {option value _ _} hne hequals hrest h := by
    apply Reading.arguments_attached (option.ofArgument_short value) ?_ hrest h
    show ({} : Reading).cluster _ = _
    rw [Reading.cluster_letter, if_neg hne]
    cases value with
    | nil => exact absurd rfl hne
    | cons b value =>
      have hb : b ≠ Shape.equals := by simpa using hequals
      rw [Reading.valueBehindLetter, if_neg hb]
  file := Reading.arguments_file
  separated {paths} hpaths := by
    have hchecked : ({} : Reading).checked = .ok {} := rfl
    exact Reading.operands_eq_ok hchecked hpaths
  complete hfiles := if_neg hfiles

/-- Where a command line that names no output is accepted, an output can be named in front, in any
spelling, and nothing else that it asks for changes. -/
theorem Options.ofArguments_spelled_output {arguments : List (List UInt8)} {options : Options}
    (h : Options.ofArguments arguments = .ok options) (hnone : options.output = none)
    {value : List UInt8} (hvalue : value ≠ []) {words : List (List UInt8)}
    (hwords : ValueOption.Spelled .output value words) :
    Options.ofArguments (words ++ arguments) = .ok { options with output := some ⟨value⟩ } := by
  obtain ⟨found, hfound, hfiles, rfl⟩ := exists_of_ofArguments h
  have hadmits : found.Admits (.value .output value) := by
    refine ⟨?_, hvalue⟩
    simpa [ofMatches, Matches.withDefaults, ValueOption.default?] using hnone
  have hspelled := Library.rules_clap.find_spelled hwords hfound hadmits
  exact Library.rules_clap.read_eq_ok hspelled hfiles

end TextEmbed.Command
