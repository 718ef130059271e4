import Lctools.Conf.Decorated
import Lctools.Config.RoundTrip

/-! # Decoration of configuration files

Blank lines and comments are inserted between the lines of a well-formed
configuration file. Outside of the sections they never matter; inside of a
section they can make `get_conf_info_from_file` lose pairs or the whole section,
without a word.
-/

namespace Lctools.Config

open Conf CString

/-! ## Decorated files -/

/-- The lines of a configuration with the given sections, with or without a
leading switch line that says on. -/
def PlainLines (sections : List ConfPairs) (plain : List (List Char)) : Prop :=
  ∃ switch lines, (switch = [] ∨ switch = ["@CONF_SWITCH=1".toList]) ∧
    SectionLines sections lines ∧ plain = switch ++ lines

/-- A file that consists of the given lines, with or without the newline at the
very end. -/
def TextOf (lines : List (List Char)) (file : List Char) : Prop :=
  file = Lines.join '\n' lines ∨ file ++ ['\n'] = Lines.join '\n' lines

inductive DecoratedText : List ConfPairs → List (List Char) → Prop
  | done : DecoratedText [] []
  | decoration {sections : List ConfPairs} {line : List Char} {lines : List (List Char)} :
      DecorationLine line → DecoratedText sections lines → DecoratedText sections (line :: lines)
  | switch {sections : List ConfPairs} {lines : List (List Char)} :
      DecoratedText sections lines → DecoratedText sections ("@CONF_SWITCH=1".toList :: lines)
  | block {confPairs : ConfPairs} {sections : List ConfPairs} {first last : List Char}
      {body lines : List (List Char)} :
      NameLine confPairs.modeName first → DecoratedBody confPairs.pairs body → EndLine last →
      DecoratedText sections lines →
      DecoratedText (confPairs :: sections) (first :: (body ++ last :: lines))

namespace DecoratedText

variable {sections : List ConfPairs} {lines : List (List Char)}

theorem prepend {decorations : List (List Char)}
    (allDecorations : ∀ line ∈ decorations, DecorationLine line)
    (text : DecoratedText sections lines) : DecoratedText sections (decorations ++ lines) :=
  prepend_decorations .decoration allDecorations text

theorem append_empty (text : DecoratedText sections lines) :
    DecoratedText sections (lines ++ [[]]) := by
  induction text with
  | done => exact .decoration (.blank (by simp [Blanks])) .done
  | decoration decoration _ induction => exact .decoration decoration induction
  | switch _ induction => exact .switch induction
  | block name body ends _ induction =>
      rw [List.cons_append, List.append_assoc, List.cons_append]
      exact .block name body ends induction

end DecoratedText

theorem decoratedText_of_sectionLines {sections : List ConfPairs} {plain : List (List Char)}
    (written : SectionLines sections plain) : ∀ {decorated : List (List Char)},
    Decorated plain decorated → DecoratedText sections decorated := by
  induction written with
  | done =>
      intro decorated inserted
      have onlyDecorations : ∀ line ∈ decorated, DecorationLine line := by
        intro line member
        simpa using inserted.mem member
      simpa using DecoratedText.prepend onlyDecorations .done
  | filler filler _ induction =>
      intro decorated inserted
      rcases inserted.split_cons with ⟨before, after, rfl, decorations, rest⟩
      exact .prepend decorations (.decoration filler.decoration (induction rest))
  | @block _ _ first last body lines name writtenBody ends _ induction =>
      intro decorated inserted
      rcases inserted.split_cons with ⟨before, behindName, rfl, decorations, rest⟩
      rcases rest.split_append with ⟨bodyLines, behindBody, rfl, inBody, fromEnd⟩
      rcases fromEnd.split_cons with ⟨beforeEnd, after, rfl, endDecorations, behind⟩
      apply DecoratedText.prepend decorations
      have whole : first :: (bodyLines ++ (beforeEnd ++ last :: after)) =
          first :: (bodyLines ++ beforeEnd ++ last :: after) := by
        simp
      rw [whole]
      exact .block name (writtenBody.decorate inBody endDecorations) ends (induction behind)

theorem decoratedText_of_plainLines {sections : List ConfPairs} {plain decorated : List (List Char)}
    (written : PlainLines sections plain) (inserted : Decorated plain decorated) :
    DecoratedText sections decorated := by
  rcases written with ⟨switch, lines, switched, sectionLines, rfl⟩
  rcases switched with rfl | rfl
  · exact decoratedText_of_sectionLines sectionLines inserted
  · rcases inserted.split_cons with ⟨before, after, rfl, decorations, rest⟩
    exact .prepend decorations (.switch (decoratedText_of_sectionLines sectionLines rest))

/-! ## The condition -/

/-- The number of sections that the lines close, if all of them are intact and
the open last line is no trouble. `body` holds the lines of the section that is
open. -/
def intactSections (full : Bool) (tail : List Char) : (lines : List (List Char)) →
    (body : Option (List (List Char))) → Option ℕ
  | [], none => if overruns full tail then none else some 0
  | [], some body =>
      if "-end".toList <+: tail.dropWhile isBlank ∧ bodyIntact body 0 then some 1 else none
  | line :: lines, none =>
      if (line.dropWhile isBlank).head? = some '-' then intactSections full tail lines (some [])
      else intactSections full tail lines none
  | line :: lines, some body =>
      if (line.dropWhile isBlank).head? = some '-' then
        if bodyIntact body 0 then (intactSections full tail lines none).map (· + 1) else none
      else
        intactSections full tail lines (some (body ++ [line]))

/-- The number of sections in the part of a file that is read, if all of them are
closed and intact. -/
def fileIntact (file : List Char) : Option ℕ :=
  intactSections (maxConfFileSize ≤ file.length)
    (Lines.split '\n' (file.take maxConfFileSize)).2
    (Lines.split '\n' (file.take maxConfFileSize)).1 none

theorem intactSections_inert (full : Bool) (tail : List Char) {lines : List (List Char)}
    (inert : ∀ line ∈ lines, Inert line) (rest : List (List Char)) :
    ∀ body : Option (List (List Char)),
    intactSections full tail (lines ++ rest) body =
      intactSections full tail rest (body.map (· ++ lines)) := by
  induction lines with
  | nil =>
      intro body
      simp
  | cons line lines induction =>
      intro body
      have continues := induction (fun other member => inert other (List.mem_cons_of_mem _ member))
        (body.map (· ++ [line]))
      have noDash : (line.dropWhile isBlank).head? ≠ some '-' := by
        intro dash
        rcases split : line.dropWhile isBlank with _ | ⟨c, behind⟩
        · simp [split] at dash
        · rw [split] at dash
          exact (inert line List.mem_cons_self c behind split).1 (by simpa using dash)
      cases body with
      | none =>
          rw [List.cons_append, intactSections, if_neg noDash]
          simpa using continues
      | some body =>
          rw [List.cons_append, intactSections, if_neg noDash]
          simpa using continues

/-! ## Reading a decorated text -/

def Distinct (sections : List ConfPairs) : Prop :=
  sections.Pairwise fun first second => first.modeName ≠ second.modeName

/-- How reading a text with the given sections ends: with a fault, or with some
sections inserted. If the text is intact these are the given ones, and if all of
the given ones are among them and can be told apart by name the text is intact. -/
def Ends (sections : List ConfPairs) (manager : Sections)
    (result : Except Conf.Fault (Exit × Sections)) (intact : Prop) : Prop :=
  ((∃ fault, result = .error fault) ∧ ¬intact) ∨
    ∃ exit inserted, exit ≠ .closeAll ∧
      result = .ok (exit, inserted.foldl dialect.insertPairs manager) ∧
      (inserted.map ConfPairs.modeName).Sublist (sections.map ConfPairs.modeName) ∧
      (intact → inserted = sections) ∧
      (Distinct sections → (∀ confPairs ∈ sections, confPairs ∈ inserted) → intact)

namespace Ends

variable {sections : List ConfPairs} {manager : Sections}
  {result : Except Conf.Fault (Exit × Sections)} {intact : Prop}

theorem nothing {exit : Exit} (opened : exit ≠ .closeAll) (ended : result = .ok (exit, manager))
    (none : intact ↔ sections = []) : Ends sections manager result intact := by
  right
  refine ⟨exit, [], opened, ended, List.nil_sublist _, ?_, ?_⟩
  · intro holds
    exact (none.mp holds).symm
  · intro _ all
    apply none.mpr
    exact List.eq_nil_iff_forall_not_mem.mpr fun confPairs member => by simpa using all _ member

theorem outside {full : Bool} {tail : List Char}
    (ended : result = if overruns full tail then .error (.outOfBounds .rdBuf maxConfFileSize)
      else .ok (.finished, manager)) :
    Ends sections manager result
      (intactSections full tail [] none = some sections.length) := by
  rw [intactSections]
  cases cutOff : overruns full tail with
  | true =>
      left
      rw [cutOff] at ended
      exact ⟨⟨_, ended⟩, by simp⟩
  | false =>
      rw [cutOff] at ended
      apply nothing (by decide) ended
      simp [eq_comm]

theorem cons {confPairs : ConfPairs} {kept : Option ConfPairs} {keeps : Prop} {whole : Prop}
    (named : ∀ other, kept = some other → other.modeName = confPairs.modeName)
    (untouched : kept = some confPairs ↔ keeps) (both : whole ↔ keeps ∧ intact)
    (rest : Ends sections (insertParsed dialect manager kept) result intact) :
    Ends (confPairs :: sections) manager result whole := by
  rcases rest with ⟨failed, broken⟩ | ⟨exit, inserted, opened, ended, names, complete, found⟩
  · exact .inl ⟨failed, fun holds => broken (both.mp holds).2⟩
  right
  refine ⟨exit, kept.toList ++ inserted, opened, ?_, ?_, ?_, ?_⟩
  · cases kept with
    | none => exact ended
    | some other => exact ended
  · cases kept with
    | none => exact names.cons _
    | some other =>
        rw [Option.toList_some, List.cons_append, List.map_cons, List.map_cons, named other rfl]
        exact names.cons_cons _
  · intro holds
    rw [untouched.mpr (both.mp holds).1, complete (both.mp holds).2]
    rfl
  · intro distinct all
    rw [Distinct, List.pairwise_cons] at distinct
    have behind : ∀ other ∈ inserted, ∃ later ∈ sections, later.modeName = other.modeName := by
      intro other member
      simpa using names.subset (List.mem_map_of_mem member)
    rw [both]
    constructor
    · rcases List.mem_append.mp (all confPairs List.mem_cons_self) with inKept | inInserted
      · exact untouched.mp (by simpa using inKept)
      · rcases behind confPairs inInserted with ⟨later, member, same⟩
        exact absurd same.symm (distinct.1 later member)
    · apply found distinct.2
      intro other member
      rcases List.mem_append.mp (all other (List.mem_cons_of_mem _ member)) with inKept | inInserted
      · have same := named other (by simpa using inKept)
        exact absurd same.symm (distinct.1 other member)
      · exact inInserted

end Ends

theorem scanTail_switch {full : Bool} {tail : List Char} (cut : tail <+: "@CONF_SWITCH=1".toList)
    (manager : Sections) :
    scanTail dialect full tail none manager =
      if overruns full tail then .error (.outOfBounds .rdBuf maxConfFileSize)
      else .ok (.finished, manager) := by
  rcases split : tail.dropWhile isBlank with _ | ⟨first, behind⟩
  · apply scanTail_inert
    intro first rest nonblank
    rw [split] at nonblank
    cases nonblank
  rcases dropWhile_of_cut cut split with ⟨more, whole⟩
  have dropped : "@CONF_SWITCH=1".toList.dropWhile isBlank = '@' :: "CONF_SWITCH=1".toList := by
    decide
  have parts := List.cons.inj (dropped.symm.trans whole)
  have on : saysOff dialect behind = false := by
    by_contra off
    have wholeOff := saysOff_of_cut dialect ⟨more, parts.2.symm⟩ (Bool.not_eq_false _ ▸ off)
    exact absurd wholeOff (by decide)
  have read : switchLine dialect behind manager = (false, manager) := by
    rcases switchLine_on dialect on manager with ⟨stays, same | ⟨level, -, set⟩⟩
    · exact Prod.ext stays same
    · exact Prod.ext stays set
  rw [scanTail, scanTailUsing, overruns, isDecoration, split, ← parts.1]
  simp [read]

section Block

variable {full : Bool} {tail opening : List Char} {confPairs : ConfPairs}
  {sections : List ConfPairs} {body : List (List Char)} {manager : Sections}

private theorem handleLines_section (wellFormed : WellFormed confPairs)
    (opened : handleLine opening none = .ok (.next (some ⟨confPairs.modeName, []⟩)))
    (decorated : DecoratedBody confPairs.pairs body) :
    ∃ kept, handleLines (opening :: body) none = .ok kept ∧
      (∀ other, kept = some other → other.modeName = confPairs.modeName) ∧
      (kept = some confPairs ↔ bodyIntact body 0 = true) := by
  rcases handleLines_decorated decorated ⟨confPairs.modeName, []⟩ wellFormed.keys wellFormed.values
    (show 0 < confMaxNodeNum by decide) (by simpa using wellFormed.count) with
    ⟨kept, handled, named, untouched⟩
  refine ⟨kept, ?_, named, untouched⟩
  rw [handleLines_cons, opened]
  exact handled

private theorem ends_in_body {line : List Char} {read unread : List (List Char)}
    (inert : ∀ other ∈ body, Inert other) (parts : body = read ++ line :: unread)
    (cut : tail <+: line) :
    Ends (confPairs :: sections) manager
      (scanLines dialect full tail read (some [opening]) manager)
      (intactSections full tail read (some []) = some (sections.length + 1)) := by
  have readInert : ∀ other ∈ read, Inert other := by
    intro other member
    exact inert other (by rw [parts]; simp [member])
  have tailInert : Inert tail := (inert line (by rw [parts]; simp)).of_cut cut
  have scanned := scanLines_inert dialect full tail readInert [] manager (some [opening])
  have counted := intactSections_inert full tail readInert [] (some [])
  rw [List.append_nil] at scanned counted
  have notClosed : ¬"-end".toList <+: tail.dropWhile isBlank := by
    rintro ⟨behind, split⟩
    exact (tailInert '-' _ split.symm).1 rfl
  rw [scanned, counted, Option.map_some, Option.map_some, scanLines_nil, intactSections,
    if_neg (fun both => notClosed both.1), scanTail_inert dialect tailInert]
  split_ifs
  · exact .inl ⟨⟨_, rfl⟩, by simp⟩
  · exact .nothing (by decide) rfl (by simp)

/-- A section that is cut inside of its last line is there when the cut is behind
the `-end`. -/
private theorem ends_in_end {last : List Char} (wellFormed : WellFormed confPairs)
    (opened : handleLine opening none = .ok (.next (some ⟨confPairs.modeName, []⟩)))
    (decorated : DecoratedBody confPairs.pairs body) (ends : EndLine last)
    (cut : tail <+: last) :
    Ends (confPairs :: sections) manager
      (scanLines dialect full tail body (some [opening]) manager)
      (intactSections full tail body (some []) = some (sections.length + 1)) := by
  rcases handleLines_section wellFormed opened decorated with ⟨kept, handled, named, untouched⟩
  rcases ends.closes with ⟨behind, closes⟩
  have inert := decorated.inert wellFormed.keys
  have scanned := scanLines_inert dialect full tail inert [] manager (some [opening])
  have counted := intactSections_inert full tail inert [] (some [])
  rw [List.append_nil] at scanned counted
  rw [scanned, counted, Option.map_some, Option.map_some, scanLines_nil, intactSections,
    List.singleton_append, List.nil_append]
  have ended := scanTail_end dialect full cut closes (opening :: body) manager
  split_ifs at ended with closed
  · rw [ended, handled]
    apply Ends.cons named untouched _ (.nothing (by decide) rfl Iff.rfl)
    by_cases intact : bodyIntact body 0 = true
    · rw [if_pos ⟨closed, intact⟩]
      simp [intact]
    · simp [intact]
  · rw [if_neg (fun both => closed both.1)]
    rcases ended with failed | ⟨exit, notClosed, finished⟩
    · exact .inl ⟨failed, by simp⟩
    · exact .nothing notClosed finished (by simp)

private theorem ends_behind {last : List Char} {read : List (List Char)}
    (wellFormed : WellFormed confPairs)
    (opened : handleLine opening none = .ok (.next (some ⟨confPairs.modeName, []⟩)))
    (decorated : DecoratedBody confPairs.pairs body) (ends : EndLine last)
    (rest : ∀ manager, Ends sections manager (scanLines dialect full tail read none manager)
      (intactSections full tail read none = some sections.length)) :
    Ends (confPairs :: sections) manager
      (scanLines dialect full tail (body ++ last :: read) (some [opening]) manager)
      (intactSections full tail (body ++ last :: read) (some []) =
        some (sections.length + 1)) := by
  rcases handleLines_section wellFormed opened decorated with ⟨kept, handled, named, untouched⟩
  rcases ends.closes with ⟨behind, closes⟩
  have inert := decorated.inert wellFormed.keys
  have split : last.dropWhile isBlank = '-' :: ("end".toList ++ behind) := by
    simpa using closes
  have ended : "-end".toList <+: '-' :: ("end".toList ++ behind) := ⟨behind, by simp⟩
  rw [scanLines_inert dialect full tail inert, intactSections_inert full tail inert,
    Option.map_some, Option.map_some, List.singleton_append, List.nil_append,
    scanLines_closing dialect split ended, handled, intactSections, split]
  simp only [if_true, List.head?_cons]
  apply Ends.cons named untouched _ (rest _)
  by_cases intact : bodyIntact body 0 = true
  · simp [intact]
  · simp [intact]

end Block

variable {full : Bool} {tail : List Char}

/-- Reading a decorated text, or the beginning of one that ends inside of a line. -/
theorem scanLines_decorated {sections : List ConfPairs} {whole : List (List Char)}
    (text : DecoratedText sections whole) {line : List Char} {rest : List (List Char)}
    (cut : tail <+: line) : ∀ (read : List (List Char)) (manager : Sections),
    (∀ confPairs ∈ sections, WellFormed confPairs) → whole = read ++ line :: rest →
    Ends sections manager (scanLines dialect full tail read none manager)
      (intactSections full tail read none = some sections.length) := by
  induction text with
  | done =>
      intro read manager _ parts
      simp at parts
  | @decoration sections first lines decoration _ induction =>
      intro read manager valid parts
      cases read with
      | nil =>
          cases parts
          exact .outside (scanTail_inert dialect (decoration.inert.of_cut cut) none manager)
      | cons head read =>
          cases parts
          have inert : ∀ other ∈ [first], Inert other := by
            intro other member
            rw [List.mem_singleton.mp member]
            exact decoration.inert
          have scanned := scanLines_inert dialect full tail inert read manager none
          have counted := intactSections_inert full tail inert read none
          rw [List.singleton_append] at scanned counted
          rw [scanned, counted]
          exact induction read manager valid rfl
  | @switch sections lines _ induction =>
      intro read manager valid parts
      cases read with
      | nil =>
          cases parts
          exact .outside (scanTail_switch cut manager)
      | cons head read =>
          cases parts
          exact induction read manager valid rfl
  | @block confPairs sections first last body lines name decorated ends _ induction =>
      intro read manager valid parts
      have wellFormed := valid confPairs List.mem_cons_self
      rcases name.opens wellFormed.name with ⟨opening, nameSplit, named⟩
      cases read with
      | nil =>
          cases parts
          apply Ends.outside (scanTail_outside dialect _ manager)
          intro behind tailSplit
          rcases dropWhile_of_cut cut tailSplit with ⟨more, whole⟩
          rw [nameSplit] at whole
          cases whole
      | cons head read =>
          rw [List.cons_append, List.cons.injEq] at parts
          rcases parts with ⟨rfl, parts⟩
          rw [scanLines_opening dialect nameSplit, intactSections, nameSplit]
          simp only [if_true, List.head?_cons, List.length_cons]
          rcases List.append_eq_append_iff.mp parts with
            ⟨behind, rfl, fromEnd⟩ | ⟨unread, inBody, fromCut⟩
          · cases behind with
            | nil =>
                cases fromEnd
                rw [List.append_nil]
                exact ends_in_end wellFormed named decorated ends cut
            | cons closing later =>
                cases fromEnd
                apply ends_behind wellFormed named decorated ends
                intro after
                exact induction later after
                  (fun other member => valid other (List.mem_cons_of_mem _ member)) rfl
          · cases unread with
            | nil =>
                cases fromCut
                rw [List.append_nil] at inBody
                subst inBody
                exact ends_in_end wellFormed named decorated ends cut
            | cons within others =>
                cases fromCut
                exact ends_in_body (decorated.inert wellFormed.keys) inBody cut

/-! ## Whole files -/

/-- Two reads give the same return value, and the same section with the same
pairs under every name. -/
def SameLoad (first second : Except Fault (ℤ × Manager)) : Prop :=
  ∃ code firstManager secondManager, first = .ok (code, firstManager) ∧
    second = .ok (code, secondManager) ∧
    ∀ name, getConfPairs firstManager name = getConfPairs secondManager name

section File

variable {sections : List ConfPairs} {plain decorated : List (List Char)}
  {file decoratedFile : List Char}

theorem PlainLines.written (lines : PlainLines sections plain) (text : TextOf plain file) :
    Written sections file := by
  rcases lines with ⟨switch, lines, switched, sectionLines, rfl⟩
  exact ⟨[], switch, lines, by simp, switched, sectionLines, text⟩

theorem PlainLines.noNewline (lines : PlainLines sections plain)
    (valid : ∀ confPairs ∈ sections, WellFormed confPairs) : ∀ line ∈ plain, '\n' ∉ line := by
  rcases lines with ⟨switch, lines, switched, sectionLines, rfl⟩
  intro line member
  rcases List.mem_append.mp member with inSwitch | inLines
  · rcases switched with rfl | rfl
    · simp at inSwitch
    · rw [List.mem_singleton.mp inSwitch]
      decide
  · exact sectionLines.noNewline valid line inLines

theorem parseFile_decorated (valid : ∀ confPairs ∈ sections, WellFormed confPairs)
    (lines : PlainLines sections plain) (inserted : Decorated plain decorated)
    (text : TextOf decorated decoratedFile) :
    Ends sections ⟨[], 0⟩ (parseFile dialect decoratedFile ⟨[], 0⟩)
      (fileIntact decoratedFile = some sections.length) := by
  have clean : ∀ line ∈ decorated, '\n' ∉ line := by
    intro line member
    rcases inserted.mem member with inPlain | decoration
    · exact lines.noNewline valid line inPlain
    · exact decoration.noNewline
  have whole : DecoratedText sections (Lines.pieces '\n' decoratedFile) := by
    have decoratedText := decoratedText_of_plainLines lines inserted
    rcases Lines.pieces_of_lines clean text with closed | opened
    · rw [closed]
      exact decoratedText.append_empty
    · rwa [opened]
  rcases Lines.pieces_take '\n' maxConfFileSize decoratedFile with ⟨line, rest, parts, cut⟩
  rw [parseFile_eq, fileIntact]
  exact scanLines_decorated whole cut _ _ valid parts

/-- Decoration of a well-formed file changes nothing when the manager is in use
already, so that nothing is read, or all sections are closed in the part of the
decorated file that is read, and all of them are intact. When the names of the
sections are distinct it changes something in every other case. -/
theorem getConfInfoFromFile_decorated_iff
    (valid : ∀ confPairs ∈ sections, WellFormed confPairs)
    (lines : PlainLines sections plain) (text : TextOf plain file)
    (small : file.length < maxConfFileSize) (inserted : Decorated plain decorated)
    (decoratedText : TextOf decorated decoratedFile) (manager : Manager) :
    (manager.initFlag = iriConfFinishInit ∨ fileIntact decoratedFile = some sections.length →
      SameLoad (getConfInfoFromFile (.readable decoratedFile) manager)
        (getConfInfoFromFile (.readable file) manager)) ∧
    (Distinct sections →
      SameLoad (getConfInfoFromFile (.readable decoratedFile) manager)
        (getConfInfoFromFile (.readable file) manager) →
      manager.initFlag = iriConfFinishInit ∨
        fileIntact decoratedFile = some sections.length) := by
  by_cases used : manager.initFlag = iriConfFinishInit
  · have refused : ∀ content, getConfInfoFromFile (.readable content) manager =
        .ok (repeatInitErr, manager) := by
      intro content
      rw [getConfInfoFromFile, getConfInfoFromFileUsing, if_pos used]
    rw [refused, refused]
    exact ⟨fun _ => ⟨repeatInitErr, manager, manager, rfl, rfl, fun _ => rfl⟩,
      fun _ _ => .inl used⟩
  rw [getConfInfoFromFile_loads used (parseFile_written valid (lines.written text) small)
    (by decide)]
  rcases parseFile_decorated valid lines inserted decoratedText with
    ⟨⟨fault, failed⟩, broken⟩ | ⟨exit, kept, opened, ended, names, complete, found⟩
  · rw [getConfInfoFromFile_faults used failed]
    constructor
    · rintro (inUse | intact)
      · exact absurd inUse used
      · exact absurd intact broken
    · rintro _ ⟨code, first, second, returned, -⟩
      cases returned
  · rw [getConfInfoFromFile_loads used ended opened]
    constructor
    · rintro (inUse | intact)
      · exact absurd inUse used
      · rw [complete intact]
        exact ⟨0, _, _, rfl, rfl, fun _ => rfl⟩
    · rintro distinct ⟨code, first, second, returned, plainReturned, same⟩
      cases returned
      cases plainReturned
      have keptDistinct : Distinct kept :=
        List.pairwise_map.mp ((List.pairwise_map.mpr distinct).sublist names)
      right
      apply found distinct
      intro confPairs member
      have lookup := same confPairs.modeName
      rw [getConfPairs_filled keptDistinct, getConfPairs_filled distinct,
        find?_modeName distinct member] at lookup
      exact List.mem_of_find?_eq_some (Except.ok.inj lookup)

end File

/-- Comments and an empty line inside of a section, and blanks behind it. -/
theorem getConfInfoFromFile_decorated_comments :
    fileIntact "-a\n#c\nk=v\n\n-end\n \t\n".toList = some 1 ∧
      SameLoad (getConfInfoFromFile (.readable "-a\n#c\nk=v\n\n-end\n \t\n".toList) .cleared)
        (getConfInfoFromFile (.readable "-a\nk=v\n-end\n".toList) .cleared) := by
  have intact : fileIntact "-a\n#c\nk=v\n\n-end\n \t\n".toList = some 1 := by
    decide
  have noBlanks : Blanks [] := by simp [Blanks]
  have valid : ∀ confPairs ∈ [(⟨"a".toList, [⟨"k".toList, "v".toList⟩]⟩ : ConfPairs)],
      WellFormed confPairs := by
    intro confPairs member
    rw [List.mem_singleton.mp member]
    refine ⟨(letter_keyToken 'a' (by decide)).toToken, by decide, ?_, ?_⟩
    · intro pair inside
      rw [List.mem_singleton.mp inside]
      exact letter_keyToken 'k' (by decide)
    · intro pair inside
      rw [List.mem_singleton.mp inside]
      exact (letter_keyToken 'v' (by decide)).toToken
  have lines : PlainLines [⟨"a".toList, [⟨"k".toList, "v".toList⟩]⟩]
      ["-a".toList, "k=v".toList, "-end".toList] := by
    have name : NameLine "a".toList "-a".toList :=
      .mk noBlanks noBlanks noBlanks (.inl rfl) (by decide) (by decide)
    have pair : PairLine ⟨"k".toList, "v".toList⟩ "k=v".toList :=
      .mk noBlanks noBlanks noBlanks noBlanks (.inl rfl) (by decide) (by decide)
    have last : EndLine "-end".toList := .mk noBlanks noBlanks (.inl rfl) (by decide)
    exact ⟨[], _, .inl rfl, .block name (.pair pair .done) last .done, rfl⟩
  have inserted : Decorated ["-a".toList, "k=v".toList, "-end".toList]
      ["-a".toList, "#c".toList, "k=v".toList, [], "-end".toList, " \t".toList] :=
    .keep (.insert (.comment noBlanks (by decide)) (.keep (.insert (.blank noBlanks) (.keep
      (.insert (.blank (by simp [Blanks, isBlank])) .done)))))
  refine ⟨intact, ?_⟩
  exact (getConfInfoFromFile_decorated_iff valid lines (.inl (by decide)) (by decide) inserted
    (.inl (by decide)) .cleared).1 (.inr intact)

/-- A line with one space inside of section `a`: the section is lost, and 0 is
returned all the same. -/
theorem getConfInfoFromFile_loses_decorated_section :
    Decorated ["-a".toList, "k=v".toList, "-end".toList]
        ["-a".toList, " ".toList, "k=v".toList, "-end".toList] ∧
      ¬SameLoad (getConfInfoFromFile (.readable "-a\n \nk=v\n-end\n".toList) .cleared)
        (getConfInfoFromFile (.readable "-a\nk=v\n-end\n".toList) .cleared) := by
  refine ⟨.keep (.insert (.blank (by simp [Blanks, isBlank])) (.keep (.keep .done))), ?_⟩
  rintro ⟨code, first, second, returned, plainReturned, same⟩
  have lost : (getConfInfoFromFile (.readable "-a\n \nk=v\n-end\n".toList) .cleared).map
      (fun outcome => getConfPairs outcome.2 "a".toList) = .ok (.ok none) := by
    decide
  have found : (getConfInfoFromFile (.readable "-a\nk=v\n-end\n".toList) .cleared).map
      (fun outcome => getConfPairs outcome.2 "a".toList) =
        .ok (.ok (some ⟨"a".toList, [⟨"k".toList, "v".toList⟩]⟩)) := by
    decide
  rw [returned] at lost
  rw [plainReturned] at found
  have different := (Except.ok.inj lost).symm.trans
    ((same "a".toList).trans (Except.ok.inj found))
  cases different

end Lctools.Config
