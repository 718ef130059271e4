import Lctools.Conf.Render
import Lctools.Conf.CutLine

/-! # Decorated sections

A configuration may be decorated with lines that hold only blanks and with
comments of any length. The scan of the file steps over all of them, but
`handle_conf_block` takes a line of blanks for a pair and stops at a line that is
too long.
-/

namespace Lctools.Conf

open Buffer CString

/-! ## The format -/

/-- A line of blanks, or a comment of any length. -/
inductive DecorationLine : List Char → Prop
  | blank {line : List Char} : Blanks line → DecorationLine line
  | comment {lead body : List Char} : Blanks lead → '\n' ∉ body →
      DecorationLine (lead ++ '#' :: body)

/-- Decoration is inserted anywhere between the given lines. -/
inductive Decorated : (plain decorated : List (List Char)) → Prop
  | done : Decorated [] []
  | keep {line : List Char} {plain decorated : List (List Char)} :
      Decorated plain decorated → Decorated (line :: plain) (line :: decorated)
  | insert {line : List Char} {plain decorated : List (List Char)} :
      DecorationLine line → Decorated plain decorated → Decorated plain (line :: decorated)

/-- The lines between the name of a section and its end, with decoration. -/
inductive DecoratedBody : List ConfPair → List (List Char) → Prop
  | done : DecoratedBody [] []
  | decoration {pairs : List ConfPair} {line : List Char} {lines : List (List Char)} :
      DecorationLine line → DecoratedBody pairs lines → DecoratedBody pairs (line :: lines)
  | pair {pair : ConfPair} {pairs : List ConfPair} {line : List Char}
      {lines : List (List Char)} :
      PairLine pair line → DecoratedBody pairs lines → DecoratedBody (pair :: pairs) (line :: lines)

theorem FillerLine.decoration {line : List Char} (filler : FillerLine line) :
    DecorationLine line := by
  cases filler with
  | empty => exact .blank (by simp [Blanks])
  | comment blank clean _ => exact .comment blank clean

theorem DecorationLine.noNewline {line : List Char} (decoration : DecorationLine line) :
    '\n' ∉ line := by
  cases decoration with
  | blank blank => exact blank.noNewline
  | comment blank clean => simpa using ⟨blank.noNewline, clean⟩

theorem prepend_decorations {holds : List (List Char) → Prop}
    (insert : ∀ {line : List Char} {lines : List (List Char)}, DecorationLine line →
      holds lines → holds (line :: lines))
    {decorations lines : List (List Char)}
    (allDecorations : ∀ line ∈ decorations, DecorationLine line) (start : holds lines) :
    holds (decorations ++ lines) := by
  induction decorations with
  | nil => exact start
  | cons decoration decorations induction =>
      apply insert (allDecorations decoration List.mem_cons_self)
      exact induction fun other member => allDecorations other (List.mem_cons_of_mem _ member)

namespace Decorated

variable {plain decorated : List (List Char)}

theorem mem {line : List Char} (inserted : Decorated plain decorated) (member : line ∈ decorated) :
    line ∈ plain ∨ DecorationLine line := by
  induction inserted with
  | done => simp at member
  | keep _ induction =>
      rcases List.mem_cons.mp member with rfl | later
      · exact .inl List.mem_cons_self
      · rcases induction later with inPlain | decoration
        · exact .inl (List.mem_cons_of_mem _ inPlain)
        · exact .inr decoration
  | insert decoration _ induction =>
      rcases List.mem_cons.mp member with rfl | later
      · exact .inr decoration
      · exact induction later

theorem prepend {decorations : List (List Char)}
    (allDecorations : ∀ line ∈ decorations, DecorationLine line)
    (inserted : Decorated plain decorated) : Decorated plain (decorations ++ decorated) :=
  prepend_decorations .insert allDecorations inserted

theorem split_cons {line : List Char} (inserted : Decorated (line :: plain) decorated) :
    ∃ before after, decorated = before ++ line :: after ∧
      (∀ other ∈ before, DecorationLine other) ∧ Decorated plain after := by
  generalize whole : line :: plain = lines at inserted
  induction inserted with
  | done => simp at whole
  | @keep _ _ decorated rest _ =>
      cases whole
      exact ⟨[], decorated, rfl, by simp, rest⟩
  | @insert other _ _ decoration _ induction =>
      rcases induction whole with ⟨before, after, rfl, decorations, rest⟩
      refine ⟨other :: before, after, rfl, ?_, rest⟩
      intro earlier member
      rcases List.mem_cons.mp member with rfl | inBefore
      · exact decoration
      · exact decorations earlier inBefore

theorem split_append {first second : List (List Char)} :
    Decorated (first ++ second) decorated →
    ∃ before after, decorated = before ++ after ∧ Decorated first before ∧
      Decorated second after := by
  induction first generalizing decorated with
  | nil =>
      intro inserted
      exact ⟨[], decorated, rfl, .done, inserted⟩
  | cons line first induction =>
      intro inserted
      rcases split_cons inserted with ⟨decorations, behind, rfl, allDecorations, rest⟩
      rcases induction rest with ⟨before, after, rfl, inFirst, inSecond⟩
      exact ⟨decorations ++ line :: before, after, by simp,
        prepend allDecorations (.keep inFirst), inSecond⟩

end Decorated

theorem DecoratedBody.prepend {pairs : List ConfPair} {lines decorations : List (List Char)}
    (allDecorations : ∀ line ∈ decorations, DecorationLine line)
    (body : DecoratedBody pairs lines) : DecoratedBody pairs (decorations ++ lines) :=
  prepend_decorations .decoration allDecorations body

theorem BodyLines.decorate {pairs : List ConfPair} {body : List (List Char)}
    (written : BodyLines pairs body) : ∀ {decorated decorations : List (List Char)},
    Decorated body decorated → (∀ line ∈ decorations, DecorationLine line) →
    DecoratedBody pairs (decorated ++ decorations) := by
  induction written with
  | done =>
      intro decorated decorations inserted allDecorations
      have onlyDecorations : ∀ line ∈ decorated ++ decorations, DecorationLine line := by
        intro line member
        rcases List.mem_append.mp member with inBody | behind
        · simpa using inserted.mem inBody
        · exact allDecorations line behind
      simpa using DecoratedBody.prepend onlyDecorations .done
  | filler filler _ induction =>
      intro decorated decorations inserted allDecorations
      rcases inserted.split_cons with ⟨before, after, rfl, beforeDecorations, rest⟩
      rw [List.append_assoc]
      exact .prepend beforeDecorations (.decoration filler.decoration
        (induction rest allDecorations))
  | pair writtenPair _ induction =>
      intro decorated decorations inserted allDecorations
      rcases inserted.split_cons with ⟨before, after, rfl, beforeDecorations, rest⟩
      rw [List.append_assoc]
      exact .prepend beforeDecorations (.pair writtenPair (induction rest allDecorations))

/-! ## Which sections come through -/

/-- A line without text, or with a comment only. -/
def isDecoration (line : List Char) : Bool :=
  match line.dropWhile isBlank with
  | [] => true
  | first :: _ => first = '#'

/-- The lines of a section are all taken as they are meant: no line that is
looked at holds blanks only, and no line that is too long comes before a pair.
`read` counts the pairs so far. -/
def bodyIntact : (lines : List (List Char)) → (read : ℕ) → Bool
  | [], _ => true
  | line :: lines, read =>
      if maxLineLen ≤ line.length then lines.all isDecoration
      else if isDecoration line then (line = [] || '#' ∈ line) && bodyIntact lines read
      else read + 1 = confMaxNodeNum || bodyIntact lines (read + 1)

theorem DecorationLine.isDecoration {line : List Char} (decoration : DecorationLine line) :
    isDecoration line = true := by
  cases decoration with
  | blank blank =>
      have empty : line.dropWhile isBlank = [] := List.dropWhile_eq_nil_iff.mpr blank
      rw [Conf.isDecoration, empty]
  | comment blank _ =>
      rw [Conf.isDecoration, dropWhile_blank blank '#' (by decide)]
      rfl

theorem PairLine.not_isDecoration {pair : ConfPair} {line : List Char}
    (written : PairLine pair line) (key : KeyToken pair.name) : isDecoration line = false := by
  rcases written.first key with ⟨first, rest, split, notHash, -, -⟩
  rw [isDecoration, split]
  simpa using notHash

theorem PairLine.short {pair : ConfPair} {line : List Char} (written : PairLine pair line) :
    ¬maxLineLen ≤ line.length := by
  cases written with
  | mk _ _ _ _ _ _ lineShort => exact Nat.not_le.mpr (Nat.lt_succ_of_le lineShort)

theorem DecoratedBody.all_isDecoration {pairs : List ConfPair} {lines : List (List Char)}
    (body : DecoratedBody pairs lines) (keys : ∀ pair ∈ pairs, KeyToken pair.name) :
    lines.all isDecoration = true ↔ pairs = [] := by
  induction body with
  | done => simp
  | decoration decoration _ induction =>
      rw [List.all_cons, decoration.isDecoration, Bool.true_and]
      exact induction keys
  | pair written _ _ =>
      rw [List.all_cons, written.not_isDecoration (keys _ List.mem_cons_self)]
      simp

/-- A line of blanks is handled as a pair, and the section is given up. -/
theorem handleLine_blank {line : List Char} (blank : Blanks line) (nonempty : line ≠ [])
    (short : line.length < maxLineLen) {current : ConfPairs}
    (room : current.pairs.length < confMaxNodeNum) :
    handleLine line (some current) = .ok (.done none) := by
  have absent : ∀ c ∈ text line, c ∈ line :=
    fun c member => (List.takeWhile_sublist _).subset member
  have whole : significant line = line := by
    rw [significant, if_neg]
    intro hash
    exact (blank.clean (absent _ hash)).2.2.1 rfl
  have noPair : '=' ∉ text line := by
    intro equals
    exact (blank.clean (absent _ equals)).2.2.2 rfl
  rw [handleLine_pair short (by rwa [whole]) room, whole, iriConfLineHandle_eq,
    if_pos (.inr noPair)]

/-- What becomes of a section with the `pairs` still to come: it keeps its name if it
is not given up, and it is left as written exactly when it is `intact`. -/
def Leaves (current : ConfPairs) (pairs : List ConfPair) (intact : Bool)
    (result : Except Fault (Option ConfPairs)) : Prop :=
  ∃ kept, result = .ok kept ∧
    (∀ confPairs, kept = some confPairs → confPairs.modeName = current.modeName) ∧
    (kept = some { current with pairs := current.pairs ++ pairs } ↔ intact = true)

namespace Leaves

variable {current : ConfPairs} {pairs : List ConfPair} {intact : Bool}

theorem left (nothing : intact = true ↔ pairs = []) :
    Leaves current pairs intact (.ok (some current)) := by
  refine ⟨some current, rfl, ?_, ?_⟩
  · intro confPairs same
    rw [Option.some.inj same]
  · rw [nothing]
    constructor
    · intro same
      have pairsSame := congrArg ConfPairs.pairs (Option.some.inj same)
      simpa using pairsSame
    · intro none
      simp [none]

theorem dropped : Leaves current pairs false (.ok none) :=
  ⟨none, rfl, by simp, by simp⟩

theorem read {pair : ConfPair} {result : Except Fault (Option ConfPairs)}
    (rest : Leaves { current with pairs := current.pairs ++ [pair] } pairs intact result) :
    Leaves current (pair :: pairs) intact result := by
  rcases rest with ⟨kept, handled, named, whole⟩
  refine ⟨kept, handled, named, ?_⟩
  rw [← whole, List.append_assoc, List.singleton_append]

end Leaves

theorem handleLines_decorated {pairs : List ConfPair} {lines : List (List Char)}
    (body : DecoratedBody pairs lines) : ∀ (current : ConfPairs),
    (∀ pair ∈ pairs, KeyToken pair.name) → (∀ pair ∈ pairs, Token pair.value) →
    current.pairs.length < confMaxNodeNum →
    current.pairs.length + pairs.length ≤ confMaxNodeNum →
    Leaves current pairs (bodyIntact lines current.pairs.length)
      (handleLines lines (some current)) := by
  induction body with
  | done =>
      intro current _ _ _ _
      exact .left (by simp [bodyIntact])
  | @decoration pairs line lines decoration rest induction =>
      intro current keys values room total
      by_cases long : maxLineLen ≤ line.length
      · rw [bodyIntact, if_pos long, handleLines_cons, handleLine_long (not_lt.mpr long)]
        exact .left (rest.all_isDecoration keys)
      have short := not_le.mp long
      have behind := induction current keys values room total
      rw [bodyIntact, if_neg long, if_pos decoration.isDecoration, handleLines_cons]
      cases decoration with
      | blank blank =>
          by_cases empty : line = []
          · have given : (decide (line = []) || decide ('#' ∈ line)) = true := by
              simp [empty]
            rw [given, Bool.true_and, empty, handleLine_filler .empty]
            exact behind
          · have noHash : '#' ∉ line := fun hash => (blank.clean hash).2.2.1 rfl
            have given : (decide (line = []) || decide ('#' ∈ line)) = false := by
              simp [empty, noHash]
            rw [handleLine_blank blank empty short room, given, Bool.false_and]
            exact .dropped
      | @comment lead text blank clean =>
          have given : (decide (lead ++ '#' :: text = []) || decide ('#' ∈ lead ++ '#' :: text)) =
              true := by
            simp
          rw [given, Bool.true_and,
            handleLine_filler (.comment blank clean (Nat.le_of_lt_succ short))]
          exact behind
  | @pair pair pairs line lines written rest induction =>
      intro current keys values room total
      have key := keys pair List.mem_cons_self
      rw [List.length_cons] at total
      rw [bodyIntact, if_neg written.short, if_neg (by simp [written.not_isDecoration key]),
        handleLines_cons, handleLine_pairLine written key (values pair List.mem_cons_self) room]
      apply Leaves.read
      by_cases last : current.pairs.length + 1 = confMaxNodeNum
      · have none : pairs = [] := List.length_eq_zero_iff.mp (by omega)
        rw [if_pos last]
        exact .left (by simp [last, none])
      · have behind := induction { current with pairs := current.pairs ++ [pair] }
          (fun other member => keys other (List.mem_cons_of_mem _ member))
          (fun other member => values other (List.mem_cons_of_mem _ member))
          (by simp; omega) (by simp; omega)
        rw [List.length_append] at behind
        rw [if_neg last, decide_eq_false last, Bool.false_or]
        exact behind

/-! ## Inert lines -/

/-- A line that neither opens or closes a section nor is a switch. -/
def Inert (line : List Char) : Prop :=
  ∀ first rest, line.dropWhile isBlank = first :: rest → first ≠ '-' ∧ first ≠ '@'

theorem Inert.of_cut {part whole : List Char} (inert : Inert whole) (cut : part <+: whole) :
    Inert part := by
  intro first rest split
  rcases dropWhile_of_cut cut split with ⟨more, wholeSplit⟩
  exact inert first _ wholeSplit

theorem DecorationLine.inert {line : List Char} (decoration : DecorationLine line) :
    Inert line := by
  intro first rest split
  have comment := decoration.isDecoration
  rw [Conf.isDecoration, split] at comment
  have hash : first = '#' := by simpa using comment
  rw [hash]
  decide

theorem DecoratedBody.inert {pairs : List ConfPair} {body : List (List Char)}
    (decorated : DecoratedBody pairs body) (keys : ∀ pair ∈ pairs, KeyToken pair.name) :
    ∀ line ∈ body, Inert line := by
  induction decorated with
  | done => simp
  | decoration decoration _ induction =>
      intro line member
      rcases List.mem_cons.mp member with rfl | later
      · exact decoration.inert
      · exact induction keys line later
  | pair written _ induction =>
      intro line member
      rcases List.mem_cons.mp member with rfl | later
      · rcases written.first (keys _ List.mem_cons_self) with
          ⟨first, rest, split, -, notDash, notSwitch⟩
        intro other behind again
        rw [split] at again
        cases again
        exact ⟨notDash, notSwitch⟩
      · exact induction (fun other inside => keys other (List.mem_cons_of_mem _ inside)) line later

theorem Inert.unmarked {line : List Char} (inert : Inert line) : Unmarked line := by
  intro rest
  constructor
  · intro starts
    exact (inert '@' rest starts).2 rfl
  · intro starts
    exact (inert '-' rest starts).1 rfl

/-- The buffer is full and its last line is the part of a blank line or of a
comment. -/
def overruns (full : Bool) (tail : List Char) : Bool :=
  full && tail ≠ [] && isDecoration tail

section Scan

variable {μ : Type} (dialect : Dialect μ) {full : Bool} {tail : List Char}

theorem scanLines_inert (full : Bool) (tail : List Char) {lines : List (List Char)}
    (inert : ∀ line ∈ lines, Inert line) (rest : List (List Char)) (manager : μ) :
    ∀ block : Option (List (List Char)),
    scanLines dialect full tail (lines ++ rest) block manager =
      scanLines dialect full tail rest (block.map (· ++ lines)) manager := by
  induction lines with
  | nil =>
      intro block
      simp
  | cons line lines induction =>
      intro block
      have continues := induction (fun other member => inert other (List.mem_cons_of_mem _ member))
        (block.map (· ++ [line]))
      have first := inert line List.mem_cons_self
      rw [List.cons_append, scanLines_unmarked dialect first.unmarked, continues]
      simp [Function.comp_def]

theorem scanTail_inert (inert : Inert tail) (block : Option (List (List Char)))
    (manager : μ) :
    scanTail dialect full tail block manager =
      if overruns full tail then .error (.outOfBounds .rdBuf maxConfFileSize)
      else .ok (.finished, manager) := by
  rw [scanTail, scanTailUsing, overruns, isDecoration]
  unfold Inert at inert
  by_cases empty : tail = []
  · subst empty
    simp
  rcases split : tail.dropWhile isBlank with _ | ⟨c, behind⟩
  · cases full with
    | false => simp
    | true => simp [empty]
  · have apart := inert c behind split
    by_cases hash : c = '#'
    · subst hash
      cases full with
      | false => simp
      | true => simp [empty]
    · simp [hash, apart.1, apart.2]

/-! ## Lines of a section -/

theorem NameLine.opens {name first : List Char} (written : NameLine name first)
    (valid : Token name) :
    ∃ rest, first.dropWhile isBlank = '-' :: rest ∧
      handleLine rest none = .ok (.next (some ⟨name, []⟩)) := by
  cases written with
  | @mk lead gap trail comment leadBlank gapBlank trailBlank commented short lineShort =>
      refine ⟨gap ++ name ++ trail ++ comment, ?_, ?_⟩
      · have dropped := dropWhile_blank leadBlank '-' (by decide) (gap ++ name ++ trail ++ comment)
        rw [← dropped]
        simp
      · exact handleLine_nameLine valid gapBlank trailBlank commented
          (by simp at short ⊢; omega) (by simp at lineShort ⊢; omega)

theorem EndLine.closes {last : List Char} (written : EndLine last) :
    ∃ rest, last.dropWhile isBlank = "-end".toList ++ rest := by
  cases written with
  | @mk lead trail comment leadBlank _ _ _ =>
      refine ⟨trail ++ comment, ?_⟩
      have dropped := dropWhile_blank leadBlank '-' (by decide) ("end".toList ++ trail ++ comment)
      simpa using dropped

/-- Outside of the sections the open last line does nothing, unless it is a
switch. -/
theorem scanTail_outside (noSwitch : ∀ rest, tail.dropWhile isBlank ≠ '@' :: rest)
    (manager : μ) :
    scanTail dialect full tail none manager =
      if overruns full tail then .error (.outOfBounds .rdBuf maxConfFileSize)
      else .ok (.finished, manager) := by
  by_cases dash : ∃ rest, tail.dropWhile isBlank = '-' :: rest
  · rcases dash with ⟨rest, split⟩
    rw [scanTail, scanTailUsing, overruns, isDecoration, split]
    simp
  · apply scanTail_inert
    intro first rest split
    constructor
    · rintro rfl
      exact dash ⟨rest, split⟩
    · rintro rfl
      exact noSwitch rest split

theorem scanTail_end (full : Bool) {rest last : List Char} (cut : tail <+: last)
    (closes : last.dropWhile isBlank = "-end".toList ++ rest) (content : List (List Char))
    (manager : μ) :
    if "-end".toList <+: tail.dropWhile isBlank then
      scanTail dialect full tail (some content) manager = (do
        let newPairs ← handleLines content none
        .ok (.finished, insertParsed dialect manager newPairs))
    else
      (∃ fault, scanTail dialect full tail (some content) manager = .error fault) ∨
        ∃ exit, exit ≠ .closeAll ∧
          scanTail dialect full tail (some content) manager = .ok (exit, manager) := by
  rcases split : tail.dropWhile isBlank with _ | ⟨c, behind⟩
  · have inert : Inert tail := by
      intro first rest nonblank
      rw [split] at nonblank
      cases nonblank
    rw [if_neg (by decide), scanTail_inert dialect inert]
    split_ifs
    · exact .inl ⟨_, rfl⟩
    · exact .inr ⟨.finished, by decide, rfl⟩
  · rcases dropWhile_of_cut cut split with ⟨more, whole⟩
    rw [closes] at whole
    have dash : c = '-' := by
      have heads := congrArg List.head? whole
      simpa using heads.symm
    subst dash
    rw [scanTail, scanTailUsing, split]
    simp only [show ('-' : Char) ≠ '#' by decide, show ('-' : Char) ≠ '@' by decide, if_false,
      if_true]
    by_cases ended : "-end".toList <+: '-' :: behind
    · rw [if_pos ended, if_pos ended]
    · rw [if_neg ended, if_neg ended]
      split_ifs
      · exact .inl ⟨_, rfl⟩
      · exact .inr ⟨.endError, by decide, rfl⟩

end Scan

end Lctools.Conf
