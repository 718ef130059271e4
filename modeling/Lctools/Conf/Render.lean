import Lctools.Conf.Outcome

/-! # Written configurations

The text of a configuration, as a relation between the sections it holds and its
lines: blanks, empty lines and comments can be written in many ways. The line
machine reads every such text back.
-/

namespace Lctools.Conf

open Buffer CString

/-! ## The format -/

/-- A name, key or value that can be written. -/
structure Token (token : List Char) : Prop where
  nonempty : token ≠ []
  short : token.length ≤ 126
  clean : ∀ c ∈ token, c ≠ nul ∧ c ≠ ' ' ∧ c ≠ '\t' ∧ c ≠ '\n' ∧ c ≠ '\r' ∧ c ≠ '#'

/-- A key is a token that can be told from a value, a section and a switch. -/
structure KeyToken (token : List Char) : Prop extends Token token where
  noEquals : '=' ∉ token
  noDash : token.head? ≠ some '-'
  noSwitch : token.head? ≠ some '@'

structure WellFormed (confPairs : ConfPairs) : Prop where
  name : Token confPairs.modeName
  count : confPairs.pairs.length ≤ confMaxNodeNum
  keys : ∀ pair ∈ confPairs.pairs, KeyToken pair.name
  values : ∀ pair ∈ confPairs.pairs, Token pair.value

/-- Any number of spaces and tabs. -/
def Blanks (blanks : List Char) : Prop :=
  ∀ c ∈ blanks, isBlank c = true

/-- Nothing, or a comment up to the end of the line. -/
def Comment (comment : List Char) : Prop :=
  comment = [] ∨ ∃ body, comment = '#' :: body ∧ '\n' ∉ body

/-- A line that is empty or holds only a comment. -/
inductive FillerLine : List Char → Prop
  | empty : FillerLine []
  | comment {lead body : List Char} : Blanks lead → '\n' ∉ body →
      (lead ++ '#' :: body).length ≤ 1023 → FillerLine (lead ++ '#' :: body)

inductive NameLine (name : List Char) : List Char → Prop
  | mk {lead gap trail comment : List Char} : Blanks lead → Blanks gap → Blanks trail →
      Comment comment → (lead ++ '-' :: (gap ++ name ++ trail)).length ≤ 255 →
      (lead ++ '-' :: (gap ++ name ++ trail) ++ comment).length ≤ 1023 →
      NameLine name (lead ++ '-' :: (gap ++ name ++ trail) ++ comment)

inductive PairLine (pair : ConfPair) : List Char → Prop
  | mk {lead before behind trail comment : List Char} : Blanks lead → Blanks before →
      Blanks behind → Blanks trail → Comment comment →
      (lead ++ pair.name ++ before ++ '=' :: (behind ++ pair.value ++ trail)).length ≤ 255 →
      (lead ++ pair.name ++ before ++ '=' :: (behind ++ pair.value ++ trail) ++
        comment).length ≤ 1023 →
      PairLine pair
        (lead ++ pair.name ++ before ++ '=' :: (behind ++ pair.value ++ trail) ++ comment)

inductive EndLine : List Char → Prop
  | mk {lead trail comment : List Char} : Blanks lead → Blanks trail → Comment comment →
      (lead ++ "-end".toList ++ trail ++ comment).length ≤ 1023 →
      EndLine (lead ++ "-end".toList ++ trail ++ comment)

/-- The lines between the name of a section and its end. -/
inductive BodyLines : List ConfPair → List (List Char) → Prop
  | done : BodyLines [] []
  | filler {pairs : List ConfPair} {line : List Char} {lines : List (List Char)} :
      FillerLine line → BodyLines pairs lines → BodyLines pairs (line :: lines)
  | pair {pair : ConfPair} {pairs : List ConfPair} {line : List Char}
      {lines : List (List Char)} :
      PairLine pair line → BodyLines pairs lines → BodyLines (pair :: pairs) (line :: lines)

/-- The lines of a configuration with the given sections. -/
inductive SectionLines : List ConfPairs → List (List Char) → Prop
  | done : SectionLines [] []
  | filler {sections : List ConfPairs} {line : List Char} {lines : List (List Char)} :
      FillerLine line → SectionLines sections lines → SectionLines sections (line :: lines)
  | block {confPairs : ConfPairs} {sections : List ConfPairs} {first last : List Char}
      {body lines : List (List Char)} :
      NameLine confPairs.modeName first → BodyLines confPairs.pairs body → EndLine last →
      SectionLines sections lines →
      SectionLines (confPairs :: sections) (first :: (body ++ last :: lines))

/-! ## Newlines -/

theorem Blanks.clean {blanks : List Char} (blank : Blanks blanks) {c : Char}
    (member : c ∈ blanks) : c ≠ nul ∧ c ≠ '\n' ∧ c ≠ '#' ∧ c ≠ '=' := by
  have value := blank c member
  refine ⟨?_, ?_, ?_, ?_⟩
  all_goals
    rintro rfl
    exact absurd value (by decide)

theorem Blanks.noNewline {blanks : List Char} (blank : Blanks blanks) : '\n' ∉ blanks :=
  fun member => (blank.clean member).2.1 rfl

private theorem Comment.noNewline {comment : List Char} (commented : Comment comment) :
    '\n' ∉ comment := by
  rcases commented with rfl | ⟨body, rfl, clean⟩
  · simp
  · simpa using clean

private theorem Token.noNewline {token : List Char} (valid : Token token) : '\n' ∉ token :=
  fun member => (valid.clean _ member).2.2.2.1 rfl

theorem FillerLine.noNewline {line : List Char} (filler : FillerLine line) :
    '\n' ∉ line := by
  cases filler with
  | empty => simp
  | comment blank clean _ => simpa using ⟨blank.noNewline, clean⟩

theorem BodyLines.noNewline {pairs : List ConfPair} {lines : List (List Char)}
    (body : BodyLines pairs lines) (keys : ∀ pair ∈ pairs, KeyToken pair.name)
    (values : ∀ pair ∈ pairs, Token pair.value) : ∀ line ∈ lines, '\n' ∉ line := by
  induction body with
  | done => simp
  | filler filler _ induction =>
      intro line member
      rcases List.mem_cons.mp member with rfl | later
      · exact filler.noNewline
      · exact induction keys values line later
  | @pair pair _ _ _ written _ induction =>
      intro line member
      rcases List.mem_cons.mp member with rfl | later
      · cases written with
        | mk leadBlank beforeBlank behindBlank trailBlank commented _ _ =>
            have key := (keys pair (List.mem_cons_self ..)).toToken.noNewline
            have value := (values pair (List.mem_cons_self ..)).noNewline
            simp [leadBlank.noNewline, beforeBlank.noNewline, behindBlank.noNewline,
              trailBlank.noNewline, commented.noNewline, key, value]
      · exact induction (fun other inside => keys other (List.mem_cons_of_mem _ inside))
          (fun other inside => values other (List.mem_cons_of_mem _ inside)) line later

theorem SectionLines.noNewline {sections : List ConfPairs} {lines : List (List Char)}
    (written : SectionLines sections lines)
    (valid : ∀ confPairs ∈ sections, WellFormed confPairs) : ∀ line ∈ lines, '\n' ∉ line := by
  induction written with
  | done => simp
  | filler filler _ induction =>
      intro line member
      rcases List.mem_cons.mp member with rfl | later
      · exact filler.noNewline
      · exact induction valid line later
  | @block confPairs _ _ _ _ _ name body ends _ induction =>
      have wellFormed := valid confPairs (List.mem_cons_self ..)
      intro line member
      simp only [List.mem_cons, List.mem_append] at member
      rcases member with rfl | inBody | rfl | later
      · cases name with
        | mk leadBlank gapBlank trailBlank commented _ _ =>
            simp [leadBlank.noNewline, gapBlank.noNewline, trailBlank.noNewline,
              commented.noNewline, wellFormed.name.noNewline]
      · exact body.noNewline wellFormed.keys wellFormed.values line inBody
      · cases ends with
        | mk leadBlank trailBlank commented _ =>
            simp [leadBlank.noNewline, trailBlank.noNewline, commented.noNewline]
      · exact induction (fun other inside => valid other (List.mem_cons_of_mem _ inside))
          line later

/-! ## Reading one line back -/

section Line

variable {blanks part comment token : List Char}

theorem Token.solid (valid : Token token) : ∀ c ∈ token, isBlank c = false := by
  intro c member
  have clean := valid.clean c member
  simp [isBlank, clean.2.1, clean.2.2.1]

private theorem Token.chomp_eq (valid : Token token) : chomp token = token := by
  rw [chomp, if_neg]
  intro last
  exact (valid.clean '\r' (List.mem_of_getLast? last)).2.2.2.2.1 rfl

theorem dropWhile_blank (blank : Blanks blanks) (c : Char) (solid : isBlank c = false)
    (rest : List Char) : (blanks ++ c :: rest).dropWhile isBlank = c :: rest := by
  rw [List.dropWhile_append_of_pos blank]
  simp [solid]

private theorem significant_commented (valid : Comment comment)
    (clean : ∀ c ∈ part, c ≠ nul ∧ c ≠ '#') (present : ¬part.all isBlank = true) :
    significant (part ++ comment) = part := by
  have noNul : nul ∉ part := fun member => (clean nul member).1 rfl
  have noHash : '#' ∉ part := fun member => (clean '#' member).2 rfl
  rcases valid with rfl | ⟨body, rfl, _⟩
  · have absent : '#' ∉ text (part ++ []) := by
      intro member
      apply noHash
      simpa using (List.takeWhile_sublist _).subset member
    rw [significant, if_neg absent, List.append_nil]
  · rw [significant, if_pos (mem_text_mark noNul (by decide) body), takeWhile_mark noHash body,
      if_neg present]

theorem handleLine_filler {line : List Char} (filler : FillerLine line)
    (confPairs : Option ConfPairs) :
    handleLine line confPairs = .ok (.next confPairs) := by
  cases filler with
  | empty => exact handleLine_skip (by decide) rfl confPairs
  | @comment lead body blank _ short =>
      have noNul : nul ∉ lead := fun member => (blank.clean member).1 rfl
      have noHash : '#' ∉ lead := fun member => (blank.clean member).2.2.1 rfl
      apply handleLine_skip (Nat.lt_succ_of_le short)
      rw [significant, if_pos (mem_text_mark noNul (by decide) body), takeWhile_mark noHash body,
        if_pos (List.all_eq_true.mpr blank)]

/-! A token between blanks. -/

section Padded

variable {lead trail : List Char} (leadBlank : Blanks lead) (trailBlank : Blanks trail)

include leadBlank trailBlank

private theorem Token.padded_clean (valid : Token token) :
    ∀ c ∈ lead ++ token ++ trail, c ≠ nul ∧ c ≠ '#' := by
  intro c member
  simp only [List.mem_append] at member
  rcases member with (inLead | inToken) | inTrail
  · exact ⟨(leadBlank.clean inLead).1, (leadBlank.clean inLead).2.2.1⟩
  · exact ⟨(valid.clean c inToken).1, (valid.clean c inToken).2.2.2.2.2⟩
  · exact ⟨(trailBlank.clean inTrail).1, (trailBlank.clean inTrail).2.2.1⟩

private theorem Token.padded_word (valid : Token token) : word (lead ++ token ++ trail) = token :=
  word_padded leadBlank valid.solid (fun member => (valid.clean _ member).1 rfl) trailBlank

private theorem KeyToken.padded_noEquals (valid : KeyToken token) :
    '=' ∉ lead ++ token ++ trail := by
  intro member
  simp only [List.mem_append] at member
  rcases member with (inLead | inToken) | inTrail
  · exact (leadBlank.clean inLead).2.2.2 rfl
  · exact valid.noEquals inToken
  · exact (trailBlank.clean inTrail).2.2.2 rfl

end Padded

private theorem Token.accepted (valid : Token token) :
    ¬confStringMaxLen - 1 ≤ token.length := by
  have bound := valid.short
  simp only [confStringMaxLen]
  omega

private theorem not_all_blank (before after : List Char) (valid : Token token) :
    ¬(before ++ token ++ after).all isBlank = true := by
  intro blank
  rcases List.exists_mem_of_ne_nil token valid.nonempty with ⟨c, member⟩
  have blankChar := List.all_eq_true.mp blank c (by simp [member])
  simp [valid.solid c member] at blankChar

theorem handleLine_nameLine {name gap trail : List Char} (valid : Token name)
    (gapBlank : Blanks gap) (trailBlank : Blanks trail) (commented : Comment comment)
    (short : (gap ++ name ++ trail).length ≤ 255)
    (lineShort : (gap ++ name ++ trail ++ comment).length ≤ 1023) :
    handleLine (gap ++ name ++ trail ++ comment) none = .ok (.next (some ⟨name, []⟩)) := by
  have cut : significant (gap ++ name ++ trail ++ comment) = gap ++ name ++ trail :=
    significant_commented commented (valid.padded_clean gapBlank trailBlank)
      (not_all_blank gap trail valid)
  have present : significant (gap ++ name ++ trail ++ comment) ≠ [] := by
    rw [cut]
    simp [valid.nonempty]
  rw [handleLine_name (Nat.lt_succ_of_le lineShort) present, cut,
    valid.padded_word gapBlank trailBlank, if_neg (by omega), if_neg valid.accepted,
    if_neg valid.nonempty, valid.chomp_eq]

theorem iriConfLineHandle_pairLine {pair : ConfPair} {lead before behind trail : List Char}
    (key : KeyToken pair.name) (value : Token pair.value) (leadBlank : Blanks lead)
    (beforeBlank : Blanks before) (behindBlank : Blanks behind) (trailBlank : Blanks trail)
    (short : (lead ++ pair.name ++ before ++
      '=' :: (behind ++ pair.value ++ trail)).length ≤ 255) :
    iriConfLineHandle (lead ++ pair.name ++ before ++ '=' :: (behind ++ pair.value ++ trail)) =
      .ok (some pair) := by
  have frontClean : nul ∉ lead ++ pair.name ++ before :=
    fun member => (key.toToken.padded_clean leadBlank beforeBlank _ member).1 rfl
  have backClean : nul ∉ behind ++ pair.value ++ trail :=
    fun member => (value.padded_clean behindBlank trailBlank _ member).1 rfl
  have noEquals := key.padded_noEquals leadBlank beforeBlank
  have paired := mem_text_mark frontClean (show '=' ≠ nul by decide)
    (behind ++ pair.value ++ trail)
  have keyWord : word (keyPart (lead ++ pair.name ++ before ++
      '=' :: (behind ++ pair.value ++ trail))) = pair.name := by
    rw [keyPart, takeWhile_mark noEquals]
    exact key.toToken.padded_word leadBlank beforeBlank
  have valueWord : word (valuePart (lead ++ pair.name ++ before ++
      '=' :: (behind ++ pair.value ++ trail))) = pair.value := by
    rw [valuePart, dropWhile_mark noEquals, List.drop_succ_cons, List.drop_zero,
      text_of_no_nul backClean]
    exact value.padded_word behindBlank trailBlank
  rw [iriConfLineHandle_eq, keyWord, valueWord, if_neg, if_neg key.accepted,
    if_neg key.nonempty, if_neg value.accepted, if_neg value.nonempty, key.chomp_eq,
    value.chomp_eq]
  rintro (long | unpaired)
  · omega
  · exact unpaired paired

theorem handleLine_pairLine {pair : ConfPair} {line : List Char} {current : ConfPairs}
    (written : PairLine pair line) (key : KeyToken pair.name) (value : Token pair.value)
    (room : current.pairs.length < confMaxNodeNum) :
    handleLine line (some current) =
      if current.pairs.length + 1 = confMaxNodeNum then
        .ok (.done (some { current with pairs := current.pairs ++ [pair] }))
      else
        .ok (.next (some { current with pairs := current.pairs ++ [pair] })) := by
  cases written with
  | @mk lead before behind trail comment leadBlank beforeBlank behindBlank trailBlank commented
      short lineShort =>
      have cut : significant (lead ++ pair.name ++ before ++
          '=' :: (behind ++ pair.value ++ trail) ++ comment) =
          lead ++ pair.name ++ before ++ '=' :: (behind ++ pair.value ++ trail) := by
        refine significant_commented commented ?_ ?_
        · intro c member
          rcases List.mem_append.mp member with inFront | inBack
          · exact key.toToken.padded_clean leadBlank beforeBlank c inFront
          · rcases List.mem_cons.mp inBack with rfl | inValue
            · decide
            · exact value.padded_clean behindBlank trailBlank c inValue
        · simpa using not_all_blank lead
            (before ++ '=' :: (behind ++ pair.value ++ trail)) key.toToken
      have present : significant (lead ++ pair.name ++ before ++
          '=' :: (behind ++ pair.value ++ trail) ++ comment) ≠ [] := by
        rw [cut]
        simp
      rw [handleLine_pair (Nat.lt_succ_of_le lineShort) present room, cut,
        iriConfLineHandle_pairLine key value leadBlank beforeBlank behindBlank trailBlank short]

end Line

/-! ## Reading a section back -/

/-- The pairs of a section are taken in order. When the table of the section is
full the rest of its lines, which hold no pair, are not looked at. -/
theorem handleLines_body {pairs : List ConfPair} {lines : List (List Char)}
    (body : BodyLines pairs lines) : ∀ (current : ConfPairs),
    (∀ pair ∈ pairs, KeyToken pair.name) → (∀ pair ∈ pairs, Token pair.value) →
    current.pairs.length < confMaxNodeNum →
    current.pairs.length + pairs.length ≤ confMaxNodeNum →
    handleLines lines (some current) =
      .ok (some { current with pairs := current.pairs ++ pairs }) := by
  induction body with
  | done =>
      intro current _ _ _ _
      simp [handleLines_nil]
  | filler filler _ induction =>
      intro current keys values room total
      rw [handleLines_cons, handleLine_filler filler]
      exact induction current keys values room total
  | @pair pair pairs line lines written rest induction =>
      intro current keys values room total
      rw [List.length_cons] at total
      rw [handleLines_cons, handleLine_pairLine written (keys pair (List.mem_cons_self ..))
        (values pair (List.mem_cons_self ..)) room]
      by_cases last : current.pairs.length + 1 = confMaxNodeNum
      · have none : pairs = [] := List.length_eq_zero_iff.mp (by omega)
        rw [if_pos last, none]
        rfl
      · rw [if_neg last]
        have continues := induction { current with pairs := current.pairs ++ [pair] }
          (fun other member => keys other (List.mem_cons_of_mem _ member))
          (fun other member => values other (List.mem_cons_of_mem _ member))
          (by simp; omega) (by simp; omega)
        simpa [bind, Except.bind] using continues

section Scan

variable {μ : Type} (dialect : Dialect μ) {full : Bool} {tail : List Char}

theorem scanLines_filler {line : List Char} (filler : FillerLine line)
    (lines : List (List Char)) (block : Option (List (List Char))) (manager : μ) :
    scanLines dialect full tail (line :: lines) block manager =
      scanLines dialect full tail lines (block.map (· ++ [line])) manager := by
  apply scanLines_unmarked
  intro rest
  cases filler with
  | empty => simp
  | comment blank _ _ =>
      rw [dropWhile_blank blank _ (by decide)]
      simp

theorem PairLine.first {pair : ConfPair} {line : List Char} (written : PairLine pair line)
    (key : KeyToken pair.name) :
    ∃ first rest, line.dropWhile isBlank = first :: rest ∧ first ≠ '#' ∧ first ≠ '-' ∧
      first ≠ '@' := by
  cases written with
  | @mk lead before behind trail comment leadBlank _ _ _ _ _ _ =>
      rcases split : pair.name with _ | ⟨first, rest⟩
      · exact absurd split key.nonempty
      have inKey : first ∈ pair.name := by
        rw [split]
        simp
      refine ⟨first, rest ++ (before ++ '=' :: (behind ++ pair.value ++ trail) ++ comment), ?_,
        (key.clean first inKey).2.2.2.2.2, ?_, ?_⟩
      · have dropped := dropWhile_blank leadBlank first (key.solid first inKey)
          (rest ++ (before ++ '=' :: (behind ++ pair.value ++ trail) ++ comment))
        rw [← dropped]
        simp
      · rintro rfl
        exact key.noDash (by rw [split]; rfl)
      · rintro rfl
        exact key.noSwitch (by rw [split]; rfl)

theorem scanLines_pairLine {pair : ConfPair} {line : List Char} (written : PairLine pair line)
    (key : KeyToken pair.name) (lines content : List (List Char)) (manager : μ) :
    scanLines dialect full tail (line :: lines) (some content) manager =
      scanLines dialect full tail lines (some (content ++ [line])) manager := by
  rcases written.first key with ⟨first, rest, split, -, notDash, notSwitch⟩
  rw [scanLines_unmarked]
  · rfl
  · intro rest
    rw [split]
    simp [notDash, notSwitch]

theorem scanLines_body {pairs : List ConfPair} {body : List (List Char)}
    (written : BodyLines pairs body) (rest : List (List Char)) (manager : μ) :
    ∀ (content : List (List Char)), (∀ pair ∈ pairs, KeyToken pair.name) →
    scanLines dialect full tail (body ++ rest) (some content) manager =
      scanLines dialect full tail rest (some (content ++ body)) manager := by
  induction written with
  | done =>
      intro content _
      simp
  | @filler _ line _ filler _ induction =>
      intro content keys
      rw [List.cons_append, scanLines_filler dialect filler]
      simpa using induction (content ++ [line]) keys
  | @pair pair _ line _ writtenPair _ induction =>
      intro content keys
      rw [List.cons_append, scanLines_pairLine dialect writtenPair
        (keys pair (List.mem_cons_self ..))]
      simpa using induction (content ++ [line]) fun other member =>
        keys other (List.mem_cons_of_mem _ member)

theorem scanLines_section {confPairs : ConfPairs} {first last : List Char}
    {body : List (List Char)} (valid : WellFormed confPairs)
    (name : NameLine confPairs.modeName first) (written : BodyLines confPairs.pairs body)
    (ends : EndLine last) (rest : List (List Char)) (manager : μ) :
    scanLines dialect full tail (first :: (body ++ last :: rest)) none manager =
      scanLines dialect full tail rest none (dialect.insertPairs manager confPairs) := by
  cases name with
  | @mk lead gap trail comment leadBlank gapBlank trailBlank commented short lineShort =>
      have handled : handleLines ((gap ++ confPairs.modeName ++ trail ++ comment) :: body)
          none = .ok (some confPairs) := by
        rw [handleLines_cons, handleLine_nameLine valid.name gapBlank trailBlank commented
          (by simp at short ⊢; omega) (by simp at lineShort ⊢; omega)]
        exact handleLines_body written _ valid.keys valid.values
          (show 0 < confMaxNodeNum by decide) (by simpa using valid.count)
      have starts := dropWhile_blank leadBlank '-' (by decide)
        (gap ++ confPairs.modeName ++ trail ++ comment)
      simp only [List.append_assoc, List.cons_append] at handled starts ⊢
      rw [scanLines_opening dialect starts,
        scanLines_body dialect written (last :: rest) manager _ valid.keys]
      cases ends with
      | @mk endLead endTrail endComment endBlank _ _ _ =>
          have opened : (endLead ++ "-end".toList ++ endTrail ++ endComment).dropWhile isBlank =
              '-' :: ("end".toList ++ endTrail ++ endComment) := by
            have dropped := dropWhile_blank endBlank '-' (by decide)
              ("end".toList ++ endTrail ++ endComment)
            rw [← dropped]
            simp
          have closes : "-end".toList <+: '-' :: ("end".toList ++ endTrail ++ endComment) :=
            ⟨endTrail ++ endComment, by simp⟩
          rw [scanLines_closing dialect opened closes, List.singleton_append, handled]
          rfl

/-- Every written configuration is read back: its sections are inserted in order. -/
theorem scanLines_written {sections : List ConfPairs} {lines : List (List Char)}
    (written : SectionLines sections lines) :
    ∀ (manager : μ), (∀ confPairs ∈ sections, WellFormed confPairs) →
      scanLines dialect full [] lines none manager =
        .ok (.finished, sections.foldl dialect.insertPairs manager) := by
  induction written with
  | done =>
      intro manager _
      simp [scanLines_nil, scanTail, scanTailUsing]
  | filler filler _ induction =>
      intro manager valid
      rw [scanLines_filler dialect filler]
      exact induction manager valid
  | @block confPairs sections _ _ _ _ name body ends _ induction =>
      intro manager valid
      rw [scanLines_section dialect (valid confPairs (List.mem_cons_self ..)) name body ends]
      exact induction _ fun other member => valid other (List.mem_cons_of_mem _ member)

end Scan

end Lctools.Conf
