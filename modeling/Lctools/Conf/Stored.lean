import Lctools.Conf.Section

/-! # What is stored of a section

Every string that a section object holds is a token of the file: short enough
for its array, and free of the characters that delimit tokens, lines and
comments.
-/

namespace Lctools.Conf

open CString

/-- A string as the parser stores it. -/
structure StoredToken (token : List Char) : Prop where
  short : token.length ≤ 126
  noNul : nul ∉ token
  noSpace : ' ' ∉ token
  noTab : '\t' ∉ token
  noNewline : '\n' ∉ token
  noComment : '#' ∉ token

/-- A section object as the parser stores it; `cur_pos` is the number of pairs. -/
structure WellStored (confPairs : ConfPairs) : Prop where
  count : confPairs.pairs.length ≤ confMaxNodeNum
  modeName : StoredToken confPairs.modeName
  name : ∀ pair ∈ confPairs.pairs, StoredToken pair.name
  noEquals : ∀ pair ∈ confPairs.pairs, '=' ∉ pair.name
  value : ∀ pair ∈ confPairs.pairs, StoredToken pair.value

/-! ## Tokens -/

theorem chomp_sublist (token : List Char) : (chomp token).Sublist token := by
  rw [chomp]
  split_ifs
  · exact List.dropLast_sublist token
  · exact List.Sublist.refl token

theorem word_sublist (bytes : List Char) : (word bytes).Sublist (text bytes) :=
  (List.takeWhile_sublist _).trans (List.dropWhile_sublist _)

theorem isBlank_of_mem_word {bytes : List Char} {c : Char} (member : c ∈ word bytes) :
    isBlank c = false := by
  simpa using List.mem_takeWhile_imp member

/-- What a comment hides does not reach a token, also when a NUL in front of the
`#` hides the comment from `strchr`. -/
theorem comment_not_mem_significant (line : List Char) : '#' ∉ text (significant line) := by
  rw [significant]
  by_cases commented : '#' ∈ text line
  · rw [if_pos commented]
    split_ifs
    · simp [text]
    · intro member
      have inside := (List.takeWhile_sublist _).subset member
      simpa using List.mem_takeWhile_imp inside
  · rwa [if_neg commented]

theorem significant_sublist (line : List Char) : (significant line).Sublist line := by
  rw [significant]
  split_ifs
  · exact List.nil_sublist line
  · exact List.takeWhile_sublist _
  · exact List.Sublist.refl line

theorem storedToken_word {part : List Char} (lineClean : '\n' ∉ text part)
    (commentClean : '#' ∉ text part) (short : (word part).length < confStringMaxLen - 1) :
    StoredToken (chomp (word part)) := by
  have inside : ∀ c ∈ chomp (word part), c ∈ word part :=
    fun _ member => (chomp_sublist _).subset member
  have visible : ∀ c ∈ chomp (word part), c ∈ text part :=
    fun c member => (word_sublist _).subset (inside c member)
  refine ⟨?_, ?_, ?_, ?_, ?_, ?_⟩
  · have shorter := (chomp_sublist (word part)).length_le
    rw [confStringMaxLen] at short
    omega
  · exact fun member => nul_not_mem_text part (visible _ member)
  · intro member
    exact absurd (isBlank_of_mem_word (inside _ member)) (by decide)
  · intro member
    exact absurd (isBlank_of_mem_word (inside _ member)) (by decide)
  · exact fun member => lineClean (visible _ member)
  · exact fun member => commentClean (visible _ member)

/-! ## Pairs -/

section PairLine

variable {part : List Char}

theorem mem_text_of_keyPart {c : Char} (member : c ∈ text (keyPart part)) :
    c ∈ text part := by
  rw [text, keyPart] at member
  have split : part.takeWhile (· ≠ '=') ++ part.dropWhile (· ≠ '=') = part :=
    List.takeWhile_append_dropWhile
  have front : (text (part.takeWhile (· ≠ '='))) <+: text part := by
    conv_rhs => rw [← split]
    rw [text, text, List.takeWhile_append]
    split_ifs with whole
    · have same : (part.takeWhile (· ≠ '=')).takeWhile (· ≠ nul) = part.takeWhile (· ≠ '=') :=
        (List.takeWhile_prefix _).eq_of_length whole
      rw [same]
      exact List.prefix_append ..
    · exact List.prefix_rfl
  exact front.subset member

theorem mem_text_of_valuePart (paired : '=' ∈ text part) {c : Char}
    (member : c ∈ valuePart part) : c ∈ text part := by
  induction part with
  | nil => simp [text] at paired
  | cons head rest induction =>
      by_cases isNul : head = nul
      · simp [text, isNul] at paired
      have textCons : text (head :: rest) = head :: text rest := by
        simp [text, isNul]
      rw [textCons] at paired ⊢
      by_cases equals : head = '='
      · have behind : valuePart (head :: rest) = text rest := by
          simp [valuePart, equals]
        rw [behind] at member
        exact List.mem_cons_of_mem _ member
      · have later : '=' ∈ text rest := by
          rcases List.mem_cons.mp paired with same | later
          · exact absurd same.symm equals
          · exact later
        have behind : valuePart (head :: rest) = valuePart rest := by
          simp [valuePart, equals]
        rw [behind] at member
        exact List.mem_cons_of_mem _ (induction later member)

theorem equals_not_mem_word_keyPart : '=' ∉ word (keyPart part) := by
  intro member
  have inside := (List.takeWhile_sublist _).subset ((word_sublist _).subset member)
  simpa using List.mem_takeWhile_imp inside

theorem pairOf_stored (lineClean : '\n' ∉ text part) (commentClean : '#' ∉ text part)
    {pair : ConfPair} (read : pairOf part = some pair) :
    StoredToken pair.name ∧ '=' ∉ pair.name ∧ StoredToken pair.value := by
  rw [pairOf] at read
  split_ifs at read with taken
  cases read
  simp only [pairTaken, Bool.and_eq_true, decide_eq_true_eq] at taken
  rcases taken with ⟨⟨⟨-, paired⟩, keyShort⟩, valueShort⟩
  have valueText : text (valuePart part) = valuePart part := text_text _
  refine ⟨?_, ?_, ?_⟩
  · exact storedToken_word (fun member => lineClean (mem_text_of_keyPart member))
      (fun member => commentClean (mem_text_of_keyPart member)) keyShort
  · exact fun member => equals_not_mem_word_keyPart ((chomp_sublist _).subset member)
  · refine storedToken_word ?_ ?_ valueShort
    · rw [valueText]
      exact fun member => lineClean (mem_text_of_valuePart paired member)
    · rw [valueText]
      exact fun member => commentClean (mem_text_of_valuePart paired member)

end PairLine

/-! ## Sections -/

theorem WellStored.append {current : ConfPairs} (stored : WellStored current)
    (room : current.pairs.length < confMaxNodeNum) {pair : ConfPair}
    (token : StoredToken pair.name ∧ '=' ∉ pair.name ∧ StoredToken pair.value) :
    WellStored { current with pairs := current.pairs ++ [pair] } := by
  have each : ∀ {property : ConfPair → Prop}, (∀ old ∈ current.pairs, property old) →
      property pair → ∀ any ∈ current.pairs ++ [pair], property any := by
    intro property old new any member
    rcases List.mem_append.mp member with inside | last
    · exact old any inside
    · rw [List.mem_singleton.mp last]
      exact new
  refine ⟨?_, stored.modeName, each stored.name token.1, each stored.noEquals token.2.1,
    each stored.value token.2.2⟩
  rw [List.length_append, List.length_singleton]
  omega

theorem sectionOf_stored : ∀ (lines : List (List Char)) (start : Option ConfPairs)
    {confPairs : ConfPairs}, (∀ line ∈ lines, '\n' ∉ line) →
    (∀ current, start = some current →
      WellStored current ∧ current.pairs.length < confMaxNodeNum) →
    sectionOf lines start = some confPairs → WellStored confPairs
  | [], start, confPairs, _, stored, read => by
      rw [sectionOf] at read
      exact (stored confPairs read).1
  | line :: lines, start, confPairs, clean, stored, read => by
      have lineClean : '\n' ∉ text (significant line) := by
        intro member
        have inside := ((List.takeWhile_sublist _).trans (significant_sublist line)).subset member
        exact clean line (List.mem_cons_self ..) inside
      have commentClean := comment_not_mem_significant line
      have continues : ∀ next, (∀ current, next = some current →
            WellStored current ∧ current.pairs.length < confMaxNodeNum) →
          sectionOf lines next = some confPairs → WellStored confPairs :=
        fun next => sectionOf_stored lines next
          fun other member => clean other (List.mem_cons_of_mem _ member)
      rw [sectionOf.eq_def] at read
      simp only at read
      by_cases long : maxLineLen ≤ line.length
      · rw [if_pos long] at read
        exact (stored confPairs read).1
      by_cases absent : significant line = []
      · rw [if_neg long, if_pos absent] at read
        exact continues start stored read
      rw [if_neg long, if_neg absent] at read
      cases start with
      | none =>
          simp only at read
          split_ifs at read with taken
          refine continues _ ?_ read
          rintro current ⟨⟩
          have token := storedToken_word lineClean commentClean (of_decide_eq_true taken)
          exact ⟨⟨Nat.zero_le _, token, by simp, by simp, by simp⟩,
            show 0 < confMaxNodeNum by decide⟩
      | some current =>
          rcases stored current rfl with ⟨wellStored, room⟩
          rcases found : pairOf (significant line) with _ | pair
          · simp [found] at read
          have appended := wellStored.append room
            (pairOf_stored lineClean commentClean found)
          simp only [found] at read
          split_ifs at read with last
          · cases read
            exact appended
          · refine continues _ ?_ read
            rintro next ⟨⟩
            refine ⟨appended, ?_⟩
            rw [List.length_append, List.length_singleton]
            omega

section File

variable {μ : Type} (dialect : Dialect μ)

private theorem extended_clean {line : List Char} (lineClean : '\n' ∉ line)
    {block : Option (List (List Char))}
    (blockClean : ∀ content, block = some content → ∀ other ∈ content, '\n' ∉ other) :
    ∀ content, block.map (· ++ [line]) = some content → ∀ other ∈ content, '\n' ∉ other := by
  intro content equal other member
  rcases block with _ | previous
  · cases equal
  · cases equal
    rcases List.mem_append.mp member with old | new
    · exact blockClean previous rfl other old
    · rwa [List.mem_singleton.mp new]

/-- Every section that the scan of a file hands to the manager is well stored. -/
theorem sectionsRead_stored (lines : List (List Char)) (block : Option (List (List Char))) :
    (∀ line ∈ lines, '\n' ∉ line) →
    (∀ content, block = some content → ∀ line ∈ content, '\n' ∉ line) →
    ∀ confPairs ∈ sectionsRead dialect lines block, WellStored confPairs := by
  induction lines, block using scan_induction with
  | nil block => simp [sectionsRead]
  | unmarked line lines block unmarked induction =>
      intro clean blockClean
      rw [List.forall_mem_cons] at clean
      rw [sectionsRead_unmarked unmarked]
      exact induction clean.2 (extended_clean clean.1 blockClean)
  | switch line rest lines block starts induction =>
      intro clean blockClean
      rw [List.forall_mem_cons] at clean
      rw [sectionsRead_switch starts]
      split_ifs
      · simp
      · exact induction clean.2 (extended_clean clean.1 blockClean)
  | opening line rest lines starts induction =>
      intro clean _
      rw [List.forall_mem_cons] at clean
      rw [sectionsRead_opening starts]
      refine induction clean.2 ?_
      rintro _ ⟨⟩ other member newline
      rw [List.mem_singleton.mp member] at newline
      apply clean.1
      apply (List.dropWhile_sublist isBlank).subset
      rw [starts]
      exact List.mem_cons_of_mem _ newline
  | closing line rest lines content starts isEnd induction =>
      intro clean blockClean confPairs member
      rw [List.forall_mem_cons] at clean
      rw [sectionsRead_dash starts, if_pos isEnd, List.mem_append] at member
      rcases member with here | later
      · exact sectionOf_stored content none (blockClean content rfl) (by simp)
          (Option.mem_toList.mp here)
      · exact induction clean.2 (by simp) confPairs later
  | stray line rest lines content starts stray =>
      intro _ _
      rw [sectionsRead_dash starts, if_neg stray]
      simp

end File

end Lctools.Conf
