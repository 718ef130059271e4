import Lctools.Foundation.Lines
import Lctools.Foundation.Numerals
import Mathlib.Data.List.DropRight

/-! # `muduo/utils/ConfFileRead.cc`

The configuration of the muduo log: a level and a file size, read line by line. A
position `npos` is `none`.
-/

namespace Lctools.Muduo

open CString Numerals

/-! ## Strings -/

/-- `s.find(c)`. -/
def find (c : Char) (s : List Char) : Option ℕ :=
  s.findIdx? (· = c)

/-- `s.substr(0, pos)`. -/
def substrTo (s : List Char) : (pos : Option ℕ) → List Char
  | none => s
  | some pos => s.take pos

/-- `pos + 1`, which is 0 for `npos`. -/
def succPos : Option ℕ → ℕ
  | none => 0
  | some pos => pos + 1

/-- `s.find_first_not_of(c)`. -/
def findFirstNotOf (c : Char) (s : List Char) : Option ℕ :=
  s.findIdx? (· ≠ c)

/-- `s.find_last_not_of(c)`. -/
def findLastNotOf (c : Char) (s : List Char) : Option ℕ :=
  (s.reverse.findIdx? (· ≠ c)).map fun distance => s.length - 1 - distance

/-- `s.erase(0, n)`. -/
def eraseFront (s : List Char) : (n : Option ℕ) → List Char
  | none => []
  | some n => s.drop n

/-- The two calls of `erase` for one character. -/
def trimChar (c : Char) (s : List Char) : List Char :=
  let s := eraseFront s (findFirstNotOf c s)
  s.take (succPos (findLastNotOf c s))

def trim (s : List Char) : List Char :=
  if s.isEmpty then s else trimChar '\t' (trimChar ' ' s)

/-! ## The program -/

/-- `level_` and `LogFileSize_`. -/
structure ConfFile where
  level : ℤ
  logFileSize : ℤ
  deriving DecidableEq, Repr

/-- The arguments that the constructor has by default. -/
def ConfFile.default : ConfFile := ⟨2, 524288000⟩

def logLevelKey : List Char := "LOG_LEVEL".toList
def fileSizeKey : List Char := "FILE_SIZE".toList

/-- The level of a number; the source allows 0, 1 and 2. -/
def levelOf (number : ℤ) : ℤ :=
  if number < 0 ∨ number > 2 then 3 else number

def fileSizeOf (number : ℤ) : ℤ :=
  if number ≤ 8000000 then 524288000 else number

/-- The line before a `#`. -/
def fullLine (strLine : List Char) : List Char :=
  substrTo strLine (find '#' strLine)

def keyOf (strLine : List Char) : List Char :=
  trim (substrTo (fullLine strLine) (find '=' (fullLine strLine)))

def valueOf (strLine : List Char) : ℤ :=
  atoi (trim ((fullLine strLine).drop (succPos (find '=' (fullLine strLine)))))

def readLine (conf : ConfFile) (strLine : List Char) : ConfFile :=
  if keyOf strLine = logLevelKey then { conf with level := levelOf (valueOf strLine) }
  else if keyOf strLine = fileSizeKey then
    { conf with logFileSize := fileSizeOf (valueOf strLine) }
  else conf

/-- The constructor; `none` is a file that cannot be opened. -/
def confFileRead (file : Option (List Char)) (conf : ConfFile) : ConfFile :=
  match file with
  | none => conf
  | some content => (Lines.pieces '\n' content).foldl readLine conf

/-! ## Meaning -/

inductive Key where
  | logLevel
  | fileSize
  deriving DecidableEq, Repr

def Key.name : Key → List Char
  | .logLevel => logLevelKey
  | .fileSize => fileSizeKey

def Key.setting : Key → ℤ → ℤ
  | .logLevel => levelOf
  | .fileSize => fileSizeOf

/-- `GetLevel` and `GetFileSize`. -/
def ConfFile.get (conf : ConfFile) : Key → ℤ
  | .logLevel => conf.level
  | .fileSize => conf.logFileSize

/-- What lines say about a key: the last of them counts. -/
def lastSetting (key : Key) (lines : List (List Char)) (standing : ℤ) : ℤ :=
  match lines.reverse.find? (keyOf · = key.name) with
  | none => standing
  | some line => key.setting (valueOf line)

/-- To give the key this value between the lines does not matter: a later line has the same
key, or the lines before give it the same value. -/
def Idle (key : Key) (value : ℤ) (before after : List (List Char)) (conf : ConfFile) : Prop :=
  (∃ line ∈ after, keyOf line = key.name) ∨ lastSetting key before (conf.get key) = value

/-- A line that assigns to a key, with a comment or without. -/
structure Assignment where
  key : Key
  value : List Char
  comment : List Char
  valueClean : '#' ∉ value
  commented : comment = [] ∨ ∃ rest, comment = '#' :: rest

/-- Spaces and tabs around the key and the value of a line. -/
structure Padding where
  beforeKey : List Char
  afterKey : List Char
  beforeValue : List Char
  afterValue : List Char
  blank : ∀ c ∈ beforeKey ++ afterKey ++ beforeValue ++ afterValue, isBlank c = true

def Assignment.padded (assignment : Assignment) (padding : Padding) : List Char :=
  padding.beforeKey ++ assignment.key.name ++ padding.afterKey ++
    '=' :: (padding.beforeValue ++ assignment.value ++ padding.afterValue) ++ assignment.comment

/-- The blanks in front of the key are spaces and then tabs, and those behind it are tabs
and then spaces. -/
def Padding.Stripped (padding : Padding) : Prop :=
  (∃ spaces tabs, padding.beforeKey = List.replicate spaces ' ' ++ List.replicate tabs '\t') ∧
    ∃ tabs spaces, padding.afterKey = List.replicate tabs '\t' ++ List.replicate spaces ' '

/-! ## Trimming -/

theorem eraseFront_eq (c : Char) (s : List Char) :
    eraseFront s (findFirstNotOf c s) = s.dropWhile (· = c) := by
  unfold findFirstNotOf
  induction s with
  | nil => rfl
  | cons first rest induction =>
      rw [List.findIdx?_cons, List.dropWhile_cons]
      by_cases same : first = c
      · rw [if_neg (by simp [same]), if_pos (by simp [same]), ← induction]
        cases rest.findIdx? (· ≠ c) with
        | none => rfl
        | some distance => rfl
      · rw [if_pos (by simp [same]), if_neg (by simp [same])]
        rfl

theorem take_succPos_eq (c : Char) (s : List Char) :
    s.take (succPos (findLastNotOf c s)) = s.rdropWhile (· = c) := by
  have reversed := eraseFront_eq c s.reverse
  unfold findFirstNotOf at reversed
  rw [List.rdropWhile, ← reversed]
  unfold findLastNotOf
  cases found : s.reverse.findIdx? (· ≠ c) with
  | none => rfl
  | some distance =>
      have inside : distance < s.length := by
        rw [← List.length_reverse]
        exact (List.findIdx?_eq_some_iff_getElem.mp found).1
      simp only [Option.map_some, succPos, eraseFront]
      rw [List.drop_reverse, List.reverse_reverse]
      congr 1
      omega

theorem trimChar_eq (c : Char) (s : List Char) :
    trimChar c s = (s.dropWhile (· = c)).rdropWhile (· = c) := by
  rw [trimChar, eraseFront_eq, take_succPos_eq]

theorem trim_eq (s : List Char) : trim s = trimChar '\t' (trimChar ' ' s) := by
  rw [trim]
  split
  · next empty =>
      rw [List.isEmpty_iff.mp empty]
      rfl
  · rfl

section Around

variable {c : Char} {lead core trail : List Char} (nonempty : core ≠ []) (solid : c ∉ core)

include nonempty solid

theorem dropWhile_before (rest : List Char) :
    (lead ++ (core ++ rest)).dropWhile (· = c) = lead.dropWhile (· = c) ++ (core ++ rest) := by
  have stops : (core ++ rest).dropWhile (· = c) = core ++ rest := by
    cases core with
    | nil => exact absurd rfl nonempty
    | cons head tail =>
        have other : head ≠ c := fun same => solid (same ▸ List.mem_cons_self ..)
        rw [List.cons_append, List.dropWhile_cons_of_neg (by simpa using other)]
  rw [List.dropWhile_append]
  split
  · next gone => rw [List.isEmpty_iff.mp gone, stops, List.nil_append]
  · rfl

theorem rdropWhile_behind :
    (lead ++ core ++ trail).rdropWhile (· = c) = lead ++ core ++ trail.rdropWhile (· = c) := by
  have turned := @dropWhile_before c trail.reverse core.reverse (by simpa using nonempty)
    (by simpa using solid) lead.reverse
  rw [List.rdropWhile, List.reverse_append, List.reverse_append, turned, List.rdropWhile]
  simp

theorem trimChar_around :
    trimChar c (lead ++ core ++ trail) =
      lead.dropWhile (· = c) ++ core ++ trail.rdropWhile (· = c) := by
  rw [trimChar_eq, List.append_assoc, dropWhile_before nonempty solid, ← List.append_assoc,
    rdropWhile_behind nonempty solid]

end Around

def leftBefore (lead : List Char) : List Char :=
  (lead.dropWhile (· = ' ')).dropWhile (· = '\t')

def leftBehind (trail : List Char) : List Char :=
  (trail.rdropWhile (· = ' ')).rdropWhile (· = '\t')

theorem trim_around {lead core trail : List Char} (nonempty : core ≠ [])
    (solid : ∀ c ∈ core, isBlank c = false) :
    trim (lead ++ core ++ trail) = leftBefore lead ++ core ++ leftBehind trail := by
  have noSpace : ' ' ∉ core := fun member => absurd (solid ' ' member) (by decide)
  have noTab : '\t' ∉ core := fun member => absurd (solid '\t' member) (by decide)
  rw [trim_eq, trimChar_around nonempty noSpace, trimChar_around nonempty noTab]
  rfl

theorem leftBefore_eq_nil_iff (lead : List Char) :
    leftBefore lead = [] ↔
      ∃ spaces tabs, lead = List.replicate spaces ' ' ++ List.replicate tabs '\t' := by
  constructor
  · intro gone
    refine ⟨(lead.takeWhile (· = ' ')).length, (lead.dropWhile (· = ' ')).length, ?_⟩
    have spaces : lead.takeWhile (· = ' ') =
        List.replicate (lead.takeWhile (· = ' ')).length ' ' := by
      apply List.eq_replicate_of_mem
      intro c member
      simpa using List.mem_takeWhile_imp member
    have tabs : lead.dropWhile (· = ' ') =
        List.replicate (lead.dropWhile (· = ' ')).length '\t' := by
      apply List.eq_replicate_of_mem
      intro c member
      simpa using List.dropWhile_eq_nil_iff.mp gone c member
    rw [← spaces, ← tabs, List.takeWhile_append_dropWhile]
  · rintro ⟨spaces, tabs, rfl⟩
    unfold leftBefore
    rw [List.dropWhile_append_of_pos (by simp)]
    apply List.dropWhile_eq_nil_iff.mpr
    intro c member
    have inTabs := (List.dropWhile_suffix _).mem member
    simpa using List.eq_of_mem_replicate inTabs

theorem leftBehind_eq_reverse (trail : List Char) :
    leftBehind trail = (leftBefore trail.reverse).reverse := by
  simp [leftBehind, leftBefore, List.rdropWhile]

theorem leftBehind_eq_nil_iff (trail : List Char) :
    leftBehind trail = [] ↔
      ∃ tabs spaces, trail = List.replicate tabs '\t' ++ List.replicate spaces ' ' := by
  rw [leftBehind_eq_reverse, List.reverse_eq_nil_iff, leftBefore_eq_nil_iff]
  constructor
  · rintro ⟨spaces, tabs, turned⟩
    refine ⟨tabs, spaces, ?_⟩
    rw [← List.reverse_reverse trail, turned]
    simp
  · rintro ⟨tabs, spaces, rfl⟩
    exact ⟨spaces, tabs, by simp⟩

theorem isSpace_of_isBlank {c : Char} (blank : isBlank c = true) : isSpace c = true := by
  rw [isBlank, Bool.or_eq_true, beq_iff_eq, beq_iff_eq] at blank
  rcases blank with rfl | rfl
  · decide
  · decide

theorem atoi_trimChar {c : Char} (space : isSpace c = true) (s : List Char) :
    atoi (trimChar c s) = atoi s := by
  have split : s = s.takeWhile (· = c) ++ trimChar c s ++
      (s.dropWhile (· = c)).rtakeWhile (· = c) := by
    rw [trimChar_eq, List.append_assoc, List.rdropWhile_append_rtakeWhile,
      List.takeWhile_append_dropWhile]
  have before : ∀ d ∈ s.takeWhile (· = c), isSpace d = true := by
    intro d member
    have same : d = c := by simpa using List.mem_takeWhile_imp member
    rw [same, space]
  have behind : ∀ d ∈ (s.dropWhile (· = c)).rtakeWhile (· = c), isSpace d = true := by
    intro d member
    have same : d = c := by simpa using List.mem_rtakeWhile_imp member
    rw [same, space]
  have padded := atoi_spaces before behind (trimChar c s)
  rw [← split] at padded
  exact padded.symm

theorem atoi_trim (s : List Char) : atoi (trim s) = atoi s := by
  rw [trim_eq, atoi_trimChar (by decide), atoi_trimChar (by decide)]

/-! ## Lines -/

theorem substrTo_find (c : Char) (s : List Char) : substrTo s (find c s) = s.takeWhile (· ≠ c) := by
  unfold find
  induction s with
  | nil => rfl
  | cons first rest induction =>
      rw [List.findIdx?_cons, List.takeWhile_cons]
      by_cases same : first = c
      · rw [if_pos (by simp [same]), if_neg (by simp [same])]
        rfl
      · rw [if_neg (by simp [same]), if_pos (by simp [same]), ← induction]
        cases rest.findIdx? (· = c) with
        | none => rfl
        | some distance => rfl

theorem find_of_absent {c : Char} {s : List Char} (absent : c ∉ s) : find c s = none := by
  apply List.findIdx?_eq_none_iff.mpr
  intro d member
  simp only [decide_eq_false_iff_not]
  rintro rfl
  exact absent member

theorem find_append {c : Char} {front : List Char} (absent : c ∉ front) (rest : List Char) :
    find c (front ++ c :: rest) = some front.length := by
  induction front with
  | nil =>
      rw [find, List.nil_append, List.findIdx?_cons, if_pos (decide_eq_true rfl)]
      rfl
  | cons first front induction =>
      rw [List.mem_cons, not_or] at absent
      have later := induction absent.2
      unfold find at later ⊢
      rw [List.cons_append, List.findIdx?_cons, if_neg (by simpa using Ne.symm absent.1), later]
      rfl

theorem fullLine_comment {body comment : List Char} (clean : '#' ∉ body)
    (commented : comment = [] ∨ ∃ rest, comment = '#' :: rest) :
    fullLine (body ++ comment) = body := by
  rw [fullLine, substrTo_find, List.takeWhile_append_of_pos (all_ne_of_not_mem clean)]
  rcases commented with rfl | ⟨rest, rfl⟩
  · rw [List.takeWhile_nil, List.append_nil]
  · rw [List.takeWhile_cons_of_neg (by decide), List.append_nil]

section Assigned

variable {front value comment : List Char} (noSign : '=' ∉ front)
  (clean : '#' ∉ front ++ '=' :: value) (commented : comment = [] ∨ ∃ rest, comment = '#' :: rest)

include noSign clean commented

theorem keyOf_assigned : keyOf (front ++ '=' :: value ++ comment) = trim front := by
  rw [keyOf, fullLine_comment clean commented, find_append noSign, substrTo,
    List.take_left]

theorem valueOf_assigned : valueOf (front ++ '=' :: value ++ comment) = atoi value := by
  rw [valueOf, fullLine_comment clean commented, find_append noSign, atoi_trim, succPos,
    ← List.drop_drop, List.drop_left, List.drop_one, List.tail_cons]

end Assigned

theorem Key.name_solid (key : Key) :
    key.name ≠ [] ∧ (∀ c ∈ key.name, isBlank c = false) ∧ '=' ∉ key.name ∧ '#' ∉ key.name := by
  have noBlank : ∀ s : List Char, s.all (fun c => !isBlank c) = true →
      ∀ c ∈ s, isBlank c = false := by
    intro s solid c member
    simpa using List.all_eq_true.mp solid c member
  cases key with
  | logLevel => exact ⟨by decide, noBlank logLevelKey (by decide), by decide, by decide⟩
  | fileSize => exact ⟨by decide, noBlank fileSizeKey (by decide), by decide, by decide⟩

theorem Key.name_injective : Function.Injective Key.name := by
  intro key other same
  have apart : logLevelKey ≠ fileSizeKey := by decide
  cases key with
  | logLevel =>
      cases other with
      | logLevel => rfl
      | fileSize => exact absurd same apart
  | fileSize =>
      cases other with
      | logLevel => exact absurd same.symm apart
      | fileSize => rfl

theorem name_of_padded {lead name trail : List Char} {key : Key}
    (before : ∀ c ∈ lead, isBlank c = true) (behind : ∀ c ∈ trail, isBlank c = true)
    (same : lead ++ name ++ trail = key.name) : lead = [] ∧ trail = [] := by
  have solid := key.name_solid.2.1
  have noBlank : ∀ part : List Char, (∀ c ∈ part, isBlank c = true) → (∀ c ∈ part, c ∈ key.name) →
      part = [] := by
    intro part blank inside
    apply List.eq_nil_iff_forall_not_mem.mpr
    intro c member
    exact absurd (blank c member) (by rw [solid c (inside c member)]; decide)
  constructor
  · apply noBlank lead before
    intro c member
    rw [← same]
    simp [member]
  · apply noBlank trail behind
    intro c member
    rw [← same]
    simp [member]

theorem leftBefore_subset (lead : List Char) {c : Char} (member : c ∈ leftBefore lead) : c ∈ lead :=
  (List.dropWhile_suffix _).mem ((List.dropWhile_suffix _).mem member)

theorem leftBehind_subset (trail : List Char) {c : Char} (member : c ∈ leftBehind trail) :
    c ∈ trail := by
  rw [leftBehind_eq_reverse, List.mem_reverse] at member
  exact List.mem_reverse.mp (leftBefore_subset _ member)

section Padded

variable (assignment : Assignment) (padding : Padding)

theorem Padding.no_sign {c : Char} (notBlank : isBlank c = false) :
    c ∉ padding.beforeKey ∧ c ∉ padding.afterKey ∧ c ∉ padding.beforeValue ∧
      c ∉ padding.afterValue := by
  have absent : c ∉ padding.beforeKey ++ padding.afterKey ++ padding.beforeValue ++
      padding.afterValue := by
    intro member
    have blank := padding.blank c member
    rw [notBlank] at blank
    cases blank
  simpa [not_or, and_assoc] using absent

theorem Assignment.padded_clean :
    '=' ∉ padding.beforeKey ++ assignment.key.name ++ padding.afterKey ∧
    '#' ∉ padding.beforeKey ++ assignment.key.name ++ padding.afterKey ++
      '=' :: (padding.beforeValue ++ assignment.value ++ padding.afterValue) := by
  rcases assignment.key.name_solid with ⟨_, _, noSign, noComment⟩
  rcases padding.no_sign (show isBlank '=' = false by decide) with ⟨before, after, _, _⟩
  rcases padding.no_sign (show isBlank '#' = false by decide) with
    ⟨beforeKey, afterKey, beforeValue, afterValue⟩
  constructor
  · simp [noSign, before, after]
  · simp [noComment, beforeKey, afterKey, beforeValue, afterValue, assignment.valueClean]

theorem Assignment.keyOf_padded : keyOf (assignment.padded padding) =
    leftBefore padding.beforeKey ++ assignment.key.name ++ leftBehind padding.afterKey := by
  rcases assignment.padded_clean padding with ⟨noSign, clean⟩
  rcases assignment.key.name_solid with ⟨nonempty, solid, _, _⟩
  rw [Assignment.padded, keyOf_assigned noSign clean assignment.commented,
    trim_around nonempty solid]

theorem Assignment.valueOf_padded :
    valueOf (assignment.padded padding) = atoi assignment.value := by
  rcases assignment.padded_clean padding with ⟨noSign, clean⟩
  rw [Assignment.padded, valueOf_assigned noSign clean assignment.commented]
  apply atoi_spaces
  · intro c member
    exact isSpace_of_isBlank (padding.blank c (by simp [member]))
  · intro c member
    exact isSpace_of_isBlank (padding.blank c (by simp [member]))

/-- The line names its key exactly if the blanks around the key are trimmed, and no other
key ever. -/
theorem Assignment.keyOf_padded_eq_iff (key : Key) :
    keyOf (assignment.padded padding) = key.name ↔ key = assignment.key ∧ padding.Stripped := by
  rw [assignment.keyOf_padded, Padding.Stripped, ← leftBefore_eq_nil_iff, ← leftBehind_eq_nil_iff]
  constructor
  · intro same
    have before : ∀ c ∈ leftBefore padding.beforeKey, isBlank c = true := fun c member =>
      padding.blank c (by simp [leftBefore_subset _ member])
    have behind : ∀ c ∈ leftBehind padding.afterKey, isBlank c = true := fun c member =>
      padding.blank c (by simp [leftBehind_subset _ member])
    rcases name_of_padded before behind same with ⟨noLead, noTrail⟩
    rw [noLead, noTrail, List.nil_append, List.append_nil] at same
    exact ⟨Key.name_injective same.symm, noLead, noTrail⟩
  · rintro ⟨rfl, noLead, noTrail⟩
    rw [noLead, noTrail, List.nil_append, List.append_nil]

end Padded

/-! ## Every text -/

theorem ConfFile.eq_iff_get (conf other : ConfFile) :
    conf = other ↔ ∀ key, conf.get key = other.get key := by
  constructor
  · rintro rfl key
    rfl
  · intro same
    rcases conf with ⟨level, logFileSize⟩
    rcases other with ⟨otherLevel, otherSize⟩
    have sameLevel : level = otherLevel := same .logLevel
    have sameSize : logFileSize = otherSize := same .fileSize
    rw [sameLevel, sameSize]

theorem get_readLine (conf : ConfFile) (line : List Char) (key : Key) :
    (readLine conf line).get key =
      if keyOf line = key.name then key.setting (valueOf line) else conf.get key := by
  have apart : logLevelKey ≠ fileSizeKey := by decide
  rw [readLine]
  by_cases isLevel : keyOf line = logLevelKey
  · rw [if_pos isLevel, isLevel]
    cases key with
    | logLevel => simp [Key.name, ConfFile.get, Key.setting]
    | fileSize => simp [Key.name, ConfFile.get, apart]
  · rw [if_neg isLevel]
    by_cases isSize : keyOf line = fileSizeKey
    · rw [if_pos isSize, isSize]
      cases key with
      | logLevel => simp [Key.name, ConfFile.get, apart.symm]
      | fileSize => simp [Key.name, ConfFile.get, Key.setting]
    · rw [if_neg isSize]
      cases key with
      | logLevel => simp [Key.name, isLevel]
      | fileSize => simp [Key.name, isSize]

theorem lastSetting_concat (key : Key) (lines : List (List Char)) (line : List Char)
    (standing : ℤ) :
    lastSetting key (lines ++ [line]) standing =
      if keyOf line = key.name then key.setting (valueOf line)
      else lastSetting key lines standing := by
  rw [lastSetting, List.reverse_append, List.reverse_singleton, List.singleton_append]
  by_cases named : keyOf line = key.name
  · rw [if_pos named, List.find?_cons_of_pos (by simpa using named)]
  · rw [if_neg named, List.find?_cons_of_neg (by simpa using named), lastSetting]

theorem get_foldl_readLine (key : Key) (conf : ConfFile) (lines : List (List Char)) :
    (lines.foldl readLine conf).get key = lastSetting key lines (conf.get key) := by
  induction lines using List.reverseRecOn with
  | nil => rfl
  | append_singleton lines line induction =>
      rw [List.foldl_append, List.foldl_cons, List.foldl_nil, get_readLine, lastSetting_concat,
        induction]

theorem lastSetting_eq_iff (key : Key) (lines : List (List Char)) (standing other : ℤ) :
    lastSetting key lines standing = lastSetting key lines other ↔
      (∃ line ∈ lines, keyOf line = key.name) ∨ standing = other := by
  rw [lastSetting, lastSetting]
  cases found : lines.reverse.find? (keyOf · = key.name) with
  | none =>
      have unnamed : ¬∃ line ∈ lines, keyOf line = key.name := by
        rintro ⟨line, member, named⟩
        have differs := List.find?_eq_none.mp found line (List.mem_reverse.mpr member)
        exact differs (decide_eq_true named)
      simp [unnamed]
  | some line =>
      have member := List.mem_reverse.mp (List.mem_of_find?_eq_some found)
      have named : keyOf line = key.name := by simpa using List.find?_some found
      simp only [true_iff]
      exact .inl ⟨line, member, named⟩

theorem foldl_readLine_eq_iff (conf other : ConfFile) (lines : List (List Char)) :
    lines.foldl readLine conf = lines.foldl readLine other ↔
      ∀ key, (∃ line ∈ lines, keyOf line = key.name) ∨ conf.get key = other.get key := by
  rw [ConfFile.eq_iff_get]
  apply forall_congr'
  intro key
  rw [get_foldl_readLine, get_foldl_readLine, lastSetting_eq_iff]

theorem Assignment.get_readLine_padded (assignment : Assignment) (padding : Padding)
    [Decidable padding.Stripped] (conf : ConfFile) (key : Key) :
    (readLine conf (assignment.padded padding)).get key =
      if key = assignment.key ∧ padding.Stripped then
        assignment.key.setting (atoi assignment.value)
      else conf.get key := by
  rw [get_readLine, assignment.valueOf_padded]
  by_cases named : key = assignment.key ∧ padding.Stripped
  · rw [if_pos named, if_pos ((assignment.keyOf_padded_eq_iff padding key).mpr named), named.1]
  · rw [if_neg named, if_neg (mt (assignment.keyOf_padded_eq_iff padding key).mp named)]

/-- Other blanks in one line of a text are not seen exactly if the key is trimmed with both
or with neither, or if the line does not matter. -/
theorem foldl_readLine_padded_iff (assignment : Assignment) (written changed : Padding)
    (before after : List (List Char)) (conf : ConfFile) :
    (before ++ assignment.padded changed :: after).foldl readLine conf =
        (before ++ assignment.padded written :: after).foldl readLine conf ↔
      (changed.Stripped ↔ written.Stripped) ∨
        Idle assignment.key (assignment.key.setting (atoi assignment.value)) before after conf := by
  classical
  rw [List.foldl_append, List.foldl_append, List.foldl_cons, List.foldl_cons,
    foldl_readLine_eq_iff]
  simp only [assignment.get_readLine_padded, get_foldl_readLine]
  constructor
  · intro same
    by_cases alike : changed.Stripped ↔ written.Stripped
    · exact .inl alike
    · right
      rcases same assignment.key with later | equal
      · exact .inl later
      · right
        by_cases stripped : written.Stripped
        · have mixed : ¬changed.Stripped := fun other => alike (iff_of_true other stripped)
          simpa [stripped, mixed] using equal
        · have trimmed : changed.Stripped := by
            by_contra other
            exact alike (iff_of_false other stripped)
          simpa [stripped, trimmed] using equal.symm
  · rintro (alike | later | equal) key
    · right
      simp only [alike]
    · by_cases sameKey : key = assignment.key
      · rw [sameKey]
        exact .inl later
      · right
        simp [sameKey]
    · right
      by_cases sameKey : key = assignment.key
      · rw [sameKey, equal, ite_self, ite_self]
      · simp [sameKey]

/-- A line without `=` is its own value, and no key is a number. -/
theorem setting_valueOf_of_no_sign {line : List Char} (noSign : '=' ∉ fullLine line) {key : Key}
    (named : trim (fullLine line) = key.name) :
    key.setting (valueOf line) = key.setting 0 := by
  have value : valueOf line = atoi key.name := by
    rw [valueOf, find_of_absent noSign, succPos, List.drop_zero, named]
  have zero : atoi key.name = 0 := by
    cases key with
    | logLevel => decide
    | fileSize => decide
  rw [value, zero]

theorem foldl_readLine_no_sign_iff {line : List Char} (noSign : '=' ∉ fullLine line)
    (before after : List (List Char)) (conf : ConfFile) :
    (before ++ line :: after).foldl readLine conf = (before ++ [] :: after).foldl readLine conf ↔
      ∀ key : Key, trim (fullLine line) = key.name →
        Idle key (key.setting 0) before after conf := by
  have ownKey : keyOf line = trim (fullLine line) := by
    rw [keyOf, find_of_absent noSign, substrTo]
  have empty : readLine (before.foldl readLine conf) [] = before.foldl readLine conf := rfl
  rw [List.foldl_append, List.foldl_append, List.foldl_cons, List.foldl_cons, empty,
    foldl_readLine_eq_iff]
  apply forall_congr'
  intro key
  rw [get_readLine, get_foldl_readLine, ownKey, Idle]
  by_cases named : trim (fullLine line) = key.name
  · rw [if_pos named, setting_valueOf_of_no_sign noSign named, eq_comm]
    simp only [named, forall_true_left]
  · simp [named]

/-- The two values are what they are without the blanks exactly if the blanks around the key
are trimmed, and what they are with an empty line in place of one without `=` exactly if this
is no key, unless the line does not matter. -/
theorem confFileRead_unchanged_iff (conf : ConfFile) (assignment : Assignment)
    (written changed : Padding) {plain padded : List Char} {before after : List (List Char)}
    (plainLines : Lines.pieces '\n' plain = before ++ assignment.padded written :: after)
    (paddedLines : Lines.pieces '\n' padded = before ++ assignment.padded changed :: after)
    {line content emptied : List Char} {earlier later : List (List Char)}
    (noSign : '=' ∉ fullLine line)
    (contentLines : Lines.pieces '\n' content = earlier ++ line :: later)
    (emptiedLines : Lines.pieces '\n' emptied = earlier ++ [] :: later) :
    (confFileRead (some padded) conf = confFileRead (some plain) conf ↔
      (changed.Stripped ↔ written.Stripped) ∨
        Idle assignment.key (assignment.key.setting (atoi assignment.value)) before after conf) ∧
    (confFileRead (some content) conf = confFileRead (some emptied) conf ↔
      ∀ key : Key, trim (fullLine line) = key.name →
        Idle key (key.setting 0) earlier later conf) := by
  simp only [confFileRead, plainLines, paddedLines, contentLines, emptiedLines]
  constructor
  · apply foldl_readLine_padded_iff
  · apply foldl_readLine_no_sign_iff noSign

def sampleAssignment : Assignment where
  key := .logLevel
  value := ['1']
  comment := []
  valueClean := by decide
  commented := .inl rfl

def noPadding : Padding where
  beforeKey := []
  afterKey := []
  beforeValue := []
  afterValue := []
  blank := by simp

def strippedPadding : Padding where
  beforeKey := [' ', ' ', '\t']
  afterKey := ['\t', ' ']
  beforeValue := ['\t', ' ', '\t']
  afterValue := [' ']
  blank := by simp [isBlank]

theorem confFileRead_unchanged_level :
    confFileRead (some "  \tLOG_LEVEL\t =\t \t1 \nlevel".toList) .default =
        confFileRead (some "LOG_LEVEL=1\nlevel".toList) .default ∧
      confFileRead (some "LOG_LEVEL=1\nlevel".toList) .default =
        confFileRead (some "LOG_LEVEL=1\n".toList) .default := by
  have unchanged := confFileRead_unchanged_iff .default sampleAssignment noPadding strippedPadding
    (show Lines.pieces '\n' "LOG_LEVEL=1\nlevel".toList =
      [] ++ sampleAssignment.padded noPadding :: ["level".toList] by decide)
    (show Lines.pieces '\n' "  \tLOG_LEVEL\t =\t \t1 \nlevel".toList =
      [] ++ sampleAssignment.padded strippedPadding :: ["level".toList] by decide)
    (show '=' ∉ fullLine "level".toList by decide)
    (show Lines.pieces '\n' "LOG_LEVEL=1\nlevel".toList =
      ["LOG_LEVEL=1".toList] ++ "level".toList :: [] by decide)
    (show Lines.pieces '\n' "LOG_LEVEL=1\n".toList =
      ["LOG_LEVEL=1".toList] ++ [] :: [] by decide)
  constructor
  · apply unchanged.1.mpr
    left
    exact iff_of_true ⟨⟨2, 1, rfl⟩, 1, 1, rfl⟩ ⟨⟨0, 0, rfl⟩, 0, 0, rfl⟩
  · apply unchanged.2.mpr
    intro key named
    cases key with
    | logLevel => exact absurd named (by decide)
    | fileSize => exact absurd named (by decide)

/-- A tab in front of a space stays in the key, and a key alone is taken as a zero. -/
theorem confFileRead_changed :
    confFileRead (some "\t LOG_LEVEL=1".toList) .default ≠
        confFileRead (some "LOG_LEVEL=1".toList) .default ∧
      confFileRead (some "LOG_LEVEL".toList) .default ≠
        confFileRead (some "".toList) .default := by
  decide

end Lctools.Muduo
