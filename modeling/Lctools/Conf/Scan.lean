import Lctools.Conf.Block
import Lctools.Foundation.HashTable

/-! # The file level of the parsers

The loop over the lines of a configuration file in `get_conf_info_from_file`
and `log_get_conf_info_from_file`. The two differ in the name of the switch, in
how they read its value and in what they do to the manager; a `Dialect` holds
these differences.
-/

namespace Lctools.Conf

open Buffer CString

/-! ## The table of sections -/

/-- A key of `iri_conf`: the `mode_name` inside the section object `owner`, and
the text it held when it was inserted. -/
structure Key where
  owner : ℕ
  text : List Char
  deriving DecidableEq, Repr

/-- A value of `iri_conf`: a section object, numbered by its allocation. -/
structure Node where
  address : ℕ
  confPairs : ConfPairs
  deriving DecidableEq, Repr

/-- `iri_conf`, a table with `g_str_equal` on the keys and no key destructor. -/
abbrev SectionTable := List (Key × Node)

/-- `g_hash_table_insert(iri_conf, conf_pairs->mode_name, conf_pairs)` for the
section object `address`. -/
def insertNewNode (table : SectionTable) (address : ℕ) (confPairs : ConfPairs) :
    SectionTable :=
  HashTable.insert Key.text ⟨address, confPairs.modeName⟩ ⟨address, confPairs⟩ table

/-- `g_hash_table_lookup(iri_conf, mode_name)`. -/
def lookupSection (table : SectionTable) (modeName : List Char) : Option ConfPairs :=
  (HashTable.lookup Key.text modeName table).map Node.confPairs

/-- What `fopen` and `malloc` give for a configuration file. `fread` cannot
report an error: its result is never negative. -/
inductive ConfFile where
  | missing
  | noMemory
  | readable (content : List Char)
  deriving DecidableEq, Repr

/-! ## The program -/

/-- What distinguishes the two parsers, for a manager of type `μ`. -/
structure Dialect (μ : Type) where
  /-- The text that marks a switch line. -/
  switchStr : List Char
  /-- The number read from the character after the `=`. -/
  level : Char → ℤ
  /-- A section was read: insert it and count it. -/
  insertPairs : μ → ConfPairs → μ
  /-- The switch is off. -/
  closeAll : μ → μ
  /-- The switch has another value. -/
  setSwitch : ℤ → μ → μ

inductive Exit where
  | finished
  | closeAll
  | endError
  deriving DecidableEq, Repr

/-- The variables of the loop; `p` and `blockStart` are indices into `rd_buf`. -/
structure Scan (μ : Type) where
  p : ℕ
  blockStart : ℕ
  blockStartFlag : Bool
  manager : μ

inductive Progress (μ : Type) where
  | next (scan : Scan μ)
  | exit (reason : Exit) (manager : μ)

/-- `rd_buf` after `fread` stored `content` in it. -/
def rdBuf (content : List Char) : Block BufferName Char :=
  { zeroed .rdBuf maxConfFileSize with stored := content }

section Model

variable {μ : Type} (dialect : Dialect μ) (rd : Block BufferName Char) (stop : ℕ)

/-- The loop that copies a switch line; at most 125 characters are kept. -/
def copySwitch : (room p : ℕ) → (buf : List Char) → Except Fault (ℕ × List Char)
  | 0, p, buf => .ok (p, buf)
  | room + 1, p, buf => do
      let c ← rd.read p
      if c = '\n' then .ok (p, buf)
      else if buf.length < 125 then
        if buf.length < 128 then copySwitch room (p + 1) (buf ++ [c])
        else .error (.outOfBounds .logSwitchBuf buf.length)
      else
        copySwitch room (p + 1) buf

/-- The character that decides the switch: the first one after the first `=`
that is no blank, on a line that names the switch. -/
def switchChar (buf : List Char) : Option Char :=
  if strstr buf dialect.switchStr then
    (((buf.dropWhile (· ≠ '=')).drop 1).dropWhile isBlank).head?
  else
    none

/-- The branch for a line that starts with `@`; `p` is behind the `@`. -/
def scanSwitch (scan : Scan μ) (p : ℕ) : Except Fault (Progress μ) := do
  let (p, buf) ← copySwitch rd (stop - p) p []
  let buf ← (zeroed .logSwitchBuf 128).copyTerminated buf
  match switchChar dialect buf.stored with
  | none => .ok (.next { scan with p := p + 1 })
  | some c =>
      if dialect.level c = 0 then .ok (.exit .closeAll (dialect.closeAll scan.manager))
      else .ok (.next { scan with
        p := p + 1
        manager := dialect.setSwitch (dialect.level c) scan.manager })

/-- `while((p != end) && (*p != '\n')) p++; if(p == end) break;` and the step to
the next line. -/
def finishLine (scan : Scan μ) : Except Fault (Progress μ) := do
  let p ← rd.advance (· ≠ '\n') (stop - scan.p) scan.p
  if p = stop then .ok (.exit .finished scan.manager)
  else .ok (.next { scan with p := p + 1 })

/-- `insert_new_node` and `mode_count++` when the block gave a section. -/
def insertParsed (manager : μ) : Option ConfPairs → μ
  | none => manager
  | some confPairs => dialect.insertPairs manager confPairs

end Model

/-! Where the loop over the file goes does not depend on what `handle_conf_block` does
with a section: the handler is a parameter from here on. -/

section Using

variable {μ : Type} (dialect : Dialect μ) (rd : Block BufferName Char)
  (handleBlock : ℕ → ℕ → Except Fault (Option ConfPairs)) (stop : ℕ)

/-- The branch for every line that is no switch line. -/
def scanBlockLineUsing (scan : Scan μ) (p : ℕ) : Except Fault (Progress μ) := do
  let c ← rd.read p
  if c = '-' ∧ scan.blockStartFlag = false then
    if ← rd.startsWith "-end".toList p then
      let newPairs ← handleBlock scan.blockStart p
      finishLine rd stop { scan with
        p := p
        blockStartFlag := true
        manager := insertParsed dialect scan.manager newPairs }
    else
      .ok (.exit .endError scan.manager)
  else if c = '-' then
    finishLine rd stop { scan with
      p := p + 1
      blockStart := p + 1
      blockStartFlag := false }
  else
    finishLine rd stop { scan with p := p }

/-- `if(*p == '@') { .. } else { .. }`, entered also behind a comment. -/
def scanDispatchUsing (scan : Scan μ) (p : ℕ) : Except Fault (Progress μ) := do
  let c ← rd.read p
  if c = '@' then scanSwitch dialect rd stop scan (p + 1)
  else scanBlockLineUsing dialect rd handleBlock stop scan p

def scanLineUsing (scan : Scan μ) : Except Fault (Progress μ) := do
  let p ← rd.advance (fun c => c ≠ '\n' && isBlank c) (stop - scan.p) scan.p
  let c ← rd.read p
  if c = '#' then
    let p ← rd.advance (· ≠ '\n') (stop - p) p
    scanDispatchUsing dialect rd handleBlock stop scan p
  else
    scanDispatchUsing dialect rd handleBlock stop scan p

/-- `while(p < end)`. -/
def scanFileUsing : (budget : ℕ) → Scan μ → Except Fault (Exit × μ)
  | 0, scan => if scan.p < stop then .error .unfinished else .ok (.finished, scan.manager)
  | budget + 1, scan =>
      if scan.p < stop then do
        match ← scanLineUsing dialect rd handleBlock stop scan with
        | .next scan => scanFileUsing budget scan
        | .exit reason manager => .ok (reason, manager)
      else
        .ok (.finished, scan.manager)

end Using

section File

variable {μ : Type} (dialect : Dialect μ)

/-- The loop on the bytes of a file, of which at most `MAX_CONF_FILE_SIZE` are
read, with `readToken` in the place of `get_string`. -/
def parseFileUsing (readToken : BufferName → List Char → Except Fault (Option (List Char)))
    (file : List Char) (manager : μ) : Except Fault (Exit × μ) :=
  let content := file.take maxConfFileSize
  scanFileUsing dialect (rdBuf content) (handleConfBlockUsing (rdBuf content) readToken)
    content.length content.length
    { p := 0, blockStart := 0, blockStartFlag := true, manager := manager }

/-- The loop on the bytes of a file, with `get_string` as the source has it. -/
def parseFile : List Char → μ → Except Fault (Exit × μ) :=
  parseFileUsing dialect getString

end File

/-- A buffer of `size` bytes that holds `content` and zeros behind it. -/
def readBuf (size : ℕ) (content : List Char) : Block BufferName Char :=
  { zeroed .rdBuf size with stored := content }

@[simp] theorem readBuf_stored (size : ℕ) (content : List Char) :
    (readBuf size content).stored = content := rfl
@[simp] theorem readBuf_size (size : ℕ) (content : List Char) :
    (readBuf size content).size = size := rfl
@[simp] theorem readBuf_name (size : ℕ) (content : List Char) :
    (readBuf size content).name = .rdBuf := rfl
@[simp] theorem readBuf_fill (size : ℕ) (content : List Char) :
    (readBuf size content).fill = nul := rfl

end Lctools.Conf
