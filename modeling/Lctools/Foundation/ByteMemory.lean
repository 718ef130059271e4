import Lctools.Foundation.Fallible
import Mathlib.Data.List.Basic

/-! # Numbers in byte memory

A machine whose memory is a list of bytes. A number of several bytes has its least
significant byte first; numbers from the network have it last, so that converting one
in place reverses its bytes. Touching a byte outside of the memory is a fault.
-/

namespace Lctools.ByteMemory

inductive Fault where
  /-- Some of the `width` bytes at `position` do not exist. -/
  | outside (position width : ℕ)
  deriving DecidableEq, Repr

/-! ## Numbers and their bytes -/

/-- The number with the given bytes, least significant first. -/
def value : List UInt8 → ℕ
  | [] => 0
  | byte :: bytes => byte.toNat + 256 * value bytes

/-- The `width` lowest bytes of a number. -/
def bytesOf : ℕ → ℕ → List UInt8
  | 0, _ => []
  | width + 1, number => UInt8.ofNat (number % 256) :: bytesOf width (number / 256)

/-- `ntohs` and `ntohl` for numbers of `width` bytes. -/
def ntoh (width number : ℕ) : ℕ :=
  value (bytesOf width number).reverse

theorem bytesOf_value (bytes : List UInt8) : bytesOf bytes.length (value bytes) = bytes := by
  induction bytes with
  | nil => rfl
  | cons byte bytes induction =>
      have small : byte.toNat < 256 := byte.toNat_lt
      have low : (byte.toNat + 256 * value bytes) % 256 = byte.toNat := by omega
      have high : (byte.toNat + 256 * value bytes) / 256 = value bytes := by omega
      rw [List.length_cons, value, bytesOf, low, high, induction, UInt8.ofNat_toNat]

/-! ## Access -/

def bytesAt (memory : List UInt8) (position width : ℕ) : List UInt8 :=
  (memory.drop position).take width

def load (memory : List UInt8) (position width : ℕ) : Except Fault ℕ :=
  if position + width ≤ memory.length then .ok (value (bytesAt memory position width))
  else .error (.outside position width)

def store (memory : List UInt8) (position width number : ℕ) : Except Fault (List UInt8) :=
  if position + width ≤ memory.length then
    .ok (memory.take position ++ bytesOf width number ++ memory.drop (position + width))
  else .error (.outside position width)

/-- The number at `position` is converted in place. -/
def convert (memory : List UInt8) (position width : ℕ) : Except Fault (List UInt8) := do
  let number ← load memory position width
  store memory position width (ntoh width number)

/-- Where the byte at `index` comes from when `width` bytes at `position` are reversed. -/
def mirror (position width index : ℕ) : ℕ :=
  if position ≤ index ∧ index < position + width then 2 * position + width - 1 - index else index

theorem bytesAt_length {memory : List UInt8} {position width : ℕ}
    (fits : position + width ≤ memory.length) : (bytesAt memory position width).length = width := by
  rw [bytesAt, List.length_take, List.length_drop]
  omega

theorem convert_error {memory : List UInt8} {position width : ℕ}
    (outside : memory.length < position + width) :
    convert memory position width = .error (.outside position width) :=
  Fallible.bind_error (if_neg (Nat.not_le_of_lt outside)) _

theorem convert_ok {memory : List UInt8} {position width : ℕ}
    (fits : position + width ≤ memory.length) :
    convert memory position width = .ok (memory.take position ++
      (bytesAt memory position width).reverse ++ memory.drop (position + width)) := by
  have loaded : load memory position width = .ok (value (bytesAt memory position width)) :=
    if_pos fits
  have bytes := bytesOf_value (bytesAt memory position width)
  have reversed := bytesOf_value (bytesAt memory position width).reverse
  rw [List.length_reverse, bytesAt_length fits] at reversed
  rw [bytesAt_length fits] at bytes
  rw [convert, Fallible.bind_ok loaded, store, if_pos fits, ntoh, bytes, reversed]

theorem convert_spec {memory : List UInt8} {position width : ℕ}
    (fits : position + width ≤ memory.length) :
    ∃ after, convert memory position width = .ok after ∧ after.length = memory.length ∧
      ∀ index : ℕ, after[index]? = memory[mirror position width index]? := by
  have length := bytesAt_length fits
  refine ⟨_, convert_ok fits, ?_, ?_⟩
  · simp only [List.length_append, List.length_take, List.length_reverse, length,
      List.length_drop]
    omega
  · intro index
    have lengthTake : (memory.take position).length = position := by
      rw [List.length_take]
      omega
    rw [mirror, List.append_assoc]
    cases Nat.lt_or_ge index position with
    | inl before =>
        rw [if_neg (by omega), List.getElem?_append_left (by omega), List.getElem?_take_of_lt before]
    | inr behind =>
        rw [List.getElem?_append_right (by omega), lengthTake]
        cases Nat.lt_or_ge index (position + width) with
        | inl inside =>
            rw [if_pos ⟨behind, inside⟩, List.getElem?_append_left (by
              rw [List.length_reverse, length]
              omega), List.getElem?_reverse (by omega), length, bytesAt,
              List.getElem?_take_of_lt (by omega), List.getElem?_drop]
            congr 1
            omega
        | inr after =>
            rw [if_neg (by omega), List.getElem?_append_right (by
              rw [List.length_reverse, length]
              omega), List.length_reverse, length, List.getElem?_drop]
            congr 1
            omega

theorem bytesAt_congr {first second : List UInt8} {position width : ℕ}
    (same : ∀ index : ℕ, position ≤ index → index < position + width →
      first[index]? = second[index]?) :
    bytesAt first position width = bytesAt second position width := by
  apply List.ext_getElem?
  intro index
  rw [bytesAt, bytesAt, List.getElem?_take, List.getElem?_take, List.getElem?_drop,
    List.getElem?_drop]
  split
  · exact same (position + index) (by omega) (by omega)
  · rfl

theorem bytesAt_convert {memory after : List UInt8} {position width : ℕ}
    (fits : position + width ≤ memory.length)
    (converted : convert memory position width = .ok after) :
    bytesAt after position width = (bytesAt memory position width).reverse := by
  rw [convert_ok fits] at converted
  injection converted with same
  have lengthTake : (memory.take position).length = position := by
    rw [List.length_take]
    omega
  have lengthMiddle : (bytesAt memory position width).reverse.length = width := by
    rw [List.length_reverse, bytesAt_length fits]
  rw [← same, List.append_assoc]
  unfold bytesAt at lengthMiddle ⊢
  rw [List.drop_left' lengthTake, List.take_left' lengthMiddle]

theorem mirror_single (position index : ℕ) : mirror position 1 index = index := by
  rw [mirror]
  split
  · omega
  · rfl

theorem mirror_outside {position width index : ℕ}
    (outside : index < position ∨ position + width ≤ index) :
    mirror position width index = index :=
  if_neg (by omega)

/-! ## Several numbers -/

/-- A number of `width` bytes that starts `offset` bytes behind the base of its record. -/
structure Field where
  offset : ℕ
  width : ℕ
  deriving DecidableEq, Repr

/-- The fields of the record at `base`, converted one after the other. -/
def convertAll (base : ℕ) : List Field → List UInt8 → Except Fault (List UInt8)
  | [], memory => .ok memory
  | field :: fields, memory => do
      let memory ← convert memory (base + field.offset) field.width
      convertAll base fields memory

theorem convertAll_spec {base : ℕ} {fields : List Field} {memory : List UInt8}
    (fits : ∀ field ∈ fields, base + field.offset + field.width ≤ memory.length) :
    ∃ after, convertAll base fields memory = .ok after ∧ after.length = memory.length ∧
      ∀ index : ℕ, (∀ field ∈ fields, mirror (base + field.offset) field.width index = index) →
        after[index]? = memory[index]? := by
  induction fields generalizing memory with
  | nil => exact ⟨memory, rfl, rfl, fun _ _ => rfl⟩
  | cons field fields induction =>
      rw [List.forall_mem_cons] at fits
      rcases convert_spec fits.1 with ⟨middle, converted, length, moved⟩
      rcases @induction middle (by rw [length]; exact fits.2) with
        ⟨after, others, lengthAfter, kept⟩
      refine ⟨after, ?_, lengthAfter.trans length, ?_⟩
      · rw [convertAll, Fallible.bind_ok converted, others]
      · intro index outside
        rw [List.forall_mem_cons] at outside
        rw [kept index outside.2, moved, outside.1]

theorem convertAll_fits {base : ℕ} {fields : List Field} {memory after : List UInt8}
    (converts : convertAll base fields memory = .ok after) :
    ∀ field ∈ fields, base + field.offset + field.width ≤ memory.length := by
  induction fields generalizing memory with
  | nil => nofun
  | cons field fields induction =>
      rw [convertAll] at converts
      cases Nat.lt_or_ge memory.length (base + field.offset + field.width) with
      | inl outside =>
          rw [Fallible.bind_error (convert_error outside)] at converts
          cases converts
      | inr fits =>
          rcases convert_spec fits with ⟨middle, converted, length, _⟩
          rw [Fallible.bind_ok converted] at converts
          have rest := induction converts
          rw [length] at rest
          exact List.forall_mem_cons.mpr ⟨fits, rest⟩

theorem convertAll_kept {base : ℕ} {fields : List Field} {memory after : List UInt8}
    (converts : convertAll base fields memory = .ok after) {index : ℕ}
    (fixed : ∀ field ∈ fields, mirror (base + field.offset) field.width index = index) :
    after[index]? = memory[index]? := by
  rcases convertAll_spec (convertAll_fits converts) with ⟨other, same, _, kept⟩
  rw [converts] at same
  injection same with same
  rw [same]
  exact kept index fixed

def Field.Apart (first second : Field) : Prop :=
  first.offset + first.width ≤ second.offset ∨ second.offset + second.width ≤ first.offset

instance (first second : Field) : Decidable (first.Apart second) :=
  inferInstanceAs (Decidable (_ ∨ _))

theorem bytesAt_convertAll {base : ℕ} {fields : List Field} {memory after : List UInt8}
    (apart : fields.Pairwise Field.Apart) (converts : convertAll base fields memory = .ok after) :
    ∀ field ∈ fields, bytesAt after (base + field.offset) field.width =
      (bytesAt memory (base + field.offset) field.width).reverse := by
  induction fields generalizing memory with
  | nil => nofun
  | cons first fields induction =>
      rw [List.pairwise_cons] at apart
      have fits := convertAll_fits converts first (List.mem_cons_self ..)
      rcases convert_spec fits with ⟨middle, converted, length, moved⟩
      rw [convertAll, Fallible.bind_ok converted] at converts
      intro field member
      rcases List.mem_cons.mp member with rfl | later
      · rw [← bytesAt_convert fits converted]
        apply bytesAt_congr
        intro index lower upper
        apply convertAll_kept converts
        intro other otherMember
        have separate := apart.1 other otherMember
        unfold Field.Apart at separate
        exact mirror_outside (by omega)
      · rw [induction apart.2 converts field later]
        congr 1
        apply bytesAt_congr
        intro index lower upper
        have separate := apart.1 field later
        unfold Field.Apart at separate
        rw [moved, mirror_outside (by omega)]

end Lctools.ByteMemory
