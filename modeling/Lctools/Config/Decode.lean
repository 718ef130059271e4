import Lctools.Config.Global

/-! # Typed reads of decimal numbers

`utils/config/iridium_conf.c`: the getters `get_iri_conf_int` to
`get_iri_conf_guint64`, and what they make of a stored decimal number.
-/

namespace Lctools.Config

open Conf CString Numerals

/-! ## The getters -/

def getIriConfInt (manager : Manager) (modeName itemName : List Char) : Except RefFault Value :=
  readIridiumConfigAndLog manager modeName itemName .intValue

def getIriConfDouble (manager : Manager) (modeName itemName : List Char) :
    Except RefFault Value :=
  readIridiumConfigAndLog manager modeName itemName .doubleValue

def getIriConfStr (manager : Manager) (modeName itemName : List Char) : Except RefFault Value :=
  readIridiumConfigAndLog manager modeName itemName .charStrValue

def getIriConfGint8 (manager : Manager) (modeName itemName : List Char) :
    Except RefFault Value :=
  readIridiumConfigAndLog manager modeName itemName .gint8Value

def getIriConfGint16 (manager : Manager) (modeName itemName : List Char) :
    Except RefFault Value :=
  readIridiumConfigAndLog manager modeName itemName .gint16Value

def getIriConfGint32 (manager : Manager) (modeName itemName : List Char) :
    Except RefFault Value :=
  readIridiumConfigAndLog manager modeName itemName .gint32Value

def getIriConfGint64 (manager : Manager) (modeName itemName : List Char) :
    Except RefFault Value :=
  readIridiumConfigAndLog manager modeName itemName .gint64Value

def getIriConfGuint8 (manager : Manager) (modeName itemName : List Char) :
    Except RefFault Value :=
  readIridiumConfigAndLog manager modeName itemName .guint8Value

def getIriConfGuint16 (manager : Manager) (modeName itemName : List Char) :
    Except RefFault Value :=
  readIridiumConfigAndLog manager modeName itemName .guint16Value

def getIriConfGuint32 (manager : Manager) (modeName itemName : List Char) :
    Except RefFault Value :=
  readIridiumConfigAndLog manager modeName itemName .guint32Value

def getIriConfGuint64 (manager : Manager) (modeName itemName : List Char) :
    Except RefFault Value :=
  readIridiumConfigAndLog manager modeName itemName .guint64Value

/-! ## Decoding -/

def TypeValue.values : TypeValue → Set ℤ
  | intValue | gint32Value => signedRange 32
  | gint8Value => signedRange 8
  | gint16Value => signedRange 16
  | gint64Value => signedRange 64
  | guint8Value => unsignedRange 8
  | guint16Value => unsignedRange 16
  | guint32Value => unsignedRange 32
  | guint64Value => unsignedRange 64
  | doubleValue | charStrValue => ∅

/-- A getter returns the only one of `values` that is congruent to `number`. -/
def ReturnsCongruent (returned : Except RefFault Value) (values : Set ℤ) (width : ℕ)
    (number : ℤ) : Prop :=
  ∃ value, returned = .ok (.integer value) ∧ value ∈ values ∧
    value ≡ number [ZMOD 2 ^ width] ∧
    ∀ other ∈ values, other ≡ number [ZMOD 2 ^ width] → other = value

theorem readIridiumConfigAndLog_stored {manager : Manager} {pair key source : List Char}
    (stored : getIridiumConfigValue manager pair key = .ok (some source)) (type : TypeValue) :
    readIridiumConfigAndLog manager pair key type = .ok (type.convert source) := by
  simp [readIridiumConfigAndLog, stored, bind, Except.bind]

/-- The types of 8 and 16 bits are converted through `int` or `unsigned long`,
which hold all their values. -/
theorem signedRange_narrow {width : ℕ} (narrow : width ≤ 31) {value : ℤ}
    (holds : value ∈ signedRange (width + 1)) : value ∈ signedRange 32 := by
  have wide : (2 : ℤ) ^ width ≤ 2 ^ 31 := pow_le_pow_right₀ (by decide) narrow
  rcases holds with ⟨lower, upper⟩
  simp only [Nat.add_sub_cancel] at lower upper
  exact ⟨by norm_num; omega, by norm_num; omega⟩

theorem unsignedRange_narrow {width : ℕ} (narrow : width ≤ 64) {value : ℤ}
    (holds : value ∈ unsignedRange width) : value ∈ unsignedRange 64 := by
  have wide : (2 : ℤ) ^ width ≤ 2 ^ 64 := pow_le_pow_right₀ (by decide) narrow
  rcases holds with ⟨lower, upper⟩
  exact ⟨lower, by omega⟩

/-- `%lu` stores the two's complement of a negative number, which is that number
when the target is signed. -/
theorem convert_gint64 {value : ℤ} (holds : value ∈ signedRange 64) :
    TypeValue.convert (decimalInt value) .gint64Value = .integer value := by
  have small : value.natAbs < 2 ^ 64 := by
    rcases holds with ⟨lower, upper⟩
    norm_num at lower upper ⊢
    omega
  have wrapped : wrapSigned 64 (wrapUnsigned 64 value) = value :=
    signedRange_unique (wrapSigned_mem 63 _) holds
      ((wrapSigned_modEq 64 _).trans (wrapUnsigned_modEq 64 value))
  rw [TypeValue.convert, sscanfUnsignedLong_decimalInt small, Option.getD_some, wrapped]

theorem convert_decimalInt (type : TypeValue) {value : ℤ} (holds : value ∈ type.values) :
    TypeValue.convert (decimalInt value) type = .integer value := by
  cases type with
  | intValue => rw [TypeValue.convert, sscanfInt_decimalInt holds, Option.getD_some]
  | doubleValue => exact absurd holds (Set.notMem_empty value)
  | charStrValue => exact absurd holds (Set.notMem_empty value)
  | gint8Value =>
      rw [TypeValue.convert, atoi_decimalInt (signedRange_narrow (by decide) holds),
        wrapSigned_of_mem holds]
  | gint16Value =>
      rw [TypeValue.convert, atoi_decimalInt (signedRange_narrow (by decide) holds),
        wrapSigned_of_mem holds]
  | gint32Value => rw [TypeValue.convert, sscanfInt_decimalInt holds, Option.getD_some]
  | gint64Value => exact convert_gint64 holds
  | guint8Value =>
      rw [TypeValue.convert, strtoul_decimalInt (unsignedRange_narrow (by decide) holds),
        wrapUnsigned_of_mem holds]
  | guint16Value =>
      rw [TypeValue.convert, strtoul_decimalInt (unsignedRange_narrow (by decide) holds),
        wrapUnsigned_of_mem holds]
  | guint32Value => rw [TypeValue.convert, sscanfUnsigned_decimalInt holds, Option.getD_some]
  | guint64Value =>
      have small : value.natAbs < 2 ^ 64 := by
        rcases holds with ⟨lower, upper⟩
        omega
      rw [TypeValue.convert, sscanfUnsignedLong_decimalInt small, Option.getD_some,
        wrapUnsigned_of_mem holds]

theorem returnsCongruent_signed (width : ℕ) (number : ℤ) :
    ReturnsCongruent (.ok (.integer (wrapSigned (width + 1) number)))
      (signedRange (width + 1)) (width + 1) number :=
  ⟨_, rfl, wrapSigned_mem width number, wrapSigned_modEq _ number,
    fun _ otherIn congruent => signedRange_unique otherIn (wrapSigned_mem width number)
      (congruent.trans (wrapSigned_modEq _ number).symm)⟩

theorem returnsCongruent_unsigned (width : ℕ) (number : ℤ) :
    ReturnsCongruent (.ok (.integer (wrapUnsigned width number))) (unsignedRange width) width
      number :=
  ⟨_, rfl, wrapUnsigned_mem width number, wrapUnsigned_modEq _ number,
    fun _ otherIn congruent => unsignedRange_unique otherIn (wrapUnsigned_mem width number)
      (congruent.trans (wrapUnsigned_modEq _ number).symm)⟩

/-- Every integer getter returns a stored decimal number of its type unchanged,
and the getters of 8 and 16 bits reduce any number that the intermediate type
holds to their own width. -/
theorem getters_decode_decimal {manager : Manager} {modeName itemName : List Char}
    {number : ℤ}
    (stored : getIridiumConfigValue manager modeName itemName =
      .ok (some (decimalInt number))) :
    ((number ∈ signedRange 32 →
        getIriConfInt manager modeName itemName = .ok (.integer number)) ∧
      (number ∈ signedRange 8 →
        getIriConfGint8 manager modeName itemName = .ok (.integer number)) ∧
      (number ∈ signedRange 16 →
        getIriConfGint16 manager modeName itemName = .ok (.integer number)) ∧
      (number ∈ signedRange 32 →
        getIriConfGint32 manager modeName itemName = .ok (.integer number)) ∧
      (number ∈ signedRange 64 →
        getIriConfGint64 manager modeName itemName = .ok (.integer number)) ∧
      (number ∈ unsignedRange 8 →
        getIriConfGuint8 manager modeName itemName = .ok (.integer number)) ∧
      (number ∈ unsignedRange 16 →
        getIriConfGuint16 manager modeName itemName = .ok (.integer number)) ∧
      (number ∈ unsignedRange 32 →
        getIriConfGuint32 manager modeName itemName = .ok (.integer number)) ∧
      (number ∈ unsignedRange 64 →
        getIriConfGuint64 manager modeName itemName = .ok (.integer number))) ∧
    (number ∈ signedRange 32 →
      ReturnsCongruent (getIriConfGint8 manager modeName itemName) (signedRange 8) 8 number ∧
      ReturnsCongruent (getIriConfGint16 manager modeName itemName) (signedRange 16) 16
        number) ∧
    (number ∈ unsignedRange 64 →
      ReturnsCongruent (getIriConfGuint8 manager modeName itemName) (unsignedRange 8) 8
        number ∧
      ReturnsCongruent (getIriConfGuint16 manager modeName itemName) (unsignedRange 16) 16
        number) := by
  have decodes (type : TypeValue) (holds : number ∈ type.values) :
      readIridiumConfigAndLog manager modeName itemName type = .ok (.integer number) := by
    rw [readIridiumConfigAndLog_stored stored, convert_decimalInt type holds]
  refine ⟨⟨decodes .intValue, decodes .gint8Value, decodes .gint16Value, decodes .gint32Value,
    decodes .gint64Value, decodes .guint8Value, decodes .guint16Value, decodes .guint32Value,
    decodes .guint64Value⟩, ?_, ?_⟩
  · intro holds
    have narrowed := atoi_decimalInt holds
    rw [getIriConfGint8, getIriConfGint16, readIridiumConfigAndLog_stored stored,
      readIridiumConfigAndLog_stored stored, TypeValue.convert, TypeValue.convert, narrowed]
    exact ⟨returnsCongruent_signed 7 number, returnsCongruent_signed 15 number⟩
  · intro holds
    have narrowed := strtoul_decimalInt holds
    rw [getIriConfGuint8, getIriConfGuint16, readIridiumConfigAndLog_stored stored,
      readIridiumConfigAndLog_stored stored, TypeValue.convert, TypeValue.convert, narrowed]
    exact ⟨returnsCongruent_unsigned 8 number, returnsCongruent_unsigned 16 number⟩

/-- A manager that holds the section `-net` with the line `offset=-200`. -/
def offsetManager : Manager :=
  filled
    { table := [(⟨0, "net".toList⟩,
        ⟨0, { modeName := "net".toList
              pairs := [{ name := "offset".toList, value := decimalInt (-200) }] }⟩)]
      modeCount := 1 }

theorem getters_decode_decimal_offset :
    getIriConfGint16 offsetManager "net".toList "offset".toList = .ok (.integer (-200)) ∧
      ReturnsCongruent (getIriConfGint8 offsetManager "net".toList "offset".toList)
        (signedRange 8) 8 (-200) :=
  have decoded := getters_decode_decimal
    (show getIridiumConfigValue offsetManager "net".toList "offset".toList =
      .ok (some (decimalInt (-200))) by decide)
  ⟨decoded.1.2.2.1 ⟨by decide, by decide⟩, (decoded.2.1 ⟨by decide, by decide⟩).1⟩

end Lctools.Config
